import Mathlib.Algebra.Order.Group.Nat
import TuyaAdapter.TklOta.Model

/-!
Contract: the upgrade file holds the image.

The packets of an image follow a handshake: every packet begins at the first
byte that was not consumed, and the bytes reported as unconsumed are sent again.
All but the last packet must have the hundred bytes that are held back.
-/

namespace TuyaAdapter.TklOta

open Foundation

/-! ## Packets of an image -/

/-- The packet carries the bytes of the image from a position on. -/
structure Carries (image : List UInt8) (position : Nat) (pack : Pack) : Prop where
  total : pack.totalLen.toNat = image.length
  offset : pack.offset.toNat = position
  notEmpty : 1 ≤ pack.len.toNat
  inside : position + pack.len.toNat ≤ image.length
  data : ∀ index, index < pack.len.toNat → image[position + index]? = some (pack.data index)

/-- The packets follow the handshake: each begins at the first byte that was
not consumed. The sequence may stop anywhere. -/
def Follows (image : List UInt8) : Nat → List Pack → Prop
  | _, [] => True
  | position, pack :: rest =>
      Carries image position pack ∧
        (rest = [] ∨ ∃ next, next + pack.remainLen = position + pack.len.toNat ∧
          Follows image next rest)

/-- The state after `tkl_ota_data_process` on every packet. -/
def processAll : Ota → List Pack → Ota
  | ota, [] => ota
  | ota, pack :: rest => processAll (tklOtaDataProcess ota pack).1 rest

/-- The packet reaches the end of the image. -/
def Pack.Last (pack : Pack) : Prop := pack.offset.toNat + pack.len.toNat = pack.totalLen.toNat

instance (pack : Pack) : Decidable pack.Last := inferInstanceAs (Decidable (_ = _))

/-- No call reads beyond the packet it is given, and once a packet reaches the
end the file holds the image. -/
structure WritesImage (image : List UInt8) (ota : Ota) (packs : List Pack) : Prop where
  inside : ∀ pack ∈ packs, pack.fwriteCount ≤ pack.len.toNat
  written : ∀ pack ∈ packs, pack.Last → (processAll ota packs).contents = image

/-- The packet reaches the end of the image or has the bytes that are held
back. -/
def Pack.LongEnough (pack : Pack) : Prop := pack.Last ∨ 100 ≤ pack.len.toNat

instance (pack : Pack) : Decidable pack.LongEnough := inferInstanceAs (Decidable (_ ∨ _))

/-! ## One packet -/

section Packet

variable {image : List UInt8} {position : Nat} {pack : Pack}

/-- The end of a packet of an image does not wrap, so that the comparison of the
source asks for the last packet. -/
theorem Carries.last_iff (carries : Carries image position pack) :
    pack.offset + pack.len = pack.totalLen ↔ pack.Last := by
  have fits : pack.offset.toNat + pack.len.toNat < 2 ^ 32 := by
    have total := pack.totalLen.toNat_lt
    have inside := carries.inside
    rw [carries.total] at total
    rw [carries.offset]
    omega
  rw [← UInt32.toNat_inj, UInt32.toNat_add, Nat.mod_eq_of_lt fits]
  exact Iff.rfl

/-- The last packet is written whole. -/
theorem Carries.count_of_last (carries : Carries image position pack) (last : pack.Last) :
    pack.fwriteCount = pack.len.toNat ∧ pack.remainLen = 0 := by
  unfold Pack.fwriteCount Pack.remainLen
  simp [carries.last_iff.mpr last]

/-- Another packet is written less its last hundred bytes; with fewer bytes the
count wraps. -/
theorem Carries.count_of_not_last (carries : Carries image position pack) (notLast : ¬ pack.Last) :
    pack.fwriteCount = (if 100 ≤ pack.len.toNat then pack.len.toNat - 100
      else 2 ^ 32 - 100 + pack.len.toNat) ∧ pack.remainLen = 100 := by
  have differs : pack.offset + pack.len ≠ pack.totalLen := by
    intro same
    exact notLast (carries.last_iff.mp same)
  have small := pack.len.toNat_lt
  have hundred : (100 : UInt32).toNat = 100 := by decide
  unfold Pack.fwriteCount Pack.remainLen
  rw [if_pos differs, if_pos differs, UInt32.toNat_sub, hundred]
  refine ⟨?_, rfl⟩
  split
  · omega
  · omega

/-- A call stays inside its packet exactly when the packet is long enough. -/
theorem Carries.inside_iff (carries : Carries image position pack) :
    pack.fwriteCount ≤ pack.len.toNat ↔ pack.LongEnough := by
  by_cases last : pack.Last
  · rw [(carries.count_of_last last).1]
    simp [Pack.LongEnough, last]
  · rw [(carries.count_of_not_last last).1]
    simp only [Pack.LongEnough, last, false_or]
    split
    · omega
    · omega

/-- The bytes a call writes continue the image. -/
theorem Carries.append_written (carries : Carries image position pack) {count : Nat}
    (inside : count ≤ pack.len.toNat) :
    image.take position ++ (List.range count).map pack.data = image.take (position + count) := by
  have bytes : (List.range count).map pack.data = (image.drop position).take count := by
    apply List.ext_getElem?
    intro index
    by_cases below : index < count
    · rw [List.getElem?_map, List.getElem?_range below, List.getElem?_take_of_lt below,
        List.getElem?_drop, carries.data index (by omega)]
      rfl
    · rw [List.getElem?_eq_none (by simpa using below),
        List.getElem?_eq_none (by simp only [List.length_take]; omega)]
  rw [bytes, List.take_add]

/-- The state after a packet that continues the image. -/
theorem Carries.process (carries : Carries image position pack) {ota : Ota} {file : Nat}
    (isOpen : ota.upgradeFd = some file) (sofar : ota.contents = image.take position)
    (inside : pack.fwriteCount ≤ pack.len.toNat) :
    (tklOtaDataProcess ota pack).1.upgradeFd = some file ∧
      (tklOtaDataProcess ota pack).1.contents = image.take (position + pack.fwriteCount) := by
  simp only [tklOtaDataProcess, Ota.fwrite, isOpen]
  refine ⟨trivial, ?_⟩
  rw [sofar, carries.append_written inside]

end Packet

/-! ## Every packet -/

/-- While every packet is long enough the file holds the image up to the first
byte that was not consumed, and in the end all of it. -/
theorem processAll_contents {image : List UInt8} {packs : List Pack} {ota : Ota} {file : Nat}
    {position : Nat} (isOpen : ota.upgradeFd = some file)
    (sofar : ota.contents = image.take position) (follows : Follows image position packs)
    (long : ∀ pack ∈ packs, pack.LongEnough) {last : Pack} (member : last ∈ packs)
    (isLast : last.Last) : (processAll ota packs).contents = image := by
  induction packs generalizing ota position with
  | nil => exact absurd member (by simp)
  | cons pack rest inductionHypothesis =>
      obtain ⟨carries, continues⟩ := follows
      have inside := carries.inside_iff.mpr (long pack (by simp))
      obtain ⟨stillOpen, written⟩ := carries.process isOpen sofar inside
      by_cases here : pack.Last
      · obtain ⟨count, remain⟩ := carries.count_of_last here
        have atEnd : position + pack.len.toNat = image.length := by
          rw [← carries.offset, ← carries.total]
          exact here
        rcases continues with isNil | ⟨next, isNext, later⟩
        · rw [isNil]
          simp only [processAll]
          rw [written, count, atEnd, List.take_length]
        · -- Behind the last byte there is no packet.
          cases rest with
          | nil =>
              simp only [processAll]
              rw [written, count, atEnd, List.take_length]
          | cons other others =>
              have fits := later.1.inside
              have notEmpty := later.1.notEmpty
              omega
      · have inRest : last ∈ rest := by
          rcases List.mem_cons.mp member with isHere | isLater
          · exact absurd (isHere ▸ isLast) here
          · exact isLater
        rcases continues with isNil | ⟨next, isNext, later⟩
        · rw [isNil] at inRest
          exact absurd inRest (by simp)
        · obtain ⟨count, remain⟩ := carries.count_of_not_last here
          have enough : 100 ≤ pack.len.toNat := (long pack (by simp)).resolve_left here
          rw [if_pos enough] at count
          have isPosition : position + pack.fwriteCount = next := by omega
          rw [isPosition] at written
          exact inductionHypothesis stillOpen written later
            (fun other isOther => long other (by simp [isOther])) inRest

/-- Every packet of a sequence that follows the handshake carries its part of
the image. -/
theorem Follows.carries {image : List UInt8} {packs : List Pack} {position : Nat}
    (follows : Follows image position packs) {pack : Pack} (member : pack ∈ packs) :
    ∃ start, Carries image start pack := by
  induction packs generalizing position with
  | nil => exact absurd member (by simp)
  | cons first rest inductionHypothesis =>
      rcases List.mem_cons.mp member with isFirst | isLater
      · exact ⟨position, isFirst ▸ follows.1⟩
      · rcases follows.2 with isNil | ⟨next, -, later⟩
        · rw [isNil] at isLater
          exact absurd isLater (by simp)
        · exact inductionHypothesis later isLater

theorem start_opens {ota started : Ota} {opens : Bool}
    (starts : tklOtaStartNotify ota opens = (started, .ok)) :
    (∃ file, started.upgradeFd = some file) ∧ started.contents = [] := by
  unfold tklOtaStartNotify Ota.fopen at starts
  cases opens with
  | false => simp at starts
  | true =>
      simp only [if_true, Option.isNone_some, Bool.false_eq_true, if_false] at starts
      obtain ⟨rfl, -⟩ := Prod.mk.inj starts
      exact ⟨⟨_, rfl⟩, rfl⟩

/-- The upgrade file gets exactly the image, from inside the packets, if and
only if every packet but the one that reaches the end has the hundred bytes
that are held back. -/
theorem ota_writes_image_iff {image : List UInt8} {ota started : Ota} {opens : Bool}
    {packs : List Pack} (starts : tklOtaStartNotify ota opens = (started, .ok))
    (follows : Follows image 0 packs) :
    WritesImage image started packs ↔ ∀ pack ∈ packs, pack.LongEnough := by
  obtain ⟨⟨file, isOpen⟩, isEmpty⟩ := start_opens starts
  constructor
  · intro writes pack member
    obtain ⟨start, carries⟩ := follows.carries member
    exact carries.inside_iff.mp (writes.inside pack member)
  · intro long
    refine ⟨?_, ?_⟩
    · intro pack member
      obtain ⟨start, carries⟩ := follows.carries member
      exact carries.inside_iff.mpr (long pack member)
    · intro pack member isLast
      exact processAll_contents isOpen (by simp [isEmpty]) follows long member isLast

/-- An image of three hundred equal bytes. -/
def sevens : List UInt8 := List.replicate 300 7

/-- A packet of that image. -/
def sevensPack (offset len : UInt32) : Pack := ⟨300, offset, fun _ => 7, len⟩

theorem carries_sevens (offset len : UInt32) {position : Nat} (isOffset : offset.toNat = position)
    (notEmpty : 1 ≤ len.toNat) (inside : position + len.toNat ≤ 300) :
    Carries sevens position (sevensPack offset len) where
  total := (List.length_replicate).symm
  offset := isOffset
  notEmpty := notEmpty
  inside := inside.trans (Nat.le_of_eq (List.length_replicate).symm)
  data := by
    intro index below
    have within : position + index < 300 :=
      Nat.lt_of_lt_of_le (Nat.add_lt_add_left below position) inside
    exact List.getElem?_replicate_of_lt within

/-- Three hundred bytes in two packets of two hundred. -/
theorem ota_writes_two_packets :
    WritesImage sevens (tklOtaStartNotify .fresh true).1
      [sevensPack 0 200, sevensPack 100 200] := by
  have follows : Follows sevens 0 [sevensPack 0 200, sevensPack 100 200] :=
    ⟨carries_sevens 0 200 rfl (by decide) (by decide), Or.inr ⟨100, by decide,
      carries_sevens 100 200 rfl (by decide) (by decide), Or.inl rfl⟩⟩
  have starts : tklOtaStartNotify .fresh true = ((tklOtaStartNotify .fresh true).1, .ok) := rfl
  refine (ota_writes_image_iff starts follows).mpr ?_
  intro pack member
  simp only [List.mem_cons, List.not_mem_nil, or_false] at member
  rcases member with rfl | rfl
  · decide
  · decide

/-- The second packet has fifty bytes and does not reach the end: `fwrite` is
asked for `2 ^ 32 - 50` bytes of it. -/
theorem ota_short_packet_overruns :
    Follows sevens 0 [sevensPack 0 200, sevensPack 100 50, sevensPack 50 250] ∧
      (sevensPack 100 50).fwriteCount = 4294967246 ∧
      ¬ WritesImage sevens (tklOtaStartNotify .fresh true).1
        [sevensPack 0 200, sevensPack 100 50, sevensPack 50 250] := by
  refine ⟨⟨carries_sevens 0 200 rfl (by decide) (by decide), Or.inr ⟨100, by decide,
    carries_sevens 100 50 rfl (by decide) (by decide), Or.inr ⟨50, by decide,
      carries_sevens 50 250 rfl (by decide) (by decide), Or.inl rfl⟩⟩⟩, by decide, ?_⟩
  intro writes
  have inside := writes.inside (sevensPack 100 50) (by simp)
  exact absurd inside (by decide)

end TuyaAdapter.TklOta
