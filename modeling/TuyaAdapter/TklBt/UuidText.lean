import TuyaAdapter.Foundation.FixedHex
import TuyaAdapter.TklBt.AdvData
import TuyaAdapter.TklBt.Handles

/-!
Contract: the texts that `uuid_to_string` writes.

A 128-bit UUID is written in groups of 4, 2, 2, 2 and 6 bytes, and a 16-bit one
as its expansion on the Bluetooth base UUID. The text of a 32-bit UUID has the
four zeros of a 16-bit one before its eight digits, and is cut to 39 characters.
-/

namespace TuyaAdapter.TklBt

open Foundation.Decimal Foundation.FixedHex

/-! ## The property -/

def BleUuid.width : BleUuid → Nat
  | .uuid16 _ => 16
  | .uuid32 _ => 32
  | .uuid128 _ => 128
  | .other => 0

/-- The bytes of a number on the Bluetooth base UUID, little-endian. -/
def baseExpansion (value : Nat) : Vector UInt8 16 :=
  #v[0xfb, 0x34, 0x9b, 0x5f, 0x80, 0x00, 0x00, 0x80, 0x00, 0x10, 0x00, 0x00,
    .ofNat value, .ofNat (value / 256), .ofNat (value / 65536), .ofNat (value / 16777216)]

/-- The 128-bit UUID that stands for this one. -/
def BleUuid.expansion : BleUuid → BleUuid
  | .uuid16 value => .uuid128 (baseExpansion value.toNat)
  | .uuid32 value => .uuid128 (baseExpansion value.toNat)
  | uuid => uuid

/-- A text of so many lowercase hexadecimal digits. -/
def IsHexGroup (width : Nat) (text : Text) : Prop :=
  text.length = width ∧ ∀ char ∈ text, isLowerHex char = true

/-- The form 8-4-4-4-12. -/
def IsUuidText (text : Text) : Prop :=
  ∃ timeLow timeMid timeHi clockSeq node,
    text = timeLow ++ '-' :: timeMid ++ '-' :: timeHi ++ '-' :: clockSeq ++ '-' :: node ∧
      IsHexGroup 8 timeLow ∧ IsHexGroup 4 timeMid ∧ IsHexGroup 4 timeHi ∧
      IsHexGroup 4 clockSeq ∧ IsHexGroup 12 node

/-- The UUID has a text of the form, which no other of the width has, and which
is the text of its expansion. -/
structure HasCanonicalText (uuid : BleUuid) : Prop where
  form : IsUuidText uuid.text
  injective : ∀ alike : BleUuid, alike.width = uuid.width → alike.text = uuid.text → alike = uuid
  agrees : uuid.text = uuid.expansion.text

theorem IsUuidText.length {text : Text} (form : IsUuidText text) : text.length = 36 := by
  obtain ⟨timeLow, timeMid, timeHi, clockSeq, node, isText, low, mid, hi, clock, isNode⟩ := form
  rw [isText]
  simp only [List.length_append, List.length_cons, low.1, mid.1, hi.1, clock.1, isNode.1]

/-! ## Groups of bytes -/

theorem hex_eq {width value : Nat} (positive : 0 < width) (fits : value < 16 ^ width) :
    hex width value = hexDigits width value :=
  leftpad_toDigits positive fits

theorem hex_byte (byte : UInt8) : hex 2 byte.toNat = hexDigits 2 byte.toNat :=
  hex_eq (by decide) byte.toNat_lt

theorem hexBytes_isHexGroup (bytes : Vector UInt8 16) (first count : Nat) :
    IsHexGroup (2 * count) (hexBytes bytes first count) := by
  induction count generalizing first with
  | zero => exact ⟨rfl, fun char member => absurd member List.not_mem_nil⟩
  | succ count inductionHypothesis =>
      obtain ⟨restLength, restLower⟩ := inductionHypothesis (first - 1)
      rw [hexBytes, hex_byte]
      constructor
      · rw [List.length_append, hexDigits_length, restLength]
        omega
      · intro char member
        rcases List.mem_append.mp member with inByte | inRest
        · exact hexDigits_isLowerHex inByte
        · exact restLower char inRest

theorem hexBytes_length (bytes : Vector UInt8 16) (first count : Nat) :
    (hexBytes bytes first count).length = 2 * count :=
  (hexBytes_isHexGroup bytes first count).1

/-- A group determines its bytes. -/
theorem hexBytes_injective {left right : Vector UInt8 16} {first count : Nat}
    (same : hexBytes left first count = hexBytes right first count) {index : Nat}
    (inside : index < 16) (fromFirst : index ≤ first) (within : first < index + count) :
    left[index] = right[index] := by
  induction count generalizing first with
  | zero => omega
  | succ count inductionHypothesis =>
      rw [hexBytes, hexBytes, hex_byte, hex_byte] at same
      obtain ⟨sameByte, sameRest⟩ := List.append_inj same (by rw [hexDigits_length, hexDigits_length])
      by_cases isFirst : index = first
      · have byte := UInt8.toNat_inj.mp
          (hexDigits_injective (UInt8.toNat_lt _) (UInt8.toNat_lt _) sameByte)
        rw [← isFirst, Vector.getElem?_eq_getElem inside, Vector.getElem?_eq_getElem inside] at byte
        exact byte
      · exact inductionHypothesis sameRest (by omega) (by omega)

/-! ## 128-bit UUIDs -/

theorem text_uuid128 (bytes : Vector UInt8 16) :
    (BleUuid.uuid128 bytes).text =
      hexBytes bytes 15 4 ++ '-' :: hexBytes bytes 11 2 ++ '-' :: hexBytes bytes 9 2 ++
        '-' :: hexBytes bytes 7 2 ++ '-' :: hexBytes bytes 5 6 := by
  show snprintf40 _ = _
  unfold snprintf40
  apply List.take_of_length_le
  simp only [List.length_append, List.length_cons, hexBytes_length]
  decide

theorem text_uuid128_form (bytes : Vector UInt8 16) : IsUuidText (BleUuid.uuid128 bytes).text :=
  ⟨hexBytes bytes 15 4, hexBytes bytes 11 2, hexBytes bytes 9 2, hexBytes bytes 7 2,
    hexBytes bytes 5 6, text_uuid128 bytes, hexBytes_isHexGroup bytes 15 4,
    hexBytes_isHexGroup bytes 11 2, hexBytes_isHexGroup bytes 9 2, hexBytes_isHexGroup bytes 7 2,
    hexBytes_isHexGroup bytes 5 6⟩

theorem text_uuid128_injective {left right : Vector UInt8 16}
    (same : (BleUuid.uuid128 left).text = (BleUuid.uuid128 right).text) : left = right := by
  rw [text_uuid128, text_uuid128] at same
  obtain ⟨same, node⟩ := List.append_inj' same
    (by simp only [List.length_cons, hexBytes_length])
  obtain ⟨same, clockSeq⟩ := List.append_inj' same
    (by simp only [List.length_cons, hexBytes_length])
  obtain ⟨same, timeHi⟩ := List.append_inj' same
    (by simp only [List.length_cons, hexBytes_length])
  obtain ⟨timeLow, timeMid⟩ := List.append_inj' same
    (by simp only [List.length_cons, hexBytes_length])
  apply Vector.ext
  intro index inside
  by_cases inNode : index < 6
  · exact hexBytes_injective (List.cons.inj node).2 inside (by omega) (by omega)
  by_cases inClockSeq : index < 8
  · exact hexBytes_injective (List.cons.inj clockSeq).2 inside (by omega) (by omega)
  by_cases inTimeHi : index < 10
  · exact hexBytes_injective (List.cons.inj timeHi).2 inside (by omega) (by omega)
  by_cases inTimeMid : index < 12
  · exact hexBytes_injective (List.cons.inj timeMid).2 inside (by omega) (by omega)
  · exact hexBytes_injective timeLow inside (by omega) (by omega)

/-! ## 16-bit UUIDs -/

/-- The low bytes of an expansion are those of the base UUID. -/
theorem hexBytes_base (value : Nat) :
    hexBytes (baseExpansion value) 11 2 = "0000".toList ∧
      hexBytes (baseExpansion value) 9 2 = "1000".toList ∧
      hexBytes (baseExpansion value) 7 2 = "8000".toList ∧
      hexBytes (baseExpansion value) 5 6 = "00805f9b34fb".toList := by
  simp [hexBytes, baseExpansion, hex, Nat.toDigits_eq_if, Nat.digitChar]

/-- The high bytes of an expansion are those of the number. -/
theorem hexBytes_value (value : Nat) :
    hexBytes (baseExpansion value) 15 4 = hexDigits 8 value := by
  have byte (number : Nat) : hex 2 (UInt8.ofNat number).toNat = hexDigits 2 number := by
    rw [hex_byte, UInt8.toNat_ofNat', ← hexDigits_mod 2 number]
    rfl
  show hex 2 (UInt8.ofNat (value / 16777216)).toNat ++ (hex 2 (UInt8.ofNat (value / 65536)).toNat ++
    (hex 2 (UInt8.ofNat (value / 256)).toNat ++ (hex 2 (UInt8.ofNat value).toNat ++ []))) = _
  rw [byte, byte, byte, byte, List.append_nil, hexDigits_append 2 6, hexDigits_append 2 4,
    hexDigits_append 2 2]
  simp only [Nat.reducePow]

theorem text_uuid16 (value : UInt16) :
    (BleUuid.uuid16 value).text = "0000".toList ++ hex 4 value.toNat ++ baseUuid := by
  show snprintf40 _ = _
  unfold snprintf40
  apply List.take_of_length_le
  rw [hex_eq (by decide) value.toNat_lt]
  simp only [List.length_append, hexDigits_length]
  decide

theorem text_uuid16_expansion (value : UInt16) :
    (BleUuid.uuid16 value).text = (BleUuid.uuid128 (baseExpansion value.toNat)).text := by
  have fits : value.toNat < 16 ^ 4 := value.toNat_lt
  have high : hexDigits 8 value.toNat = "0000".toList ++ hexDigits 4 value.toNat := by
    rw [hexDigits_append 4 4, Nat.div_eq_of_lt fits]
    rfl
  have low : baseUuid = '-' :: "0000".toList ++ '-' :: "1000".toList ++ '-' :: "8000".toList ++
      '-' :: "00805f9b34fb".toList := by decide
  obtain ⟨timeMid, timeHi, clockSeq, node⟩ := hexBytes_base value.toNat
  rw [text_uuid16, text_uuid128, hexBytes_value, hex_eq (by decide) fits, high, timeMid, timeHi,
    clockSeq, node, low]
  simp only [List.append_assoc, List.cons_append]

/-- The texts that the parser of advertising data writes have the form that
`binc_advertisement_set_service_data` asserts. -/
theorem uuid16Text_form (value : UInt16) : IsUuidText (uuid16Text value) := by
  have form := text_uuid128_form (baseExpansion value.toNat)
  rw [← text_uuid16_expansion] at form
  exact form

theorem baseExpansion_injective {left right : Nat} (leftFits : left < 16 ^ 8)
    (rightFits : right < 16 ^ 8) (same : baseExpansion left = baseExpansion right) :
    left = right := by
  have digits : hexDigits 8 left = hexDigits 8 right := by
    rw [← hexBytes_value, ← hexBytes_value, same]
  exact hexDigits_injective leftFits rightFits digits

/-! ## 32-bit UUIDs -/

theorem text_uuid32_length (value : UInt32) : (BleUuid.uuid32 value).text.length = 39 := by
  show (snprintf40 ("0000".toList ++ hex 8 value.toNat ++ baseUuid)).length = 39
  unfold snprintf40
  rw [hex_eq (by decide) value.toNat_lt]
  simp only [List.length_take, List.length_append, hexDigits_length]
  decide

/-! ## Which texts are canonical -/

/-- A UUID of one of the three widths has a canonical text exactly when the
width is not 32. -/
theorem uuidToString_canonical_iff {uuid : BleUuid} (valid : uuid.Valid) :
    HasCanonicalText uuid ↔ uuid.width ≠ 32 := by
  cases uuid with
  | uuid16 value =>
      refine ⟨fun _ => by simp [BleUuid.width], fun _ => ⟨?_, ?_, text_uuid16_expansion value⟩⟩
      · rw [text_uuid16_expansion]
        exact text_uuid128_form _
      · intro alike sameWidth same
        cases alike with
        | uuid16 number =>
            rw [text_uuid16_expansion, text_uuid16_expansion] at same
            have numberFits := number.toNat_lt
            have valueFits := value.toNat_lt
            rw [UInt16.toNat_inj.mp (baseExpansion_injective (by omega) (by omega)
              (text_uuid128_injective same))]
        | _ => simp [BleUuid.width] at sameWidth
  | uuid32 value =>
      constructor
      · intro canonical
        have length := canonical.form.length
        rw [text_uuid32_length] at length
        exact absurd length (by decide)
      · exact fun wide => absurd rfl wide
  | uuid128 bytes =>
      refine ⟨fun _ => by simp [BleUuid.width], fun _ => ⟨text_uuid128_form bytes, ?_, rfl⟩⟩
      intro alike sameWidth same
      cases alike with
      | uuid128 others => rw [text_uuid128_injective same]
      | _ => simp [BleUuid.width] at sameWidth
  | other => exact absurd rfl valid

/-- A 16-bit UUID. -/
theorem uuidToString_deviceInformation : HasCanonicalText (.uuid16 0x180A) :=
  have valid : (BleUuid.uuid16 0x180A).Valid := by decide
  (uuidToString_canonical_iff valid).mpr (by decide)

/-- One number as a 16-bit and as a 32-bit UUID. -/
theorem uuidToString_widths_disagree :
    (BleUuid.uuid16 0x180A).text = "0000180a-0000-1000-8000-00805f9b34fb".toList ∧
      (BleUuid.uuid32 0x180A).text = "00000000180a-0000-1000-8000-00805f9b34f".toList ∧
      ¬ HasCanonicalText (.uuid32 0x180A) := by
  refine ⟨by decide +kernel, by decide +kernel, fun canonical => ?_⟩
  exact absurd (canonical.form.length.symm.trans (text_uuid32_length 0x180A)) (by decide)

end TuyaAdapter.TklBt
