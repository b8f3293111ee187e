import TuyaAdapter.LinuxWifi.ScanAp
import TuyaAdapter.OperateRet

/-!
Contract: `tkl_wifi_scan_ap` on what `wifi_scan_ap` found, and its two buffers.

Memory is always found. `found` are the records `wifi_scan_ap` wrote, whose
number it returned; there are none when it failed.
-/

namespace TuyaAdapter.TklWifi

open Foundation.Decimal LinuxWifi

/-! ## The call -/

/-- The buffers of a call: `s_aps` and `ap_s`. -/
inductive ScanBuffer where
  | sAps
  | apS
deriving DecidableEq, Repr

/-- What a call returns and leaves in its out-parameters, the buffers it
allocated and freed, and what `ap_s` holds. -/
structure ScanApCall where
  ret : OperateRet
  apAry : Option ScanBuffer
  num : Option Nat
  allocated : List ScanBuffer
  freed : List ScanBuffer
  apS : ApIf
deriving DecidableEq, Repr

/-- The loop that copies the first record with the name. -/
def copyMatching (ssid : Text) (apS : ApIf) : List ApIf → ApIf
  | [] => apS
  | ap :: rest => if ssid = ap.ssid then ap else copyMatching ssid apS rest

/-- `tkl_wifi_scan_ap`; a missing `ssid` is `NULL`. -/
def tklWifiScanAp (found : List ApIf) (ssid : Option Text) : ScanApCall :=
  if found.length = 0 then ⟨.comError, none, none, [.sAps], [], ApIf.zeroed⟩
  else
    match ssid with
    | none => ⟨.ok, some .sAps, some found.length, [.sAps], [], ApIf.zeroed⟩
    | some ssid =>
        ⟨.ok, some .apS, some 1, [.sAps, .apS], [.sAps], copyMatching ssid ApIf.zeroed found⟩

/-- The records the caller gets. -/
def ScanApCall.records (call : ScanApCall) (found : List ApIf) : List ApIf :=
  match call.apAry with
  | none => []
  | some .sAps => found.take (call.num.getD 0)
  | some .apS => [call.apS].take (call.num.getD 0)

/-! ## The property -/

/-- Every buffer of the call was freed or handed to the caller, once. -/
def ScanApCall.KeepsBuffers (call : ScanApCall) : Prop :=
  (call.freed ++ call.apAry.toList).Perm call.allocated

instance (call : ScanApCall) : Decidable call.KeepsBuffers :=
  inferInstanceAs (Decidable (List.Perm _ _))

/-- The first record with the name is reported alone, no record is reported when
there is none, and no buffer is lost. -/
structure ReportsSeen (found : List ApIf) (ssid : Text) (call : ScanApCall) : Prop where
  hit : ∀ ap, found.find? (fun ap => ap.ssid = ssid) = some ap →
    call.ret = .ok ∧ call.num = some 1 ∧ call.records found = [ap]
  miss : found.find? (fun ap => ap.ssid = ssid) = none →
    ¬ (call.ret = .ok ∧ call.records found ≠ [])
  buffers : call.KeepsBuffers

/-! ## The search -/

theorem copyMatching_eq (ssid : Text) (apS : ApIf) (found : List ApIf) :
    copyMatching ssid apS found = (found.find? fun ap => ap.ssid = ssid).getD apS := by
  induction found with
  | nil => rfl
  | cons ap rest inductionHypothesis =>
      rw [copyMatching]
      by_cases same : ssid = ap.ssid
      · rw [if_pos same, List.find?_cons_of_pos (by simp [same])]
        rfl
      · rw [if_neg same, inductionHypothesis, List.find?_cons_of_neg (by simpa using Ne.symm same)]

theorem tklWifiScanAp_found {found : List ApIf} (notEmpty : found.length ≠ 0) (ssid : Text) :
    tklWifiScanAp found (some ssid) =
      ⟨.ok, some .apS, some 1, [.sAps, .apS], [.sAps],
        (found.find? fun ap => ap.ssid = ssid).getD ApIf.zeroed⟩ := by
  unfold tklWifiScanAp
  rw [if_neg notEmpty, ← copyMatching_eq]

/-- A scan that fails keeps `s_aps`. -/
theorem tklWifiScanAp_nil_loses (ssid : Text) : ¬ (tklWifiScanAp [] (some ssid)).KeepsBuffers := by
  show ¬ List.Perm ([] : List ScanBuffer) [.sAps]
  decide

/-- A scan for a name reports what was seen, and loses no buffer, exactly when a
record has the name. -/
theorem tklWifiScanAp_reportsSeen_iff (found : List ApIf) (ssid : Text) :
    ReportsSeen found ssid (tklWifiScanAp found (some ssid)) ↔ ∃ ap ∈ found, ap.ssid = ssid := by
  have seen : (∃ ap ∈ found, ap.ssid = ssid) ↔
      found.find? (fun ap => ap.ssid = ssid) ≠ none := by
    rw [Ne, List.find?_eq_none]
    simp
  rw [seen]
  by_cases isEmpty : found.length = 0
  · have nothing : found = [] := List.eq_nil_of_length_eq_zero isEmpty
    rw [nothing]
    constructor
    · intro reports
      exact absurd reports.buffers (tklWifiScanAp_nil_loses ssid)
    · exact fun found => absurd rfl found
  · rw [tklWifiScanAp_found isEmpty]
    cases search : found.find? fun ap => ap.ssid = ssid with
    | none =>
        constructor
        · intro reports
          exact absurd ⟨rfl, List.cons_ne_nil _ _⟩ (reports.miss search)
        · exact fun found => absurd rfl found
    | some ap =>
        refine ⟨fun _ => Option.some_ne_none ap, fun _ => ⟨?_, ?_, ?_⟩⟩
        · intro other isOther
          rw [search] at isOther
          rw [← Option.some.inj isOther]
          exact ⟨rfl, rfl, rfl⟩
        · intro missing
          rw [search] at missing
          cases missing
        · exact List.Perm.refl _

/-- A record of one network, when another is asked for, and no record at all. -/
theorem tklWifiScanAp_fabricates :
    (tklWifiScanAp [⟨6, 40, List.replicate 6 2, "home".toList, 4, 0⟩]
        (some "cafe".toList)).records [⟨6, 40, List.replicate 6 2, "home".toList, 4, 0⟩] =
        [ApIf.zeroed] ∧
      (tklWifiScanAp [] (some "cafe".toList)).allocated = [.sAps] ∧
      (tklWifiScanAp [] (some "cafe".toList)).freed = [] ∧
      ¬ ReportsSeen [⟨6, 40, List.replicate 6 2, "home".toList, 4, 0⟩] "cafe".toList
        (tklWifiScanAp [⟨6, 40, List.replicate 6 2, "home".toList, 4, 0⟩]
          (some "cafe".toList)) ∧
      ¬ ReportsSeen [] "cafe".toList (tklWifiScanAp [] (some "cafe".toList)) := by
  refine ⟨by decide +kernel, rfl, rfl, ?_, ?_⟩
  · exact fun reports => reports.miss (by decide +kernel) ⟨rfl, List.cons_ne_nil _ _⟩
  · exact fun reports => absurd reports.buffers (tklWifiScanAp_nil_loses _)

end TuyaAdapter.TklWifi
