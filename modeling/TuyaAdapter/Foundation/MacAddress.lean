import TuyaAdapter.Foundation.Scanf

/-!
Owns hardware addresses as C texts: six bytes of two hexadecimal digits each,
with colons between them, and what `sscanf` reads back from such a text.
-/

namespace TuyaAdapter.Foundation.MacAddress

open Foundation.Decimal Foundation.Hexadecimal Foundation.Scanf

/-! ## Texts -/

/-- Bytes as pairs of digits, with colons between them. -/
def macText (pairs : List (Char × Char)) : Text :=
  [':'].intercalate (pairs.map fun pair => [pair.1, pair.2])

/-- Six bytes, each of two hexadecimal digits. -/
def AreMacPairs (pairs : List (Char × Char)) : Prop :=
  pairs.length = 6 ∧ ∀ pair ∈ pairs, isHexDigit pair.1 = true ∧ isHexDigit pair.2 = true

instance (pairs : List (Char × Char)) : Decidable (AreMacPairs pairs) :=
  inferInstanceAs (Decidable (_ ∧ _))

def octet (pair : Char × Char) : Nat := 16 * hexValue pair.1 + hexValue pair.2

/-! ## Scanning -/

/-- `sscanf` with `count` times `%02x` and colons between them: the numbers that
are stored. -/
def scanOctets : Nat → Text → List Nat
  | 0, _ => []
  | count + 1, text =>
      match readHex2 text with
      | none => []
      | some read =>
          read.1 :: if read.2.head? = some ':' then scanOctets count read.2.tail else []

/-- The elements that are not stored keep their values. -/
def overwrite {Value : Type*} (old stored : List Value) : List Value :=
  stored ++ old.drop stored.length

theorem octet_lt {pair : Char × Char}
    (areHex : isHexDigit pair.1 = true ∧ isHexDigit pair.2 = true) : octet pair < 256 := by
  have high := hexValue_lt areHex.1
  have low := hexValue_lt areHex.2
  unfold octet
  omega

theorem scanOctets_macText {pairs : List (Char × Char)}
    (areHex : ∀ pair ∈ pairs, isHexDigit pair.1 = true ∧ isHexDigit pair.2 = true) :
    scanOctets pairs.length (macText pairs) = pairs.map octet := by
  induction pairs with
  | nil => rfl
  | cons pair rest inductionHypothesis =>
      have pairHex := areHex pair List.mem_cons_self
      have later := inductionHypothesis fun other member =>
        areHex other (List.mem_cons_of_mem _ member)
      cases rest with
      | nil =>
          show scanOctets 1 [pair.1, pair.2] = _
          simp [scanOctets, readHex2_digits pairHex.1 pairHex.2, octet]
      | cons next others =>
          have whole : macText (pair :: next :: others) =
              pair.1 :: pair.2 :: ':' :: macText (next :: others) := by
            simp [macText, List.intercalate_cons_cons]
          rw [whole, List.length_cons, scanOctets, readHex2_digits pairHex.1 pairHex.2]
          simp only [List.head?_cons, if_true, List.tail_cons]
          rw [later]
          rfl

end TuyaAdapter.Foundation.MacAddress
