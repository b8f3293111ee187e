import Mathlib.Data.List.Basic

/-!
Owns codes whose words are told apart from the front, and the longest part of an
input that is a sequence of words.
-/

namespace TuyaAdapter.Foundation

variable {Item Symbol : Type*}

/-- The words of the valid items; an input starts with at most one of them. -/
structure PrefixCode (Item Symbol : Type*) where
  Valid : Item → Prop
  word : Item → List Symbol
  separates : ∀ {first second : Item} {left right : List Symbol}, Valid first → Valid second →
    word first ++ left = word second ++ right → first = second ∧ left = right

namespace PrefixCode

variable (code : PrefixCode Item Symbol)

def words (items : List Item) : List Symbol := items.flatMap code.word

/-- The input starts with a word. -/
def Starts (input : List Symbol) : Prop :=
  ∃ item rest, code.Valid item ∧ input = code.word item ++ rest

/-- The input is the words of these items and a rest that starts with no word. -/
structure LongestPrefix (items : List Item) (rest input : List Symbol) : Prop where
  valid : ∀ item ∈ items, code.Valid item
  split : input = code.words items ++ rest
  stops : ¬ code.Starts rest

variable {code}

theorem LongestPrefix.nil {input : List Symbol} (stops : ¬ code.Starts input) :
    code.LongestPrefix [] input input :=
  ⟨fun _ member => absurd member List.not_mem_nil, rfl, stops⟩

theorem LongestPrefix.cons {item : Item} {items : List Item} {rest input : List Symbol}
    (isValid : code.Valid item) (later : code.LongestPrefix items rest input) :
    code.LongestPrefix (item :: items) rest (code.word item ++ input) := by
  refine ⟨?_, ?_, later.stops⟩
  · intro other member
    rcases List.mem_cons.mp member with isItem | inItems
    · exact isItem ▸ isValid
    · exact later.valid other inItems
  · rw [later.split, words, words, List.flatMap_cons, List.append_assoc]

/-- No sequence of words at the start of the input goes further. -/
theorem LongestPrefix.prefix_of {items others : List Item} {rest left input : List Symbol}
    (longest : code.LongestPrefix items rest input)
    (othersValid : ∀ item ∈ others, code.Valid item)
    (split : input = code.words others ++ left) : others.IsPrefix items := by
  induction others generalizing items input with
  | nil => exact List.nil_prefix
  | cons other others inductionHypothesis =>
      obtain ⟨otherValid, laterValid⟩ := List.forall_mem_cons.mp othersValid
      rw [words, List.flatMap_cons, List.append_assoc] at split
      cases items with
      | nil =>
          have isRest : input = rest := longest.split
          exact absurd ⟨other, _, otherValid, isRest.symm.trans split⟩ longest.stops
      | cons item items =>
          obtain ⟨itemValid, itemsValid⟩ := List.forall_mem_cons.mp longest.valid
          have itemSplit := longest.split
          rw [words, List.flatMap_cons, List.append_assoc] at itemSplit
          obtain ⟨sameItem, sameLater⟩ :=
            code.separates otherValid itemValid (split.symm.trans itemSplit)
          rw [sameItem, List.cons_prefix_cons]
          exact ⟨rfl, inductionHypothesis ⟨itemsValid, sameLater, longest.stops⟩ laterValid rfl⟩

theorem LongestPrefix.unique {items others : List Item} {rest left input : List Symbol}
    (longest : code.LongestPrefix items rest input)
    (alsoLongest : code.LongestPrefix others left input) : items = others :=
  (alsoLongest.prefix_of longest.valid longest.split).eq_of_length_le
    (longest.prefix_of alsoLongest.valid alsoLongest.split).length_le

end PrefixCode

end TuyaAdapter.Foundation
