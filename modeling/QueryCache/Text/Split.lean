/-!
# Splitting texts

The parts of a text between separators. There is one part more than there are
separators, and joining the parts gives the text back: `intercalate_split`.
-/

namespace QueryCache

namespace Text

/-- The parts of a text between separators. A text without one is one part. -/
def split (isSeparator : Char → Bool) : List Char → List (List Char)
  | [] => [[]]
  | c :: rest =>
    match split isSeparator rest with
    | [] => [[c]]
    | part :: parts =>
      if isSeparator c then [] :: part :: parts else (c :: part) :: parts

theorem split_ne_nil (isSeparator : Char → Bool) (text : List Char) :
    split isSeparator text ≠ [] := by
  cases text with
  | nil => simp [split]
  | cons c rest =>
    rw [split]
    split
    · simp
    · split <;> simp

theorem intercalate_split (separator : Char) (text : List Char) :
    [separator].intercalate (split (· == separator) text) = text := by
  induction text with
  | nil => rfl
  | cons c rest ih =>
    rw [split]
    split
    · rename_i h
      exact absurd h (split_ne_nil _ _)
    · rename_i part parts h
      rw [h] at ih
      split
      · rename_i hc
        simp only [beq_iff_eq] at hc
        simpa [List.intercalate, List.intersperse, hc] using ih
      · cases parts with
        | nil => simpa [List.intercalate] using ih
        | cons next others => simpa [List.intercalate, List.intersperse] using ih

end Text

end QueryCache
