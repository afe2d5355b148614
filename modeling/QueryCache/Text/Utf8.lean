/-!
# Text in UTF-8

`Utf8.chars` reads bytes as characters. Bytes from elsewhere need not be UTF-8: what a byte stands
for that belongs to no character is up to the reader. `Utf8.chars_toUTF8` says that the bytes of
a text are read as this text.
-/

namespace QueryCache

namespace Utf8

/-- The characters of some bytes from a place on. Each byte that belongs to no character gives
`stray`. `fuel` bounds the number of steps. -/
def charsFrom (stray : List Char) (bytes : ByteArray) : Nat → Nat → List Char
  | 0, _ => []
  | fuel + 1, place =>
    if place < bytes.size then
      match bytes.utf8DecodeChar? place with
      | some c => c :: charsFrom stray bytes fuel (place + c.utf8Size)
      | none => stray ++ charsFrom stray bytes fuel (place + 1)
    else []

/-- The characters of some bytes. -/
def chars (stray : List Char) (bytes : ByteArray) : List Char :=
  charsFrom stray bytes bytes.size 0

theorem size_utf8Encode_cons (c : Char) (text : List Char) :
    (c :: text).utf8Encode.size = c.utf8Size + text.utf8Encode.size := by
  rw [List.utf8Encode_cons, ByteArray.size_append, List.utf8Encode_singleton]
  simp

theorem utf8DecodeChar?_append (before : List Char) (c : Char) (after : List Char) :
    (before ++ c :: after).utf8Encode.utf8DecodeChar? before.utf8Encode.size = some c := by
  rw [ByteArray.utf8DecodeChar?_eq_utf8DecodeChar?_extract, List.utf8Encode_append,
    ByteArray.extract_append_eq_right rfl (ByteArray.size_append ..),
    List.utf8DecodeChar?_utf8Encode_cons]

/-- What follows some characters is read from the end of their bytes on. -/
theorem charsFrom_utf8Encode (stray before after : List Char) {fuel : Nat}
    (h : after.utf8Encode.size ≤ fuel) :
    charsFrom stray (before ++ after).utf8Encode fuel before.utf8Encode.size = after := by
  induction after generalizing before fuel with
  | nil => cases fuel <;> simp [charsFrom]
  | cons c after ih =>
      have hpos := c.utf8Size_pos
      rw [size_utf8Encode_cons] at h
      obtain ⟨fuel, rfl⟩ : ∃ n, fuel = n + 1 := ⟨fuel - 1, by omega⟩
      have hplace : before.utf8Encode.size < (before ++ c :: after).utf8Encode.size := by
        rw [List.utf8Encode_append, ByteArray.size_append, size_utf8Encode_cons]
        omega
      have hnext : before.utf8Encode.size + c.utf8Size = (before ++ [c]).utf8Encode.size := by
        rw [List.utf8Encode_append, ByteArray.size_append, size_utf8Encode_cons]
        simp
      have hrest : charsFrom stray (before ++ [c] ++ after).utf8Encode fuel
          (before ++ [c]).utf8Encode.size = after := ih _ (by omega)
      rw [List.append_assoc] at hrest
      rw [charsFrom, if_pos hplace, utf8DecodeChar?_append]
      simp only [hnext]
      exact congrArg (c :: ·) hrest

/-- The bytes of a text are read as the text. -/
theorem chars_toUTF8 (stray : List Char) (text : String) :
    chars stray text.toUTF8 = text.toList := by
  have h := charsFrom_utf8Encode stray [] text.toList (Nat.le_refl _)
  rw [List.nil_append, String.utf8Encode_toList] at h
  exact h

end Utf8

end QueryCache
