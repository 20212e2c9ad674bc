/-
Texts measured in bytes.

A place in a source is counted in the bytes of the source's UTF-8 form, and a sink counts what it
takes in bytes, while the text itself is read by characters of one to four bytes. This file holds
the passage between the two: the bytes of a text, the text of some bytes, and the cut of a text at
a byte count.

A cut may not be possible, because the count falls into the middle of a character or behind the
end, and then there is no answer. That it is possible wherever the library cuts is for the callers
to know: a place that was reached by reading characters is always between two of them.
-/

set_option autoImplicit false

namespace Lox.Text

/-! ## From text to bytes and back -/

/-- The UTF-8 form of a text. -/
def utf8 (text : String) : List UInt8 :=
  text.toList.flatMap String.utf8EncodeChar

/-- The text whose UTF-8 form these bytes are, if they are one. -/
def ofUtf8? (bytes : List UInt8) : Option String :=
  String.fromUTF8? bytes.toByteArray

/-- How many bytes the characters take. -/
def byteCount : List Char → Nat
  | [] => 0
  | c :: chars => c.utf8Size + byteCount chars

/-! ## Cutting at a byte count -/

/-- The characters that make up exactly the first `count` bytes, and those behind them. -/
def splitBytes? : Nat → List Char → Option (List Char × List Char)
  | 0, chars => some ([], chars)
  | _ + 1, [] => none
  | count + 1, c :: chars =>
    if c.utf8Size ≤ count + 1 then
      match splitBytes? (count + 1 - c.utf8Size) chars with
      | some (front, back) => some (c :: front, back)
      | none => none
    else none

/-- The characters between two byte counts from the front. -/
def slice? (chars : List Char) (start stop : Nat) : Option (List Char) :=
  if start ≤ stop then
    match splitBytes? start chars with
    | some (_, back) => (splitBytes? (stop - start) back).map Prod.fst
    | none => none
  else none

/-! ## Lines of bytes -/

/-- Cuts behind every line feed. Each line keeps its line feed; what follows the last one is a
line too, unless it is empty. -/
def splitLines : List UInt8 → List (List UInt8)
  | [] => []
  | b :: bytes =>
    if b = 10 then [b] :: splitLines bytes
    else match splitLines bytes with
      | [] => [[b]]
      | line :: lines => (b :: line) :: lines

/-! ## The cut and the count agree -/

@[simp] theorem byteCount_nil : byteCount [] = 0 := rfl

@[simp] theorem byteCount_cons (c : Char) (chars : List Char) :
    byteCount (c :: chars) = c.utf8Size + byteCount chars := rfl

@[simp] theorem byteCount_append (front back : List Char) :
    byteCount (front ++ back) = byteCount front + byteCount back := by
  induction front with
  | nil => simp
  | cons c front ih => simp [ih, Nat.add_assoc]

/-- A cut behind whole characters succeeds, and gives them. -/
theorem splitBytes?_append (front back : List Char) :
    splitBytes? (byteCount front) (front ++ back) = some (front, back) := by
  induction front with
  | nil => simp [splitBytes?]
  | cons c front ih =>
    obtain ⟨count, hcount⟩ : ∃ count, byteCount (c :: front) = count + 1 :=
      ⟨byteCount (c :: front) - 1, by have := c.utf8Size_pos; simp only [byteCount_cons]; omega⟩
    have hsize : c.utf8Size ≤ count + 1 := by rw [← hcount]; simp
    have hrest : count + 1 - c.utf8Size = byteCount front := by rw [← hcount]; simp
    simp [hcount, splitBytes?, hsize, hrest, ih]

end Lox.Text
