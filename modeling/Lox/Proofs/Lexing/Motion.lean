/-
What a cursor has passed.

A motion of a cursor passes some characters, and these determine everything it does: they are taken
off the unread rest, their bytes are added to the offset, and their line feeds to the line. The
relation `Cursor.Passes` says so, every motion of the library satisfies it for some text, and two
motions one after the other pass the one text and then the other.

A slice between two places takes bytes, not characters. Between places that are related by a motion
the count always falls between two characters, and the slice is the text that was passed.
-/
import Lox.Cursor

set_option autoImplicit false

namespace Lox.Cursor

/-- Going from `first` to `last` passes `text`. -/
structure Passes (first : Cursor) (text : List Char) (last : Cursor) : Prop where
  source : last.source = first.source
  rest : first.rest = text ++ last.rest
  offset : last.offset = first.offset + Text.byteCount text
  line : last.line = first.line + text.count '\n'

theorem Passes.refl (c : Cursor) : c.Passes [] c :=
  ⟨rfl, rfl, by simp, by simp⟩

theorem Passes.trans {first middle last : Cursor} {front back : List Char}
    (hfront : first.Passes front middle) (hback : middle.Passes back last) :
    first.Passes (front ++ back) last where
  source := by rw [hback.source, hfront.source]
  rest := by rw [hfront.rest, hback.rest, List.append_assoc]
  offset := by rw [hback.offset, hfront.offset, Text.byteCount_append, Nat.add_assoc]
  line := by rw [hback.line, hfront.line, List.count_append, Nat.add_assoc]

/-! ## The motions -/

theorem pass_passes {c : Cursor} {ch : Char} {rest : List Char} (h : c.rest = ch :: rest) :
    c.Passes [ch] (c.pass ch rest) where
  source := rfl
  rest := by rw [h]; rfl
  offset := rfl
  line := by
    rw [pass, List.count_singleton]
    by_cases hch : ch = '\n' <;> simp [hch]

theorem next_passes {c after : Cursor} {ch : Char} (h : c.next = (some ch, after)) :
    c.Passes [ch] after := by
  rw [next] at h
  split at h
  · simp at h
  · rename_i ch' rest hrest
    obtain ⟨rfl, rfl⟩ : ch' = ch ∧ c.pass ch' rest = after := by simpa using h
    exact pass_passes hrest

/-- Only at the end there is nothing to read. -/
theorem next_none {c after : Cursor} (h : c.next = (none, after)) : c.rest = [] := by
  rw [next] at h
  split at h
  · assumption
  · simp at h

theorem advanceIf_true {c after : Cursor} {expected : Char}
    (h : c.advanceIf expected = (true, after)) : c.Passes [expected] after := by
  rw [advanceIf] at h
  split at h
  · rename_i hpeek
    obtain rfl : c.next.2 = after := by simpa using h
    cases hrest : c.rest with
    | nil => simp [peek, hrest] at hpeek
    | cons ch rest =>
      obtain rfl : ch = expected := by simpa [peek, hrest] using hpeek
      rw [next, hrest]
      exact pass_passes hrest
  · simp at h

theorem advanceIf_false {c after : Cursor} {expected : Char}
    (h : c.advanceIf expected = (false, after)) : after = c ∧ c.rest.head? ≠ some expected := by
  rw [advanceIf] at h
  split at h
  · simp at h
  · rename_i hpeek
    exact ⟨by simpa using h.symm, hpeek⟩

/-- A run of characters ends where the next one is no longer of the class. -/
theorem eatAlong_passes (p : Char → Bool) (rest : List Char) :
    ∀ c : Cursor, c.rest = rest → ∃ run, c.Passes run (eatAlong p rest c) ∧
      (∀ x ∈ run, p x = true) ∧ ∀ x ∈ (eatAlong p rest c).rest.head?, p x = false := by
  induction rest with
  | nil =>
    intro c hrest
    refine ⟨[], Passes.refl c, by simp, ?_⟩
    intro x hx
    simp [eatAlong, hrest] at hx
  | cons ch rest ih =>
    intro c hrest
    rw [eatAlong]
    -- the run takes this character, or it ends here
    by_cases hp : p ch = true
    · rw [if_pos hp]
      obtain ⟨run, hpasses, hrun, hstop⟩ := ih (c.pass ch rest) rfl
      refine ⟨ch :: run, (pass_passes hrest).trans hpasses, ?_, hstop⟩
      intro x hx
      rcases List.mem_cons.1 hx with rfl | hx
      · exact hp
      · exact hrun x hx
    · rw [if_neg hp]
      refine ⟨[], Passes.refl c, by simp, ?_⟩
      intro x hx
      obtain rfl : ch = x := by simpa [hrest] using hx
      simpa using hp

theorem eatWhile_passes (p : Char → Bool) (c : Cursor) :
    ∃ run, c.Passes run (c.eatWhile p) ∧ (∀ x ∈ run, p x = true) ∧
      ∀ x ∈ (c.eatWhile p).rest.head?, p x = false :=
  eatAlong_passes p c.rest c rfl

/-- What the two looks ahead say: the point is next, and a digit stands behind it. -/
theorem point_ahead {c : Cursor} (hpoint : c.peek = some '.')
    (hdigit : c.peekNext.any Char.isDigit = true) :
    ∃ x more, c.rest = '.' :: x :: more ∧ x.isDigit = true := by
  rw [peek] at hpoint
  rw [peekNext] at hdigit
  rcases hrest : c.rest with _ | ⟨y, _ | ⟨x, more⟩⟩
  · simp [hrest] at hpoint
  · simp [hrest] at hdigit
  · obtain rfl : y = '.' := by simpa [hrest] using hpoint
    exact ⟨x, more, rfl, by simpa [hrest] using hdigit⟩

/-- A run of a class that the next character belongs to is not empty. -/
theorem eatWhile_passes_cons {p : Char → Bool} {c : Cursor} {x : Char} {more : List Char}
    (hrest : c.rest = x :: more) (hx : p x = true) :
    ∃ run, c.Passes (x :: run) (c.eatWhile p) ∧ (∀ y ∈ run, p y = true) ∧
      ∀ y ∈ (c.eatWhile p).rest.head?, p y = false := by
  obtain ⟨run, hrun, hall, hstop⟩ := c.eatWhile_passes p
  have hparts := hrun.rest
  rw [hrest] at hparts
  cases run with
  | nil =>
    -- the run would have stopped at the character itself
    have hfalse := hstop x (by rw [← List.nil_append (c.eatWhile p).rest, ← hparts]; rfl)
    rw [hx] at hfalse
    cases hfalse
  | cons y run =>
    obtain ⟨rfl, -⟩ := List.cons.inj hparts
    exact ⟨run, hrun, fun y hy => hall y (List.mem_cons_of_mem _ hy), hstop⟩

/-! ## The slice -/

/-- The text between two places is the text that was passed. -/
theorem Passes.slice {ε : Type} {first last : Cursor} {text : List Char}
    (h : first.Passes text last) :
    (first.slice last : Attempt ε String) = .ok (String.ofList text) := by
  have hle : first.offset ≤ last.offset := by
    rw [h.offset]
    exact Nat.le_add_right _ _
  -- the bytes between the two places are those of the text, so they end where a character does
  have hcount : last.offset - first.offset = Text.byteCount text := by
    rw [h.offset, Nat.add_sub_cancel_left]
  rw [Cursor.slice, if_pos ⟨h.source.symm, hle⟩, hcount, h.rest, Text.splitBytes?_append]

end Lox.Cursor
