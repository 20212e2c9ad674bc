/-
The text between two cursors.

A slice is cut out of the source by bytes, from the offset of the one cursor to that of the other,
while cursors move by characters of one to four bytes. Nothing checks that the two offsets are in
order or between two characters. For cursors that were got by walking, the first is the only thing
that can go wrong with two cursors of one source: each of them stands behind a text it has
consumed, and of two fronts of one text, the one with fewer bytes is a front of the other. So where
the offsets are in order the one cursor could have been moved to the other, whatever was really done
with them, and the slice is the text it would have passed.
-/
import Lox.Proofs.Cursor.Walks

set_option autoImplicit false

namespace Lox.Cursor

variable {ε : Type} {source source' : String} {a b : Cursor} {text front : List Char}

/-! ## From one cursor to another -/

/-- Only the empty text has no bytes. -/
theorem eq_nil_of_byteCount_eq_zero (h : Text.byteCount text = 0) : text = [] := by
  cases text with
  | nil => rfl
  | cons ch text =>
    have hsize := ch.utf8Size_pos
    rw [Text.byteCount_cons] at h
    omega

/-- Where the offsets are in order, the one cursor passes a text to get to the other. -/
theorem Reached.passes_to (ha : a.Reached source) (hb : b.Reached source)
    (hle : a.offset ≤ b.offset) : ∃ text, a.Passes text b := by
  obtain ⟨front, hfront⟩ := ha
  obtain ⟨front', hfront'⟩ := hb
  have hparts : front ++ a.rest = front' ++ b.rest := hfront.rest.symm.trans hfront'.rest
  have hoffset := hfront.offset
  have hoffset' := hfront'.offset
  have hline := hfront.line
  have hline' := hfront'.line
  rcases List.append_eq_append_iff.1 hparts with ⟨text, rfl, hrest⟩ | ⟨text, rfl, hrest⟩
  · rw [Text.byteCount_append] at hoffset'
    rw [List.count_append] at hline'
    exact ⟨text, hfront'.source.trans hfront.source.symm, hrest, by omega, by omega⟩
  · -- the other one is not behind it, so that it is at the same place
    rw [Text.byteCount_append] at hoffset
    obtain rfl : text = [] := eq_nil_of_byteCount_eq_zero (by omega)
    rw [List.append_nil] at hline
    rw [Text.byteCount_nil, Nat.add_zero] at hoffset
    exact ⟨[], hfront'.source.trans hfront.source.symm, hrest.symm, by simp [hoffset, hoffset'],
      by simp [hline, hline']⟩

/-- What is asked for in the wrong order, or across two sources, is not given. -/
theorem slice_of_not_ordered (h : ¬ (a.source = b.source ∧ a.offset ≤ b.offset)) :
    (a.slice b : Attempt ε String) = .error (.breach .slice) := by
  rw [slice, if_neg h]

/-- A slice is refused just when its cursors are of two sources or in the wrong order. -/
theorem Reached.slice_eq_error_iff (ha : a.Reached source) (hb : b.Reached source') :
    (a.slice b : Attempt ε String) = .error (.breach .slice) ↔
      source ≠ source' ∨ b.offset < a.offset := by
  have hsource : a.source = source := ha.elim fun _ h => h.source
  have hsource' : b.source = source' := hb.elim fun _ h => h.source
  constructor
  · intro hrefused
    by_contra hordered
    rw [not_or, not_not, Nat.not_lt] at hordered
    obtain ⟨rfl, hle⟩ := hordered
    obtain ⟨text, htext⟩ := ha.passes_to hb hle
    rw [htext.slice] at hrefused
    cases hrefused
  · intro hwrong
    refine slice_of_not_ordered ?_
    rintro ⟨hsame, hle⟩
    rw [hsource, hsource'] at hsame
    rcases hwrong with hdiffer | hlt
    · exact hdiffer hsame
    · exact absurd hle (Nat.not_le.2 hlt)

/-! ## What a slice is -/

/-- The text is what stands between two places of the source: behind the text that the first
cursor has consumed, it is what the last one has consumed more. -/
structure Between (source : String) (text : List Char) (first last : Cursor) : Prop where
  consumed : ∃ front, first.Consumed source front ∧ last.Consumed source (front ++ text)
  bytes : Text.utf8 (String.ofList text) =
    ((Text.utf8 source).drop first.offset).take (last.offset - first.offset)
  lines : first.line ≤ last.line ∧ text.count '\n' = last.line - first.line

theorem Passes.between (hfirst : (start source).Passes front a) (h : a.Passes text b) :
    Between source text a b := by
  have hlast := hfirst.trans h
  refine ⟨⟨front, hfirst.consumed, hlast.consumed⟩, ?_, ?_⟩
  · -- the bytes of the source are those of the front, of the text and of the rest
    have hbytes : Text.utf8 source = Text.utf8 (String.ofList front) ++
        (Text.utf8 (String.ofList text) ++ Text.utf8 (String.ofList b.rest)) := by
      have hsplits := hlast.consumed.splits
      rw [String.ofList_append, String.append_assoc] at hsplits
      nth_rewrite 1 [hsplits]
      rw [Text.utf8_append, Text.utf8_append]
    have hoffset : a.offset = (Text.utf8 (String.ofList front)).length :=
      hfirst.consumed.offset_eq
    have hlength : b.offset - a.offset = (Text.utf8 (String.ofList text)).length := by
      rw [h.offset, Text.length_utf8_ofList, Nat.add_sub_cancel_left]
    rw [hbytes, hoffset, List.drop_left, ← hoffset, hlength, List.take_left]
  · rw [h.line]
    omega

/-- A cursor stands between two characters of its source. -/
theorem Passes.isValid (h : (start source).Passes front a) :
    String.Pos.Raw.IsValid source ⟨a.offset⟩ := by
  refine String.Pos.Raw.isValid_iff_exists_append.2 ⟨_, _, h.consumed.splits, ?_⟩
  rw [h.consumed.offset_eq, ← List.size_toByteArray, Text.toByteArray_utf8]
  rfl

/-- **Slices are exact.** Two cursors that were got by walking stand between two characters of
their sources, and a slice from the one to the other is refused just when their sources differ or
the second stands in front of the first. Otherwise it is the text that the second has consumed more,
with a line feed for every line between them; and slices that meet are put together to the slice
over both. -/
theorem slices_exact (source source' : String) (acts acts' : List Act) :
    ∀ a ∈ ((Walk.start source).run acts).cursors,
    ∀ b ∈ ((Walk.start source').run acts').cursors,
      (String.Pos.Raw.IsValid source ⟨a.offset⟩ ∧ String.Pos.Raw.IsValid source' ⟨b.offset⟩) ∧
      ((a.slice b : Attempt ε String) = .error (.breach .slice) ↔
        source ≠ source' ∨ b.offset < a.offset) ∧
      (source = source' → a.offset ≤ b.offset → ∃ text,
        (a.slice b : Attempt ε String) = .ok (String.ofList text) ∧ Between source text a b) ∧
      ∀ (acts'' : List Act), ∀ c ∈ ((Walk.start source').run acts'').cursors,
        source = source' → a.offset ≤ b.offset → b.offset ≤ c.offset → ∃ s t : String,
          (a.slice b : Attempt ε String) = .ok s ∧ (b.slice c : Attempt ε String) = .ok t ∧
            (a.slice c : Attempt ε String) = .ok (s ++ t) := by
  intro a ha b hb
  obtain ⟨front, hfront⟩ := Walk.run_reached source acts a ha
  obtain ⟨front', hfront'⟩ := Walk.run_reached source' acts' b hb
  have hreached : a.Reached source := ⟨front, hfront⟩
  have hreached' : b.Reached source' := ⟨front', hfront'⟩
  refine ⟨⟨hfront.isValid, hfront'.isValid⟩, hreached.slice_eq_error_iff hreached', ?_, ?_⟩
  · rintro rfl hle
    obtain ⟨text, htext⟩ := hreached.passes_to hreached' hle
    exact ⟨text, htext.slice, hfront.between htext⟩
  · rintro acts'' c hc rfl hle hle'
    have hreached'' := Walk.run_reached source acts'' c hc
    obtain ⟨text, htext⟩ := hreached.passes_to hreached' hle
    obtain ⟨more, hmore⟩ := hreached'.passes_to hreached'' hle'
    refine ⟨_, _, htext.slice, hmore.slice, ?_⟩
    rw [(htext.trans hmore).slice, String.ofList_append]

/-- In `äö`, a line feed and `€`: behind `ä`, behind the line feed and at the end, each by a walk of
its own. The second cursor is not in front of the first, and it is no place of another source. -/
theorem slices_exact_three_walks :
    let source := "äö\n€"
    let walk := (Walk.start source).run [.move .next]
    let second := (Walk.start source).run
      [.copy, .move (.eatWhile (· != '\n')), .reset 0, .move (.nth 2)]
    let third := (Walk.start source).run [.move (.nth 9)]
    let foreign := (Walk.start "").run []
    (walk.cursor ∈ walk.cursors ∧ second.cursor ∈ second.cursors ∧
        third.cursor ∈ third.cursors ∧ foreign.cursor ∈ foreign.cursors) ∧
      (walk.cursor.offset = 2 ∧ second.cursor.offset = 5 ∧ third.cursor.offset = 8) ∧
      (second.cursor.slice walk.cursor : Attempt Unit String) = .error (.breach .slice) ∧
      (walk.cursor.slice foreign.cursor : Attempt Unit String) = .error (.breach .slice) ∧
      (∃ text, (walk.cursor.slice second.cursor : Attempt Unit String) =
        .ok (String.ofList text) ∧ Between source text walk.cursor second.cursor) ∧
      ∃ s t : String, (walk.cursor.slice second.cursor : Attempt Unit String) = .ok s ∧
        (second.cursor.slice third.cursor : Attempt Unit String) = .ok t ∧
          (walk.cursor.slice third.cursor : Attempt Unit String) = .ok (s ++ t) := by
  intro source walk second third foreign
  have hwalk : walk.cursor ∈ walk.cursors := List.mem_cons_self ..
  have hsecond : second.cursor ∈ second.cursors := List.mem_cons_self ..
  have hthird : third.cursor ∈ third.cursors := List.mem_cons_self ..
  have hforeign : foreign.cursor ∈ foreign.cursors := List.mem_cons_self ..
  have hoffsets : walk.cursor.offset = 2 ∧ second.cursor.offset = 5 ∧ third.cursor.offset = 8 := by
    decide
  obtain ⟨-, -, hbetween, happend⟩ :=
    slices_exact (ε := Unit) source source _ _ _ hwalk _ hsecond
  obtain ⟨-, hback, -⟩ := slices_exact (ε := Unit) source source _ _ _ hsecond _ hwalk
  obtain ⟨-, hacross, -⟩ := slices_exact (ε := Unit) source "" _ _ _ hwalk _ hforeign
  refine ⟨⟨hwalk, hsecond, hthird, hforeign⟩, hoffsets, hback.2 (.inr (by decide)),
    hacross.2 (.inl (by decide)), hbetween rfl (by decide), ?_⟩
  exact happend _ _ hthird rfl (by decide) (by decide)

end Lox.Cursor
