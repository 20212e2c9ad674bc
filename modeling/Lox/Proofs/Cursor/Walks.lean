/-
Cursors by what they have consumed.

A cursor has two counters beside its unread rest, and two cursors are compared without them. That is
in order because a cursor is only ever made at the start of a source. Whatever is done with it from
there on, however often it is moved, copied and put back to one of its copies, its counters stay
those of the text it has consumed, and the unread rest determines that text.

What is done with a cursor is a list of acts, and a walk is what they leave behind: the cursor and
the copies that were kept. The invariant is `Cursor.Passes` from the start of the source. A motion
is one more text that is passed, which is all that is known of it here, and a copy is a cursor that
was there before.
-/
import Lox.Proofs.Lexing.Munch
import Lox.Proofs.Text.Lines

set_option autoImplicit false

namespace Lox

/-- The bytes of a text are counted character by character. -/
theorem Text.length_utf8_ofList (chars : List Char) :
    (utf8 (String.ofList chars)).length = byteCount chars := by
  rw [utf8, String.toList_ofList]
  induction chars with
  | nil => rfl
  | cons c chars ih =>
    rw [List.flatMap_cons, List.length_append, String.length_utf8EncodeChar, ih, byteCount_cons]

namespace Cursor

/-! ## Walks -/

/-- The motions of a cursor, and its looks ahead. -/
inductive Motion
  | next
  | nth (n : Nat)
  | peek
  | peekNext
  | advanceIf (expected : Char)
  | eatWhile (p : Char → Bool)

/-- What a motion answers, if anything. -/
inductive Answer
  | character (c : Option Char)
  | verdict (taken : Bool)
  | nothing
  deriving DecidableEq, Repr

/-- Carries out a motion. -/
def Motion.perform (c : Cursor) : Motion → Answer × Cursor
  | next => (.character c.next.1, c.next.2)
  | nth n => (.character (c.nth n).1, (c.nth n).2)
  | peek => (.character c.peek, c)
  | peekNext => (.character c.peekNext, c)
  | advanceIf expected => (.verdict (c.advanceIf expected).1, (c.advanceIf expected).2)
  | eatWhile p => (.nothing, c.eatWhile p)

/-- What is done with a cursor. -/
inductive Act
  | move (motion : Motion)
  /-- A copy of the cursor is kept. -/
  | copy
  /-- The cursor becomes the copy with this number, if there is one. -/
  | reset (copy : Nat)

/-- A cursor and the copies of it that were kept, the first one first. -/
structure Walk where
  cursor : Cursor
  copies : List Cursor

namespace Walk

/-- A cursor at the start of a source, of which there are no copies. -/
def start (source : String) : Walk := ⟨.start source, []⟩

/-- The walk after one act. -/
def step (walk : Walk) : Act → Walk
  | .move motion => { walk with cursor := (motion.perform walk.cursor).2 }
  | .copy => { walk with copies := walk.copies ++ [walk.cursor] }
  | .reset copy => { walk with cursor := walk.copies.getD copy walk.cursor }

/-- The walk after some acts. -/
def run (walk : Walk) (acts : List Act) : Walk := acts.foldl step walk

/-- All cursors of the walk. -/
def cursors (walk : Walk) : List Cursor := walk.cursor :: walk.copies

end Walk

/-! ## What a motion is to do -/

/-- The run is the longest front of the text all of whose characters are in the class. -/
structure LongestRun (p : Char → Bool) (text run : List Char) : Prop where
  front : run <+: text
  inClass : ∀ x ∈ run, p x = true
  longest : ∀ other, other <+: text → (∀ x ∈ other, p x = true) → other.length ≤ run.length

/-- With this rest unread, the motion is to give this answer and to consume this text. -/
def Motion.Asks (rest : List Char) (answer : Answer) (text : List Char) : Motion → Prop
  | next => answer = .character rest.head? ∧ text = rest.take 1
  | nth n => answer = .character rest[n]? ∧ text = rest.take (n + 1)
  | peek => answer = .character rest[0]? ∧ text = []
  | peekNext => answer = .character rest[1]? ∧ text = []
  | advanceIf expected =>
    answer = .verdict (rest.head? = some expected) ∧
      text = if rest.head? = some expected then [expected] else []
  | eatWhile p => answer = .nothing ∧ LongestRun p rest text

section Motions

variable {c last : Cursor} {text : List Char}

/-- Nothing is changed where nothing is passed. -/
theorem Passes.eq_of_nil (h : c.Passes [] last) : last = c := by
  obtain ⟨hsource, hrest, hoffset, hline⟩ := h
  cases c
  cases last
  simp only [List.nil_append, Text.byteCount_nil, Nat.add_zero, List.count_nil] at *
  rw [hsource, ← hrest, hoffset, hline]

/-- What is read is the first character of the rest, if there is one. -/
theorem next_spec (c : Cursor) : c.next.1 = c.rest.head? ∧ c.Passes (c.rest.take 1) c.next.2 := by
  rw [next]
  cases hrest : c.rest with
  | nil => exact ⟨rfl, Passes.refl c⟩
  | cons ch rest => exact ⟨rfl, pass_passes hrest⟩

/-- No more is skipped than there is. -/
theorem skip_passes (n : Nat) (c : Cursor) : c.Passes (c.rest.take n) (skip n c) := by
  induction n generalizing c with
  | zero => exact Passes.refl c
  | succ n ih =>
    rw [skip]
    cases hrest : c.rest with
    | nil => exact Passes.refl c
    | cons ch rest => exact (pass_passes hrest).trans (ih (c.pass ch rest))

theorem nth_spec (n : Nat) (c : Cursor) :
    (c.nth n).1 = c.rest[n]? ∧ c.Passes (c.rest.take (n + 1)) (c.nth n).2 := by
  have hskip := skip_passes n c
  obtain ⟨hanswer, hnext⟩ := next_spec (skip n c)
  have hrest : (skip n c).rest = c.rest.drop n := by
    have hparts := hskip.rest
    nth_rewrite 1 [← List.take_append_drop n c.rest] at hparts
    exact (List.append_cancel_left hparts).symm
  rw [hrest] at hanswer hnext
  rw [nth]
  refine ⟨?_, ?_⟩
  · rw [hanswer, List.head?_drop]
  · rw [List.take_add]
    exact hskip.trans hnext

theorem advanceIf_spec (expected : Char) (c : Cursor) :
    (c.advanceIf expected).1 = decide (c.rest.head? = some expected) ∧
      c.Passes (if c.rest.head? = some expected then [expected] else [])
        (c.advanceIf expected).2 := by
  rcases hadvance : c.advanceIf expected with ⟨taken, after⟩
  cases taken with
  | true =>
    have hpasses := advanceIf_true hadvance
    have hhead : c.rest.head? = some expected := by
      rw [hpasses.rest]
      rfl
    rw [if_pos hhead]
    exact ⟨(decide_eq_true hhead).symm, hpasses⟩
  | false =>
    obtain ⟨rfl, hhead⟩ := advanceIf_false hadvance
    rw [if_neg hhead]
    exact ⟨(decide_eq_false hhead).symm, Passes.refl _⟩

theorem eatWhile_spec (p : Char → Bool) (c : Cursor) :
    ∃ run, LongestRun p c.rest run ∧ c.Passes run (c.eatWhile p) := by
  obtain ⟨run, hpasses, hrun, hstop⟩ := c.eatWhile_passes p
  have hparts := hpasses.rest
  refine ⟨run, ⟨⟨_, hparts.symm⟩, hrun, fun other hother hall => ?_⟩, hpasses⟩
  rw [hparts] at hother
  have hstop' : ∀ x ∈ (c.eatWhile p).rest.head?, ¬ p x = true := by
    intro x hx
    rw [hstop x hx]
    exact Bool.false_ne_true
  rcases run_maximal hall hstop' hother with hlt | heq
  · exact Nat.le_of_lt hlt
  · exact Nat.le_of_eq (congrArg List.length heq)

/-- Every motion gives its answer and consumes its text. -/
theorem Motion.perform_spec (motion : Motion) (c : Cursor) :
    ∃ text, motion.Asks c.rest (motion.perform c).1 text ∧
      c.Passes text (motion.perform c).2 := by
  cases motion with
  | next =>
    obtain ⟨hanswer, hpasses⟩ := next_spec c
    exact ⟨_, ⟨congrArg _ hanswer, rfl⟩, hpasses⟩
  | nth n =>
    obtain ⟨hanswer, hpasses⟩ := nth_spec n c
    exact ⟨_, ⟨congrArg _ hanswer, rfl⟩, hpasses⟩
  | peek => exact ⟨[], ⟨congrArg _ List.head?_eq_getElem?, rfl⟩, Passes.refl c⟩
  | peekNext =>
    have hanswer : c.peekNext = c.rest[1]? := List.head?_tail
    exact ⟨[], ⟨congrArg Answer.character hanswer, rfl⟩, Passes.refl c⟩
  | advanceIf expected =>
    obtain ⟨hanswer, hpasses⟩ := advanceIf_spec expected c
    exact ⟨_, ⟨congrArg _ hanswer, rfl⟩, hpasses⟩
  | eatWhile p =>
    obtain ⟨run, hrun, hpasses⟩ := eatWhile_spec p c
    exact ⟨run, ⟨rfl, hrun⟩, hpasses⟩

end Motions

/-! ## Walks keep the counters in step -/

/-- The cursor is where it is from the start of the source, having passed this text. -/
def Reached (source : String) (c : Cursor) : Prop :=
  ∃ front, (start source).Passes front c

section Walks

variable {source : String} {walk : Walk}

/-- An act leads to no cursor that is not reached by a motion from one that was there. -/
theorem Walk.step_reached (h : ∀ c ∈ walk.cursors, c.Reached source) (act : Act) :
    ∀ c ∈ (walk.step act).cursors, c.Reached source := by
  have hcursor : walk.cursor.Reached source := h _ (List.mem_cons_self ..)
  have hcopies : ∀ c ∈ walk.copies, c.Reached source :=
    fun c hc => h c (List.mem_cons_of_mem _ hc)
  cases act with
  | move motion =>
    obtain ⟨front, hfront⟩ := hcursor
    obtain ⟨text, -, htext⟩ := motion.perform_spec walk.cursor
    exact List.forall_mem_cons.2 ⟨⟨front ++ text, hfront.trans htext⟩, hcopies⟩
  | copy =>
    refine List.forall_mem_cons.2 ⟨hcursor, fun c hc => ?_⟩
    rcases List.mem_append.1 hc with hc | hc
    · exact hcopies c hc
    · rw [List.mem_singleton.1 hc]
      exact hcursor
  | reset copy =>
    refine List.forall_mem_cons.2 ⟨?_, hcopies⟩
    change (walk.copies.getD copy walk.cursor).Reached source
    rw [List.getD_eq_getElem?_getD]
    cases hcopy : walk.copies[copy]? with
    | none => exact hcursor
    | some c => exact hcopies c (List.mem_of_getElem? hcopy)

theorem Walk.run_reached (source : String) (acts : List Act) :
    ∀ c ∈ ((Walk.start source).run acts).cursors, c.Reached source := by
  have hstart : ∀ c ∈ (Walk.start source).cursors, c.Reached source := by
    intro c hc
    rw [List.mem_singleton.1 hc]
    exact ⟨[], Passes.refl _⟩
  rw [run]
  generalize Walk.start source = walk at hstart
  induction acts generalizing walk with
  | nil => exact hstart
  | cons act acts ih => exact ih (walk.step act) (walk.step_reached hstart act)

end Walks

/-! ## What is consumed determines the cursor -/

/-- The cursor has consumed this text of the source. The offset is said twice: it is counted from
the front, and it is what the unread rest leaves of the whole. -/
structure Consumed (source : String) (front : List Char) (c : Cursor) : Prop where
  source_eq : c.source = source
  splits : source = String.ofList front ++ String.ofList c.rest
  offset_eq : c.offset = (Text.utf8 (String.ofList front)).length
  offset_eq_sub : c.offset =
    (Text.utf8 source).length - (Text.utf8 (String.ofList c.rest)).length
  line_eq : c.line = 1 + front.count '\n'
  atEnd_iff : c.atEnd = true ↔ c.rest = []

section Consumed

variable {source source' : String} {front : List Char} {c d : Cursor}

theorem Passes.consumed (h : (start source).Passes front c) : c.Consumed source front := by
  have hsource : source = String.ofList front ++ String.ofList c.rest := by
    rw [← String.ofList_append, ← h.rest]
    exact (String.ofList_toList ..).symm
  have hoffset : c.offset = (Text.utf8 (String.ofList front)).length := by
    rw [h.offset, Text.length_utf8_ofList]
    exact Nat.zero_add _
  refine ⟨h.source, hsource, hoffset, ?_, h.line, List.isEmpty_iff⟩
  rw [hsource, Text.utf8_append, List.length_append, Nat.add_sub_cancel]
  exact hoffset

theorem beq_iff : (c == d) = true ↔ c.source = d.source ∧ c.rest = d.rest := by
  change (c.source == d.source && c.rest == d.rest) = true ↔ _
  rw [Bool.and_eq_true, beq_iff_eq, beq_iff_eq]

/-- Where two cursors have the same source and the same rest, they have the same counters. -/
theorem Reached.eq_of_beq (hc : c.Reached source) (hd : d.Reached source')
    (h : (c == d) = true) : c = d := by
  obtain ⟨front, hfront⟩ := hc
  obtain ⟨front', hfront'⟩ := hd
  obtain ⟨hsource, hrest⟩ := beq_iff.1 h
  obtain rfl : source = source' := hfront.source.symm.trans (hsource.trans hfront'.source)
  obtain rfl : front = front' := by
    have hparts := hfront.rest.symm.trans hfront'.rest
    rw [hrest] at hparts
    exact List.append_cancel_right hparts
  cases c
  cases d
  congr
  · exact hfront.offset.trans hfront'.offset.symm
  · exact hfront.line.trans hfront'.line.symm

end Consumed

/-- **A cursor is determined by what it has consumed.** Whatever is done with a cursor of a source,
the source splits into a text that it has consumed and the rest that is unread, and its offset and
its line are those of the consumed text; every motion gives the answer that the unread rest asks
for and consumes the text that it asks for; and cursors that compare equal have one offset and one
line, whatever was done with either of them. -/
theorem determined_by_consumed (source : String) (acts : List Act) :
    ∀ c ∈ ((Walk.start source).run acts).cursors,
      (∃ front, c.Consumed source front) ∧
      (∀ motion : Motion, ∃ text, motion.Asks c.rest (motion.perform c).1 text ∧
        c.Passes text (motion.perform c).2 ∧ (text = [] → (motion.perform c).2 = c)) ∧
      ∀ (source' : String) (acts' : List Act),
        ∀ d ∈ ((Walk.start source').run acts').cursors, (c == d) = true →
          c.offset = d.offset ∧ c.line = d.line := by
  intro c hc
  have hreached := Walk.run_reached source acts c hc
  refine ⟨?_, fun motion => ?_, fun source' acts' d hd hequal => ?_⟩
  · obtain ⟨front, hfront⟩ := hreached
    exact ⟨front, hfront.consumed⟩
  · obtain ⟨text, hasks, hpasses⟩ := motion.perform_spec c
    refine ⟨text, hasks, hpasses, ?_⟩
    rintro rfl
    exact hpasses.eq_of_nil
  · rw [hreached.eq_of_beq (Walk.run_reached source' acts' d hd) hequal]
    exact ⟨rfl, rfl⟩

/-- In `äö`, a line feed and `€`: behind the line feed, once by way of a copy and a run of letters,
once by skipping. -/
theorem determined_by_consumed_two_ways :
    let source := "äö\n€"
    let walk := (Walk.start source).run
      [.copy, .move .next, .reset 0, .move (.eatWhile (· != '\n')), .move (.advanceIf '\n')]
    let other := (Walk.start source).run [.move (.nth 2), .move .peek]
    walk.cursor ∈ walk.cursors ∧ other.cursor ∈ other.cursors ∧
      (walk.cursor == other.cursor) = true ∧
      walk.cursor.offset = other.cursor.offset ∧ walk.cursor.line = other.cursor.line := by
  intro source walk other
  have hwalk : walk.cursor ∈ walk.cursors := List.mem_cons_self ..
  have hother : other.cursor ∈ other.cursors := List.mem_cons_self ..
  have hequal : (walk.cursor == other.cursor) = true := by decide
  have hsame := (determined_by_consumed source _ _ hwalk).2.2 source _ _ hother hequal
  exact ⟨hwalk, hother, hequal, hsame⟩

end Cursor

end Lox
