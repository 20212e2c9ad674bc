/-
The places of a reading.

A reading stands at a place in a list of tokens, and what it looks at there is the token at that
index. The readers keep what is left instead of an index, so this file says what the one is in terms
of the other: what is left is always a suffix of the tokens in front of the end marker, and there
is a token at its index, the end marker itself where nothing is left. Every way to go on, using up
a token, reading an expression, failing in one, and recovering from a fault, keeps it so.
-/
import Lox.Proofs.Grammar.Programs

set_option autoImplicit false

namespace Lox

/-- The places that a reading of the tokens can come to, each given by what is left there. The
readers are those of all levels and depths, and any other one. -/
inductive ReadTo (tokens : List Token) : List Token → Prop
  | start : ReadTo tokens (untilMarker tokens)
  | next {t : Token} {rest : List Token} : ReadTo tokens (t :: rest) → ReadTo tokens rest
  | behind (reader : Reader) {rest more : List Token} {e : Expr} : ReadTo tokens rest →
      reader.read rest = .ok (e, more) → ReadTo tokens more
  | fault (reader : Reader) {rest : List Token} {m : Misfit} : ReadTo tokens rest →
      reader.read rest = .error m → ReadTo tokens m.rest
  | recovered {rest : List Token} : ReadTo tokens rest → ReadTo tokens (recover rest)

namespace ReadTo

variable {tokens rest : List Token}

/-- No reading leaves the tokens in front of the end marker. -/
theorem suffix (h : ReadTo tokens rest) : rest <:+ untilMarker tokens := by
  induction h with
  | start => exact List.suffix_refl _
  | next _ ih => exact (List.suffix_cons _ _).trans ih
  | behind reader _ hread ih =>
    obtain ⟨used, -, rfl⟩ := reader.uses hread
    exact (List.suffix_append _ _).trans ih
  | fault reader _ hread ih => exact (reader.points hread).trans ih
  | recovered _ ih => exact (recover_suffix _).trans ih

/-- There is a token at the index of every place: the next one, or the end marker. -/
theorem inRange {body : List Token} {marker : Token} (hbody : ∀ t ∈ body, t.isEnding = false)
    (hmarker : marker.isEnding = true) (h : ReadTo (body ++ [marker]) rest) :
    ∃ current : Nat, (body ++ [marker])[current]? = some (rest.headD marker) := by
  have hsuffix := h.suffix
  rw [untilMarker_append hbody hmarker] at hsuffix
  obtain ⟨used, rfl⟩ := hsuffix
  -- the index is the number of tokens that were used up
  refine ⟨used.length, ?_⟩
  rw [List.append_assoc, List.getElem?_append_right (Nat.le_refl _), Nat.sub_self]
  cases rest <;> rfl

/-! ## Statements -/

theorem expect {kind : Kind} {cause : SyntaxFault} (h : ReadTo tokens rest) :
    (∀ more, Lox.expect kind cause rest = .ok more → ReadTo tokens more) ∧
      ∀ m, Lox.expect kind cause rest = .error m → ReadTo tokens m.rest := by
  constructor
  · intro more hexpect
    obtain ⟨t, -, rfl⟩ := expect_ok hexpect
    exact h.next
  · intro m hexpect
    rw [expect_error hexpect]
    exact h

theorem readBody (make : Expr → Stmt) (missing : SyntaxFault) (h : ReadTo tokens rest) :
    (∀ s more, Stmt.readBody make missing rest = .ok (s, more) → ReadTo tokens more) ∧
      ∀ m, Stmt.readBody make missing rest = .error m → ReadTo tokens m.rest := by
  rw [Stmt.readBody]
  cases hread : Expr.reader.read rest with
  | error m =>
    refine ⟨by simp, fun m' hm => ?_⟩
    rw [← Except.error.inj hm]
    exact h.fault Expr.reader hread
  | ok found =>
    obtain ⟨e, behind⟩ := found
    have hbehind : ReadTo tokens behind := h.behind Expr.reader hread
    simp only
    cases hexpect : Lox.expect (.symbol .semicolon) missing behind with
    | error m =>
      refine ⟨by simp, fun m' hm => ?_⟩
      rw [← Except.error.inj hm]
      exact hbehind.expect.2 m hexpect
    | ok more =>
      refine ⟨fun s more' hs => ?_, by simp⟩
      rw [← (Prod.mk.inj (Except.ok.inj hs)).2]
      exact hbehind.expect.1 more hexpect

/-- Reading a statement goes from one place to another, whether it succeeds or fails. -/
theorem statement (h : ReadTo tokens rest) :
    (∀ s more, Stmt.read rest = .ok (s, more) → ReadTo tokens more) ∧
      ∀ m, Stmt.read rest = .error m → ReadTo tokens m.rest := by
  cases rest with
  | nil =>
    rw [Stmt.read]
    exact h.readBody _ _
  | cons t more =>
    rw [Stmt.read]
    by_cases hprint : t.kind = .keyword .print_
    · rw [if_pos hprint]
      exact h.next.readBody _ _
    · rw [if_neg hprint]
      exact h.readBody _ _

/-- Every fault that a reading of a program finds is at one of its places. -/
theorem misfits (h : ReadTo tokens rest) :
    ∀ m ∈ Program.misfits (Program.readAll rest), ReadTo tokens m.rest := by
  intro m hm
  induction rest using Program.passes_induction with
  | nil =>
    rw [Program.readAll_nil] at hm
    cases hm
  | statement rest s more hread ih =>
    rw [Program.readAll_of_read_ok hread] at hm
    apply ih (h.statement.1 s more hread)
    cases hmore : Program.readAll more with
    | ok program => simp [hmore, Except.map, Program.misfits] at hm
    | error ms => simpa [hmore, Except.map, Program.misfits] using hm
  | fault rest found hne hread ih =>
    rw [Program.readAll_of_read_error hne hread] at hm
    have hfound : ReadTo tokens found.rest := h.statement.2 found hread
    rcases List.mem_cons.1 hm with rfl | hm
    · exact hfound
    · exact ih hfound.recovered hm

end ReadTo

end Lox
