/-
The readers of expressions are exact.

A reader is *exact* at a depth and a step of the ladder when it reads the trees that bind at this
step and are nested less than that deep, and reads them as far as they go: what it leaves unread
does not begin with an operator it could have gone on with. Soundness and completeness are stated
together because they carry each other through the recursion: a chain of operands is complete
because its operands are, and its operands stop where they should because the chain's operator is
looser than all of theirs.

Every combinator of readers keeps exactness, so the readers of all depths are exact by recursion on
the depth, and `Expr.readAll` accepts just the tokens that a tree derives from. That no tokens
write two canonical trees is a consequence: an exact reader would have to answer with both.
-/
import Lox.Proofs.Grammar.Tree
import Lox.Program.Grammar

set_option autoImplicit false

namespace Lox

/-! ## Exactness -/

/-- No operator at or above this step of the ladder stands in front. -/
def StopsAt (rank : Nat) (rest : List Token) : Prop :=
  ∀ t ∈ rest.head?, ∀ level, t.Joins level → level.rank < rank

/-- The tree is one that a reader of this depth and step should read. -/
structure Expr.Fits (depth rank : Nat) (e : Expr) : Prop where
  canonical : e.Canonical
  binds : e.BindsAt rank
  shallow : e.nesting < depth

/-- The reader reads the trees it should, and each of them to its end. -/
structure Reader.Exact (reader : Reader) (depth rank : Nat) : Prop where
  sound : ∀ {tokens e rest}, reader.read tokens = .ok (e, rest) →
    e.Fits depth rank ∧ StopsAt rank rest ∧ ∃ used, tokens = used ++ rest ∧ e.WrittenBy used
  complete : ∀ {e used rest}, e.Fits depth rank → e.WrittenBy used → StopsAt rank rest →
    reader.read (used ++ rest) = .ok (e, rest)

theorem stopsAt_nil (rank : Nat) : StopsAt rank [] := by
  intro t ht
  simp at ht

/-- A symbol that is no binary operator stops every reader. -/
theorem stopsAt_cons_of_symbol {t : Token} {s : Symbol} (hmeaning : t.meaning = .symbol s)
    (hnone : ∀ level : Level, s ∉ level.operators) (rank : Nat) (rest : List Token) :
    StopsAt rank (t :: rest) := by
  rintro u hu level ⟨s', hs', hmeaning'⟩
  obtain rfl : t = u := by simpa using hu
  obtain rfl : s = s' := by simpa [hmeaning] using hmeaning'
  exact absurd hs' (hnone level)

/-- An operator stops the readers above its own step. -/
theorem stopsAt_cons_of_joins {t : Token} {level : Level} (h : t.Joins level)
    (rest : List Token) : StopsAt (level.rank + 1) (t :: rest) := by
  intro u hu other hjoins
  obtain rfl : t = u := by simpa using hu
  rw [hjoins.level_unique h]
  exact Nat.lt_succ_self _

theorem StopsAt.weaken {low high : Nat} {rest : List Token} (h : StopsAt low rest)
    (hle : low ≤ high) : StopsAt high rest :=
  fun t ht level hjoins => Nat.lt_of_lt_of_le (h t ht level hjoins) hle

/-- Above all levels nothing goes on. -/
theorem stopsAt_operandRank (rest : List Token) : StopsAt operandRank rest :=
  fun _ _ level _ => level.rank_lt

/-! ## Chains -/

namespace Reader

variable {depth : Nat} {level : Level} {operand : Reader}

/-- What a chain makes of the operand it has and the operands it finds. The tokens that wrote the
operand it has are kept as `front`. -/
theorem join_sound (hoperand : operand.Exact depth (level.rank + 1)) (left : Expr)
    (tokens : List Token) :
    ∀ {e rest front}, join level operand left tokens = .ok (e, rest) →
      left.Fits depth level.rank → left.WrittenBy front → StopsAt (level.rank + 1) tokens →
      e.Fits depth level.rank ∧ StopsAt level.rank rest ∧
        ∃ used, tokens = used ++ rest ∧ e.WrittenBy (front ++ used) := by
  fun_induction join level operand left tokens with
  | case1 left =>
    intro e rest front hread hleft hwritten _
    obtain ⟨rfl, rfl⟩ : left = e ∧ [] = rest := by simpa using hread
    exact ⟨hleft, stopsAt_nil _, [], rfl, by simpa using hwritten⟩
  | case2 left operator more hlevel m hm =>
    intro e rest front hread
    simp at hread
  | case3 left operator more hlevel right middle hread ih =>
    intro e rest front hjoin hleft hwritten _
    have hjoins := (Token.level?_eq_some_iff _ _).1 hlevel
    obtain ⟨hright, hstops, used, rfl, hused⟩ := hoperand.sound hread
    have hfits : (Expr.binary left operator right).Fits depth level.rank :=
      ⟨.binary hjoins hleft.canonical hleft.binds hright.canonical hright.binds,
        ⟨level, hjoins, Nat.le_refl _⟩,
        Nat.max_lt.2 ⟨hleft.shallow, hright.shallow⟩⟩
    -- the operation is the new operand in hand, and the right operand stops where it should
    obtain ⟨he, hend, further, rfl, hfurther⟩ :=
      ih hjoin hfits (.binary hwritten hused) hstops
    exact ⟨he, hend, operator :: used ++ further, by simp, by simpa using hfurther⟩
  | case4 left operator more hlevel =>
    intro e rest front hread hleft hwritten hstops
    obtain ⟨rfl, rfl⟩ : left = e ∧ operator :: more = rest := by simpa using hread
    refine ⟨hleft, ?_, [], rfl, by simpa using hwritten⟩
    -- the operator is none of the levels above, and it is not the chain's own either
    intro t ht other hjoins
    obtain rfl : operator = t := by simpa using ht
    have hle := Nat.lt_succ_iff.1 (hstops operator rfl other hjoins)
    refine Nat.lt_of_le_of_ne hle fun hrank => hlevel ?_
    rw [Token.level?_eq_some_iff, ← Level.rank_injective hrank]
    exact hjoins

theorem chain_read_of_read {e : Expr} {tokens rest : List Token}
    (hread : operand.read tokens = .ok (e, rest)) :
    (operand.chain level).read tokens = join level operand e rest := by
  simp only [chain, hread]

/-- A chain that read a whole tree of its step has that tree in hand, whatever operator of its own
or of a looser level comes next. The induction runs down the left operands, where a chain keeps
all operations but the last one. -/
theorem chain_read_eq_join (hoperand : operand.Exact depth (level.rank + 1)) {e : Expr}
    {used : List Token} (hwritten : e.WrittenBy used) :
    ∀ {rest}, e.Fits depth level.rank → StopsAt (level.rank + 1) rest →
      (operand.chain level).read (used ++ rest) = join level operand e rest := by
  induction hwritten with
  | @binary left right operator front back hfront hback ihleft _ =>
    intro rest hfits hstops
    obtain ⟨hcanonical, ⟨own, hown, hrank⟩, hshallow⟩ := hfits
    have hnesting := Nat.max_lt.1 hshallow
    cases hcanonical with
    | @binary _ _ _ level' hjoins hleft hleftBinds hright hrightBinds =>
      obtain rfl := hown.level_unique hjoins
      by_cases hsame : own = level
      · -- the chain has the left operand in hand, and its own operator is next
        subst hsame
        have hreadRight := hoperand.complete ⟨hright, hrightBinds, hnesting.2⟩ hback hstops
        rw [List.append_assoc, List.cons_append,
          ihleft ⟨hleft, hleftBinds, hnesting.1⟩ (stopsAt_cons_of_joins hjoins _), join]
        rw [if_pos ((Token.level?_eq_some_iff _ _).2 hjoins)]
        split
        · rename_i m hm
          simp [hreadRight] at hm
        · rename_i found middle hm
          obtain ⟨rfl, rfl⟩ : right = found ∧ rest = middle := by simpa [hreadRight] using hm
          rfl
      · -- a tighter operation is one operand of the chain
        have hlt : level.rank + 1 ≤ own.rank :=
          Nat.lt_of_le_of_ne hrank fun h => hsame (Level.rank_injective h).symm
        apply chain_read_of_read
        exact hoperand.complete
          ⟨.binary hjoins hleft hleftBinds hright hrightBinds, ⟨own, hjoins, hlt⟩, hshallow⟩
          (.binary hfront hback) hstops
  | literal hmeaning =>
    intro rest hfits hstops
    apply chain_read_of_read
    exact hoperand.complete ⟨hfits.canonical, trivial, hfits.shallow⟩ (.literal hmeaning) hstops
  | group hfirst hbody hlast _ =>
    intro rest hfits hstops
    apply chain_read_of_read
    exact hoperand.complete ⟨hfits.canonical, trivial, hfits.shallow⟩
      (.group hfirst hbody hlast) hstops
  | unary hbody _ =>
    intro rest hfits hstops
    apply chain_read_of_read
    exact hoperand.complete ⟨hfits.canonical, trivial, hfits.shallow⟩ (.unary hbody) hstops

/-- Where no operator of the level follows, a chain ends. -/
theorem join_of_stopsAt {e : Expr} {rest : List Token} (hstops : StopsAt level.rank rest) :
    join level operand e rest = .ok (e, rest) := by
  cases rest with
  | nil => rw [join]
  | cons t more =>
    rw [join, if_neg]
    intro hlevel
    exact Nat.lt_irrefl _ (hstops t rfl level ((Token.level?_eq_some_iff _ _).1 hlevel))

theorem chain_exact (hoperand : operand.Exact depth (level.rank + 1)) :
    (operand.chain level).Exact depth level.rank where
  sound {tokens e rest} hread := by
    simp only [chain] at hread
    split at hread
    · simp at hread
    · rename_i left middle hleft
      obtain ⟨hfits, hstops, front, rfl, hwritten⟩ := hoperand.sound hleft
      have hfits' : left.Fits depth level.rank :=
        ⟨hfits.canonical, hfits.binds.weaken (Nat.le_succ _), hfits.shallow⟩
      obtain ⟨he, hend, used, rfl, hused⟩ :=
        join_sound hoperand left middle hread hfits' hwritten hstops
      exact ⟨he, hend, front ++ used, by rw [List.append_assoc], hused⟩
  complete {e used rest} hfits hwritten hstops := by
    rw [chain_read_eq_join hoperand hwritten hfits (hstops.weaken (Nat.le_succ _))]
    exact join_of_stopsAt hstops

theorem allLevels_exact (hoperand : operand.Exact depth operandRank) :
    operand.allLevels.Exact depth 0 := by
  have hfactor : (operand.chain .factor).Exact depth Level.factor.rank := chain_exact hoperand
  have hterm : ((operand.chain .factor).chain .term).Exact depth Level.term.rank :=
    chain_exact hfactor
  have hcomparison : (((operand.chain .factor).chain .term).chain .comparison).Exact depth
      Level.comparison.rank := chain_exact hterm
  exact chain_exact hcomparison

/-! ## Operands -/

theorem leftParen_not_unary {t : Token} (h : t.meaning = .symbol .leftParen) :
    ¬ t.isUnary = true := by
  rw [Token.isUnary_iff, Token.Negates, h]
  simp

theorem literal_not_unary {t : Token} {value : Value} (h : t.meaning = value.meaning) :
    ¬ t.isUnary = true ∧ ¬ t.kind = .symbol .leftParen := by
  rw [Token.isUnary_iff, Token.Negates, Token.kind_eq_symbol_iff, h]
  rcases value with _ | _ | (_ | _) | _ <;> simp [Value.meaning]

/-- A tree and a symbol behind it that joins nothing are read one after the other just when the
tokens are those of the tree and that symbol: it is where the tree ends. -/
theorem Exact.closed_iff {reader : Reader} (hreader : reader.Exact depth 0) {s : Symbol}
    (hnone : ∀ level : Level, s ∉ level.operators) (cause : SyntaxFault) (e : Expr)
    (tokens rest : List Token) :
    (∃ middle, reader.read tokens = .ok (e, middle) ∧
        expect (.symbol s) cause middle = .ok rest) ↔
      ∃ body last, tokens = body ++ last :: rest ∧ e.Fits depth 0 ∧ e.WrittenBy body ∧
        last.meaning = .symbol s := by
  constructor
  · rintro ⟨middle, hread, hexpect⟩
    obtain ⟨hfits, -, body, rfl, hwritten⟩ := hreader.sound hread
    obtain ⟨last, hkind, rfl⟩ := expect_ok hexpect
    exact ⟨body, last, rfl, hfits, hwritten, (last.kind_eq_symbol_iff _).1 hkind⟩
  · rintro ⟨body, last, rfl, hfits, hwritten, hlast⟩
    have hkind : last.kind = .symbol s := (last.kind_eq_symbol_iff _).2 hlast
    refine ⟨last :: rest, hreader.complete hfits hwritten ?_, ?_⟩
    · exact stopsAt_cons_of_symbol hlast hnone 0 rest
    · rw [expect, if_pos hkind]

theorem rightParen_not_mem (level : Level) : Symbol.rightParen ∉ level.operators := by
  cases level <;> decide

theorem readGroup_sound {inner : Reader} (hinner : inner.Exact depth 0) {tokens rest : List Token}
    {e : Expr} (hread : inner.readGroup tokens = .ok (e, rest)) :
    ∃ e' body last, e = .group e' ∧ tokens = body ++ last :: rest ∧ e'.Fits depth 0 ∧
      e'.WrittenBy body ∧ last.meaning = .symbol .rightParen := by
  rw [readGroup] at hread
  split at hread
  · simp at hread
  · rename_i e' middle hbody
    split at hread
    · simp at hread
    · rename_i behind hexpect
      obtain ⟨rfl, rfl⟩ : Expr.group e' = e ∧ behind = rest := by simpa using hread
      obtain ⟨body, last, htokens⟩ :=
        (hinner.closed_iff rightParen_not_mem _ _ _ _).1 ⟨middle, hbody, hexpect⟩
      exact ⟨e', body, last, rfl, htokens⟩

theorem readGroup_complete {inner : Reader} (hinner : inner.Exact depth 0) {e : Expr}
    {body rest : List Token} {last : Token} (hfits : e.Fits depth 0) (hwritten : e.WrittenBy body)
    (hlast : last.meaning = .symbol .rightParen) :
    inner.readGroup (body ++ last :: rest) = .ok (.group e, rest) := by
  obtain ⟨middle, hread, hexpect⟩ :=
    (hinner.closed_iff rightParen_not_mem .missingRightParen e _ rest).2
      ⟨body, last, rfl, hfits, hwritten, hlast⟩
  rw [readGroup, hread]
  simp only [hexpect]

/-- An operand's own operands are one level of nesting further in. -/
theorem operand_exact {nested : Reader} (hnested : nested.Exact depth operandRank) :
    nested.operand.Exact (depth + 1) operandRank where
  sound {tokens e rest} hread := by
    simp only [operand] at hread
    rw [readOperand.eq_def] at hread
    split at hread
    · simp at hread
    · rename_i t more
      split at hread
      · rename_i hunary
        split at hread
        · simp at hread
        · rename_i e' middle hoperand
          obtain ⟨rfl, rfl⟩ : Expr.unary t e' = e ∧ middle = rest := by simpa using hread
          obtain ⟨hfits, -, used, rfl, hwritten⟩ := hnested.sound hoperand
          exact ⟨⟨.unary (t.isUnary_iff.1 hunary) hfits.canonical hfits.binds, trivial,
              Nat.succ_lt_succ hfits.shallow⟩,
            stopsAt_operandRank _, t :: used, rfl, .unary hwritten⟩
      · split at hread
        · rename_i hparen
          obtain ⟨e', body, last, rfl, rfl, hfits, hwritten, hlast⟩ :=
            readGroup_sound (allLevels_exact hnested) hread
          exact ⟨⟨.group hfits.canonical, trivial, Nat.succ_lt_succ hfits.shallow⟩,
            stopsAt_operandRank _, t :: body ++ [last], by simp,
            .group ((t.kind_eq_symbol_iff _).1 hparen) hwritten hlast⟩
        · split at hread
          · rename_i value hvalue
            obtain ⟨rfl, rfl⟩ : Expr.literal value = e ∧ more = rest := by simpa using hread
            exact ⟨⟨.literal value, trivial, Nat.succ_pos _⟩, stopsAt_operandRank _, [t], rfl,
              .literal ((t.literal?_eq_some_iff _).1 hvalue)⟩
          · simp at hread
  complete {e used rest} hfits hwritten _ := by
    simp only [operand]
    cases hwritten with
    | @literal value t hmeaning =>
      obtain ⟨hunary, hparen⟩ := literal_not_unary hmeaning
      rw [List.singleton_append, readOperand, if_neg hunary, if_neg hparen,
        (t.literal?_eq_some_iff _).2 hmeaning]
    | @group inner first last body hfirst hbody hlast =>
      obtain ⟨hcanonical, -, hshallow⟩ := hfits
      cases hcanonical with
      | group hinner =>
        rw [List.append_assoc, List.cons_append, List.singleton_append, readOperand,
          if_neg (leftParen_not_unary hfirst), if_pos ((first.kind_eq_symbol_iff _).2 hfirst)]
        exact readGroup_complete (allLevels_exact hnested)
          ⟨hinner, hinner.bindsAt_zero, Nat.lt_of_succ_lt_succ hshallow⟩ hbody hlast
    | @unary operator operand body hbody =>
      obtain ⟨hcanonical, -, hshallow⟩ := hfits
      cases hcanonical with
      | unary hnegates hoperand hbinds =>
        rw [List.cons_append, readOperand, if_pos (operator.isUnary_iff.2 hnegates),
          hnested.complete ⟨hoperand, hbinds, Nat.lt_of_succ_lt_succ hshallow⟩ hbody
            (stopsAt_operandRank rest)]
    | binary _ _ =>
      -- no binary operation holds together as tightly as an operand
      obtain ⟨level, -, hrank⟩ := hfits.binds
      exact absurd level.rank_lt (Nat.not_lt.2 hrank)

/-- With no nesting left there is no tree to read, and nothing is read. -/
theorem exhausted_exact : exhausted.Exact 0 operandRank where
  sound hread := by simp [exhausted] at hread
  complete hfits := absurd hfits.shallow (Nat.not_lt_zero _)

theorem operands_exact (depth : Nat) : (operands depth).Exact depth operandRank := by
  induction depth with
  | zero => exact exhausted_exact
  | succ depth ih => exact operand_exact ih

/-- The reader of whole expressions, for any bound on the nesting. -/
theorem expressions_exact (depth : Nat) : (operands depth).allLevels.Exact depth 0 :=
  allLevels_exact (operands_exact depth)

end Reader

end Lox
