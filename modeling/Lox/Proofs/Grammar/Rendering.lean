/-
A tree without strings is determined by its text.

Written out, every operation and every pair of parentheses stands in parentheses of its own, behind a
head: an operator, or a word that is the spelling of none. A literal stands as one word, so a text tells
by its first character whether it is a literal's, and a word ends at a blank, a parenthesis or the end.
Whether an operation has one operand or two is not said by its head, as there are two operations that
are written `-`; it is said by what comes behind the first operand, a parenthesis or a blank. So the
induction has to be over texts that go on: if the texts of two trees, each with something behind it,
are the same, then so are the trees, and so is what is behind them (`Plain.eq_of_append_eq`).

A tree does not keep the digits of its numbers, and these are written in digits of their own; that the
number can be told from them is because they read back as that number. In a string anything may stand,
also a text like that of a tree, and so strings are left out.
-/
import Lox.Proofs.Grammar.Depth
import Lox.Proofs.Lexing.Meanings
import Lox.Proofs.Number.Doubles

set_option autoImplicit false

namespace Lox

/-! ## What is compared -/

namespace Expr

/-- One of the literals is a string. -/
def hasString : Expr → Bool
  | literal (.string _) => true
  | literal _ => false
  | group inner => inner.hasString
  | unary _ operand => operand.hasString
  | binary left _ right => left.hasString || right.hasString

/-- The tree with all its operators on line 1. -/
def onOneLine : Expr → Expr
  | literal value => literal value
  | group inner => group inner.onOneLine
  | unary operator operand => unary { operator with line := 1 } operand.onOneLine
  | binary left operator right =>
    binary left.onOneLine { operator with line := 1 } right.onOneLine

end Expr

/-- The literal is written as one word: it is no string, and a number was read from digits. -/
inductive Value.Plain : Value → Prop
  | number (digits : List Char) : Plain (.number (Number.ofDigits digits))
  | bool (b : Bool) : Plain (.bool b)
  | nil : Plain .nil

/-- The literals are written as words, and the operators are spelled as symbols. -/
inductive Expr.Plain : Expr → Prop
  | literal {value : Value} : value.Plain → Plain (literal value)
  | group {inner : Expr} : Plain inner → Plain (group inner)
  | unary (s : Symbol) (line : Nat) {operand : Expr} : Plain operand →
      Plain (unary ⟨.symbol s, s.text, line⟩ operand)
  | binary (s : Symbol) (line : Nat) {left right : Expr} : Plain left → Plain right →
      Plain (binary left ⟨.symbol s, s.text, line⟩ right)

/-! ## Trees of a source are plain -/

/-- A scanned symbol is spelled as it should be. -/
theorem Token.Scanned.eq_symbol {t : Token} (h : t.Scanned) {s : Symbol}
    (hs : t.meaning = .symbol s) : t = ⟨.symbol s, s.text, t.line⟩ := by
  rw [← h.lexeme_eq_text hs, ← hs]

theorem Expr.WrittenBy.plain {e : Expr} {tokens : List Token} (h : e.WrittenBy tokens)
    (hcanonical : e.Canonical) (hscanned : ∀ t ∈ tokens, t.Scanned) (hstring : e.hasString = false) :
    e.Plain := by
  induction h with
  | @literal value t hmeaning =>
    cases value with
    | number x =>
      rw [(hscanned t (List.mem_singleton_self t)).number_eq hmeaning]
      exact .literal (.number _)
    | string text => cases hstring
    | bool b => exact .literal (.bool b)
    | nil => exact .literal .nil
  | group _ _ _ ih =>
    cases hcanonical with
    | group hinner =>
      exact .group (ih hinner (fun t ht => hscanned t (by simp [ht])) hstring)
  | @unary operator operand body _ ih =>
    cases hcanonical with
    | unary hnegates hoperand _ =>
      have hplain := ih hoperand (fun t ht => hscanned t (by simp [ht])) hstring
      have hoperator : operator.Scanned := hscanned operator (by simp)
      rcases hnegates with hs | hs
      · rw [hoperator.eq_symbol hs]
        exact .unary _ _ hplain
      · rw [hoperator.eq_symbol hs]
        exact .unary _ _ hplain
  | @binary left right operator front back _ _ ihleft ihright =>
    cases hcanonical with
    | binary hjoins hleft _ hright _ =>
      obtain ⟨hstringLeft, hstringRight⟩ := Bool.or_eq_false_iff.1 hstring
      have hplainLeft := ihleft hleft (fun t ht => hscanned t (by simp [ht])) hstringLeft
      have hplainRight := ihright hright (fun t ht => hscanned t (by simp [ht])) hstringRight
      obtain ⟨s, -, hs⟩ := hjoins
      rw [(hscanned operator (by simp)).eq_symbol hs]
      exact .binary _ _ hplainLeft hplainRight

/-! ## Words -/

/-- A character that ends a word. -/
def EndsWord (c : Char) : Prop := c = ' ' ∨ c = '(' ∨ c = ')'

/-- No digit and no letter ends a word, and neither does the point of a number. -/
theorem not_endsWord {c : Char} (h : c.isAlphanum = true ∨ c = '.') : ¬ EndsWord c := by
  rintro (rfl | rfl | rfl) <;> exact absurd h (by decide)

namespace Value.Plain

variable {value other : Value}

/-- A literal is a word of letters, or digits that are read as the literal. -/
theorem text_cases (h : value.Plain) :
    (value.literalText = "inf" ∧
        value = .number (Float.ofBits Number.infinityBits.toUInt64)) ∨
      (∃ shown num den, Number.Positional shown num den ∧
        value.literalText = String.ofList shown ∧ value = .number (Number.ofDigits shown)) ∨
      (value.literalText, value) ∈ [("true", .bool true), ("false", .bool false), ("nil", .nil)] := by
  cases h with
  | number digits =>
    rcases Number.render_ofDigits digits ⟨"inf", "-inf", "NaN"⟩ with
      ⟨hword, hinfinite⟩ | ⟨shown, num, den, hshown, hword, hread⟩
    · exact .inl ⟨hword, by rw [hinfinite]⟩
    · exact .inr (.inl ⟨shown, num, den, hshown, hword, by rw [hread]⟩)
  | bool b => cases b <;> exact .inr (.inr (by simp [Value.literalText, Value.render]))
  | nil => exact .inr (.inr (by simp [Value.literalText, Value.render]))

/-- No character of a literal ends a word. -/
theorem not_endsWord (h : value.Plain) : ∀ c ∈ value.literalText.toList, ¬ EndsWord c := by
  intro c hc
  have hletters : ∀ word : String, word.toList.all Char.isAlphanum = true →
      value.literalText = word → ¬ EndsWord c := by
    rintro _ hall rfl
    exact Lox.not_endsWord (.inl (List.all_eq_true.1 hall c hc))
  rcases h.text_cases with ⟨hword, -⟩ | ⟨shown, num, den, hshown, hword, -⟩ | hword
  · exact hletters "inf" rfl hword
  · rw [hword, String.toList_ofList] at hc
    rcases hshown.isDigit_or_point c hc with hdigit | hpoint
    · exact Lox.not_endsWord (.inl (by rw [Char.isAlphanum, hdigit, Bool.or_true]))
    · exact Lox.not_endsWord (.inr hpoint)
  · simp only [List.mem_cons, Prod.mk.injEq, List.not_mem_nil, or_false] at hword
    rcases hword with ⟨hword, -⟩ | ⟨hword, -⟩ | ⟨hword, -⟩
    · exact hletters "true" rfl hword
    · exact hletters "false" rfl hword
    · exact hletters "nil" rfl hword

/-- What a plain literal is read as. -/
def ofText (text : String) : Value :=
  if text = "inf" then .number (Float.ofBits Number.infinityBits.toUInt64)
  else if text = "true" then .bool true
  else if text = "false" then .bool false
  else if text = "nil" then .nil
  else .number (Number.ofDigits text.toList)

theorem ofText_literalText (h : value.Plain) : ofText value.literalText = value := by
  rcases h.text_cases with ⟨hword, hvalue⟩ | ⟨shown, num, den, hshown, hword, hvalue⟩ | hword
  · rw [hword, hvalue]
    rfl
  · -- there is a letter in each of the words
    have hnone : ∀ {word : String} {c : Char}, c ∈ word.toList → c.isDigit = false → c ≠ '.' →
        ¬ String.ofList shown = word := by
      rintro _ c hc hdigit hpoint rfl
      rw [String.toList_ofList] at hc
      rcases hshown.isDigit_or_point c hc with h | h
      · rw [hdigit] at h
        cases h
      · exact hpoint h
    rw [hword, hvalue, ofText, if_neg (hnone (c := 'i') (by decide) rfl (by decide)),
      if_neg (hnone (c := 't') (by decide) rfl (by decide)),
      if_neg (hnone (c := 'f') (by decide) rfl (by decide)),
      if_neg (hnone (c := 'n') (by decide) rfl (by decide)), String.toList_ofList]
  · simp only [List.mem_cons, Prod.mk.injEq, List.not_mem_nil, or_false] at hword
    rcases hword with ⟨hword, rfl⟩ | ⟨hword, rfl⟩ | ⟨hword, rfl⟩ <;> rw [hword] <;> rfl

/-- Plain literals that are written alike are the same. -/
theorem eq_of_literalText_eq (h : value.Plain) (h' : other.Plain)
    (htext : value.literalText = other.literalText) : value = other := by
  rw [← h.ofText_literalText, ← h'.ofText_literalText, htext]

end Value.Plain

/-! ## Trees -/

/-- Symbols are told apart by their spelling. -/
theorem Symbol.text_injective {s other : Symbol} (h : s.text = other.text) : s = other := by
  have hmem : ∀ s : Symbol, s ∈ all := by
    intro s
    cases s <;> decide
  have hall : ∀ s ∈ all, ∀ other ∈ all, s.text = other.text → s = other := by decide
  exact hall s (hmem s) other (hmem other) h

/-- A text is at its end, or it goes on with what may stand behind a tree. -/
def EndsTree (rest : List Char) : Prop := ∀ c ∈ rest.head?, c = ' ' ∨ c = ')'

namespace Expr

/-- The text of an operation or of parentheses begins with a head and a blank. -/
def headed (head : String) (back : List Char) : List Char :=
  '(' :: (head.toList ++ ' ' :: back)

variable {head other : String} {back back' : List Char}

theorem headed_inj (hhead : ' ' ∉ head.toList) (hother : ' ' ∉ other.toList)
    (h : headed head back = headed other back') : head = other ∧ back = back' := by
  have hword : ∀ {word : String}, ' ' ∉ word.toList → ∀ c ∈ word.toList, c ≠ ' ' := by
    rintro word hnot c hc rfl
    exact hnot hc
  have hblank : ∀ {rest : List Char}, ∀ c ∈ (' ' :: rest).head?, ¬ c ≠ ' ' := by
    rintro _ _ ⟨⟩
    exact fun h => h rfl
  obtain ⟨hsame, hback⟩ :=
    run_eq (hword hhead) (hword hother) hblank hblank (List.cons.inj h).2
  exact ⟨String.toList_inj.1 hsame, (List.cons.inj hback).2⟩

section Texts

variable (inner left right : Expr) (s : Symbol) (line : Nat) (rest : List Char)

theorem render_group_append : (group inner).render.toList ++ rest =
    headed "group" (inner.render.toList ++ ')' :: rest) := by
  simp [render, headed]

theorem render_unary_append : (unary ⟨.symbol s, s.text, line⟩ inner).render.toList ++ rest =
    headed s.text (inner.render.toList ++ ')' :: rest) := by
  simp [render, headed]

theorem render_binary_append :
    (binary left ⟨.symbol s, s.text, line⟩ right).render.toList ++ rest =
      headed s.text (left.render.toList ++ ' ' :: (right.render.toList ++ ')' :: rest)) := by
  simp [render, headed]

end Texts

/-- A literal does not begin as an operation does. -/
theorem literalText_append_ne_headed {value : Value} {rest : List Char} (h : value.Plain)
    (hrest : EndsTree rest) : value.literalText.toList ++ rest ≠ headed head back := by
  intro heq
  have hword := h.not_endsWord
  cases htext : value.literalText.toList with
  | nil =>
    rw [htext, List.nil_append] at heq
    have hparen : '(' = ' ' ∨ '(' = ')' := hrest '(' (by rw [heq]; rfl)
    exact absurd hparen (by decide)
  | cons c text =>
    rw [htext] at heq hword
    obtain rfl : c = '(' := (List.cons.inj heq).1
    exact hword _ (List.mem_cons_self ..) (.inr (.inl rfl))

/-- There is no blank in a head. -/
theorem blank_not_mem_text (s : Symbol) : ' ' ∉ s.text.toList := by
  cases s <;> decide

theorem blank_not_mem_group : ' ' ∉ "group".toList := by
  decide

/-- No symbol is written like the head of parentheses. -/
theorem text_ne_group (s : Symbol) : s.text ≠ "group" := by
  cases s <;> decide

theorem endsTree_blank (rest : List Char) : EndsTree (' ' :: rest) := by
  rintro _ ⟨⟩
  exact .inl rfl

theorem endsTree_paren (rest : List Char) : EndsTree (')' :: rest) := by
  rintro _ ⟨⟩
  exact .inr rfl

theorem EndsTree.not_endsWord {rest : List Char} (h : EndsTree rest) :
    ∀ c ∈ rest.head?, ¬ ¬ EndsWord c := by
  intro c hc hnot
  rcases h c hc with rfl | rfl
  · exact hnot (.inl rfl)
  · exact hnot (.inr (.inr rfl))

/-- **A tree ends where its text ends.** If the texts of two plain trees, each with something behind it,
are the same, the trees are the same up to the lines of their operators, and so is what is behind
them. -/
theorem Plain.eq_of_append_eq {e : Expr} (h : e.Plain) :
    ∀ {f : Expr} {rest rest' : List Char}, f.Plain → EndsTree rest → EndsTree rest' →
      e.render.toList ++ rest = f.render.toList ++ rest' →
      e.onOneLine = f.onOneLine ∧ rest = rest' := by
  induction h with
  | @literal value hvalue =>
    intro f rest rest' hf hrest hrest' heq
    cases hf with
    | @literal other hother =>
      obtain ⟨htext, hback⟩ := run_eq hvalue.not_endsWord hother.not_endsWord
        (EndsTree.not_endsWord hrest) (EndsTree.not_endsWord hrest') heq
      rw [hvalue.eq_of_literalText_eq hother (String.toList_inj.1 htext)]
      exact ⟨rfl, hback⟩
    | group _ =>
      rw [render_group_append] at heq
      exact absurd heq (literalText_append_ne_headed hvalue hrest)
    | unary _ _ _ =>
      rw [render_unary_append] at heq
      exact absurd heq (literalText_append_ne_headed hvalue hrest)
    | binary _ _ _ _ =>
      rw [render_binary_append] at heq
      exact absurd heq (literalText_append_ne_headed hvalue hrest)
  | group _ ih =>
    intro f rest rest' hf hrest hrest' heq
    rw [render_group_append] at heq
    cases hf with
    | literal hvalue => exact absurd heq.symm (literalText_append_ne_headed hvalue hrest')
    | group hother =>
      rw [render_group_append] at heq
      obtain ⟨-, hback⟩ := headed_inj blank_not_mem_group blank_not_mem_group heq
      obtain ⟨hinner, hbehind⟩ := ih hother (endsTree_paren _) (endsTree_paren _) hback
      rw [onOneLine, onOneLine, hinner]
      exact ⟨rfl, (List.cons.inj hbehind).2⟩
    | unary s _ _ =>
      rw [render_unary_append] at heq
      exact absurd (headed_inj blank_not_mem_group (blank_not_mem_text s) heq).1.symm (text_ne_group s)
    | binary s _ _ _ =>
      rw [render_binary_append] at heq
      exact absurd (headed_inj blank_not_mem_group (blank_not_mem_text s) heq).1.symm (text_ne_group s)
  | unary s _ _ ih =>
    intro f rest rest' hf hrest hrest' heq
    rw [render_unary_append] at heq
    cases hf with
    | literal hvalue => exact absurd heq.symm (literalText_append_ne_headed hvalue hrest')
    | group _ =>
      rw [render_group_append] at heq
      exact absurd (headed_inj (blank_not_mem_text s) blank_not_mem_group heq).1 (text_ne_group s)
    | unary other _ hother =>
      rw [render_unary_append] at heq
      obtain ⟨htext, hback⟩ := headed_inj (blank_not_mem_text s) (blank_not_mem_text other) heq
      obtain ⟨hoperand, hbehind⟩ := ih hother (endsTree_paren _) (endsTree_paren _) hback
      rw [onOneLine, onOneLine, hoperand, Symbol.text_injective htext]
      exact ⟨rfl, (List.cons.inj hbehind).2⟩
    | binary other _ hleft _ =>
      -- behind the first operand there would be a parenthesis as well as a blank
      rw [render_binary_append] at heq
      obtain ⟨-, hback⟩ := headed_inj (blank_not_mem_text s) (blank_not_mem_text other) heq
      obtain ⟨-, hbehind⟩ := ih hleft (endsTree_paren _) (endsTree_blank _) hback
      cases hbehind
  | binary s _ _ _ ihleft ihright =>
    intro f rest rest' hf hrest hrest' heq
    rw [render_binary_append] at heq
    cases hf with
    | literal hvalue => exact absurd heq.symm (literalText_append_ne_headed hvalue hrest')
    | group _ =>
      rw [render_group_append] at heq
      exact absurd (headed_inj (blank_not_mem_text s) blank_not_mem_group heq).1 (text_ne_group s)
    | unary other _ hoperand =>
      rw [render_unary_append] at heq
      obtain ⟨-, hback⟩ := headed_inj (blank_not_mem_text s) (blank_not_mem_text other) heq
      obtain ⟨-, hbehind⟩ := ihleft hoperand (endsTree_blank _) (endsTree_paren _) hback
      cases hbehind
    | binary other _ hleft hright =>
      rw [render_binary_append] at heq
      obtain ⟨htext, hback⟩ := headed_inj (blank_not_mem_text s) (blank_not_mem_text other) heq
      obtain ⟨hleftEq, hmiddle⟩ := ihleft hleft (endsTree_blank _) (endsTree_blank _) hback
      obtain ⟨hrightEq, hbehind⟩ :=
        ihright hright (endsTree_paren _) (endsTree_paren _) (List.cons.inj hmiddle).2
      rw [onOneLine, onOneLine, hleftEq, hrightEq, Symbol.text_injective htext]
      exact ⟨rfl, (List.cons.inj hbehind).2⟩

end Expr

/-! ## Trees of sources -/

/-- The tree of a source is plain, if there is no string in it. -/
theorem Expr.plain_of_source {source : String} {tokens : List Token} {e : Expr}
    (hscan : Token.scan source = .ok tokens) (hparse : Expr.ofTokens tokens = .ok e)
    (hstring : e.hasString = false) : e.Plain := by
  obtain ⟨body, rfl, hopen⟩ := Token.scan_body hscan
  have hderives := Expr.derivesFrom_of_ofTokens hparse
  rw [untilMarker_append hopen rfl] at hderives
  refine hderives.written.plain hderives.canonical (fun t ht => ?_) hstring
  exact ⟨source, _, hscan, List.mem_append_left _ ht, hopen t ht⟩

/-- **The text of a tree determines it.** Two expressions that were read from sources and have no
strings in them are the same up to the lines of their operators if they are written out alike. -/
theorem Expr.render_unambiguous {source other : String} {tokens others : List Token} {e f : Expr}
    (hscan : Token.scan source = .ok tokens) (hparse : Expr.ofTokens tokens = .ok e)
    (hscan' : Token.scan other = .ok others) (hparse' : Expr.ofTokens others = .ok f)
    (hstring : e.hasString = false) (hstring' : f.hasString = false)
    (hrender : e.render = f.render) : e.onOneLine = f.onOneLine := by
  have he := Expr.plain_of_source hscan hparse hstring
  have hf := Expr.plain_of_source hscan' hparse' hstring'
  have hend : EndsTree [] := by
    rintro _ ⟨⟩
  exact (he.eq_of_append_eq hf hend hend (by rw [hrender])).1

/-- A difference with a sign, on one line and on two. -/
theorem Expr.render_unambiguous_negation :
    let minus (line : Nat) : Token := ⟨.symbol .minus, "-", line⟩
    let operand (line : Nat) : Token := ⟨.keyword .nil_, "nil", line⟩
    let e (line : Nat) : Expr :=
      .binary (.literal .nil) (minus 1) (.unary (minus line) (.literal .nil))
    Token.scan "nil--nil" = .ok ([operand 1, minus 1, minus 1, operand 1] ++ [.endMarker 1]) ∧
      Token.scan "nil-\n-nil" =
        .ok ([operand 1, minus 1, minus 2, operand 2] ++ [.endMarker 2]) ∧
      (e 1).render = (e 2).render ∧ (e 1).onOneLine = (e 2).onOneLine := by
  intro minus operand e
  have hname : ∀ rest, (∀ c ∈ rest.head?, isWordChar c = false) → Cut .word "nil".toList rest :=
    fun rest hrest => .word rfl (List.all_eq_true.1 rfl) hrest
  have hminus : ∀ rest, Cut (.symbol .minus) ['-'] rest := fun rest => .lone rfl
  have hscans : Scans 1 ("nil".toList ++ (['-'] ++ (['-'] ++ ("nil".toList ++ [])))) _ :=
    .piece (hname _ (by rintro _ ⟨⟩; rfl)) rfl (.piece (hminus _) rfl (.piece (hminus _) rfl
      (.piece (hname _ (by rintro _ ⟨⟩)) rfl (.done _))))
  have hscans' :
      Scans 1 ("nil".toList ++ (['-'] ++ (['\n'] ++ (['-'] ++ ("nil".toList ++ []))))) _ :=
    .piece (hname _ (by rintro _ ⟨⟩; rfl)) rfl (.piece (hminus _) rfl (.piece (.blank rfl) rfl
      (.piece (hminus _) rfl (.piece (hname _ (by rintro _ ⟨⟩)) rfl (.done _)))))
  have hscan : Token.scan "nil--nil" = .ok ([operand 1, minus 1, minus 1, operand 1] ++ _) :=
    Token.scan_of_scans (show Scans 1 "nil--nil".toList _ from hscans)
  have hscan' : Token.scan "nil-\n-nil" = .ok ([operand 1, minus 1, minus 2, operand 2] ++ _) :=
    Token.scan_of_scans (show Scans 1 "nil-\n-nil".toList _ from hscans')
  have hderives : ∀ line, (e line).DerivesFrom [operand 1, minus 1, minus line, operand line] := by
    intro line
    have hjoins : (minus 1).Joins .term := ⟨.minus, by decide, rfl⟩
    have hwritten : (e line).WrittenBy ([operand 1] ++ minus 1 :: [minus line, operand line]) :=
      .binary (.literal rfl) (.unary (.literal rfl))
    exact ⟨.binary hjoins (.literal _) trivial (.unary (.inl rfl) (.literal _) trivial) trivial,
      show 1 < maxNesting by decide, hwritten⟩
  refine ⟨hscan, hscan', rfl, ?_⟩
  exact Expr.render_unambiguous hscan ((hderives 1).ofTokens 1) hscan' ((hderives 2).ofTokens 2)
    rfl rfl rfl

end Lox
