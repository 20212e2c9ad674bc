/-
Numbers that are printed can be typed in again.

The text of a finite number is digits with at most one point between them, perhaps with a sign in front.
Digits by themselves are one piece, as nothing behind them could go on with it; and a sign is a piece of
its own whatever follows. So the text scans to one token or two, and as an expression it is a literal,
or its negation. Reading the digits and negating what was read puts the number together again, bit for
bit, also a zero with a sign.

The words for what is not finite scan too, but there is an identifier in each of them, and no expression
has one.
-/
import Lox.Expr.Evaluation
import Lox.Proofs.Grammar.Expressions
import Lox.Proofs.Lexing.Occurrences
import Lox.Proofs.Lexing.Stuck
import Lox.Proofs.Number.Doubles

set_option autoImplicit false

namespace Lox

/-! ## Sources of one piece -/

/-- A text of the grammar by itself is cut off as the piece that it is. -/
theorem Piece.Spelled.cut_alone {piece : Piece} {text : List Char} (h : piece.Spelled text) :
    Cut piece text [] ∧ ∀ first last, piece.fault? first last text = none := by
  refine Piece.Longest.cut ⟨h, fun other front _ hbegins => ?_⟩
  rw [List.append_nil] at hbegins
  exact hbegins.length_le

/-- A text of the grammar that is no gap has its own token, if nothing is behind it. -/
theorem Piece.Spelled.scans_alone {piece : Piece} {text : List Char} (h : piece.Spelled text)
    {m : Meaning} (hm : piece.meaning? text = some m) (line : Nat) :
    Scans line text (.ok [⟨m, String.ofList text, line + text.count '\n'⟩,
      .endMarker (line + text.count '\n')]) := by
  obtain ⟨hcut, hfault⟩ := h.cut_alone
  have hscans := Scans.piece hcut (hfault line _) (.done _)
  rw [List.append_nil] at hscans
  simp only [Piece.tokens, hm, Except.map] at hscans
  exact hscans

/-- A sign is a token of its own, whatever follows it. -/
theorem Scans.behind_sign {line : Nat} {c : Char} {s : Symbol} {rest : List Char}
    {tokens : List Token} (hc : Symbol.ofChar? c = some s) (hfeed : c ≠ '\n')
    (hscans : Scans line rest (.ok tokens)) :
    Scans line (c :: rest) (.ok (⟨.symbol s, String.ofList [c], line⟩ :: tokens)) := by
  have hnone : line + [c].count '\n' = line := by
    rw [List.count_eq_zero.2 (by simpa using hfeed.symm), Nat.add_zero]
  have hcut : Cut (.symbol s) [c] rest := .lone hc
  have hbehind : Scans (line + [c].count '\n') rest (.ok tokens) := by
    rw [hnone]
    exact hscans
  have hpiece := Scans.piece hcut rfl hbehind
  rw [hnone] at hpiece
  exact hpiece

/-! ## Digits -/

namespace Number.Positional

variable {text : List Char} {num den : Nat}

theorem spelled (h : Positional text num den) : Piece.number.Spelled text := by
  cases h with
  | whole hne hdigits => exact .whole hne hdigits
  | decimal hne hdigits hplaces hall => exact .decimal hne hdigits hplaces hall

/-- Digits are one token. -/
theorem scans (h : Positional text num den) :
    Scans 1 text (.ok [⟨.number (ofDigits text), String.ofList text, 1⟩, .endMarker 1]) := by
  have hfeed : text.count '\n' = 0 :=
    List.count_eq_zero.2 (h.spelled.not_mem_lineFeed Piece.noConfusion Piece.noConfusion)
  have hmeaning : Piece.number.meaning? text = some (.number (ofDigits text)) := rfl
  have hscans := h.spelled.scans_alone hmeaning 1
  rw [hfeed] at hscans
  exact hscans

end Number.Positional

/-! ## Trees without identifiers -/

/-- No tree has an identifier among its tokens. -/
theorem Expr.WrittenBy.kind_ne_identifier {e : Expr} {tokens : List Token} (h : e.WrittenBy tokens)
    (hcanonical : e.Canonical) : ∀ t ∈ tokens, t.kind ≠ .identifier := by
  induction h with
  | @literal value u hmeaning =>
    intro t ht
    rw [List.mem_singleton.1 ht, Token.kind, hmeaning]
    rcases value with _ | _ | (_ | _) | _ <;> exact Kind.noConfusion
  | @group inner first last body hfirst _ hlast ih =>
    cases hcanonical with
    | group hinner =>
      intro t ht
      rcases List.mem_cons.1 ht with rfl | ht
      · rw [Token.kind, hfirst]
        exact Kind.noConfusion
      rcases List.mem_append.1 ht with ht | ht
      · exact ih hinner t ht
      · rw [List.mem_singleton.1 ht, Token.kind, hlast]
        exact Kind.noConfusion
  | @unary operator operand body _ ih =>
    cases hcanonical with
    | unary hnegates hoperand _ =>
      intro t ht
      rcases List.mem_cons.1 ht with rfl | ht
      · rcases hnegates with hsign | hsign <;> rw [Token.kind, hsign] <;> exact Kind.noConfusion
      · exact ih hoperand t ht
  | @binary left right operator front back _ _ ihleft ihright =>
    cases hcanonical with
    | binary hjoins hleft _ hright _ =>
      intro t ht
      rcases List.mem_append.1 ht with ht | ht
      · exact ihleft hleft t ht
      rcases List.mem_cons.1 ht with rfl | ht
      · obtain ⟨s, -, hmeaning⟩ := hjoins
        rw [Token.kind, hmeaning]
        exact Kind.noConfusion
      · exact ihright hright t ht

/-- Tokens with an identifier among them are no expression. -/
theorem Expr.ofTokens_identifier {body : List Token} {t : Token}
    (hbody : ∀ u ∈ body, u.isEnding = false) (ht : t ∈ body) (hkind : t.kind = .identifier)
    (line : Nat) : ∃ d, Expr.ofTokens (body ++ [.endMarker line]) = .error (.fault d) := by
  rw [Expr.ofTokens_append hbody rfl ⟨_, rfl, rfl⟩]
  cases hread : Expr.readAll body with
  | ok e =>
    have hderives := (Expr.readAll_eq_ok_iff body e).1 hread
    exact absurd hkind (hderives.written.kind_ne_identifier hderives.canonical t ht)
  | error m => exact ⟨_, rfl⟩

/-! ## Numbers that are read back -/

section Finite

variable {text : List Char} {num den : Nat} (h : Number.Positional text num den)
include h

/-- Digits are read as a number. -/
theorem Number.Positional.reads_back :
    let digits : Token := ⟨.number (ofDigits text), String.ofList text, 1⟩
    Token.scan (String.ofList text) = .ok [digits, .endMarker 1] ∧
      Expr.ofTokens [digits, .endMarker 1] = .ok (.literal (.number (ofDigits text))) := by
  intro digits
  have hscans : Scans 1 (String.ofList text).toList (.ok [digits, .endMarker 1]) := by
    rw [String.toList_ofList]
    exact h.scans
  have hderives : Expr.DerivesFrom (.literal (.number (ofDigits text))) [digits] :=
    ⟨.literal _, Nat.zero_lt_succ _, .literal rfl⟩
  exact ⟨Token.scan_of_scans hscans, hderives.ofTokens 1⟩

/-- Digits behind a sign are read as the negation of a number. -/
theorem Number.Positional.negation_reads_back :
    let sign : Token := ⟨.symbol .minus, "-", 1⟩
    let digits : Token := ⟨.number (ofDigits text), String.ofList text, 1⟩
    Token.scan (String.ofList ('-' :: text)) = .ok [sign, digits, .endMarker 1] ∧
      Expr.ofTokens [sign, digits, .endMarker 1] =
        .ok (.unary sign (.literal (.number (ofDigits text)))) := by
  intro sign digits
  have hscans : Scans 1 (String.ofList ('-' :: text)).toList (.ok [sign, digits, .endMarker 1]) := by
    rw [String.toList_ofList]
    exact Scans.behind_sign rfl (by decide) h.scans
  have hderives : Expr.DerivesFrom (.unary sign (.literal (.number (ofDigits text))))
      [sign, digits] :=
    ⟨.unary (.inl rfl) (.literal _) trivial, Nat.succ_lt_succ (Nat.zero_lt_succ _),
      .unary (.literal rfl)⟩
  exact ⟨Token.scan_of_scans hscans, hderives.ofTokens 1⟩

end Finite

/-- The words for what is not finite scan to tokens that are no expression. -/
theorem Token.scan_notFinite {word : String} (hword : word ∈ ["+Inf", "-Inf", "NaN"]) :
    ∃ tokens d, Token.scan word = .ok tokens ∧ Expr.ofTokens tokens = .error (.fault d) := by
  -- behind the sign, if there is one, stands an identifier
  have hinfSpelled : Piece.word.Spelled ('I' :: "nf".toList) :=
    .word (.inl rfl) fun x hx => isWordChar_iff.1 (List.all_eq_true.1 rfl x hx)
  have hnanSpelled : Piece.word.Spelled ('N' :: "aN".toList) :=
    .word (.inl rfl) fun x hx => isWordChar_iff.1 (List.all_eq_true.1 rfl x hx)
  have hinf : Scans 1 "Inf".toList (.ok [⟨.identifier "Inf", "Inf", 1⟩, .endMarker 1]) :=
    hinfSpelled.scans_alone rfl 1
  have hnan : Scans 1 "NaN".toList (.ok [⟨.identifier "NaN", "NaN", 1⟩, .endMarker 1]) :=
    hnanSpelled.scans_alone rfl 1
  have hplus : Scans 1 "+Inf".toList _ := Scans.behind_sign (s := .plus) rfl (by decide) hinf
  have hminus : Scans 1 "-Inf".toList _ := Scans.behind_sign (s := .minus) rfl (by decide) hinf
  have hrefused : ∀ (sign : List Token) (name : Token), (∀ u ∈ sign, u.isEnding = false) →
      name.kind = .identifier → Token.scan word = .ok (sign ++ [name] ++ [.endMarker 1]) →
      ∃ tokens d, Token.scan word = .ok tokens ∧ Expr.ofTokens tokens = .error (.fault d) := by
    intro sign name hsign hname hscan
    have hopen : ∀ u ∈ sign ++ [name], u.isEnding = false := by
      intro u hu
      rcases List.mem_append.1 hu with hu | hu
      · exact hsign u hu
      · rw [List.mem_singleton.1 hu, Token.isEnding, hname]
        rfl
    obtain ⟨d, hd⟩ := Expr.ofTokens_identifier hopen (List.mem_append_right _ (by simp)) hname 1
    exact ⟨_, d, hscan, hd⟩
  simp only [List.mem_cons, List.not_mem_nil, or_false] at hword
  rcases hword with rfl | rfl | rfl
  · exact hrefused [⟨.symbol .plus, "+", 1⟩] ⟨.identifier "Inf", "Inf", 1⟩ (by decide) rfl
      (Token.scan_of_scans hplus)
  · exact hrefused [⟨.symbol .minus, "-", 1⟩] ⟨.identifier "Inf", "Inf", 1⟩ (by decide) rfl
      (Token.scan_of_scans hminus)
  · exact hrefused [] ⟨.identifier "NaN", "NaN", 1⟩ (by simp) rfl (Token.scan_of_scans hnan)

/-- **Printed numbers read back.** The text of a finite number scans to one number token, behind a
minus token if the sign bit is set, and what they are read as comes to the very number. The text of any
other number scans to tokens that are no expression. -/
theorem Value.text_reads_back (x : Float) :
    (x.isFinite = true → ∃ digits e, digits.kind = .number ∧
      let body : List Token :=
        if Number.Negative x then [⟨.symbol .minus, "-", 1⟩, digits] else [digits]
      Token.scan (Value.number x).text = .ok (body ++ [.endMarker 1]) ∧
        Expr.ofTokens (body ++ [.endMarker 1]) = .ok e ∧ e.eval = .ok (.number x)) ∧
    (x.isFinite = false → (Value.number x).text ∈ ["+Inf", "-Inf", "NaN"] ∧
      ∃ tokens d, Token.scan (Value.number x).text = .ok tokens ∧
        Expr.ofTokens tokens = .error (.fault d)) := by
  refine ⟨fun hfinite => ?_, fun hfinite => ?_⟩
  · obtain ⟨text, num, den, htext, hrender⟩ :=
      Number.render_finite hfinite ⟨"+Inf", "-Inf", "NaN"⟩
    have hshown : (Value.number x).text = Number.render ⟨"+Inf", "-Inf", "NaN"⟩ x := rfl
    refine ⟨⟨.number (Number.ofDigits text), String.ofList text, 1⟩, ?_⟩
    by_cases hnegative : Number.Negative x
    · rw [if_pos hnegative] at hrender
      obtain ⟨hscan, hparsed⟩ := htext.negation_reads_back
      refine ⟨.unary ⟨.symbol .minus, "-", 1⟩ (.literal (.number (Number.ofDigits text))), rfl, ?_⟩
      rw [if_pos hnegative, hshown, hrender.1]
      refine ⟨hscan, hparsed, ?_⟩
      exact congrArg (fun y => Except.ok (Value.number y)) hrender.2
    · rw [if_neg hnegative] at hrender
      obtain ⟨hscan, hparsed⟩ := htext.reads_back
      refine ⟨.literal (.number (Number.ofDigits text)), rfl, ?_⟩
      rw [if_neg hnegative, hshown, hrender.1]
      refine ⟨hscan, hparsed, ?_⟩
      exact congrArg (fun y => Except.ok (Value.number y)) hrender.2
  · have hword : (Value.number x).text ∈ ["+Inf", "-Inf", "NaN"] :=
      Number.render_not_finite hfinite _
    exact ⟨hword, Token.scan_notFinite hword⟩

/-- Negative zero, the one zero with a sign, and infinity, which is refused. -/
theorem Value.text_reads_back_negativeZero :
    let zero : Float := Float.ofBits 0x8000000000000000
    let infinity : Float := Float.ofBits 0x7ff0000000000000
    zero.isFinite = true ∧ infinity.isFinite = false ∧
      (∃ digits e, digits.kind = .number ∧
        Token.scan (Value.number zero).text =
          .ok [⟨.symbol .minus, "-", 1⟩, digits, .endMarker 1] ∧
        Expr.ofTokens [⟨.symbol .minus, "-", 1⟩, digits, .endMarker 1] = .ok e ∧
        e.eval = .ok (.number zero)) ∧
      ∃ tokens d, Token.scan (Value.number infinity).text = .ok tokens ∧
        Expr.ofTokens tokens = .error (.fault d) := by
  intro zero infinity
  have hfinite : zero.isFinite = true := by decide
  have hinfinite : infinity.isFinite = false := by decide
  have hnegative : Number.Negative zero := by decide
  obtain ⟨digits, e, hkind, hread⟩ := (Value.text_reads_back zero).1 hfinite
  simp only [if_pos hnegative] at hread
  exact ⟨hfinite, hinfinite, ⟨digits, e, hkind, hread⟩,
    ((Value.text_reads_back infinity).2 hinfinite).2⟩

end Lox
