/-
Quotations can be read back.

A character stands in a quotation in one of three ways (`Stands`): as it is, behind a backslash as a mark
of its own, or as its code point between braces. None of these begins another one: what comes first
tells whether there is a backslash, what comes behind it tells which escape it is, and a code point ends
at the first brace. So from the front of a quotation one character after the other can be read
(`Stands.prefix_free`), up to the quotation mark, with which no character begins. A backslash of the text
is escaped itself, so that no escape can come from two characters of the text.

Which characters are shown as they are plays no part in this, except that quotation marks, backslashes
and line feeds are not among them. So no quotation has a line feed in it.
-/
import Lox.Proofs.Lexing.Munch
import Lox.Text.Quoted

set_option autoImplicit false

namespace Lox.Text

/-! ## Hexadecimal digits -/

theorem digitChar_injective {m n : Nat} (hm : m < 16) (hn : n < 16)
    (h : Nat.digitChar m = Nat.digitChar n) : m = n := by
  have hall : ∀ m < 16, ∀ n < 16, Nat.digitChar m = Nat.digitChar n → m = n := by decide
  exact hall m hm n hn h

/-- Different numbers are written differently. The induction removes the last digit of both. -/
theorem toDigits_sixteen_injective {m n : Nat} (h : Nat.toDigits 16 m = Nat.toDigits 16 n) :
    m = n := by
  induction m using Nat.strongRecOn generalizing n with
  | ind m ih =>
    rw [Nat.toDigits_eq_if (by decide), Nat.toDigits_eq_if (n := n) (by decide)] at h
    by_cases hm : m < 16
    · by_cases hn : n < 16
      · rw [if_pos hm, if_pos hn] at h
        exact digitChar_injective hm hn (List.cons.inj h).1
      · -- the other number has one digit more at least
        rw [if_pos hm, if_neg hn] at h
        rw [← List.nil_append [Nat.digitChar m]] at h
        exact absurd (List.append_inj_left' h rfl).symm Nat.toDigits_ne_nil
    · by_cases hn : n < 16
      · rw [if_neg hm, if_pos hn] at h
        rw [← List.nil_append [Nat.digitChar n]] at h
        exact absurd (List.append_inj_left' h rfl) Nat.toDigits_ne_nil
      · rw [if_neg hm, if_neg hn] at h
        obtain ⟨hfront, hlast⟩ := List.append_inj' h rfl
        have hquotient := ih (m / 16) (by omega) hfront
        have hrest := digitChar_injective (Nat.mod_lt m (by decide)) (Nat.mod_lt n (by decide))
          (List.cons.inj hlast).1
        omega

/-- No digit is a brace or a line feed. -/
theorem mem_toDigits_sixteen {c : Char} {n : Nat} (h : c ∈ Nat.toDigits 16 n) :
    c ≠ '\x7d' ∧ c ≠ '\n' := by
  have hdigit : ∀ m < 16, Nat.digitChar m ≠ '\x7d' ∧ Nat.digitChar m ≠ '\n' := by decide
  induction n using Nat.strongRecOn with
  | ind n ih =>
    rw [Nat.toDigits_eq_if (by decide)] at h
    by_cases hn : n < 16
    · rw [if_pos hn] at h
      rw [List.mem_singleton.1 h]
      exact hdigit n hn
    · rw [if_neg hn] at h
      rcases List.mem_append.1 h with h | h
      · exact ih (n / 16) (by omega) h
      · rw [List.mem_singleton.1 h]
        exact hdigit _ (Nat.mod_lt n (by decide))

/-! ## Characters in a quotation -/

/-- The characters with a mark of their own behind a backslash, and these marks. -/
def marks : List (Char × Char) :=
  [('"', '"'), ('\\', '\\'), ('\n', 'n'), ('\r', 'r'), ('\t', 't'), ('\x00', '0')]

/-- The character stands in a quotation as this text. -/
inductive Stands : Char → List Char → Prop
  | plain {c : Char} : c ≠ '"' → c ≠ '\\' → c ≠ '\n' → Stands c [c]
  | marked {c mark : Char} : (c, mark) ∈ marks → Stands c ['\\', mark]
  | code (c : Char) : Stands c (codePointEscape c)

theorem quotedChar_stands (c : Char) : Stands c (quotedChar c) := by
  unfold quotedChar
  split
  · exact .marked (by decide)
  · exact .marked (by decide)
  · exact .marked (by decide)
  · exact .marked (by decide)
  · exact .marked (by decide)
  · exact .marked (by decide)
  · rename_i hquote hbackslash hfeed _ _ _
    split
    · exact .plain hquote hbackslash hfeed
    · exact .code c

namespace Stands

variable {c d : Char} {text other rest rest' : List Char}

/-- No character begins with the mark that ends a quotation. -/
theorem head_ne (h : Stands c text) : ∃ first more, text = first :: more ∧ first ≠ '"' := by
  cases h with
  | plain hquote _ _ => exact ⟨_, _, rfl, hquote⟩
  | marked _ => exact ⟨_, _, rfl, by decide⟩
  | code => exact ⟨_, _, rfl, by decide⟩

/-- There is no line feed in what a character stands as. -/
theorem lineFeed_not_mem (h : Stands c text) : '\n' ∉ text := by
  cases h with
  | plain _ _ hfeed => simpa using hfeed.symm
  | @marked mark hmem =>
    have hall : ∀ p ∈ marks, '\n' ∉ ['\\', p.2] := by decide
    exact hall _ hmem
  | code =>
    have hdigits : '\n' ∉ Nat.toDigits 16 c.toNat := fun hmem => (mem_toDigits_sixteen hmem).2 rfl
    simp [codePointEscape, hdigits]

theorem marks_injective {mark : Char} (hc : (c, mark) ∈ marks) (hd : (d, mark) ∈ marks) : c = d := by
  have hall : ∀ p ∈ marks, ∀ q ∈ marks, p.2 = q.2 → p.1 = q.1 := by decide
  exact hall _ hc _ hd rfl

theorem mark_ne_code {mark : Char} (hc : (c, mark) ∈ marks) : mark ≠ 'u' := by
  have hall : ∀ p ∈ marks, p.2 ≠ 'u' := by decide
  exact hall _ hc

/-- A code point ends at its closing brace. -/
theorem codePointEscape_prefix_free (h : codePointEscape c ++ rest = codePointEscape d ++ rest') :
    c = d ∧ rest = rest' := by
  have hdigits : Nat.toDigits 16 c.toNat ++ '\x7d' :: rest =
      Nat.toDigits 16 d.toNat ++ '\x7d' :: rest' := by
    simpa [codePointEscape] using h
  have hbrace : ∀ {behind : List Char}, ∀ x ∈ ('\x7d' :: behind).head?, ¬ x ≠ '\x7d' := by
    rintro _ _ ⟨⟩ hne
    exact hne rfl
  obtain ⟨hcode, hbehind⟩ := run_eq (fun x hx => (mem_toDigits_sixteen hx).1)
    (fun x hx => (mem_toDigits_sixteen hx).1) hbrace hbrace hdigits
  exact ⟨Char.toNat_inj.1 (toDigits_sixteen_injective hcode), (List.cons.inj hbehind).2⟩

/-- **One character can be read off the front.** What two characters stand as, each with something
behind it, is different unless they are the same character with the same behind it. -/
theorem prefix_free (h : Stands c text) (h' : Stands d other) (heq : text ++ rest = other ++ rest') :
    c = d ∧ rest = rest' := by
  cases h with
  | plain _ hbackslash _ =>
    cases h' with
    | plain _ _ _ => exact List.cons.inj heq
    | marked _ => exact absurd (List.cons.inj heq).1 hbackslash
    | code => exact absurd (List.cons.inj heq).1 hbackslash
  | marked hc =>
    cases h' with
    | plain _ hbackslash _ => exact absurd (List.cons.inj heq).1.symm hbackslash
    | marked hd =>
      obtain ⟨rfl, hrest⟩ := List.cons.inj (List.cons.inj heq).2
      exact ⟨marks_injective hc hd, hrest⟩
    | code => exact absurd (List.cons.inj (List.cons.inj heq).2).1 (mark_ne_code hc)
  | code =>
    cases h' with
    | plain _ hbackslash _ => exact absurd (List.cons.inj heq).1.symm hbackslash
    | marked hd => exact absurd (List.cons.inj (List.cons.inj heq).2).1.symm (mark_ne_code hd)
    | code => exact codePointEscape_prefix_free heq

end Stands

/-! ## Quotations -/

/-- Characters in front of a quotation mark can be read off the text that they stand as. -/
theorem flatMap_quotedChar_injective {chars others rest rest' : List Char}
    (h : chars.flatMap quotedChar ++ '"' :: rest = others.flatMap quotedChar ++ '"' :: rest') :
    chars = others ∧ rest = rest' := by
  induction chars generalizing others with
  | nil =>
    cases others with
    | nil => exact ⟨rfl, (List.cons.inj h).2⟩
    | cons d others =>
      obtain ⟨first, more, hd, hne⟩ := (quotedChar_stands d).head_ne
      rw [List.flatMap_cons, hd] at h
      exact absurd (List.cons.inj h).1.symm hne
  | cons c chars ih =>
    rw [List.flatMap_cons, List.append_assoc] at h
    cases others with
    | nil =>
      obtain ⟨first, more, hc, hne⟩ := (quotedChar_stands c).head_ne
      rw [hc] at h
      exact absurd (List.cons.inj h).1 hne
    | cons d others =>
      rw [List.flatMap_cons, List.append_assoc] at h
      obtain ⟨rfl, hmore⟩ := (quotedChar_stands c).prefix_free (quotedChar_stands d) h
      obtain ⟨rfl, hrest⟩ := ih hmore
      exact ⟨rfl, hrest⟩

/-- Different texts have different quotations. -/
theorem quoted_injective {text other : String} (h : quoted text = quoted other) : text = other := by
  have hlist := congrArg String.toList h
  simp only [quoted, String.toList_ofList] at hlist
  exact String.toList_inj.1 (flatMap_quotedChar_injective (List.cons.inj hlist).2).1

/-- A quotation is on one line, whatever its text is. -/
theorem lineFeed_not_mem_quoted (text : String) : '\n' ∉ (quoted text).toList := by
  rw [quoted, String.toList_ofList]
  intro hmem
  rcases List.mem_append.1 hmem with hmem | hmem
  · rcases List.mem_cons.1 hmem with hquote | hmem
    · cases hquote
    · obtain ⟨c, -, hc⟩ := List.mem_flatMap.1 hmem
      exact (quotedChar_stands c).lineFeed_not_mem hc
  · cases List.mem_singleton.1 hmem

end Lox.Text
