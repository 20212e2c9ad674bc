/-
Bytes that are texts, and lines of bytes.

A text and its bytes determine each other, and where no text has some bytes there is nothing to
read in them. The lines of some bytes are said without the cut: every line but the last one ends
with the only line feed in it, the last one may have none, and none of them is empty.
-/
import Lox.Text.Bytes

set_option autoImplicit false

namespace Lox.Text

/-! ## Texts -/

theorem toByteArray_utf8 (text : String) : (utf8 text).toByteArray = text.toByteArray := by
  rw [utf8, ← List.utf8Encode, ← String.toByteArray_ofList, String.ofList_toList]

/-- Different texts have different bytes. -/
theorem utf8_injective {text other : String} (h : utf8 text = utf8 other) : text = other := by
  have hbytes := congrArg List.toByteArray h
  rwa [toByteArray_utf8, toByteArray_utf8, String.toByteArray_inj] at hbytes

/-- Bytes are read as the text whose bytes they are, and as no other. -/
theorem ofUtf8?_eq_some_iff {bytes : List UInt8} {text : String} :
    ofUtf8? bytes = some text ↔ bytes = utf8 text := by
  unfold ofUtf8? String.fromUTF8?
  by_cases hvalid : bytes.toByteArray.IsValidUTF8
  · rw [dif_pos hvalid, Option.some.injEq, ← String.toByteArray_inj, ← List.toByteArray_inj,
      toByteArray_utf8]
    rfl
  · rw [dif_neg hvalid]
    refine iff_of_false (by simp) ?_
    rintro rfl
    rw [toByteArray_utf8] at hvalid
    exact hvalid text.isValidUTF8

@[simp] theorem ofUtf8?_utf8 (text : String) : ofUtf8? (utf8 text) = some text :=
  ofUtf8?_eq_some_iff.2 rfl

/-- Bytes in which nothing can be read are the bytes of no text. -/
theorem ofUtf8?_eq_none_iff {bytes : List UInt8} :
    ofUtf8? bytes = none ↔ ∀ text, bytes ≠ utf8 text := by
  rw [Option.eq_none_iff_forall_ne_some]
  simp only [ne_eq, ofUtf8?_eq_some_iff]

@[simp] theorem utf8_append (front back : String) :
    utf8 (front ++ back) = utf8 front ++ utf8 back := by
  rw [utf8, String.toList_append, List.flatMap_append, utf8, utf8]

@[simp] theorem utf8_join (texts : List String) :
    utf8 (String.join texts) = texts.flatMap utf8 := by
  induction texts with
  | nil => rfl
  | cons text texts ih => rw [String.join_cons, utf8_append, ih, List.flatMap_cons]

/-- Only a line feed has the byte of a line feed in it: all bytes of a character that has more than one
are greater. -/
theorem lineFeed_mem_utf8EncodeChar {c : Char} (h : 10 ∈ String.utf8EncodeChar c) : c = '\n' := by
  have hbyte : ∀ n : Nat, (10 : UInt8) = UInt8.ofNat n → n % 256 = 10 := by
    intro n hn
    have hnat := congrArg UInt8.toNat hn
    rw [UInt8.toNat_ofNat'] at hnat
    exact hnat.symm
  apply Char.toNat_inj.1
  change c.val.toNat = 10
  unfold String.utf8EncodeChar at h
  simp only at h
  split at h
  · have := hbyte _ (List.mem_singleton.1 h)
    omega
  · split at h
    · simp only [List.mem_cons, List.not_mem_nil, or_false] at h
      rcases h with h | h <;> have := hbyte _ h <;> omega
    · split at h
      · simp only [List.mem_cons, List.not_mem_nil, or_false] at h
        rcases h with h | h | h <;> have := hbyte _ h <;> omega
      · simp only [List.mem_cons, List.not_mem_nil, or_false] at h
        rcases h with h | h | h | h <;> have := hbyte _ h <;> omega

theorem lineFeed_not_mem_utf8 {text : String} (h : '\n' ∉ text.toList) : 10 ∉ utf8 text := by
  intro hmem
  obtain ⟨c, hc, hbyte⟩ := List.mem_flatMap.1 hmem
  rw [lineFeed_mem_utf8EncodeChar hbyte] at hc
  exact h hc

/-! ## Lines -/

/-- The bytes are these lines, one behind the other. -/
inductive CutInLines : List UInt8 → List (List UInt8) → Prop
  | nil : CutInLines [] []
  /-- What follows the last line feed, unless it is nothing. -/
  | last {line : List UInt8} : line ≠ [] → 10 ∉ line → CutInLines line [line]
  /-- A line with its line feed. -/
  | line {front back : List UInt8} {lines : List (List UInt8)} :
      10 ∉ front → CutInLines back lines →
      CutInLines (front ++ 10 :: back) ((front ++ [10]) :: lines)

namespace CutInLines

variable {bytes : List UInt8} {lines : List (List UInt8)}

/-- A byte in front of the first line feed belongs to the first line. -/
theorem cons {line : List UInt8} {b : UInt8} (hb : b ≠ 10) (h : CutInLines bytes (line :: lines)) :
    CutInLines (b :: bytes) ((b :: line) :: lines) := by
  have hmem : ∀ front : List UInt8, 10 ∉ front → 10 ∉ b :: front := by
    intro front hfront
    rw [List.mem_cons, not_or]
    exact ⟨Ne.symm hb, hfront⟩
  cases h with
  | last _ hline => exact last (List.cons_ne_nil _ _) (hmem _ hline)
  | line hfront hback => exact line (hmem _ hfront) hback

theorem nil_iff : CutInLines bytes [] ↔ bytes = [] := by
  constructor
  · rintro ⟨⟩
    rfl
  · rintro rfl
    exact nil

/-- Bytes that end in a line feed may be cut behind it. -/
theorem append {back : List UInt8} {others : List (List UInt8)} (h : CutInLines bytes lines)
    (hends : ∀ line ∈ lines, 10 ∈ line) (hback : CutInLines back others) :
    CutInLines (bytes ++ back) (lines ++ others) := by
  induction h with
  | nil => exact hback
  | last _ hline => exact absurd (hends _ (List.mem_singleton_self _)) hline
  | line hfront _ ih =>
    rw [List.append_assoc, List.cons_append, List.cons_append]
    exact line hfront (ih fun l hl => hends l (List.mem_cons_of_mem _ hl))

end CutInLines

theorem splitLines_of_not_mem {line : List UInt8} (hne : line ≠ []) (hline : 10 ∉ line) :
    splitLines line = [line] := by
  induction line with
  | nil => exact absurd rfl hne
  | cons b line ih =>
    rw [List.mem_cons, not_or] at hline
    obtain ⟨hb, hline⟩ := hline
    rw [splitLines, if_neg (Ne.symm hb)]
    by_cases hnil : line = []
    · rw [hnil, splitLines]
    · rw [ih hnil hline]

theorem splitLines_append {front : List UInt8} (hfront : 10 ∉ front) (back : List UInt8) :
    splitLines (front ++ 10 :: back) = (front ++ [10]) :: splitLines back := by
  induction front with
  | nil => rw [List.nil_append, splitLines, if_pos rfl, List.nil_append]
  | cons b front ih =>
    rw [List.mem_cons, not_or] at hfront
    obtain ⟨hb, hfront⟩ := hfront
    rw [List.cons_append, splitLines, if_neg (Ne.symm hb), ih hfront, List.cons_append]

/-- The cut finds the lines, and there is no other way to cut. -/
theorem splitLines_eq_iff {bytes : List UInt8} {lines : List (List UInt8)} :
    splitLines bytes = lines ↔ CutInLines bytes lines := by
  constructor
  · rintro rfl
    induction bytes with
    | nil => exact .nil
    | cons b bytes ih =>
      unfold splitLines
      by_cases hb : b = 10
      · rw [if_pos hb, hb]
        exact .line (List.not_mem_nil) ih
      · rw [if_neg hb]
        split
        · next hnone =>
          rw [hnone, CutInLines.nil_iff] at ih
          rw [ih]
          exact .last (List.cons_ne_nil _ _) (by simpa using Ne.symm hb)
        · next line lines hlines =>
          rw [hlines] at ih
          exact ih.cons hb
  · intro h
    induction h with
    | nil => rfl
    | last hne hline => exact splitLines_of_not_mem hne hline
    | line hfront _ ih => rw [splitLines_append hfront, ih]

end Lox.Text
