/-
Token lists with an end marker.

A list that is handed to a reader of trees ends with an end marker. There may be others before it;
the first one is where the reading stops, and it is the one that lends its line to a fault at the
end. So every such list is a body of tokens that are no end markers, the marker, and a tail that
nobody looks at, and `TokenSequence.ofTokens` keeps the first two of these.
-/
import Lox.Token.Sequence

set_option autoImplicit false

namespace Lox

/-- The last token is an end marker. -/
def Terminated (tokens : List Token) : Prop :=
  ∃ marker ∈ tokens.getLast?, marker.isEnding = true

/-- The tokens in front of the first end marker. -/
def untilMarker (tokens : List Token) : List Token :=
  tokens.takeWhile (!·.isEnding)

/-- A terminated list is a body, the first end marker, and a tail. -/
theorem Terminated.split {tokens : List Token} (h : Terminated tokens) :
    ∃ body marker tail, tokens = body ++ marker :: tail ∧ (∀ t ∈ body, t.isEnding = false) ∧
      marker.isEnding = true ∧ Terminated (marker :: tail) := by
  obtain ⟨last, hlast, hending⟩ := h
  induction tokens with
  | nil => simp at hlast
  | cons t rest ih =>
    -- either the first marker is here, or it is in the rest, which ends with one too
    by_cases ht : t.isEnding = true
    · exact ⟨[], t, rest, rfl, by simp, ht, last, hlast, hending⟩
    · have hrest : last ∈ rest.getLast? := by
        cases rest with
        | nil =>
          obtain rfl : t = last := by simpa using hlast
          exact absurd hending ht
        | cons u more => simpa [List.getLast?_cons_cons] using hlast
      obtain ⟨body, marker, tail, rfl, hbody, hmarker, htail⟩ := ih hrest
      refine ⟨t :: body, marker, tail, rfl, ?_, hmarker, htail⟩
      intro u hu
      rcases List.mem_cons.1 hu with rfl | hu
      · simpa using ht
      · exact hbody u hu

section Split

variable {body tail : List Token} {marker : Token}

/-- What stands in front of a terminated list leaves it terminated. -/
theorem Terminated.append (front : List Token) {tokens : List Token} (h : Terminated tokens) :
    Terminated (front ++ tokens) := by
  obtain ⟨last, hlast, hending⟩ := h
  refine ⟨last, ?_, hending⟩
  rw [List.getLast?_append, hlast]
  rfl

theorem untilMarker_append (hbody : ∀ t ∈ body, t.isEnding = false)
    (hmarker : marker.isEnding = true) : untilMarker (body ++ marker :: tail) = body := by
  rw [untilMarker, List.takeWhile_append_of_pos (by simpa using hbody), List.takeWhile_cons]
  simp [hmarker]

/-- The sequence of a terminated list is its body and its first end marker. -/
theorem TokenSequence.ofTokens_append {ε : Type} (hbody : ∀ t ∈ body, t.isEnding = false)
    (hmarker : marker.isEnding = true) (hlast : Terminated (marker :: tail)) :
    (TokenSequence.ofTokens (body ++ marker :: tail) : Attempt ε TokenSequence) =
      .ok ⟨body, marker, hbody, hmarker⟩ := by
  -- the marker is found where the body ends, and the check looks at the last token
  have hdrop : (body ++ marker :: tail).dropWhile (!·.isEnding) = marker :: tail := by
    rw [List.dropWhile_append_of_pos (by simpa using hbody), List.dropWhile_cons]
    simp [hmarker]
  have hlast' : (body ++ marker :: tail).getLast?.any Token.isEnding = true := by
    obtain ⟨last, hmem, hending⟩ := hlast.append body
    rw [hmem]
    exact hending
  have hbody' : untilMarker (body ++ marker :: tail) = body := untilMarker_append hbody hmarker
  rw [untilMarker] at hbody'
  rw [TokenSequence.ofTokens]
  split
  · rename_i hnil
    simp [hdrop] at hnil
  · rename_i found rest hfound
    obtain ⟨rfl, rfl⟩ : marker = found ∧ tail = rest := by simpa [hdrop] using hfound
    rw [if_pos hlast']
    simp only [hbody']
    rfl

end Split

/-- Nothing but a terminated list has a sequence. -/
theorem Terminated.of_sequence {ε : Type} {tokens : List Token} {sequence : TokenSequence}
    (h : (TokenSequence.ofTokens tokens : Attempt ε TokenSequence) = .ok sequence) :
    Terminated tokens := by
  unfold TokenSequence.ofTokens at h
  split at h
  · cases h
  · split at h
    · rename_i hlast
      obtain ⟨last, hmem, hending⟩ := (Option.any_eq_true _ _).1 hlast
      exact ⟨last, hmem, hending⟩
    · cases h

end Lox
