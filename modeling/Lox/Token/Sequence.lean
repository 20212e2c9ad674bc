/-
Token sequences ready to be parsed.

What is parsed is a list of tokens up to its first end marker. The marker itself is kept apart: no
rule of the grammar uses it up, it only lends its line to a fault found at the end. Whatever
stands behind the first end marker plays no part.
-/
import Lox.Failure
import Lox.Token

set_option autoImplicit false

namespace Lox

/-- Tokens and the end marker behind them. -/
structure TokenSequence where
  body : List Token
  marker : Token
  body_open : ∀ t ∈ body, t.isEnding = false
  marker_ends : marker.isEnding = true

namespace TokenSequence

/-- The tokens up to the first end marker, with that marker. A list that does not end with an end
marker was never meant to be parsed. -/
def ofTokens {ε : Type} (tokens : List Token) : Attempt ε TokenSequence :=
  match h : tokens.dropWhile (!·.isEnding) with
  | [] => throw (.breach .unended)
  | marker :: _ =>
    if tokens.getLast?.any Token.isEnding then
      return {
        body := tokens.takeWhile (!·.isEnding)
        marker := marker
        body_open := fun t ht => by
          have := List.all_eq_true.1 (List.all_takeWhile (p := (!·.isEnding)) (l := tokens)) t ht
          simpa using this
        marker_ends := by
          have := List.head?_dropWhile_not (!·.isEnding) tokens
          simpa [h] using this }
    else throw (.breach .unended)

end TokenSequence

end Lox
