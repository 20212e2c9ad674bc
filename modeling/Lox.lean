import Lox.Comparison
import Lox.Expr.Postorder
import Lox.Main
import Lox.Proofs.Grammar.Brackets
import Lox.Proofs.Grammar.Earliest
import Lox.Proofs.Grammar.Kinds
import Lox.Proofs.Lexing.Spacing
import Lox.Proofs.Output.Lines
import Lox.Proofs.Output.Sessions
import Lox.Proofs.Evaluation.Postorder
import Lox.Proofs.Grammar.Depth
import Lox.Proofs.Evaluation.Recursion
import Lox.Proofs.Command.Prompt
import Lox.Proofs.Lexing.Stuck
import Lox.Proofs.Grammar.Semicolons
import Lox.Proofs.Grammar.Order
import Lox.Proofs.Evaluation.Lines
import Lox.Proofs.Token.Listing
import Lox.Proofs.Grammar.Rendering
import Lox.Proofs.Evaluation.Numbers
import Lox.Proofs.Cursor.Slices
import Lox.Proofs.Grammar.Limit
import Lox.Proofs.Grammar.Unread
