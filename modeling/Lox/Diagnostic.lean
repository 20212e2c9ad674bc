/-
Diagnostics: what a reader of a source is told about a fault in it.

A diagnostic names a line, shows the offending piece of text (or says that it is the end of the
text) and says what is wrong. Its written form takes three lines, and several diagnostics are
written one below the other.
-/

set_option autoImplicit false

namespace Lox

/-- A fault at a line of a source. The location is the offending text, or `at end`. -/
structure Diagnostic where
  line : Nat
  location : String
  message : String
  deriving DecidableEq, Repr

namespace Diagnostic

/-- The written form that all faults share. -/
def layout (message : String) (line : Nat) (location : String) : String :=
  "Error: " ++ message ++ "\n\n\t" ++ toString line ++ " | " ++ location

/-- The written form of a diagnostic. -/
def render (d : Diagnostic) : String :=
  layout d.message d.line d.location

/-- The written form of several diagnostics. -/
def renderAll (ds : List Diagnostic) : String :=
  "\n".intercalate (ds.map render)

end Diagnostic

end Lox
