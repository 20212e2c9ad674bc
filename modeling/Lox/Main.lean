/-
The command's outer layer: arguments, files, standard input and standard output.

Nothing is decided here. What is to be written is computed first and then written; should that
fail, what holds on a full device is what stands. At a prompt each line is answered as it comes.
-/
import Lox.Command

set_option autoImplicit false

namespace Lox

/-- The reason behind an error of the system. Its number comes with either sign. -/
def ReadFault.ofError (e : IO.Error) : ReadFault :=
  match e with
  | .noFileOrDirectory .. => .notFound
  | .inappropriateType _ code _ =>
    if code = 21 ∨ code = -21 then .isDirectory else .notDirectory
  | .invalidArgument _ code _ =>
    if code = 36 ∨ code = -36 then .nameTooLong else .other (toString e)
  | _ => .other (toString e)

/-- The bytes of the file at a path. -/
def readFile (path : String) : IO (Except ReadFault (List UInt8)) := do
  try
    return .ok (← IO.FS.readBinFile path).toList
  catch e =>
    return .error (.ofError e)

/-- Writes bytes to standard output, and tells whether it took them. -/
def emit (bytes : List UInt8) : IO Bool := do
  try
    let out ← IO.getStdout
    out.write bytes.toByteArray
    out.flush
    return true
  catch _ =>
    return false

/-- Writes what a run left behind and gives its status. -/
def conclude (run : Sink → Outcome) : IO UInt32 := do
  let whole := run .endless
  let o := if ← emit whole.stdout then whole else run .full
  IO.eprint o.stderr
  return o.status.toUInt32

/-- The bytes of the next line with its line feed, `seen` being those already read in reverse. -/
partial def readLine (input : IO.FS.Stream) (seen : List UInt8) : IO (List UInt8) := do
  let chunk ← input.read 1
  match chunk.toList with
  | [] => return seen.reverse
  | b :: _ => if b = 10 then return (b :: seen).reverse else readLine input (b :: seen)

/-- Holds a session at standard input. -/
partial def converse (view : Option View) : IO UInt32 := do
  if !(← emit (Text.utf8 promptMark)) then
    conclude fun _ => runPrompt view .full []
  else
    match ← readLine (← IO.getStdin) [] with
    | [] => return 0
    | line =>
      match Text.ofUtf8? line with
      | none =>
        IO.eprint ("Error: " ++ ReadFault.notText.message ++ "\n")
        return 1
      | some text =>
        let whole := answer view .endless text
        let done := if ← emit whole.bytes then whole else answer view .full text
        IO.eprint done.result.reports
        if done.result.ends then return 101 else converse view

/-- Carries out what the arguments ask for. -/
def carryOut (args : List String) : IO UInt32 := do
  match Invocation.ofArgs args with
  | .prompt view => converse view
  | .script path view =>
    let read ← readFile path
    conclude fun sink => runScript (fun _ => read) sink view path
  | invocation => conclude fun sink => invocation.run (fun _ => .error .notFound) [] sink

end Lox

def main (args : List String) : IO UInt32 := Lox.carryOut args
