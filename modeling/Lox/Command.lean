/-
The command.

Given a script, the command runs it or shows what was asked for, and its exit status tells how that
ended. Without a script it holds a prompt session: it reads its input line by line, answers each
line, and goes on until the input ends; a fault in one line is reported and changes nothing for
the next.

Here a whole run of the command is a function of the files, the input and the sink behind its
output, and of the way in which the arguments are read. Reports go to a second output, which always
takes them.
-/
import Lox.Command.Files
import Lox.Command.Invocation
import Lox.Session
import Lox.Token.Listing

set_option autoImplicit false

namespace Lox

/-- What a run of the command leaves behind: its exit status and what it wrote. -/
structure Outcome where
  status : Nat
  stdout : List UInt8
  stderr : String
  deriving DecidableEq, Repr

namespace Outcome

/-- The outcome with earlier output in front. -/
def after (bytes : List UInt8) (reports : String) (o : Outcome) : Outcome :=
  { o with stdout := bytes ++ o.stdout, stderr := reports ++ o.stderr }

end Outcome

/-! ## Failures of a run -/

/-- The report on a failure, with its line feed. -/
def Failure.report : Failure RunFault → String
  | .fault f => f.render ++ "\n"
  | .breach b => b.message?.getD "" ++ "\n"

/-- The exit status that tells of a failure: whether the source did not compile, an operation
failed, or the output was refused. -/
def Failure.status : Failure RunFault → Nat
  | .fault (.compile _) => 65
  | .fault (.execution (.runtime _)) => 70
  | .fault (.execution (.output _)) => 74
  | .breach _ => 101

/-- The report on output of the command's own that was refused. The command gives up then. -/
def refusedReport (r : Refusal) : String :=
  "failed printing to stdout: " ++ r.message ++ "\n"

/-! ## Views -/

/-- What a view of a source shows. -/
def View.text (view : View) (source : String) : Attempt RunFault String :=
  match view with
  | tokens => (tokensOf source).map Token.listingAll
  | trees => (programOf source).map Program.render

/-! ## A script -/

/-- Runs a source, or shows a view of it. -/
def processScript (sink : Sink) (view : Option View) (source : String) : Outcome :=
  match view with
  | none =>
    let done := runSource sink source
    match done.result with
    | .ok () => ⟨0, done.bytes, ""⟩
    | .error e => ⟨e.status, done.bytes, e.report⟩
  | some view =>
    match view.text source with
    | .error e => ⟨e.status, [], e.report⟩
    | .ok text =>
      let done := sink.writeText text
      match done.result with
      | none => ⟨0, done.bytes, ""⟩
      | some r => ⟨101, done.bytes, refusedReport r⟩

/-- Reads a script and processes it. -/
def runScript (files : Files) (sink : Sink) (view : Option View) (path : String) : Outcome :=
  match files.text path with
  | .ok source => processScript sink view source
  | .error e =>
    ⟨1, [], "Error: Failed to read " ++ path ++ "\n\nCaused by:\n    " ++ e.message ++ "\n"⟩

/-! ## A prompt session -/

/-- What the answer to a line comes to beside its output: reports, and whether the session goes
on. -/
structure Reply where
  reports : String
  ends : Bool
  deriving DecidableEq, Repr

/-- The reply after output of the command's own. -/
def Reply.ofWrite : Option Refusal → Reply
  | none => ⟨"", false⟩
  | some r => ⟨refusedReport r, true⟩

/-- Answers a line: shows the view that was asked for, or runs the line and shows the value of an
expression. -/
def answer (view : Option View) (sink : Sink) (line : String) : Written Reply :=
  match view with
  | some view =>
    match view.text line with
    | .error e => ⟨[], sink, ⟨e.report, false⟩⟩
    | .ok text => (sink.writeText text).map Reply.ofWrite
  | none =>
    (runLine sink line).andThen fun
      | .ok none, sink => ⟨[], sink, ⟨"", false⟩⟩
      | .ok (some value), sink => (sink.writeText (value.text ++ "\n")).map Reply.ofWrite
      | .error e, sink => ⟨[], sink, ⟨e.report, false⟩⟩

/-- The mark that asks for the next line. -/
def promptMark : String := "> "

/-- Holds a session over lines of input. The mark is written before a line is asked for, also
before it turns out that there is none left. A line that is no text ends the session. -/
def runPrompt (view : Option View) (sink : Sink) (lines : List (List UInt8)) : Outcome :=
  let mark := sink.writeText promptMark
  match mark.result with
  | some r => ⟨1, mark.bytes, "Error: " ++ r.message ++ "\n"⟩
  | none =>
    match lines with
    | [] => ⟨0, mark.bytes, ""⟩
    | line :: lines =>
      match Text.ofUtf8? line with
      | none => ⟨1, mark.bytes, "Error: " ++ ReadFault.notText.message ++ "\n"⟩
      | some text =>
        let done := answer view mark.sink text
        let shown := mark.bytes ++ done.bytes
        if done.result.ends then ⟨101, shown, done.result.reports⟩
        else (runPrompt view done.sink lines).after shown done.result.reports

/-! ## The whole command -/

/-- Does what was asked for. A text about the command that nobody takes is no failure. -/
def Invocation.run (files : Files) (input : List UInt8) (sink : Sink) : Invocation → Outcome
  | told text => ⟨0, (sink.writeText text).bytes, ""⟩
  | misused report => ⟨2, [], report⟩
  | script path view => runScript files sink view path
  | prompt view => runPrompt view sink (Text.splitLines input)

/-- Runs the command, with the arguments read in the given way. -/
def runCommandWith (parse : List String → Invocation) (files : Files) (input : List UInt8)
    (sink : Sink) (args : List String) : Outcome :=
  (parse args).run files input sink

/-- Runs the command. -/
def runCommand (files : Files) (input : List UInt8) (sink : Sink) (args : List String) : Outcome :=
  runCommandWith Invocation.ofArgs files input sink args

end Lox
