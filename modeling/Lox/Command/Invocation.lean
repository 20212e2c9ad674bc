/-
What the command is asked to do.

The arguments name at most one script, and may ask for a view of the source instead of running it;
the order does not matter. Behind `--` every argument is a script's path, also one that looks like
an option. Asking for the version or for help ends the matter as soon as it is met.

The command does not read its arguments itself. It is handed an `Invocation`, whichever way that was
come to; `Invocation.ofArgs` is the way of the executable.
-/

set_option autoImplicit false

namespace Lox

/-- What of a source is shown instead of running it. -/
inductive View
  | tokens
  | trees
  deriving DecidableEq, Repr

/-- The view with this name. -/
def View.ofName? : String → Option View
  | "tokens" => some .tokens
  | "ast" => some .trees
  | _ => none

/-- What the arguments ask for. -/
inductive Invocation
  /-- A text about the command itself. -/
  | told (text : String)
  | script (path : String) (view : Option View)
  | prompt (view : Option View)
  /-- Nothing that the command can do, and what is reported on it. -/
  | misused (report : String)
  deriving DecidableEq, Repr

namespace Invocation

/-- The version as the command tells it. -/
def versionText : String := "lox 0.1.0\n"

/-- How the command is used. -/
def usageText : String := "usage: lox [--dump tokens|ast] [FILE]\n"

def version : Invocation := told versionText

def help : Invocation := told usageText

def misuse : Invocation := misused usageText

/-- The invocation that an option of one letter asks for. Further letters behind the first one are
not looked at. -/
def ofLetters : List Char → Invocation
  | 'V' :: _ => version
  | 'h' :: _ => help
  | _ => misuse

/-- The invocation once all arguments were read. -/
def ofParts (path : Option String) (view : Option View) : Invocation :=
  match path with
  | some path => script path view
  | none => prompt view

/-- Reads arguments behind `--`. -/
def ofPaths (path : Option String) (view : Option View) : List String → Invocation
  | [] => ofParts path view
  | arg :: args =>
    if path.isSome || arg.isEmpty then misuse else ofPaths (some arg) view args

/-- Reads the arguments that follow those already read. A view can be asked for once only. -/
def ofMore (path : Option String) (view : Option View) : List String → Invocation
  | [] => ofParts path view
  | "--" :: args => ofPaths path view args
  | "--version" :: _ => version
  | "--help" :: _ => help
  | "--dump" :: name :: args =>
    match view, View.ofName? name with
    | none, some chosen => ofMore path (some chosen) args
    | _, _ => misuse
  | "--dump=tokens" :: args => if view.isSome then misuse else ofMore path (some .tokens) args
  | "--dump=ast" :: args => if view.isSome then misuse else ofMore path (some .trees) args
  | arg :: args =>
    match arg.toList with
    | [] => misuse
    | '-' :: letter :: letters => ofLetters (letter :: letters)
    | _ => if path.isSome then misuse else ofMore (some arg) view args

/-- Reads all arguments. -/
def ofArgs (args : List String) : Invocation := ofMore none none args

end Invocation

end Lox
