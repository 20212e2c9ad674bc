/-
Where scripts are read from.

The command sees files as a function from paths to bytes or to the reason why there are none. A
place in a tree of directories gives one such function. It follows a path part by part and never
looks further than the part that fails.
-/
import Lox.Text.Bytes

set_option autoImplicit false

namespace Lox

/-- Why a script could not be read. -/
inductive ReadFault
  | notFound
  | isDirectory
  | notDirectory
  | nameTooLong
  /-- The bytes are not the UTF-8 form of any text. -/
  | notText
  | other (message : String)
  deriving DecidableEq, Repr

/-- The wording of a reason. -/
def ReadFault.message : ReadFault → String
  | notFound => "No such file or directory (os error 2)"
  | isDirectory => "Is a directory (os error 21)"
  | notDirectory => "Not a directory (os error 20)"
  | nameTooLong => "File name too long (os error 36)"
  | notText => "stream did not contain valid UTF-8"
  | other message => message

/-- The bytes of the file at a path. -/
abbrev Files := String → Except ReadFault (List UInt8)

/-- The text of the file at a path. -/
def Files.text (files : Files) (path : String) : Except ReadFault String := do
  match Text.ofUtf8? (← files path) with
  | some text => return text
  | none => throw .notText

/-! ## A tree of directories -/

/-- A file, or a directory as what stands in it by name. -/
inductive FileTree
  | file (bytes : List UInt8)
  | directory (entries : List (String × FileTree))

/-- A directory of a tree and the directories above it, the nearest first. -/
structure Place where
  entries : List (String × FileTree)
  above : List (List (String × FileTree))

namespace Place

/-- The directory above. The root stands above itself. -/
def parent (p : Place) : Place :=
  match p.above with
  | [] => p
  | entries :: above => ⟨entries, above⟩

/-- The directory above all others. -/
def root (p : Place) : Place := ⟨p.above.getLastD p.entries, []⟩

/-- The most bytes that the name of an entry has. -/
def nameLimit : Nat := 255

/-- The most bytes that a path has. -/
def pathLimit : Nat := 4095

/-- Follows the parts of a path. An empty part stays where it is, as a single dot does, so
slashes may be doubled and may end the path of a directory. -/
def follow (p : Place) : List String → Except ReadFault (List UInt8)
  | [] => .error .isDirectory
  | "" :: parts => p.follow parts
  | "." :: parts => p.follow parts
  | ".." :: parts => p.parent.follow parts
  | name :: parts =>
    if nameLimit < name.utf8ByteSize then .error .nameTooLong
    else
      match p.entries.lookup name with
      | none => .error .notFound
      | some (.directory entries) => follow ⟨entries, p.entries :: p.above⟩ parts
      | some (.file bytes) => if parts.isEmpty then .ok bytes else .error .notDirectory

/-- The files of the tree by path. A path that starts with a slash is followed from the root, any
other one from the place itself, and the empty path names nothing. -/
def read (p : Place) : Files := fun path =>
  if pathLimit < path.utf8ByteSize then .error .nameTooLong
  else
    match (path.toList.splitOn '/').map String.ofList with
    | [""] => .error .notFound
    | "" :: parts => p.root.follow parts
    | parts => p.follow parts

end Place

end Lox
