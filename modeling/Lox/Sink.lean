/-
Sinks: where output goes.

A sink has room for so many bytes, or for any number. It takes what it has room for and then
refuses; a write that does not fit is taken in part. Nothing is ever refused when nothing is left
to take, so writing no bytes always succeeds.

Everything that writes is described by what it leaves behind: the bytes the sink took, the sink
afterwards, and a result. Such outputs are put together in order, and they stop with the first
failure.
-/
import Lox.Failure
import Lox.Text.Bytes

set_option autoImplicit false

namespace Lox

/-- How a sink refuses. -/
inductive Refusal
  /-- It was closed. -/
  | closed
  /-- It takes no bytes, without saying why. -/
  | takesNone
  /-- The device behind it is full. -/
  | deviceFull
  deriving DecidableEq, Repr

/-- The wording of a refusal. -/
def Refusal.message : Refusal → String
  | closed => "closed"
  | takesNone => "failed to write whole buffer"
  | deviceFull => "No space left on device (os error 28)"

/-- A sink: the bytes it still takes, or `none` for no limit, and how it refuses the next one. -/
structure Sink where
  room : Option Nat
  refusal : Refusal
  deriving DecidableEq, Repr

/-- The bytes that were taken, the sink afterwards, and a result. -/
structure Written (α : Type) where
  bytes : List UInt8
  sink : Sink
  result : α
  deriving Repr

namespace Sink

/-- Takes everything. -/
def endless : Sink := ⟨none, .closed⟩

/-- Takes nothing: the device is full from the start. -/
def full : Sink := ⟨some 0, .deviceFull⟩

/-- Writes bytes. The result is how the sink refused, if it did. -/
def write (sink : Sink) (bytes : List UInt8) : Written (Option Refusal) :=
  match sink.room with
  | none => ⟨bytes, sink, none⟩
  | some room =>
    if bytes.length ≤ room then
      ⟨bytes, { sink with room := some (room - bytes.length) }, none⟩
    else ⟨bytes.take room, { sink with room := some 0 }, some sink.refusal⟩

/-- Writes a text. -/
def writeText (sink : Sink) (text : String) : Written (Option Refusal) :=
  sink.write (Text.utf8 text)

end Sink

namespace Written

/-- Goes on writing where `first` left off, with the bytes of both. -/
def andThen {α β : Type} (first : Written α) (next : α → Sink → Written β) : Written β :=
  let second := next first.result first.sink
  ⟨first.bytes ++ second.bytes, second.sink, second.result⟩

/-- The same output with another result. -/
def map {α β : Type} (f : α → β) (w : Written α) : Written β :=
  ⟨w.bytes, w.sink, f w.result⟩

end Written

end Lox
