/-
Output with room for so many bytes.

A sink with limited room takes the first bytes that are written to it and refuses the others. So the
output of anything that writes is determined by what it writes where nothing is refused: the bytes
are the first ones of these, and the result is the same unless something is cut off.

`Written.within` says this of one output. What carries it from a single write to whole programs is
`within_andThen`: two outputs one after the other are cut off as one, provided that nothing is
written once something was refused. A cut through the bytes of the second output leaves the whole
first one, and a cut through the first one leaves nothing of the second.
-/
import Lox.Sink

set_option autoImplicit false

namespace Lox

/-! ## Cutting off -/

namespace Written

variable {α β : Type}

/-- What comes of an output where there is room for so many bytes. Its result is its own only if
there is room for all of it. -/
def within (room : Nat) (refusal : Refusal) (refused : α) (full : Written α) : Written α where
  bytes := full.bytes.take room
  sink := ⟨some (room - full.bytes.length), refusal⟩
  result := if full.bytes.length ≤ room then full.result else refused

variable {room : Nat} {refusal : Refusal} {full : Written α} {refused : α}

/-- With room for all of it, an output is as it would be without a limit. -/
theorem within_of_le (hle : full.bytes.length ≤ room) :
    full.within room refusal refused =
      ⟨full.bytes, ⟨some (room - full.bytes.length), refusal⟩, full.result⟩ := by
  rw [within, List.take_of_length_le hle, if_pos hle]

/-- An output that is cut off uses up the room. -/
theorem within_of_lt (hlt : room < full.bytes.length) :
    full.within room refusal refused = ⟨full.bytes.take room, ⟨some 0, refusal⟩, refused⟩ := by
  have hroom : room - full.bytes.length = 0 := by omega
  rw [within, if_neg (Nat.not_le.2 hlt), hroom]

/-- An output of no bytes is never cut off. -/
theorem within_of_nil (hnil : full.bytes = []) :
    full.within room refusal refused = ⟨[], ⟨some room, refusal⟩, full.result⟩ := by
  have hlength : full.bytes.length = 0 := by rw [hnil, List.length_nil]
  have hle : full.bytes.length ≤ room := by omega
  rw [within_of_le hle, hlength, hnil, Nat.sub_zero]

theorem within_map (f : α → β) :
    (full.within room refusal refused).map f = (full.map f).within room refusal (f refused) := by
  rcases Nat.lt_or_ge room full.bytes.length with hlt | hle
  · have hlt' : room < (full.map f).bytes.length := hlt
    rw [within_of_lt hlt, within_of_lt hlt']
    rfl
  · have hle' : (full.map f).bytes.length ≤ room := hle
    rw [within_of_le hle, within_of_le hle']
    rfl

/-- Two outputs are cut off as one, if what follows the first one is cut off wherever the first one
ends, and nothing follows a refusal. -/
theorem within_andThen {next : α → Sink → Written β} {refused' : β}
    (hnext : ∀ left, next full.result ⟨some left, refusal⟩ =
      (next full.result full.sink).within left refusal refused')
    (hrefused : ∀ sink, next refused sink = ⟨[], sink, refused'⟩) :
    (full.within room refusal refused).andThen next =
      (full.andThen next).within room refusal refused' := by
  have hlength : (full.andThen next).bytes.length =
      full.bytes.length + (next full.result full.sink).bytes.length := List.length_append
  rcases Nat.lt_or_ge room full.bytes.length with hlt | hle
  · -- the cut is in the first output, so the second one is never begun
    have hlt' : room < (full.andThen next).bytes.length := by omega
    have htake : (full.andThen next).bytes.take room = full.bytes.take room :=
      List.take_append_of_le_length (Nat.le_of_lt hlt)
    rw [within_of_lt hlt, within_of_lt hlt', htake]
    simp only [andThen, hrefused, List.append_nil]
  · -- the first output is whole, and the second one has what room is left
    have htake : (full.andThen next).bytes.take room =
        full.bytes ++ (next full.result full.sink).bytes.take (room - full.bytes.length) := by
      rw [andThen, List.take_append, List.take_of_length_le hle]
    have hroom : room - (full.andThen next).bytes.length =
        room - full.bytes.length - (next full.result full.sink).bytes.length := by omega
    have hfits : (full.andThen next).bytes.length ≤ room ↔
        (next full.result full.sink).bytes.length ≤ room - full.bytes.length := by omega
    rw [within_of_le hle, andThen, hnext]
    simp only [within, htake, hroom, hfits]
    rfl

end Written

/-! ## Writing -/

namespace Sink

/-- Without a limit everything is taken. -/
theorem write_of_room_none {sink : Sink} (hroom : sink.room = none) (bytes : List UInt8) :
    sink.write bytes = ⟨bytes, sink, none⟩ := by
  rw [write, hroom]

theorem writeText_of_room_none {sink : Sink} (hroom : sink.room = none) (text : String) :
    sink.writeText text = ⟨Text.utf8 text, sink, none⟩ := by
  rw [writeText, write_of_room_none hroom]

theorem write_within (room : Nat) (refusal : Refusal) (bytes : List UInt8) :
    (⟨some room, refusal⟩ : Sink).write bytes =
      (endless.write bytes).within room refusal (some refusal) := by
  have hfull : endless.write bytes = ⟨bytes, endless, none⟩ := write_of_room_none rfl bytes
  rw [hfull]
  by_cases hle : bytes.length ≤ room
  · rw [Written.within_of_le hle, write]
    simp only [if_pos hle]
  · rw [Written.within_of_lt (Nat.lt_of_not_le hle), write]
    simp only [if_neg hle]

/-- Writes pieces one after the other, up to the first refusal. -/
def writeEach (sink : Sink) : List (List UInt8) → Written (Option Refusal)
  | [] => ⟨[], sink, none⟩
  | piece :: pieces =>
    (sink.write piece).andThen fun
      | none, sink => writeEach sink pieces
      | some refusal, sink => ⟨[], sink, some refusal⟩

theorem writeEach_of_room_none {sink : Sink} (hroom : sink.room = none)
    (pieces : List (List UInt8)) : sink.writeEach pieces = ⟨pieces.flatten, sink, none⟩ := by
  induction pieces with
  | nil => rfl
  | cons piece pieces ih =>
    rw [writeEach, write_of_room_none hroom, Written.andThen, List.flatten_cons]
    simp only [ih]

theorem writeEach_within (room : Nat) (refusal : Refusal) (pieces : List (List UInt8)) :
    (⟨some room, refusal⟩ : Sink).writeEach pieces =
      (endless.writeEach pieces).within room refusal (some refusal) := by
  induction pieces generalizing room with
  | nil =>
    rw [writeEach, writeEach, Written.within_of_nil rfl]
  | cons piece pieces ih =>
    rw [writeEach, writeEach, write_within]
    apply Written.within_andThen
    · intro left
      rw [write_of_room_none rfl]
      exact ih left
    · intro sink
      rfl

/-- How bytes are cut into pieces makes no difference to a sink, not even where a piece is empty. -/
theorem writeEach_eq_write (sink : Sink) (pieces : List (List UInt8)) :
    sink.writeEach pieces = sink.write pieces.flatten := by
  obtain ⟨_ | room, refusal⟩ := sink
  · rw [writeEach_of_room_none rfl, write_of_room_none rfl]
  · rw [writeEach_within, write_within, writeEach_of_room_none rfl, write_of_room_none rfl]

end Sink

end Lox
