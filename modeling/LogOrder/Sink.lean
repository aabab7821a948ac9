import LogOrder.Text.Bytes
import LogOrder.IoFault

/-!
# Sinks

A sink takes bytes until it is full, and fails with the first write it cannot take whole; what
still fits of that write is kept. A write of nothing always succeeds.

* `Sink.write` and `Sink.flush` are the two things that can be done with it.
* `Sink.written` is the view: all bytes taken, in order.
-/

namespace LogOrder

/-- Somewhere to write bytes. -/
structure Sink where
  /-- How many more bytes it takes; it takes any number if there is nothing here. -/
  room : Option Nat := none
  /-- How a write fails that it cannot take whole. -/
  full : IoFault := .other "full"
  /-- How a flush fails, if it does. -/
  unflushable : Option IoFault := none
  /-- What was taken, the latest first. -/
  pieces : List Bytes := []
  /-- How often a flush was asked for. -/
  flushes : Nat := 0
deriving DecidableEq, Repr

namespace Sink

/-- All bytes taken, in order. -/
def written (s : Sink) : Bytes := s.pieces.reverse.flatten

/-- The part of a write that the sink has room for. -/
def fit (s : Sink) (bs : Bytes) : Bytes :=
  match s.room with
  | none => bs
  | some room => bs.take room

/-- The sink after a write, whole or not. -/
def put (s : Sink) (bs : Bytes) : Sink :=
  { s with
    pieces := s.fit bs :: s.pieces
    room := s.room.map (· - bs.length) }

/-- Writes the bytes, or as many of them as the sink has room for. -/
def write (bs : Bytes) : EStateM IoFault Sink Unit := fun s =>
  if (s.fit bs).length = bs.length then .ok () (s.put bs) else .error s.full (s.put bs)

/-- Makes sure that what was written has arrived. -/
def flush : EStateM IoFault Sink Unit := fun s =>
  let s := { s with flushes := s.flushes + 1 }
  match s.unflushable with
  | none => .ok () s
  | some why => .error why s

@[simp]
theorem written_put (s : Sink) (bs : Bytes) : (s.put bs).written = s.written ++ s.fit bs := by
  simp [written, put]

end Sink

end LogOrder
