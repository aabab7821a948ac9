import LogOrder.Stamp.Basic
import LogOrder.Text.Line

/-!
# Entries

An entry is one message of a log: a stamped line and the unstamped lines under it. Its key holds
all that an order of entries may look at.

The *group* of an entry is its thread, or the one group of all entries that name no thread. It is
represented by the line of the group's first entry. Those lines are all different, so groups never
run into each other, and comparing them puts first the group that appeared first.

Nothing here depends on what a stamp is: keys and entries can have stamps of any kind, and have
those of logs where nothing else is said.
-/

namespace LogOrder

/-- What an order of entries may look at. -/
structure Key (τ : Type := Stamp) where
  /-- The line of the first entry of the thread, for an entry that names one. -/
  thread : Option Nat
  /-- The stamp of the entry. -/
  stamp : τ
  /-- The line that the entry starts on. -/
  line : Nat
  /-- The line of the first entry of the group. -/
  group : Nat
deriving DecidableEq

section

variable {τ : Type}

/-- The key of an entry in the thread that starts on the line `first`. -/
def Key.threaded (first : Nat) (stamp : τ) (line : Nat) : Key τ :=
  { thread := some first, stamp, line, group := first }

/-- The key of an entry without a thread; `first` is the line of the first such entry. -/
def Key.unthreaded (first : Nat) (stamp : τ) (line : Nat) : Key τ :=
  { thread := none, stamp, line, group := first }

end

/-- A stamped line of a log with the lines that belong to it. -/
structure Entry (τ : Type := Stamp) where
  /-- The number of the stamped line in the log, counted from 0. -/
  line : Nat
  /-- The date and time it opens with. -/
  stamp : τ
  /-- The line of the first entry of its thread, if it names one. -/
  thread : Option Nat
  /-- The line that stands for its group when it names no thread. -/
  unmarked : Nat
  /-- The stamped line and those under it, with their line endings. -/
  text : Bytes
deriving DecidableEq

namespace Entry

variable {τ : Type}

/-- What orders look at. -/
def key (e : Entry τ) : Key τ :=
  { thread := e.thread, stamp := e.stamp, line := e.line, group := e.thread.getD e.unmarked }

/-- The number of lines that the entry takes up. -/
def lineCount (e : Entry τ) : Nat := Line.count e.text

/-- The entry with one more line under it. -/
def addLine (e : Entry τ) (line : Bytes) : Entry τ := { e with text := e.text ++ line }

end Entry

end LogOrder
