import LogOrder.Text.Decimal

/-!
# The written form of a stamp

A stamp is written `YYYY-MM-DD HH:MM:SS:mmm`: seven numbers of a fixed width with one fixed byte
between neighbours. The numbers here are only what the digits say; whether they name a date is
not asked yet.

* `Written.read?_eq_some_iff`: reading accepts exactly what writing produces, whatever follows.
* `opening?_eq_some_iff`: a line opens with a stamp exactly when it starts with a written stamp
  between brackets.
-/

namespace LogOrder.Stamp

/-- The seven numbers of a stamp, as its digits give them. -/
structure Written where
  /-- Year, four digits. -/
  year : Decimal 4
  /-- Month, two digits. -/
  month : Decimal 2
  /-- Day of the month, two digits. -/
  day : Decimal 2
  /-- Hour, two digits. -/
  hour : Decimal 2
  /-- Minute, two digits. -/
  minute : Decimal 2
  /-- Second, two digits. -/
  second : Decimal 2
  /-- Thousandths of the second, three digits. -/
  milli : Decimal 3
deriving DecidableEq, Repr

/-- The byte `-`, between the parts of the date. -/
def dash : UInt8 := 0x2d

/-- The byte `:`, between the parts of the time. -/
def colon : UInt8 := 0x3a

/-- The space between date and time. -/
def space : UInt8 := 0x20

/-- The byte `[`, which opens a bracketed stamp or marker. -/
def openBracket : UInt8 := 0x5b

/-- The byte `]`, which closes one. -/
def closeBracket : UInt8 := 0x5d

namespace Written

/-- The written form, 23 bytes. -/
def toBytes (w : Written) : Bytes :=
  Decimal.write 4 w.year ++ dash :: (Decimal.write 2 w.month ++ dash :: (Decimal.write 2 w.day ++
    space :: (Decimal.write 2 w.hour ++ colon :: (Decimal.write 2 w.minute ++ colon ::
      (Decimal.write 2 w.second ++ colon :: Decimal.write 3 w.milli)))))

/-- The written form as text. -/
def toText (w : Written) : String := Bytes.toText w.toBytes

/-- Reads a written form and returns what follows it. -/
def read? (s : Bytes) : Option (Written × Bytes) := do
  let (year, s) ← Decimal.read? 4 s
  let s ← Bytes.skip? dash s
  let (month, s) ← Decimal.read? 2 s
  let s ← Bytes.skip? dash s
  let (day, s) ← Decimal.read? 2 s
  let s ← Bytes.skip? space s
  let (hour, s) ← Decimal.read? 2 s
  let s ← Bytes.skip? colon s
  let (minute, s) ← Decimal.read? 2 s
  let s ← Bytes.skip? colon s
  let (second, s) ← Decimal.read? 2 s
  let s ← Bytes.skip? colon s
  let (milli, s) ← Decimal.read? 3 s
  some ({ year, month, day, hour, minute, second, milli }, s)

theorem length_toBytes (w : Written) : w.toBytes.length = 23 := by
  simp [toBytes, Decimal.length_write]

theorem read?_toBytes (w : Written) (rest : Bytes) :
    read? (w.toBytes ++ rest) = some (w, rest) := by
  simp [read?, toBytes, Decimal.read?_write]

theorem eq_toBytes_of_read? {s rest : Bytes} {w : Written} (h : read? s = some (w, rest)) :
    s = w.toBytes ++ rest := by
  simp only [read?, Option.bind_eq_bind, Option.bind_eq_some_iff, Prod.exists,
    Decimal.read?_eq_some_iff, Bytes.skip?_eq_some_iff, Option.some.injEq, Prod.mk.injEq] at h
  obtain ⟨_, _, rfl, _, rfl, _, _, rfl, _, rfl, _, _, rfl, _, rfl, _, _, rfl, _, rfl, _, _, rfl,
    _, rfl, _, _, rfl, _, rfl, _, _, rfl, rfl, rfl⟩ := h
  simp [toBytes]

/-- Reading accepts exactly what writing produces, whatever follows. -/
theorem read?_eq_some_iff {s rest : Bytes} {w : Written} :
    read? s = some (w, rest) ↔ s = w.toBytes ++ rest :=
  ⟨eq_toBytes_of_read?, fun h => h ▸ read?_toBytes w rest⟩

end Written

/-- The stamp that a line opens with: a written form between brackets, at the very start. -/
def opening? (line : Bytes) : Option Written := do
  let s ← Bytes.skip? openBracket line
  let (w, s) ← Written.read? s
  let _ ← Bytes.skip? closeBracket s
  some w

/-- A line opens with a stamp exactly when it starts with a written stamp between brackets. -/
theorem opening?_eq_some_iff {line : Bytes} {w : Written} :
    opening? line = some w ↔
      ∃ rest, line = openBracket :: (w.toBytes ++ closeBracket :: rest) := by
  simp only [opening?, Option.bind_eq_bind, Option.bind_eq_some_iff, Prod.exists,
    Written.read?_eq_some_iff, Bytes.skip?_eq_some_iff, Option.some.injEq]
  constructor
  · rintro ⟨_, rfl, _, _, rfl, rest, rfl, rfl⟩
    exact ⟨rest, rfl⟩
  · rintro ⟨rest, rfl⟩
    exact ⟨_, rfl, w, _, rfl, rest, rfl, rfl⟩

end LogOrder.Stamp
