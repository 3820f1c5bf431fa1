import EasyModelGate.Lib.Gregorian
import EasyModelGate.Lib.WallClock
import EasyModelGate.Python.Clock

/-! # Python `datetime` and `zoneinfo`

A local time is what a wall clock shows, in microseconds since 1970 began on it; the date and the
hour are read off. The years run from 1 to 9999. A zone is its changes of offset: a rule for the
years to come is its changes until year 9999. -/

namespace EasyModelGate

/-- The first microsecond of year 1. -/
def minWall : Int := -62135596800000000

/-- The end of year 9999. -/
def maxWall : Int := 253402300800000000

/-- A `datetime` with a time zone. -/
structure Datetime where
  wall : Int
  fold : Bool
  min_le : minWall ≤ wall
  lt_max : wall < maxWall
  deriving DecidableEq

namespace Datetime

/-- The result of an addition. -/
def ofWall (wall : Int) (fold : Bool) : Except PyExn Datetime :=
  if h : minWall ≤ wall ∧ wall < maxWall then .ok ⟨wall, fold, h.1, h.2⟩ else .error .overflowError

/-- `d.toordinal()` -/
def ordinal (d : Datetime) : Nat := (d.wall / 86400000000 + 719163).toNat

def hour (d : Datetime) : Nat := (d.wall % 86400000000 / 3600000000).toNat

def weekday (d : Datetime) : Nat := Gregorian.weekday d.ordinal

/-- The beginning of the day with this number, on the wall clock. -/
def startOfDay (n : Nat) : Int := (n - 719163) * 86400000000

theorem ordinal_pos (d : Datetime) : 1 ≤ d.ordinal := by
  have hmin := d.min_le
  simp only [minWall] at hmin
  unfold ordinal
  omega

theorem startOfDay_le (d : Datetime) : startOfDay d.ordinal ≤ d.wall := by
  have hmin := d.min_le
  simp only [minWall] at hmin
  unfold startOfDay ordinal
  omega

theorem startOfDay_mono {n n' : Nat} (h : n ≤ n') : startOfDay n ≤ startOfDay n' := by
  unfold startOfDay
  omega

theorem min_le_startOfDay {n : Nat} (h : 1 ≤ n) : minWall ≤ startOfDay n := by
  unfold startOfDay minWall
  omega

/-- `d.replace(hour=0, minute=0, second=0, microsecond=0)` -/
def midnight (d : Datetime) : Datetime where
  wall := startOfDay d.ordinal
  fold := d.fold
  min_le := min_le_startOfDay d.ordinal_pos
  lt_max := d.startOfDay_le.trans_lt d.lt_max

theorem firstOfMonth_pos (n : Nat) : 1 ≤ Gregorian.firstOfMonth n := Nat.le_add_left ..

/-- `d.replace(day=1, hour=0, minute=0, second=0, microsecond=0)` -/
def firstOfMonth (d : Datetime) : Datetime where
  wall := startOfDay (Gregorian.firstOfMonth d.ordinal)
  fold := d.fold
  min_le := min_le_startOfDay (firstOfMonth_pos _)
  lt_max := by
    have hmonth := (Gregorian.month_eq_iff d.ordinal_pos d.ordinal_pos).mp ⟨rfl, rfl⟩
    exact ((startOfDay_mono hmonth.1).trans d.startOfDay_le).trans_lt d.lt_max

/-- `d - timedelta(microseconds=delta)`, which moves the wall clock and forgets the fold. -/
def sub (d : Datetime) (delta : Int) : Except PyExn Datetime := ofWall (d.wall - delta) false

end Datetime

structure ZoneInfo where
  base : Int
  changes : List Change
  /-- No change is undone before the wall times that it skips or repeats are over. -/
  ordered : WallClock.Ordered base changes
  base_lt : -86400 < base ∧ base < 86400
  offset_lt : ∀ c ∈ changes, -86400 < c.offset ∧ c.offset < 86400
  /-- The changes are within the years, by three days. -/
  within : ∀ c ∈ changes, -62135337600 ≤ c.utc ∧ c.utc ≤ 253402041600

/-- The time in microseconds. -/
def Clock.nowUs (clk : Clock) : Int := ⌊clk.wall * 1000000⌋

namespace ZoneInfo

section
variable (z : ZoneInfo)

/-- `z.utcoffset(d)`, in seconds. -/
def utcoffset (d : Datetime) : Int := WallClock.utcoffset z.base z.changes (d.wall / 1000000) d.fold

/-- `datetime.fromtimestamp` and `z.fromutc`, of microseconds since the epoch. -/
def fromUtc (t : Int) : Except PyExn Datetime :=
  if t < minWall ∨ maxWall ≤ t then .error .valueError
  else
    Datetime.ofWall (t + WallClock.offsetAt z.base z.changes (t / 1000000) * 1000000)
      (WallClock.foldAt z.base z.changes (t / 1000000))

/-- `datetime.now(z)` -/
def now (clk : Clock) : Except PyExn Datetime := z.fromUtc clk.nowUs

/-- `datetime.fromtimestamp(ts_ms / 1000, z)`: the division is exact to less than a millisecond, and
no more than the second is ever read. -/
def fromtimestamp (tsMs : Int) : Except PyExn Datetime := z.fromUtc (tsMs * 1000)

/-- `d.timestamp()`, in microseconds. -/
def timestamp (d : Datetime) : Int := d.wall - z.utcoffset d * 1000000

/-- `int(d.timestamp() * 1000)` -/
def timestampMs (d : Datetime) : Int := (z.timestamp d).tdiv 1000

end
end ZoneInfo
end EasyModelGate
