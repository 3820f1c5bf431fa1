import Mathlib.Data.Rat.Floor
import EasyModelGate.Python.Text

/-! # Clocks and local time

Seconds are exact rationals. A synchronous stretch of code takes no time: it reads each clock
once. -/

namespace EasyModelGate

/-- `int(q)`, truncation towards zero. -/
def truncate (q : ℚ) : Int := if 0 ≤ q then ⌊q⌋ else ⌈q⌉

/-- What the clocks show while a synchronous stretch of code runs. -/
structure Clock where
  /-- `time.monotonic()`, which is also `loop.time()`. -/
  mono : ℚ
  /-- `time.time()` -/
  wall : ℚ

/-- `dao.now_ms()` -/
def Clock.nowMs (clk : Clock) : Int := truncate (clk.wall * 1000)

/-- A time zone, by its offsets in seconds. -/
structure Zone where
  /-- The offset at a UTC time. -/
  fromUtc : Int → Int
  /-- The offset that `utcoffset` reports for a local time. -/
  utcoffset : Int → Int

/-- `datetime.now(zone) + timedelta(days=days)` as a timestamp in milliseconds. The addition is
one of wall clock times, and the years run from 1 to 9999. -/
def Zone.inDays (zone : Zone) (clk : Clock) (days : Int) : Except PyExn Int :=
  let wall : ℚ := clk.wall + zone.fromUtc ⌊clk.wall⌋ + days * 86400
  if days < -999999999 ∨ 999999999 < days ∨ wall < -62135596800 ∨ 253402300800 ≤ wall
  then .error .overflowError
  else .ok (truncate ((wall - zone.utcoffset ⌊wall⌋) * 1000))

end EasyModelGate
