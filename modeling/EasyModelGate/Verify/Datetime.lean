import Mathlib.Tactic.Linarith
import EasyModelGate.Services.UsageService

/-! # Local times and the keys of their buckets

A key is written with a fixed number of digits, so that it is the key of one stretch of wall time:
an hour, a day, an ISO week or a month. -/

namespace EasyModelGate

/-! ## Digits -/

theorem digit_inj {n m : Nat} : digit n = digit m ↔ n % 10 = m % 10 := by
  simp only [digit, Fin.ext_iff, Fin.val_ofNat]
  omega

theorem digit_lt {n m : Nat} : digit n < digit m ↔ n % 10 < m % 10 := by
  simp only [digit, Fin.lt_def, Fin.val_ofNat]
  omega

theorem pad2_append_inj {n m : Nat} {s t : Str} : pad2 n ++ s = pad2 m ++ t ↔
    n % 100 = m % 100 ∧ s = t := by
  simp only [pad2, List.cons_append, List.nil_append, List.cons.injEq, digit_inj, ← and_assoc]
  exact and_congr_left fun _ => by omega

theorem pad4_append_inj {n m : Nat} (hn : n < 10000) (hm : m < 10000) {s t : Str} :
    pad4 n ++ s = pad4 m ++ t ↔ n = m ∧ s = t := by
  simp only [pad4, List.append_assoc, pad2_append_inj, ← and_assoc]
  exact and_congr_left fun _ => by omega

theorem str_injective : Function.Injective str := by
  intro s t h
  unfold str at h
  have hchar : Function.Injective fun c : Char => Fin.ofNat 0x110000 c.toNat := by
    intro a b hab
    have hbound (c : Char) : c.toNat < 0x110000 := by
      have hvalid := c.valid
      simp only [UInt32.isValidChar, Nat.isValidChar] at hvalid
      change c.val.toNat < _
      omega
    have hval := congrArg Fin.val hab
    simp only [Fin.val_ofNat, Nat.mod_eq_of_lt (hbound _)] at hval
    exact Char.toNat_inj.mp hval
  exact String.toList_injective (hchar.list_map h)

theorem ofInt_injective {n m : Nat} (h : Str.ofInt n = Str.ofInt m) : n = m := by
  have hdigits : Nat.toDigits 10 n = Nat.toDigits 10 m := String.ofList_injective (str_injective h)
  rw [← Nat.ofDigitChars_ten_toDigits (n := n), hdigits, Nat.ofDigitChars_ten_toDigits]

namespace Str

theorem le_append (s t t' : Str) : Str.le (s ++ t) (s ++ t') = Str.le t t' := by
  induction s with
  | nil => rfl
  | cons a s ih => rw [List.cons_append, List.cons_append, Str.le, if_pos rfl, ih]

theorem le_cons {a b : CodePoint} {s t : Str} : Str.le (a :: s) (b :: t) = true ↔
    a < b ∨ a = b ∧ Str.le s t = true := by
  rw [Str.le]
  split
  · rename_i h
    simp [h]
  · rename_i h
    simp [h]

theorem le_pad2 {n m : Nat} {s t : Str} :
    Str.le (pad2 n ++ s) (pad2 m ++ t) = true ↔ n % 100 < m % 100 ∨ n % 100 = m % 100 ∧
    Str.le s t = true := by
  simp only [pad2, List.cons_append, List.nil_append, le_cons, digit_lt, digit_inj]
  by_cases h : Str.le s t = true
  · simp only [h, and_true]
    omega
  · simp only [h, and_false, or_false, Bool.false_eq_true]
    omega

theorem le_pad4 {n m : Nat} (hn : n < 10000) (hm : m < 10000) {s t : Str} :
    Str.le (pad4 n ++ s) (pad4 m ++ t) = true ↔ n < m ∨ n = m ∧ Str.le s t = true := by
  simp only [pad4, List.append_assoc, le_pad2]
  by_cases h : Str.le s t = true
  · simp only [h, and_true]
    omega
  · simp only [h, and_false, or_false, Bool.false_eq_true]
    omega

end Str

/-! ## Keys -/

namespace Datetime
variable {d d' : Datetime} {s t : Str}

theorem ordinal_le (d : Datetime) : d.ordinal ≤ 3652059 := by
  have hmax := d.lt_max
  simp only [maxWall] at hmax
  unfold ordinal
  omega

theorem year_le (d : Datetime) : (Gregorian.ord2ymd d.ordinal).1 ≤ 9999 := by
  obtain ⟨-, hord⟩ := Gregorian.ord2ymd_spec d.ordinal_pos
  have hle := d.ordinal_le
  by_contra hyear
  have hbefore := Gregorian.daysBeforeYear_lt (show 1 ≤ 9999 by omega) (not_le.mp hyear)
  have hlast : Gregorian.daysBeforeYear 9999 = 3651694 := by decide
  unfold Gregorian.ymd2ord at hord
  obtain ⟨hvalid, -⟩ := Gregorian.ord2ymd_spec d.ordinal_pos
  have hday := hvalid.day_pos
  omega

theorem day_lt (d : Datetime) : (Gregorian.ord2ymd d.ordinal).2.2 < 100 := by
  obtain ⟨hvalid, -⟩ := Gregorian.ord2ymd_spec d.ordinal_pos
  refine hvalid.day_le.trans_lt ?_
  unfold Gregorian.daysInMonth
  split <;> try split
  all_goals decide

theorem month_lt (d : Datetime) : (Gregorian.ord2ymd d.ordinal).2.1 < 100 := by
  obtain ⟨hvalid, -⟩ := Gregorian.ord2ymd_spec d.ordinal_pos
  exact hvalid.month_le.trans_lt (by decide)

theorem hour_lt (d : Datetime) : d.hour < 24 := by
  unfold hour
  omega

theorem monthKey_append_inj : d.monthKey ++ s = d'.monthKey ++ t ↔
    ((Gregorian.ord2ymd d.ordinal).1 = (Gregorian.ord2ymd d'.ordinal).1 ∧
      (Gregorian.ord2ymd d.ordinal).2.1 = (Gregorian.ord2ymd d'.ordinal).2.1) ∧ s = t := by
  have hmonth := d.month_lt
  have hmonth' := d'.month_lt
  simp only [monthKey, List.append_assoc, List.append_cancel_left_eq, pad2_append_inj, and_assoc,
    pad4_append_inj (Nat.lt_succ_of_le d.year_le) (Nat.lt_succ_of_le d'.year_le),
    Nat.mod_eq_of_lt hmonth, Nat.mod_eq_of_lt hmonth']

theorem dayKey_append_inj : d.dayKey ++ s = d'.dayKey ++ t ↔ d.ordinal = d'.ordinal ∧ s = t := by
  have hday := d.day_lt
  have hday' := d'.day_lt
  simp only [dayKey, List.append_assoc, monthKey_append_inj, List.append_cancel_left_eq,
    pad2_append_inj, Nat.mod_eq_of_lt hday, Nat.mod_eq_of_lt hday', ← and_assoc]
  refine and_congr_left fun _ => ⟨fun h => ?_, fun h => by rw [h]; exact ⟨⟨rfl, rfl⟩, rfl⟩⟩
  obtain ⟨-, hord⟩ := Gregorian.ord2ymd_spec d.ordinal_pos
  obtain ⟨-, hord'⟩ := Gregorian.ord2ymd_spec d'.ordinal_pos
  rw [← hord, ← hord', h.1.1, h.1.2, h.2]

theorem hourKey_inj : d.hourKey = d'.hourKey ↔ d.ordinal = d'.ordinal ∧ d.hour = d'.hour := by
  have hhour := d.hour_lt
  have hhour' := d'.hour_lt
  simp only [hourKey, List.append_assoc, dayKey_append_inj, List.append_cancel_left_eq,
    pad2_append_inj, and_true, Nat.mod_eq_of_lt (hhour.trans (by decide : 24 < 100)),
    Nat.mod_eq_of_lt (hhour'.trans (by decide : 24 < 100))]

theorem dayKey_inj : d.dayKey = d'.dayKey ↔ d.ordinal = d'.ordinal := by
  have h : d.dayKey ++ [] = d'.dayKey ++ [] ↔ d.ordinal = d'.ordinal ∧ ([] : Str) = [] :=
    dayKey_append_inj
  simpa using h

theorem monthKey_inj : d.monthKey = d'.monthKey ↔
    (Gregorian.ord2ymd d.ordinal).1 = (Gregorian.ord2ymd d'.ordinal).1 ∧
      (Gregorian.ord2ymd d.ordinal).2.1 = (Gregorian.ord2ymd d'.ordinal).2.1 := by
  have h : d.monthKey ++ [] = d'.monthKey ++ [] ↔ _ := monthKey_append_inj
  simpa using h

theorem weekKey_eq (d : Datetime) : d.weekKey =
    Str.ofInt (Gregorian.isocalendar d.ordinal).1 ++ str "-W" ++
      pad2 (Gregorian.isocalendar d.ordinal).2 := rfl

theorem weekKey_inj : d.weekKey = d'.weekKey ↔
    Gregorian.isocalendar d.ordinal = Gregorian.isocalendar d'.ordinal := by
  refine ⟨fun h => ?_, fun h => by rw [weekKey_eq, h, weekKey_eq]⟩
  rw [weekKey_eq, weekKey_eq] at h
  have hweek := Gregorian.isocalendar_week_le d.ordinal_pos
  have hweek' := Gregorian.isocalendar_week_le d'.ordinal_pos
  have hlength : ∀ n m, (pad2 n).length = (pad2 m).length := fun _ _ => rfl
  obtain ⟨hhead, htail⟩ := List.append_inj' h (hlength _ _)
  obtain ⟨hyear, -⟩ := List.append_inj' hhead rfl
  have hpad : (Gregorian.isocalendar d.ordinal).2 % 100 =
      (Gregorian.isocalendar d'.ordinal).2 % 100 :=
    ((pad2_append_inj (s := []) (t := [])).mp (by simpa using htail)).1
  exact Prod.ext (ofInt_injective hyear) (by omega)

/-! ## The stretch of wall time of a key -/

/-- The beginning of the day with this number, in seconds. -/
def secondOfDay (n : Nat) : Int := (n - 719163) * 86400

/-- The first second of the bucket. -/
def bucketBegin (d : Datetime) : Granularity → Int
  | .hour => d.wall / 3600000000 * 3600
  | .day => secondOfDay d.ordinal
  | .week => secondOfDay (d.ordinal - d.weekday)
  | .month => secondOfDay (Gregorian.firstOfMonth d.ordinal)

/-- The first second after it. -/
def bucketEnd (d : Datetime) : Granularity → Int
  | .hour => (d.wall / 3600000000 + 1) * 3600
  | .day => secondOfDay (d.ordinal + 1)
  | .week => secondOfDay (d.ordinal - d.weekday + 7)
  | .month => secondOfDay (Gregorian.nextMonth d.ordinal)

theorem le_ordinal_iff (n : Nat) : n ≤ d.ordinal ↔ secondOfDay n ≤ d.wall / 1000000 := by
  have hmin := d.min_le
  simp only [minWall] at hmin
  unfold secondOfDay ordinal
  omega

theorem ordinal_lt_iff (n : Nat) : d.ordinal < n ↔ d.wall / 1000000 < secondOfDay n := by
  rw [← not_le, le_ordinal_iff, not_le]

theorem hourNumber_eq : d.wall / 3600000000 = ((d.ordinal : Int) - 719163) * 24 + d.hour := by
  have hmin := d.min_le
  simp only [minWall] at hmin
  unfold ordinal hour
  omega

/-- **A key is that of one stretch of wall time.** -/
theorem bucketKey_eq_iff (g : Granularity) : d'.bucketKey g = d.bucketKey g ↔
    d.bucketBegin g ≤ d'.wall / 1000000 ∧ d'.wall / 1000000 < d.bucketEnd g := by
  cases g with
  | hour =>
    have hhour := d.hourNumber_eq
    have hhour' := d'.hourNumber_eq
    have hlt := d.hour_lt
    have hlt' := d'.hour_lt
    refine hourKey_inj.trans ?_
    dsimp only [bucketBegin, bucketEnd]
    omega
  | day =>
    refine dayKey_inj.trans ?_
    rw [bucketBegin, bucketEnd, ← le_ordinal_iff, ← ordinal_lt_iff]
    omega
  | week =>
    refine weekKey_inj.trans ?_
    rw [Gregorian.isocalendar_eq_iff d'.ordinal_pos d.ordinal_pos, bucketBegin, bucketEnd,
      ← le_ordinal_iff, ← ordinal_lt_iff, weekday, Gregorian.weekday]
    have hpos := d.ordinal_pos
    have hpos' := d'.ordinal_pos
    omega
  | month =>
    refine monthKey_inj.trans ?_
    rw [bucketBegin, bucketEnd, ← le_ordinal_iff, ← ordinal_lt_iff]
    exact Gregorian.month_eq_iff d.ordinal_pos d'.ordinal_pos

theorem bucketBegin_le (d : Datetime) (g : Granularity) : d.bucketBegin g ≤ d.wall / 1000000 :=
  ((bucketKey_eq_iff g).mp rfl).1

theorem lt_bucketEnd (d : Datetime) (g : Granularity) : d.wall / 1000000 < d.bucketEnd g :=
  ((bucketKey_eq_iff g).mp rfl).2

/-! ## The order of the hours -/

theorem le_dayKey_append : Str.le (d.dayKey ++ s) (d'.dayKey ++ t) = true ↔
    d.ordinal < d'.ordinal ∨ d.ordinal = d'.ordinal ∧ Str.le s t = true := by
  have hlex : Str.le (d.dayKey ++ s) (d'.dayKey ++ t) = true ↔
      (Gregorian.ord2ymd d.ordinal).1 < (Gregorian.ord2ymd d'.ordinal).1 ∨
        (Gregorian.ord2ymd d.ordinal).1 = (Gregorian.ord2ymd d'.ordinal).1 ∧
          ((Gregorian.ord2ymd d.ordinal).2.1 < (Gregorian.ord2ymd d'.ordinal).2.1 ∨
            (Gregorian.ord2ymd d.ordinal).2.1 = (Gregorian.ord2ymd d'.ordinal).2.1 ∧
              ((Gregorian.ord2ymd d.ordinal).2.2 < (Gregorian.ord2ymd d'.ordinal).2.2 ∨
                (Gregorian.ord2ymd d.ordinal).2.2 = (Gregorian.ord2ymd d'.ordinal).2.2 ∧
                Str.le s t = true)) := by
    have hmonth := d.month_lt
    have hmonth' := d'.month_lt
    have hday := d.day_lt
    have hday' := d'.day_lt
    simp only [dayKey, monthKey, List.append_assoc, Str.le_pad2, Str.le_append,
      Str.le_pad4 (Nat.lt_succ_of_le d.year_le) (Nat.lt_succ_of_le d'.year_le),
      Nat.mod_eq_of_lt hmonth, Nat.mod_eq_of_lt hmonth', Nat.mod_eq_of_lt hday,
      Nat.mod_eq_of_lt hday']
  rw [hlex]
  generalize Str.le s t = le
  rcases lt_trichotomy d.ordinal d'.ordinal with hlt | heq | hgt
  · have hdate := Gregorian.ord2ymd_lt d.ordinal_pos hlt
    cases le <;> simp <;> omega
  · simp [heq]
  · have hdate := Gregorian.ord2ymd_lt d'.ordinal_pos hgt
    cases le <;> simp <;> omega

/-- **The order of the keys is that of the wall times.** -/
theorem hourKey_le_iff : Str.le d.hourKey d'.hourKey = true ↔
    d.wall / 3600000000 ≤ d'.wall / 3600000000 := by
  have hhour := d.hour_lt
  have hhour' := d'.hour_lt
  have hnumber := d.hourNumber_eq
  have hnumber' := d'.hourNumber_eq
  have hend : Str.le (str ":00") (str ":00") = true := rfl
  simp only [hourKey, List.append_assoc, le_dayKey_append, Str.le_append, Str.le_pad2,
    hend, and_true]
  omega

end Datetime

/-! ## Zones -/

namespace ZoneInfo
variable {z : ZoneInfo} {t : Int} {d : Datetime}

/-- What the clocks of the zone show at an instant, in seconds. -/
def localTime (z : ZoneInfo) (t : Int) : Int := WallClock.localTime z.base z.changes t

/-- An instant of the years 1 to 9999, also on the clocks of the zone. -/
def Known (z : ZoneInfo) (t : Int) : Prop :=
  (-62135596800 ≤ t ∧ t < 253402300800) ∧ -62135596800 ≤ z.localTime t ∧
    z.localTime t < 253402300800

theorem of_fromUtc (h : z.fromUtc t = .ok d) : z.Known (t / 1000000) ∧
    d.wall = t + WallClock.offsetAt z.base z.changes (t / 1000000) * 1000000 ∧
    d.fold = WallClock.foldAt z.base z.changes (t / 1000000) := by
  unfold fromUtc Datetime.ofWall at h
  split at h
  · cases h
  · rename_i hrange
    split at h
    · rename_i hwall
      cases h
      refine ⟨?_, rfl, rfl⟩
      unfold Known localTime WallClock.localTime
      simp only [minWall, maxWall] at hrange hwall
      omega
    · cases h

theorem Known.fromUtc (h : z.Known (t / 1000000)) : ∃ d, z.fromUtc t = .ok d := by
  unfold Known localTime WallClock.localTime at h
  have hutc : ¬ (t < minWall ∨ maxWall ≤ t) := by
    simp only [minWall, maxWall]
    omega
  have hwall : minWall ≤ t + WallClock.offsetAt z.base z.changes (t / 1000000) * 1000000 ∧
      t + WallClock.offsetAt z.base z.changes (t / 1000000) * 1000000 < maxWall := by
    simp only [minWall, maxWall]
    omega
  exact ⟨⟨_, _, hwall.1, hwall.2⟩,
    by rw [ZoneInfo.fromUtc, if_neg hutc, Datetime.ofWall, dif_pos hwall]⟩

/-- The wall clock in seconds. -/
theorem wall_of_fromUtc (h : z.fromUtc t = .ok d) :
    d.wall / 1000000 = z.localTime (t / 1000000) := by
  have hwall := (of_fromUtc h).2.1
  unfold localTime WallClock.localTime
  omega

theorem timestampMs_of_second {s : Int} (h : d.wall = s * 1000000) :
    z.timestampMs d = (s - WallClock.utcoffset z.base z.changes s d.fold) * 1000 := by
  have hms : s * 1000000 - WallClock.utcoffset z.base z.changes s d.fold * 1000000 =
      (s - WallClock.utcoffset z.base z.changes s d.fold) * 1000 * 1000 := by ring
  rw [timestampMs, timestamp, utcoffset, h, Int.mul_ediv_cancel _ (by decide), hms,
    Int.mul_tdiv_cancel _ (by decide)]

end ZoneInfo
end EasyModelGate
