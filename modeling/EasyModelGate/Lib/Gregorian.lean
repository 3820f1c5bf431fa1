import Mathlib.Data.Nat.Basic

/-! # The Gregorian calendar

Days are numbered from 1 January of year 1, as `date.toordinal` numbers them. A date is a year, a
month and a day; an ISO week is the year of its Thursday and a number. -/

namespace EasyModelGate
namespace Gregorian

/-! ## Dates -/

def isLeap (year : Nat) : Bool := year % 4 = 0 ∧ (year % 100 ≠ 0 ∨ year % 400 = 0)

/-- How many days a year has over 365. -/
def leapDay (year : Nat) : Nat := if isLeap year then 1 else 0

def daysBeforeYear (year : Nat) : Nat :=
  (year - 1) * 365 + (year - 1) / 4 - (year - 1) / 100 + (year - 1) / 400

def daysInMonth (leap : Bool) : Nat → Nat
  | 2 => if leap then 29 else 28
  | 4 | 6 | 9 | 11 => 30
  | _ => 31

/-- The days of a year before one of its months. -/
def daysBeforeMonth (leap : Bool) (month : Nat) : Nat :=
  [0, 0, 31, 59, 90, 120, 151, 181, 212, 243, 273, 304, 334].getD month 0 +
    if 2 < month ∧ leap then 1 else 0

def ymd2ord (year month day : Nat) : Nat :=
  daysBeforeYear year + daysBeforeMonth (isLeap year) month + day

/-- The year of a day, and how many of its days have passed: cycles of 400, 100, 4 years and 1
year. -/
def yearDay (n : Nat) : Nat × Nat :=
  let n := n - 1
  let n400 := n / 146097
  let n := n % 146097
  let n100 := n / 36524
  let n := n % 36524
  let n4 := n / 1461
  let n := n % 1461
  let n1 := n / 365
  let n := n % 365
  let year := n400 * 400 + n100 * 100 + n4 * 4 + n1 + 1
  -- the last day of a leap year
  if n1 = 4 ∨ n100 = 4 then (year - 1, 365) else (year, n)

/-- The month and the day of the month, when so many days of the year have passed. -/
def monthDay (leap : Bool) (n : Nat) : Nat × Nat :=
  let month := (n + 50) / 32
  if n < daysBeforeMonth leap month then (month - 1, n - daysBeforeMonth leap (month - 1) + 1)
  else (month, n - daysBeforeMonth leap month + 1)

def ord2ymd (n : Nat) : Nat × Nat × Nat :=
  let (year, day) := yearDay n
  (year, monthDay (isLeap year) day)

theorem leapDay_le (year : Nat) : leapDay year ≤ 1 := by
  unfold leapDay
  split <;> decide

theorem daysBeforeYear_eq (k : Nat) : daysBeforeYear (k + 1) + k / 100 = k * 365 +
      k / 4 + k / 400 := by
  unfold daysBeforeYear
  rw [Nat.add_sub_cancel]
  omega

theorem isLeap_iff (year : Nat) : isLeap year = true ↔
    year % 4 = 0 ∧ (year % 100 ≠ 0 ∨ year % 400 = 0) := decide_eq_true_iff

theorem leapDay_eq (year : Nat) :
    leapDay year = 1 ∧ year % 4 = 0 ∧ (year % 100 ≠ 0 ∨ year % 400 = 0) ∨
      leapDay year = 0 ∧ ¬ (year % 4 = 0 ∧ (year % 100 ≠ 0 ∨ year % 400 = 0)) := by
  unfold leapDay
  split
  · rename_i h
    exact .inl ⟨rfl, (isLeap_iff year).mp h⟩
  · rename_i h
    exact .inr ⟨rfl, mt (isLeap_iff year).mpr h⟩

/-- The step of a quotient. -/
theorem succ_div_cases (k d : Nat) :
    (k + 1) / d = k / d ∧ (k + 1) % d ≠ 0 ∨ (k + 1) / d = k / d + 1 ∧ (k + 1) % d = 0 := by
  rw [Nat.succ_div]
  split
  · rename_i h
    exact .inr ⟨rfl, Nat.mod_eq_zero_of_dvd h⟩
  · rename_i h
    exact .inl ⟨rfl, fun h₀ => h (Nat.dvd_of_mod_eq_zero h₀)⟩

theorem daysBeforeYear_succ {year : Nat} (h : 1 ≤ year) :
    daysBeforeYear (year + 1) = daysBeforeYear year + 365 + leapDay year := by
  obtain ⟨k, rfl⟩ := Nat.exists_eq_add_of_le' h
  have h₀ := daysBeforeYear_eq k
  have h₁ := daysBeforeYear_eq (k + 1)
  have hleap := leapDay_eq (k + 1)
  have h₄ := succ_div_cases k 4
  have h₁₀₀ := succ_div_cases k 100
  have h₄₀₀ := succ_div_cases k 400
  have hcentury : (k + 1) % 100 = 0 → (k + 1) % 4 = 0 := by omega
  have hcycle : (k + 1) % 400 = 0 → (k + 1) % 100 = 0 := by omega
  generalize daysBeforeYear (k + 1 + 1) = later at *
  generalize daysBeforeYear (k + 1) = earlier at *
  generalize leapDay (k + 1) = leap at *
  generalize (k + 1) % 4 = m₄ at *
  generalize (k + 1) % 100 = m₁₀₀ at *
  generalize (k + 1) % 400 = m₄₀₀ at *
  generalize (k + 1) / 4 = q₄ at *
  generalize (k + 1) / 100 = q₁₀₀ at *
  generalize (k + 1) / 400 = q₄₀₀ at *
  generalize k / 4 = p₄ at *
  generalize k / 100 = p₁₀₀ at *
  generalize k / 400 = p₄₀₀ at *
  omega

/-- A later year begins after the earlier one has ended. -/
theorem daysBeforeYear_lt {year year' : Nat} (h : 1 ≤ year) (hlt : year < year') :
    daysBeforeYear year + 365 + leapDay year ≤ daysBeforeYear year' := by
  rw [← daysBeforeYear_succ h]
  induction year', hlt using Nat.le_induction with
  | base => exact le_rfl
  | succ k hk ih =>
    have hsucc := daysBeforeYear_succ (show 1 ≤ k by omega)
    omega

/-- A year by its place in the cycles. -/
theorem daysBeforeYear_cycles {a b c d : Nat} (hb : b ≤ 3) (hc : c ≤ 24) (hd : d ≤ 3) :
    daysBeforeYear (a * 400 + b * 100 + c * 4 + d + 1) = a * 146097 + b * 36524 +
      c * 1461 + d * 365 := by
  have h := daysBeforeYear_eq (a * 400 + b * 100 + c * 4 + d)
  have h₄ : (a * 400 + b * 100 + c * 4 + d) / 4 = a * 100 + b * 25 + c := by omega
  have h₁₀₀ : (a * 400 + b * 100 + c * 4 + d) / 100 = a * 4 + b := by omega
  have h₄₀₀ : (a * 400 + b * 100 + c * 4 + d) / 400 = a := by omega
  omega

theorem leapDay_cycles {a b c d : Nat} (hb : b ≤ 3) (hc : c ≤ 24) (hd : d ≤ 3) :
    leapDay (a * 400 + b * 100 + c * 4 + d + 1) = 1 ↔ d = 3 ∧ (c ≠ 24 ∨ b = 3) := by
  have h := leapDay_eq (a * 400 + b * 100 + c * 4 + d + 1)
  omega

/-- A day by its place in the cycles; the last day of a leap year is one more than the others. -/
theorem yearDay_cycles (n : Nat) :
    ∃ a b c d r : Nat, b ≤ 3 ∧ c ≤ 24 ∧ d ≤ 3 ∧ (r < 365 ∨ r = 365 ∧ d = 3 ∧ (c ≠ 24 ∨ b = 3)) ∧
    (n : Int) = a * 146097 + b * 36524 + c * 1461 + d * 365 + r ∧
    yearDay (n + 1) = (a * 400 + b * 100 + c * 4 + d + 1, r) := by
  unfold yearDay
  simp only [Nat.add_sub_cancel]
  have hsum : (n : Int) = (n / 146097 : Nat) * 146097 + (n % 146097 / 36524 : Nat) * 36524 +
      (n % 146097 % 36524 / 1461 : Nat) * 1461 + (n % 146097 % 36524 % 1461 / 365 : Nat) * 365 +
      (n % 146097 % 36524 % 1461 % 365 : Nat) := by omega
  have hr : n % 146097 % 36524 % 1461 % 365 < 365 := Nat.mod_lt _ (by decide)
  have hc : n % 146097 % 36524 / 1461 ≤ 24 := by omega
  have hb : n % 146097 / 36524 ≤ 3 ∨ n % 146097 / 36524 = 4 ∧ n % 146097 % 36524 / 1461 = 0 ∧
      n % 146097 % 36524 % 1461 / 365 = 0 ∧ n % 146097 % 36524 % 1461 % 365 = 0 := by omega
  have hd : n % 146097 % 36524 % 1461 / 365 ≤ 3 ∨
      n % 146097 % 36524 % 1461 / 365 = 4 ∧ n % 146097 % 36524 % 1461 % 365 = 0 ∧
        (n % 146097 % 36524 / 1461 ≠ 24 ∨ n % 146097 / 36524 = 3) := by omega
  generalize n % 146097 % 36524 % 1461 % 365 = r at *
  generalize n % 146097 % 36524 % 1461 / 365 = d at *
  generalize n % 146097 % 36524 / 1461 = c at *
  generalize n % 146097 / 36524 = b at *
  generalize n / 146097 = a at *
  rcases hb with hb | ⟨hb, hc₀, hd₀, hr₀⟩
  · rcases hd with hd | ⟨rfl, rfl, hcentury⟩
    · rw [if_neg (by omega)]
      exact ⟨a, b, c, d, r, hb, hc, hd, .inl hr, hsum, rfl⟩
    · rw [if_pos (.inl rfl)]
      exact ⟨a, b, c, 3, 365, hb, hc, le_rfl, .inr ⟨rfl, rfl, hcentury⟩,
        by omega, congrArg (·, 365) (by omega)⟩
  · rw [if_pos (.inr hb)]
    have hyear : a * 400 + b * 100 + c * 4 + d = a * 400 + 3 * 100 + 24 * 4 + 3 + 1 := by omega
    rw [hyear]
    exact ⟨a, 3, 24, 3, 365, le_rfl, le_rfl, le_rfl, .inr ⟨rfl, rfl, .inr rfl⟩, by omega, rfl⟩

theorem yearDay_spec {n : Nat} (hn : 1 ≤ n) :
    1 ≤ (yearDay n).1 ∧ (yearDay n).2 < 365 + leapDay (yearDay n).1 ∧
      daysBeforeYear (yearDay n).1 + (yearDay n).2 + 1 = n := by
  obtain ⟨n, rfl⟩ := Nat.exists_eq_add_of_le' hn
  obtain ⟨a, b, c, d, r, hb, hc, hd, hr, hsum, hyear⟩ := yearDay_cycles n
  have hleap := leapDay_cycles (a := a) hb hc hd
  rw [hyear]
  dsimp only
  rw [daysBeforeYear_cycles hb hc hd]
  omega

theorem monthDay_spec : ∀ leap, ∀ n < 365 + (if leap then 1 else 0), 1 ≤ (monthDay leap n).1 ∧
    (monthDay leap n).1 ≤ 12 ∧
    1 ≤ (monthDay leap n).2 ∧ (monthDay leap n).2 ≤ daysInMonth leap (monthDay leap n).1 ∧
    daysBeforeMonth leap (monthDay leap n).1 + (monthDay leap n).2 = n + 1 := by decide +kernel

theorem daysInMonth_le : ∀ leap, ∀ month ≤ 12, 1 ≤ month →
    daysBeforeMonth leap month + daysInMonth leap month ≤ 365 + (if leap then 1 else 0) := by decide

theorem daysBeforeMonth_lt : ∀ leap, ∀ month' ≤ 12, ∀ month < month', 1 ≤ month →
    daysBeforeMonth leap month + daysInMonth leap month ≤ daysBeforeMonth leap month' := by decide

/-- A date of the calendar. -/
structure Valid (year month day : Nat) : Prop where
  year_pos : 1 ≤ year
  month_pos : 1 ≤ month
  month_le : month ≤ 12
  day_pos : 1 ≤ day
  day_le : day ≤ daysInMonth (isLeap year) month

theorem leapDay_if (year : Nat) : leapDay year = if isLeap year then 1 else 0 := rfl

/-- **Round trip**: the date of a day is a date, and the day of that date. -/
theorem ord2ymd_spec {n : Nat} (hn : 1 ≤ n) : Valid (ord2ymd n).1 (ord2ymd n).2.1 (ord2ymd n).2.2 ∧
    ymd2ord (ord2ymd n).1 (ord2ymd n).2.1 (ord2ymd n).2.2 = n := by
  obtain ⟨hyear, hday, hsum⟩ := yearDay_spec hn
  obtain ⟨hmonth, hmonth', hd, hd', hdays⟩ :=
    monthDay_spec (isLeap (yearDay n).1) (yearDay n).2 hday
  refine ⟨⟨hyear, hmonth, hmonth', hd, hd'⟩, ?_⟩
  unfold ymd2ord ord2ymd
  dsimp only
  omega

/-- An earlier month ends before a later one begins. -/
theorem ymd2ord_lt {year month day : Nat} (h : Valid year month day) (year' month' : Nat)
    (hmonth' : month' ≤ 12) (hlt : year < year' ∨ year = year' ∧ month < month') :
    ymd2ord year month day < ymd2ord year' month' 1 := by
  have hday := h.day_le
  unfold ymd2ord
  rcases hlt with hlt | ⟨rfl, hlt⟩
  · have hyear := daysBeforeYear_lt h.year_pos hlt
    have hin := daysInMonth_le (isLeap year) month h.month_le h.month_pos
    rw [leapDay_if] at hyear
    omega
  · have hmonth := daysBeforeMonth_lt (isLeap year) month' hmonth' month hlt h.month_pos
    omega

theorem ymd2ord_day (year month day : Nat) (h : 1 ≤ day) :
    ymd2ord year month day = ymd2ord year month 1 + (day - 1) := by
  unfold ymd2ord
  omega

/-- Later days have later dates. -/
theorem ord2ymd_lt {n n' : Nat} (hn : 1 ≤ n) (hlt : n < n') : (ord2ymd n).1 < (ord2ymd n').1 ∨
    (ord2ymd n).1 = (ord2ymd n').1 ∧ ((ord2ymd n).2.1 < (ord2ymd n').2.1 ∨
      (ord2ymd n).2.1 = (ord2ymd n').2.1 ∧ (ord2ymd n).2.2 < (ord2ymd n').2.2) := by
  obtain ⟨hvalid, hord⟩ := ord2ymd_spec hn
  obtain ⟨hvalid', hord'⟩ := ord2ymd_spec (show 1 ≤ n' by omega)
  have hback := ymd2ord_lt hvalid' (ord2ymd n).1 (ord2ymd n).2.1 hvalid.month_le
  have hday := ymd2ord_day (ord2ymd n).1 (ord2ymd n).2.1 _ hvalid.day_pos
  have hday' := ymd2ord_day (ord2ymd n').1 (ord2ymd n').2.1 _ hvalid'.day_pos
  by_cases hmonth : (ord2ymd n').1 < (ord2ymd n).1 ∨ (ord2ymd n').1 = (ord2ymd n).1 ∧
    (ord2ymd n').2.1 < (ord2ymd n).2.1
  · have := hback hmonth
    omega
  · by_cases hsame : (ord2ymd n).1 = (ord2ymd n').1 ∧ (ord2ymd n).2.1 = (ord2ymd n').2.1
    · rw [hsame.1, hsame.2] at hday hord
      have := hvalid.day_pos
      have := hvalid'.day_pos
      omega
    · omega

/-! ### Months -/

/-- The first day of the month of a day. -/
def firstOfMonth (n : Nat) : Nat := ymd2ord (ord2ymd n).1 (ord2ymd n).2.1 1

/-- The first day of the month after it. -/
def nextMonth (n : Nat) : Nat := firstOfMonth n + daysInMonth (isLeap (ord2ymd n).1) (ord2ymd n).2.1

theorem month_eq_iff {n n' : Nat} (hn : 1 ≤ n) (hn' : 1 ≤ n') :
    (ord2ymd n').1 = (ord2ymd n).1 ∧ (ord2ymd n').2.1 = (ord2ymd n).2.1 ↔
    firstOfMonth n ≤ n' ∧ n' < nextMonth n := by
  obtain ⟨hvalid, hord⟩ := ord2ymd_spec hn
  obtain ⟨hvalid', hord'⟩ := ord2ymd_spec hn'
  have hday' := ymd2ord_day (ord2ymd n').1 (ord2ymd n').2.1 _ hvalid'.day_pos
  unfold nextMonth firstOfMonth
  constructor
  · rintro ⟨hyear, hmonth⟩
    have hle := hvalid'.day_le
    have hge := hvalid'.day_pos
    rw [hyear, hmonth] at hday' hord' hle
    omega
  · rintro ⟨hge, hlt⟩
    have hbefore := ymd2ord_lt hvalid' (ord2ymd n).1 (ord2ymd n).2.1 hvalid.month_le
    have hlast : Valid (ord2ymd n).1 (ord2ymd n).2.1
        (daysInMonth (isLeap (ord2ymd n).1) (ord2ymd n).2.1) :=
      { hvalid with day_pos := Nat.le_trans hvalid.day_pos hvalid.day_le, day_le := le_rfl }
    have hafter := ymd2ord_lt hlast (ord2ymd n').1 (ord2ymd n').2.1 hvalid'.month_le
    have hday := ymd2ord_day (ord2ymd n).1 (ord2ymd n).2.1 _ hlast.day_pos
    have hpos := hlast.day_pos
    omega

/-! ## Weeks -/

/-- `date.weekday()`: Monday is 0. -/
def weekday (n : Nat) : Nat := (n + 6) % 7

/-- The Monday of the first ISO week of a year: the week of the first Thursday. -/
def isoWeek1Monday (year : Nat) : Nat :=
  let firstDay := daysBeforeYear year + 1
  firstDay - weekday firstDay + if 3 < weekday firstDay then 7 else 0

/-- `date.isocalendar()`: the ISO year and the ISO week. -/
def isocalendar (n : Nat) : Nat × Nat :=
  let year := (yearDay n).1
  if n < isoWeek1Monday year then (year - 1, (n - isoWeek1Monday (year - 1)) / 7 + 1)
  else if 52 ≤ (n - isoWeek1Monday year) / 7 ∧ isoWeek1Monday (year + 1) ≤ n then (year + 1, 1)
  else (year, (n - isoWeek1Monday year) / 7 + 1)

theorem isoWeek1Monday_spec (year : Nat) : isoWeek1Monday year % 7 = 1 ∧
    daysBeforeYear year ≤ isoWeek1Monday year + 2 ∧
    isoWeek1Monday year ≤ daysBeforeYear year + 4 := by
  unfold isoWeek1Monday weekday
  dsimp only
  split <;> omega

theorem isoWeek1Monday_succ {year : Nat} (h : 1 ≤ year) :
    isoWeek1Monday year + 364 ≤ isoWeek1Monday (year + 1) := by
  obtain ⟨hmonday, hge, hle⟩ := isoWeek1Monday_spec year
  obtain ⟨hmonday', hge', hle'⟩ := isoWeek1Monday_spec (year + 1)
  have hyear := daysBeforeYear_succ h
  omega

theorem isoWeek1Monday_mono {year year' : Nat} (h : 1 ≤ year) (hle : year ≤ year') :
    isoWeek1Monday year ≤ isoWeek1Monday year' := by
  induction year', hle using Nat.le_induction with
  | base => exact le_rfl
  | succ k hk ih =>
    have hsucc := isoWeek1Monday_succ (show 1 ≤ k by omega)
    omega

/-- A day lies in the ISO year of its calendar year, the one before or the one after. -/
theorem isocalendar_cases {n : Nat} (hn : 1 ≤ n) : ∃ year, 1 ≤ year ∧ isoWeek1Monday year ≤ n ∧
    n < isoWeek1Monday (year + 1) ∧ isocalendar n = (year, (n - isoWeek1Monday year) / 7 + 1) := by
  obtain ⟨hyear, hday, hsum⟩ := yearDay_spec hn
  unfold isocalendar
  generalize (yearDay n).1 = year at *
  generalize (yearDay n).2 = day at *
  have hleap := leapDay_le year
  have hsucc := daysBeforeYear_succ hyear
  obtain ⟨-, hge, hle⟩ := isoWeek1Monday_spec year
  obtain ⟨-, hge', hle'⟩ := isoWeek1Monday_spec (year + 1)
  dsimp only
  by_cases hbefore : n < isoWeek1Monday year
  · rw [if_pos hbefore]
    have hfirst : year ≠ 1 := by
      rintro rfl
      have hmonday : isoWeek1Monday 1 = 1 := by decide
      omega
    obtain ⟨p, rfl⟩ := Nat.exists_eq_add_of_le' hyear
    have hp : 1 ≤ p := by omega
    have hprevious := daysBeforeYear_succ hp
    obtain ⟨-, -, hle₀⟩ := isoWeek1Monday_spec p
    exact ⟨p, hp, by omega, hbefore, rfl⟩
  · rw [if_neg hbefore]
    by_cases hnext : 52 ≤ (n - isoWeek1Monday year) / 7 ∧ isoWeek1Monday (year + 1) ≤ n
    · rw [if_pos hnext]
      have hlater := daysBeforeYear_succ (show 1 ≤ year + 1 by omega)
      obtain ⟨-, hge₂, -⟩ := isoWeek1Monday_spec (year + 1 + 1)
      have hweek : (n - isoWeek1Monday (year + 1)) / 7 = 0 := by omega
      exact ⟨year + 1, by omega, hnext.2, by omega, by rw [hweek]⟩
    · rw [if_neg hnext]
      have hweeks := isoWeek1Monday_succ hyear
      exact ⟨year, hyear, by omega, by omega, rfl⟩

theorem isocalendar_spec {n : Nat} (hn : 1 ≤ n) :
    1 ≤ (isocalendar n).1 ∧ isoWeek1Monday (isocalendar n).1 ≤ n ∧
    n < isoWeek1Monday ((isocalendar n).1 + 1) ∧
    (isocalendar n).2 = (n - isoWeek1Monday (isocalendar n).1) / 7 + 1 := by
  obtain ⟨year, hyear, hge, hlt, heq⟩ := isocalendar_cases hn
  rw [heq]
  exact ⟨hyear, hge, hlt, rfl⟩

theorem isocalendar_week_le {n : Nat} (hn : 1 ≤ n) : (isocalendar n).2 ≤ 53 := by
  obtain ⟨hyear, hge, hlt, hweek⟩ := isocalendar_spec hn
  have hleap := leapDay_le (isocalendar n).1
  have hsucc := daysBeforeYear_succ hyear
  obtain ⟨hmonday, hge, -⟩ := isoWeek1Monday_spec (isocalendar n).1
  obtain ⟨hmonday', -, hle'⟩ := isoWeek1Monday_spec ((isocalendar n).1 + 1)
  rw [hweek]
  omega

/-- **Two days are in one ISO week when they follow the same Monday.** -/
theorem isocalendar_eq_iff {n n' : Nat} (hn : 1 ≤ n) (hn' : 1 ≤ n') :
    isocalendar n = isocalendar n' ↔ (n - 1) / 7 = (n' - 1) / 7 := by
  obtain ⟨hyear, hge, hlt, hweek⟩ := isocalendar_spec hn
  obtain ⟨hyear', hge', hlt', hweek'⟩ := isocalendar_spec hn'
  obtain ⟨hmonday, -, -⟩ := isoWeek1Monday_spec (isocalendar n).1
  obtain ⟨hmonday', -, -⟩ := isoWeek1Monday_spec (isocalendar n').1
  constructor
  · intro heq
    rw [← heq] at hge' hweek'
    omega
  · intro heq
    have hsame : (isocalendar n).1 = (isocalendar n').1 := by
      obtain ⟨hnext, -, -⟩ := isoWeek1Monday_spec ((isocalendar n).1 + 1)
      obtain ⟨hnext', -, -⟩ := isoWeek1Monday_spec ((isocalendar n').1 + 1)
      by_contra hne
      rcases Nat.lt_or_gt_of_ne hne with hlt₂ | hlt₂
      · have := isoWeek1Monday_mono (by omega) (show _ + 1 ≤ _ from hlt₂)
        omega
      · have := isoWeek1Monday_mono (by omega) (show _ + 1 ≤ _ from hlt₂)
        omega
    refine Prod.ext hsame ?_
    rw [hweek, hweek', ← hsame]
    rw [← hsame] at hge'
    omega

end Gregorian
end EasyModelGate
