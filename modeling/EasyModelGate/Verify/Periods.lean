import EasyModelGate.Verify.Datetime

/-! # Periods and the buckets of now

A period begins where the wall clock says it does, on a wall clock that may have been set back or
forward since. -/

namespace EasyModelGate

/-- The name of a period. -/
def Period.name : Period → Str
  | .today => str "today"
  | .yesterday => str "yesterday"
  | .last24h => str "24h"
  | .last7d => str "7d"
  | .week => str "week"
  | .month => str "month"
  | .all => str "all"

def Period.group : Period → Granularity
  | .today | .yesterday | .last24h => .hour
  | .last7d | .week | .month | .all => .day

/-- The period that is the bucket of now, so far. -/
def Granularity.period : Granularity → Option Period
  | .hour => none
  | .day => some .today
  | .week => some .week
  | .month => some .month

/-- The length of a rolling period, in microseconds. -/
def Period.window : Period → Option Int
  | .last24h => some 86400000000
  | .last7d => some 604800000000
  | _ => none

open UsageService (TimeRange resolveTimeRange)

/-- `start <= ts < end` -/
def UsageService.TimeRange.Holds (r : TimeRange) (ts : Int) : Prop :=
  (∀ s ∈ r.1, s ≤ ts) ∧ ∀ e ∈ r.2.1, ts < e

theorem resolveTimeRange_name (cal : Calendar) (clk : Clock) (p : Period) :
    resolveTimeRange cal clk (some p.name) none none = (cal.startOf p clk).map fun start =>
      (start, if p = .yesterday then start.map (· + 86400000) else none, some p.group) := by
  cases p <;> rfl

/-- At a full second. -/
theorem Clock.nowUs_of_seconds (mono : ℚ) (n : Nat) : (Clock.mk mono n).nowUs = n * 1000000 := by
  have hwall : (n : ℚ) * 1000000 = ((n * 1000000 : Int) : ℚ) := by
    push_cast
    rfl
  rw [Clock.nowUs, hwall, Int.floor_intCast]

namespace Sample

/-- America/Havana in 2024: on 3 November the clocks are set back from 1:00 to 0:00. -/
def havana : ZoneInfo where
  base := -18000
  changes := [⟨1710046800, -14400⟩, ⟨1730610000, -18000⟩]
  ordered := by decide
  base_lt := by decide
  offset_lt := by decide
  within := by decide

def noTimes : Str → Except PyExn Int := fun _ => .error .valueError

/-- 1 July, 8:00. -/
def summer : Clock := ⟨0, 1719835200⟩
def summerTime : Datetime := ⟨1719820800000000, false, by decide, by decide⟩

/-- 3 November, 0:30 for the second time. -/
def night : Clock := ⟨0, 1730611800⟩
def nightTime : Datetime := ⟨1730593800000000, true, by decide, by decide⟩

/-- 4 November, 7:00. -/
def dayAfter : Clock := ⟨0, 1730721600⟩

/-- 3 November, 7:00. -/
def morning : Clock := ⟨0, 1730635200⟩

theorem nowUs_summer : summer.nowUs = 1719835200000000 := Clock.nowUs_of_seconds 0 1719835200
theorem nowUs_night : night.nowUs = 1730611800000000 := Clock.nowUs_of_seconds 0 1730611800
theorem nowUs_dayAfter : dayAfter.nowUs = 1730721600000000 := Clock.nowUs_of_seconds 0 1730721600
theorem nowUs_morning : morning.nowUs = 1730635200000000 := Clock.nowUs_of_seconds 0 1730635200

theorem now_summer : havana.now summer = .ok summerTime := by
  rw [ZoneInfo.now, nowUs_summer]
  rfl

theorem now_night : havana.now night = .ok nightTime := by
  rw [ZoneInfo.now, nowUs_night]
  rfl

theorem now_dayAfter : havana.now dayAfter =
      .ok ⟨1730703600000000, false, by decide, by decide⟩ := by
  rw [ZoneInfo.now, nowUs_dayAfter]
  rfl

theorem now_morning : havana.now morning = .ok ⟨1730617200000000, false, by decide, by decide⟩ := by
  rw [ZoneInfo.now, nowUs_morning]
  rfl

end Sample

namespace ZoneInfo
variable {z : ZoneInfo} {clk : Clock} {now : Datetime} {p : Period} {g : Granularity}

theorem resolveTimeRange_of_now (parse : Str → Except PyExn Int) (hnow : z.now clk = .ok now)
    (p : Period) :
    resolveTimeRange (z.calendar parse) clk (some p.name) none none =
      (z.periodStart now p).map fun start =>
      (start, if p = .yesterday then start.map (· + 86400000) else none, some p.group) := by
  rw [resolveTimeRange_name, calendar]
  dsimp only
  rw [hnow]
  rfl

theorem bucketKey_ok {ts : Int} {key : Str} :
    z.bucketKey g ts = .ok key ↔ ∃ d, z.fromUtc (ts * 1000) = .ok d ∧ d.bucketKey g = key := by
  unfold bucketKey fromtimestamp
  cases z.fromUtc (ts * 1000) with
  | error e => simp
  | ok d => simp

/-! ## Periods and buckets -/

theorem startOfDay_eq (n : Nat) : Datetime.startOfDay n = Datetime.secondOfDay n * 1000000 := by
  unfold Datetime.startOfDay Datetime.secondOfDay
  ring

/-- The Monday of the week of now, at midnight. -/
theorem sub_weekday (now : Datetime) : ∃ d, now.midnight.sub (now.weekday * 86400000000) = .ok d ∧
    d.wall = now.bucketBegin .week * 1000000 ∧ d.fold = false := by
  have hpos := now.ordinal_pos
  have hweekday : now.weekday + 1 ≤ now.ordinal := by
    unfold Datetime.weekday Gregorian.weekday
    omega
  have hwall : Datetime.startOfDay now.ordinal - now.weekday * 86400000000 =
      now.bucketBegin .week * 1000000 := by
    unfold Datetime.bucketBegin Datetime.startOfDay Datetime.secondOfDay
    push_cast [show now.weekday ≤ now.ordinal by omega]
    ring
  have hmin : minWall ≤ Datetime.startOfDay now.ordinal - now.weekday * 86400000000 := by
    unfold Datetime.startOfDay minWall
    omega
  have hmax : Datetime.startOfDay now.ordinal - now.weekday * 86400000000 < maxWall := by
    have hle := now.startOfDay_le
    have hlt := now.lt_max
    omega
  exact ⟨⟨_, _, hmin, hmax⟩, dif_pos ⟨hmin, hmax⟩, hwall, rfl⟩

/-- The fold with which `resolve_time_range` takes the beginning of a period: a subtraction forgets
it. -/
def startFold (now : Datetime) (g : Granularity) : Bool := now.fold && g ≠ .week

/-- Where the bucket of now begins, as `resolve_time_range` takes it. -/
theorem periodStart_bucket (hp : g.period = some p) :
    z.periodStart now p = .ok (some ((now.bucketBegin g -
      WallClock.utcoffset z.base z.changes (now.bucketBegin g) (startFold now g)) * 1000)) := by
  cases g with
  | hour => cases hp
  | day =>
    cases hp
    rw [periodStart, timestampMs_of_second (startOfDay_eq _)]
    simp [startFold, Datetime.midnight, Datetime.bucketBegin]
  | week =>
    cases hp
    obtain ⟨d, hsub, hwall, hfold⟩ := sub_weekday now
    rw [periodStart, hsub]
    change Except.ok (some (z.timestampMs d)) = _
    rw [timestampMs_of_second hwall, hfold]
    simp [startFold]
  | month =>
    cases hp
    rw [periodStart, timestampMs_of_second (startOfDay_eq _)]
    simp [startFold, Datetime.firstOfMonth, Datetime.bucketBegin]

/-- An offset of the zone is less than a day. -/
theorem offset_bounds {offset : Int} (h : offset = z.base ∨ ∃ c ∈ z.changes, offset = c.offset) :
    -86400 < offset ∧ offset < 86400 := by
  rcases h with rfl | ⟨c, hc, rfl⟩
  · exact z.base_lt
  · exact z.offset_lt c hc

theorem known_of_near {w : Int × Change} (hw : w ∈ WallClock.windows z.base z.changes) {t : Int}
    (h : WallClock.Near w t) : z.Known t := by
  have hchange := (WallClock.mem_windows hw).1
  obtain ⟨hlo, hhi⟩ := offset_bounds (WallClock.mem_windows hw).2
  obtain ⟨hlo', hhi'⟩ := z.offset_lt w.2 hchange
  obtain ⟨hmin, hmax⟩ := z.within w.2 hchange
  obtain ⟨hlocal, hlocal'⟩ := offset_bounds (WallClock.offsetAt_mem z.base z.changes t)
  unfold WallClock.Near at h
  unfold Known localTime WallClock.localTime
  omega

/-- The timestamps up to now in the range are those with the key of now. -/
def Agrees (z : ZoneInfo) (clk : Clock) (r : TimeRange) (g : Granularity) (now : Datetime) : Prop :=
  ∀ ts key, ts * 1000 ≤ clk.nowUs → z.bucketKey g ts = .ok key →
    (r.Holds ts ↔ key = now.bucketKey g)

/-- In seconds. -/
theorem agrees_iff {start : Int} {group : Option Granularity} :
    z.Agrees clk (some (start * 1000), none, group) g now ↔ ∀ t ≤ clk.nowUs / 1000000, z.Known t →
      (start ≤ t ↔ now.bucketBegin g ≤ z.localTime t ∧ z.localTime t < now.bucketEnd g) := by
  have hholds (ts : Int) : TimeRange.Holds (some (start * 1000), none, group) ts ↔
      start ≤ ts / 1000 := by
    simp only [TimeRange.Holds, Option.mem_some_iff, forall_eq', Option.not_mem_none, false_imp_iff,
      implies_true, and_true]
    omega
  constructor
  · intro hagrees t ht hknown
    have hsecond : t * 1000 * 1000 / 1000000 = t := by omega
    obtain ⟨d, hd⟩ := Known.fromUtc (t := t * 1000 * 1000) (by rwa [hsecond])
    have hkey := hagrees (t * 1000) (d.bucketKey g) (by omega) (bucketKey_ok.mpr ⟨d, hd, rfl⟩)
    rw [hholds, Datetime.bucketKey_eq_iff, wall_of_fromUtc hd, hsecond,
      Int.mul_ediv_cancel _ (by decide)] at hkey
    exact hkey
  · intro hseconds ts key hts hkey
    obtain ⟨d, hd, rfl⟩ := bucketKey_ok.mp hkey
    have hsecond : ts * 1000 / 1000000 = ts / 1000 := by omega
    rw [hholds, Datetime.bucketKey_eq_iff, wall_of_fromUtc hd, hsecond]
    apply hseconds
    · omega
    · rw [← hsecond]
      exact (of_fromUtc hd).1

/-- **Periods and buckets**: a period that is a bucket so far holds just the timestamps of the
bucket, exactly when

* the wall time at which the bucket begins is taken at its first occurrence and, if a change of
offset skips or repeats it, the change does so from that wall time on or is still to come;
* no change that skips or repeats the wall time at which the bucket ends has come. -/
theorem period_agrees_iff (z : ZoneInfo) (parse : Str → Except PyExn Int) (clk : Clock)
    (now : Datetime) (hnow : z.now clk = .ok now) (g : Granularity) (p : Period)
    (hp : g.period = some p) :
    (∀ r, resolveTimeRange (z.calendar parse) clk (some p.name) none none = .ok r →
      z.Agrees clk r g now) ↔
      WallClock.Begins z.base z.changes (now.bucketBegin g) (clk.nowUs / 1000000)
        (startFold now g) ∧
        WallClock.Ends z.base z.changes (now.bucketEnd g) (clk.nowUs / 1000000) := by
  have hresolve : resolveTimeRange (z.calendar parse) clk (some p.name) none none = .ok
      (some ((now.bucketBegin g - WallClock.utcoffset z.base z.changes (now.bucketBegin g)
        (startFold now g)) * 1000), none,
        some p.group) := by
    rw [resolveTimeRange_of_now parse hnow, periodStart_bucket hp]
    cases g <;> cases hp <;> rfl
  have hlocal := wall_of_fromUtc hnow
  have hbegin := now.bucketBegin_le g
  have hend := now.lt_bucketEnd g
  rw [hlocal] at hbegin hend
  rw [← WallClock.span_iff z.ordered (hbegin.trans_lt hend) hbegin hend (of_fromUtc hnow).1
    fun w hw t _ hnear => known_of_near hw hnear]
  constructor
  · intro hagrees
    exact agrees_iff.mp (hagrees _ hresolve)
  · intro hseconds r hr
    rw [hresolve] at hr
    cases hr
    exact agrees_iff.mpr hseconds

theorem period_agrees_iff_summer :
    Sample.havana.Agrees Sample.summer (some 1719806400000, none, some .hour) .day
      Sample.summerTime :=
  (period_agrees_iff Sample.havana Sample.noTimes Sample.summer Sample.summerTime Sample.now_summer
    .day .today rfl).mpr
    (by decide) _ ((resolveTimeRange_of_now Sample.noTimes Sample.now_summer .today).trans rfl)

/-- At 0:30 for the second time, a request of 0:30 for the first time is not one of today. -/
theorem period_disagrees : ¬ ∀ r,
    resolveTimeRange (Sample.havana.calendar Sample.noTimes) Sample.night (some (str "today")) none
      none = .ok r →
      Sample.havana.Agrees Sample.night r .day Sample.nightTime := by
  intro hagrees
  have hrange : resolveTimeRange (Sample.havana.calendar Sample.noTimes) Sample.night
      (some (str "today")) none none =
      .ok (some 1730610000000, none, some .hour) :=
    (resolveTimeRange_of_now Sample.noTimes Sample.now_night .today).trans rfl
  have hkey : Sample.havana.bucketKey .day 1730608200000 = .ok (Sample.nightTime.bucketKey .day) :=
    rfl
  have hbefore : (1730608200000 : Int) * 1000 ≤ Sample.night.nowUs := by
    rw [Sample.nowUs_night]
    decide
  have hheld := ((hagrees _ hrange) _ _ hbefore hkey).mpr rfl
  exact absurd (hheld.1 _ rfl) (by decide)

/-! ## Yesterday and today -/

theorem of_sub {delta : Int} {d : Datetime} (h : now.sub delta = .ok d) :
    d.wall = now.wall - delta ∧ d.fold = false := by
  unfold Datetime.sub Datetime.ofWall at h
  split at h
  · cases h
    exact ⟨rfl, rfl⟩
  · cases h

/-- **Yesterday and today**: the end of the one is the beginning of the other exactly when the
offset at the last midnight is the one at the midnight before. -/
theorem yesterday_tiles_iff (z : ZoneInfo) (parse : Str → Except PyExn Int) (clk : Clock)
    (now : Datetime) (hnow : z.now clk = .ok now) :
    (∀ yesterday today, resolveTimeRange (z.calendar parse) clk (some (str "yesterday")) none none =
      .ok yesterday →
        resolveTimeRange (z.calendar parse) clk (some (str "today")) none none = .ok today →
        ∃ t, yesterday.2.1 = some t ∧ today.1 = some t) ↔
      ∀ midnight, now.midnight.sub 86400000000 = .ok midnight →
        z.utcoffset midnight = z.utcoffset now.midnight := by
  have htoday := resolveTimeRange_of_now parse hnow .today
  have hyesterday := resolveTimeRange_of_now parse hnow .yesterday
  have hsecond : now.midnight.wall = now.bucketBegin .day * 1000000 := startOfDay_eq _
  rw [periodStart, timestampMs_of_second hsecond] at htoday
  rw [periodStart] at hyesterday
  change resolveTimeRange _ _ (some (str "today")) none none = _ at htoday
  change resolveTimeRange _ _ (some (str "yesterday")) none none = _ at hyesterday
  rw [htoday, hyesterday]
  cases hsub : now.midnight.sub 86400000000 with
  | error e =>
    constructor
    · rintro - midnight ⟨⟩
    · rintro - yesterday today ⟨⟩
  | ok midnight =>
    obtain ⟨hwall, hfold⟩ := of_sub hsub
    have hbefore : midnight.wall = (now.bucketBegin .day - 86400) * 1000000 := by
      rw [hwall, hsecond]
      ring
    have hoffset : z.utcoffset midnight =
        WallClock.utcoffset z.base z.changes (now.bucketBegin .day - 86400) midnight.fold := by
      rw [utcoffset, hbefore, Int.mul_ediv_cancel _ (by decide)]
    have hoffset' : z.utcoffset now.midnight =
        WallClock.utcoffset z.base z.changes (now.bucketBegin .day) now.midnight.fold := by
      rw [utcoffset, hsecond, Int.mul_ediv_cancel _ (by decide)]
    constructor
    · intro htiles d hd
      cases hd
      obtain ⟨t, hend, hstart⟩ := htiles _ _ rfl rfl
      change some (z.timestampMs midnight + 86400000) = some t at hend
      rw [timestampMs_of_second hbefore, ← hoffset] at hend
      rw [← hoffset'] at hstart
      simp only [Option.some.injEq] at hend hstart
      omega
    · rintro hsame yesterday today ⟨⟩ ⟨⟩
      refine ⟨_, ?_, rfl⟩
      change some (z.timestampMs midnight + 86400000) = _
      have hsame := hsame midnight rfl
      rw [timestampMs_of_second hbefore, ← hoffset, ← hoffset', hsame]
      exact congrArg some (by ring)

theorem yesterday_tiles_iff_summer : ∃ yesterday today,
    resolveTimeRange (Sample.havana.calendar Sample.noTimes) Sample.summer (some (str "yesterday"))
      none none = .ok yesterday ∧
      resolveTimeRange (Sample.havana.calendar Sample.noTimes) Sample.summer (some (str "today"))
        none none = .ok today ∧
      ∃ t, yesterday.2.1 = some t ∧ today.1 = some t := by
  have hyesterday : resolveTimeRange (Sample.havana.calendar Sample.noTimes) Sample.summer
      (some (str "yesterday")) none none =
      .ok (some 1719720000000, some 1719806400000, some .hour) :=
    (resolveTimeRange_of_now Sample.noTimes Sample.now_summer .yesterday).trans rfl
  have htoday : resolveTimeRange (Sample.havana.calendar Sample.noTimes) Sample.summer
      (some (str "today")) none none =
      .ok (some 1719806400000, none, some .hour) :=
    (resolveTimeRange_of_now Sample.noTimes Sample.now_summer .today).trans rfl
  refine ⟨_, _, hyesterday, htoday, ?_⟩
  refine (yesterday_tiles_iff Sample.havana Sample.noTimes Sample.summer Sample.summerTime
    Sample.now_summer).mpr ?_ _ _
    hyesterday htoday
  intro midnight hmidnight
  have hday : Sample.summerTime.midnight.sub 86400000000 =
      .ok ⟨1719705600000000, false, by decide, by decide⟩ := by
    have hmidnight : Sample.summerTime.midnight = ⟨1719792000000000, false, by decide, by decide⟩ :=
      rfl
    rw [hmidnight]
    rfl
  rw [hday] at hmidnight
  cases hmidnight
  decide

/-- The 25th hour of 3 November is neither yesterday nor today on 4 November. -/
theorem yesterday_leaves_gap : ¬ ∀ yesterday today,
    resolveTimeRange (Sample.havana.calendar Sample.noTimes) Sample.dayAfter
      (some (str "yesterday")) none none =
        .ok yesterday →
      resolveTimeRange (Sample.havana.calendar Sample.noTimes) Sample.dayAfter (some (str "today"))
          none none = .ok today →
      ∃ t, yesterday.2.1 = some t ∧ today.1 = some t := by
  intro htiles
  obtain ⟨t, hend, hstart⟩ := htiles (some 1730606400000, some 1730692800000, some .hour)
    (some 1730696400000, none, some .hour)
    ((resolveTimeRange_of_now Sample.noTimes Sample.now_dayAfter .yesterday).trans rfl)
    ((resolveTimeRange_of_now Sample.noTimes Sample.now_dayAfter .today).trans rfl)
  cases hend
  cases hstart

/-! ## Rolling periods -/

theorem timestampMs_inj {a k : Int} : (a + k * 1000000).tdiv 1000 = a.tdiv 1000 ↔ k = 0 := by
  constructor
  · intro h
    have hdiv := Int.mul_tdiv_add_tmod a 1000
    have hdiv' := Int.mul_tdiv_add_tmod (a + k * 1000000) 1000
    have hlt := Int.tmod_lt_of_pos a (show 0 < 1000 by decide)
    have hlt' := Int.tmod_lt_of_pos (a + k * 1000000) (show 0 < 1000 by decide)
    have hgt := Int.lt_tmod_of_pos a (show 0 < 1000 by decide)
    have hgt' := Int.lt_tmod_of_pos (a + k * 1000000) (show 0 < 1000 by decide)
    rw [h] at hdiv'
    omega
  · rintro rfl
    rw [zero_mul, add_zero]

/-- **Rolling periods**: one has its length exactly when the offset at its beginning, a wall time,
is the one now. -/
theorem rolling_iff (z : ZoneInfo) (parse : Str → Except PyExn Int) (clk : Clock) (now : Datetime)
    (hnow : z.now clk = .ok now) (p : Period) (window : Int) (hp : p.window = some window) :
    resolveTimeRange (z.calendar parse) clk (some p.name) none none =
        .ok (some ((clk.nowUs - window).tdiv 1000), none, some p.group) ↔
      ∃ d, now.sub window = .ok d ∧ z.utcoffset d =
          WallClock.offsetAt z.base z.changes (clk.nowUs / 1000000) := by
  have hresolve : resolveTimeRange (z.calendar parse) clk (some p.name) none none =
      (now.sub window).map fun d => (some (z.timestampMs d), none, some p.group) := by
    rw [resolveTimeRange_of_now parse hnow]
    cases p <;> cases hp <;> rw [periodStart]
    · cases now.sub 86400000000 <;> rfl
    · cases now.sub 604800000000 <;> rfl
  rw [hresolve]
  cases hsub : now.sub window with
  | error e =>
    constructor
    · intro hstart
      cases hstart
    · rintro ⟨d, ⟨⟩, -⟩
  | ok d =>
    have hwall := (of_fromUtc hnow).2.1
    have hback := (of_sub hsub).1
    have htimestamp : z.timestamp d = clk.nowUs - window +
        (WallClock.offsetAt z.base z.changes (clk.nowUs / 1000000) - z.utcoffset d) * 1000000 := by
      rw [timestamp, hback, hwall]
      ring
    have hiff := timestampMs_inj (a := clk.nowUs - window)
      (k := WallClock.offsetAt z.base z.changes (clk.nowUs / 1000000) - z.utcoffset d)
    rw [← htimestamp] at hiff
    constructor
    · intro hstart
      have hstart : z.timestampMs d = (clk.nowUs - window).tdiv 1000 :=
        Option.some.inj (congrArg Prod.fst (Except.ok.inj hstart))
      have hzero := hiff.mp hstart
      exact ⟨d, rfl, by omega⟩
    · rintro ⟨d', hd', hsame⟩
      cases hd'
      have hstart : z.timestampMs d = _ := hiff.mpr (by omega)
      exact congrArg (fun s => Except.ok (some s, none, some p.group)) hstart

theorem rolling_iff_summer :
    resolveTimeRange (Sample.havana.calendar Sample.noTimes) Sample.summer
      (some (str "24h")) none none =
      .ok (some ((Sample.summer.nowUs - 86400000000).tdiv 1000), none, some .hour) :=
  (rolling_iff Sample.havana Sample.noTimes Sample.summer Sample.summerTime Sample.now_summer
    .last24h 86400000000 rfl).mpr
    ⟨⟨1719734400000000, false, by decide, by decide⟩, rfl, by rw [Sample.nowUs_summer]; rfl⟩

/-- At 7:00 on 3 November the last 24 hours are 25. -/
theorem rolling_longer :
    resolveTimeRange (Sample.havana.calendar Sample.noTimes) Sample.morning
      (some (str "24h")) none none ≠
      .ok (some ((Sample.morning.nowUs - 86400000000).tdiv 1000), none, some .hour) := by
  have hrange : resolveTimeRange (Sample.havana.calendar Sample.noTimes) Sample.morning
      (some (str "24h")) none none =
      .ok (some 1730545200000, none, some .hour) :=
    (resolveTimeRange_of_now Sample.noTimes Sample.now_morning .last24h).trans rfl
  rw [hrange, Sample.nowUs_morning]
  decide

end ZoneInfo
end EasyModelGate
