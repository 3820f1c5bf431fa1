import EasyModelGate.Verify.Periods

/-! # Hour buckets

An hour of the table is an hour of the wall clock, which may show one twice. -/

namespace EasyModelGate
namespace ZoneInfo
variable {z : ZoneInfo} {ts ts' : Int} {d d' : Datetime} {key key' : Str}

/-- How far the wall clock is into its hour, in milliseconds. -/
def intoHour (z : ZoneInfo) (ts : Int) : Int :=
  (ts + WallClock.offsetAt z.base z.changes (ts / 1000) * 1000) % 3600000

/-- How far the wall clock has been set back from one time to the other, in milliseconds. -/
def setBack (z : ZoneInfo) (ts ts' : Int) : Int :=
  (WallClock.offsetAt z.base z.changes (ts / 1000) -
    WallClock.offsetAt z.base z.changes (ts' / 1000)) * 1000

/-- The number of the hour on the wall clock. -/
theorem hour_of_fromUtc (h : z.fromUtc (ts * 1000) = .ok d) :
    d.wall / 3600000000 = (ts + WallClock.offsetAt z.base z.changes (ts / 1000) * 1000) /
      3600000 := by
  have hwall := (of_fromUtc h).2.1
  have hsecond : ts * 1000 / 1000000 = ts / 1000 := by omega
  rw [hsecond] at hwall
  omega

/-- What the keys say of two times, in the numbers of their hours. -/
theorem hourKeys_iff (h : z.fromUtc (ts * 1000) = .ok d) (h' : z.fromUtc (ts' * 1000) = .ok d')
    (hle : ts ≤ ts') :
    ((d.hourKey = d'.hourKey → ts' - ts < 3600000) ∧ Str.le d.hourKey d'.hourKey = true) ↔
      z.setBack ts ts' ≤ z.intoHour ts + if ts' - ts < 3600000 then ts' - ts
        else ts' - ts - 3600000 := by
  have hsame : d.hourKey = d'.hourKey ↔ d.wall / 3600000000 = d'.wall / 3600000000 := by
    rw [Datetime.hourKey_inj, Datetime.hourNumber_eq, Datetime.hourNumber_eq]
    have hlt := d.hour_lt
    have hlt' := d'.hour_lt
    omega
  rw [hsame, Datetime.hourKey_le_iff, hour_of_fromUtc h, hour_of_fromUtc h']
  unfold setBack intoHour
  split <;> omega

/-- **Hour buckets**: two times in one are less than an hour apart, and the earlier time has the
earlier bucket, exactly when the clock has not been set back, between them, further than the time
between them and the time that the earlier is into its hour; without an hour, where they are an hour
apart. -/
theorem hours_iff (z : ZoneInfo) (ts ts' : Int) (hle : ts ≤ ts') (key key' : Str)
    (hkey : z.bucketKey .hour ts = .ok key) (hkey' : z.bucketKey .hour ts' = .ok key') :
    ((key = key' → ts' - ts < 3600000) ∧ Str.le key key' = true) ↔
      z.setBack ts ts' ≤ z.intoHour ts + if ts' - ts < 3600000 then ts' - ts
        else ts' - ts - 3600000 := by
  obtain ⟨d, hd, rfl⟩ := bucketKey_ok.mp hkey
  obtain ⟨d', hd', rfl⟩ := bucketKey_ok.mp hkey'
  exact hourKeys_iff hd hd' hle

theorem hours_iff_summer : (str "2024-07-01T08:00" = str "2024-07-01T09:00" →
      (1719839100000 : Int) - 1719835500000 < 3600000) ∧
    Str.le (str "2024-07-01T08:00") (str "2024-07-01T09:00") = true :=
  (hours_iff Sample.havana 1719835500000 1719839100000 (by decide) (str "2024-07-01T08:00")
    (str "2024-07-01T09:00") rfl rfl).mpr (by decide)

/-- The bucket of 0:00 on 3 November holds two hours. -/
theorem hours_merged : ¬ ∀ key key', Sample.havana.bucketKey .hour 1730606400000 = .ok key →
    Sample.havana.bucketKey .hour 1730613599999 = .ok key' →
    (key = key' → (1730613599999 : Int) - 1730606400000 < 3600000) ∧ Str.le key key' = true := by
  intro hhours
  have hfirst : Sample.havana.bucketKey .hour 1730606400000 = .ok (str "2024-11-03T00:00") := rfl
  have hsecond : Sample.havana.bucketKey .hour 1730613599999 = .ok (str "2024-11-03T00:00") := rfl
  exact absurd ((hhours _ _ hfirst hsecond).1 rfl) (by decide)

/-- Where the clocks are never set back, the buckets are hours. -/
theorem hours_of_never_back (hnever : ∀ w ∈ WallClock.windows z.base z.changes, w.1 ≤ w.2.offset)
    (hle : ts ≤ ts') (hkey : z.bucketKey .hour ts = .ok key)
    (hkey' : z.bucketKey .hour ts' = .ok key') :
    (key = key' → ts' - ts < 3600000) ∧ Str.le key key' = true := by
  obtain ⟨d, hd, rfl⟩ := bucketKey_ok.mp hkey
  obtain ⟨d', hd', rfl⟩ := bucketKey_ok.mp hkey'
  apply (hourKeys_iff hd hd' hle).mpr
  have hmono := WallClock.offsetAt_mono hnever (show ts / 1000 ≤ ts' / 1000 by omega)
  unfold setBack intoHour
  split <;> omega

end ZoneInfo
end EasyModelGate
