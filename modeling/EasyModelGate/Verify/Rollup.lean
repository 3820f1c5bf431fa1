import EasyModelGate.Verify.Datetime
import EasyModelGate.Verify.Maximum
import EasyModelGate.Verify.Summary

/-! # The granularities of a summary

The tables of the four granularities are made of the same rows, and the key of a coarser bucket can
be read off that of a finer one: a day is the sum of its hours, a month and an ISO week are the sums
of their days, and TOTAL is the sum of each. -/

namespace EasyModelGate

/-! ## The order of the keys -/

namespace Str

theorem le_total (s t : Str) : Str.le s t = true ∨ Str.le t s = true := by
  induction s generalizing t with
  | nil => exact .inl (by cases t <;> rfl)
  | cons a s ih =>
    cases t with
    | nil => exact .inr rfl
    | cons b t =>
      rw [le_cons, le_cons]
      rcases lt_trichotomy a b with hlt | rfl | hgt
      · exact .inl (.inl hlt)
      · exact (ih t).imp (fun h => .inr ⟨rfl, h⟩) fun h => .inr ⟨rfl, h⟩
      · exact .inr (.inl hgt)

theorem le_trans {s t u : Str} (hst : Str.le s t = true) (htu : Str.le t u = true) :
    Str.le s u = true := by
  induction s generalizing t u with
  | nil => cases u <;> rfl
  | cons a s ih =>
    cases t with
    | nil => cases hst
    | cons b t =>
      cases u with
      | nil => cases htu
      | cons c u =>
        rw [le_cons] at hst htu ⊢
        rcases hst with hab | ⟨rfl, hst⟩
        · rcases htu with hbc | ⟨rfl, -⟩
          · exact .inl (hab.trans hbc)
          · exact .inl hab
        · rcases htu with hbc | ⟨rfl, htu⟩
          · exact .inl hbc
          · exact .inr ⟨rfl, ih hst htu⟩

end Str

namespace Analytics
variable {key : Str} {row : LogRow} {buckets : List (Str × Bucket)} {ps : List (Str × LogRow)}

/-! ## Buckets -/

theorem keys_accumulateAt (key : Str) (row : LogRow) (buckets : List (Str × Bucket)) :
    (accumulateAt key row buckets).map Prod.fst =
      if key ∈ buckets.map Prod.fst then buckets.map Prod.fst
        else buckets.map Prod.fst ++ [key] := by
  induction buckets with
  | nil => rfl
  | cons bucket buckets ih =>
    obtain ⟨k, b⟩ := bucket
    rw [accumulateAt]
    by_cases hk : k = key
    · simp [hk]
    · rw [if_neg hk, List.map_cons, ih, List.map_cons]
      simp only [List.mem_cons, Ne.symm hk, false_or]
      split <;> rfl

theorem mem_keys_bucketsOf : key ∈ (bucketsOf ps).map Prod.fst ↔ key ∈ ps.map Prod.fst := by
  induction ps using List.reverseRecOn with
  | nil => rfl
  | append_singleton ps p ih =>
    rw [bucketsOf_concat, keys_accumulateAt, List.map_append, List.mem_append, ← ih]
    split
    · rename_i hmem
      simp only [List.map_cons, List.map_nil, List.mem_singleton]
      exact ⟨.inl, fun h => h.elim id fun h => by rwa [h]⟩
    · rw [List.mem_append]
      rfl

/-- A key has one bucket. -/
theorem nodup_bucketsOf (ps : List (Str × LogRow)) : ((bucketsOf ps).map Prod.fst).Nodup := by
  induction ps using List.reverseRecOn with
  | nil => exact List.nodup_nil
  | append_singleton ps p ih =>
    rw [bucketsOf_concat, keys_accumulateAt]
    split
    · exact ih
    · rename_i hmem
      rw [← List.concat_eq_append]
      exact ih.concat hmem

theorem requests_pos (ps : List (Str × LogRow)) :
    ∀ bucket ∈ bucketsOf ps, 0 < bucket.2.requests := by
  induction ps using List.reverseRecOn with
  | nil => exact nofun
  | append_singleton ps p ih =>
    rw [bucketsOf_concat]
    generalize bucketsOf ps = buckets at ih
    induction buckets with
    | nil =>
      intro bucket hmem
      rw [List.mem_singleton.mp hmem]
      exact Nat.one_pos
    | cons bucket buckets ihBuckets =>
      rw [accumulateAt]
      split
      · intro b hb
        rcases List.mem_cons.mp hb with rfl | hb
        · exact Nat.succ_pos _
        · exact ih b (List.mem_cons_of_mem _ hb)
      · intro b hb
        rcases List.mem_cons.mp hb with rfl | hb
        · exact ih _ List.mem_cons_self
        · exact ihBuckets (fun b hb => ih b (List.mem_cons_of_mem _ hb)) b hb

/-- What one row adds to the buckets with certain keys. -/
theorem sum_accumulateAt (q : Str → Bool) (key : Str) (row : LogRow)
    (buckets : List (Str × Bucket)) :
    (((accumulateAt key row buckets).filter fun b => q b.1).map fun b => b.2.additive).sum =
      ((buckets.filter fun b => q b.1).map fun b => b.2.additive).sum + if q key then
        rowAdditive row else 0 := by
  induction buckets with
  | nil =>
    cases hq : q key
    · simp [accumulateAt, hq]
    · have hfirst : (accumulate {} row).additive = rowAdditive row :=
        (additive_accumulate _ _).trans (zero_add _)
      simp [accumulateAt, hq, hfirst]
  | cons bucket buckets ih =>
    obtain ⟨k, b⟩ := bucket
    rw [accumulateAt]
    by_cases hk : k = key
    · subst hk
      rw [if_pos rfl]
      cases hq : q k
      · simp [hq]
      · simp [hq, additive_accumulate, add_right_comm]
    · rw [if_neg hk]
      cases hq : q k
      · simpa [hq] using ih
      · simp [hq, ih, add_assoc]

/-- **The buckets with certain keys add up to the rows with these keys.** -/
theorem sum_bucketsOf (q : Str → Bool) (ps : List (Str × LogRow)) :
    (((bucketsOf ps).filter fun b => q b.1).map fun b => b.2.additive).sum =
      ((ps.filter fun p => q p.1).map fun p => rowAdditive p.2).sum := by
  induction ps using List.reverseRecOn with
  | nil => rfl
  | append_singleton ps p ih =>
    rw [bucketsOf_concat, sum_accumulateAt, ih, List.filter_append, List.map_append,
      List.sum_append]
    cases hq : q p.1 <;> simp [hq]

theorem queue_accumulateAt (key : Str) (row : LogRow) (buckets : List (Str × Bucket))
    (x : SqlNumber) :
    x ∈ (accumulateAt key row buckets).flatMap (fun b => b.2.queue) ↔
      x ∈ buckets.flatMap (fun b => b.2.queue) ∨ x ∈ row.queueWaitMs.number?.toList := by
  induction buckets with
  | nil => simp [accumulateAt, accumulate]
  | cons bucket buckets ih =>
    obtain ⟨k, b⟩ := bucket
    rw [accumulateAt]
    split
    · simp only [List.flatMap_cons, List.mem_append, accumulate]
      tauto
    · simp only [List.flatMap_cons, List.mem_append, ih]
      tauto

theorem queue_bucketsOf_mem (ps : List (Str × LogRow)) (x : SqlNumber) :
    x ∈ (bucketsOf ps).flatMap (fun b => b.2.queue) ↔ x ∈ (bucketOf (ps.map Prod.snd)).queue := by
  induction ps using List.reverseRecOn with
  | nil => rfl
  | append_singleton ps p ih =>
    rw [bucketsOf_concat, queue_accumulateAt, ih, List.map_append, List.map_singleton,
      bucketOf_concat]
    simp [accumulate]

/-- What has been collected was stored. -/
theorem storable_queue (rows : List LogRow) : ∀ x ∈ (bucketOf rows).queue, x.storable = true := by
  induction rows using List.reverseRecOn with
  | nil => exact fun _ h => absurd h List.not_mem_nil
  | append_singleton rows row ih =>
    intro x hx
    rw [bucketOf_concat] at hx
    rcases List.mem_append.mp hx with hx | hx
    · exact ih x hx
    · have hrow := row.storable row.queueWaitMs (by simp)
      exact SqlValue.storable_of_number? hrow (Option.mem_toList.mp hx)

/-! ## Tables -/

section
variable {β : Type} [LinearOrder β]

theorem max?_congr {xs ys : List β} (h : ∀ x, x ∈ xs ↔ x ∈ ys) : xs.max? = ys.max? := by
  ext a
  simp only [List.max?_eq_some_iff, h]

/-- The largest of all is the largest of the largest of each. -/
theorem max?_flatMap (f : α → List β) (l : List α) :
    (l.flatMap f).max? = (l.filterMap fun a => (f a).max?).max? := by
  ext x
  simp only [List.max?_eq_some_iff, List.mem_flatMap, List.mem_filterMap]
  constructor
  · rintro ⟨⟨a, ha, hx⟩, hle⟩
    refine ⟨⟨a, ha, hx, fun y hy => hle y ⟨a, ha, hy⟩⟩, ?_⟩
    rintro y ⟨b, hb, hy, -⟩
    exact hle y ⟨b, hb, hy⟩
  · rintro ⟨⟨a, ha, hx, -⟩, hle⟩
    refine ⟨⟨a, ha, hx⟩, ?_⟩
    rintro y ⟨b, hb, hy⟩
    obtain ⟨m, hm⟩ :=
      Option.ne_none_iff_exists'.mp (mt List.max?_eq_none_iff.mp (List.ne_nil_of_mem hy))
    have hm := List.max?_eq_some_iff.mp hm
    exact (hm.2 y hy).trans (hle m ⟨b, hb, hm⟩)

end

/-- What a bucket reports as its longest wait, by value. -/
theorem value_maxQueueWaitMs {b : Bucket} (hb : ∀ x ∈ b.queue, x.storable = true) :
    (finalize b).maxQueueWaitMs.map SqlNumber.value =
      (b.queue.map fun x => x.roundTenth.value).max? := by
  rw [← SqlNumber.value_max?_roundTenth hb]
  exact Option.map_map ..

/-- The rows of a table before its TOTAL row. -/
def rowsOf (ps : List (Str × LogRow)) : List (Str × Metrics) :=
  ((bucketsOf ps).insertionSort fun a b => Str.le a.1 b.1 = true).map fun bucket =>
    (bucket.1, finalize bucket.2)

theorem rowsOf_perm (ps : List (Str × LogRow)) :
    (rowsOf ps).Perm ((bucketsOf ps).map fun bucket => (bucket.1, finalize bucket.2)) :=
  (List.perm_insertionSort ..).map _

theorem keys_rowsOf_perm (ps : List (Str × LogRow)) :
    ((rowsOf ps).map Prod.fst).Perm ((bucketsOf ps).map Prod.fst) := by
  have hperm := (rowsOf_perm ps).map Prod.fst
  rwa [List.map_map] at hperm

/-- The rows with certain keys add up to the rows of the database with these keys. -/
theorem sum_rowsOf (q : Str → Bool) (ps : List (Str × LogRow)) :
    (((rowsOf ps).filter fun row => q row.1).map fun row => row.2.additive).sum =
      ((ps.filter fun p => q p.1).map fun p => rowAdditive p.2).sum := by
  rw [← sum_bucketsOf, (((rowsOf_perm ps).filter _).map _).sum_eq, List.filter_map, List.map_map]
  rfl

/-- What a table by granularity says. The largest wait is compared by value: Python's `3 == 3.0`. -/
structure Tabulated (rows : List (Str × Metrics)) (total : Metrics) : Prop where
  increasing : rows.Pairwise fun a b => Str.le a.1 b.1 = true ∧ a.1 ≠ b.1
  nonempty : ∀ row ∈ rows, 0 < row.2.requests
  sum : (rows.map fun row => row.2.additive).sum = total.additive
  max : total.maxQueueWaitMs.map SqlNumber.value =
    ((rows.filterMap fun row => row.2.maxQueueWaitMs).map SqlNumber.value).max?

theorem increasing_rowsOf (ps : List (Str × LogRow)) :
    (rowsOf ps).Pairwise fun a b => Str.le a.1 b.1 = true ∧ a.1 ≠ b.1 := by
  have htotal : Std.Total fun a b : Str × Bucket => Str.le a.1 b.1 = true :=
    ⟨fun a b => Str.le_total a.1 b.1⟩
  have htrans : IsTrans (Str × Bucket) fun a b => Str.le a.1 b.1 = true :=
    ⟨fun _ _ _ => Str.le_trans⟩
  have hsorted := List.pairwise_insertionSort (fun a b : Str × Bucket => Str.le a.1 b.1 = true)
    (bucketsOf ps)
  have hnodup : ((rowsOf ps).map Prod.fst).Nodup :=
    (keys_rowsOf_perm ps).nodup_iff.mpr (nodup_bucketsOf ps)
  refine List.Pairwise.and ?_ (List.pairwise_map.mp hnodup)
  unfold rowsOf
  rw [List.pairwise_map]
  exact hsorted

theorem tabulated (ps : List (Str × LogRow)) :
    Tabulated (rowsOf ps) (finalize (bucketOf (ps.map Prod.snd))) where
  increasing := increasing_rowsOf ps
  nonempty := by
    intro row hrow
    obtain ⟨bucket, hmem, rfl⟩ := List.mem_map.mp ((rowsOf_perm ps).mem_iff.mp hrow)
    exact requests_pos ps bucket hmem
  sum := by
    have hsum := sum_rowsOf (fun _ => true) ps
    simp only [List.filter_true] at hsum
    rw [hsum, additive_finalize, additive_bucketOf, List.map_map]
    rfl
  max := by
    have hstored := storable_queue (ps.map Prod.snd)
    have hbuckets (bucket : Str × Bucket) (hmem : bucket ∈ bucketsOf ps) (x : SqlNumber)
        (hx : x ∈ bucket.2.queue) :
        x.storable = true :=
      hstored x ((queue_bucketsOf_mem ps x).mp (List.mem_flatMap.mpr ⟨bucket, hmem, hx⟩))
    have hperm := (rowsOf_perm ps).filterMap fun row => row.2.maxQueueWaitMs.map SqlNumber.value
    rw [List.filterMap_map] at hperm
    rw [List.map_filterMap, max?_congr fun v => hperm.mem_iff, value_maxQueueWaitMs hstored]
    have heach : ((bucketsOf ps).filterMap fun bucket =>
          (finalize bucket.2).maxQueueWaitMs.map SqlNumber.value) =
        (bucketsOf ps).filterMap fun bucket =>
          (bucket.2.queue.map fun x => x.roundTenth.value).max? :=
      List.filterMap_congr fun bucket hmem => value_maxQueueWaitMs (hbuckets bucket hmem)
    have hall : (bucketsOf ps).flatMap (fun bucket => bucket.2.queue.map fun x =>
          x.roundTenth.value) =
        ((bucketsOf ps).flatMap fun bucket => bucket.2.queue).map fun x => x.roundTenth.value := by
      rw [List.map_flatMap]
    refine Eq.trans ?_ (congrArg List.max? heach.symm)
    rw [← max?_flatMap, hall]
    apply max?_congr
    intro v
    simp only [List.mem_map, queue_bucketsOf_mem]

/-- The coarser table is made of the finer one by reading `part` of the keys. -/
structure RollsUp (part : Str → Str) (fine coarse : List (Str × Metrics)) : Prop where
  covered : ∀ row ∈ fine, ∃ row' ∈ coarse, row'.1 = part row.1
  sum : ∀ row ∈ coarse,
    row.2.additive = ((fine.filter fun row' => part row'.1 = row.1).map fun row' =>
      row'.2.additive).sum

/-- A row of a table is all that has its key. -/
theorem sum_of_mem {rows : List (Str × Metrics)} (hnodup : (rows.map Prod.fst).Nodup)
    {row : Str × Metrics} (hrow : row ∈ rows) :
    ((rows.filter fun row' => row'.1 = row.1).map fun row' => row'.2.additive).sum =
      row.2.additive := by
  induction rows with
  | nil => cases hrow
  | cons head rows ih =>
    obtain ⟨hnot, hnodup⟩ := List.nodup_cons.mp hnodup
    rcases List.mem_cons.mp hrow with rfl | hmem
    · have hrest : rows.filter (fun row' => row'.1 = row.1) = [] := by
        rw [List.filter_eq_nil_iff]
        intro row' hrow' heq
        exact hnot (List.mem_map.mpr ⟨row', hrow', of_decide_eq_true heq⟩)
      simp [hrest]
    · have hne : head.1 ≠ row.1 := fun heq => hnot (heq ▸ List.mem_map_of_mem hmem)
      simpa [hne] using ih hnodup hmem

theorem rollsUp (part : Str → Str) (ps : List (Str × LogRow)) :
    RollsUp part (rowsOf ps) (rowsOf (ps.map fun p => (part p.1, p.2))) where
  covered := by
    intro row hrow
    have hkey : row.1 ∈ ps.map Prod.fst :=
      mem_keys_bucketsOf.mp ((keys_rowsOf_perm ps).mem_iff.mp (List.mem_map_of_mem hrow))
    obtain ⟨p, hp, hpkey⟩ := List.mem_map.mp hkey
    have hcoarse : part row.1 ∈ (rowsOf (ps.map fun p => (part p.1, p.2))).map Prod.fst := by
      rw [(keys_rowsOf_perm _).mem_iff, mem_keys_bucketsOf, List.map_map, ← hpkey]
      exact List.mem_map.mpr ⟨p, hp, rfl⟩
    obtain ⟨row', hrow', hkey'⟩ := List.mem_map.mp hcoarse
    exact ⟨row', hrow', hkey'⟩
  sum := by
    intro row hrow
    have hnodup : ((rowsOf (ps.map fun p => (part p.1, p.2))).map Prod.fst).Nodup :=
      (keys_rowsOf_perm _).nodup_iff.mpr (nodup_bucketsOf _)
    rw [← sum_of_mem hnodup hrow, sum_rowsOf fun key => key = row.1, sum_rowsOf fun key =>
      part key = row.1, List.filter_map, List.map_map]
    rfl

/-! ## Keys of coarser buckets -/

/-- The date of an hour. -/
def dateOf (key : Str) : Str := key.take 10

/-- The month of a date. -/
def monthOf (key : Str) : Str := key.take 7

def readDigits (s : Str) : Nat := s.foldl (fun n c => 10 * n + (c.val - 48)) 0

/-- The ISO year and week of a date. -/
def weekOf (key : Str) : Str :=
  let (year, week) := Gregorian.isocalendar
    (Gregorian.ymd2ord (readDigits (key.take 4)) (readDigits ((key.drop 5).take 2))
      (readDigits ((key.drop 8).take 2)))
  Str.ofInt year ++ str "-W" ++ pad2 week

theorem dateOf_hourKey (d : Datetime) : dateOf d.hourKey = d.dayKey := rfl

theorem monthOf_dayKey (d : Datetime) : monthOf d.dayKey = d.monthKey := rfl

theorem val_digit (n : Nat) : (digit n).val - 48 = n % 10 := by
  simp only [digit, Fin.val_ofNat]
  omega

theorem readDigits_pad2 {n : Nat} (h : n < 100) : readDigits (pad2 n) = n := by
  simp only [readDigits, pad2, List.foldl_cons, List.foldl_nil, val_digit]
  omega

theorem readDigits_pad4 {n : Nat} (h : n < 10000) : readDigits (pad4 n) = n := by
  simp only [readDigits, pad4, pad2, List.cons_append, List.nil_append, List.foldl_cons,
    List.foldl_nil, val_digit]
  omega

theorem weekOf_dayKey (d : Datetime) : weekOf d.dayKey = d.weekKey := by
  have hyear : readDigits (d.dayKey.take 4) = (Gregorian.ord2ymd d.ordinal).1 :=
    readDigits_pad4 (Nat.lt_succ_of_le d.year_le)
  have hmonth : readDigits ((d.dayKey.drop 5).take 2) = (Gregorian.ord2ymd d.ordinal).2.1 :=
    readDigits_pad2 d.month_lt
  have hday : readDigits ((d.dayKey.drop 8).take 2) = (Gregorian.ord2ymd d.ordinal).2.2 :=
    readDigits_pad2 d.day_lt
  rw [weekOf, hyear, hmonth, hday, (Gregorian.ord2ymd_spec d.ordinal_pos).2]
  rfl

theorem keyed_cons (bucketKey : Granularity → Int → Except PyExn Str) (g : Granularity)
    (row : Row LogRow) (rows : List (Row LogRow)) : keyed bucketKey (some g) (row :: rows) = do
      let key ← bucketKey g row.val.startedAt
      let ps ← keyed bucketKey (some g) rows
      return (key, row.val) :: ps := by
  unfold keyed
  dsimp only
  rw [List.mapM_cons]
  cases bucketKey g row.val.startedAt <;> rfl

/-- The rows have keys for one granularity when their times are local times, and then for all. -/
theorem of_keyed {z : ZoneInfo} {g : Granularity} {rows : List (Row LogRow)}
    (h : keyed z.bucketKey (some g) rows = .ok ps) : ∃ ds : List (Datetime × LogRow),
      ds.map Prod.snd = rows.map Row.val ∧
        ∀ g, keyed z.bucketKey (some g) rows = .ok (ds.map fun p => (p.1.bucketKey g, p.2)) := by
  induction rows generalizing ps with
  | nil => exact ⟨[], rfl, fun _ => rfl⟩
  | cons row rows ih =>
    rw [keyed_cons, ZoneInfo.bucketKey] at h
    cases hd : z.fromtimestamp row.val.startedAt with
    | error e =>
      rw [hd] at h
      cases h
    | ok d =>
      cases hrows : keyed z.bucketKey (some g) rows with
      | error e =>
        rw [hd, hrows] at h
        cases h
      | ok ps' =>
        obtain ⟨ds, hvals, hds⟩ := ih hrows
        refine ⟨(d, row.val) :: ds, congrArg (row.val :: ·) hvals, fun g' => ?_⟩
        rw [keyed_cons, hds, ZoneInfo.bucketKey, hd]
        rfl

/-! ## Ranges that follow one another -/

/-- The filter with another range. -/
def between (f : SummaryFilter) (a b : Int) : SummaryFilter :=
  { f with startMs := some a, endMs := some b }

theorem accepts_between (f : SummaryFilter) (a b : Int) (row : LogRow) :
    (between f a b).conditions.accepts row = true ↔ (a ≤ row.startedAt ∧ row.startedAt < b) ∧
      { f with startMs := none, endMs := none : SummaryFilter }.conditions.accepts row = true := by
  simp only [between, SummaryFilter.conditions, LogFilter.accepts, Bool.and_eq_true,
    Option.all_some, Option.all_none, decide_eq_true_eq, and_true]
  tauto

theorem sum_filter (q : Row LogRow → Bool) (rows : List (Row LogRow)) :
    ((rows.filter q).map fun row => rowAdditive row.val).sum =
      (rows.map fun row => if q row then rowAdditive row.val else 0).sum := by
  induction rows with
  | nil => rfl
  | cons row rows ih => cases hq : q row <;> simp [hq, ih]

/-- The rows of two ranges, one after the other, are those of both. -/
theorem sum_ranges (f : SummaryFilter) {a b c : Int} (hab : a ≤ b) (hbc : b ≤ c)
    (rows : List (Row LogRow)) :
    ((rows.filter fun row => (between f a c).conditions.accepts row.val).map fun row =>
      rowAdditive row.val).sum =
      ((rows.filter fun row => (between f a b).conditions.accepts row.val).map fun row =>
          rowAdditive row.val).sum +
        ((rows.filter fun row => (between f b c).conditions.accepts row.val).map fun row =>
            rowAdditive row.val).sum := by
  rw [sum_filter, sum_filter, sum_filter, ← List.sum_map_add]
  refine congrArg List.sum (List.map_congr_left fun row _ => ?_)
  simp only [accepts_between]
  by_cases hrest : { f with startMs := none, endMs := none : SummaryFilter }.conditions.accepts
    row.val = true
  · simp only [hrest, and_true]
    rcases lt_or_ge row.val.startedAt b with hlt | hge
    · have hlt' : row.val.startedAt < c := by omega
      simp [hlt, hlt', not_le.mpr hlt]
    · have hge' : a ≤ row.val.startedAt := by omega
      simp [hge, hge', not_lt.mpr hge]
  · simp [hrest]

/-! ## The summaries of one database -/

/-- What `summary` returns on the tables that the connection sees. -/
def summaryOf (z : ZoneInfo) (conn : Conn) (f : SummaryFilter) :
    Except Exn (List (Str × Metrics)) :=
  ((summary z.bucketKey f).run Conn.handler conn).1

/-- Tables by granularity that are made of the same rows, with one TOTAL. -/
structure RolledUp (z : ZoneInfo) (conn : Conn) (f : SummaryFilter)
    (rows : Granularity → List (Str × Metrics)) (total : Metrics) : Prop where
  summary : ∀ g, summaryOf z conn { f with granularity := some g } =
    .ok (rows g ++ [(str "TOTAL", total)])
  summary_none : summaryOf z conn { f with granularity := none } = .ok [(str "TOTAL", total)]
  tabulated : ∀ g, Tabulated (rows g) total
  day : RollsUp dateOf (rows .hour) (rows .day)
  month : RollsUp monthOf (rows .day) (rows .month)
  week : RollsUp weekOf (rows .day) (rows .week)

/-- Rows under two keys, the one a part of the other. -/
theorem rollsUp_keys {part : Str → Str} {g g' : Granularity}
    (hpart : ∀ d : Datetime, part (d.bucketKey g) = d.bucketKey g')
    (ds : List (Datetime × LogRow)) :
    RollsUp part (rowsOf (ds.map fun p => (p.1.bucketKey g, p.2)))
      (rowsOf (ds.map fun p => (p.1.bucketKey g', p.2))) := by
  have hkeys : (ds.map fun p => (p.1.bucketKey g, p.2)).map (fun p => (part p.1, p.2)) =
      ds.map fun p => (p.1.bucketKey g', p.2) := by
    rw [List.map_map]
    exact List.map_congr_left fun p _ => congrArg (·, p.2) (hpart p.1)
  rw [← hkeys]
  exact rollsUp part _

/-- When `summary` returns a table for one granularity, it does for all. -/
theorem exists_rolledUp {z : ZoneInfo} {conn : Conn} {f : SummaryFilter} {g : Granularity}
    {out : List (Str × Metrics)} (h : summaryOf z conn { f with granularity := some g } = .ok out) :
    ∃ rows total, RolledUp z conn f rows total := by
  obtain ⟨hbind, ps, hps, -⟩ := of_run_summary z.bucketKey h
  have hbind : f.conditions.bind = .ok () := hbind
  have hps : keyed z.bucketKey (some g)
      (conn.view.requestLogs.select f.conditions.accepts) = .ok ps := hps
  obtain ⟨ds, hvals, hkeyed⟩ := of_keyed hps
  have hvals' (g : Granularity) : (ds.map fun p => (p.1.bucketKey g, p.2)).map Prod.snd =
      (conn.view.requestLogs.select f.conditions.accepts).map Row.val := by
    rw [List.map_map, ← hvals]
    rfl
  refine ⟨fun g => rowsOf (ds.map fun p => (p.1.bucketKey g, p.2)),
    finalize (bucketOf ((conn.view.requestLogs.select f.conditions.accepts).map Row.val)), ?_⟩
  constructor
  · intro g
    refine (run_summary_eq (f := { f with granularity := some g }) z.bucketKey conn hbind).trans ?_
    change ((keyed z.bucketKey (some g)
      (conn.view.requestLogs.select f.conditions.accepts)).mapError Exn.py).map _ = _
    rw [hkeyed]
    rfl
  · exact run_summary_eq (f := { f with granularity := none }) z.bucketKey conn hbind
  · intro g
    rw [← hvals' g]
    exact tabulated _
  · exact rollsUp_keys dateOf_hourKey ds
  · exact rollsUp_keys monthOf_dayKey ds
  · exact rollsUp_keys weekOf_dayKey ds

/-- The TOTAL row of a summary that is returned. -/
theorem total_of_summary {z : ZoneInfo} {conn : Conn} {f : SummaryFilter}
    {out : List (Str × Metrics)} (h : summaryOf z conn f = .ok out) :
    ∃ total, out.getLast? = some (str "TOTAL", total) ∧ total.additive =
      ((conn.view.requestLogs.rows.filter fun row => f.conditions.accepts row.val).map fun row =>
        rowAdditive row.val).sum := by
  obtain ⟨-, ps, -, rfl⟩ := of_run_summary z.bucketKey h
  refine ⟨_, getLast?_table .., ?_⟩
  rw [additive_finalize, additive_bucketOf, List.map_map]
  rfl

/-- **The tables of a summary agree**: labels increase strictly, no bucket is empty, and each
granularity adds up to the coarser ones and to TOTAL; ranges that follow one another add up. -/
theorem summary_rolls_up (z : ZoneInfo) (conn : Conn) (f : SummaryFilter) :
    (∀ g out, summaryOf z conn { f with
      granularity := some g } = .ok out → ∃ rows total, RolledUp z conn f rows total) ∧
      ∀ a b c, a ≤ b → b ≤ c → ∀ first second both, summaryOf z conn (between f a b) = .ok first →
        summaryOf z conn (between f b c) = .ok second →
        summaryOf z conn (between f a c) = .ok both →
        ∃ total total' all, first.getLast? = some (str "TOTAL", total) ∧
        second.getLast? = some (str "TOTAL", total') ∧
          both.getLast? = some (str "TOTAL", all) ∧
          all.additive = total.additive + total'.additive := by
  refine ⟨fun g out h => exists_rolledUp h,
    fun a b c hab hbc first second both hfirst hsecond hboth => ?_⟩
  obtain ⟨total, hlast, hsum⟩ := total_of_summary hfirst
  obtain ⟨total', hlast', hsum'⟩ := total_of_summary hsecond
  obtain ⟨all, hlastBoth, hsumBoth⟩ := total_of_summary hboth
  exact ⟨total, total', all, hlast, hlast', hlastBoth,
    by rw [hsumBoth, hsum, hsum', sum_ranges f hab hbc]⟩

end Analytics

namespace Sample

def shanghai : ZoneInfo where
  base := 28800
  changes := []
  ordered := by decide
  base_lt := by decide
  offset_lt := by decide
  within := by decide

/-- A row as an import may have left it: of no key, with no duration and half a millisecond of
waiting. -/
def bookedRow (startedAt tokens : Int) : LogRow :=
  { requestId := 0, userId := none, apiKeyId := none, backendId := none, model := none,
    endpoint := none, startedAt
    finishedAt := none, durationMs := .null, queueWaitMs := .real (.fin (1 / 2)),
    upstreamDurationMs := .null
    ttftMs := .null, promptTokens := .null, completionTokens := .null, totalTokens := .int tokens,
    cachedTokens := .null
    stream := none, finishReason := none, statusCode := some 200, upstreamStatusCode := none,
    clientIp := none
    inputBytes := none, outputBytes := none, errorType := none, errorMessage := none
    storable := by decide +kernel }

/-- Two rows on both sides of a New Year at midnight. -/
def bookedConn : Conn :=
  { durable :=
      { requestLogs := (Table.empty.insert (bookedRow 1735660799000 5)).insert
          (bookedRow 1735660800000 7) } }

end Sample

theorem Analytics.summary_rolls_up_sample : ∃ rows total,
    Analytics.RolledUp Sample.shanghai Sample.bookedConn {} rows total := by
  have hok :
      (Analytics.summaryOf Sample.shanghai Sample.bookedConn
        { granularity := some .week }).isOk = true := by
    decide +kernel
  cases hout : Analytics.summaryOf Sample.shanghai Sample.bookedConn
    { granularity := some .week } with
  | error e =>
    rw [hout] at hok
    cases hok
  | ok out =>
    exact (Analytics.summary_rolls_up Sample.shanghai Sample.bookedConn {}).1 .week out hout

end EasyModelGate
