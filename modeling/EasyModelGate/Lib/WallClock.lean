import Mathlib.Data.List.Basic
import Mathlib.Order.Lattice

/-! # Wall clocks with changes of offset

A wall clock shows the instant plus an offset that changes now and then. A change forward skips some
wall times, a change back repeats some: its window. Outside the windows the wall times follow the
instants, so that "from this wall time on" is "from this instant on". -/

namespace EasyModelGate

/-- From the instant `utc` on, the offset is `offset`. -/
structure Change where
  utc : Int
  offset : Int
  deriving DecidableEq

namespace WallClock

/-! ## The clock -/

/-- The offset at an instant. -/
def offsetAt (base : Int) : List Change → Int → Int
  | [], _ => base
  | c :: changes, t => if t < c.utc then base else offsetAt c.offset changes t

/-- What the clock shows at an instant. -/
def localTime (base : Int) (changes : List Change) (t : Int) : Int := t + offsetAt base changes t

/-- The offset at a wall time: of a skipped or repeated one that before the change, with `fold` that
after it. -/
def utcoffset (base : Int) : List Change → Int → Bool → Int
  | [], _, _ => base
  | c :: changes, w, fold =>
    if w < c.utc + (if fold then min base c.offset else max base c.offset) then base
    else utcoffset c.offset changes w fold

/-- Whether the clock shows its wall time for the second time. -/
def foldAt (base : Int) : List Change → Int → Bool
  | [], _ => false
  | c :: changes, t =>
    if t < c.utc then false
    else if changes.head?.any (·.utc ≤ t) then foldAt c.offset changes t
    else t - c.utc < base - c.offset

/-! ## The windows -/

/-- The changes, each with the offset before it. -/
def windows (base : Int) : List Change → List (Int × Change)
  | [] => []
  | c :: changes => (base, c) :: windows c.offset changes

/-- A wall time that the change skips or repeats. -/
def InWindow (w : Int × Change) (wall : Int) : Prop :=
  w.2.utc + min w.1 w.2.offset ≤ wall ∧ wall < w.2.utc + max w.1 w.2.offset

instance (w : Int × Change) (wall : Int) : Decidable (InWindow w wall) :=
  inferInstanceAs (Decidable (_ ∧ _))

/-- One change, and what it skips or repeats, comes before the other. -/
def Before (v w : Int × Change) : Prop :=
  v.2.utc < w.2.utc ∧ v.2.utc + max v.1 v.2.offset ≤ w.2.utc + min w.1 w.2.offset

instance (v w : Int × Change) : Decidable (Before v w) := inferInstanceAs (Decidable (_ ∧ _))

def Ordered (base : Int) (changes : List Change) : Prop := (windows base changes).Pairwise Before

instance (base : Int) (changes : List Change) : Decidable (Ordered base changes) :=
  inferInstanceAs (Decidable (List.Pairwise _ _))

variable {base t wall k : Int} {c : Change} {changes : List Change} {fold : Bool}

theorem ordered_cons : Ordered base (c :: changes) ↔
    (∀ w ∈ windows c.offset changes, Before (base, c) w) ∧ Ordered c.offset changes :=
  List.pairwise_cons

/-! ## Bounds -/

theorem offsetAt_mem (base : Int) (changes : List Change) (t : Int) :
    offsetAt base changes t = base ∨ ∃ c ∈ changes, offsetAt base changes t = c.offset := by
  induction changes generalizing base with
  | nil => exact .inl rfl
  | cons c changes ih =>
    rw [offsetAt]
    split
    · exact .inl rfl
    · rcases ih c.offset with h | ⟨d, hd, h⟩
      · exact .inr ⟨c, List.mem_cons_self, h⟩
      · exact .inr ⟨d, List.mem_cons_of_mem _ hd, h⟩

theorem mem_windows {w : Int × Change} (hw : w ∈ windows base changes) :
    w.2 ∈ changes ∧ (w.1 = base ∨ ∃ c ∈ changes, w.1 = c.offset) := by
  induction changes generalizing base with
  | nil => cases hw
  | cons c changes ih =>
    rcases List.mem_cons.mp hw with rfl | hmem
    · exact ⟨List.mem_cons_self, .inl rfl⟩
    · rcases ih hmem with ⟨hchange, hbefore | ⟨d, hd, hbefore⟩⟩
      · exact ⟨List.mem_cons_of_mem _ hchange, .inr ⟨c, List.mem_cons_self, hbefore⟩⟩
      · exact ⟨List.mem_cons_of_mem _ hchange, .inr ⟨d, List.mem_cons_of_mem _ hd, hbefore⟩⟩

theorem offsetAt_of_lt (h : ∀ w ∈ windows base changes, t < w.2.utc) :
    offsetAt base changes t = base := by
  cases changes with
  | nil => rfl
  | cons c changes => exact if_pos (h (base, c) List.mem_cons_self)

theorem le_offsetAt (h : ∀ w ∈ windows base changes, w.1 ≤ w.2.offset) :
    base ≤ offsetAt base changes t := by
  induction changes generalizing base with
  | nil => exact le_rfl
  | cons c changes ih =>
    rw [offsetAt]
    split
    · exact le_rfl
    · exact (h (base, c) List.mem_cons_self).trans (ih fun w hw => h w (List.mem_cons_of_mem _ hw))

/-- Offsets that only grow. -/
theorem offsetAt_mono (h : ∀ w ∈ windows base changes, w.1 ≤ w.2.offset) {t t' : Int}
    (ht : t ≤ t') :
    offsetAt base changes t ≤ offsetAt base changes t' := by
  induction changes generalizing base with
  | nil => exact le_rfl
  | cons c changes ih =>
    have htail : offsetAt c.offset changes t ≤ offsetAt c.offset changes t' :=
      ih fun w hw => h w (List.mem_cons_of_mem _ hw)
    by_cases ht' : t' < c.utc
    · rw [offsetAt, offsetAt, if_pos ht', if_pos (by omega)]
    · rw [offsetAt, offsetAt, if_neg ht']
      split
      · exact (h (base, c) List.mem_cons_self).trans
          (le_offsetAt fun w hw => h w (List.mem_cons_of_mem _ hw))
      · exact htail

theorem utcoffset_of_lt (h : ∀ w ∈ windows base changes, wall < w.2.utc + min w.1 w.2.offset) :
    utcoffset base changes wall fold = base := by
  cases changes with
  | nil => rfl
  | cons c changes =>
    have hc := h (base, c) List.mem_cons_self
    dsimp only at hc
    rw [utcoffset, if_pos]
    cases fold <;> simp <;> omega

theorem le_localTime (ht : k ≤ t + base)
    (hw : ∀ w ∈ windows base changes, k ≤ w.2.utc + min w.1 w.2.offset) :
    k ≤ localTime base changes t := by
  induction changes generalizing base with
  | nil => exact ht
  | cons c changes ih =>
    have hc := hw (base, c) List.mem_cons_self
    dsimp only at hc
    unfold localTime offsetAt
    split
    · exact ht
    · exact ih (by omega) fun w hmem => hw w (List.mem_cons_of_mem _ hmem)

/-- After a change the clock shows no less than right after it. -/
theorem le_localTime_of_mem (h : Ordered base changes) {w : Int × Change}
    (hw : w ∈ windows base changes) (ht : w.2.utc ≤ t) :
    w.2.utc + w.2.offset ≤ localTime base changes t := by
  induction changes generalizing base with
  | nil => cases hw
  | cons c changes ih =>
    obtain ⟨hbefore, htail⟩ := ordered_cons.mp h
    rcases List.mem_cons.mp hw with rfl | hmem
    · dsimp only at ht ⊢
      rw [localTime, offsetAt, if_neg (not_lt.mpr ht)]
      apply le_localTime (by omega)
      intro v hv
      have hv := (hbefore v hv).2
      dsimp only at hv
      omega
    · have hlt := (hbefore w hmem).1
      dsimp only at hlt
      rw [localTime, offsetAt, if_neg (by omega)]
      exact ih htail hmem

/-- Before a change the clock shows less than it would at the change. -/
theorem localTime_lt_of_mem (h : Ordered base changes) {w : Int × Change}
    (hw : w ∈ windows base changes) (ht : t < w.2.utc) :
    localTime base changes t < w.2.utc + w.1 := by
  induction changes generalizing base with
  | nil => cases hw
  | cons c changes ih =>
    obtain ⟨hbefore, htail⟩ := ordered_cons.mp h
    rcases List.mem_cons.mp hw with rfl | hmem
    · rw [localTime, offsetAt, if_pos ht]
      dsimp only at ht ⊢
      omega
    · have hb := hbefore w hmem
      simp only [Before] at hb
      by_cases htc : t < c.utc
      · rw [localTime, offsetAt, if_pos htc]
        omega
      · rw [localTime, offsetAt, if_neg htc]
        exact ih htail hmem

/-! ## From a wall time on -/

/-- A wall time that comes before the windows. -/
theorem le_localTime_of_lt (h : ∀ w ∈ windows base changes, wall < w.2.utc + min w.1 w.2.offset) :
    wall ≤ localTime base changes t ↔ wall ≤ t + base := by
  constructor
  · intro hle
    cases changes with
    | nil => exact hle
    | cons c changes =>
      have hc := h (base, c) List.mem_cons_self
      dsimp only at hc
      rw [localTime, offsetAt] at hle
      split at hle <;> omega
  · intro hle
    exact le_localTime hle fun w hw => (h w hw).le

/-- After the first window the clock is that of the other changes. -/
theorem utcoffset_cons (hmax : c.utc + max base c.offset ≤ wall) (fold : Bool) :
    utcoffset base (c :: changes) wall fold = utcoffset c.offset changes wall fold := by
  rw [utcoffset, if_neg]
  cases fold <;> simp <;> omega

theorem le_localTime_cons (h : Ordered base (c :: changes))
    (hmax : c.utc + max base c.offset ≤ wall) (t : Int) :
    wall ≤ localTime base (c :: changes) t ↔ wall ≤ localTime c.offset changes t := by
  by_cases ht : t < c.utc
  · have hoffset : offsetAt c.offset changes t = c.offset :=
      offsetAt_of_lt fun w hw => ht.trans ((ordered_cons.mp h).1 w hw).1
    rw [localTime, offsetAt, if_pos ht, localTime, hoffset]
    omega
  · rw [localTime, offsetAt, if_neg ht]
    rfl

/-- The windows after a wall time. -/
theorem lt_windows_cons (h : Ordered base (c :: changes))
    (hwall : wall < c.utc + max base c.offset) :
    ∀ w ∈ windows c.offset changes, wall < w.2.utc + min w.1 w.2.offset :=
  fun w hw => hwall.trans_le ((ordered_cons.mp h).1 w hw).2

/-- A wall time that is neither skipped nor repeated. -/
theorem le_localTime_iff (h : Ordered base changes)
    (hwall : ∀ w ∈ windows base changes, ¬ InWindow w wall) (t : Int) (fold : Bool) :
    wall ≤ localTime base changes t ↔ wall - utcoffset base changes wall fold ≤ t := by
  induction changes generalizing base with
  | nil =>
    rw [localTime, offsetAt, utcoffset]
    omega
  | cons c changes ih =>
    have hc := hwall (base, c) List.mem_cons_self
    simp only [InWindow, not_and, not_lt] at hc
    by_cases hmin : wall < c.utc + min base c.offset
    · have hbefore : ∀ w ∈ windows base (c :: changes), wall < w.2.utc + min w.1 w.2.offset := by
        intro w hw
        rcases List.mem_cons.mp hw with rfl | hw
        · exact hmin
        · exact lt_windows_cons h (by omega) w hw
      rw [le_localTime_of_lt hbefore, utcoffset_of_lt hbefore]
      omega
    · have hmax := hc (not_lt.mp hmin)
      rw [le_localTime_cons h hmax, utcoffset_cons hmax]
      exact ih (ordered_cons.mp h).2 fun w hw => hwall w (List.mem_cons_of_mem _ hw)

/-- A wall time that a change skips or repeats. -/
theorem window_spec (h : Ordered base changes) {w : Int × Change} (hw : w ∈ windows base changes)
    (hwall : InWindow w wall) :
    utcoffset base changes wall false = w.1 ∧ utcoffset base changes wall true = w.2.offset ∧
      ∀ t, wall ≤ localTime base changes t ↔
        t < w.2.utc ∧ wall ≤ t + w.1 ∨ w.2.utc ≤ t ∧ wall ≤ t + w.2.offset := by
  induction changes generalizing base with
  | nil => cases hw
  | cons c changes ih =>
    obtain ⟨hbefore, htail⟩ := ordered_cons.mp h
    rcases List.mem_cons.mp hw with rfl | hmem
    · have hlater := lt_windows_cons h hwall.2
      refine ⟨?_, ?_, ?_⟩
      · rw [utcoffset, if_pos]
        simpa using hwall.2
      · rw [utcoffset, if_neg]
        · exact utcoffset_of_lt hlater
        · simpa using hwall.1
      · intro t
        dsimp only
        by_cases ht : t < c.utc
        · rw [localTime, offsetAt, if_pos ht]
          omega
        · rw [localTime, offsetAt, if_neg ht, ← localTime, le_localTime_of_lt hlater]
          omega
    · have hmax : c.utc + max base c.offset ≤ wall := (hbefore w hmem).2.trans hwall.1
      obtain ⟨hfirst, hsecond, hlocal⟩ := ih htail hmem
      refine ⟨?_, ?_, fun t => ?_⟩
      · rw [utcoffset_cons hmax, hfirst]
      · rw [utcoffset_cons hmax, hsecond]
      · rw [le_localTime_cons h hmax, hlocal]

theorem localTime_at (h : Ordered base changes) {w : Int × Change} (hw : w ∈ windows base changes) :
    localTime base changes w.2.utc = w.2.utc + w.2.offset := by
  induction changes generalizing base with
  | nil => cases hw
  | cons c changes ih =>
    obtain ⟨hbefore, htail⟩ := ordered_cons.mp h
    rcases List.mem_cons.mp hw with rfl | hmem
    · have hoffset : offsetAt c.offset changes c.utc = c.offset :=
        offsetAt_of_lt fun v hv => (hbefore v hv).1
      rw [localTime, offsetAt, if_neg (lt_irrefl _), hoffset]
    · rw [localTime, offsetAt, if_neg (hbefore w hmem).1.not_gt]
      exact ih htail hmem

/-- The first occurrence of a repeated wall time. -/
theorem localTime_first (h : Ordered base changes) {w : Int × Change}
    (hw : w ∈ windows base changes) (hwall : InWindow w wall) (ht : wall - w.1 < w.2.utc) :
    localTime base changes (wall - w.1) < wall + 1 := by
  by_cases hnext : wall + 1 < w.2.utc + max w.1 w.2.offset
  · have hnext : InWindow w (wall + 1) := ⟨hwall.1.trans (by omega), hnext⟩
    apply not_le.mp
    rw [(window_spec h hw hnext).2.2]
    omega
  · have hlt := localTime_lt_of_mem h hw ht
    simp only [InWindow] at hwall
    omega

/-! ## Spans of wall time -/

/-- An instant just before a change, or one that it repeats. -/
def Near (w : Int × Change) (t : Int) : Prop :=
  t ≤ w.2.utc ∧ (w.2.utc ≤ t + 1 ∨ w.2.utc + w.2.offset ≤ t + w.1)

section
variable {start stop now : Int}

/-- Where the end of the span is skipped or repeated, the change is still to come. -/
def Ends (base : Int) (changes : List Change) (stop now : Int) : Prop :=
  ∀ w ∈ windows base changes, InWindow w stop → now < w.2.utc

/-- Where its beginning is skipped or repeated, it is the first such wall time or the change is
still to come, and the clock takes the first occurrence. -/
def Begins (base : Int) (changes : List Change) (start now : Int) (fold : Bool) : Prop :=
  ∀ w ∈ windows base changes, InWindow w start → fold = false ∧
    (start = w.2.utc + min w.1 w.2.offset ∨ now < w.2.utc)

instance (base : Int) (changes : List Change) (stop now : Int) :
    Decidable (Ends base changes stop now) :=
  inferInstanceAs (Decidable (∀ w ∈ windows base changes, _))

instance (base : Int) (changes : List Change) (start now : Int) (fold : Bool) :
    Decidable (Begins base changes start now fold) :=
  inferInstanceAs (Decidable (∀ w ∈ windows base changes, _))

theorem Ends.of_forall (h : Ordered base changes) (hnow : localTime base changes now < stop)
    (hspan : ∀ w ∈ windows base changes, ∀ t ≤ now, Near w t → localTime base changes t < stop) :
    Ends base changes stop now := by
  intro w hw hstop
  obtain ⟨-, -, hlocal⟩ := window_spec h hw hstop
  by_contra hge
  have hbefore := hspan w hw (w.2.utc - 1) (by omega) ⟨by omega, .inl (by omega)⟩
  have h₁ := not_le.mpr hnow
  have h₂ := not_le.mpr hbefore
  rw [hlocal] at h₁ h₂
  simp only [InWindow] at hstop
  omega

theorem Ends.localTime_lt (hends : Ends base changes stop now) (h : Ordered base changes)
    (hnow : localTime base changes now < stop) (ht : t ≤ now) :
    localTime base changes t < stop := by
  by_contra hge
  have h₁ := not_le.mpr hnow
  have h₂ := not_lt.mp hge
  by_cases hw : ∃ w ∈ windows base changes, InWindow w stop
  · obtain ⟨w, hmem, hstop⟩ := hw
    have hlt := hends w hmem hstop
    rw [(window_spec h hmem hstop).2.2] at h₁ h₂
    omega
  · rw [le_localTime_iff h (fun w hmem hstop => hw ⟨w, hmem, hstop⟩) _ false] at h₁ h₂
    omega

theorem Begins.of_forall (h : Ordered base changes) (hstart : start ≤ localTime base changes now)
    (hstop : localTime base changes now < stop)
    (hspan : ∀ t ≤ now, (t = now ∨ ∃ w ∈ windows base changes, Near w t) →
      (start - utcoffset base changes start fold ≤ t ↔
        start ≤ localTime base changes t ∧ localTime base changes t < stop)) :
        Begins base changes start now fold := by
  intro w hw hwindow
  obtain ⟨hfirst, hsecond, hlocal⟩ := window_spec h hw hwindow
  have hin := hspan now le_rfl (.inl rfl)
  have hafter : w.2.utc ≤ now → w.2.utc + w.2.offset ≤ localTime base changes now :=
    le_localTime_of_mem h hw
  have hat := localTime_at h hw
  have hnow := hstart
  rw [hlocal] at hnow
  have hcases := hwindow
  simp only [InWindow] at hcases
  cases fold with
  | true =>
    -- the second occurrence: the instants of the first are left out, or ones before the change
    -- taken in
    rw [hsecond] at hin hspan
    exfalso
    by_cases hgap : w.1 < w.2.offset
    · have hbefore := hspan (w.2.utc - 1) (by omega) (.inr ⟨w, hw, by omega, .inl (by omega)⟩)
      rw [hlocal] at hbefore
      omega
    · by_cases hearlier : now < w.2.utc
      · omega
      · have hfirst := localTime_first h hw hwindow (by omega)
        have hspan := hspan (start - w.1) (by omega) (.inr ⟨w, hw, by omega, .inr (by omega)⟩)
        rw [hlocal] at hspan
        omega
  | false =>
    refine ⟨rfl, ?_⟩
    rw [hfirst] at hin hspan
    by_contra hneither
    have hspan := hspan w.2.utc (by omega) (.inr ⟨w, hw, le_rfl, .inl (by omega)⟩)
    rw [hlocal, hat] at hspan
    omega

theorem Begins.le_localTime_iff (hbegins : Begins base changes start now fold)
    (h : Ordered base changes) (ht : t ≤ now) :
    start ≤ localTime base changes t ↔ start - utcoffset base changes start fold ≤ t := by
  by_cases hw : ∃ w ∈ windows base changes, InWindow w start
  · obtain ⟨w, hmem, hwindow⟩ := hw
    obtain ⟨rfl, hfirst⟩ := hbegins w hmem hwindow
    obtain ⟨hoffset, -, hlocal⟩ := window_spec h hmem hwindow
    rw [hlocal, hoffset]
    simp only [InWindow] at hwindow
    omega
  · exact WallClock.le_localTime_iff h (fun w hmem hwindow => hw ⟨w, hmem, hwindow⟩) t fold

/-- **A span of wall time up to now**: the instants whose wall times lie in the span are those from
the instant on at which the clock puts its beginning, exactly when the clock takes the first
occurrence of the beginning, the span has not been left and entered again, and none of it was
skipped at the beginning. -/
theorem span_iff (h : Ordered base changes) (hlt : start < stop)
    (hstart : start ≤ localTime base changes now) (hstop : localTime base changes now < stop)
    {ok : Int → Prop} (hok : ok now)
    (hnear : ∀ w ∈ windows base changes, ∀ t ≤ now, Near w t → ok t) :
    (∀ t ≤ now, ok t → (start - utcoffset base changes start fold ≤ t ↔
        start ≤ localTime base changes t ∧ localTime base changes t < stop)) ↔
      Begins base changes start now fold ∧ Ends base changes stop now := by
  constructor
  · intro hspan
    have hbegins : Begins base changes start now fold := by
      apply Begins.of_forall h hstart hstop
      rintro t ht (rfl | ⟨w, hw, hwt⟩)
      · exact hspan t ht hok
      · exact hspan t ht (hnear w hw t ht hwt)
    refine ⟨hbegins, .of_forall h hstop fun w hw t ht hwt => ?_⟩
    by_contra hge
    have hle : start ≤ localTime base changes t := hlt.le.trans (not_lt.mp hge)
    have hafter := (hbegins.le_localTime_iff h ht).mp hle
    exact hge ((hspan t ht (hnear w hw t ht hwt)).mp hafter).2
  · rintro ⟨hbegins, hends⟩ t ht -
    rw [hbegins.le_localTime_iff h ht, iff_self_and]
    intro _
    exact hends.localTime_lt h hstop ht

end

end WallClock
end EasyModelGate
