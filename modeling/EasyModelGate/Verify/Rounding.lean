import Mathlib.Algebra.Order.Field.Power
import Mathlib.Tactic.Linarith
import Mathlib.Tactic.NormNum
import Mathlib.Tactic.Positivity
import Mathlib.Tactic.Ring
import EasyModelGate.Db.Sql

/-! # Rounding

Rounding to the nearest double is monotone and leaves doubles alone, and so it does not take a
number below a double. The sum of two rounded integers that overflows 64 bits stays above every
64-bit integer. -/

namespace EasyModelGate.PyFloat

/-! ## To the nearest integer -/

theorem le_roundHalfEven {n : ℤ} {q : ℚ} (h : n ≤ q) : n ≤ roundHalfEven q := by
  have hfloor : n ≤ ⌊q⌋ := Int.le_floor.mpr h
  unfold roundHalfEven
  dsimp only
  split_ifs <;> omega

theorem le_roundHalfEven_add (q : ℚ) : q ≤ roundHalfEven q + 1 / 2 := by
  have hfloor : q < ⌊q⌋ + 1 := Int.lt_floor_add_one q
  unfold roundHalfEven
  dsimp only
  split_ifs <;> push_cast <;> linarith

theorem roundHalfEven_le_add (q : ℚ) : (roundHalfEven q : ℚ) ≤ q + 1 / 2 := by
  have hfloor : (⌊q⌋ : ℚ) ≤ q := Int.floor_le q
  unfold roundHalfEven
  dsimp only
  split_ifs <;> push_cast <;> linarith

theorem roundHalfEven_mono {p q : ℚ} (h : p ≤ q) : roundHalfEven p ≤ roundHalfEven q := by
  by_contra hlt
  have hstep : roundHalfEven q + 1 ≤ roundHalfEven p := not_le.mp hlt
  have hstep : (roundHalfEven q : ℚ) + 1 ≤ roundHalfEven p := by exact_mod_cast hstep
  have hp := roundHalfEven_le_add p
  have hq := le_roundHalfEven_add q
  have heq : p = q := by linarith
  rw [heq] at hlt
  exact hlt le_rfl

theorem roundHalfEven_intCast (n : ℤ) : roundHalfEven n = n := by
  unfold roundHalfEven
  simp

theorem roundHalfEven_neg (q : ℚ) : roundHalfEven (-q) = -roundHalfEven q := by
  rcases eq_or_ne (q : ℚ) ⌊q⌋ with hq | hq
  · rw [hq, ← Int.cast_neg, roundHalfEven_intCast, roundHalfEven_intCast]
  · have hlt : (⌊q⌋ : ℚ) < q := lt_of_le_of_ne (Int.floor_le q) hq.symm
    have hfloor : ⌊-q⌋ = -⌊q⌋ - 1 := by
      rw [Int.floor_eq_iff]
      have := Int.lt_floor_add_one q
      push_cast
      constructor <;> linarith
    unfold roundHalfEven
    rw [hfloor]
    dsimp only
    push_cast
    split_ifs <;> first | omega | (exfalso; linarith)

/-! ## To the nearest double -/

/-- Where a positive number lies, by the logarithms of its numerator and denominator. -/
theorem two_zpow_log2_bounds {a : ℚ} (ha : 0 < a) :
    (2 : ℚ) ^ ((Nat.log2 a.num.natAbs : ℤ) - Nat.log2 a.den - 1) ≤ a ∧
      a < (2 : ℚ) ^ ((Nat.log2 a.num.natAbs : ℤ) - Nat.log2 a.den + 1) := by
  have hnum : (a.num.natAbs : ℚ) = a.num := by
    rw [Nat.cast_natAbs, abs_of_nonneg (Rat.num_nonneg.mpr ha.le)]
  have hnum0 : a.num.natAbs ≠ 0 := Int.natAbs_ne_zero.mpr (Rat.num_ne_zero.mpr ha.ne')
  have hden : (0 : ℚ) < a.den := by exact_mod_cast a.den_pos
  have hdiv : a = a.num.natAbs / a.den := by rw [hnum, Rat.num_div_den]
  have hn₁ : (2 : ℚ) ^ Nat.log2 a.num.natAbs ≤ a.num.natAbs := by
    exact_mod_cast Nat.log2_self_le hnum0
  have hn₂ : (a.num.natAbs : ℚ) < 2 ^ (Nat.log2 a.num.natAbs + 1) := by
    exact_mod_cast Nat.lt_log2_self
  have hd₁ : (2 : ℚ) ^ Nat.log2 a.den ≤ a.den := by
    exact_mod_cast Nat.log2_self_le a.den_ne_zero
  have hd₂ : (a.den : ℚ) < 2 ^ (Nat.log2 a.den + 1) := by
    exact_mod_cast Nat.lt_log2_self
  generalize Nat.log2 a.num.natAbs = n at *
  generalize Nat.log2 a.den = d at *
  constructor
  · rw [show (n : ℤ) - d - 1 = n - ((d + 1 : ℕ) : ℤ) by push_cast; ring, zpow_sub₀ two_ne_zero,
      zpow_natCast, zpow_natCast, hdiv]
    exact div_le_div₀ (Nat.cast_nonneg _) hn₁ hden hd₂.le
  · rw [show (n : ℤ) - d + 1 = ((n + 1 : ℕ) : ℤ) - d by push_cast; ring, zpow_sub₀ two_ne_zero,
      zpow_natCast, zpow_natCast, hdiv]
    exact (div_lt_div_iff_of_pos_right hden).mpr hn₂ |>.trans_le
      (div_le_div_of_nonneg_left (by positivity) (by positivity) hd₁)

/-- A positive number has at most 53 bits above its unit in the last place, and exactly 53 unless it
is subnormal. -/
theorem ulpExponent_bounds {q : ℚ} (hq : 0 < q) :
    q < 2 ^ (ulpExponent q + 53) ∧ -1074 ≤ ulpExponent q ∧
      (-1074 < ulpExponent q → 2 ^ (ulpExponent q + 52) ≤ q) := by
  obtain ⟨hlo, hhi⟩ := two_zpow_log2_bounds hq
  unfold ulpExponent
  dsimp only
  rw [abs_of_pos hq]
  generalize (Nat.log2 q.num.natAbs : ℤ) - Nat.log2 q.den = k at *
  have hle {a b : ℤ} (h : a ≤ b) : (2 : ℚ) ^ a ≤ 2 ^ b := zpow_le_zpow_right₀ one_le_two h
  split
  · refine ⟨hhi.trans_le (hle (by omega)), by omega, fun h => ?_⟩
    exact (hle (by omega)).trans ‹(2 : ℚ) ^ k ≤ q›
  · have hk : q < 2 ^ k := not_le.mp ‹_›
    exact ⟨hk.trans_le (hle (by omega)), by omega, fun h => (hle (by omega)).trans hlo⟩

/-- `q` to the nearest multiple of its unit in the last place: `round`, were there no largest
double. -/
def toGrid (q : ℚ) : ℚ := roundHalfEven (q / 2 ^ ulpExponent q) * 2 ^ ulpExponent q

theorem round_eq (q : ℚ) : round q =
    if (2 : ℚ) ^ 1024 ≤ |toGrid q| then .inf (toGrid q < 0) else .fin (toGrid q) := by
  unfold round
  split
  · rename_i hq
    have hgrid : toGrid q = 0 := by
      rw [hq, toGrid, zero_div]
      norm_num [roundHalfEven]
    rw [hgrid, abs_zero, if_neg (not_le.mpr (by positivity))]
  · rfl

theorem ulpExponent_neg (q : ℚ) : ulpExponent (-q) = ulpExponent q := by
  unfold ulpExponent
  rw [abs_neg]

theorem toGrid_neg (q : ℚ) : toGrid (-q) = -toGrid q := by
  unfold toGrid
  rw [ulpExponent_neg, neg_div, roundHalfEven_neg]
  push_cast
  ring

theorem toGrid_nonneg {q : ℚ} (hq : 0 ≤ q) : 0 ≤ toGrid q := by
  have hround : (0 : ℤ) ≤ roundHalfEven (q / 2 ^ ulpExponent q) :=
    le_roundHalfEven (by push_cast; positivity)
  have hround : (0 : ℚ) ≤ roundHalfEven (q / 2 ^ ulpExponent q) := by exact_mod_cast hround
  unfold toGrid
  positivity

theorem ulpExponent_mono {p q : ℚ} (hp : 0 < p) (h : p ≤ q) : ulpExponent p ≤ ulpExponent q := by
  obtain ⟨-, -, hlo⟩ := ulpExponent_bounds hp
  obtain ⟨hhi, hmin, -⟩ := ulpExponent_bounds (hp.trans_le h)
  by_contra hlt
  have hpow : (2 : ℚ) ^ (ulpExponent p + 52) < 2 ^ (ulpExponent q + 53) :=
    (hlo (by omega)).trans_lt (h.trans_lt hhi)
  have hexp := (zpow_lt_zpow_iff_right₀ one_lt_two).mp hpow
  omega

/-- At most 53 bits are left. -/
theorem roundHalfEven_div_ulp_le {q : ℚ} (hq : 0 < q) :
    roundHalfEven (q / 2 ^ ulpExponent q) ≤ 2 ^ 53 := by
  obtain ⟨hhi, -, -⟩ := ulpExponent_bounds hq
  rw [zpow_add₀ two_ne_zero, mul_comm] at hhi
  have hdiv : q / 2 ^ ulpExponent q ≤ ((2 ^ 53 : ℤ) : ℚ) := by
    rw [div_le_iff₀ (by positivity)]
    exact_mod_cast hhi.le
  have hround := roundHalfEven_mono hdiv
  rwa [roundHalfEven_intCast] at hround

/-- A number of 53 bits is its own rounding. -/
theorem toGrid_eq {c t : ℤ} (hc : |c| ≤ 2 ^ 53) (ht : -1074 ≤ t) :
    toGrid (c * 2 ^ t) = c * 2 ^ t := by
  wlog hpos : 0 ≤ c generalizing c
  · have hneg := this (c := -c) (by rwa [abs_neg]) (by omega)
    push_cast at hneg
    rwa [neg_mul, toGrid_neg, neg_inj] at hneg
  rcases hpos.eq_or_lt with rfl | hpos
  · norm_num [toGrid, roundHalfEven]
  have hc : c ≤ 2 ^ 53 := (le_abs_self c).trans hc
  have hq : (0 : ℚ) < c * 2 ^ t := by positivity
  obtain ⟨-, hmin, hlo⟩ := ulpExponent_bounds hq
  -- the unit divides the number
  have hint : ∃ k : ℤ, (c : ℚ) * 2 ^ t = k * 2 ^ ulpExponent ((c : ℚ) * 2 ^ t) := by
    generalize ulpExponent ((c : ℚ) * 2 ^ t) = e at *
    rcases le_or_gt e t with hle | hlt
    · obtain ⟨d, rfl⟩ := Int.le.dest hle
      refine ⟨c * 2 ^ d, ?_⟩
      rw [zpow_add₀ two_ne_zero, zpow_natCast]
      push_cast
      ring
    · have hlo := hlo (by omega)
      have hc' : (c : ℚ) ≤ 2 ^ (53 : ℤ) := by exact_mod_cast hc
      have hpow : (2 : ℚ) ^ (e + 52) ≤ 2 ^ (53 + t) := by
        rw [zpow_add₀ two_ne_zero 53 t]
        exact hlo.trans (mul_le_mul_of_nonneg_right hc' (by positivity))
      have hexp := (zpow_le_zpow_iff_right₀ one_lt_two).mp hpow
      obtain rfl : e = t + 1 := by omega
      rw [show t + 1 + 52 = 53 + t by ring, zpow_add₀ two_ne_zero 53 t] at hlo
      have hge : (2 : ℚ) ^ (53 : ℤ) ≤ c := le_of_mul_le_mul_right hlo (by positivity)
      refine ⟨2 ^ 52, ?_⟩
      rw [le_antisymm hc' hge, zpow_add₀ two_ne_zero t 1]
      push_cast
      ring
  obtain ⟨k, hk⟩ := hint
  have hulp : (2 : ℚ) ^ ulpExponent ((c : ℚ) * 2 ^ t) ≠ 0 := by positivity
  have hdiv : (c : ℚ) * 2 ^ t / 2 ^ ulpExponent ((c : ℚ) * 2 ^ t) = k := by
    rw [div_eq_iff hulp]
    exact hk
  rw [toGrid, hdiv, roundHalfEven_intCast]
  exact hk.symm

theorem toGrid_mono {p q : ℚ} (h : p ≤ q) : toGrid p ≤ toGrid q := by
  have hpos {p q : ℚ} (hp : 0 < p) (h : p ≤ q) : toGrid p ≤ toGrid q := by
    have hq := hp.trans_le h
    obtain ⟨-, hmin, -⟩ := ulpExponent_bounds hp
    obtain ⟨-, -, hlo⟩ := ulpExponent_bounds hq
    rcases (ulpExponent_mono hp h).eq_or_lt with heq | hlt
    · unfold toGrid
      rw [heq]
      apply mul_le_mul_of_nonneg_right _ (by positivity)
      exact_mod_cast roundHalfEven_mono (div_le_div_of_nonneg_right h (by positivity))
    · -- a power of two lies between the two
      have hlo := hlo (by omega)
      have hround : ((2 ^ 52 : ℕ) : ℤ) ≤ roundHalfEven (q / 2 ^ ulpExponent q) := by
        apply le_roundHalfEven
        rw [zpow_add₀ two_ne_zero, mul_comm] at hlo
        rw [le_div_iff₀ (by positivity)]
        exact_mod_cast hlo
      have hround : (2 : ℚ) ^ 52 ≤ roundHalfEven (q / 2 ^ ulpExponent q) := by exact_mod_cast hround
      have hle : (roundHalfEven (p / 2 ^ ulpExponent p) : ℚ) ≤ 2 ^ 53 := by
        exact_mod_cast roundHalfEven_div_ulp_le hp
      calc toGrid p ≤ 2 ^ 53 * 2 ^ (ulpExponent q - 1) := by
            apply mul_le_mul hle _ (by positivity) (by positivity)
            exact zpow_le_zpow_right₀ one_le_two (by omega)
        _ = 2 ^ 52 * 2 ^ ulpExponent q := by
            rw [zpow_sub₀ two_ne_zero]
            ring
        _ ≤ toGrid q := mul_le_mul_of_nonneg_right hround (by positivity)
  rcases lt_or_ge 0 p with hp | hp
  · exact hpos hp h
  · rcases lt_or_ge q 0 with hq | hq
    · have hneg := hpos (neg_pos.mpr hq) (neg_le_neg h)
      rwa [toGrid_neg, toGrid_neg, neg_le_neg_iff] at hneg
    · have hp0 : toGrid p ≤ 0 := by
        have := toGrid_nonneg (neg_nonneg.mpr hp)
        rw [toGrid_neg] at this
        linarith
      exact hp0.trans (toGrid_nonneg hq)

/-! ## Lower bounds -/

/-- `x ≥ q` -/
def AtLeast (q : ℚ) : PyFloat → Prop
  | .fin x => q ≤ x
  | .inf negative => negative = false
  | .nan => False

theorem AtLeast.mono {x : PyFloat} (h : x.AtLeast b) (hab : a ≤ b) : x.AtLeast a := by
  cases x with
  | fin x => exact hab.trans h
  | inf | nan => exact h

/-- `round q` is at least what bounds the rounded number. -/
theorem round_atLeast_of_le {q b : ℚ} (hb : 0 ≤ b) (h : b ≤ toGrid q) : (round q).AtLeast b := by
  rw [round_eq]
  split
  · exact decide_eq_false (not_lt.mpr (hb.trans h))
  · exact h

/-- **A double is a lower bound of what is rounded above it.** -/
theorem round_atLeast {c : ℕ} {t : ℤ} (hc : c ≤ 2 ^ 53) (ht : -1074 ≤ t) {q : ℚ}
    (h : (c : ℚ) * 2 ^ t ≤ q) : (round q).AtLeast (c * 2 ^ t) := by
  have hgrid := toGrid_eq (c := c) (t := t)
    (by rw [abs_of_nonneg (by positivity)]; exact_mod_cast hc) ht
  push_cast at hgrid
  apply round_atLeast_of_le (by positivity)
  rw [← hgrid]
  exact toGrid_mono h

theorem AtLeast.add {x y : PyFloat} (hx : x.AtLeast a) (hy : y.AtLeast b)
    (hround : ∀ q, a + b ≤ q → (round q).AtLeast c) : (x.add y).AtLeast c := by
  cases x with
  | nan => cases hx
  | inf s =>
    cases hx
    cases y with
    | nan => cases hy
    | inf s =>
      cases hy
      rfl
    | fin y => rfl
  | fin x =>
    cases y with
    | nan => cases hy
    | inf s => exact hy
    | fin y => exact hround _ (add_le_add hx hy)

theorem ulpExponent_eq_ten {q : ℚ} (h₁ : (2 : ℚ) ^ 62 ≤ q) (h₂ : q < 2 ^ 63) :
    ulpExponent q = 10 := by
  obtain ⟨hhi, -, hlo⟩ := ulpExponent_bounds (lt_of_lt_of_le (by norm_num) h₁)
  have h₁ : (2 : ℚ) ^ (62 : ℤ) < 2 ^ (ulpExponent q + 53) :=
    lt_of_le_of_lt (by exact_mod_cast h₁) hhi
  have h₁ := (zpow_lt_zpow_iff_right₀ one_lt_two).mp h₁
  have h₂ : (2 : ℚ) ^ (ulpExponent q + 52) < 2 ^ (63 : ℤ) :=
    lt_of_le_of_lt (hlo (by omega)) (by exact_mod_cast h₂)
  have h₂ := (zpow_lt_zpow_iff_right₀ one_lt_two).mp h₂
  omega

/-- The doubles below 2^63 are 1024 apart; the last tie goes up. -/
theorem round_atLeast_overflow {q : ℚ} (h : (2 : ℚ) ^ 63 - 512 ≤ q) :
    (round q).AtLeast (2 ^ 63) := by
  rcases le_or_gt ((2 : ℚ) ^ 63) q with hge | hlt
  · exact (round_atLeast (c := 1) (t := 63) (by norm_num) (by norm_num)
      (by push_cast; rw [one_mul]; exact_mod_cast hge)).mono (by norm_num)
  apply round_atLeast_of_le (by positivity)
  unfold toGrid
  rw [ulpExponent_eq_ten (by linarith) hlt]
  have hfloor : ⌊q / 2 ^ (10 : ℤ)⌋ = 2 ^ 53 - 1 := by
    rw [Int.floor_eq_iff]
    norm_num
    constructor <;> linarith
  have hround : roundHalfEven (q / 2 ^ (10 : ℤ)) = 2 ^ 53 := by
    have hhalf : 1 / 2 ≤ q / 2 ^ (10 : ℤ) - (2 ^ 53 - 1 : ℤ) := by
      norm_num
      linarith
    unfold roundHalfEven
    rw [hfloor]
    dsimp only
    rw [if_neg (not_lt.mpr hhalf)]
    norm_num
  rw [hround]
  norm_num

/-- An integer of 63 bits is rounded to a multiple of 1024. -/
theorem round_int63 {m : ℤ} (h₁ : 2 ^ 62 ≤ m) (h₂ : m < 2 ^ 63) :
    ∃ j : ℕ, 2 ^ 52 ≤ j ∧ m ≤ 1024 * j + 512 ∧ (round m).AtLeast (1024 * j) := by
  have hq₁ : (2 : ℚ) ^ 62 ≤ m := by exact_mod_cast h₁
  have hq₂ : (m : ℚ) < 2 ^ 63 := by exact_mod_cast h₂
  have hq : (0 : ℚ) < m := lt_of_lt_of_le (by norm_num) hq₁
  have hj := le_roundHalfEven (n := 2 ^ 52) (q := (m : ℚ) / 2 ^ (10 : ℤ))
    (by rw [le_div_iff₀ (by positivity)]; norm_num at hq₁ ⊢; linarith)
  have hup := le_roundHalfEven_add ((m : ℚ) / 2 ^ (10 : ℤ))
  have hround := round_atLeast_of_le (q := m) (b := roundHalfEven ((m : ℚ) / 2 ^ (10 : ℤ)) * 1024)
  unfold toGrid at hround
  rw [ulpExponent_eq_ten hq₁ hq₂] at hround
  obtain ⟨j, hj'⟩ := Int.eq_ofNat_of_zero_le ((by norm_num : (0 : ℤ) ≤ 2 ^ 52).trans hj)
  rw [hj'] at hj hup hround
  refine ⟨j, by exact_mod_cast hj, ?_, ?_⟩
  · rw [div_le_iff₀ (by positivity)] at hup
    norm_num at hup
    have hup : (m : ℚ) ≤ ((1024 * j + 512 : ℤ) : ℚ) := by
      push_cast
      linarith
    exact_mod_cast hup
  · rw [mul_comm]
    exact hround (by positivity) (by norm_num)

protected theorem add_comm (x y : PyFloat) : x.add y = y.add x := by
  cases x with
  | nan => cases y <;> rfl
  | inf s =>
    cases y with
    | nan | fin => rfl
    | inf t => cases s <;> cases t <;> rfl
  | fin x =>
    cases y with
    | nan | inf => rfl
    | fin y => exact congrArg round (add_comm x y)

theorem round_atLeast_zero {n : ℤ} (h : 0 ≤ n) : (round n).AtLeast 0 := by
  have h : (0 : ℚ) ≤ n := by exact_mod_cast h
  simpa using round_atLeast (c := 0) (t := 0) (by norm_num) (by norm_num) (by simpa using h)

/-- **A sum of two 64-bit integers that overflows** stays at least 2^63 in floating point, although
both summands are rounded first. -/
theorem add_round_atLeast {m n : ℤ} (hm : m < 2 ^ 63) (hn : n < 2 ^ 63) (h : 2 ^ 63 ≤ m + n) :
    ((round m).add (round n)).AtLeast (2 ^ 63) := by
  wlog hnm : n ≤ m generalizing m n
  · rw [PyFloat.add_comm]
    exact this hn hm (by omega) (by omega)
  obtain ⟨j, hj, hmj, hround⟩ := round_int63 (by omega) hm
  have hn0 : 0 ≤ n := by omega
  have hsum {c : ℕ} (hc : c ≤ 2 ^ 53) (hcn : (c : ℤ) * 512 ≤ n)
      (hcj : (2 : ℤ) ^ 63 - 512 ≤ 1024 * j + c * 512) :
      ((round m).add (round n)).AtLeast (2 ^ 63) := by
    have hcn : (c : ℚ) * 2 ^ (9 : ℤ) ≤ n := by
      norm_num
      exact_mod_cast hcn
    have hcj : (2 : ℚ) ^ 63 - 512 ≤ 1024 * j + c * 512 := by exact_mod_cast hcj
    refine hround.add (round_atLeast hc (by norm_num) hcn) fun q hq => round_atLeast_overflow ?_
    norm_num at hq
    linarith
  rcases le_or_gt (2 ^ 53 : ℤ) j with hlt | hge
  · exact hsum (c := 0) (by norm_num) (by omega) (by omega)
  · -- `n` is at least 2^54 - 2j - 1 times 512, which is a double
    obtain ⟨c, hc⟩ := Int.eq_ofNat_of_zero_le (a := 2 ^ 54 - 2 * j - 1) (by omega)
    have hj : (2 ^ 52 : ℤ) ≤ j := by exact_mod_cast hj
    have hc53 : (c : ℤ) ≤ 2 ^ 53 := by omega
    exact hsum (c := c) (by exact_mod_cast hc53) (by omega) (by omega)

/-- Once there, it stays there. -/
theorem AtLeast.add_round {x : PyFloat} (hx : x.AtLeast (2 ^ 63)) {n : ℤ} (hn : 0 ≤ n) :
    (x.add (round n)).AtLeast (2 ^ 63) :=
  hx.add (round_atLeast_zero hn) fun _ hq => round_atLeast_overflow (by linarith)

/-! ## By value -/

theorem value_round_mono_of_grid {p q : ℚ} (h : toGrid p ≤ toGrid q) :
    (round p).value ≤ (round q).value := by
  rw [round_eq, round_eq]
  have hmax : (0 : ℚ) < 2 ^ 1024 := by positivity
  generalize (2 : ℚ) ^ 1024 = max at *
  by_cases hp : max ≤ |toGrid p|
  · rw [if_pos hp]
    rcases le_abs.mp hp with hpos | hneg
    · have hq : max ≤ toGrid q := hpos.trans h
      have hq0 : ¬ toGrid q < 0 := not_lt.mpr (hmax.le.trans hq)
      rw [if_pos (hq.trans (le_abs_self _)), decide_eq_false hq0]
      exact le_top
    · have hp0 : toGrid p < 0 := by linarith
      rw [decide_eq_true hp0]
      exact bot_le
  · rw [if_neg hp]
    obtain ⟨hlo, hhi⟩ := abs_lt.mp (not_le.mp hp)
    by_cases hq : max ≤ |toGrid q|
    · have hq0 : ¬ toGrid q < 0 := by
        intro hq0
        rw [abs_of_neg hq0] at hq
        linarith
      rw [if_pos hq, decide_eq_false hq0]
      exact le_top
    · rw [if_neg hq]
      exact WithBot.coe_le_coe.mpr (WithTop.coe_le_coe.mpr h)

/-- **Rounding is monotone.** -/
theorem value_round_mono {p q : ℚ} (h : p ≤ q) : (round p).value ≤ (round q).value :=
  value_round_mono_of_grid (toGrid_mono h)

/-- What is rounded is a double. -/
theorem toGrid_toGrid (q : ℚ) : toGrid (toGrid q) = toGrid q := by
  wlog hq : 0 < q generalizing q
  · rcases (not_lt.mp hq).eq_or_lt with rfl | hneg
    · norm_num [toGrid, roundHalfEven]
    · have hpos := this (-q) (neg_pos.mpr hneg)
      rwa [toGrid_neg, toGrid_neg, neg_inj] at hpos
  obtain ⟨-, hmin, -⟩ := ulpExponent_bounds hq
  refine toGrid_eq ?_ hmin
  have hround : (0 : ℤ) ≤ roundHalfEven (q / 2 ^ ulpExponent q) :=
    le_roundHalfEven (by push_cast; positivity)
  rw [abs_of_nonneg hround]
  exact roundHalfEven_div_ulp_le hq

theorem storable_fin {q : ℚ} : (fin q).storable = true ↔ toGrid q = q ∧ |q| < 2 ^ 1024 := by
  simp only [storable, decide_eq_true_eq]
  rw [round_eq]
  constructor
  · intro h
    split at h
    · cases h
    · rename_i hlt
      have hgrid := PyFloat.fin.inj h
      rw [hgrid] at hlt
      exact ⟨hgrid, not_le.mp hlt⟩
  · rintro ⟨hgrid, hlt⟩
    rw [hgrid, if_neg (not_le.mpr hlt)]

theorem storable_round (q : ℚ) : (round q).storable = true := by
  rw [round_eq]
  split
  · rfl
  · rename_i hlt
    exact storable_fin.mpr ⟨toGrid_toGrid q, not_le.mp hlt⟩

/-- A double is not passed. -/
theorem value_le_round {q r : ℚ} (hq : (fin q).storable = true) (h : q ≤ r) :
    (fin q).value ≤ (round r).value := by
  have hround : round q = fin q := of_decide_eq_true hq
  rw [← hround]
  exact value_round_mono h

theorem AtLeast.value_le {x : PyFloat} (h : x.AtLeast b) : (fin b).value ≤ x.value := by
  cases x with
  | fin q => exact WithBot.coe_le_coe.mpr (WithTop.coe_le_coe.mpr h)
  | inf negative =>
    cases h
    exact le_top
  | nan => cases h

/-- A sum of what lies above certain numbers is no NaN. -/
theorem AtLeast.storable_add {x y : PyFloat} (hx : x.AtLeast a) (hy : y.AtLeast b) :
    (x.add y).storable = true := by
  cases x with
  | nan => cases hx
  | inf s =>
    cases hx
    cases y with
    | nan => cases hy
    | inf s =>
      cases hy
      rfl
    | fin y => rfl
  | fin x =>
    cases y with
    | nan => cases hy
    | inf s => rfl
    | fin y => exact storable_round _

/-- Adding what is not negative. -/
theorem value_le_add {x y : PyFloat} (hx : x.storable = true) (hxa : x.AtLeast a)
    (hy : y.AtLeast 0) :
    x.value ≤ (x.add y).value := by
  cases x with
  | nan => cases hx
  | inf s =>
    cases hxa
    cases y with
    | nan => cases hy
    | inf s =>
      cases hy
      exact le_rfl
    | fin y => exact le_rfl
  | fin x =>
    cases y with
    | nan => cases hy
    | inf s =>
      cases hy
      exact le_top
    | fin y =>
      have hy : (0 : ℚ) ≤ y := hy
      exact value_le_round hx (by linarith)

end EasyModelGate.PyFloat

namespace EasyModelGate.SqlNumber

@[simp] theorem value_integerAffinity (x : SqlNumber) : (integerAffinity x).value = x.value := by
  cases x with
  | int => rfl
  | real x =>
    cases x with
    | nan | inf => rfl
    | fin q =>
      unfold integerAffinity
      dsimp only
      split
      · rename_i h
        unfold value PyFloat.value
        dsimp only
        rw [Rat.coe_int_num_of_den_eq_one h.1]
      · rfl

theorem storable_integerAffinity {x : SqlNumber} (h : x.storable = true) :
    (integerAffinity x).storable = true := by
  cases x with
  | int => rfl
  | real x =>
    cases x with
    | nan => cases h
    | inf => rfl
    | fin q =>
      unfold integerAffinity
      dsimp only
      split
      · rfl
      · exact h

end EasyModelGate.SqlNumber
