import EasyModelGate.Services.Analytics
import EasyModelGate.Verify.Rounding

/-! # `max` and `round(x, 1)` of stored numbers

Rounding to one decimal does not change the order of the numbers that a column can hold, integers
and doubles among each other, and so the largest of some numbers stays the largest when all are
rounded. -/

namespace EasyModelGate

namespace PyFloat

/-- A double is an integer, or has some of its 53 bits after the point. -/
theorem floor_eq_or_abs_lt {q : ℚ} (hq : toGrid q = q) : (⌊q⌋ : ℚ) = q ∨ |q| < 2 ^ 52 := by
  rcases eq_or_ne q 0 with rfl | hne
  · exact .inl (by simp)
  obtain ⟨hhi, -, -⟩ := ulpExponent_bounds (abs_pos.mpr hne)
  have habs : ulpExponent |q| = ulpExponent q := by
    unfold ulpExponent
    rw [abs_abs]
  rw [habs] at hhi
  rcases lt_or_ge (ulpExponent q) 0 with hneg | hnonneg
  · refine .inr (hhi.trans_le ?_)
    have hpow : (2 : ℚ) ^ (ulpExponent q + 53) ≤ 2 ^ (52 : ℤ) :=
      zpow_le_zpow_right₀ one_le_two (by omega)
    exact_mod_cast hpow
  · obtain ⟨e, he⟩ := Int.eq_ofNat_of_zero_le hnonneg
    have hint : q = ((roundHalfEven (q / 2 ^ ulpExponent q) * 2 ^ e : ℤ) : ℚ) := by
      conv_lhs => rw [← hq, toGrid]
      push_cast
      rw [he, zpow_natCast]
    left
    rw [hint, Int.floor_intCast]

theorem toGrid_floor {q : ℚ} (hq : toGrid q = q) : toGrid ⌊q⌋ = ⌊q⌋ := by
  rcases floor_eq_or_abs_lt hq with hint | hlt
  · rw [hint, hq]
  · obtain ⟨hlo, hhi⟩ := abs_lt.mp hlt
    have hle : ⌊q⌋ ≤ 2 ^ 52 := Int.floor_le_iff.mpr (by push_cast; linarith)
    have hge : -2 ^ 52 ≤ ⌊q⌋ := Int.le_floor.mpr (by push_cast; linarith)
    have hgrid := toGrid_eq (c := ⌊q⌋) (t := 0) (abs_le.mpr ⟨by omega, by omega⟩) (by norm_num)
    simpa using hgrid

theorem toGrid_ceil {q : ℚ} (hq : toGrid q = q) : toGrid ⌈q⌉ = ⌈q⌉ := by
  have hneg := toGrid_floor (q := -q) (by rw [toGrid_neg, hq])
  rw [Int.floor_neg] at hneg
  push_cast at hneg
  rwa [toGrid_neg, neg_inj] at hneg

/-- `round(x, 1)` stays between the integers around a double. -/
theorem roundTenth_fin {q : ℚ} (hq : (fin q).storable = true) :
    ∃ r : ℚ, (fin q).roundTenth = fin r ∧ (⌊q⌋ : ℚ) ≤ r ∧ r ≤ ⌈q⌉ := by
  obtain ⟨hgrid, hmax⟩ := storable_fin.mp hq
  have hlo : (⌊q⌋ : ℚ) ≤ toGrid (roundHalfEven (q * 10) / 10) := by
    rw [← toGrid_floor hgrid]
    apply toGrid_mono
    have hround : ⌊q⌋ * 10 ≤ roundHalfEven (q * 10) := by
      apply le_roundHalfEven
      have := Int.floor_le q
      push_cast
      linarith
    rw [le_div_iff₀ (by norm_num)]
    exact_mod_cast hround
  have hhi : toGrid (roundHalfEven (q * 10) / 10) ≤ ⌈q⌉ := by
    rw [← toGrid_ceil hgrid]
    apply toGrid_mono
    have hle : q * 10 ≤ ((⌈q⌉ * 10 : ℤ) : ℚ) := by
      have := Int.le_ceil q
      push_cast
      linarith
    have hround := roundHalfEven_mono hle
    rw [roundHalfEven_intCast] at hround
    rw [div_le_iff₀ (by norm_num)]
    exact_mod_cast hround
  refine ⟨_, ?_, hlo, hhi⟩
  unfold roundTenth
  dsimp only
  rw [round_eq, if_neg]
  rw [not_le]
  rcases floor_eq_or_abs_lt hgrid with hint | hlt
  · have hceil : (⌈q⌉ : ℚ) = q := by rw [← hint, Int.ceil_intCast]
    rwa [le_antisymm (hhi.trans hceil.le) (hint.ge.trans hlo)]
  · have hsmall : (2 : ℚ) ^ 52 + 1 < 2 ^ 1024 := by
      have hpow : (2 : ℚ) ^ 53 ≤ 2 ^ 1024 := pow_le_pow_right₀ one_le_two (by norm_num)
      exact lt_of_lt_of_le (by norm_num) hpow
    obtain ⟨hqlo, hqhi⟩ := abs_lt.mp hlt
    have hfloor := Int.lt_floor_add_one q
    have hceil := Int.ceil_lt_add_one q
    exact (abs_le.mpr ⟨by linarith, by linarith⟩).trans_lt hsmall

end PyFloat

namespace SqlNumber

theorem value_coe_le {a b : ℚ} : ((a : WithTop ℚ) : WithBot (WithTop ℚ)) ≤
      ((b : WithTop ℚ) : WithBot (WithTop ℚ)) ↔
    a ≤ b := by
  rw [WithBot.coe_le_coe, WithTop.coe_le_coe]

/-- **Rounding to one decimal keeps the order.** -/
theorem value_roundTenth_mono {x y : SqlNumber} (hx : x.storable = true) (hy : y.storable = true)
    (h : x.value ≤ y.value) : x.roundTenth.value ≤ y.roundTenth.value := by
  cases x with
  | int m =>
    cases y with
    | int n => exact h
    | real y =>
      cases y with
      | nan => cases hy
      | inf => exact h
      | fin q =>
        obtain ⟨r, hr, hlo, -⟩ := PyFloat.roundTenth_fin hy
        have hm : (m : ℚ) ≤ q := value_coe_le.mp h
        have hfloor : (m : ℚ) ≤ ⌊q⌋ := by exact_mod_cast Int.le_floor.mpr hm
        simp only [roundTenth, hr]
        exact value_coe_le.mpr (hfloor.trans hlo)
  | real x =>
    cases x with
    | nan => cases hx
    | inf negative =>
      cases negative with
      | true => exact bot_le
      | false =>
        have htop : y.value = ⊤ := top_le_iff.mp h
        cases y with
        | int n => exact absurd htop (by simp [value])
        | real y =>
          cases y with
          | nan => cases hy
          | inf => exact h
          | fin q => exact absurd htop (by simp [value, PyFloat.value])
    | fin p =>
      cases y with
      | int n =>
        obtain ⟨r, hr, -, hhi⟩ := PyFloat.roundTenth_fin hx
        have hn : p ≤ (n : ℚ) := value_coe_le.mp h
        have hceil : (⌈p⌉ : ℚ) ≤ n := by exact_mod_cast Int.ceil_le.mpr hn
        simp only [roundTenth, hr]
        exact value_coe_le.mpr (hhi.trans hceil)
      | real y =>
        cases y with
        | nan => cases hy
        | inf negative =>
          cases negative with
          | true => exact absurd (le_bot_iff.mp h) (by simp [value, PyFloat.value])
          | false => exact le_top
        | fin q =>
          have hpq : p ≤ q := value_coe_le.mp h
          apply PyFloat.value_round_mono
          apply div_le_div_of_nonneg_right _ (by norm_num)
          exact_mod_cast PyFloat.roundHalfEven_mono (by linarith)

/-- The fold of `max`. -/
theorem foldl_max (x : SqlNumber) (xs : List SqlNumber) :
    let m := xs.foldl (fun m y => if m.value < y.value then y else m) x
    m ∈ x :: xs ∧ ∀ y ∈ x :: xs, y.value ≤ m.value := by
  induction xs generalizing x with
  | nil =>
    exact ⟨List.mem_singleton_self x, fun y hy => (congrArg value (List.mem_singleton.mp hy)).le⟩
  | cons y xs ih =>
    rw [List.foldl_cons]
    split
    · rename_i hlt
      obtain ⟨hmem, hle⟩ := ih y
      refine ⟨List.mem_cons_of_mem x hmem, fun z hz => ?_⟩
      rcases List.mem_cons.mp hz with rfl | hz
      · exact hlt.le.trans (hle y List.mem_cons_self)
      · exact hle z hz
    · rename_i hge
      obtain ⟨hmem, hle⟩ := ih x
      have hx := hle x List.mem_cons_self
      refine ⟨?_, fun z hz => ?_⟩
      · rcases List.mem_cons.mp hmem with hm | hm
        · exact List.mem_cons.mpr (.inl hm)
        · exact List.mem_cons_of_mem x (List.mem_cons_of_mem y hm)
      · rcases List.mem_cons.mp hz with rfl | hz
        · exact hx
        · rcases List.mem_cons.mp hz with rfl | hz
          · exact (not_lt.mp hge).trans hx
          · exact hle z (List.mem_cons_of_mem x hz)

theorem of_max?_eq_some {xs : List SqlNumber} {m : SqlNumber} (h : max? xs = some m) :
    m ∈ xs ∧ ∀ x ∈ xs, x.value ≤ m.value := by
  cases xs with
  | nil => cases h
  | cons x xs =>
    cases h
    exact foldl_max x xs

/-- **The largest number, rounded, is the largest of the rounded numbers.** -/
theorem value_max?_roundTenth {xs : List SqlNumber} (hxs : ∀ x ∈ xs, x.storable = true) :
    ((max? xs).map fun m => m.roundTenth.value) = (xs.map fun x => x.roundTenth.value).max? := by
  cases hm : max? xs with
  | none =>
    cases xs with
    | nil => rfl
    | cons x xs => cases hm
  | some m =>
    obtain ⟨hmem, hle⟩ := of_max?_eq_some hm
    have hlargest : ∀ v ∈ xs.map fun x => x.roundTenth.value, v ≤ m.roundTenth.value := by
      intro v hv
      obtain ⟨x, hx, rfl⟩ := List.mem_map.mp hv
      exact value_roundTenth_mono (hxs x hx) (hxs m hmem) (hle x hx)
    rw [eq_comm, Option.map_some, List.max?_eq_some_iff]
    exact ⟨List.mem_map.mpr ⟨m, hmem, rfl⟩, hlargest⟩

end SqlNumber
end EasyModelGate
