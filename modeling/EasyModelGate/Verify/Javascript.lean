import EasyModelGate.Verify.Rounding
import EasyModelGate.Web.Javascript

/-! # Numbers of JavaScript

A double holds an integer below `2 ^ 53` as it is, its shortest decimal is the integer, and
`parseInt` reads it back. -/

namespace EasyModelGate

namespace PyFloat

theorem round_natCast {n : Nat} (hn : n ≤ 2 ^ 53) : round n = .fin n := by
  have hgrid := toGrid_eq (c := n) (t := 0) (by rw [Nat.abs_cast]; exact_mod_cast hn) (by norm_num)
  have hgrid : toGrid n = n := by simpa using hgrid
  have hle : (n : ℚ) ≤ 2 ^ 53 := by exact_mod_cast hn
  have hlt : (2 : ℚ) ^ 53 < 2 ^ 1024 := pow_lt_pow_right₀ one_lt_two (by decide)
  rw [round_eq, hgrid, Nat.abs_cast, if_neg (not_le.mpr (hle.trans_lt hlt))]

end PyFloat

theorem Str.ofInt_natCast (n : Nat) :
    Str.ofInt n = (Nat.toDigits 10 n).map fun c => Fin.ofNat 0x110000 c.toNat := by
  have htext : (toString (n : Int)).toList = Nat.toDigits 10 n := Nat.toList_repr
  rw [Str.ofInt, str, htext]

namespace Js

theorem nearest_eq {n : Nat} (hn : n < 2 ^ 53) {scale : Nat} (hscale : 0 < scale) :
    nearest n scale = none ∨ nearest n scale = some n := by
  have hlower : n / scale * scale ≤ n := Nat.div_mul_le_self n scale
  have hupper : n < n / scale * scale + scale := Nat.lt_div_mul_add hscale
  unfold nearest
  dsimp only
  generalize n / scale * scale = lower at *
  have hreads : PyFloat.round ((lower + scale : Nat) : ℚ) ≠ .fin n := fun h => by
    by_cases hsmall : lower + scale ≤ 2 ^ 53
    · rw [PyFloat.round_natCast hsmall, PyFloat.fin.injEq, Nat.cast_inj] at h
      omega
    · have hlow := PyFloat.round_atLeast (c := 2 ^ 53) (t := 0) (q := ((lower + scale : Nat) : ℚ))
        le_rfl (by decide) (by push_cast; norm_num; exact_mod_cast (not_le.mp hsmall).le)
      rw [h] at hlow
      have hge : 2 ^ 53 ≤ n := by simpa [PyFloat.AtLeast] using hlow
      exact Nat.not_le.mpr hn hge
  rw [if_neg fun h => hreads (of_decide_eq_true h.1)]
  split
  · rename_i h
    have hlow := of_decide_eq_true h
    rw [PyFloat.round_natCast (hlower.trans hn.le), PyFloat.fin.injEq, Nat.cast_inj] at hlow
    exact .inr (congrArg some hlow)
  · exact .inl rfl

theorem shortest_eq {n : Nat} (hn : n < 2 ^ 53) : shortest n = n := by
  have hsearch : ∀ es : List Nat, (es.findSome? fun e => nearest n (10 ^ e)).getD n = n :=
    fun es => by
    induction es with
    | nil => rfl
    | cons e es ih =>
      rw [List.findSome?_cons]
      rcases nearest_eq hn (Nat.pow_pos (n := e) (by decide : 0 < 10)) with h | h <;> rw [h]
      · exact ih
      · rfl
  exact hsearch _

/-- Decimal digits. -/
def Digits (s : Str) : Prop := ∀ c ∈ s, 0x30 ≤ c.val ∧ c.val ≤ 0x39

theorem digits_ofInt (n : Nat) : Digits (Str.ofInt n) := by
  rw [Str.ofInt_natCast]
  intro c hc
  obtain ⟨d, hd, rfl⟩ := List.mem_map.mp hc
  obtain ⟨hlow, hhigh⟩ :=
    Char.isDigit_iff_toNat.mp (Nat.isDigit_of_mem_toDigits (by decide) (by decide) hd)
  rw [Fin.val_ofNat, Nat.mod_eq_of_lt (hhigh.trans_lt (by decide))]
  exact ⟨hlow, hhigh⟩

/-- The value of decimal digits. -/
def digitsValue (s : Str) : Nat := s.foldl (fun n c => 10 * n + digitValue c) 0

theorem digitValue_digit {c : CodePoint} (hc : 0x30 ≤ c.val ∧ c.val ≤ 0x39) :
    digitValue c = c.val - 0x30 := if_pos hc

theorem digitsValue_ofInt (n : Nat) : digitsValue (Str.ofInt n) = n := by
  have hfold : ∀ (cs : List Char) (init : Nat), (∀ c ∈ cs, c.isDigit) →
      (cs.map fun c => Fin.ofNat 0x110000 c.toNat).foldl (fun n c => 10 * n + digitValue c) init =
        Nat.ofDigitChars 10 cs init := fun cs init hcs => by
    induction cs generalizing init with
    | nil => rfl
    | cons c cs ih =>
      obtain ⟨hc, hcs⟩ := List.forall_mem_cons.mp hcs
      obtain ⟨hlow, hhigh⟩ := Char.isDigit_iff_toNat.mp hc
      have hval : (Fin.ofNat 0x110000 c.toNat).val = c.toNat := by
        rw [Fin.val_ofNat, Nat.mod_eq_of_lt (hhigh.trans_lt (by decide))]
      rw [List.map_cons, List.foldl_cons, ih _ hcs, Nat.ofDigitChars_cons,
        digitValue_digit (by rw [hval]; exact ⟨hlow, hhigh⟩), hval]
      rfl
  rw [digitsValue, Str.ofInt_natCast, hfold _ _ fun c hc =>
    Nat.isDigit_of_mem_toDigits (by decide) (by decide) hc]
  exact Nat.ofDigitChars_ten_toDigits

theorem isSpace_digit {c : CodePoint} (hc : 0x30 ≤ c.val ∧ c.val ≤ 0x39) : isSpace c = false := by
  simp only [isSpace, decide_eq_false_iff_not, List.mem_cons, List.not_mem_nil, or_false]
  omega

theorem parseInt_digits {s : Str} (hs : Digits s) (hne : s ≠ []) :
    parseInt s = PyFloat.round (digitsValue s) := by
  have hspace : s.dropWhile isSpace = s := by
    cases s with
    | nil => rfl
    | cons c s =>
      exact List.dropWhile_cons_of_neg (by rw [isSpace_digit (hs c List.mem_cons_self)]; decide)
  have hsign : splitSign s = (false, s) := by
    unfold splitSign
    split
    · exact absurd (hs 0x2D List.mem_cons_self) (by decide)
    · exact absurd (hs 0x2B List.mem_cons_self) (by decide)
    · rfl
  have hradix : splitRadix s = (10, s) := by
    unfold splitRadix
    split
    · exact absurd (hs 0x78 (List.mem_cons_of_mem _ List.mem_cons_self)) (by decide)
    · exact absurd (hs 0x58 (List.mem_cons_of_mem _ List.mem_cons_self)) (by decide)
    · rfl
  have hall : s.takeWhile (fun c => decide (digitValue c < 10)) = s := by
    rw [List.takeWhile_eq_self_iff]
    intro c hc
    have hdigit := hs c hc
    rw [digitValue_digit hdigit]
    exact decide_eq_true (by omega)
  unfold parseInt
  simp only [hspace, hsign, hradix, hall, if_neg hne]
  rfl

theorem ofInt_ne_nil (n : Nat) : Str.ofInt n ≠ [] := by
  rw [Str.ofInt_natCast]
  simp

theorem parseInt_ofInt (n : Nat) : parseInt (Str.ofInt n) = PyFloat.round n := by
  rw [parseInt_digits (digits_ofInt n) (ofInt_ne_nil n), digitsValue_ofInt]

end Js

/-- The number that is read off the text reaches the server as the integer `n`. -/
def Reaches (text : Str) (n : Int) : Prop := (JsValue.num (Js.parseInt text)).received = .int n

/-- An integer that a double holds is written as it is. -/
theorem received_natCast {n : Nat} (hn : n < 2 ^ 53) :
    (JsValue.num (.fin n)).received = .int n := by
  have hsmall : n < 10 ^ 21 := hn.trans (by decide)
  have hnum : (n : ℚ).num = n := Rat.num_natCast n
  rw [JsValue.received, if_pos ⟨Rat.den_natCast n, by rw [hnum]; exact hsmall⟩, hnum,
    Int.natAbs_natCast, Js.shortest_eq hn]
  rcases Nat.eq_zero_or_pos n with rfl | hpos
  · rfl
  · rw [Int.sign_eq_one_of_pos (by omega), one_mul]

theorem reaches_ofInt {n : Nat} (hn : n < 2 ^ 53) : Reaches (Str.ofInt n) n := by
  rw [Reaches, Js.parseInt_ofInt, PyFloat.round_natCast hn.le, received_natCast hn]

theorem Js.toString_natCast {n : Nat} (hn : n < 2 ^ 53) : Js.toString (.fin n) = Str.ofInt n := by
  have hlength : (Str.ofInt n).length ≤ 21 := by
    rw [Str.ofInt_natCast, List.length_map, Nat.length_toDigits_le_iff (by decide) (by decide)]
    exact hn.trans (by decide)
  have hnum : (n : ℚ).num.natAbs = n := by rw [Rat.num_natCast, Int.natAbs_natCast]
  have hsign : ¬ (n : ℚ) < 0 := not_lt.mpr (Nat.cast_nonneg n)
  unfold Js.toString
  simp only [hnum, Js.shortest_eq hn, hsign, if_false, if_pos hlength]
  rfl

end EasyModelGate
