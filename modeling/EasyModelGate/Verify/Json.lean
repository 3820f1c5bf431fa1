import EasyModelGate.Python.Json

/-! # Comparing decoded values -/

namespace EasyModelGate

namespace Json

mutual
/-- Whether two values are the same. -/
def same : Json → Json → Bool
  | .null, .null => true
  | .bool a, .bool b => a = b
  | .int m, .int n => m = n
  | .float x, .float y => x = y
  | .str s, .str t => s = t
  | .arr xs, .arr ys => sameElems xs ys
  | .obj xs, .obj ys => sameItems xs ys
  | _, _ => false

def sameElems : List Json → List Json → Bool
  | [], [] => true
  | x :: xs, y :: ys => x.same y && sameElems xs ys
  | _, _ => false

def sameItems : List (Str × Json) → List (Str × Json) → Bool
  | [], [] => true
  | (k, v) :: xs, (l, w) :: ys => k = l && v.same w && sameItems xs ys
  | _, _ => false
end

mutual
theorem eq_of_same : ∀ {v w : Json}, v.same w = true → v = w
  | .null, w, h => by cases w <;> first | rfl | exact absurd h Bool.false_ne_true
  | .bool a, w, h => by
    cases w with
    | bool b => exact congrArg _ (of_decide_eq_true h)
    | _ => exact absurd h Bool.false_ne_true
  | .int m, w, h => by
    cases w with
    | int n => exact congrArg _ (of_decide_eq_true h)
    | _ => exact absurd h Bool.false_ne_true
  | .float x, w, h => by
    cases w with
    | float y => exact congrArg _ (of_decide_eq_true h)
    | _ => exact absurd h Bool.false_ne_true
  | .str s, w, h => by
    cases w with
    | str t => exact congrArg _ (of_decide_eq_true h)
    | _ => exact absurd h Bool.false_ne_true
  | .arr xs, w, h => by
    cases w with
    | arr ys => exact congrArg _ (eq_of_sameElems h)
    | _ => exact absurd h Bool.false_ne_true
  | .obj xs, w, h => by
    cases w with
    | obj ys => exact congrArg _ (eq_of_sameItems h)
    | _ => exact absurd h Bool.false_ne_true

theorem eq_of_sameElems : ∀ {xs ys : List Json}, sameElems xs ys = true → xs = ys
  | [], [], _ => rfl
  | [], _ :: _, h | _ :: _, [], h => absurd h Bool.false_ne_true
  | x :: xs, y :: ys, h => by
    obtain ⟨hx, hxs⟩ := Bool.and_eq_true_iff.mp h
    rw [eq_of_same hx, eq_of_sameElems hxs]

theorem eq_of_sameItems : ∀ {xs ys : List (Str × Json)}, sameItems xs ys = true → xs = ys
  | [], [], _ => rfl
  | [], _ :: _, h | _ :: _, [], h => absurd h Bool.false_ne_true
  | (k, v) :: xs, (l, w) :: ys, h => by
    obtain ⟨hkv, hxs⟩ := Bool.and_eq_true_iff.mp h
    obtain ⟨hk, hv⟩ := Bool.and_eq_true_iff.mp hkv
    rw [of_decide_eq_true hk, eq_of_same hv, eq_of_sameItems hxs]
end

end Json

end EasyModelGate
