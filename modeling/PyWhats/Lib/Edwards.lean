import Mathlib.Algebra.Field.Basic
import Mathlib.Tactic.FieldSimp
import Mathlib.Tactic.LinearCombination
import Mathlib.Tactic.Ring

/-! Twisted Edwards curves `-x² + y² = 1 + d x² y²` over a field in which `-1` is a square and
`d` is not: the addition law has no exceptional points and makes the curve a group. -/

namespace Edwards

section Identities

variable {R : Type*} [CommRing R] {d x₁ y₁ x₂ y₂ x₃ y₃ : R}

/-- The sum of two points is on the curve, with its denominators cleared. -/
theorem sum_on_curve (h₁ : y₁ ^ 2 - x₁ ^ 2 = 1 + d * x₁ ^ 2 * y₁ ^ 2)
    (h₂ : y₂ ^ 2 - x₂ ^ 2 = 1 + d * x₂ ^ 2 * y₂ ^ 2) :
    ((y₁ * y₂ + x₁ * x₂) * (1 + d * x₁ * x₂ * y₁ * y₂)) ^ 2 -
        ((x₁ * y₂ + y₁ * x₂) * (1 - d * x₁ * x₂ * y₁ * y₂)) ^ 2 =
      ((1 + d * x₁ * x₂ * y₁ * y₂) * (1 - d * x₁ * x₂ * y₁ * y₂)) ^ 2 +
        d * (x₁ * y₂ + y₁ * x₂) ^ 2 * (y₁ * y₂ + x₁ * x₂) ^ 2 := by
  linear_combination
    (2 * x₁ ^ 2 * y₁ ^ 2 * x₂ ^ 2 * d + 2 * x₁ ^ 2 * y₁ ^ 2 * x₂ ^ 2 + 2 * x₁ ^ 2 * y₁ ^ 2
      + x₁ ^ 2 * y₁ ^ 2 * y₂ ^ 4 * d + x₁ ^ 2 * y₁ ^ 2 * x₂ ^ 4 * d + x₁ ^ 2 * y₁ ^ 2 * d
      + y₁ ^ 2 * x₂ ^ 2 + x₁ ^ 2 * y₂ ^ 2 + y₁ ^ 2 + 1 - y₁ ^ 2 * y₂ ^ 2 - x₁ ^ 2 * x₂ ^ 2 - x₁ ^ 2
      - 2 * x₁ ^ 2 * y₁ ^ 2 * y₂ ^ 2 * d - 2 * x₁ ^ 2 * y₁ ^ 2 * y₂ ^ 2) * h₁ +
    (2 * x₁ ^ 2 * y₁ ^ 4 + x₁ ^ 4 * y₁ ^ 4 * x₂ ^ 2 * y₂ ^ 2 * d ^ 3
      + x₁ ^ 4 * y₁ ^ 4 * y₂ ^ 2 * d ^ 2 + x₁ ^ 2 * y₁ ^ 4 * x₂ ^ 2 * d
      + x₁ ^ 4 * y₁ ^ 2 * y₂ ^ 2 * d + y₁ ^ 4 + x₁ ^ 4 - x₁ ^ 4 * y₁ ^ 4 * x₂ ^ 2 * d ^ 2
      - x₁ ^ 4 * y₁ ^ 4 * d ^ 2 - x₁ ^ 2 * y₁ ^ 4 * y₂ ^ 2 * d - x₁ ^ 4 * y₁ ^ 2 * x₂ ^ 2 * d
      - 2 * x₁ ^ 4 * y₁ ^ 4 * d - 2 * x₁ ^ 4 * y₁ ^ 2 - 2 * x₁ ^ 2 * y₁ ^ 2 * d
      - 4 * x₁ ^ 2 * y₁ ^ 2) * h₂

-- The coefficients are the quotients of a division by the terms `d xᵢ² yᵢ²` of the equations.
theorem assoc_x (h₁ : y₁ ^ 2 - x₁ ^ 2 = 1 + d * x₁ ^ 2 * y₁ ^ 2)
    (h₂ : y₂ ^ 2 - x₂ ^ 2 = 1 + d * x₂ ^ 2 * y₂ ^ 2)
    (h₃ : y₃ ^ 2 - x₃ ^ 2 = 1 + d * x₃ ^ 2 * y₃ ^ 2) :
    ((x₁ * y₂ + y₁ * x₂) * (1 - d * x₁ * x₂ * y₁ * y₂) * y₃ +
        (y₁ * y₂ + x₁ * x₂) * (1 + d * x₁ * x₂ * y₁ * y₂) * x₃) *
      ((1 + d * x₂ * x₃ * y₂ * y₃) * (1 - d * x₂ * x₃ * y₂ * y₃) +
        d * x₁ * (x₂ * y₃ + y₂ * x₃) * y₁ * (y₂ * y₃ + x₂ * x₃)) =
    (x₁ * ((y₂ * y₃ + x₂ * x₃) * (1 + d * x₂ * x₃ * y₂ * y₃)) +
        y₁ * ((x₂ * y₃ + y₂ * x₃) * (1 - d * x₂ * x₃ * y₂ * y₃))) *
      ((1 + d * x₁ * x₂ * y₁ * y₂) * (1 - d * x₁ * x₂ * y₁ * y₂) +
        d * (x₁ * y₂ + y₁ * x₂) * x₃ * (y₁ * y₂ + x₁ * x₂) * y₃) := by
  linear_combination
    d * x₂ * y₂ * (y₁ * x₂ ^ 2 * y₂ ^ 3 * x₃ ^ 2 * y₃ * d + y₁ * x₂ ^ 3 * y₂ ^ 2 * x₃ * y₃ ^ 2 * d
      + y₁ * x₂ ^ 2 * y₂ * y₃ ^ 3 + y₁ * x₂ ^ 3 * x₃ * y₃ ^ 2 + x₁ * y₂ ^ 3 * x₃ * y₃ ^ 2
      + x₁ * x₂ * y₂ ^ 2 * y₃ ^ 3 - x₁ * x₂ ^ 2 * y₂ ^ 3 * x₃ * y₃ ^ 2 * d
      - x₁ * x₂ ^ 3 * y₂ ^ 2 * x₃ ^ 2 * y₃ * d - y₁ * y₂ ^ 3 * x₃ ^ 2 * y₃
      - y₁ * x₂ * y₂ ^ 2 * x₃ ^ 3 - x₁ * x₂ ^ 2 * y₂ * x₃ ^ 3 - x₁ * x₂ ^ 3 * x₃ ^ 2 * y₃
      - y₁ * x₂ * y₂ ^ 2 * x₃ - y₁ * x₂ ^ 2 * y₂ * y₃ - x₁ * x₂ * y₂ ^ 2 * y₃
      - x₁ * x₂ ^ 2 * y₂ * x₃) * h₁ +
    d * x₂ * y₂ * (y₁ ^ 3 * y₂ * x₃ ^ 2 * y₃ + y₁ ^ 3 * x₂ * x₃ * y₃ ^ 2
      + x₁ ^ 3 * y₂ * x₃ * y₃ ^ 2 + x₁ ^ 3 * x₂ * x₃ ^ 2 * y₃ + x₁ * y₂ * x₃ * y₃ ^ 2
      + x₁ * x₂ * x₃ ^ 2 * y₃ + x₁ * y₁ ^ 2 * x₂ * y₃ + x₁ ^ 2 * y₁ * y₂ * y₃
      - x₁ * y₁ ^ 2 * y₂ * x₃ ^ 3 - x₁ * y₁ ^ 2 * x₂ * y₃ ^ 3 - x₁ ^ 2 * y₁ * y₂ * y₃ ^ 3
      - x₁ ^ 2 * y₁ * x₂ * x₃ ^ 3 - y₁ * y₂ * x₃ ^ 2 * y₃ - y₁ * x₂ * x₃ * y₃ ^ 2
      - x₁ * y₁ ^ 2 * y₂ * x₃ - x₁ ^ 2 * y₁ * x₂ * x₃) * h₂ +
    d * x₂ * y₂ * (x₁ * y₁ ^ 2 * x₂ ^ 2 * y₂ ^ 3 * x₃ * d + x₁ ^ 2 * y₁ * x₂ ^ 3 * y₂ ^ 2 * x₃ * d
      + x₁ ^ 2 * y₁ * y₂ ^ 3 * y₃ + x₁ ^ 2 * y₁ * x₂ ^ 3 * x₃ + x₁ ^ 3 * x₂ * y₂ ^ 2 * y₃
      + x₁ ^ 3 * x₂ ^ 2 * y₂ * x₃ + y₁ * x₂ * y₂ ^ 2 * x₃ + y₁ * x₂ ^ 2 * y₂ * y₃
      + x₁ * x₂ * y₂ ^ 2 * y₃ + x₁ * x₂ ^ 2 * y₂ * x₃ - x₁ * y₁ ^ 2 * x₂ ^ 3 * y₂ ^ 2 * y₃ * d
      - x₁ ^ 2 * y₁ * x₂ ^ 2 * y₂ ^ 3 * y₃ * d - y₁ ^ 3 * x₂ * y₂ ^ 2 * x₃
      - y₁ ^ 3 * x₂ ^ 2 * y₂ * y₃ - x₁ * y₁ ^ 2 * y₂ ^ 3 * x₃ - x₁ * y₁ ^ 2 * x₂ ^ 3 * y₃) * h₃

theorem assoc_y (h₁ : y₁ ^ 2 - x₁ ^ 2 = 1 + d * x₁ ^ 2 * y₁ ^ 2)
    (h₂ : y₂ ^ 2 - x₂ ^ 2 = 1 + d * x₂ ^ 2 * y₂ ^ 2)
    (h₃ : y₃ ^ 2 - x₃ ^ 2 = 1 + d * x₃ ^ 2 * y₃ ^ 2) :
    ((y₁ * y₂ + x₁ * x₂) * (1 + d * x₁ * x₂ * y₁ * y₂) * y₃ +
        (x₁ * y₂ + y₁ * x₂) * (1 - d * x₁ * x₂ * y₁ * y₂) * x₃) *
      ((1 + d * x₂ * x₃ * y₂ * y₃) * (1 - d * x₂ * x₃ * y₂ * y₃) -
        d * x₁ * (x₂ * y₃ + y₂ * x₃) * y₁ * (y₂ * y₃ + x₂ * x₃)) =
    (y₁ * ((y₂ * y₃ + x₂ * x₃) * (1 + d * x₂ * x₃ * y₂ * y₃)) +
        x₁ * ((x₂ * y₃ + y₂ * x₃) * (1 - d * x₂ * x₃ * y₂ * y₃))) *
      ((1 + d * x₁ * x₂ * y₁ * y₂) * (1 - d * x₁ * x₂ * y₁ * y₂) -
        d * (x₁ * y₂ + y₁ * x₂) * x₃ * (y₁ * y₂ + x₁ * x₂) * y₃) := by
  linear_combination
    d * x₂ * y₂ * (x₁ * x₂ ^ 2 * y₂ ^ 3 * x₃ ^ 2 * y₃ * d + x₁ * x₂ ^ 3 * y₂ ^ 2 * x₃ * y₃ ^ 2 * d
      + y₁ * y₂ ^ 3 * x₃ * y₃ ^ 2 + y₁ * x₂ * y₂ ^ 2 * y₃ ^ 3 + x₁ * x₂ ^ 2 * y₂ * y₃ ^ 3
      + x₁ * x₂ ^ 3 * x₃ * y₃ ^ 2 - y₁ * x₂ ^ 2 * y₂ ^ 3 * x₃ * y₃ ^ 2 * d
      - y₁ * x₂ ^ 3 * y₂ ^ 2 * x₃ ^ 2 * y₃ * d - y₁ * x₂ ^ 2 * y₂ * x₃ ^ 3
      - y₁ * x₂ ^ 3 * x₃ ^ 2 * y₃ - x₁ * y₂ ^ 3 * x₃ ^ 2 * y₃ - x₁ * x₂ * y₂ ^ 2 * x₃ ^ 3
      - y₁ * x₂ * y₂ ^ 2 * y₃ - y₁ * x₂ ^ 2 * y₂ * x₃ - x₁ * x₂ * y₂ ^ 2 * x₃
      - x₁ * x₂ ^ 2 * y₂ * y₃) * h₁ +
    d * x₂ * y₂ * (x₁ * y₁ ^ 2 * y₂ * y₃ ^ 3 + x₁ * y₁ ^ 2 * x₂ * x₃ ^ 3
      + x₁ ^ 2 * y₁ * y₂ * x₃ ^ 3 + x₁ ^ 2 * y₁ * x₂ * y₃ ^ 3 + y₁ * y₂ * x₃ * y₃ ^ 2
      + y₁ * x₂ * x₃ ^ 2 * y₃ + x₁ * y₁ ^ 2 * x₂ * x₃ + x₁ ^ 2 * y₁ * y₂ * x₃
      - y₁ ^ 3 * y₂ * x₃ * y₃ ^ 2 - y₁ ^ 3 * x₂ * x₃ ^ 2 * y₃ - x₁ ^ 3 * y₂ * x₃ ^ 2 * y₃
      - x₁ ^ 3 * x₂ * x₃ * y₃ ^ 2 - x₁ * y₂ * x₃ ^ 2 * y₃ - x₁ * x₂ * x₃ * y₃ ^ 2
      - x₁ * y₁ ^ 2 * y₂ * y₃ - x₁ ^ 2 * y₁ * x₂ * y₃) * h₂ +
    d * x₂ * y₂ * (x₁ * y₁ ^ 2 * x₂ ^ 2 * y₂ ^ 3 * y₃ * d + x₁ ^ 2 * y₁ * x₂ ^ 3 * y₂ ^ 2 * y₃ * d
      + x₁ ^ 2 * y₁ * y₂ ^ 3 * x₃ + x₁ ^ 2 * y₁ * x₂ ^ 3 * y₃ + x₁ ^ 3 * x₂ * y₂ ^ 2 * x₃
      + x₁ ^ 3 * x₂ ^ 2 * y₂ * y₃ + y₁ * x₂ * y₂ ^ 2 * y₃ + y₁ * x₂ ^ 2 * y₂ * x₃
      + x₁ * x₂ * y₂ ^ 2 * x₃ + x₁ * x₂ ^ 2 * y₂ * y₃ - x₁ * y₁ ^ 2 * x₂ ^ 3 * y₂ ^ 2 * x₃ * d
      - x₁ ^ 2 * y₁ * x₂ ^ 2 * y₂ ^ 3 * x₃ * d - y₁ ^ 3 * x₂ * y₂ ^ 2 * y₃
      - y₁ ^ 3 * x₂ ^ 2 * y₂ * x₃ - x₁ * y₁ ^ 2 * y₂ ^ 3 * y₃ - x₁ * y₁ ^ 2 * x₂ ^ 3 * x₃) * h₃

end Identities

/-- The coefficient `d` is not a square, and `i` is a root of `-1`. -/
structure Curve (K : Type*) [Field K] where
  d : K
  i : K
  i_sq : i ^ 2 = -1
  two_ne : (2 : K) ≠ 0
  nonsquare : ∀ c : K, c ^ 2 ≠ d

variable {K : Type*} [Field K]

@[ext]
structure Point (C : Curve K) where
  x : K
  y : K
  on_curve : y ^ 2 - x ^ 2 = 1 + C.d * x ^ 2 * y ^ 2

section Complete

variable {C : Curve K}

/-- Otherwise `d` is the square of a quotient of two numbers that the points give. -/
theorem product_ne {x₁ y₁ x₂ y₂ e : K} (h₁ : y₁ ^ 2 - x₁ ^ 2 = 1 + C.d * x₁ ^ 2 * y₁ ^ 2)
    (h₂ : y₂ ^ 2 - x₂ ^ 2 = 1 + C.d * x₂ ^ 2 * y₂ ^ 2) (he : e ^ 2 = 1) :
    C.d * x₁ * x₂ * y₁ * y₂ ≠ e := by
  intro hprod
  have hi := C.i_sq
  have he0 : e ≠ 0 := by
    rintro rfl
    simp at he
  have hxy : x₁ * y₁ ≠ 0 := by
    intro hzero
    apply he0
    rw [← hprod]
    linear_combination C.d * x₂ * y₂ * hzero
  have hsum : (C.i * x₁ + e * y₁) ^ 2 = C.d * (x₁ * y₁) ^ 2 * (C.i * x₂ + y₂) ^ 2 := by
    linear_combination (x₁ ^ 2 - C.d * x₁ ^ 2 * y₁ ^ 2 * x₂ ^ 2) * hi + (y₁ ^ 2 - 1) * he + h₁ -
      C.d * x₁ ^ 2 * y₁ ^ 2 * h₂ -
      (C.d * x₁ * x₂ * y₁ * y₂ + e + 2 * C.i * x₁ * y₁) * hprod
  have hdiff : (C.i * x₁ - e * y₁) ^ 2 = C.d * (x₁ * y₁) ^ 2 * (C.i * x₂ - y₂) ^ 2 := by
    linear_combination (x₁ ^ 2 - C.d * x₁ ^ 2 * y₁ ^ 2 * x₂ ^ 2) * hi + (y₁ ^ 2 - 1) * he + h₁ -
      C.d * x₁ ^ 2 * y₁ ^ 2 * h₂ -
      (C.d * x₁ * x₂ * y₁ * y₂ + e - 2 * C.i * x₁ * y₁) * hprod
  have hsquare : ∀ a b : K, b ≠ 0 → a ^ 2 ≠ C.d * (x₁ * y₁) ^ 2 * b ^ 2 := by
    intro a b hb ha
    apply C.nonsquare (a / (x₁ * y₁ * b))
    rw [div_pow, ha, div_eq_iff (pow_ne_zero 2 (mul_ne_zero hxy hb))]
    ring
  have hplus : C.i * x₂ + y₂ = 0 := by
    by_contra hne
    exact hsquare _ _ hne hsum
  have hminus : C.i * x₂ - y₂ = 0 := by
    by_contra hne
    exact hsquare _ _ hne hdiff
  have hy : y₂ = 0 := by
    have htwo : 2 * y₂ = 0 := by linear_combination hplus - hminus
    exact (mul_eq_zero.mp htwo).resolve_left C.two_ne
  apply he0
  rw [← hprod, hy]
  ring

theorem one_add_ne (P Q : Point C) : 1 + C.d * P.x * Q.x * P.y * Q.y ≠ 0 := by
  intro hzero
  apply product_ne P.on_curve Q.on_curve (e := -1) (by ring)
  linear_combination hzero

theorem one_sub_ne (P Q : Point C) : 1 - C.d * P.x * Q.x * P.y * Q.y ≠ 0 := by
  intro hzero
  apply product_ne P.on_curve Q.on_curve (e := 1) (by ring)
  linear_combination -hzero

/-- The denominator of `x²` as a function of `y`. -/
theorem one_add_mul_sq_ne (y : K) : 1 + C.d * y ^ 2 ≠ 0 := by
  intro hzero
  have hi := C.i_sq
  have hy : y ≠ 0 := by
    rintro rfl
    simp at hzero
  apply C.nonsquare (C.i / y)
  rw [div_pow, hi, div_eq_iff (pow_ne_zero 2 hy)]
  linear_combination -hzero

end Complete

theorem quotients_on_curve {d a b p m : K} (hp : p ≠ 0) (hm : m ≠ 0)
    (h : (b * p) ^ 2 - (a * m) ^ 2 = (p * m) ^ 2 + d * a ^ 2 * b ^ 2) :
    (b / m) ^ 2 - (a / p) ^ 2 = 1 + d * (a / p) ^ 2 * (b / m) ^ 2 := by
  have ha : a / p * p = a := div_mul_cancel₀ a hp
  have hb : b / m * m = b := div_mul_cancel₀ b hm
  generalize a / p = u at ha ⊢
  generalize b / m = v at hb ⊢
  subst ha hb
  apply mul_right_cancel₀ (pow_ne_zero 2 (mul_ne_zero hp hm))
  linear_combination h

namespace Point

variable {C : Curve K}

instance : Zero (Point C) := ⟨⟨0, 1, by ring⟩⟩

instance : Neg (Point C) := ⟨fun P => ⟨-P.x, P.y, by linear_combination P.on_curve⟩⟩

instance : Add (Point C) := ⟨fun P Q =>
  { x := (P.x * Q.y + P.y * Q.x) / (1 + C.d * P.x * Q.x * P.y * Q.y)
    y := (P.y * Q.y + P.x * Q.x) / (1 - C.d * P.x * Q.x * P.y * Q.y)
    on_curve := quotients_on_curve (one_add_ne P Q) (one_sub_ne P Q)
      (sum_on_curve P.on_curve Q.on_curve) }⟩

theorem zero_x : (0 : Point C).x = 0 := rfl

theorem zero_y : (0 : Point C).y = 1 := rfl

theorem neg_x (P : Point C) : (-P).x = -P.x := rfl

theorem neg_y (P : Point C) : (-P).y = P.y := rfl

theorem add_x (P Q : Point C) :
    (P + Q).x * (1 + C.d * P.x * Q.x * P.y * Q.y) = P.x * Q.y + P.y * Q.x :=
  div_mul_cancel₀ _ (one_add_ne P Q)

theorem add_y (P Q : Point C) :
    (P + Q).y * (1 - C.d * P.x * Q.x * P.y * Q.y) = P.y * Q.y + P.x * Q.x :=
  div_mul_cancel₀ _ (one_sub_ne P Q)

/-- A point is the sum as soon as it solves the cleared equations. -/
theorem eq_add {P Q R : Point C}
    (hx : R.x * (1 + C.d * P.x * Q.x * P.y * Q.y) = P.x * Q.y + P.y * Q.x)
    (hy : R.y * (1 - C.d * P.x * Q.x * P.y * Q.y) = P.y * Q.y + P.x * Q.x) : R = P + Q :=
  Point.ext (mul_right_cancel₀ (one_add_ne P Q) (hx.trans (add_x P Q).symm))
    (mul_right_cancel₀ (one_sub_ne P Q) (hy.trans (add_y P Q).symm))

/-- Both ways to add three points, with the inner denominators cleared. -/
theorem add_add_x (P Q R : Point C) :
    (P + Q + R).x * ((1 + C.d * P.x * Q.x * P.y * Q.y) * (1 - C.d * P.x * Q.x * P.y * Q.y) +
        C.d * (P.x * Q.y + P.y * Q.x) * R.x * (P.y * Q.y + P.x * Q.x) * R.y) =
      (P.x * Q.y + P.y * Q.x) * (1 - C.d * P.x * Q.x * P.y * Q.y) * R.y +
        (P.y * Q.y + P.x * Q.x) * (1 + C.d * P.x * Q.x * P.y * Q.y) * R.x := by
  have hsum := add_x (P + Q) R
  rw [← add_x P Q, ← add_y P Q]
  linear_combination (1 + C.d * P.x * Q.x * P.y * Q.y) * (1 - C.d * P.x * Q.x * P.y * Q.y) * hsum

theorem add_add_y (P Q R : Point C) :
    (P + Q + R).y * ((1 + C.d * P.x * Q.x * P.y * Q.y) * (1 - C.d * P.x * Q.x * P.y * Q.y) -
        C.d * (P.x * Q.y + P.y * Q.x) * R.x * (P.y * Q.y + P.x * Q.x) * R.y) =
      (P.y * Q.y + P.x * Q.x) * (1 + C.d * P.x * Q.x * P.y * Q.y) * R.y +
        (P.x * Q.y + P.y * Q.x) * (1 - C.d * P.x * Q.x * P.y * Q.y) * R.x := by
  have hsum := add_y (P + Q) R
  rw [← add_x P Q, ← add_y P Q]
  linear_combination (1 + C.d * P.x * Q.x * P.y * Q.y) * (1 - C.d * P.x * Q.x * P.y * Q.y) * hsum

theorem add_add_x_ne (P Q R : Point C) :
    (1 + C.d * P.x * Q.x * P.y * Q.y) * (1 - C.d * P.x * Q.x * P.y * Q.y) +
      C.d * (P.x * Q.y + P.y * Q.x) * R.x * (P.y * Q.y + P.x * Q.x) * R.y ≠ 0 := by
  have hne := mul_ne_zero (mul_ne_zero (one_add_ne P Q) (one_sub_ne P Q)) (one_add_ne (P + Q) R)
  rw [← add_x P Q, ← add_y P Q]
  intro hzero
  apply hne
  linear_combination hzero

theorem add_add_y_ne (P Q R : Point C) :
    (1 + C.d * P.x * Q.x * P.y * Q.y) * (1 - C.d * P.x * Q.x * P.y * Q.y) -
      C.d * (P.x * Q.y + P.y * Q.x) * R.x * (P.y * Q.y + P.x * Q.x) * R.y ≠ 0 := by
  have hne := mul_ne_zero (mul_ne_zero (one_add_ne P Q) (one_sub_ne P Q)) (one_sub_ne (P + Q) R)
  rw [← add_x P Q, ← add_y P Q]
  intro hzero
  apply hne
  linear_combination hzero

instance : AddCommMagma (Point C) where
  add_comm P Q := by
    apply eq_add
    · linear_combination add_x P Q
    · linear_combination add_y P Q

/-- Two fractions with equal cross products are equal. -/
theorem eq_of_cross {a b m n u v : K} (hm : m ≠ 0) (hn : n ≠ 0) (ha : a * m = u) (hb : b * n = v)
    (hcross : u * n = v * m) : a = b := by
  subst ha hb
  apply mul_right_cancel₀ (mul_ne_zero hm hn)
  linear_combination hcross

theorem add_assoc_x (P Q R : Point C) : (P + Q + R).x = (P + (Q + R)).x := by
  rw [add_comm P (Q + R)]
  apply eq_of_cross (add_add_x_ne P Q R) (add_add_x_ne Q R P) (add_add_x P Q R) (add_add_x Q R P)
  linear_combination assoc_x P.on_curve Q.on_curve R.on_curve

theorem add_assoc_y (P Q R : Point C) : (P + Q + R).y = (P + (Q + R)).y := by
  rw [add_comm P (Q + R)]
  apply eq_of_cross (add_add_y_ne P Q R) (add_add_y_ne Q R P) (add_add_y P Q R) (add_add_y Q R P)
  linear_combination assoc_y P.on_curve Q.on_curve R.on_curve

theorem zero_add' (P : Point C) : 0 + P = P := by
  symm
  apply eq_add
  · rw [zero_x, zero_y]
    ring
  · rw [zero_x, zero_y]
    ring

theorem neg_add' (P : Point C) : -P + P = 0 := by
  symm
  apply eq_add
  · rw [zero_x, neg_x, neg_y]
    ring
  · rw [zero_y, neg_x, neg_y]
    linear_combination -P.on_curve

instance : AddCommGroup (Point C) where
  add_assoc P Q R := Point.ext (add_assoc_x P Q R) (add_assoc_y P Q R)
  zero_add := zero_add'
  add_zero P := by rw [add_comm, zero_add']
  neg_add_cancel := neg_add'
  add_comm := add_comm
  nsmul := nsmulRec
  zsmul := zsmulRec

end Point

end Edwards
