import PyWhats.Curve25519

/-! What `_point_add`, `_scalar_mult` and `_point_compress` do with any points in extended
coordinates: the curve's group law, with no exceptional inputs. -/

namespace PyWhats.Ed25519

/-- `-x² + y² = 1 + d x² y²` for `x = X/Z` and `y = Y/Z`, cleared of denominators, and `T = XY/Z`. -/
structure Extended (P : Point) : Prop where
  z : P.z % p ≠ 0
  t : (P.x * P.y) % p = (P.z * P.t) % p
  equation : (P.y ^ 2 - P.x ^ 2) * P.z ^ 2 % p = (P.z ^ 4 + d * P.x ^ 2 * P.y ^ 2) % p

variable {P Q : Point} {A C : Edwards.Point curve}

theorem emod_eq_iff {a b : Int} : a % p = b % p ↔ (a : Field25519) = (b : Field25519) := by
  refine ⟨cast_eq_of_emod, fun h => ?_⟩
  rw [Int.emod_eq_emod_iff_emod_sub_eq_zero, emod_eq_zero, Int.cast_sub, h, sub_self]

theorem Extended.z_ne (h : Extended P) : (P.z : Field25519) ≠ 0 := fun hz =>
  h.z (emod_eq_zero.mpr hz)

def Extended.affine (h : Extended P) : Edwards.Point curve where
  x := (P.x : Field25519) / P.z
  y := (P.y : Field25519) / P.z
  on_curve := by
    have hequation := emod_eq_iff.mp h.equation
    have hd : (d : Field25519) = curve.d := rfl
    push_cast at hequation
    rw [hd] at hequation
    have hz := h.z_ne
    field_simp
    linear_combination hequation

theorem Extended.represents (h : Extended P) : Represents P h.affine := by
  have hz := h.z_ne
  have ht := emod_eq_iff.mp h.t
  push_cast at ht
  refine ⟨hz, (div_mul_cancel₀ _ hz).symm, (div_mul_cancel₀ _ hz).symm, ?_⟩
  simp only [Extended.affine]
  field_simp
  linear_combination -ht

theorem Represents.extended (h : Represents P A) : ∃ hP : Extended P, hP.affine = A := by
  have hz := h.z_ne
  have hcurve := A.on_curve
  have hd : (d : Field25519) = curve.d := rfl
  have hP : Extended P := by
    refine ⟨fun hzero => hz (emod_eq_zero.mp hzero), ?_, ?_⟩
    · rw [emod_eq_iff]
      push_cast
      rw [h.x, h.y, h.t]
      ring
    · rw [emod_eq_iff]
      push_cast
      rw [hd, h.x, h.y]
      linear_combination (P.z : Field25519) ^ 4 * hcurve
  refine ⟨hP, Edwards.Point.ext ?_ ?_⟩
  · exact (div_eq_iff hz).mpr h.x
  · exact (div_eq_iff hz).mpr h.y

theorem mul_inv_emod {z : Int} (hz : z % p ≠ 0) : z * inv z % p = 1 := by
  have hne : (z : Field25519) ≠ 0 := fun h => hz (emod_eq_zero.mpr h)
  have hcast : ((z * inv z : Int) : Field25519) = ((1 : Int) : Field25519) := by
    rw [Int.cast_mul, cast_inv, mul_inv_cancel₀ hne, Int.cast_one]
  exact emod_eq_iff.mpr hcast

/-- Sums, multiples and encodings of points in extended coordinates are those of the points
they stand for. -/
theorem extended_complete (hP : Extended P) (hQ : Extended Q) :
    (1 + curve.d * hP.affine.x * hQ.affine.x * hP.affine.y * hQ.affine.y ≠ 0 ∧
      1 - curve.d * hP.affine.x * hQ.affine.x * hP.affine.y * hQ.affine.y ≠ 0 ∧
      ∃ hsum : Extended (pointAdd P Q), hsum.affine = hP.affine + hQ.affine) ∧
    (∀ s, ∃ hmult : Extended (scalarMult s P), hmult.affine = s • hP.affine) ∧
    P.z * inv P.z % p = 1 ∧ pointCompress P = encode hP.affine := by
  refine ⟨⟨?_, ?_, ?_⟩, ?_, ?_, ?_⟩
  · exact Edwards.one_add_ne hP.affine hQ.affine
  · exact Edwards.one_sub_ne hP.affine hQ.affine
  · exact (hP.represents.add hQ.represents).extended
  · intro s
    exact (scalarMult_represents s hP.represents).extended
  · exact mul_inv_emod hP.z
  · exact hP.represents.compress

theorem extended_B : Extended B := by constructor <;> decide +kernel

theorem extended_complete_B :
    (∃ hsum : Extended (pointAdd B B), hsum.affine = extended_B.affine + extended_B.affine) ∧
      B.z * inv B.z % p = 1 := by
  obtain ⟨⟨_, _, hsum⟩, _, hinv, _⟩ := extended_complete extended_B extended_B
  exact ⟨hsum, hinv⟩

end PyWhats.Ed25519
