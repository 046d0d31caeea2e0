import Mathlib.Algebra.Field.ZMod
import Mathlib.FieldTheory.Finite.Basic
import Mathlib.GroupTheory.OrderOfElement
import PyWhats.Ed25519
import PyWhats.Lib.Edwards

/-! Edwards' curve over the integers modulo `2**255 - 19`: both constants are primes, the curve
is complete, and the base point has the order `q`. -/

namespace PyWhats.Ed25519

open PrimeCertificate

def fieldOrder : Nat := 0x7fffffffffffffffffffffffffffffffffffffffffffffffffffffffffffffed

def groupOrder : Nat := 0x1000000000000000000000000000000014def9dea2f79cd65812631a5cf5d3ed

/-- The two constants and what their certificates rest on. -/
def primes : List Entry :=
  [⟨2, 1, []⟩, ⟨3, 2, [2]⟩, ⟨5, 2, [2, 2]⟩, ⟨7, 3, [2, 3]⟩, ⟨11, 2, [2, 5]⟩, ⟨13, 2, [2, 2, 3]⟩,
   ⟨17, 3, [2, 2, 2, 2]⟩, ⟨19, 2, [2, 3, 3]⟩, ⟨23, 5, [2, 11]⟩, ⟨29, 2, [2, 2, 7]⟩,
   ⟨31, 3, [2, 3, 5]⟩, ⟨37, 2, [2, 2, 3, 3]⟩, ⟨41, 6, [2, 2, 2, 5]⟩, ⟨43, 3, [2, 3, 7]⟩,
   ⟨47, 5, [2, 23]⟩, ⟨53, 2, [2, 2, 13]⟩, ⟨59, 2, [2, 29]⟩, ⟨67, 2, [2, 3, 11]⟩,
   ⟨73, 5, [2, 2, 2, 3, 3]⟩, ⟨79, 3, [2, 3, 13]⟩, ⟨83, 2, [2, 41]⟩, ⟨97, 5, [2, 2, 2, 2, 2, 3]⟩,
   ⟨103, 5, [2, 3, 17]⟩, ⟨107, 2, [2, 53]⟩, ⟨113, 3, [2, 2, 2, 2, 7]⟩, ⟨127, 3, [2, 3, 3, 7]⟩,
   ⟨131, 2, [2, 5, 13]⟩, ⟨173, 2, [2, 2, 43]⟩, ⟨223, 3, [2, 3, 37]⟩, ⟨239, 7, [2, 7, 17]⟩,
   ⟨269, 2, [2, 2, 67]⟩, ⟨307, 5, [2, 3, 3, 17]⟩, ⟨353, 3, [2, 2, 2, 2, 2, 11]⟩,
   ⟨419, 2, [2, 11, 19]⟩, ⟨479, 13, [2, 239]⟩, ⟨487, 3, [2, 3, 3, 3, 3, 3]⟩,
   ⟨991, 6, [2, 3, 3, 5, 11]⟩, ⟨1361, 3, [2, 2, 2, 2, 5, 17]⟩, ⟨1723, 3, [2, 3, 7, 41]⟩,
   ⟨2437, 2, [2, 2, 3, 7, 29]⟩, ⟨2551, 6, [2, 3, 5, 5, 17]⟩, ⟨2851, 2, [2, 3, 5, 5, 19]⟩,
   ⟨2939, 2, [2, 13, 113]⟩, ⟨3727, 3, [2, 3, 3, 3, 3, 23]⟩, ⟨3797, 2, [2, 2, 13, 73]⟩,
   ⟨4153, 5, [2, 2, 2, 3, 173]⟩, ⟨5879, 11, [2, 2939]⟩, ⟨9463, 3, [2, 3, 19, 83]⟩,
   ⟨17231, 13, [2, 5, 1723]⟩, ⟨22111, 6, [2, 3, 5, 11, 67]⟩, ⟨30703, 3, [2, 3, 7, 17, 43]⟩,
   ⟨32573, 2, [2, 2, 17, 479]⟩, ⟨34123, 2, [2, 3, 11, 11, 47]⟩, ⟨37853, 2, [2, 2, 9463]⟩,
   ⟨41081, 3, [2, 2, 2, 5, 13, 79]⟩, ⟨57467, 2, [2, 59, 487]⟩, ⟨65147, 2, [2, 32573]⟩,
   ⟨75707, 2, [2, 37853]⟩, ⟨82163, 2, [2, 41081]⟩, ⟨132049, 26, [2, 2, 2, 2, 3, 3, 7, 131]⟩,
   ⟨132667, 5, [2, 3, 22111]⟩, ⟨137849, 3, [2, 2, 2, 17231]⟩, ⟨409477, 2, [2, 2, 3, 34123]⟩,
   ⟨430751, 17, [2, 5, 5, 5, 1723]⟩, ⟨531581, 2, [2, 2, 5, 7, 3797]⟩, ⟨569003, 2, [2, 7, 97, 419]⟩,
   ⟨1224481, 13, [2, 2, 2, 2, 2, 3, 5, 2551]⟩, ⟨1923133, 2, [2, 2, 3, 43, 3727]⟩,
   ⟨8574133, 2, [2, 2, 3, 7, 103, 991]⟩, ⟨14741173, 2, [2, 2, 3, 3, 409477]⟩,
   ⟨58964693, 2, [2, 2, 14741173]⟩, ⟨292386187, 2, [2, 3, 3, 3, 3, 307, 5879]⟩,
   ⟨2773320623, 5, [2, 2437, 569003]⟩, ⟨72106336199, 7, [2, 13, 2773320623]⟩,
   ⟨213441916511, 13, [2, 5, 73, 292386187]⟩,
   ⟨1257559732178653, 2, [2, 2, 3, 7, 23, 531581, 1224481]⟩,
   ⟨1919519569386763, 2, [2, 3, 7, 19, 47, 47, 127, 8574133]⟩,
   ⟨31757755568855353, 10, [2, 2, 2, 3, 31, 107, 223, 4153, 430751]⟩,
   ⟨4434155615661930479, 17, [2, 41, 43, 1257559732178653]⟩,
   ⟨3044861653679985063343, 5, [2, 3, 11, 30703, 82163, 132667, 137849]⟩,
   ⟨172054593956031949258510691, 2, [2, 5, 1361, 2851, 4434155615661930479]⟩,
   ⟨198211423230930754013084525763697, 5, [2, 2, 2, 2, 3, 23, 58964693, 3044861653679985063343]⟩,
   ⟨75445702479781427272750846543864801, 7,
      [2, 2, 2, 2, 2, 3, 3, 5, 5, 75707, 72106336199, 1919519569386763]⟩,
   ⟨19757330305831588566944191468367130476339, 2,
      [2, 269, 213441916511, 172054593956031949258510691]⟩,
   ⟨276602624281642239937218680557139826668747, 2,
      [2, 7, 19757330305831588566944191468367130476339]⟩,
   ⟨74058212732561358302231226437062788676166966415465897661863160754340907, 2,
      [2, 3, 353, 57467, 132049, 1923133, 31757755568855353, 75445702479781427272750846543864801]⟩,
   ⟨7237005577332262213973186563042994240857116359379907606001950938285454250989, 2,
      [2, 2, 3, 11, 198211423230930754013084525763697,
       276602624281642239937218680557139826668747]⟩,
   ⟨57896044618658097711785492504343953926634992332820282019728792003956564819949, 2,
      [2, 2, 3, 65147, 74058212732561358302231226437062788676166966415465897661863160754340907]⟩]

theorem prime_of_mem {n : Nat} (h : (primes.any fun e => e.p == n) = true) : n.Prime := by
  have hcheck : check [] primes = true := by decide +kernel
  obtain ⟨e, he, heq⟩ := List.any_eq_true.mp h
  rw [← beq_iff_eq.mp heq]
  exact prime_of_check hcheck (fun f hf => absurd hf List.not_mem_nil) e he

instance fieldOrder_prime : Fact fieldOrder.Prime := ⟨prime_of_mem (by decide +kernel)⟩

instance groupOrder_prime : Fact groupOrder.Prime := ⟨prime_of_mem (by decide +kernel)⟩

theorem p_eq : p = (fieldOrder : Int) := rfl

theorem q_eq : q = (groupOrder : Int) := rfl

abbrev Field25519 := ZMod fieldOrder

section Cast

theorem cast_emod (a : Int) : ((a % p : Int) : Field25519) = (a : Field25519) :=
  ZMod.intCast_mod a fieldOrder

theorem emod_nonneg (a : Int) : 0 ≤ a % p := Int.emod_nonneg a (by decide)

theorem emod_lt (a : Int) : a % p < p := Int.emod_lt_of_pos a (by decide)

theorem cast_pow (b e : Int) : (pow b e : Field25519) = (b : Field25519) ^ e.toNat := by
  have hbase : (((b % p).toNat : Nat) : Field25519) = (b : Field25519) := by
    rw [← Int.cast_natCast, Int.toNat_of_nonneg (emod_nonneg b), cast_emod]
  have hpow := powMod_cast (b % p).toNat e.toNat fieldOrder
  rw [hbase] at hpow
  rw [← hpow]
  exact Int.cast_natCast _

theorem pow_nonneg (b e : Int) : 0 ≤ pow b e := Int.natCast_nonneg _

theorem pow_lt (b e : Int) : pow b e < p := by
  rw [pow, powMod_eq]
  exact Int.ofNat_lt.mpr (Nat.mod_lt _ (by decide))

theorem cast_inv (x : Int) : (inv x : Field25519) = (x : Field25519)⁻¹ := by
  have hexp : (p - 2).toNat + 1 = fieldOrder - 1 := by decide
  rw [inv, cast_pow]
  by_cases hx : (x : Field25519) = 0
  · have hpos : (p - 2).toNat ≠ 0 := by decide
    rw [hx, inv_zero, zero_pow hpos]
  · apply eq_inv_of_mul_eq_one_left
    rw [← pow_succ, hexp, ZMod.pow_card_sub_one_eq_one hx]

theorem cast_eq_of_emod {a b : Int} (h : a % p = b % p) : (a : Field25519) = (b : Field25519) := by
  rw [← cast_emod a, h, cast_emod]

theorem eq_of_cast_eq {a b : Int} (ha : 0 ≤ a) (hap : a < p) (hb : 0 ≤ b) (hbp : b < p)
    (h : (a : Field25519) = (b : Field25519)) : a = b := by
  have hmod := (ZMod.intCast_eq_intCast_iff a b fieldOrder).mp h
  rwa [Int.ModEq, ← p_eq, Int.emod_eq_of_lt ha hap, Int.emod_eq_of_lt hb hbp] at hmod

end Cast

section Constants

theorem field_two_ne_zero : (2 : Field25519) ≠ 0 := by
  intro h
  have hcast : (((2 : Nat)) : Field25519) = 0 := by exact_mod_cast h
  have hdvd := (ZMod.natCast_eq_zero_iff 2 fieldOrder).mp hcast
  exact absurd hdvd (by decide)

/-- The root of `-1` that `_recover_x` multiplies by. -/
theorem sqrtNegOne_sq : ((pow 2 ((p - 1) / 4) : Int) : Field25519) ^ 2 = -1 := by
  have hsq : (pow 2 ((p - 1) / 4) * pow 2 ((p - 1) / 4)) % p = -1 % p := by decide +kernel
  have hcast := cast_eq_of_emod hsq
  rw [Int.cast_mul, Int.cast_neg, Int.cast_one] at hcast
  rw [pow_two, hcast]

theorem d_nonsquare (c : Field25519) : c ^ 2 ≠ (d : Field25519) := by
  intro hsq
  have hlegendre : pow d ((p - 1) / 2) % p = -1 % p := by decide +kernel
  have hcast := cast_eq_of_emod hlegendre
  have hexp : 2 * ((p - 1) / 2).toNat = fieldOrder - 1 := by decide
  rw [cast_pow, Int.cast_neg, Int.cast_one, ← hsq, ← pow_mul, hexp] at hcast
  by_cases hc : c = 0
  · have hpos : fieldOrder - 1 ≠ 0 := by decide
    rw [hc, zero_pow hpos] at hcast
    exact one_ne_zero (neg_eq_zero.mp hcast.symm)
  · rw [ZMod.pow_card_sub_one_eq_one hc] at hcast
    apply field_two_ne_zero
    linear_combination hcast

def curve : Edwards.Curve Field25519 where
  d := (d : Field25519)
  i := ((pow 2 ((p - 1) / 4) : Int) : Field25519)
  i_sq := sqrtNegOne_sq
  two_ne := field_two_ne_zero
  nonsquare := d_nonsquare

end Constants

/-- The extended coordinates of a point of the curve. -/
structure Represents (P : Point) (A : Edwards.Point curve) : Prop where
  z_ne : (P.z : Field25519) ≠ 0
  x : (P.x : Field25519) = A.x * P.z
  y : (P.y : Field25519) = A.y * P.z
  t : (P.t : Field25519) = A.x * A.y * P.z

section Arithmetic

variable {P Q : Point} {A C : Edwards.Point curve}

theorem represents_zero : Represents ⟨0, 1, 1, 0⟩ 0 := by
  refine ⟨?_, ?_, ?_, ?_⟩ <;> simp [Edwards.Point.zero_x, Edwards.Point.zero_y]

/-- The addition in the field: four products of two differences and two sums. -/
theorem pointAdd_cast {e f g h : Field25519}
    (he : ((P.y + P.x) * (Q.y + Q.x) - (P.y - P.x) * (Q.y - Q.x) : Field25519) = e)
    (hf : (P.z * 2 * Q.z - P.t * 2 * d * Q.t : Field25519) = f)
    (hg : (P.z * 2 * Q.z + P.t * 2 * d * Q.t : Field25519) = g)
    (hh : ((P.y + P.x) * (Q.y + Q.x) + (P.y - P.x) * (Q.y - Q.x) : Field25519) = h) :
    ((pointAdd P Q).x : Field25519) = e * f ∧ ((pointAdd P Q).y : Field25519) = g * h ∧
      ((pointAdd P Q).z : Field25519) = f * g ∧ ((pointAdd P Q).t : Field25519) = e * h := by
  simp only [pointAdd, cast_emod, Int.cast_mul, Int.cast_sub, Int.cast_add, Int.cast_ofNat, he, hf,
    hg, hh, and_self]

theorem Represents.add (hP : Represents P A) (hQ : Represents Q C) :
    Represents (pointAdd P Q) (A + C) := by
  have hx := Edwards.Point.add_x A C
  have hy := Edwards.Point.add_y A C
  have hd : (d : Field25519) = curve.d := rfl
  have hz := mul_ne_zero hP.z_ne hQ.z_ne
  have hplus := Edwards.one_add_ne A C
  have hminus := Edwards.one_sub_ne A C
  set z := (P.z : Field25519) * Q.z with hzdef
  set u := 1 + curve.d * A.x * C.x * A.y * C.y with hu
  set v := 1 - curve.d * A.x * C.x * A.y * C.y with hv
  have hE : ((P.y + P.x) * (Q.y + Q.x) - (P.y - P.x) * (Q.y - Q.x) : Field25519) =
      2 * z * u * (A + C).x := by
    rw [hP.x, hP.y, hQ.x, hQ.y]
    linear_combination -2 * z * hx
  have hH : ((P.y + P.x) * (Q.y + Q.x) + (P.y - P.x) * (Q.y - Q.x) : Field25519) =
      2 * z * v * (A + C).y := by
    rw [hP.x, hP.y, hQ.x, hQ.y]
    linear_combination -2 * z * hy
  have hF : (P.z * 2 * Q.z - P.t * 2 * d * Q.t : Field25519) = 2 * z * v := by
    rw [hP.t, hQ.t, hd, hv]
    ring
  have hG : (P.z * 2 * Q.z + P.t * 2 * d * Q.t : Field25519) = 2 * z * u := by
    rw [hP.t, hQ.t, hd, hu]
    ring
  have htwo := field_two_ne_zero
  obtain ⟨hsumX, hsumY, hsumZ, hsumT⟩ := pointAdd_cast hE hF hG hH
  refine ⟨?_, ?_, ?_, ?_⟩
  · rw [hsumZ]
    exact mul_ne_zero (mul_ne_zero (mul_ne_zero htwo hz) hminus)
      (mul_ne_zero (mul_ne_zero htwo hz) hplus)
  · rw [hsumX, hsumZ]
    ring
  · rw [hsumY, hsumZ]
    ring
  · rw [hsumT, hsumZ]
    ring

theorem Represents.neg (hP : Represents P A) : Represents (pointNegate P) (-A) := by
  refine ⟨hP.z_ne, ?_, ?_, ?_⟩
  · simp only [pointNegate, cast_emod, Int.cast_neg, hP.x, Edwards.Point.neg_x]
    ring
  · simp only [pointNegate, hP.y, Edwards.Point.neg_y]
  · simp only [pointNegate, cast_emod, Int.cast_neg, hP.t, Edwards.Point.neg_x, Edwards.Point.neg_y]
    ring

theorem scalarLoop_represents {fuel s : Nat} (hs : s < 2 ^ fuel) (hP : Represents P A)
    (hQ : Represents Q C) : Represents (scalarLoop fuel s P Q) (C + s • A) := by
  induction fuel generalizing s P Q A C with
  | zero =>
    have hzero : s = 0 := by simpa using hs
    rw [scalarLoop, hzero, zero_nsmul, add_zero]
    exact hQ
  | succ fuel ih =>
    rw [scalarLoop]
    by_cases hpos : s > 0
    · have hhalf : s / 2 < 2 ^ fuel := by
        rw [pow_succ] at hs
        omega
      have hnext := fun {Q C} (hQ : Represents Q C) => ih hhalf (hP.add hP) hQ
      have hhalves : (s / 2) • (A + A) = (2 * (s / 2)) • A := by rw [mul_nsmul, two_nsmul]
      rw [if_pos hpos]
      by_cases hodd : s % 2 = 1
      · have hsplit : 1 + 2 * (s / 2) = s := by omega
        have hsum : C + A + (s / 2) • (A + A) = C + s • A := by
          rw [hhalves, add_assoc]
          conv_rhs => rw [← hsplit, add_nsmul, one_nsmul]
        rw [if_pos hodd, ← hsum]
        exact hnext (hQ.add hP)
      · have hsplit : 2 * (s / 2) = s := by omega
        have hsum : C + (s / 2) • (A + A) = C + s • A := by rw [hhalves, hsplit]
        rw [if_neg hodd, ← hsum]
        exact hnext hQ
    · have hzero : s = 0 := by omega
      rw [if_neg hpos, hzero, zero_nsmul, add_zero]
      exact hQ

theorem scalarMult_represents (s : Nat) (hP : Represents P A) :
    Represents (scalarMult s P) (s • A) := by
  have hloop := scalarLoop_represents (s := s) Nat.lt_log2_self hP represents_zero
  rwa [zero_add] at hloop

end Arithmetic

section Root

theorem cast_val (a : Field25519) : ((a.val : Int) : Field25519) = a := by
  rw [Int.cast_natCast, ZMod.natCast_zmod_val]

theorem val_lt (a : Field25519) : (a.val : Int) < p := Int.ofNat_lt.mpr (ZMod.val_lt a)

theorem eq_val {x : Int} (hx : 0 ≤ x) (hxp : x < p) {a : Field25519} (h : (x : Field25519) = a) :
    x = a.val :=
  eq_of_cast_eq hx hxp (Int.natCast_nonneg _) (val_lt a) (by rw [h, cast_val])

theorem emod_eq_zero {a : Int} : a % p = 0 ↔ (a : Field25519) = 0 := by
  rw [← Int.dvd_iff_emod_eq_zero, p_eq, ZMod.intCast_zmod_eq_zero_iff_dvd]

/-- Of two roots the one with the parity that was asked for. -/
theorem cast_parity {x : Int} (hx : 0 ≤ x) (hxp : x < p) {c : Field25519}
    (hroot : (x : Field25519) = c ∨ (x : Field25519) = -c) {sign : Nat} (hsign : sign < 2) :
    ((if x % 2 ≠ sign then p - x else x : Int) : Field25519) =
      if c.val % 2 = sign then c else -c := by
  have hp : ((p : Int) : Field25519) = 0 := emod_eq_zero.mp (by decide)
  have hodd : p % 2 = 1 := by decide
  by_cases hsame : (x : Field25519) = c
  · have hval := eq_val hx hxp hsame
    by_cases hparity : c.val % 2 = sign
    · have hkeep : ¬ x % 2 ≠ sign := by omega
      rw [if_neg hkeep, if_pos hparity, hsame]
    · have hturn : x % 2 ≠ sign := by omega
      rw [if_pos hturn, if_neg hparity, Int.cast_sub, hp, hsame, zero_sub]
  · have hneg := hroot.resolve_left hsame
    have hc : c ≠ 0 := by
      rintro rfl
      rw [neg_zero] at hneg
      exact hsame hneg
    have hval := eq_val hx hxp hneg
    have hlt := val_lt c
    rw [ZMod.neg_val, if_neg hc, Nat.cast_sub (ZMod.val_lt c).le, ← p_eq] at hval
    by_cases hparity : c.val % 2 = sign
    · have hturn : x % 2 ≠ sign := by omega
      rw [if_pos hturn, if_pos hparity, Int.cast_sub, hp, hneg, zero_sub, neg_neg]
    · have hkeep : ¬ x % 2 ≠ sign := by omega
      rw [if_neg hkeep, if_neg hparity, hneg]

/-- The power that `_recover_x` starts from is a root up to a root of `-1`. -/
theorem root_candidate (c : Field25519) :
    ((c ^ 2) ^ ((p + 3) / 8).toNat) ^ 2 = c ^ 2 ∨
      ((c ^ 2) ^ ((p + 3) / 8).toNat) ^ 2 = -c ^ 2 := by
  have hexp : 2 * (((p + 3) / 8).toNat * 2) = 2 + ((p - 1) / 2).toNat := by decide
  have hhalf : ((p - 1) / 2).toNat * 2 = fieldOrder - 1 := by decide
  rw [← pow_mul, ← pow_mul, hexp, pow_add]
  by_cases hc : c = 0
  · left
    rw [hc]
    simp
  · have hsq : c ^ ((p - 1) / 2).toNat * c ^ ((p - 1) / 2).toNat = 1 := by
      rw [← pow_two, ← pow_mul, hhalf, ZMod.pow_card_sub_one_eq_one hc]
    rcases mul_self_eq_one_iff.mp hsq with hone | hneg
    · left
      rw [hone, mul_one]
    · right
      rw [hneg]
      ring

/-- Where the candidate is no root, its product with the root of `-1` is. -/
theorem corrected_root {x xx : Int} (hx : 0 ≤ x) (hxp : x < p) {c : Field25519}
    (hxx : (xx : Field25519) = c ^ 2)
    (hsquare : (x : Field25519) ^ 2 = c ^ 2 ∨ (x : Field25519) ^ 2 = -c ^ 2) :
    ∃ r, (if (x * x - xx) % p ≠ 0 then x * pow 2 ((p - 1) / 4) % p else x) = r ∧ 0 ≤ r ∧ r < p ∧
      (r : Field25519) ^ 2 = c ^ 2 := by
  have hzero : (x * x - xx) % p = 0 ↔ (x : Field25519) ^ 2 = c ^ 2 := by
    rw [emod_eq_zero, Int.cast_sub, Int.cast_mul, hxx, sub_eq_zero, ← pow_two]
  by_cases hroot : (x * x - xx) % p = 0
  · exact ⟨x, if_neg (not_not.mpr hroot), hx, hxp, hzero.mp hroot⟩
  · have hneg := hsquare.resolve_left fun h => hroot (hzero.mpr h)
    refine ⟨_, if_pos hroot, emod_nonneg _, emod_lt _, ?_⟩
    rw [cast_emod, Int.cast_mul, mul_pow, hneg, sqrtNegOne_sq]
    ring

theorem recoverX_val (A : Edwards.Point curve) {sign : Nat} (hsign : sign < 2) :
    ∃ x, recoverX A.y.val sign = .ok x ∧
      (x : Field25519) = if A.x.val % 2 = sign then A.x else -A.x := by
  have hcurve := A.on_curve
  have hd : (d : Field25519) = curve.d := rfl
  have hdenominator := Edwards.one_add_mul_sq_ne (C := curve) A.y
  have hxx : ((((A.y.val : Int) * A.y.val - 1) * inv (d * A.y.val * A.y.val + 1) % p : Int) :
      Field25519) = A.x ^ 2 := by
    rw [cast_emod, Int.cast_mul, cast_inv]
    simp only [Int.cast_sub, Int.cast_add, Int.cast_mul, Int.cast_one, cast_val, hd]
    rw [← div_eq_mul_inv, div_eq_iff (by intro h; apply hdenominator; linear_combination h)]
    linear_combination hcurve
  have hlow : ¬ (A.y.val : Int) ≥ p := not_le.mpr (val_lt A.y)
  rw [recoverX, if_neg hlow]
  generalize ((A.y.val : Int) * A.y.val - 1) * inv (d * A.y.val * A.y.val + 1) % p = xx at hxx ⊢
  have hcandidate : ((pow xx ((p + 3) / 8) : Int) : Field25519) =
      (A.x ^ 2) ^ ((p + 3) / 8).toNat := by rw [cast_pow, hxx]
  have hsquare := root_candidate A.x
  rw [← hcandidate] at hsquare
  obtain ⟨r, hr, hr0, hrp, hrsq⟩ := corrected_root (pow_nonneg _ _) (pow_lt _ _) hxx hsquare
  have hcheck : ¬ (r * r - xx) % p ≠ 0 := by
    rw [not_not, emod_eq_zero, Int.cast_sub, Int.cast_mul, hxx, ← pow_two, hrsq, sub_self]
  have hparity := cast_parity hr0 hrp (sq_eq_sq_iff_eq_or_eq_neg.mp hrsq) hsign
  simp only [hr, if_neg hcheck]
  rw [← hparity]
  by_cases hturn : r % 2 ≠ sign
  · exact ⟨_, if_pos hturn, by rw [if_pos hturn]⟩
  · exact ⟨_, if_neg hturn, by rw [if_neg hturn]⟩

end Root

section Encoding

def topBit : Nat := 0x8000000000000000000000000000000000000000000000000000000000000000

/-- The `y` of a point, and in the top bit the parity of its `x`. -/
def encode (A : Edwards.Point curve) : Bytes :=
  Binary.toBytesLittle 32 (A.y.val + topBit * (A.x.val % 2))

theorem val_lt_topBit (a : Field25519) : a.val < topBit := by
  have hlt := ZMod.val_lt a
  have hle : fieldOrder ≤ topBit := by decide
  exact lt_of_lt_of_le hlt hle

theorem topBit_eq : topBit = 2 ^ 255 := by decide

theorem Represents.compress {P : Point} {A : Edwards.Point curve} (h : Represents P A) :
    pointCompress P = encode A := by
  have hx : P.x * inv P.z % p = A.x.val := by
    apply eq_val (emod_nonneg _) (emod_lt _)
    rw [cast_emod, Int.cast_mul, cast_inv, h.x, mul_inv_cancel_right₀ h.z_ne]
  have hy : P.y * inv P.z % p = A.y.val := by
    apply eq_val (emod_nonneg _) (emod_lt _)
    rw [cast_emod, Int.cast_mul, cast_inv, h.y, mul_inv_cancel_right₀ h.z_ne]
  have hlow : A.y.val < 2 ^ 255 := topBit_eq ▸ val_lt_topBit A.y
  simp only [pointCompress, encode, hx, hy, Int.toNat_natCast, Nat.and_one_is_mod,
    Nat.shiftLeft_eq, topBit_eq]
  rw [Nat.or_comm, Nat.mul_comm _ (2 ^ 255), ← Nat.two_pow_add_eq_or_of_lt hlow, Nat.add_comm]

theorem topBit_split {y sign : Nat} (hy : y < topBit) (hsign : sign < 2) :
    (y + topBit * sign) / topBit = sign ∧ (y + topBit * sign) % topBit = y ∧
      y + topBit * sign < 256 ^ 32 := by
  have htop : 2 * topBit = 256 ^ 32 := by decide
  have hpos : 0 < topBit := by omega
  refine ⟨?_, ?_, ?_⟩
  · rw [Nat.add_mul_div_left _ _ hpos, Nat.div_eq_of_lt hy, Nat.zero_add]
  · rw [Nat.add_mul_mod_self_left, Nat.mod_eq_of_lt hy]
  · rw [← htop]
    have hle : topBit * sign ≤ topBit * 1 := Nat.mul_le_mul_left _ (by omega)
    omega

theorem pointDecompress_val (A : Edwards.Point curve) {sign : Nat} (hsign : sign < 2) :
    ∃ P, pointDecompress (Binary.toBytesLittle 32 (A.y.val + topBit * sign)) = some P ∧
      Represents P (if A.x.val % 2 = sign then A else -A) := by
  obtain ⟨hdiv, hmod, hlt⟩ := topBit_split (val_lt_topBit A.y) hsign
  obtain ⟨x, hx, hcast⟩ := recoverX_val A hsign
  have hbit : (A.y.val + topBit * sign) >>> 255 &&& 1 = sign := by
    rw [Nat.shiftRight_eq_div_pow, ← topBit_eq, hdiv, Nat.and_one_is_mod, Nat.mod_eq_of_lt hsign]
  have hrest : (A.y.val + topBit * sign) &&& ((1 <<< 255) - 1) = A.y.val := by
    rw [Nat.shiftLeft_eq, Nat.one_mul, Nat.and_two_pow_sub_one_eq_mod, ← topBit_eq, hmod]
  have hpoint : ((if A.x.val % 2 = sign then A else -A).x : Field25519) =
      if A.x.val % 2 = sign then A.x else -A.x := by split <;> rfl
  have hheight : ((if A.x.val % 2 = sign then A else -A).y : Field25519) = A.y := by split <;> rfl
  refine ⟨⟨x, A.y.val, 1, (x * A.y.val) % p⟩, ?_, ?_⟩
  · rw [pointDecompress, Binary.toBytesLittle_length, if_neg (by decide)]
    simp only [Binary.fromBytesLittle_toBytesLittle hlt, hbit, hrest, hx]
  · refine ⟨by simp, ?_, ?_, ?_⟩
    · rw [hcast, hpoint, Int.cast_one, mul_one]
    · rw [cast_val, hheight, Int.cast_one, mul_one]
    · rw [cast_emod, Int.cast_mul, cast_val, hcast, hpoint, hheight, Int.cast_one, mul_one]

end Encoding

section Base

def basePoint : Edwards.Point curve where
  x := (baseX : Field25519)
  y := (baseY : Field25519)
  on_curve := by
    have hcurve : (baseY * baseY - baseX * baseX) % p =
        (1 + d * (baseX * baseX) * (baseY * baseY)) % p := by decide +kernel
    have hcast := cast_eq_of_emod hcurve
    simp only [Int.cast_sub, Int.cast_add, Int.cast_mul, Int.cast_one] at hcast
    have hd : (d : Field25519) = curve.d := rfl
    rw [← hd]
    linear_combination hcast

theorem represents_B : Represents B basePoint := by
  refine ⟨by simp [B], ?_, ?_, ?_⟩
  · simp only [B, cast_emod, Int.cast_one, mul_one]
    rfl
  · simp only [B, cast_emod, Int.cast_one, mul_one]
    rfl
  · simp only [B, cast_emod, Int.cast_mul, Int.cast_one, mul_one]
    rfl

theorem basePoint_ne_zero : basePoint ≠ 0 := by
  intro hzero
  have hx : basePoint.x = 0 := by rw [hzero, Edwards.Point.zero_x]
  exact absurd (emod_eq_zero.mpr hx) (by decide +kernel)

theorem groupOrder_smul : groupOrder • basePoint = 0 := by
  have hrep := scalarMult_represents groupOrder represents_B
  have hx : (scalarMult groupOrder B).x % p = 0 := by decide +kernel
  have hy : ((scalarMult groupOrder B).y - (scalarMult groupOrder B).z) % p = 0 := by
    decide +kernel
  have hx' := emod_eq_zero.mp hx
  have hy' := emod_eq_zero.mp hy
  rw [hrep.x] at hx'
  rw [Int.cast_sub, hrep.y, sub_eq_zero] at hy'
  apply Edwards.Point.ext
  · exact (mul_eq_zero.mp hx').resolve_right hrep.z_ne
  · exact mul_right_cancel₀ hrep.z_ne (hy'.trans (one_mul _).symm)

theorem addOrderOf_basePoint : addOrderOf basePoint = groupOrder :=
  addOrderOf_eq_prime groupOrder_smul basePoint_ne_zero

/-- Scalars count modulo `q`. -/
theorem emod_q_smul (n : Int) : (n % q) • basePoint = n • basePoint := by
  rw [q_eq, ← addOrderOf_basePoint, mod_addOrderOf_zsmul]

theorem emod_q_toNat_smul (n : Int) (A : Edwards.Point curve) :
    (n % q).toNat • A = (n % q) • A := by
  have hnonneg : 0 ≤ n % q := Int.emod_nonneg n (by decide)
  rw [← natCast_zsmul, Int.toNat_of_nonneg hnonneg]

theorem emod_q_toNat_lt (n : Int) : (n % q).toNat < groupOrder := by
  have hnonneg : 0 ≤ n % q := Int.emod_nonneg n (by decide)
  exact (Int.toNat_lt hnonneg).mpr (Int.emod_lt_of_pos n (by decide))

theorem scalarMultBase_represents (n : Int) : Represents (scalarMultBase n) (n • basePoint) := by
  have hrep := scalarMult_represents (n % q).toNat represents_B
  rwa [emod_q_toNat_smul, emod_q_smul] at hrep

end Base

end PyWhats.Ed25519
