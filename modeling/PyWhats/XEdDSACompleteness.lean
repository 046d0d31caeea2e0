import PyWhats.Curve25519
import PyWhats.XEdDSA

/-! Signatures verify: the key that a verifier rebuilds from the Montgomery public key is the
one that was signed with, and the check is an equation in the group of the curve. -/

namespace PyWhats.XEdDSA

open Ed25519

section LastByte

theorem modify_concat (data : Bytes) (b : UInt8) (f : UInt8 → UInt8) :
    (data ++ [b]).modify data.length f = data ++ [f b] := by
  induction data with
  | nil => rfl
  | cons c data ih => rw [List.length_cons, List.cons_append, List.modify_succ_cons, ih]; rfl

theorem getD_concat (data : Bytes) (b : UInt8) : (data ++ [b]).getD data.length 0 = b := by
  induction data with
  | nil => rfl
  | cons c data ih => exact ih

theorem modify_last (n : Nat) (f : UInt8 → UInt8) :
    (Binary.toBytesLittle 32 n).modify 31 f =
      Binary.toBytesLittle 31 n ++ [f (Binary.byte (n / 256 ^ 31))] := by
  have hmodify := modify_concat (Binary.toBytesLittle 31 n) (Binary.byte (n / 256 ^ 31)) f
  rwa [Binary.toBytesLittle_length, ← Binary.toBytesLittle_succ] at hmodify

theorem getD_last (n : Nat) :
    (Binary.toBytesLittle 32 n).getD 31 0 = Binary.byte (n / 256 ^ 31) := by
  have hget := getD_concat (Binary.toBytesLittle 31 n) (Binary.byte (n / 256 ^ 31))
  rwa [Binary.toBytesLittle_length, ← Binary.toBytesLittle_succ] at hget

theorem topBit_last : topBit = 256 ^ 31 * 128 := by decide

theorem last_lt {n : Nat} (h : n < 256 ^ 32) : n / 256 ^ 31 < 256 := by
  rw [Nat.div_lt_iff_lt_mul (by decide)]
  exact h

/-- The top bit of the last byte. -/
theorem signBit_eq {n : Nat} (h : n < 256 ^ 32) :
    (((Binary.toBytesLittle 32 n).getD 31 0 >>> 7) &&& 1).toNat = n / topBit := by
  have hlast := last_lt h
  rw [getD_last, UInt8.toNat_and, UInt8.toNat_shiftRight, Binary.byte_toNat hlast, topBit_last,
    ← Nat.div_div_eq_div_mul]
  generalize n / 256 ^ 31 = m at hlast
  change (m >>> 7) &&& 1 = m / 128
  rw [Nat.shiftRight_eq_div_pow, Nat.and_one_is_mod]
  omega

theorem byte_and_low {m : Nat} (h : m < 256) : Binary.byte m &&& 0x7f = Binary.byte (m % 128) := by
  apply UInt8.toNat_inj.mp
  rw [UInt8.toNat_and, Binary.byte_toNat h, Binary.byte_toNat (by omega)]
  exact Nat.and_two_pow_sub_one_eq_mod m 7

/-- Clearing the top bit. -/
theorem clear_topBit {n : Nat} (h : n < 256 ^ 32) :
    (Binary.toBytesLittle 32 n).modify 31 (· &&& 0x7f) = Binary.toBytesLittle 32 (n % topBit) := by
  have hlow : Binary.toBytesLittle 31 (n % topBit) = Binary.toBytesLittle 31 n := by
    conv_rhs => rw [← Nat.mod_add_div n topBit, topBit_last, Nat.mul_assoc,
      Binary.toBytesLittle_add_mul, ← topBit_last]
  have hhigh : n % topBit / 256 ^ 31 = n / 256 ^ 31 % 128 := by
    rw [topBit_last, Nat.mod_mul_right_div_self]
  rw [modify_last, Binary.toBytesLittle_succ 31 (n % topBit), hlow, hhigh, byte_and_low (last_lt h)]

end LastByte

section Montgomery

variable {A : Edwards.Point curve}

/-- Only the neutral element has no Montgomery coordinate. -/
theorem y_ne_one (h : A ≠ 0) : A.y ≠ 1 := by
  intro hy
  have hcurve := A.on_curve
  have hne := Edwards.one_add_mul_sq_ne (C := curve) 1
  have hx : A.x ^ 2 * (1 + curve.d * 1 ^ 2) = 0 := by
    rw [hy] at hcurve
    linear_combination -hcurve
  have hx0 := pow_eq_zero_iff (two_ne_zero) |>.mp ((mul_eq_zero.mp hx).resolve_right hne)
  exact h (Edwards.Point.ext hx0 hy)

def montgomeryU (A : Edwards.Point curve) : Field25519 := (1 + A.y) / (1 - A.y)

/-- The X25519 public key: the `u` of the clamped scalar times the base point. -/
def montgomeryPublic (x25519Private : Bytes) : Bytes :=
  Binary.toBytesLittle 32 (montgomeryU (clampScalar x25519Private • basePoint)).val

/-- The same bytes from the extended coordinates of the product. -/
def computedPublic (x25519Private : Bytes) : Bytes :=
  let P := scalarMult (clampScalar x25519Private) B
  Binary.toBytesLittle 32 ((P.z + P.y) * inv (P.z - P.y) % p).toNat

theorem computedPublic_eq (x25519Private : Bytes) :
    computedPublic x25519Private = montgomeryPublic x25519Private := by
  have hrep := scalarMult_represents (clampScalar x25519Private) represents_B
  have hu : ((scalarMult (clampScalar x25519Private) B).z +
      (scalarMult (clampScalar x25519Private) B).y) *
      inv ((scalarMult (clampScalar x25519Private) B).z -
        (scalarMult (clampScalar x25519Private) B).y) % p =
      (montgomeryU (clampScalar x25519Private • basePoint)).val := by
    apply eq_val (emod_nonneg _) (emod_lt _)
    rw [cast_emod, Int.cast_mul, cast_inv, Int.cast_add, Int.cast_sub, hrep.y, montgomeryU,
      ← one_add_mul, ← one_sub_mul, ← div_eq_mul_inv, mul_div_mul_right _ _ hrep.z_ne]
  rw [computedPublic, montgomeryPublic, hu, Int.toNat_natCast]

example : computedPublic (List.replicate 32 0x2a) =
    [0x07, 0xaa, 0xff, 0x3e, 0x9f, 0xc1, 0x67, 0x27, 0x55, 0x44, 0xf4, 0xc3, 0xa6, 0xa1, 0x7c, 0xd8,
      0x37, 0xf2, 0xec, 0x6e, 0x78, 0xcd, 0x8a, 0x57, 0xb1, 0xe3, 0xdf, 0xb3, 0xcc, 0x03, 0x5a, 0x76] := by
  decide +kernel

theorem montUToEdY_montgomeryU (h : A ≠ 0) : montUToEdY (montgomeryU A).val = A.y.val := by
  have hy : 1 - A.y ≠ 0 := sub_ne_zero.mpr (y_ne_one h).symm
  have htwo := field_two_ne_zero
  have hu : montgomeryU A * (1 - A.y) = 1 + A.y := div_mul_cancel₀ _ hy
  have hsum : montgomeryU A + 1 ≠ 0 := by
    intro hzero
    apply htwo
    linear_combination (1 - A.y) * hzero - hu
  apply eq_val (emod_nonneg _) (emod_lt _)
  rw [cast_emod, Int.cast_mul, cast_inv, Int.cast_sub, Int.cast_add, Int.cast_one, cast_val,
    ← div_eq_mul_inv, div_eq_iff hsum]
  linear_combination hu

end Montgomery

section Clamp

theorem and_248 {m : Nat} (h : m < 256) : (m &&& 248) % 8 = 0 := by
  revert h m
  decide +kernel

theorem and_127_or_64 {m : Nat} (h : m < 256) :
    64 ≤ (m &&& 127) ||| 64 ∧ (m &&& 127) ||| 64 < 128 := by
  revert h m
  decide +kernel

theorem clampScalar_cons {a b : UInt8} {mid : Bytes} (h : mid.length = 30) :
    clampScalar (a :: mid ++ [b]) =
      (a &&& 248).toNat + 256 * (Binary.fromBytesLittle mid +
        256 ^ 30 * ((b &&& 127) ||| 64).toNat) := by
  have hlast : ∀ (c e : UInt8) (f : UInt8 → UInt8),
      (c :: mid ++ [e]).modify 31 f = c :: mid ++ [f e] := by
    intro c e f
    have hmodify := modify_concat (c :: mid) e f
    rwa [List.length_cons, h] at hmodify
  have hfirst : (a :: mid ++ [b]).modify 0 (· &&& 248) = (a &&& 248) :: mid ++ [b] := rfl
  simp only [clampScalar, hfirst, hlast]
  rw [List.cons_append, Binary.fromBytesLittle, Binary.fromBytesLittle_append, h,
    Binary.fromBytesLittle, Binary.fromBytesLittle, Nat.mul_zero, Nat.add_zero]

theorem split_ends {k : Bytes} (h : k.length = 32) :
    ∃ a mid b, mid.length = 30 ∧ k = a :: mid ++ [b] := by
  rcases k with _ | ⟨a, rest⟩
  · cases h
  · have hrest : rest ≠ [] := by
      rintro rfl
      cases h
    refine ⟨a, rest.dropLast, rest.getLast hrest, ?_, ?_⟩
    · rw [List.length_dropLast]
      rw [List.length_cons] at h
      omega
    · rw [List.cons_append, List.dropLast_concat_getLast]

/-- A clamped scalar is eight times a number below `q`. -/
theorem clampScalar_spec {k : Bytes} (h : k.length = 32) :
    ∃ m, clampScalar k = 8 * m ∧ 0 < m ∧ m < groupOrder := by
  obtain ⟨a, mid, b, hmid, rfl⟩ := split_ends h
  have hbound : 32 * (256 ^ 30 * 128) ≤ groupOrder := by decide
  have hmiddle := Binary.fromBytesLittle_lt mid
  have hfirst := and_248 a.toNat_lt
  have hsmall := (a &&& 248).toNat_lt
  have hlast := and_127_or_64 b.toNat_lt
  rw [clampScalar_cons hmid, UInt8.toNat_or, UInt8.toNat_and, UInt8.toNat_and]
  rw [UInt8.toNat_and] at hsmall
  rw [hmid] at hmiddle
  change (a.toNat &&& 248) % 8 = 0 at hfirst
  change (a.toNat &&& 248) < 256 at hsmall
  change ∃ m, (a.toNat &&& 248) + 256 * (_ + 256 ^ 30 * ((b.toNat &&& 127) ||| 64)) = _ ∧ _
  generalize a.toNat &&& 248 = low at *
  generalize (b.toNat &&& 127) ||| 64 = high at *
  generalize Binary.fromBytesLittle mid = middle at *
  have hhigh : 256 ^ 30 * high ≤ 256 ^ 30 * 127 := Nat.mul_le_mul_left _ (by omega)
  have hpos : 256 ^ 30 * 64 ≤ 256 ^ 30 * high := Nat.mul_le_mul_left _ hlast.1
  refine ⟨low / 8 + 32 * (middle + 256 ^ 30 * high), ?_, ?_, ?_⟩ <;> omega

theorem clamped_ne_zero {k : Bytes} (h : k.length = 32) :
    clampScalar k • basePoint ≠ 0 := by
  intro hzero
  obtain ⟨m, hm, hpos, hlt⟩ := clampScalar_spec h
  have hdvd := addOrderOf_dvd_of_nsmul_eq_zero hzero
  rw [addOrderOf_basePoint, hm] at hdvd
  rcases groupOrder_prime.out.dvd_mul.mp hdvd with height | hmultiple
  · exact absurd height (by decide)
  · exact absurd (Nat.le_of_dvd hpos hmultiple) (not_le.mpr hlt)

end Clamp

section KeyPair

/-- Of a point and its negative the one whose `x` is even. -/
def evenPoint (E : Edwards.Point curve) : Edwards.Point curve :=
  if E.x.val % 2 = 0 then E else -E

theorem calcEdKeypair_spec (k : Nat) :
    (calcEdKeypair k).1 = Binary.toBytesLittle 32 (k • basePoint).y.val ∧
      (calcEdKeypair k).2 • basePoint = evenPoint (k • basePoint) := by
  have hcompress := (scalarMultBase_represents k).compress
  rw [natCast_zsmul, encode] at hcompress
  generalize hE : k • basePoint = E at *
  obtain ⟨hdiv, hmod, hlt⟩ :=
    topBit_split (val_lt_topBit E.y) (Nat.mod_lt E.x.val Nat.two_pos)
  have hsign := signBit_eq hlt
  have hclear := clear_topBit hlt
  rw [hdiv] at hsign
  rw [hmod] at hclear
  simp only [calcEdKeypair, hcompress, hclear, true_and]
  by_cases heven : E.x.val % 2 = 0
  · rw [heven] at hsign ⊢
    have hbit := UInt8.toNat_inj.mp (hsign.trans UInt8.toNat_zero.symm)
    rw [hbit, if_neg (by decide), emod_q_smul, natCast_zsmul, hE, evenPoint, if_pos heven]
  · have hodd : E.x.val % 2 = 1 := by omega
    rw [hodd] at hsign ⊢
    have hbit := UInt8.toNat_inj.mp (hsign.trans UInt8.toNat_one.symm)
    rw [hbit, if_pos rfl, emod_q_smul, neg_zsmul, natCast_zsmul, hE, evenPoint, if_neg heven]

end KeyPair

section Scalar

/-- A scalar leaves the three highest bits of its last byte free. -/
theorem scalar_lt {n : Nat} (h : n < groupOrder) : n < 256 ^ 31 * 32 := by
  have hbound : groupOrder ≤ 256 ^ 31 * 32 := by decide
  omega

theorem scalar_lt_topBit {n : Nat} (h : n < groupOrder) : n < topBit := by
  have hbound : groupOrder ≤ topBit := by decide
  omega

theorem scalar_lt_width {n : Nat} (h : n < groupOrder) : n < 256 ^ 32 := by
  have hbound : groupOrder ≤ 256 ^ 32 := by decide
  omega

theorem scalar_signBit {n : Nat} (h : n < groupOrder) :
    ((Binary.toBytesLittle 32 n).getD 31 0 >>> 7) &&& 1 = 0 := by
  apply UInt8.toNat_inj.mp
  rw [signBit_eq (scalar_lt_width h), Nat.div_eq_of_lt (scalar_lt_topBit h)]
  rfl

theorem scalar_clear {n : Nat} (h : n < groupOrder) :
    (Binary.toBytesLittle 32 n).modify 31 (· &&& 0x7f) = Binary.toBytesLittle 32 n := by
  rw [clear_topBit (scalar_lt_width h), Nat.mod_eq_of_lt (scalar_lt_topBit h)]

theorem byte_and_high {m : Nat} (h : m < 32) : Binary.byte m &&& 0xe0 = 0 := by
  revert h m
  decide +kernel

theorem scalar_topBits {n : Nat} (h : n < groupOrder) :
    (Binary.toBytesLittle 32 n).getD 31 0 &&& 0xe0 = 0 := by
  have hlast : n / 256 ^ 31 < 32 := Nat.div_lt_of_lt_mul (scalar_lt h)
  rw [getD_last, byte_and_high hlast]

end Scalar

section Verify

variable {sha512 : Bytes → Bytes} {message : Bytes} {E R : Edwards.Point curve}

theorem encode_length (A : Edwards.Point curve) : (encode A).length = 32 :=
  Binary.toBytesLittle_length _ _

/-- The verifier reads the `u` of the public key back. -/
theorem public_value (u : Field25519) :
    Binary.fromBytesLittle (Binary.toBytesLittle 32 u.val) &&& ((1 <<< 255) - 1) = u.val := by
  have hlt := val_lt_topBit u
  have hwidth : topBit ≤ 256 ^ 32 := by decide
  rw [Binary.fromBytesLittle_toBytesLittle (lt_of_lt_of_le hlt hwidth), Nat.shiftLeft_eq,
    Nat.one_mul, Nat.and_two_pow_sub_one_eq_mod, ← topBit_eq, Nat.mod_eq_of_lt hlt]

theorem unsigned_modify (data : Bytes) : data.modify 31 (· ||| ((0 : UInt8) <<< 7)) = data := by
  have hid : (fun b : UInt8 => b ||| ((0 : UInt8) <<< 7)) = id := by
    funext b
    exact UInt8.or_zero
  rw [hid, List.modify_id]

theorem pointDecompress_even (E : Edwards.Point curve) :
    ∃ P, pointDecompress (Binary.toBytesLittle 32 E.y.val) = some P ∧
      Represents P (evenPoint E) := by
  have hdecode := pointDecompress_val E (show 0 < 2 by decide)
  rwa [Nat.mul_zero, Nat.add_zero] at hdecode

theorem pointDecompress_encode (A : Edwards.Point curve) : ∃ P, pointDecompress (encode A) = some P := by
  obtain ⟨P, hP, -⟩ := pointDecompress_val A (Nat.mod_lt A.x.val Nat.two_pos)
  exact ⟨P, hP⟩

/-- The check is the equation `sB = R + hA`. -/
theorem xeddsaVerify_of_equation (hE : E ≠ 0) {s : Nat} (hs : s < groupOrder)
    (heq : s • basePoint =
      R + hashScalar sha512 (encode R ++ Binary.toBytesLittle 32 E.y.val ++ message) • evenPoint E) :
    xeddsaVerify sha512 (Binary.toBytesLittle 32 (montgomeryU E).val) message
      (encode R ++ Binary.toBytesLittle 32 s) = true := by
  obtain ⟨P, hP, hrep⟩ := pointDecompress_even E
  obtain ⟨Q, hQ⟩ := pointDecompress_encode R
  have hlength : ¬ ((Binary.toBytesLittle 32 (montgomeryU E).val).length ≠ 32 ∨
      (encode R ++ Binary.toBytesLittle 32 s).length ≠ 64) := by
    simp [Binary.toBytesLittle_length, encode_length]
  have hrange : ¬ (((montgomeryU E).val : Nat) : Int) ≥ p := not_le.mpr (val_lt _)
  have htake : (encode R ++ Binary.toBytesLittle 32 s).take 32 = encode R :=
    List.take_left' (encode_length R)
  have hdrop : (encode R ++ Binary.toBytesLittle 32 s).drop 32 = Binary.toBytesLittle 32 s :=
    List.drop_left' (encode_length R)
  rw [xeddsaVerify, if_neg hlength]
  simp only [public_value, if_neg hrange, htake, hdrop, scalar_signBit hs, scalar_clear hs,
    scalar_topBits hs, montUToEdY_montgomeryU hE, Int.toNat_natCast, unsigned_modify, hP, hQ,
    ne_eq, not_true_eq_false, if_false, Binary.fromBytesLittle_toBytesLittle (scalar_lt_width hs)]
  generalize hh : hashScalar sha512 (encode R ++ Binary.toBytesLittle 32 E.y.val ++ message) = h
    at heq ⊢
  have hnonneg : 0 ≤ h := hh ▸ Int.emod_nonneg _ (by decide)
  have hscalar := scalarMultBase_represents ((s : Int) % q)
  rw [emod_q_smul, natCast_zsmul, heq] at hscalar
  have hhash := (scalarMult_represents h.toNat hrep).neg
  rw [← natCast_zsmul, Int.toNat_of_nonneg hnonneg] at hhash
  have hcheck := (hscalar.add hhash).compress
  rw [add_neg_cancel_right] at hcheck
  rw [hcheck]
  exact decide_eq_true rfl

end Verify

section Complete

variable {sha512 : Bytes → Bytes}

/-- What is signed with a private key verifies under its X25519 public key. -/
theorem xeddsa_complete {x25519Public : Bytes → Bytes}
    (hpublic : ∀ priv : Bytes, priv.length = 32 → x25519Public priv = montgomeryPublic priv)
    {x25519Private : Bytes} (hprivate : x25519Private.length = 32) (fresh message : Bytes)
    {randomZ : Option Bytes} (hz : (randomZ.getD fresh).length = 64) :
    ∃ signature, xeddsaSign sha512 fresh x25519Private message randomZ = .ok signature ∧
      xeddsaVerify sha512 (x25519Public x25519Private) message signature = true := by
  obtain ⟨hkey, ha⟩ := calcEdKeypair_spec (clampScalar x25519Private)
  have hE := clamped_ne_zero hprivate
  rw [hpublic x25519Private hprivate, montgomeryPublic, xeddsaSign, if_neg (not_not.mpr hprivate)]
  simp only [ne_eq, hz, not_true_eq_false, if_false, hkey]
  generalize clampScalar x25519Private • basePoint = E at hkey ha hE ⊢
  generalize (calcEdKeypair (clampScalar x25519Private)).2 = a at ha ⊢
  generalize hashScalar sha512 (hash1Prefix ++ Binary.toBytesLittle 32 a.toNat ++ message ++
    randomZ.getD fresh) = r
  rw [(scalarMultBase_represents r).compress]
  refine ⟨_, rfl, xeddsaVerify_of_equation hE (emod_q_toNat_lt _) ?_⟩
  rw [emod_q_toNat_smul, emod_q_smul, add_zsmul, mul_zsmul, ha]

def demoPrivate : Bytes :=
  [0x77, 0x07, 0x6d, 0x0a, 0x73, 0x18, 0xa5, 0x7d, 0x3c, 0x16, 0xc1, 0x72, 0x51, 0xb2, 0x66, 0x45,
    0xdf, 0x4c, 0x2f, 0x87, 0xeb, 0xc0, 0x99, 0x2a, 0xb1, 0x77, 0xfb, 0xa5, 0x1d, 0xb9, 0x2c, 0x2a]

def demoDigest (data : Bytes) : Bytes :=
  Binary.toBytesLittle 64 (7 * Binary.fromBytesBig data + 1)

theorem xeddsa_complete_demo :
    ∃ signature, xeddsaSign demoDigest [] demoPrivate [104, 105] (some (List.replicate 64 9)) =
        .ok signature ∧
      xeddsaVerify demoDigest (computedPublic demoPrivate) [104, 105] signature = true :=
  xeddsa_complete (fun priv _ => computedPublic_eq priv) (by decide) [] [104, 105] (by decide)

end Complete

end PyWhats.XEdDSA
