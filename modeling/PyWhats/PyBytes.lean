import Mathlib.Algebra.Group.Nat.Even
import Mathlib.Data.List.Induction
import Mathlib.Tactic.Ring
import PyWhats.Primitives

/-! `int.to_bytes` and `int.from_bytes`. -/

namespace PyWhats.Binary

def byte (n : Nat) : UInt8 := UInt8.ofNat n

/-- `n.to_bytes(width, "big")` of a number that fits. -/
def toBytesBig : Nat → Nat → Bytes
  | 0, _ => []
  | width + 1, n => toBytesBig width (n / 256) ++ [byte n]

def fromBytesBig (data : Bytes) : Nat := data.foldl (fun n b => 256 * n + b.toNat) 0

theorem byte_toNat {n : Nat} (h : n < 256) : (byte n).toNat = n := by
  rw [byte, UInt8.toNat_ofNat']
  exact Nat.mod_eq_of_lt h

theorem byte_toNat_mod (n : Nat) : (byte n).toNat = n % 256 := UInt8.toNat_ofNat'

theorem toBytesBig_length (width n : Nat) : (toBytesBig width n).length = width := by
  induction width generalizing n with
  | zero => rfl
  | succ width ih => rw [toBytesBig, List.length_append, ih, List.length_singleton]

theorem fromBytesBig_append (data : Bytes) (b : UInt8) :
    fromBytesBig (data ++ [b]) = 256 * fromBytesBig data + b.toNat := by
  simp only [fromBytesBig, List.foldl_append, List.foldl_cons, List.foldl_nil]

theorem fromBytesBig_toBytesBig {width n : Nat} (h : n < 256 ^ width) :
    fromBytesBig (toBytesBig width n) = n := by
  induction width generalizing n with
  | zero =>
    have hn : n = 0 := by simpa using h
    rw [hn]
    rfl
  | succ width ih =>
    have hdiv : n / 256 < 256 ^ width := by
      rw [Nat.pow_succ] at h
      omega
    rw [toBytesBig, fromBytesBig_append, ih hdiv, byte_toNat_mod]
    omega

theorem toBytesBig_fromBytesBig (data : Bytes) :
    toBytesBig data.length (fromBytesBig data) = data := by
  induction data using List.reverseRecOn with
  | nil => rfl
  | append_singleton data b ih =>
    have hb := b.toNat_lt
    have hdiv : (256 * fromBytesBig data + b.toNat) / 256 = fromBytesBig data := by omega
    have hbyte : byte (256 * fromBytesBig data + b.toNat) = b := by
      apply UInt8.toNat_inj.mp
      rw [byte_toNat_mod]
      omega
    rw [List.length_append, List.length_singleton, toBytesBig, fromBytesBig_append, hdiv, ih, hbyte]

theorem fromBytesBig_lt (data : Bytes) : fromBytesBig data < 256 ^ data.length := by
  induction data using List.reverseRecOn with
  | nil => exact Nat.one_pos
  | append_singleton data b ih =>
    have hb := b.toNat_lt
    rw [fromBytesBig_append, List.length_append, List.length_singleton, Nat.pow_succ]
    omega

theorem toBytesBig_inj {width n m : Nat} (hn : n < 256 ^ width) (hm : m < 256 ^ width)
    (h : toBytesBig width n = toBytesBig width m) : n = m := by
  have hback := congrArg fromBytesBig h
  rwa [fromBytesBig_toBytesBig hn, fromBytesBig_toBytesBig hm] at hback

section Little

/-- `n.to_bytes(width, "little")` of a number that fits. -/
def toBytesLittle : Nat → Nat → Bytes
  | 0, _ => []
  | width + 1, n => byte n :: toBytesLittle width (n / 256)

/-- `int.from_bytes(data, "little")`. -/
def fromBytesLittle : Bytes → Nat
  | [] => 0
  | b :: data => b.toNat + 256 * fromBytesLittle data

theorem toBytesLittle_length (width n : Nat) : (toBytesLittle width n).length = width := by
  induction width generalizing n with
  | zero => rfl
  | succ width ih => rw [toBytesLittle, List.length_cons, ih]

theorem fromBytesLittle_toBytesLittle {width n : Nat} (h : n < 256 ^ width) :
    fromBytesLittle (toBytesLittle width n) = n := by
  induction width generalizing n with
  | zero =>
    have hn : n = 0 := by simpa using h
    rw [hn]
    rfl
  | succ width ih =>
    have hdiv : n / 256 < 256 ^ width := by
      rw [Nat.pow_succ] at h
      omega
    rw [toBytesLittle, fromBytesLittle, ih hdiv, byte_toNat_mod]
    omega

theorem fromBytesLittle_append (data rest : Bytes) :
    fromBytesLittle (data ++ rest) =
      fromBytesLittle data + 256 ^ data.length * fromBytesLittle rest := by
  induction data with
  | nil => simp [fromBytesLittle]
  | cons b data ih =>
    rw [List.cons_append, fromBytesLittle, ih, fromBytesLittle, List.length_cons, Nat.pow_succ]
    ring

theorem fromBytesLittle_lt (data : Bytes) : fromBytesLittle data < 256 ^ data.length := by
  induction data with
  | nil => exact Nat.one_pos
  | cons b data ih =>
    have hb := b.toNat_lt
    rw [fromBytesLittle, List.length_cons, Nat.pow_succ]
    omega

/-- The last byte holds what the others cannot. -/
theorem toBytesLittle_succ (width n : Nat) :
    toBytesLittle (width + 1) n = toBytesLittle width n ++ [byte (n / 256 ^ width)] := by
  induction width generalizing n with
  | zero => simp [toBytesLittle]
  | succ width ih =>
    rw [toBytesLittle, ih, toBytesLittle, List.cons_append, Nat.div_div_eq_div_mul,
      Nat.pow_succ, Nat.mul_comm 256]

theorem toBytesLittle_add_mul (width n m : Nat) :
    toBytesLittle width (n + 256 ^ width * m) = toBytesLittle width n := by
  induction width generalizing n with
  | zero => rfl
  | succ width ih =>
    have hbyte : byte (n + 256 ^ (width + 1) * m) = byte n := by
      apply UInt8.toNat_inj.mp
      rw [byte_toNat_mod, byte_toNat_mod, Nat.pow_succ, Nat.mul_comm (256 ^ width), Nat.mul_assoc,
        Nat.add_mul_mod_self_left]
    have hdiv : (n + 256 ^ (width + 1) * m) / 256 = n / 256 + 256 ^ width * m := by
      rw [Nat.pow_succ, Nat.mul_comm (256 ^ width), Nat.mul_assoc,
        Nat.add_mul_div_left _ _ (by decide)]
    rw [toBytesLittle, toBytesLittle, hbyte, hdiv, ih]

end Little

end PyWhats.Binary
