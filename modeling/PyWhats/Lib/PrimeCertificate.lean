import Mathlib.NumberTheory.LucasPrimality

/-! Modular powers by repeated squaring, and primes by Lucas' test on the factors of their
predecessor. -/

namespace PrimeCertificate

def powModAux (m : Nat) : (fuel e b : Nat) → Nat
  | 0, _, _ => 1 % m
  | fuel + 1, e, b =>
    if e = 0 then 1 % m
    else
      let r := powModAux m fuel (e / 2) (b * b % m)
      if e % 2 = 1 then r * b % m else r

/-- `b ^ e` modulo `m`. -/
def powMod (b e m : Nat) : Nat := powModAux m (e.log2 + 1) e (b % m)

theorem powModAux_eq (m : Nat) {fuel e : Nat} (b : Nat) (h : e < 2 ^ fuel) :
    powModAux m fuel e b = b ^ e % m := by
  induction fuel generalizing e b with
  | zero =>
    have he : e = 0 := by simpa using h
    rw [powModAux, he, pow_zero]
  | succ fuel ih =>
    rw [powModAux]
    by_cases he : e = 0
    · rw [if_pos he, he, pow_zero]
    · have hhalf : e / 2 < 2 ^ fuel := by
        rw [pow_succ] at h
        omega
      have hsquare : (b * b % m) ^ (e / 2) % m = b ^ (2 * (e / 2)) % m := by
        rw [← Nat.pow_mod, pow_mul, pow_two]
      rw [if_neg he]
      simp only [ih (b * b % m) hhalf, hsquare]
      by_cases hodd : e % 2 = 1
      · have hsum : 2 * (e / 2) + 1 = e := by omega
        rw [if_pos hodd, Nat.mod_mul_mod, ← pow_succ, hsum]
      · have hsum : 2 * (e / 2) = e := by omega
        rw [if_neg hodd, hsum]

theorem powMod_eq (b e m : Nat) : powMod b e m = b ^ e % m := by
  rw [powMod, powModAux_eq m (b % m) Nat.lt_log2_self, ← Nat.pow_mod]

theorem powMod_cast (b e m : Nat) : (powMod b e m : ZMod m) = (b : ZMod m) ^ e := by
  rw [powMod_eq, ZMod.natCast_mod, Nat.cast_pow]

/-- `a` generates the units of `p`: its powers that a prime factor is missing from are not 1. -/
def Generates (p a : Nat) (factors : List Nat) : Bool :=
  factors.prod = p - 1 && powMod a (p - 1) p = 1 &&
    factors.all fun f => powMod a ((p - 1) / f) p ≠ 1

theorem prime_of_generates {p : Nat} (a : Nat) {factors : List Nat} (htwo : 1 < p)
    (hprimes : ∀ f ∈ factors, f.Prime) (h : Generates p a factors = true) : p.Prime := by
  simp only [Generates, Bool.and_eq_true, decide_eq_true_eq, List.all_eq_true] at h
  obtain ⟨⟨hprod, hone⟩, hrest⟩ := h
  have hcast : ∀ e, (a : ZMod p) ^ e = 1 ↔ powMod a e p = 1 := by
    intro e
    rw [← powMod_cast, powMod_eq]
    have hlt : a ^ e % p < p := Nat.mod_lt _ (by omega)
    constructor
    · intro heq
      have hmod : a ^ e % p % p = 1 % p := by
        rw [← ZMod.natCast_eq_natCast_iff', heq, Nat.cast_one]
      rwa [Nat.mod_mod, Nat.mod_eq_of_lt htwo] at hmod
    · intro heq
      rw [heq, Nat.cast_one]
  apply lucas_primality p (a : ZMod p) ((hcast _).mpr hone)
  intro f hf hdvd heq
  rw [← hprod, hf.prime.dvd_prod_iff] at hdvd
  obtain ⟨g, hg, hfg⟩ := hdvd
  have hsame : f = g := (Nat.prime_dvd_prime_iff_eq hf (hprimes g hg)).mp hfg
  exact hrest g hg ((hcast _).mp (hsame ▸ heq))

/-- A number with a generator of its units and the factors of its predecessor. -/
structure Entry where
  p : Nat
  a : Nat
  factors : List Nat

/-- Every factor is one of the numbers that were checked before. -/
def check : (checked : List Nat) → List Entry → Bool
  | _, [] => true
  | checked, e :: entries =>
    (1 < e.p && e.factors.all (checked.contains ·) && Generates e.p e.a e.factors) &&
      check (e.p :: checked) entries

theorem prime_of_check {entries : List Entry} {checked : List Nat} (h : check checked entries = true)
    (hchecked : ∀ f ∈ checked, f.Prime) : ∀ e ∈ entries, e.p.Prime := by
  induction entries generalizing checked with
  | nil => exact fun e he => absurd he List.not_mem_nil
  | cons e entries ih =>
    simp only [check, Bool.and_eq_true, decide_eq_true_eq, List.all_eq_true,
      List.contains_iff_mem] at h
    obtain ⟨⟨⟨htwo, hfactors⟩, hgenerates⟩, hrest⟩ := h
    have hprime : e.p.Prime :=
      prime_of_generates e.a htwo (fun f hf => hchecked f (hfactors f hf)) hgenerates
    exact List.forall_mem_cons.mpr ⟨hprime, ih hrest (List.forall_mem_cons.mpr ⟨hprime, hchecked⟩)⟩

end PrimeCertificate
