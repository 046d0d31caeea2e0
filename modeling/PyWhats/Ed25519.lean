import PyWhats.Lib.PrimeCertificate
import PyWhats.PyBytes

/-! The point arithmetic of `signal/experimental/_ed25519.py`, on Python's integers. -/

namespace PyWhats.Ed25519

open PrimeCertificate

/-- `2**255 - 19`. -/
def p : Int := 0x7fffffffffffffffffffffffffffffffffffffffffffffffffffffffffffffed

/-- `2**252 + 27742317777372353535851937790883648493`, the order of the base point. -/
def q : Int := 0x1000000000000000000000000000000014def9dea2f79cd65812631a5cf5d3ed

/-- `pow(b, e, p)`. -/
def pow (b e : Int) : Int := powMod (b % p).toNat e.toNat p.toNat

def inv (x : Int) : Int := pow x (p - 2)

def d : Int := (-121665 * pow 121666 (p - 2)) % p

def baseY : Int := 4 * pow 5 (p - 2) % p

def recoverX (y sign : Int) : Except PyError Int :=
  if y ≥ p then .error (.valueError "y out of range")
  else
    let xx := (y * y - 1) * inv (d * y * y + 1) % p
    let x := pow xx ((p + 3) / 8)
    let x := if (x * x - xx) % p ≠ 0 then x * pow 2 ((p - 1) / 4) % p else x
    if (x * x - xx) % p ≠ 0 then .error (.valueError "not on curve")
    else if x % 2 ≠ sign then .ok (p - x)
    else .ok x

def baseX : Int := (recoverX baseY 0).toOption.getD 0

/-- Extended coordinates: `x = X/Z`, `y = Y/Z` and `T = XY/Z`. -/
structure Point where
  x : Int
  y : Int
  z : Int
  t : Int
  deriving DecidableEq

def B : Point := ⟨baseX % p, baseY % p, 1, (baseX * baseY) % p⟩

def pointAdd (P Q : Point) : Point :=
  let A := ((P.y - P.x) * (Q.y - Q.x)) % p
  let Bv := ((P.y + P.x) * (Q.y + Q.x)) % p
  let C := (P.t * 2 * d * Q.t) % p
  let D := (P.z * 2 * Q.z) % p
  let E := (Bv - A) % p
  let F := (D - C) % p
  let G := (D + C) % p
  let H := (Bv + A) % p
  ⟨(E * F) % p, (G * H) % p, (F * G) % p, (E * H) % p⟩

/-- The loop of `_scalar_mult`, which runs once for each bit of `s`. -/
def scalarLoop : (fuel s : Nat) → (P Q : Point) → Point
  | 0, _, _, Q => Q
  | fuel + 1, s, P, Q =>
    if s > 0 then
      scalarLoop fuel (s / 2) (pointAdd P P) (if s % 2 = 1 then pointAdd Q P else Q)
    else Q

def scalarMult (s : Nat) (P : Point) : Point := scalarLoop (s.log2 + 1) s P ⟨0, 1, 1, 0⟩

def pointCompress (P : Point) : Bytes :=
  let zi := inv P.z
  let x := (P.x * zi) % p
  let y := (P.y * zi) % p
  Binary.toBytesLittle 32 (y.toNat ||| ((x.toNat &&& 1) <<< 255))

def pointDecompress (data : Bytes) : Option Point :=
  if data.length ≠ 32 then none
  else
    let n := Binary.fromBytesLittle data
    let sign : Nat := (n >>> 255) &&& 1
    let y : Nat := n &&& ((1 <<< 255) - 1)
    match recoverX y sign with
    | .error _ => none
    | .ok x => some ⟨x, y, 1, (x * y) % p⟩

def scalarMultBase (s : Int) : Point := scalarMult (s % q).toNat B

def pointNegate (P : Point) : Point := ⟨(-P.x) % p, P.y, P.z, (-P.t) % p⟩

/-- `y = (u - 1) / (u + 1)`. -/
def montUToEdY (u : Int) : Int := ((u - 1) * inv (u + 1)) % p

def clampScalar (k : Bytes) : Nat :=
  let a := k.modify 0 (· &&& 248)
  let a := a.modify 31 (· &&& 127)
  let a := a.modify 31 (· ||| 64)
  Binary.fromBytesLittle a

end PyWhats.Ed25519
