import PyWhats.Ed25519

/-! XEdDSA signatures (`signal/experimental/keys.py`) over SHA-512. -/

namespace PyWhats.XEdDSA

open Ed25519

/-- `_XEDDSA_HASH1_PREFIX`. -/
def hash1Prefix : Bytes := 0xfe :: List.replicate 31 0xff

/-- The compressed Edwards key with its sign bit cleared, and the scalar that belongs to it. -/
def calcEdKeypair (kScalar : Nat) : Bytes × Int :=
  let E := scalarMultBase kScalar
  let enc := pointCompress E
  let signBit := (enc.getD 31 0 >>> 7) &&& 1
  let a := if signBit = 1 then (-(kScalar : Int)) % q else (kScalar : Int) % q
  (enc.modify 31 (· &&& 0x7f), a)

section Sign

variable (sha512 : Bytes → Bytes)

/-- A digest as a scalar. -/
def hashScalar (data : Bytes) : Int := (Binary.fromBytesLittle (sha512 data) : Int) % q

/-- `fresh` is what `secrets.token_bytes(64)` returns. -/
def xeddsaSign (fresh x25519Private message : Bytes) (randomZ : Option Bytes) :
    Except PyError Bytes :=
  if x25519Private.length ≠ 32 then .error (.signalCryptoError "invalid private key length")
  else
    let z := randomZ.getD fresh
    if z.length ≠ 64 then .error (.signalCryptoError "invalid xeddsa nonce length")
    else
      let kScalar := clampScalar x25519Private
      let (A, a) := calcEdKeypair kScalar
      let aBytes := Binary.toBytesLittle 32 a.toNat
      let r := hashScalar sha512 (hash1Prefix ++ aBytes ++ message ++ z)
      let R := pointCompress (scalarMultBase r)
      let h := hashScalar sha512 (R ++ A ++ message)
      let s := (r + h * a) % q
      .ok (R ++ Binary.toBytesLittle 32 s.toNat)

def xeddsaVerify (x25519Public message signature : Bytes) : Bool :=
  if x25519Public.length ≠ 32 ∨ signature.length ≠ 64 then false
  else
    let u : Nat := Binary.fromBytesLittle x25519Public &&& ((1 <<< 255) - 1)
    if (u : Int) ≥ p then false
    else
      let rBytes := signature.take 32
      let sBytes := signature.drop 32
      let aSignBit := (sBytes.getD 31 0 >>> 7) &&& 1
      let sBytes := sBytes.modify 31 (· &&& 0x7f)
      if sBytes.getD 31 0 &&& 0xe0 ≠ 0 then false
      else
        let s := (Binary.fromBytesLittle sBytes : Int) % q
        let y := montUToEdY u
        let aBytes := (Binary.toBytesLittle 32 y.toNat).modify 31 (· ||| (aSignBit <<< 7))
        match pointDecompress aBytes, pointDecompress rBytes with
        | some A, some _ =>
          let h := hashScalar sha512 (rBytes ++ aBytes ++ message)
          let sB := scalarMultBase s
          let hA := scalarMult h.toNat A
          let rCheck := pointAdd sB (pointNegate hA)
          rBytes = pointCompress rCheck
        | _, _ => false

end Sign

end PyWhats.XEdDSA
