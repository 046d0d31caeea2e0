import Mathlib.Data.List.Basic

/-! Base64 with padding, over the standard alphabet: three bytes are four digits. The
decoder is the strict one of Python: no other character, no padding in front, nothing after a
group that is filled up with padding; but whole groups may have padding after them, in any
number. -/

namespace Base64

def alphabet : List Char :=
  "ABCDEFGHIJKLMNOPQRSTUVWXYZabcdefghijklmnopqrstuvwxyz0123456789+/".toList

def digit (n : Nat) : Char := alphabet.getD n '='

def value? (c : Char) : Option Nat := alphabet.findIdx? (· = c)

def encode : List UInt8 → List Char
  | [] => []
  | [x] => [digit (x.toNat / 4), digit (x.toNat % 4 * 16), '=', '=']
  | [x, y] =>
    [digit (x.toNat / 4), digit (x.toNat % 4 * 16 + y.toNat / 16), digit (y.toNat % 16 * 4), '=']
  | x :: y :: z :: rest =>
    digit (x.toNat / 4) :: digit (x.toNat % 4 * 16 + y.toNat / 16) ::
      digit (y.toNat % 16 * 4 + z.toNat / 64) :: digit (z.toNat % 64) :: encode rest

def padding (s : List Char) : Bool := s.all (· = '=')

def decodeGroups : List Char → Option (List UInt8)
  | a :: b :: c :: d :: rest => do
    if padding (a :: b :: c :: d :: rest) then return []
    let x ← value? a
    let y ← value? b
    if rest = [] ∧ c = '=' ∧ d = '=' then return [UInt8.ofNat (x * 4 + y / 16)]
    let z ← value? c
    if rest = [] ∧ d = '=' then
      return [UInt8.ofNat (x * 4 + y / 16), UInt8.ofNat (y % 16 * 16 + z / 4)]
    let u ← value? d
    let tail ← decodeGroups rest
    return UInt8.ofNat (x * 4 + y / 16) :: UInt8.ofNat (y % 16 * 16 + z / 4) ::
      UInt8.ofNat (z % 4 * 64 + u) :: tail
  | short => if padding short then some [] else none

def decode (s : List Char) : Option (List UInt8) :=
  if s.head? = some '=' then none else decodeGroups s

theorem value?_digit {n : Nat} (h : n < 64) : value? (digit n) = some n := by
  have hall : ∀ n < 64, value? (digit n) = some n := by decide +kernel
  exact hall n h

theorem value?_pad : value? '=' = none := by decide

theorem digit_ne_pad {n : Nat} (h : n < 64) : digit n ≠ '=' := by
  intro hpad
  have hvalue := value?_digit h
  rw [hpad, value?_pad] at hvalue
  cases hvalue

theorem ofNat_eq {x : UInt8} {n : Nat} (h : n = x.toNat) : UInt8.ofNat n = x := by
  rw [h, UInt8.ofNat_toNat]

section Groups

variable {a b c d : Char} {x y z u : Nat} {rest : List Char}

theorem padding_digit (ha : value? a = some x) : padding (a :: rest) = false := by
  have hpad : a ≠ '=' := by
    rintro rfl
    simp [value?_pad] at ha
  simp [padding, hpad]

theorem decode_one (ha : value? a = some x) (hb : value? b = some y) :
    decodeGroups [a, b, '=', '='] = some [UInt8.ofNat (x * 4 + y / 16)] := by
  simp only [decodeGroups, padding_digit ha, ha, hb]
  rfl

theorem decode_two (ha : value? a = some x) (hb : value? b = some y) (hc : value? c = some z)
    (hpad : c ≠ '=') : decodeGroups [a, b, c, '='] =
      some [UInt8.ofNat (x * 4 + y / 16), UInt8.ofNat (y % 16 * 16 + z / 4)] := by
  simp only [decodeGroups, padding_digit ha, ha, hb, hc, hpad, false_and, and_false, if_false]
  rfl

theorem decode_three (ha : value? a = some x) (hb : value? b = some y)
    (hc : value? c = some z) (hd : value? d = some u) (hpad : d ≠ '=') :
    decodeGroups (a :: b :: c :: d :: rest) = (decodeGroups rest).map fun tail =>
      UInt8.ofNat (x * 4 + y / 16) :: UInt8.ofNat (y % 16 * 16 + z / 4) ::
        UInt8.ofNat (z % 4 * 64 + u) :: tail := by
  simp only [decodeGroups, padding_digit ha, ha, hb, hc, hd, hpad, and_false, if_false]
  cases decodeGroups rest <;> rfl

end Groups

theorem decodeGroups_encoded (data : List UInt8) : decodeGroups (encode data) = some data := by
  induction data using encode.induct with
  | case1 => rfl
  | case2 x =>
    have hx := x.toNat_lt
    rw [encode, decode_one (value?_digit (by omega)) (value?_digit (by omega)),
      ofNat_eq (x := x) (by omega)]
  | case3 x y =>
    have hx := x.toNat_lt
    have hy := y.toNat_lt
    rw [encode, decode_two (value?_digit (by omega)) (value?_digit (by omega))
      (value?_digit (by omega)) (digit_ne_pad (by omega)), ofNat_eq (x := x) (by omega),
      ofNat_eq (x := y) (by omega)]
  | case4 x y z rest ih =>
    have hx := x.toNat_lt
    have hy := y.toNat_lt
    have hz := z.toNat_lt
    rw [encode, decode_three (value?_digit (by omega)) (value?_digit (by omega))
      (value?_digit (by omega)) (value?_digit (by omega)) (digit_ne_pad (by omega)), ih,
      ofNat_eq (x := x) (by omega), ofNat_eq (x := y) (by omega), ofNat_eq (x := z) (by omega)]
    rfl

theorem head_encode (x : UInt8) (rest : List UInt8) :
    (encode (x :: rest)).head? = some (digit (x.toNat / 4)) := by
  cases rest with
  | nil => rfl
  | cons y rest => cases rest <;> rfl

theorem decode_encoded (data : List UInt8) : decode (encode data) = some data := by
  have hlead : (encode data).head? ≠ some '=' := by
    cases data with
    | nil => simp [encode]
    | cons x rest =>
      have hx := x.toNat_lt
      rw [head_encode, Ne, Option.some.injEq]
      exact digit_ne_pad (by omega)
  rw [decode, if_neg hlead, decodeGroups_encoded]

example : decode "AAAA=====".toList = some [0, 0, 0] := by decide

example : decode "AAA==".toList = none := by decide

end Base64
