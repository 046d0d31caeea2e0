import Mathlib.Data.List.Basic

/-! The Python string operations that the addressing code uses, on Unicode text
(tables of CPython 3.11): `str.isdigit`, `int`, `partition`, `split`, `rsplit`. -/

namespace PyWhats.PyText

/-- Code points of the zeros of the decimal digit runs (category `Nd`). -/
def decimalZeros : List Nat :=
  [0x30, 0x660, 0x6f0, 0x7c0, 0x966, 0x9e6, 0xa66, 0xae6, 0xb66, 0xbe6, 0xc66, 0xce6, 0xd66,
   0xde6, 0xe50, 0xed0, 0xf20, 0x1040, 0x1090, 0x17e0, 0x1810, 0x1946, 0x19d0, 0x1a80, 0x1a90,
   0x1b50, 0x1bb0, 0x1c40, 0x1c50, 0xa620, 0xa8d0, 0xa900, 0xa9d0, 0xa9f0, 0xaa50, 0xabf0, 0xff10,
   0x104a0, 0x10d30, 0x11066, 0x110f0, 0x11136, 0x111d0, 0x112f0, 0x11450, 0x114d0, 0x11650,
   0x116c0, 0x11730, 0x118e0, 0x11950, 0x11c50, 0x11d50, 0x11da0, 0x16a60, 0x16ac0, 0x16b50,
   0x1d7ce, 0x1d7d8, 0x1d7e2, 0x1d7ec, 0x1d7f6, 0x1e140, 0x1e2f0, 0x1e950, 0x1fbf0]

/-- Ranges of characters that are digits without being decimal digits. -/
def otherDigits : List (Nat × Nat) :=
  [(0xb2, 0xb3), (0xb9, 0xb9), (0x1369, 0x1371), (0x19da, 0x19da), (0x2070, 0x2070),
   (0x2074, 0x2079), (0x2080, 0x2089), (0x2460, 0x2468), (0x2474, 0x247c), (0x2488, 0x2490),
   (0x24ea, 0x24ea), (0x24f5, 0x24fd), (0x24ff, 0x24ff), (0x2776, 0x277e), (0x2780, 0x2788),
   (0x278a, 0x2792), (0x10a40, 0x10a43), (0x10e60, 0x10e68), (0x11052, 0x1105a),
   (0x1f100, 0x1f10a)]

def whitespace : List Nat :=
  [0x9, 0xa, 0xb, 0xc, 0xd, 0x1c, 0x1d, 0x1e, 0x1f, 0x20, 0x85, 0xa0, 0x1680, 0x2000, 0x2001,
   0x2002, 0x2003, 0x2004, 0x2005, 0x2006, 0x2007, 0x2008, 0x2009, 0x200a, 0x2028, 0x2029, 0x202f,
   0x205f, 0x3000]

def isSpace (c : Char) : Bool := whitespace.contains c.toNat

def decimal? (c : Char) : Option Nat :=
  (decimalZeros.find? (fun z => z ≤ c.toNat && c.toNat < z + 10)).map (fun z => c.toNat - z)

def charIsDigit (c : Char) : Bool :=
  (decimal? c).isSome || otherDigits.any (fun r => r.1 ≤ c.toNat && c.toNat ≤ r.2)

def isDigit (s : List Char) : Bool := !s.isEmpty && s.all charIsDigit

def digits? : List Char → Option (List Nat)
  | [] => none
  | c :: rest => (decimal? c).bind fun d =>
    match rest with
    | [] => some [d]
    | '_' :: rest' => (digits? rest').map (d :: ·)
    | c' :: rest' => (digits? (c' :: rest')).map (d :: ·)

def intMaxStrDigits : Nat := 4300

def natOfDigits (ds : List Nat) : Option Nat :=
  if ds.length > intMaxStrDigits then none else some (ds.foldl (fun n d => 10 * n + d) 0)

def strip (s : List Char) : List Char :=
  ((s.dropWhile isSpace).reverse.dropWhile isSpace).reverse

/-- `int` of a string; `none` is its `ValueError`. -/
def int? (s : List Char) : Option Int :=
  match strip s with
  | '-' :: rest => ((digits? rest).bind natOfDigits).map (fun n => -(n : Int))
  | '+' :: rest => ((digits? rest).bind natOfDigits).map (fun n => (n : Int))
  | rest => ((digits? rest).bind natOfDigits).map (fun n => (n : Int))

/-- `s.partition(sep)` without the separator: the whole string and nothing when
the separator is absent. -/
def partition (sep : Char) (s : List Char) : List Char × List Char :=
  (s.takeWhile (· ≠ sep), (s.dropWhile (· ≠ sep)).tail)

def rsplit (sep : Char) (s : List Char) : List Char × List Char :=
  let (last, front) := partition sep s.reverse
  (front.reverse, last.reverse)

end PyWhats.PyText
