import Mathlib.Data.List.Basic
import Mathlib.Data.List.Lex
import Mathlib.Data.Nat.Log
import Mathlib.Data.Rat.Floor
import PyWhats.Lib.OrderedMap

/-! The values of Python's `json` module: text of code points, integers without a bound, floats with
their infinities, and what writing a value and reading the text again makes of it. -/

inductive CodePoint where
  | char (c : Char)
  | surrogate (n : Fin 2048)
  deriving DecidableEq

abbrev Text := List CodePoint

section Texts

namespace CodePoint

def toNat : CodePoint → Nat
  | .char c => c.toNat
  | .surrogate n => 55296 + n

def high : CodePoint → Option Nat
  | .surrogate n => if n.val < 1024 then some n.val else none
  | .char _ => none

def low : CodePoint → Option Nat
  | .surrogate n => if n.val < 1024 then none else some (n.val - 1024)
  | .char _ => none

/-- The code units of the escapes that `json.dumps` writes. -/
def units : CodePoint → List CodePoint
  | .char c =>
    if c.toNat < 65536 then [.char c]
    else [.surrogate (Fin.ofNat 2048 ((c.toNat - 65536) / 1024)),
      .surrogate (Fin.ofNat 2048 (1024 + (c.toNat - 65536) % 1024))]
  | .surrogate n => [.surrogate n]

end CodePoint

namespace Text

def ofString (s : String) : Text := s.toList.map .char

/-- The text as characters, where it has no surrogates. -/
def chars? : Text → Option (List Char)
  | [] => some []
  | .char c :: rest => (chars? rest).map (c :: ·)
  | .surrogate _ :: _ => none

/-- A high surrogate and a low one right after it are read as one character. -/
def ofUnits : List CodePoint → Text
  | [] => []
  | [u] => [u]
  | u :: v :: rest =>
    match u.high, v.low with
    | some h, some l => .char (Char.ofNat (65536 + h * 1024 + l)) :: ofUnits rest
    | _, _ => u :: ofUnits (v :: rest)

def reread (s : Text) : Text := ofUnits (s.flatMap CodePoint.units)

/-- Some high surrogate stands right before a low one. -/
def joins : Text → Bool
  | [] => false
  | [_] => false
  | u :: v :: rest => (u.high.isSome && v.low.isSome) || joins (v :: rest)

theorem ofString_inj {s t : String} : ofString s = ofString t ↔ s = t := by
  constructor
  · intro h
    have hlist := List.map_injective_iff.mpr (fun a b h => CodePoint.char.inj h) h
    exact String.toList_inj.mp hlist
  · rintro rfl
    rfl

theorem high_ofNat {n : Nat} (h : n < 1024) :
    (CodePoint.surrogate (Fin.ofNat 2048 n)).high = some n := by
  have hmod : (Fin.ofNat 2048 n).val = n := Nat.mod_eq_of_lt (by omega)
  rw [CodePoint.high, hmod, if_pos h]

theorem low_ofNat {n : Nat} (h : n < 1024) :
    (CodePoint.surrogate (Fin.ofNat 2048 (1024 + n))).low = some n := by
  have hmod : (Fin.ofNat 2048 (1024 + n)).val = 1024 + n := Nat.mod_eq_of_lt (by omega)
  rw [CodePoint.low, hmod, if_neg (by omega), Nat.add_sub_cancel_left]

theorem low_of_high {u : CodePoint} {n : Nat} (h : u.high = some n) : u.low = none := by
  cases u with
  | char c => rfl
  | surrogate m =>
    rw [CodePoint.high] at h
    by_cases hm : m.val < 1024
    · exact if_pos hm
    · rw [if_neg hm] at h
      cases h

theorem plane_lt {c : Char} : (c.toNat - 65536) / 1024 < 1024 := by
  have hvalid : c.toNat < 55296 ∨ 57343 < c.toNat ∧ c.toNat < 1114112 := c.valid
  omega

variable {u v : CodePoint} {s rest : Text}

/-- A high surrogate and a low one have to meet. -/
theorem ofUnits_cons (h : u.high = none ∨ ∀ v ∈ rest.head?, v.low = none) :
    ofUnits (u :: rest) = u :: ofUnits rest := by
  cases rest with
  | nil => rfl
  | cons v rest =>
    rw [ofUnits]
    rcases h with h | h
    · rw [h]
    · rw [h v rfl]
      cases u.high <;> rfl

theorem ofUnits_pair {h l : Nat} (rest : Text) (hu : u.high = some h) (hv : v.low = some l) :
    ofUnits (u :: v :: rest) = .char (Char.ofNat (65536 + h * 1024 + l)) :: ofUnits rest := by
  rw [ofUnits, hu, hv]

theorem ofUnits_char (c : Char) (rest : List CodePoint) :
    ofUnits ((CodePoint.char c).units ++ rest) = .char c :: ofUnits rest := by
  rw [CodePoint.units]
  by_cases hbasic : c.toNat < 65536
  · rw [if_pos hbasic]
    exact ofUnits_cons (Or.inl rfl)
  · have hhigh := high_ofNat (plane_lt (c := c))
    have hlow := low_ofNat (Nat.mod_lt (c.toNat - 65536) (show 0 < 1024 by decide))
    have hback : 65536 + (c.toNat - 65536) / 1024 * 1024 + (c.toNat - 65536) % 1024 = c.toNat := by
      omega
    have hpair := ofUnits_pair rest hhigh hlow
    rw [hback, Char.ofNat_toNat] at hpair
    rw [if_neg hbasic]
    exact hpair

/-- The first unit of a character is no low surrogate. -/
theorem head?_units (h : ∀ v ∈ s.head?, v.low = none) :
    ∀ v ∈ (s.flatMap CodePoint.units).head?, v.low = none := by
  cases s with
  | nil => exact h
  | cons c s =>
    intro v hv
    cases c with
    | surrogate n =>
      have hn : v = .surrogate n := by simpa [CodePoint.units] using hv.symm
      rw [hn]
      exact h _ rfl
    | char c =>
      by_cases hbasic : c.toNat < 65536
      · have hn : v = .char c := by simpa [CodePoint.units, hbasic] using hv.symm
        rw [hn]
        rfl
      · have hn : v = .surrogate (Fin.ofNat 2048 ((c.toNat - 65536) / 1024)) := by
          simpa [CodePoint.units, hbasic] using hv.symm
        rw [hn]
        exact low_of_high (high_ofNat plane_lt)

theorem reread_cons (h : u.high = none ∨ ∀ v ∈ s.head?, v.low = none) :
    reread (u :: s) = u :: reread s := by
  cases u with
  | char c => exact ofUnits_char c _
  | surrogate n => exact ofUnits_cons (h.imp id head?_units)

theorem reread_pair {h l : Nat} (hu : u.high = some h) (hv : v.low = some l) :
    reread (u :: v :: s) = .char (Char.ofNat (65536 + h * 1024 + l)) :: reread s := by
  cases u with
  | char c => cases hu
  | surrogate n =>
    cases v with
    | char c => cases hv
    | surrogate m => exact ofUnits_pair _ hu hv

/-- Text comes back as it was unless two surrogates in it make a character. -/
theorem reread_eq_iff (s : Text) : reread s = s ↔ joins s = false := by
  induction s using joins.induct with
  | case1 => exact iff_of_true rfl rfl
  | case2 u => exact iff_of_true (reread_cons (Or.inr fun v hv => by cases hv)) rfl
  | case3 u v s ih =>
    rw [joins, Bool.or_eq_false_iff, ← ih]
    by_cases hpair : u.high.isSome ∧ v.low.isSome
    · obtain ⟨h, hu⟩ := Option.isSome_iff_exists.mp hpair.1
      obtain ⟨l, hv⟩ := Option.isSome_iff_exists.mp hpair.2
      rw [reread_pair hu hv, hu, hv]
      refine iff_of_false ?_ fun h => by cases h.1
      intro heq
      rw [← (List.cons.inj heq).1] at hu
      cases hu
    · have hfree : u.high = none ∨ ∀ w ∈ (v :: s).head?, w.low = none := by
        by_cases hu : u.high = none
        · exact Or.inl hu
        · refine Or.inr fun w hw => ?_
          rw [← Option.some.inj hw]
          exact Option.not_isSome_iff_eq_none.mp fun h =>
            hpair ⟨Option.isSome_iff_ne_none.mpr hu, h⟩
      have hboth : (u.high.isSome && v.low.isSome) = false := by
        rw [← Bool.not_eq_true, Bool.and_eq_true]
        exact hpair
      rw [reread_cons hfree, List.cons_inj_right, hboth]
      exact ⟨fun h => ⟨rfl, h⟩, fun h => h.2⟩

theorem reread_chars (cs : List Char) : reread (cs.map .char) = cs.map .char := by
  induction cs with
  | nil => rfl
  | cons c cs ih => rw [List.map_cons, reread_cons (Or.inl rfl), ih]

theorem chars?_chars (cs : List Char) : chars? (cs.map .char) = some cs := by
  induction cs with
  | nil => rfl
  | cons c cs ih => rw [List.map_cons, chars?, ih, Option.map_some]

end Text

end Texts

inductive PyFloat where
  | finite (x : Rat)
  | infinite (negative : Bool)
  | nan
  deriving DecidableEq

namespace PyFloat

/-- The nearest number with 53 binary digits, of two the even one. -/
def roundDouble (n : Nat) : Nat :=
  let unit := 2 ^ (n.log2 - 52)
  let quotient := n / unit
  let rest := n % unit
  if 2 * rest > unit ∨ (2 * rest = unit ∧ quotient % 2 = 1) then (quotient + 1) * unit
  else quotient * unit

/-- `float` of an integer; `none` is its `OverflowError`. -/
def ofInt? (n : Int) : Option PyFloat :=
  let magnitude := roundDouble n.natAbs
  if magnitude < 2 ^ 1024 then some (.finite (if n < 0 then -(magnitude : Rat) else magnitude))
  else none

section Overflow

variable {n e : Nat}

/-- The weight of the last of the 53 digits. -/
theorem unit_bounds (he : n.log2 = e) (h52 : 52 ≤ e) :
    2 ^ 52 ≤ n / 2 ^ (e - 52) ∧ n / 2 ^ (e - 52) < 2 ^ 53 := by
  have hne : n ≠ 0 := by
    rintro rfl
    rw [Nat.log2_zero] at he
    omega
  have hlow : 2 ^ e ≤ n := (Nat.le_log2 hne).mp he.ge
  have hhigh : n < 2 ^ (e + 1) := (Nat.log2_lt hne).mp (by omega)
  have hsplit : 2 ^ e = 2 ^ 52 * 2 ^ (e - 52) := by rw [← pow_add, Nat.add_sub_cancel' h52]
  constructor
  · rw [Nat.le_div_iff_mul_le (by positivity), ← hsplit]
    exact hlow
  · rw [Nat.div_lt_iff_lt_mul (by positivity), ← pow_add]
    rwa [show 53 + (e - 52) = e + 1 by omega]

theorem roundDouble_ge (n : Nat) : n / 2 ^ (n.log2 - 52) * 2 ^ (n.log2 - 52) ≤ roundDouble n := by
  simp only [roundDouble]
  split
  · exact Nat.mul_le_mul_right _ (Nat.le_succ _)
  · exact le_rfl

theorem roundDouble_le (n : Nat) :
    roundDouble n ≤ (n / 2 ^ (n.log2 - 52) + 1) * 2 ^ (n.log2 - 52) := by
  simp only [roundDouble]
  split
  · exact le_rfl
  · exact Nat.mul_le_mul_right _ (Nat.le_succ _)

/-- Just below a power of two the odd quotient rounds up from the middle on. -/
theorem roundDouble_top {a : Nat} (hunit : 2 ^ (n.log2 - 52) = 2 * a) (ha : 0 < a)
    (hq : n / 2 ^ (n.log2 - 52) < 2 ^ 53) :
    roundDouble n < 2 ^ 54 * a ↔ n < 2 ^ 54 * a - a := by
  have hsplit := Nat.div_add_mod n (2 * a)
  have hrest := Nat.mod_lt n (show 2 * a > 0 by omega)
  rw [hunit] at hq
  simp only [roundDouble, hunit]
  generalize n / (2 * a) = quotient at *
  generalize n % (2 * a) = rest at *
  by_cases hlast : quotient = 2 ^ 53 - 1
  · subst hlast
    by_cases hup : 2 * rest > 2 * a ∨ (2 * rest = 2 * a ∧ (2 ^ 53 - 1) % 2 = 1)
    · rw [if_pos hup]
      omega
    · rw [if_neg hup]
      omega
  · have hnext : quotient + 1 ≤ 2 ^ 53 - 1 := by omega
    have hfit := Nat.mul_le_mul_right (2 * a) hnext
    have hdown : quotient * (2 * a) ≤ (quotient + 1) * (2 * a) :=
      Nat.mul_le_mul_right _ (Nat.le_succ _)
    have hsum : (quotient + 1) * (2 * a) = 2 * a * quotient + 2 * a := by ring
    refine iff_of_true ?_ (by omega)
    split <;> omega

theorem roundDouble_le_of_log2_lt (h : n.log2 < e) : n < 2 ^ e ∧ roundDouble n ≤ 2 ^ e := by
  have hn : n < 2 ^ (n.log2 + 1) := Nat.lt_log2_self
  have hmono : 2 ^ (n.log2 + 1) ≤ 2 ^ e := Nat.pow_le_pow_right Nat.two_pos h
  refine ⟨lt_of_lt_of_le hn hmono, (roundDouble_le n).trans ?_⟩
  by_cases h52 : 52 ≤ n.log2
  · have hq := (unit_bounds rfl h52).2
    have hsplit : 2 ^ 53 * 2 ^ (n.log2 - 52) = 2 ^ (n.log2 + 1) := by
      rw [← pow_add]
      congr 1
      omega
    calc (n / 2 ^ (n.log2 - 52) + 1) * 2 ^ (n.log2 - 52)
        ≤ 2 ^ 53 * 2 ^ (n.log2 - 52) := Nat.mul_le_mul_right _ hq
      _ = 2 ^ (n.log2 + 1) := hsplit
      _ ≤ 2 ^ e := hmono
  · have hzero : n.log2 - 52 = 0 := by omega
    rw [hzero, pow_zero, Nat.div_one, Nat.mul_one]
    exact hn.trans_le hmono

theorem le_roundDouble_of_le_log2 (h52 : 52 ≤ e) (h : e ≤ n.log2) :
    2 ^ e ≤ n ∧ 2 ^ e ≤ roundDouble n := by
  have hne : n ≠ 0 := by
    rintro rfl
    rw [Nat.log2_zero] at h
    omega
  have hmono : 2 ^ e ≤ 2 ^ n.log2 := Nat.pow_le_pow_right Nat.two_pos h
  have hn : 2 ^ n.log2 ≤ n := Nat.log2_self_le hne
  refine ⟨hmono.trans hn, hmono.trans (le_trans ?_ (roundDouble_ge n))⟩
  have hq := (unit_bounds (n := n) rfl (by omega)).1
  calc 2 ^ n.log2 = 2 ^ 52 * 2 ^ (n.log2 - 52) := by rw [← pow_add, Nat.add_sub_cancel' (by omega)]
    _ ≤ n / 2 ^ (n.log2 - 52) * 2 ^ (n.log2 - 52) := Nat.mul_le_mul_right _ hq

theorem roundDouble_lt_iff (n : Nat) : roundDouble n < 2 ^ 1024 ↔ n < 2 ^ 1024 - 2 ^ 970 := by
  have hpos : 0 < 2 ^ 970 := by positivity
  have hmax : 2 ^ 1024 = 2 ^ 54 * 2 ^ 970 := by rw [← pow_add]
  have hhalf : 2 ^ 1023 = 2 ^ 53 * 2 ^ 970 := by rw [← pow_add]
  rcases Nat.lt_trichotomy n.log2 1023 with hlow | htop | hhigh
  · obtain ⟨hn, hround⟩ := roundDouble_le_of_log2_lt hlow
    rw [hhalf] at hn hround
    rw [hmax]
    generalize 2 ^ 970 = a at *
    omega
  · have hunit : 2 ^ (n.log2 - 52) = 2 * 2 ^ 970 := by rw [htop, ← pow_succ']
    have hq := (unit_bounds htop (by decide)).2
    rw [← htop] at hq
    rw [hmax]
    exact roundDouble_top hunit hpos hq
  · have hnext : 1024 ≤ n.log2 := hhigh
    obtain ⟨hn, hround⟩ := le_roundDouble_of_le_log2 (by decide) hnext
    rw [hmax] at hn hround ⊢
    generalize 2 ^ 970 = a at *
    omega

/-- Half a unit above the largest float. -/
def overflowBound : Nat := 2 ^ 1024 - 2 ^ 970

theorem ofInt?_eq_none_iff {n : Int} : ofInt? n = none ↔ overflowBound ≤ n.natAbs := by
  rw [overflowBound, ← not_lt, ← roundDouble_lt_iff, ofInt?]
  by_cases h : roundDouble n.natAbs < 2 ^ 1024
  · simp only [if_pos h]
    exact iff_of_false (fun h => by cases h) (not_not.mpr h)
  · simp only [if_neg h]
    exact iff_of_true trivial h

end Overflow

def truncate (x : Rat) : Int := if 0 ≤ x then x.floor else x.ceil

end PyFloat

inductive PyJson where
  | null
  | bool (b : Bool)
  | int (n : Int)
  | float (x : PyFloat)
  | str (s : Text)
  | arr (items : List PyJson)
  | obj (fields : List (Text × PyJson))

namespace PyJson

/-- Whether the value equals the integer; `True` is one and `False` zero. -/
def eqInt (n : Int) : PyJson → Bool
  | .int m => m = n
  | .bool b => (if b then 1 else 0) = n
  | .float (.finite x) => x = n
  | _ => false

/-- `dict.get`; of several values of a key the last one counts. -/
def get? (fields : List (Text × PyJson)) (key : String) : Option PyJson :=
  (fields.reverse.find? fun f => f.1 = Text.ofString key).map Prod.snd

/-- `sys.get_int_max_str_digits()`. -/
def maxStrDigits : Nat := 4300

def sortKeys (fields : List (Text × PyJson)) : List (Text × PyJson) :=
  fields.mergeSort fun a b => decide (a.1.map CodePoint.toNat ≤ b.1.map CodePoint.toNat)

mutual

/-- `json.loads(json.dumps(value, sort_keys=True))`; `none` where an integer is too long for
`json.dumps`. A float comes back as it was. -/
def reread : PyJson → Option PyJson
  | .null => some .null
  | .bool b => some (.bool b)
  | .int n => if n.natAbs < 10 ^ maxStrDigits then some (.int n) else none
  | .float x => some (.float x)
  | .str s => some (.str (Text.reread s))
  | .arr items => (rereadItems items).map .arr
  | .obj fields => (rereadFields fields).map fun fields =>
    .obj ((sortKeys fields).map fun f => (Text.reread f.1, f.2))

def rereadItems : List PyJson → Option (List PyJson)
  | [] => some []
  | value :: items => do
    let value ← reread value
    let items ← rereadItems items
    return value :: items

def rereadFields : List (Text × PyJson) → Option (List (Text × PyJson))
  | [] => some []
  | (key, value) :: fields => do
    let value ← reread value
    let fields ← rereadFields fields
    return (key, value) :: fields

end

section Lookup

theorem get?_eq_some_iff {fields : List (Text × PyJson)} {key : String} {value : PyJson}
    (h : (fields.map Prod.fst).Nodup) :
    get? fields key = some value ↔ (Text.ofString key, value) ∈ fields := by
  have hnodup : (fields.reverse.map Prod.fst).Nodup := by
    rw [List.map_reverse, List.nodup_reverse]
    exact h
  have hmap := OrderedMap.get?_eq_some_iff (m := ⟨fields.reverse, hnodup⟩)
    (k := Text.ofString key) (v := value)
  exact hmap.trans List.mem_reverse

theorem rereadFields_forall {fields fields' : List (Text × PyJson)}
    (h : List.Forall₂ (fun f g => f.1 = g.1 ∧ reread f.2 = some g.2) fields fields') :
    rereadFields fields = some fields' := by
  induction h with
  | nil => rfl
  | @cons f g _ _ hhead _ ih =>
    obtain ⟨k, v⟩ := f
    obtain ⟨k', v'⟩ := g
    obtain ⟨rfl, hv⟩ := hhead
    rw [rereadFields, hv, ih]
    rfl

theorem rereadFields_mem {fields fields' : List (Text × PyJson)}
    (h : rereadFields fields = some fields') : ∀ f ∈ fields, ∃ v, reread f.2 = some v := by
  induction fields generalizing fields' with
  | nil => exact fun f hf => absurd hf List.not_mem_nil
  | cons f fields ih =>
    obtain ⟨k, v⟩ := f
    simp only [rereadFields, Option.bind_eq_bind, Option.bind_eq_some_iff] at h
    obtain ⟨v', hv, rest, hrest, _⟩ := h
    intro g hg
    rcases List.mem_cons.mp hg with rfl | hg
    · exact ⟨v', hv⟩
    · exact ih hrest g hg

/-- Keys without surrogates are found again, in whatever order they were written. -/
theorem reread_obj (fields fields' : List (Text × PyJson))
    (h : List.Forall₂ (fun f g => f.1 = g.1 ∧ reread f.2 = some g.2) fields fields')
    (hplain : ∀ f ∈ fields', Text.reread f.1 = f.1) (hnodup : (fields'.map Prod.fst).Nodup) :
    ∃ raw, reread (.obj fields) = some (.obj raw) ∧
      ∀ key value, get? raw key = some value ↔ (Text.ofString key, value) ∈ fields' := by
  have hperm : (sortKeys fields').Perm fields' := List.mergeSort_perm fields' _
  have hsame : ((sortKeys fields').map fun f => (Text.reread f.1, f.2)) = sortKeys fields' := by
    conv_rhs => rw [← List.map_id (sortKeys fields')]
    apply List.map_congr_left
    intro f hf
    exact Prod.ext (hplain f (hperm.mem_iff.mp hf)) rfl
  refine ⟨sortKeys fields', ?_, fun key value => ?_⟩
  · rw [reread, rereadFields_forall h, Option.map_some, hsame]
  · rw [get?_eq_some_iff ((hperm.map Prod.fst).nodup_iff.mpr hnodup), hperm.mem_iff]

end Lookup

end PyJson
