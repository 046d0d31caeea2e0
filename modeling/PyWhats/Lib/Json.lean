import Mathlib.Data.List.Basic

/-! JSON texts with the writer and the reader of Python's `json` module: the writer
escapes all but printable ASCII and puts a space after commas and colons. Numbers are
integers, and a lone surrogate is refused. -/

inductive Json where
  | null
  | bool (b : Bool)
  | int (n : Int)
  | str (s : String)
  | arr (items : List Json)
  | obj (fields : List (String × Json))

namespace Json

section Strings

def hexDigits : List Char := "0123456789abcdef".toList

def hexDigit (n : Nat) : Char := hexDigits.getD n '0'

def hexValue? (c : Char) : Option Nat :=
  (hexDigits.findIdx? (· = c)).or (("0123456789ABCDEF".toList).findIdx? (· = c))

def hex4 (n : Nat) : List Char :=
  [hexDigit (n / 4096), hexDigit (n / 256 % 16), hexDigit (n / 16 % 16), hexDigit (n % 16)]

def unhex4 (a b c d : Char) : Option Nat := do
  let w ← hexValue? a
  let x ← hexValue? b
  let y ← hexValue? c
  let z ← hexValue? d
  return w * 4096 + x * 256 + y * 16 + z

/-- The characters with a two-letter escape, and its second letter. -/
def shortEscapes : List (Char × Char) :=
  [('"', '"'), ('\\', '\\'), ('\n', 'n'), ('\r', 'r'), ('\t', 't'), (Char.ofNat 12, 'f'),
    (Char.ofNat 8, 'b')]

def unicodeEscape (n : Nat) : List Char := '\\' :: 'u' :: hex4 n

def escapeChar (c : Char) : List Char :=
  match shortEscapes.find? (fun e => e.1 = c) with
  | some e => ['\\', e.2]
  | none =>
    if 32 ≤ c.toNat ∧ c.toNat ≤ 126 then [c]
    else if c.toNat < 65536 then unicodeEscape c.toNat
    else unicodeEscape (55296 + (c.toNat - 65536) / 1024) ++
      unicodeEscape (56320 + (c.toNat - 65536) % 1024)

def quote (s : String) : List Char := '"' :: s.toList.flatMap escapeChar ++ ['"']

/-- The low half of a surrogate pair, after its high half. -/
def lowSurrogate : List Char → Option (Nat × List Char)
  | '\\' :: 'u' :: a :: b :: c :: d :: rest =>
    (unhex4 a b c d).bind fun n => if 56320 ≤ n ∧ n < 57344 then some (n, rest) else none
  | _ => none

/-- The character that follows `\u` and its four digits. -/
def readUnicode : List Char → Option (Char × List Char)
  | a :: b :: c :: d :: rest => do
    let n ← unhex4 a b c d
    if 55296 ≤ n ∧ n < 56320 then
      let (low, rest) ← lowSurrogate rest
      return (Char.ofNat (65536 + (n - 55296) * 1024 + (low - 56320)), rest)
    else if 56320 ≤ n ∧ n < 57344 then none
    else return (Char.ofNat n, rest)
  | _ => none

def readEscape : List Char → Option (Char × List Char)
  | [] => none
  | e :: rest =>
    if e = 'u' then readUnicode rest
    else if e = '/' then some ('/', rest)
    else (shortEscapes.find? (fun p => p.2 = e)).map fun p => (p.1, rest)

/-- The rest of a string after its opening quote. -/
def readString : Nat → List Char → Option (List Char × List Char)
  | 0, _ => none
  | _, [] => none
  | fuel + 1, c :: rest =>
    if c = '"' then some ([], rest)
    else do
      let (c, rest) ← if c = '\\' then readEscape rest
        else if c.toNat < 32 then none else some (c, rest)
      let (cs, rest) ← readString fuel rest
      return (c :: cs, rest)

end Strings

section Numbers

def intText (n : Int) : List Char :=
  if n < 0 then '-' :: Nat.toDigits 10 n.natAbs else Nat.toDigits 10 n.natAbs

/-- What makes a number a float. -/
def floatMark (c : Char) : Bool := c = '.' || c = 'e' || c = 'E'

def readNat (cs : List Char) : Option (Nat × List Char) :=
  match cs.takeWhile Char.isDigit with
  | [] => none
  | d :: ds =>
    let rest := if d = '0' then cs.drop 1 else cs.drop (ds.length + 1)
    if rest.head?.any floatMark then none
    else some (if d = '0' then 0 else Nat.ofDigitChars 10 (d :: ds) 0, rest)

def readInt : List Char → Option (Int × List Char)
  | [] => none
  | c :: rest =>
    if c = '-' then (readNat rest).map fun r => (-(r.1 : Int), r.2)
    else (readNat (c :: rest)).map fun r => ((r.1 : Int), r.2)

end Numbers

mutual

def dumps : Json → List Char
  | .null => "null".toList
  | .bool b => if b then "true".toList else "false".toList
  | .int n => intText n
  | .str s => quote s
  | .arr [] => "[]".toList
  | .arr (j :: items) => '[' :: dumps j ++ dumpsItems items
  | .obj [] => "\x7b\x7d".toList
  | .obj ((k, j) :: fields) => '\x7b' :: quote k ++ ':' :: ' ' :: dumps j ++ dumpsFields fields

def dumpsItems : List Json → List Char
  | [] => [']']
  | j :: items => ',' :: ' ' :: dumps j ++ dumpsItems items

def dumpsFields : List (String × Json) → List Char
  | [] => ['\x7d']
  | (k, j) :: fields => ',' :: ' ' :: quote k ++ ':' :: ' ' :: dumps j ++ dumpsFields fields

end

def isSpace (c : Char) : Bool := c = ' ' || c = '\t' || c = '\n' || c = '\r'

def skipSpace (cs : List Char) : List Char := cs.dropWhile isSpace

def expect (c : Char) : List Char → Option (List Char)
  | [] => none
  | c' :: rest => if c' = c then some rest else none

def keyword (word : List Char) (j : Json) (cs : List Char) : Option (Json × List Char) :=
  if word.isPrefixOf cs then some (j, cs.drop word.length) else none

mutual

def value : Nat → List Char → Option (Json × List Char)
  | 0, _ => none
  | _, [] => none
  | fuel + 1, c :: rest =>
    if c = '"' then (readString fuel rest).map fun r => (.str (String.ofList r.1), r.2)
    else if c = '[' then (readItems fuel rest).map fun r => (.arr r.1, r.2)
    else if c = '\x7b' then (readFields fuel rest).map fun r => (.obj r.1, r.2)
    else if c = 'n' then keyword "null".toList .null (c :: rest)
    else if c = 't' then keyword "true".toList (.bool true) (c :: rest)
    else if c = 'f' then keyword "false".toList (.bool false) (c :: rest)
    else (readInt (c :: rest)).map fun r => (.int r.1, r.2)

def readItems : Nat → List Char → Option (List Json × List Char)
  | 0, _ => none
  | fuel + 1, cs =>
    if (skipSpace cs).head? = some ']' then some ([], (skipSpace cs).tail)
    else do
      let (j, rest) ← value fuel (skipSpace cs)
      let (items, rest) ← moreItems fuel rest
      return (j :: items, rest)

def moreItems : Nat → List Char → Option (List Json × List Char)
  | 0, _ => none
  | fuel + 1, cs =>
    if (skipSpace cs).head? = some ']' then some ([], (skipSpace cs).tail)
    else do
      let rest ← expect ',' (skipSpace cs)
      let (j, rest) ← value fuel (skipSpace rest)
      let (items, rest) ← moreItems fuel rest
      return (j :: items, rest)

def readField : Nat → List Char → Option ((String × Json) × List Char)
  | 0, _ => none
  | fuel + 1, cs => do
    let rest ← expect '"' cs
    let (key, rest) ← readString fuel rest
    let rest ← expect ':' (skipSpace rest)
    let (j, rest) ← value fuel (skipSpace rest)
    return ((String.ofList key, j), rest)

def readFields : Nat → List Char → Option (List (String × Json) × List Char)
  | 0, _ => none
  | fuel + 1, cs =>
    if (skipSpace cs).head? = some '\x7d' then some ([], (skipSpace cs).tail)
    else do
      let (field, rest) ← readField fuel (skipSpace cs)
      let (fields, rest) ← moreFields fuel rest
      return (field :: fields, rest)

def moreFields : Nat → List Char → Option (List (String × Json) × List Char)
  | 0, _ => none
  | fuel + 1, cs =>
    if (skipSpace cs).head? = some '\x7d' then some ([], (skipSpace cs).tail)
    else do
      let rest ← expect ',' (skipSpace cs)
      let (field, rest) ← readField fuel (skipSpace rest)
      let (fields, rest) ← moreFields fuel rest
      return (field :: fields, rest)

end

/-- Two calls of the reader stand for every character at most. -/
def loads (cs : List Char) : Option Json :=
  match value (2 * cs.length + 2) (skipSpace cs) with
  | some (j, rest) => if skipSpace rest = [] then some j else none
  | none => none

/-- The value of a key; of several the last one counts. -/
def get? (key : String) : Json → Option Json
  | .obj fields => (fields.reverse.find? fun f => f.1 = key).map Prod.snd
  | _ => none

section RoundTrip

theorem hexValue?_hexDigit {n : Nat} (h : n < 16) : hexValue? (hexDigit n) = some n := by
  have hall : ∀ n < 16, hexValue? (hexDigit n) = some n := by decide +kernel
  exact hall n h

theorem unhex4_hex4 {n : Nat} (h : n < 65536) :
    unhex4 (hexDigit (n / 4096)) (hexDigit (n / 256 % 16)) (hexDigit (n / 16 % 16))
      (hexDigit (n % 16)) = some n := by
  have hsum : n / 4096 * 4096 + n / 256 % 16 * 256 + n / 16 % 16 * 16 + n % 16 = n := by omega
  simp only [unhex4, hexValue?_hexDigit (show n / 4096 < 16 by omega),
    hexValue?_hexDigit (show n / 256 % 16 < 16 by omega),
    hexValue?_hexDigit (show n / 16 % 16 < 16 by omega),
    hexValue?_hexDigit (show n % 16 < 16 by omega)]
  exact congrArg some hsum

theorem toNat_range (c : Char) : c.toNat < 55296 ∨ 57343 < c.toNat ∧ c.toNat < 1114112 := c.valid

theorem readUnicode_basic {c : Char} (h : c.toNat < 65536) (rest : List Char) :
    readUnicode (hex4 c.toNat ++ rest) = some (c, rest) := by
  have hrange := toNat_range c
  have hhigh : ¬ (55296 ≤ c.toNat ∧ c.toNat < 56320) := by omega
  have hlow : ¬ (56320 ≤ c.toNat ∧ c.toNat < 57344) := by omega
  simp only [hex4, List.cons_append, List.nil_append, readUnicode, unhex4_hex4 h,
    Option.bind_eq_bind, Option.bind_some, if_neg hhigh, if_neg hlow, Char.ofNat_toNat]
  rfl

theorem lowSurrogate_escape {y : Nat} (h : y < 1024) (rest : List Char) :
    lowSurrogate (unicodeEscape (56320 + y) ++ rest) = some (56320 + y, rest) := by
  have hrange : 56320 ≤ 56320 + y ∧ 56320 + y < 57344 := by omega
  simp only [unicodeEscape, hex4, List.cons_append, List.nil_append, lowSurrogate,
    unhex4_hex4 (show 56320 + y < 65536 by omega), Option.bind_some, if_pos hrange]

theorem readUnicode_pair {x y : Nat} (hx : x < 1024) (hy : y < 1024) (rest : List Char) :
    readUnicode (hex4 (55296 + x) ++ (unicodeEscape (56320 + y) ++ rest)) =
      some (Char.ofNat (65536 + x * 1024 + y), rest) := by
  have hhigh : 55296 ≤ 55296 + x ∧ 55296 + x < 56320 := by omega
  have hlow := lowSurrogate_escape hy rest
  simp only [hex4, List.cons_append, List.nil_append, readUnicode,
    unhex4_hex4 (show 55296 + x < 65536 by omega), Option.bind_eq_bind, Option.bind_some,
    if_pos hhigh, hlow, Option.pure_def, Nat.add_sub_cancel_left]

theorem readUnicode_surrogates {c : Char} (h : ¬ c.toNat < 65536) (rest : List Char) :
    readUnicode (hex4 (55296 + (c.toNat - 65536) / 1024) ++
      (unicodeEscape (56320 + (c.toNat - 65536) % 1024) ++ rest)) = some (c, rest) := by
  have hrange := toNat_range c
  have hback : 65536 + (c.toNat - 65536) / 1024 * 1024 + (c.toNat - 65536) % 1024 = c.toNat := by
    omega
  rw [readUnicode_pair (by omega) (by omega), hback, Char.ofNat_toNat]

theorem readEscape_short {e : Char × Char} (h : e ∈ shortEscapes) (rest : List Char) :
    readEscape (e.2 :: rest) = some (e.1, rest) := by
  simp only [shortEscapes, List.mem_cons, List.not_mem_nil, or_false] at h
  rcases h with rfl | rfl | rfl | rfl | rfl | rfl | rfl <;> simp [readEscape, shortEscapes]

theorem readEscape_unicode (rest : List Char) : readEscape ('u' :: rest) = readUnicode rest := rfl

theorem readString_escape {fuel : Nat} {c : Char} {cs rest : List Char}
    (h : readEscape cs = some (c, rest)) :
    readString (fuel + 1) ('\\' :: cs) = (readString fuel rest).map fun r => (c :: r.1, r.2) := by
  simp only [readString, if_neg (show ¬ '\\' = '"' by decide), if_true, h, Option.bind_eq_bind,
    Option.bind_some]
  cases readString fuel rest <;> rfl

/-- The escape of a character is read as this character. -/
theorem readString_escapeChar (fuel : Nat) (c : Char) (rest : List Char) :
    readString (fuel + 1) (escapeChar c ++ rest) =
      (readString fuel rest).map fun r => (c :: r.1, r.2) := by
  unfold escapeChar
  cases hfind : shortEscapes.find? (fun e => e.1 = c) with
  | some e =>
    have he : e.1 = c := by simpa using List.find?_some hfind
    subst he
    exact readString_escape (readEscape_short (List.mem_of_find?_eq_some hfind) rest)
  | none =>
    simp only
    by_cases hprint : 32 ≤ c.toNat ∧ c.toNat ≤ 126
    · have hnot := List.find?_eq_none.mp hfind
      have hquote : ¬ c = '"' := fun h => hnot ('"', '"') (by simp [shortEscapes]) (by simp [h])
      have hslash : ¬ c = '\\' := fun h => hnot ('\\', '\\') (by simp [shortEscapes]) (by simp [h])
      simp only [if_pos hprint, List.cons_append, List.nil_append, readString, if_neg hquote,
        if_neg hslash, if_neg (show ¬ c.toNat < 32 by omega), Option.bind_eq_bind, Option.bind_some]
      cases readString fuel rest <;> rfl
    · by_cases hbasic : c.toNat < 65536
      · simp only [if_neg hprint, if_pos hbasic, unicodeEscape, List.cons_append]
        apply readString_escape
        rw [readEscape_unicode]
        exact readUnicode_basic hbasic rest
      · simp only [if_neg hprint, if_neg hbasic, unicodeEscape, List.cons_append,
          List.append_assoc]
        apply readString_escape
        rw [readEscape_unicode]
        exact readUnicode_surrogates hbasic rest

theorem readString_quote {fuel : Nat} {s : List Char} (h : s.length < fuel) (rest : List Char) :
    readString fuel (s.flatMap escapeChar ++ '"' :: rest) = some (s, rest) := by
  induction s generalizing fuel with
  | nil =>
    obtain ⟨fuel, rfl⟩ : ∃ k, fuel = k + 1 := ⟨fuel - 1, by simp at h; omega⟩
    simp [readString]
  | cons c s ih =>
    rw [List.length_cons] at h
    obtain ⟨fuel, rfl⟩ : ∃ k, fuel = k + 1 := ⟨fuel - 1, by omega⟩
    rw [List.flatMap_cons, List.append_assoc, readString_escapeChar, ih (by omega)]
    rfl

theorem escapeChar_length (c : Char) : 1 ≤ (escapeChar c).length := by
  unfold escapeChar
  split
  · simp
  · split
    · simp
    · split <;> simp [unicodeEscape]

theorem quote_length (s : String) : s.toList.length + 2 ≤ (quote s).length := by
  have hbody : ∀ cs : List Char, cs.length ≤ (cs.flatMap escapeChar).length := by
    intro cs
    induction cs with
    | nil => simp
    | cons c cs ih =>
      have hc := escapeChar_length c
      rw [List.flatMap_cons, List.length_append, List.length_cons]
      omega
  have h := hbody s.toList
  rw [quote, List.cons_append, List.length_cons, List.length_append, List.length_singleton]
  omega

/-- What follows a number does not go on with it. -/
def Ends (rest : List Char) : Prop :=
  ∀ c, rest.head? = some c → c.isDigit = false ∧ floatMark c = false

theorem toDigits_head_zero {n : Nat} (h : (Nat.toDigits 10 n).head? = some '0') : n = 0 := by
  induction n using Nat.strongRecOn with
  | _ n ih =>
    by_cases hn : n < 10
    · rw [Nat.toDigits_of_lt_base hn, List.head?_singleton, Option.some.injEq] at h
      have hall : ∀ d < 10, Nat.digitChar d = '0' → d = 0 := by decide
      exact hall n hn h
    · rw [Nat.toDigits_of_base_le (by omega) (by omega), List.head?_append] at h
      have hne := Nat.toDigits_ne_nil (n := n / 10) (b := 10)
      have hdiv : (Nat.toDigits 10 (n / 10)).head? = some '0' := by
        cases hd : Nat.toDigits 10 (n / 10) with
        | nil => exact absurd hd hne
        | cons d ds =>
          rw [hd] at h
          exact h
      have := ih (n / 10) (by omega) hdiv
      omega

theorem takeWhile_toDigits (n : Nat) {rest : List Char} (h : Ends rest) :
    (Nat.toDigits 10 n ++ rest).takeWhile Char.isDigit = Nat.toDigits 10 n := by
  have hdigits : ∀ c ∈ Nat.toDigits 10 n, c.isDigit = true := fun c hc =>
    Nat.isDigit_of_mem_toDigits (by decide) (by decide) hc
  rw [List.takeWhile_append_of_pos hdigits]
  cases rest with
  | nil => simp
  | cons c rest =>
    have hc := (h c rfl).1
    rw [List.takeWhile_cons_of_neg (by simp [hc]), List.append_nil]

theorem readNat_toDigits (n : Nat) {rest : List Char} (h : Ends rest) :
    readNat (Nat.toDigits 10 n ++ rest) = some (n, rest) := by
  have hfloat : rest.head?.any floatMark = false := by
    cases rest with
    | nil => rfl
    | cons c rest => exact (h c rfl).2
  have htake := takeWhile_toDigits n h
  cases hd : Nat.toDigits 10 n with
  | nil => exact absurd hd Nat.toDigits_ne_nil
  | cons d ds =>
    rw [hd] at htake
    by_cases hzero : d = '0'
    · have hn : n = 0 := toDigits_head_zero (by rw [hd, hzero]; rfl)
      subst hn
      rw [Nat.toDigits_zero, List.cons.injEq] at hd
      obtain ⟨rfl, rfl⟩ := hd
      simp [readNat, hfloat]
    · have hvalue : Nat.ofDigitChars 10 (d :: ds) 0 = n := by
        rw [← hd, Nat.ofDigitChars_ten_toDigits]
      have hrest : (d :: ds ++ rest).drop (ds.length + 1) = rest := by
        rw [List.cons_append, List.drop_succ_cons, List.drop_left]
      simp only [readNat, htake, if_neg hzero, hvalue, hrest, hfloat, Bool.false_eq_true, if_false]

theorem readInt_intText (n : Int) {rest : List Char} (h : Ends rest) :
    readInt (intText n ++ rest) = some (n, rest) := by
  unfold intText
  by_cases hn : n < 0
  · rw [if_pos hn, List.cons_append, readInt, if_pos rfl, readNat_toDigits _ h, Option.map_some]
    have habs : -(n.natAbs : Int) = n := by omega
    rw [habs]
  · rw [if_neg hn]
    cases hd : Nat.toDigits 10 n.natAbs with
    | nil => exact absurd hd Nat.toDigits_ne_nil
    | cons d ds =>
      have hdigit : d.isDigit = true := Nat.isDigit_of_mem_toDigits (by decide) (by decide)
        (hd ▸ List.mem_cons_self)
      have hminus : ¬ d = '-' := by
        rintro rfl
        simp at hdigit
      rw [List.cons_append, readInt, if_neg hminus, ← List.cons_append, ← hd,
        readNat_toDigits _ h, Option.map_some]
      have habs : (n.natAbs : Int) = n := by omega
      rw [habs]

theorem ends_cons {c : Char} {rest : List Char} (h : c.isDigit = false ∧ floatMark c = false) :
    Ends (c :: rest) := by
  intro c' hc'
  cases hc'
  exact h

theorem ends_dumpsItems (items : List Json) (rest : List Char) :
    Ends (dumpsItems items ++ rest) := by
  cases items with
  | nil => exact ends_cons (by decide)
  | cons j items => exact ends_cons (by decide)

theorem ends_dumpsFields (fields : List (String × Json)) (rest : List Char) :
    Ends (dumpsFields fields ++ rest) := by
  cases fields with
  | nil => exact ends_cons (by decide)
  | cons field fields => exact ends_cons (by decide)

/-- The first character of a number. -/
def NumberStart (c : Char) : Prop := c = '-' ∨ c.isDigit = true

theorem NumberStart.ne {c d : Char} (h : NumberStart c) (hminus : d ≠ '-')
    (hdigit : d.isDigit = false) : c ≠ d := by
  rintro rfl
  rcases h with h | h
  · exact hminus h
  · rw [hdigit] at h
    cases h

theorem NumberStart.not_space {c : Char} (h : NumberStart c) : isSpace c = false := by
  have hspace := h.ne (d := ' ') (by decide) (by decide)
  have htab := h.ne (d := '\t') (by decide) (by decide)
  have hnewline := h.ne (d := '\n') (by decide) (by decide)
  have hreturn := h.ne (d := '\r') (by decide) (by decide)
  simp [isSpace, hspace, htab, hnewline, hreturn]

theorem intText_start (n : Int) : ∃ c cs, intText n = c :: cs ∧ NumberStart c := by
  unfold intText
  by_cases hn : n < 0
  · exact ⟨'-', _, if_pos hn, Or.inl rfl⟩
  · rw [if_neg hn]
    cases hd : Nat.toDigits 10 n.natAbs with
    | nil => exact absurd hd Nat.toDigits_ne_nil
    | cons d ds =>
      exact ⟨d, ds, rfl, Or.inr (Nat.isDigit_of_mem_toDigits (by decide) (by decide)
        (hd ▸ List.mem_cons_self))⟩

theorem value_number (fuel : Nat) {c : Char} (h : NumberStart c) (cs : List Char) :
    value (fuel + 1) (c :: cs) = (readInt (c :: cs)).map fun r => (.int r.1, r.2) := by
  rw [value, if_neg (h.ne (by decide) (by decide)), if_neg (h.ne (by decide) (by decide)),
    if_neg (h.ne (by decide) (by decide)), if_neg (h.ne (by decide) (by decide)),
    if_neg (h.ne (by decide) (by decide)), if_neg (h.ne (by decide) (by decide))]

/-- A value starts with a character that is neither a space nor a closing bracket. -/
theorem dumps_start (j : Json) :
    ∃ c cs, dumps j = c :: cs ∧ isSpace c = false ∧ c ≠ ']' ∧ c ≠ '\x7d' := by
  cases j with
  | null => exact ⟨'n', "ull".toList, rfl, by decide, by decide, by decide⟩
  | bool b =>
    cases b with
    | false => exact ⟨'f', "alse".toList, rfl, by decide, by decide, by decide⟩
    | true => exact ⟨'t', "rue".toList, rfl, by decide, by decide, by decide⟩
  | int n =>
    obtain ⟨c, cs, hn, hc⟩ := intText_start n
    exact ⟨c, cs, by rw [dumps, hn], hc.not_space, hc.ne (by decide) (by decide),
      hc.ne (by decide) (by decide)⟩
  | str s => exact ⟨'"', _, by rw [dumps, quote, List.cons_append], by decide, by decide, by decide⟩
  | arr items =>
    cases items with
    | nil => exact ⟨'[', [']'], rfl, by decide, by decide, by decide⟩
    | cons j items => exact ⟨'[', _, by rw [dumps, List.cons_append], by decide, by decide, by decide⟩
  | obj fields =>
    cases fields with
    | nil => exact ⟨'\x7b', ['\x7d'], rfl, by decide, by decide, by decide⟩
    | cons field fields =>
      exact ⟨'\x7b', _, by rw [dumps, List.cons_append, List.cons_append], by decide, by decide, by decide⟩

theorem skipSpace_cons {c : Char} (h : isSpace c = false) (cs : List Char) :
    skipSpace (c :: cs) = c :: cs :=
  List.dropWhile_cons_of_neg (by simp [h])

theorem skipSpace_space (cs : List Char) : skipSpace (' ' :: cs) = skipSpace cs := rfl

theorem skipSpace_dumps (j : Json) (rest : List Char) :
    skipSpace (dumps j ++ rest) = dumps j ++ rest := by
  obtain ⟨c, cs, hj, hspace, _⟩ := dumps_start j
  rw [hj]
  exact skipSpace_cons hspace _

theorem head?_dumps (j : Json) (rest : List Char) : (dumps j ++ rest).head? ≠ some ']' := by
  obtain ⟨c, cs, hj, _, hne, _⟩ := dumps_start j
  rw [hj]
  exact fun h => hne (Option.some.inj h)

theorem dumps_pos (j : Json) : 1 ≤ (dumps j).length := by
  obtain ⟨c, cs, hj, _⟩ := dumps_start j
  rw [hj]
  exact Nat.le_add_left 1 _

/-- The reader takes the text of `j` for `j` when it has `fuel`. -/
def Loads (fuel : Nat) (j : Json) : Prop :=
  ∀ rest, Ends rest → value fuel (dumps j ++ rest) = some (j, rest)

theorem readItems_cons {fuel : Nat} {j : Json} {items : List Json} {rest : List Char}
    (hj : Loads fuel j)
    (hitems : moreItems fuel (dumpsItems items ++ rest) = some (items, rest)) :
    readItems (fuel + 1) (dumps j ++ (dumpsItems items ++ rest)) = some (j :: items, rest) := by
  simp only [readItems, skipSpace_dumps, if_neg (head?_dumps j _), hj _ (ends_dumpsItems items rest),
    hitems, Option.bind_eq_bind, Option.bind_some, Option.pure_def]

theorem moreItems_cons {fuel : Nat} {j : Json} {items : List Json} {rest : List Char}
    (hj : Loads fuel j)
    (hitems : moreItems fuel (dumpsItems items ++ rest) = some (items, rest)) :
    moreItems (fuel + 1) (dumpsItems (j :: items) ++ rest) = some (j :: items, rest) := by
  have htext : dumpsItems (j :: items) ++ rest =
      ',' :: ' ' :: (dumps j ++ (dumpsItems items ++ rest)) := by
    simp only [dumpsItems, List.cons_append, List.append_assoc]
  have hcomma : ∀ cs, skipSpace (',' :: cs) = ',' :: cs := skipSpace_cons (by decide)
  rw [htext, moreItems, hcomma, List.head?_cons, if_neg (by decide), expect, if_pos rfl]
  simp only [Option.bind_eq_bind, Option.bind_some, skipSpace_space, skipSpace_dumps,
    hj _ (ends_dumpsItems items rest), hitems, Option.pure_def]

theorem readField_dumps {fuel : Nat} {k : String} {j : Json} {rest : List Char}
    (hk : k.toList.length < fuel) (hj : Loads fuel j) (h : Ends rest) :
    readField (fuel + 1) (quote k ++ ':' :: ' ' :: (dumps j ++ rest)) = some ((k, j), rest) := by
  have htext : quote k ++ ':' :: ' ' :: (dumps j ++ rest) =
      '"' :: (k.toList.flatMap escapeChar ++ '"' :: ':' :: ' ' :: (dumps j ++ rest)) := by
    simp only [quote, List.cons_append, List.append_assoc, List.nil_append]
  have hcolon : ∀ cs, skipSpace (':' :: cs) = ':' :: cs := skipSpace_cons (by decide)
  rw [htext, readField, expect, if_pos rfl]
  simp only [Option.bind_eq_bind, Option.bind_some, readString_quote hk, hcolon, expect, if_true,
    skipSpace_space, skipSpace_dumps, hj rest h, String.ofList_toList, Option.pure_def]

theorem quote_start (k : String) (rest : List Char) :
    skipSpace (quote k ++ rest) = quote k ++ rest ∧ (quote k ++ rest).head? = some '"' := by
  rw [quote, List.cons_append, List.cons_append]
  exact ⟨skipSpace_cons (by decide) _, rfl⟩

theorem readFields_cons {fuel : Nat} {k : String} {j : Json} {fields : List (String × Json)}
    {rest : List Char} (hk : k.toList.length < fuel) (hj : Loads fuel j)
    (hfields : moreFields (fuel + 1) (dumpsFields fields ++ rest) = some (fields, rest)) :
    readFields (fuel + 2) (quote k ++ ':' :: ' ' :: (dumps j ++ (dumpsFields fields ++ rest))) =
      some ((k, j) :: fields, rest) := by
  obtain ⟨hspace, hhead⟩ := quote_start k (':' :: ' ' :: (dumps j ++ (dumpsFields fields ++ rest)))
  rw [readFields, hspace, hhead, if_neg (by decide)]
  simp only [readField_dumps hk hj (ends_dumpsFields fields rest), hfields, Option.bind_eq_bind,
    Option.bind_some, Option.pure_def]

theorem moreFields_cons {fuel : Nat} {k : String} {j : Json} {fields : List (String × Json)}
    {rest : List Char} (hk : k.toList.length < fuel) (hj : Loads fuel j)
    (hfields : moreFields (fuel + 1) (dumpsFields fields ++ rest) = some (fields, rest)) :
    moreFields (fuel + 2) (dumpsFields ((k, j) :: fields) ++ rest) =
      some ((k, j) :: fields, rest) := by
  have htext : dumpsFields ((k, j) :: fields) ++ rest =
      ',' :: ' ' :: (quote k ++ ':' :: ' ' :: (dumps j ++ (dumpsFields fields ++ rest))) := by
    simp only [dumpsFields, List.cons_append, List.append_assoc]
  have hcomma : ∀ cs, skipSpace (',' :: cs) = ',' :: cs := skipSpace_cons (by decide)
  obtain ⟨hspace, _⟩ := quote_start k (':' :: ' ' :: (dumps j ++ (dumpsFields fields ++ rest)))
  rw [htext, moreFields, hcomma, List.head?_cons, if_neg (by decide), expect, if_pos rfl]
  simp only [Option.bind_eq_bind, Option.bind_some, skipSpace_space, hspace,
    readField_dumps hk hj (ends_dumpsFields fields rest), hfields, Option.pure_def]

theorem loads_leaf {fuel : Nat} {j : Json} (hfuel : 2 * (dumps j).length ≤ fuel)
    (harr : ∀ items, j ≠ .arr items) (hobj : ∀ fields, j ≠ .obj fields) : Loads fuel j := by
  have hpos := dumps_pos j
  obtain ⟨fuel, rfl⟩ : ∃ k, fuel = k + 1 := ⟨fuel - 1, by omega⟩
  intro rest h
  cases j with
  | null => rfl
  | bool b => cases b <;> rfl
  | int n =>
    obtain ⟨c, cs, hn, hc⟩ := intText_start n
    have hread := readInt_intText n h
    rw [dumps]
    rw [hn, List.cons_append] at hread ⊢
    rw [value_number fuel hc, hread]
    rfl
  | str s =>
    have hlen := quote_length s
    rw [dumps] at hfuel ⊢
    have hfits : s.toList.length < fuel := by omega
    have hread := readString_quote hfits rest
    simp only [quote, List.cons_append, List.append_assoc, List.nil_append]
    rw [value, if_pos rfl, hread, Option.map_some, String.ofList_toList]
  | arr items => exact absurd rfl (harr items)
  | obj fields => exact absurd rfl (hobj fields)

mutual

theorem value_dumps : (j : Json) → (fuel : Nat) → 2 * (dumps j).length ≤ fuel → Loads fuel j
  | .arr [], fuel, hfuel => by
    obtain ⟨fuel, rfl⟩ : ∃ k, fuel = k + 2 := ⟨fuel - 2, by simp [dumps] at hfuel; omega⟩
    intro rest _
    rfl
  | .arr (j :: items), fuel, hfuel => by
    simp only [dumps, List.cons_append, List.length_cons, List.length_append] at hfuel
    obtain ⟨fuel, rfl⟩ : ∃ k, fuel = k + 2 := ⟨fuel - 2, by omega⟩
    intro rest _
    have hread := readItems_cons (value_dumps j fuel (by omega))
      (moreItems_dumps items fuel (by omega) rest)
    simp only [dumps, List.cons_append, List.append_assoc]
    rw [value, if_neg (by decide), if_pos rfl, hread]
    rfl
  | .obj [], fuel, hfuel => by
    obtain ⟨fuel, rfl⟩ : ∃ k, fuel = k + 2 := ⟨fuel - 2, by simp [dumps] at hfuel; omega⟩
    intro rest _
    rfl
  | .obj ((k, j) :: fields), fuel, hfuel => by
    have hk := quote_length k
    simp only [dumps, List.cons_append, List.length_cons, List.length_append] at hfuel
    obtain ⟨fuel, rfl⟩ : ∃ k, fuel = k + 3 := ⟨fuel - 3, by omega⟩
    intro rest _
    have hfits : k.toList.length < fuel := by omega
    have hread := readFields_cons hfits (value_dumps j fuel (by omega))
      (moreFields_dumps fields (fuel + 1) (by omega) rest)
    simp only [dumps, List.cons_append, List.append_assoc]
    rw [value, if_neg (by decide), if_neg (by decide), if_pos rfl, hread]
    rfl
  | .null, fuel, hfuel => loads_leaf hfuel (by simp) (by simp)
  | .bool _, fuel, hfuel => loads_leaf hfuel (by simp) (by simp)
  | .int _, fuel, hfuel => loads_leaf hfuel (by simp) (by simp)
  | .str _, fuel, hfuel => loads_leaf hfuel (by simp) (by simp)

theorem moreItems_dumps : (items : List Json) → (fuel : Nat) →
    2 * (dumpsItems items).length ≤ fuel →
      ∀ rest, moreItems fuel (dumpsItems items ++ rest) = some (items, rest)
  | [], fuel, hfuel, rest => by
    obtain ⟨fuel, rfl⟩ : ∃ k, fuel = k + 1 := ⟨fuel - 1, by simp [dumpsItems] at hfuel; omega⟩
    rfl
  | j :: items, fuel, hfuel, rest => by
    simp only [dumpsItems, List.cons_append, List.length_cons, List.length_append] at hfuel
    obtain ⟨fuel, rfl⟩ : ∃ k, fuel = k + 1 := ⟨fuel - 1, by omega⟩
    exact moreItems_cons (value_dumps j fuel (by omega)) (moreItems_dumps items fuel (by omega) rest)

theorem moreFields_dumps : (fields : List (String × Json)) → (fuel : Nat) →
    2 * (dumpsFields fields).length ≤ fuel →
      ∀ rest, moreFields fuel (dumpsFields fields ++ rest) = some (fields, rest)
  | [], fuel, hfuel, rest => by
    obtain ⟨fuel, rfl⟩ : ∃ k, fuel = k + 1 := ⟨fuel - 1, by simp [dumpsFields] at hfuel; omega⟩
    rfl
  | (k, j) :: fields, fuel, hfuel, rest => by
    have hk := quote_length k
    simp only [dumpsFields, List.cons_append, List.length_cons, List.length_append] at hfuel
    obtain ⟨fuel, rfl⟩ : ∃ k, fuel = k + 2 := ⟨fuel - 2, by omega⟩
    exact moreFields_cons (by omega) (value_dumps j fuel (by omega))
      (moreFields_dumps fields (fuel + 1) (by omega) rest)

end

/-- What `dumps` writes, `loads` reads. -/
theorem loads_dumps (j : Json) : loads (dumps j) = some j := by
  have hskip := skipSpace_dumps j []
  have hread := value_dumps j (2 * (dumps j).length + 2) (by omega) [] (by simp [Ends])
  rw [List.append_nil] at hskip hread
  rw [loads, hskip, hread]
  rfl

end RoundTrip

end Json
