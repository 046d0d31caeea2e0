import Mathlib.Data.ZMod.Basic
import PyWhats.AppState
import PyWhats.Lib.Tally

/-! The LT-hash as a sum: its 64 lanes form a commutative group, folding a value MAC
in or out adds or subtracts the weight of the MAC, and 128 bytes are their lanes. -/

namespace PyWhats.AppState

abbrev Lanes := Fin 64 → ZMod 65536

def lane (data : Bytes) (i : Nat) : ZMod 65536 := fromBytesLittle ((data.drop (2 * i)).take 2)

def lanes (data : Bytes) : Lanes := fun i => lane data i

def ltWeight (L : Libraries) (item : Bytes) : Lanes := lanes (hkdfExpand L item patchIntegrityInfo 128)

theorem fromBytesLittle_toBytesLittle2 {n : Nat} (h : n < 65536) :
    fromBytesLittle (toBytesLittle2 n) = n := by
  simp only [toBytesLittle2, fromBytesLittle, UInt8.toNat_ofNat']
  omega

theorem lane_cons_cons (a b : UInt8) (data : Bytes) (i : Nat) :
    lane (a :: b :: data) (i + 1) = lane data i := by
  simp only [lane, Nat.mul_add, Nat.mul_one, List.drop_succ_cons]

theorem lane_drop_two (data : Bytes) (i : Nat) : lane (data.drop 2) i = lane data (i + 1) := by
  have hindex : 2 + 2 * i = 2 * (i + 1) := by omega
  rw [lane, lane, List.drop_drop, hindex]

theorem cast_emod_toNat (z : Int) : (((z % 65536).toNat : Nat) : ZMod 65536) = (z : ZMod 65536) := by
  have hnonneg : 0 ≤ z % 65536 := Int.emod_nonneg _ (by decide)
  have hcast : (((z % 65536).toNat : Int) : ZMod 65536) = ((z % 65536 : Int) : ZMod 65536) := by
    rw [Int.toNat_of_nonneg hnonneg]
  rw [← Int.cast_natCast, hcast]
  exact ZMod.intCast_mod z 65536

theorem lane_pointwiseLanes (subtract : Bool) {n i : Nat} (base comp : Bytes) (h : i < n) :
    lane (pointwiseLanes subtract n base comp) i =
      if subtract then lane base i - lane comp i else lane base i + lane comp i := by
  induction n generalizing i base comp with
  | zero => exact absurd h (Nat.not_lt_zero i)
  | succ n ih =>
    cases i with
    | zero =>
      have hlt : ∀ z : Int, (z % 65536).toNat < 65536 := fun z => by omega
      have htake : ∀ (r : Nat) (rest : Bytes), (toBytesLittle2 r ++ rest).take 2 = toBytesLittle2 r :=
        fun _ _ => rfl
      simp only [lane, pointwiseLanes, Nat.mul_zero, List.drop_zero, htake,
        fromBytesLittle_toBytesLittle2 (hlt _), cast_emod_toNat]
      cases subtract <;> simp
    | succ i =>
      have hi := ih (base.drop 2) (comp.drop 2) (i := i) (by omega)
      rw [lane_drop_two, lane_drop_two] at hi
      rw [← hi]
      exact lane_cons_cons _ _ _ _

theorem lanes_pointwise (L : Libraries) (base item : Bytes) (subtract : Bool) :
    lanes (pointwise L base item subtract) =
      if subtract then lanes base - ltWeight L item else lanes base + ltWeight L item := by
  funext i
  have h := lane_pointwiseLanes subtract base (hkdfExpand L item patchIntegrityInfo 128) i.isLt
  cases subtract <;> exact h

theorem lanes_foldl_add (L : Libraries) (base : Bytes) (items : List Bytes) :
    lanes (items.foldl (fun out item => pointwise L out item false) base) =
      lanes base + (items.map (ltWeight L)).sum := by
  induction items generalizing base with
  | nil => simp
  | cons item items ih =>
    rw [List.foldl_cons, ih, lanes_pointwise, List.map_cons, List.sum_cons, if_neg (by decide)]
    exact add_assoc _ _ _

theorem lanes_foldl_sub (L : Libraries) (base : Bytes) (items : List Bytes) :
    lanes (items.foldl (fun out item => pointwise L out item true) base) =
      lanes base - (items.map (ltWeight L)).sum := by
  induction items generalizing base with
  | nil => simp
  | cons item items ih =>
    rw [List.foldl_cons, ih, lanes_pointwise, List.map_cons, List.sum_cons, if_pos rfl]
    exact sub_sub _ _ _

theorem lanes_subtractThenAdd (L : Libraries) (base : Bytes) (added removed : List Bytes) :
    lanes (subtractThenAdd L base added removed) =
      lanes base - (removed.map (ltWeight L)).sum + (added.map (ltWeight L)).sum := by
  rw [subtractThenAdd, lanes_foldl_add, lanes_foldl_sub]

section Bytes

theorem pointwiseLanes_length {subtract : Bool} {n : Nat} {base comp : Bytes}
    (h : base.length = 2 * n) : (pointwiseLanes subtract n base comp).length = 2 * n := by
  induction n generalizing base comp with
  | zero => exact h
  | succ n ih =>
    have hdrop : (base.drop 2).length = 2 * n := by
      rw [List.length_drop]
      omega
    simp only [pointwiseLanes, List.length_append, ih hdrop, toBytesLittle2, List.length_cons,
      List.length_nil]
    omega

theorem foldl_pointwise_length (L : Libraries) {subtract : Bool} {base : Bytes}
    (h : base.length = 128) (items : List Bytes) :
    (items.foldl (fun out item => pointwise L out item subtract) base).length = 128 := by
  induction items generalizing base with
  | nil => exact h
  | cons item items ih => exact ih (pointwiseLanes_length h)

theorem subtractThenAdd_length (L : Libraries) {base : Bytes} (h : base.length = 128)
    (added removed : List Bytes) : (subtractThenAdd L base added removed).length = 128 :=
  foldl_pointwise_length L (foldl_pointwise_length L h removed) added

theorem lane_zero_inj {a₀ a₁ b₀ b₁ : UInt8} {a b : Bytes}
    (h : lane (a₀ :: a₁ :: a) 0 = lane (b₀ :: b₁ :: b) 0) : a₀ = b₀ ∧ a₁ = b₁ := by
  have ha₀ := a₀.toNat_lt
  have ha₁ := a₁.toNat_lt
  have hb₀ := b₀.toNat_lt
  have hb₁ := b₁.toNat_lt
  simp only [lane, Nat.mul_zero, List.drop_zero, List.take_succ_cons, List.take_zero,
    fromBytesLittle, Nat.add_zero] at h
  rw [ZMod.natCast_eq_natCast_iff'] at h
  rw [Nat.mod_eq_of_lt (by omega), Nat.mod_eq_of_lt (by omega)] at h
  exact ⟨UInt8.toNat_inj.mp (by omega), UInt8.toNat_inj.mp (by omega)⟩

theorem eq_of_lane_eq {n : Nat} {a b : Bytes} (ha : a.length = 2 * n) (hb : b.length = 2 * n)
    (h : ∀ i < n, lane a i = lane b i) : a = b := by
  induction n generalizing a b with
  | zero => rw [List.length_eq_zero_iff.mp ha, List.length_eq_zero_iff.mp hb]
  | succ n ih =>
    match a, b, ha, hb, h with
    | [], _, ha, _, _ => simp at ha
    | [_], _, ha, _, _ =>
      rw [List.length_singleton] at ha
      omega
    | _ :: _ :: _, [], _, hb, _ => simp at hb
    | _ :: _ :: _, [_], _, hb, _ =>
      rw [List.length_singleton] at hb
      omega
    | a₀ :: a₁ :: a, b₀ :: b₁ :: b, ha, hb, h =>
      obtain ⟨rfl, rfl⟩ := lane_zero_inj (h 0 (Nat.succ_pos n))
      simp only [List.length_cons] at ha hb
      have htail : a = b := by
        apply ih (by omega) (by omega)
        intro i hi
        have hlane := h (i + 1) (by omega)
        rwa [lane_cons_cons, lane_cons_cons] at hlane
      rw [htail]

theorem eq_of_lanes_eq {a b : Bytes} (ha : a.length = 128) (hb : b.length = 128)
    (h : lanes a = lanes b) : a = b :=
  eq_of_lane_eq (n := 64) ha hb fun i hi => congrFun h ⟨i, hi⟩

end Bytes

section Multiset

variable {L : Libraries} {base : Bytes}

/-- The digest is told apart by how far it has moved from the base. -/
theorem subtractThenAdd_eq (h : base.length = 128) {added removed : List Bytes} {data : Bytes}
    (hlen : data.length = 128)
    (hmoved : lanes base + ((added.map (ltWeight L)).sum - (removed.map (ltWeight L)).sum) =
      lanes data) :
    subtractThenAdd L base added removed = data := by
  apply eq_of_lanes_eq (subtractThenAdd_length L h added removed) hlen
  rw [lanes_subtractThenAdd, ← hmoved]
  abel

theorem subtractThenAdd_perm (h : base.length = 128) {added added' removed removed' : List Bytes}
    (hadded : added.Perm added') (hremoved : removed.Perm removed') :
    subtractThenAdd L base added removed = subtractThenAdd L base added' removed' := by
  apply subtractThenAdd_eq h (subtractThenAdd_length L h added' removed')
  have hin := (hadded.map (ltWeight L)).sum_eq
  have hout := (hremoved.map (ltWeight L)).sum_eq
  rw [lanes_subtractThenAdd, hin, hout]
  abel

theorem subtractThenAdd_append (h : base.length = 128) (added added' removed removed' : List Bytes) :
    subtractThenAdd L base (added ++ added') (removed ++ removed') =
      subtractThenAdd L (subtractThenAdd L base added removed) added' removed' := by
  have hlen := subtractThenAdd_length L h added removed
  apply subtractThenAdd_eq h (subtractThenAdd_length L hlen added' removed')
  simp only [lanes_subtractThenAdd, List.map_append, List.sum_append]
  abel

theorem subtractThenAdd_undo (h : base.length = 128) (added removed : List Bytes) :
    subtractThenAdd L (subtractThenAdd L base added removed) removed added = base := by
  apply subtractThenAdd_eq (subtractThenAdd_length L h added removed) h
  rw [lanes_subtractThenAdd]
  abel

theorem subtractThenAdd_cancel (h : base.length = 128) (item : Bytes) (added removed : List Bytes) :
    subtractThenAdd L base (item :: added) (item :: removed) =
      subtractThenAdd L base added removed := by
  apply subtractThenAdd_eq h (subtractThenAdd_length L h added removed)
  simp only [lanes_subtractThenAdd, List.map_cons, List.sum_cons]
  abel

end Multiset

theorem lt_hash_multiset (L : Libraries) {base : Bytes} (h : base.length = 128)
    (added removed : List Bytes) :
    (subtractThenAdd L base added removed).length = 128 ∧
    (∀ added' removed' : List Bytes, added.Perm added' → removed.Perm removed' →
      subtractThenAdd L base added removed = subtractThenAdd L base added' removed') ∧
    (∀ added' removed' : List Bytes,
      subtractThenAdd L (subtractThenAdd L base added removed) added' removed' =
        subtractThenAdd L base (added ++ added') (removed ++ removed')) ∧
    subtractThenAdd L (subtractThenAdd L base added removed) removed added = base ∧
    ∀ item ∈ added, item ∈ removed →
      subtractThenAdd L base added removed =
        subtractThenAdd L base (added.erase item) (removed.erase item) := by
  refine ⟨subtractThenAdd_length L h added removed, ?_, ?_, subtractThenAdd_undo h added removed, ?_⟩
  · intro added' removed' hadded hremoved
    exact subtractThenAdd_perm h hadded hremoved
  · intro added' removed'
    exact (subtractThenAdd_append h added added' removed removed').symm
  · intro item hadded hremoved
    rw [subtractThenAdd_perm h (List.perm_cons_erase hadded) (List.perm_cons_erase hremoved)]
    exact subtractThenAdd_cancel h item _ _

theorem lt_hash_multiset_demo :
    subtractThenAdd demoLibraries (List.replicate 128 7) [[1], [2]] [[2], [3]] =
        subtractThenAdd demoLibraries (List.replicate 128 7) [[1]] [[3]] ∧
      subtractThenAdd demoLibraries
        (subtractThenAdd demoLibraries (List.replicate 128 7) [[1]] []) [] [[1]] =
          List.replicate 128 7 := by
  have hlen : (List.replicate 128 (7 : UInt8)).length = 128 := List.length_replicate
  obtain ⟨_, _, _, _, hcancel⟩ := lt_hash_multiset demoLibraries hlen [[1], [2]] [[2], [3]]
  obtain ⟨_, _, _, hundo, _⟩ := lt_hash_multiset demoLibraries hlen [[1]] []
  exact ⟨hcancel [2] (by decide) (by decide), hundo⟩

end PyWhats.AppState
