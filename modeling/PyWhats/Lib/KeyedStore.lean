import PyWhats.Lib.Mealy
import PyWhats.Lib.OrderedMap

/-! Stores with one row for every key, which differ in how they bind a key and how
they keep a value in a row. Two of them answer alike when each reads back what it
was given. -/

/-- How a store binds a key and keeps a value in a row. -/
structure KeyedStore (ε κ ν ρ : Type) where
  bind : κ → Except ε Unit := fun _ => .ok ()
  encode : κ → ν → Except ε ρ
  decode : κ → ρ → Except ε ν

namespace KeyedStore

inductive Op (κ ν : Type) where
  | load (key : κ)
  | save (key : κ) (value : ν)
  | delete (key : κ)

variable {ε κ ν ρ ρ' : Type} [DecidableEq κ]

def load (S : KeyedStore ε κ ν ρ) (table : OrderedMap κ ρ) (key : κ) : Except ε (Option ν) := do
  S.bind key
  match table.get? key with
  | none => return none
  | some row => return some (← S.decode key row)

def save (S : KeyedStore ε κ ν ρ) (table : OrderedMap κ ρ) (key : κ) (value : ν) :
    Except ε (OrderedMap κ ρ) := do
  let row ← S.encode key value
  S.bind key
  return table.set key row

def delete (S : KeyedStore ε κ ν ρ) (table : OrderedMap κ ρ) (key : κ) :
    Except ε (OrderedMap κ ρ) := do
  S.bind key
  return table.erase key

/-- A write that raises leaves the table as it was. -/
def written (table : OrderedMap κ ρ) :
    Except ε (OrderedMap κ ρ) → OrderedMap κ ρ × Except ε (Option ν)
  | .ok table => (table, .ok none)
  | .error e => (table, .error e)

def step (S : KeyedStore ε κ ν ρ) : Mealy (OrderedMap κ ρ) (Op κ ν) (Except ε (Option ν))
  | table, .load key => (table, S.load table key)
  | table, .save key value => written table (S.save table key value)
  | table, .delete key => written table (S.delete table key)

/-- The key can be bound, and the row of the value gives the value back. -/
structure Keeps (S : KeyedStore ε κ ν ρ) (key : κ) (value : ν) (row : ρ) : Prop where
  bind : S.bind key = .ok ()
  encode : S.encode key value = .ok row
  decode : S.decode key row = .ok value

variable {S : KeyedStore ε κ ν ρ} {S' : KeyedStore ε κ ν ρ'} {key : κ} {value : ν} {row : ρ}

theorem load_of_bind (hbind : S.bind key = .ok ()) (table : OrderedMap κ ρ) :
    S.load table key = match table.get? key with
      | none => .ok none
      | some row => (S.decode key row).map some := by
  simp only [load, hbind]
  cases table.get? key with
  | none => rfl
  | some row =>
    simp only
    cases S.decode key row <;> rfl

theorem Keeps.save_eq (h : S.Keeps key value row) (table : OrderedMap κ ρ) :
    S.save table key value = .ok (table.set key row) := by
  simp only [save, h.encode, h.bind]
  rfl

theorem Keeps.load_saved (h : S.Keeps key value row) (table : OrderedMap κ ρ) :
    S.load (table.set key row) key = .ok (some value) := by
  rw [load_of_bind h.bind, OrderedMap.get?_set_self]
  simp only [h.decode]
  rfl

theorem delete_of_bind (hbind : S.bind key = .ok ()) (table : OrderedMap κ ρ) :
    S.delete table key = .ok (table.erase key) := by
  simp only [delete, hbind]
  rfl

/-- What the tables hold reads the same. -/
def SameReads (S : KeyedStore ε κ ν ρ) (S' : KeyedStore ε κ ν ρ') (table : OrderedMap κ ρ)
    (table' : OrderedMap κ ρ') : Prop :=
  ∀ key, (table.get? key).map (S.decode key) = (table'.get? key).map (S'.decode key)

theorem sameReads_empty : SameReads S S' .empty .empty := fun _ => rfl

variable {table : OrderedMap κ ρ} {table' : OrderedMap κ ρ'}

theorem SameReads.load (h : SameReads S S' table table') (hbind : S.bind key = .ok ())
    (hbind' : S'.bind key = .ok ()) : S.load table key = S'.load table' key := by
  rw [load_of_bind hbind, load_of_bind hbind']
  have hkey := h key
  cases hrow : table.get? key with
  | none =>
    cases hrow' : table'.get? key with
    | none => rfl
    | some row' => simp [hrow, hrow'] at hkey
  | some row =>
    cases hrow' : table'.get? key with
    | none => simp [hrow, hrow'] at hkey
    | some row' =>
      simp only [hrow, hrow', Option.map_some, Option.some.injEq] at hkey
      simp only [hkey]

theorem SameReads.set (h : SameReads S S' table table') {row' : ρ'} (hkeep : S.Keeps key value row)
    (hkeep' : S'.Keeps key value row') : SameReads S S' (table.set key row) (table'.set key row') := by
  intro k
  rw [OrderedMap.get?_set, OrderedMap.get?_set]
  by_cases hk : k = key
  · subst hk
    rw [if_pos rfl, if_pos rfl, Option.map_some, Option.map_some, hkeep.decode, hkeep'.decode]
  · rw [if_neg hk, if_neg hk]
    exact h k

theorem SameReads.erase (h : SameReads S S' table table') (key : κ) :
    SameReads S S' (table.erase key) (table'.erase key) := by
  intro k
  rw [OrderedMap.get?_erase, OrderedMap.get?_erase]
  by_cases hk : k = key
  · rw [if_pos hk, if_pos hk]
    rfl
  · rw [if_neg hk, if_neg hk]
    exact h k

/-- The operations on which two stores agree: keys that both bind, and values that
both refuse alike or both give back. -/
def Agrees (S : KeyedStore ε κ ν ρ) (S' : KeyedStore ε κ ν ρ') : Op κ ν → Prop
  | .load key => S.bind key = .ok () ∧ S'.bind key = .ok ()
  | .save key value => (∃ row row', S.Keeps key value row ∧ S'.Keeps key value row') ∨
      ∃ e, S.encode key value = .error e ∧ S'.encode key value = .error e
  | .delete key => S.bind key = .ok () ∧ S'.bind key = .ok ()

theorem simulates : Mealy.Simulates S.step S'.step (Agrees S S') (SameReads S S') := by
  intro table table' h op hop
  cases op with
  | load key =>
    obtain ⟨hbind, hbind'⟩ := hop
    exact ⟨h.load hbind hbind', h⟩
  | save key value =>
    rcases hop with ⟨row, row', hkeep, hkeep'⟩ | ⟨e, he, he'⟩
    · simp only [step, hkeep.save_eq, hkeep'.save_eq, written]
      exact ⟨trivial, h.set hkeep hkeep'⟩
    · have hsave : S.save table key value = .error e := by
        simp only [save, he]
        rfl
      have hsave' : S'.save table' key value = .error e := by
        simp only [save, he']
        rfl
      simp only [step, hsave, hsave', written]
      exact ⟨trivial, h⟩
  | delete key =>
    obtain ⟨hbind, hbind'⟩ := hop
    simp only [step, delete_of_bind hbind, delete_of_bind hbind', written]
    exact ⟨trivial, h.erase key⟩

end KeyedStore
