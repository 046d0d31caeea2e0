import Mathlib.Data.List.Basic

/-! A bounded queue between tasks of one event loop. Taking from an empty queue waits;
an item that is put wakes the task that has waited longest, but the item stays in the
queue until that task runs, and another task may take it first. -/

/-- `maxsize` zero means no bound. A task is in `getters` while it waits and in
`woken` from the wake-up until it runs. -/
structure AsyncQueue (α : Type) where
  maxsize : Nat
  items : List α := []
  getters : List Nat := []
  woken : List Nat := []
  deriving DecidableEq

namespace AsyncQueue

variable {α : Type}

def full (q : AsyncQueue α) : Bool := q.maxsize ≠ 0 && q.maxsize ≤ q.items.length

/-- The tasks inside `get`. -/
def pending (q : AsyncQueue α) : Nat := q.getters.length + q.woken.length

/-- Appends an item to a queue that has room. -/
def put (q : AsyncQueue α) (a : α) : AsyncQueue α :=
  match q.getters with
  | [] => { q with items := q.items ++ [a] }
  | task :: getters =>
    { q with items := q.items ++ [a], getters := getters, woken := q.woken ++ [task] }

def putNowait (q : AsyncQueue α) (a : α) : AsyncQueue α := if q.full then q else q.put a

/-- `get` from its beginning or from its resumption: the first item, or a wait. -/
def get (q : AsyncQueue α) (task : Nat) : Option α × AsyncQueue α :=
  match q.items with
  | [] => (none, { q with getters := q.getters ++ [task] })
  | a :: items => (some a, { q with items := items })

def resume (q : AsyncQueue α) (task : Nat) : Option α × AsyncQueue α :=
  { q with woken := q.woken.erase task }.get task

/-- A task waits unwoken only if every item has a woken task. -/
def Prompt (q : AsyncQueue α) : Prop := q.getters ≠ [] → q.items.length ≤ q.woken.length

section Put

@[simp] theorem items_put (q : AsyncQueue α) (a : α) : (q.put a).items = q.items ++ [a] := by
  unfold put
  split <;> rfl

@[simp] theorem pending_put (q : AsyncQueue α) (a : α) : (q.put a).pending = q.pending := by
  unfold put pending
  split
  · rfl
  · rename_i task getters hgetters
    simp only [hgetters, List.length_cons, List.length_append, List.length_nil]
    omega

theorem Prompt.put {q : AsyncQueue α} (h : q.Prompt) (a : α) : (q.put a).Prompt := by
  unfold AsyncQueue.put
  split
  · rename_i hnone
    intro hsome
    exact absurd hnone hsome
  · rename_i task getters hgetters
    intro _
    have hlen := h (by simp [hgetters])
    simp only [List.length_append, List.length_cons, List.length_nil]
    omega

end Put

section Get

theorem get_cons {q : AsyncQueue α} {a : α} {items : List α} (h : q.items = a :: items)
    (task : Nat) : q.get task = (some a, { q with items := items }) := by
  unfold get
  rw [h]

theorem get_nil {q : AsyncQueue α} (h : q.items = []) (task : Nat) :
    q.get task = (none, { q with getters := q.getters ++ [task] }) := by
  unfold get
  rw [h]

theorem Prompt.get {q : AsyncQueue α} (h : q.Prompt) (task : Nat) : (q.get task).2.Prompt := by
  cases hitems : q.items with
  | nil =>
    rw [get_nil hitems]
    intro _
    simp [hitems]
  | cons a items =>
    rw [get_cons hitems]
    intro hgetters
    have hlen := h hgetters
    simp only [hitems, List.length_cons] at hlen
    simp only
    omega

theorem resume_cons {q : AsyncQueue α} {a : α} {items : List α} (h : q.items = a :: items)
    (task : Nat) :
    q.resume task = (some a, { q with items := items, woken := q.woken.erase task }) :=
  get_cons (q := { q with woken := q.woken.erase task }) h task

theorem resume_nil {q : AsyncQueue α} (h : q.items = []) (task : Nat) :
    q.resume task =
      (none, { q with getters := q.getters ++ [task], woken := q.woken.erase task }) :=
  get_nil (q := { q with woken := q.woken.erase task }) h task

/-- A woken task that finds an item, or finds nothing and waits again. -/
theorem Prompt.resume {q : AsyncQueue α} (h : q.Prompt) {task : Nat} (htask : task ∈ q.woken) :
    (q.resume task).2.Prompt := by
  have hlen := List.length_erase_of_mem htask
  cases hitems : q.items with
  | nil =>
    rw [resume_nil hitems]
    intro _
    simp [hitems]
  | cons a items =>
    rw [resume_cons hitems]
    intro hgetters
    have hle := h hgetters
    rw [hitems, List.length_cons] at hle
    simp only [hlen]
    omega

/-- Enough items for everyone inside `get`: nobody is left unwoken. -/
theorem Prompt.getters_eq_nil {q : AsyncQueue α} (h : q.Prompt)
    (hitems : q.pending ≤ q.items.length) : q.getters = [] := by
  by_contra hne
  have hle := h hne
  have hpos := List.length_pos_iff.mpr hne
  unfold pending at hitems
  omega

end Get

end AsyncQueue
