import PyWhats.Lib.Coroutine

/-! Two tasks joined by two lossless first-in first-out channels. A task waits until
its message is taken over by the channel or until a message is there for it. -/

namespace Duplex

inductive Request (m : Type) where
  | send (x : m)
  | recv

abbrev Request.Reply {m : Type} : Request m → Type
  | .send _ => Unit
  | .recv => m

abbrev Task (m ε α : Type) := Co Unit (Request.Reply (m := m)) ε α

variable {m ε α β : Type}

def send (x : m) : Task m ε Unit := Co.wait (Request.send x)

def recv : Task m ε m := Co.wait Request.recv

end Duplex

structure Duplex (m ε α β : Type) where
  left : Duplex.Task m ε α
  right : Duplex.Task m ε β
  toRight : List m
  toLeft : List m

namespace Duplex

variable {m ε α β : Type}

inductive Step : Duplex m ε α β → Duplex m ε α β → Prop
  | leftSend {d : Duplex m ε α β} {x : m} {k : Except ε Unit → Task m ε α}
      (h : d.left = .await (.send x) k) :
      Step d { d with left := k (.ok ()), toRight := d.toRight ++ [x] }
  | leftRecv {d : Duplex m ε α β} {x : m} {xs : List m} {k : Except ε m → Task m ε α}
      (h : d.left = .await .recv k) (hx : d.toLeft = x :: xs) :
      Step d { d with left := k (.ok x), toLeft := xs }
  | rightSend {d : Duplex m ε α β} {x : m} {k : Except ε Unit → Task m ε β}
      (h : d.right = .await (.send x) k) :
      Step d { d with right := k (.ok ()), toLeft := d.toLeft ++ [x] }
  | rightRecv {d : Duplex m ε α β} {x : m} {xs : List m} {k : Except ε m → Task m ε β}
      (h : d.right = .await .recv k) (hx : d.toRight = x :: xs) :
      Step d { d with right := k (.ok x), toRight := xs }

/-- The first state leads to the second, and there is no other way to go. -/
inductive Forced : Duplex m ε α β → Duplex m ε α β → Prop
  | refl (d : Duplex m ε α β) : Forced d d
  | head {d d' e : Duplex m ε α β} (h : Step d d') (honly : ∀ d'', Step d d'' → d'' = d')
      (hrest : Forced d' e) : Forced d e

theorem Forced.run {d e : Duplex m ε α β} (h : Forced d e) : Relation.ReflTransGen Step d e := by
  induction h with
  | refl d => exact .refl
  | head hstep _ _ ih => exact .head hstep ih

theorem Forced.trans {d e f : Duplex m ε α β} (h : Forced d e) (h' : Forced e f) : Forced d f := by
  induction h with
  | refl d => exact h'
  | head hstep honly _ ih => exact .head hstep honly (ih h')

/-- A run that is forced to a state where nothing can go on gets there from wherever it is. -/
theorem Forced.reaches {d e d' : Duplex m ε α β} (h : Forced d e) (hend : ∀ e', ¬ Step e e')
    (hrun : Relation.ReflTransGen Step d d') : Relation.ReflTransGen Step d' e := by
  induction h with
  | refl d =>
    rcases Relation.ReflTransGen.cases_head hrun with rfl | ⟨c, hstep, _⟩
    · exact .refl
    · exact absurd hstep (hend c)
  | head hstep honly hrest ih =>
    rcases Relation.ReflTransGen.cases_head hrun with rfl | ⟨c, hstep', hrun'⟩
    · exact .head hstep hrest.run
    · rw [honly c hstep'] at hrun'
      exact ih hend hrun'

theorem forced_leftSend {x : m} {k : Except ε Unit → Task m ε α} {k' : Except ε m → Task m ε β} :
    Forced ⟨.await (.send x) k, .await .recv k', [], []⟩ ⟨k (.ok ()), .await .recv k', [x], []⟩ := by
  refine .head (.leftSend rfl) (fun d hstep => ?_) (.refl _)
  cases hstep with
  | leftSend h => cases h; rfl
  | leftRecv h hx => cases h
  | rightSend h => cases h
  | rightRecv h hx => cases hx

theorem forced_rightSend {x : m} {k : Except ε m → Task m ε α} {k' : Except ε Unit → Task m ε β} :
    Forced ⟨.await .recv k, .await (.send x) k', [], []⟩ ⟨.await .recv k, k' (.ok ()), [], [x]⟩ := by
  refine .head (.rightSend rfl) (fun d hstep => ?_) (.refl _)
  cases hstep with
  | leftSend h => cases h
  | leftRecv h hx => cases hx
  | rightSend h => cases h; rfl
  | rightRecv h hx => cases h

/-- The task has ended or waits for a message. -/
def Idle : Task m ε α → Prop
  | .ret _ => True
  | .act _ _ => False
  | .await (.send _) _ => False
  | .await .recv _ => True

theorem forced_rightRecv {x : m} {left : Task m ε α} {k : Except ε m → Task m ε β}
    (hleft : Idle left) :
    Forced ⟨left, .await .recv k, [x], []⟩ ⟨left, k (.ok x), [], []⟩ := by
  refine .head (.rightRecv rfl rfl) (fun d hstep => ?_) (.refl _)
  cases hstep with
  | leftSend h => cases h; exact hleft.elim
  | leftRecv h hx => cases hx
  | rightSend h => cases h
  | rightRecv h hx => cases h; cases hx; rfl

theorem forced_leftRecv {x : m} {k : Except ε m → Task m ε α} {right : Task m ε β}
    (hright : Idle right) :
    Forced ⟨.await .recv k, right, [], [x]⟩ ⟨k (.ok x), right, [], []⟩ := by
  refine .head (.leftRecv rfl rfl) (fun d hstep => ?_) (.refl _)
  cases hstep with
  | leftSend h => cases h
  | leftRecv h hx => cases h; cases hx; rfl
  | rightSend h => cases h; exact hright.elim
  | rightRecv h hx => cases hx

theorem ended {r : Except ε α} {r' : Except ε β} {d : Duplex m ε α β} :
    ¬ Step ⟨.ret r, .ret r', [], []⟩ d := by
  intro hstep
  cases hstep with
  | leftSend h => cases h
  | leftRecv h hx => cases h
  | rightSend h => cases h
  | rightRecv h hx => cases h

end Duplex
