import Mathlib.Data.List.Basic
import PyWhats.Lib.Registry
import PyWhats.Primitives

/-! The device store on disk (`save_device_store`, `load_device_store`): any number of saves,
call by call in any order, with calls that fail, processes that are killed and losses of
power. A loss tears every file that was not synced and may undo the changes of the directory
since it was last synced, the latest first. What a load finds is whole all the same. -/

namespace PyWhats.AtomicSave

def ownerOnly : Nat := 384

def unsafeModeBits : Nat := 63

structure File where
  content : Bytes
  mode : Nat
  synced : Bool

/-- Which file a name stands for: the one found there at first, or that of a save. -/
inductive Source where
  | found
  | made (save : Nat)

/-- The directory, with the number of the version that `dest` stands for. -/
structure Directory where
  dest : Option Source
  temps : List Nat
  version : Nat

inductive Stage where
  | mkstemp
  | fchmod
  | write (rest : Bytes)
  | fsync
  | replace
  | unlink
  | openDir
  | fsyncDir
  | returned (durable : Bool)
  | raised
  | killed

/-- A call of `save_device_store`: the call it makes next, its temporary file, and the number
of the version it has made, counted from 1 in the order of the replaces. -/
structure Save where
  payload : Bytes
  stage : Stage
  file : File
  slot : Option Nat

structure World where
  found : Option File
  saves : List Save
  dir : Directory
  earlier : List Directory
  versions : List (Option Source)
  settled : Nat

inductive Event where
  | start (payload : Bytes)
  | call (save : Nat) (done : Option Nat)
  | kill (save : Nat)
  | powerLoss (undone : Nat) (torn : Nat → File)

def Save.new (payload : Bytes) : Save := ⟨payload, .mkstemp, ⟨[], 0, false⟩, none⟩

def Save.whole (save : Save) : File := ⟨save.payload, ownerOnly, true⟩

def Stage.stop : Stage → Stage
  | .returned durable => .returned durable
  | .raised => .raised
  | _ => .killed

def Save.stop (save : Save) : Save := { save with stage := save.stage.stop }

def Save.afterLoss (torn : File) (save : Save) : Save :=
  { save.stop with file := if save.file.synced then save.file else torn }

def World.new (found : Option File) : World :=
  ⟨found, [], ⟨found.map fun _ => .found, [], 0⟩, [], [found.map fun _ => .found], 0⟩

def World.put (w : World) (i : Nat) (save : Save) : World := { w with saves := w.saves.set i save }

def World.change (w : World) (dir : Directory) : World :=
  { w with dir := dir, earlier := w.dir :: w.earlier }

/-- `os.replace(tmp_path, dest)`. -/
def World.replace (w : World) (i : Nat) (save : Save) : World :=
  let moved : Directory := ⟨some (.made i), w.dir.temps.erase i, w.versions.length⟩
  { (w.put i { save with stage := .openDir, slot := some w.versions.length }).change moved with
    versions := w.versions ++ [some (.made i)] }

def World.settle (w : World) : World := { w with earlier := [], settled := w.dir.version }

/-- The next call of a save: it fails, or it succeeds, a write with up to `n + 1` bytes. -/
def World.call (w : World) (i : Nat) (done : Option Nat) : World :=
  match w.saves[i]? with
  | none => w
  | some save =>
    match save.stage, done with
    | .mkstemp, none => w.put i { save with stage := .raised }
    | .mkstemp, some _ =>
      (w.put i { save with stage := .fchmod, file := ⟨[], ownerOnly, false⟩ }).change
        { w.dir with temps := i :: w.dir.temps }
    | .fchmod, none | .write _, none | .fsync, none | .replace, none =>
      w.put i { save with stage := .unlink }
    | .fchmod, some _ =>
      w.put i { save with
        stage := .write save.payload
        file := { save.file with mode := ownerOnly } }
    | .write rest, some n =>
      w.put i { save with
        stage := if rest.drop (n + 1) = [] then .fsync else .write (rest.drop (n + 1))
        file := { save.file with content := save.file.content ++ rest.take (n + 1) } }
    | .fsync, some _ =>
      w.put i { save with stage := .replace, file := { save.file with synced := true } }
    | .replace, some _ => w.replace i save
    | .unlink, none => w.put i { save with stage := .raised }
    | .unlink, some _ =>
      (w.put i { save with stage := .raised }).change { w.dir with temps := w.dir.temps.erase i }
    | .openDir, none => w.put i { save with stage := .returned false }
    | .openDir, some _ => w.put i { save with stage := .fsyncDir }
    | .fsyncDir, none => w.put i { save with stage := .returned false }
    | .fsyncDir, some _ => (w.put i { save with stage := .returned true }).settle
    | .returned _, _ | .raised, _ | .killed, _ => w

def World.step (w : World) : Event → World
  | .start payload => { w with saves := w.saves ++ [Save.new payload] }
  | .call i done => w.call i done
  | .kill i =>
    match w.saves[i]? with
    | none => w
    | some save => w.put i save.stop
  | .powerLoss undone torn =>
    { w with
      saves := w.saves.mapIdx fun i save => save.afterLoss (torn i)
      dir := ((w.dir :: w.earlier)[undone]?).getD w.dir
      earlier := [] }

def World.run (w : World) (events : List Event) : World := events.foldl World.step w

def World.file? (w : World) : Option File :=
  match w.dir.dest with
  | none => none
  | some .found => w.found
  | some (.made i) => (w.saves[i]?).map Save.file

inductive LoadError where
  | fileNotFound
  | storeSecurityError
  deriving DecidableEq

def checkPermissions (posix : Bool) : Option File → Except LoadError Unit
  | none => .ok ()
  | some file =>
    if posix ∧ file.mode &&& unsafeModeBits ≠ 0 then .error .storeSecurityError else .ok ()

def Event.isLoss : Event → Bool
  | .powerLoss _ _ => true
  | _ => false

/-- What `load_device_store` has read, with the check made in one state and the read in
another. -/
def loadDeviceStore (posix : Bool) (checked read : World) : Except LoadError Bytes := do
  checkPermissions posix checked.file?
  match read.file? with
  | none => .error .fileNotFound
  | some file => .ok file.content

/-- What holds of a save at each of its calls. -/
def Save.Ok (save : Save) : Prop :=
  match save.stage with
  | .mkstemp | .unlink | .raised => save.slot = none
  | .fchmod => save.slot = none ∧ save.file.content = []
  | .write rest =>
    save.slot = none ∧ save.file.content ++ rest = save.payload ∧ save.file.mode = ownerOnly
  | .fsync => save.slot = none ∧ save.file.content = save.payload ∧ save.file.mode = ownerOnly
  | .replace => save.slot = none ∧ save.file = save.whole
  | .openDir | .fsyncDir | .returned _ => save.slot.isSome ∧ save.file = save.whole
  | .killed => save.slot.isSome → save.file = save.whole

structure Inv (w : World) : Prop where
  ok : ∀ save ∈ w.saves, save.Ok
  version : ∀ {v : Nat} {source : Option Source}, w.versions[v]? = some source →
    (v = 0 ∧ source = w.found.map fun _ => .found) ∨
      ∃ i save, source = some (.made i) ∧ w.saves[i]? = some save ∧ save.slot = some v
  slot : ∀ {i : Nat} {save : Save} {v : Nat}, w.saves[i]? = some save → save.slot = some v →
    w.versions[v]? = some (some (.made i))
  dirs : ∀ dir ∈ w.dir :: w.earlier,
    w.versions[dir.version]? = some dir.dest ∧ w.settled ≤ dir.version
  pending : ∀ save ∈ w.saves, save.stage = .openDir ∨ save.stage = .fsyncDir →
    ∀ v, save.slot = some v → v ≤ w.dir.version
  durable : ∀ save ∈ w.saves, save.stage = .returned true →
    ∀ v, save.slot = some v → v ≤ w.settled

variable {w : World} {i : Nat} {save save' : Save}

theorem inv_new (found : Option File) : Inv (World.new found) := by
  constructor
  · simp [World.new]
  · intro v source h
    cases v with
    | zero =>
      simp only [World.new, List.getElem?_cons_zero, Option.some.injEq] at h
      exact Or.inl ⟨rfl, h.symm⟩
    | succ v => simp [World.new] at h
  · simp [World.new]
  · simp [World.new]
  · simp [World.new]
  · simp [World.new]

theorem put_get {j : Nat} (hi : w.saves[i]? = some save) :
    (w.put i save').saves[j]? = if i = j then some save' else w.saves[j]? :=
  Registry.get_set hi

theorem mem_put (h : save ∈ (w.put i save').saves) : save ∈ w.saves ∨ save = save' :=
  List.mem_or_eq_of_mem_set h

theorem Inv.put (h : Inv w) (hi : w.saves[i]? = some save) (hslot : save'.slot = save.slot)
    (hok : save'.Ok)
    (hpending : save'.stage = .openDir ∨ save'.stage = .fsyncDir →
      ∀ v, save'.slot = some v → v ≤ w.dir.version)
    (hdurable : save'.stage = .returned true → ∀ v, save'.slot = some v → v ≤ w.settled) :
    Inv (w.put i save') := by
  refine ⟨?_, ?_, ?_, h.dirs, ?_, ?_⟩
  · intro other hother
    rcases mem_put hother with hold | rfl
    · exact h.ok other hold
    · exact hok
  · intro v source hv
    rcases h.version hv with hfirst | ⟨j, other, hsource, hj, hv'⟩
    · exact Or.inl hfirst
    · by_cases hij : i = j
      · subst hij
        rw [hi] at hj
        cases hj
        exact Or.inr ⟨i, save', hsource, by simp [put_get hi], hslot.trans hv'⟩
      · exact Or.inr ⟨j, other, hsource, by simp [put_get hi, hij, hj], hv'⟩
  · intro j other v hj hv
    rw [put_get hi] at hj
    by_cases hij : i = j
    · subst hij
      rw [if_pos rfl] at hj
      cases hj
      exact h.slot hi (hslot ▸ hv)
    · rw [if_neg hij] at hj
      exact h.slot hj hv
  · intro other hother
    rcases mem_put hother with hold | rfl
    · exact h.pending other hold
    · exact hpending
  · intro other hother
    rcases mem_put hother with hold | rfl
    · exact h.durable other hold
    · exact hdurable

/-- Names of temporary files come and go. -/
theorem Inv.change (h : Inv w) (temps : List Nat) :
    Inv (w.change { w.dir with temps := temps }) := by
  refine ⟨h.ok, h.version, h.slot, ?_, h.pending, h.durable⟩
  intro dir hdir
  rcases List.mem_cons.mp hdir with rfl | hdir
  · exact h.dirs w.dir List.mem_cons_self
  · exact h.dirs dir hdir

theorem Inv.version_lt (h : Inv w) {dir : Directory} (hdir : dir ∈ w.dir :: w.earlier) :
    dir.version < w.versions.length :=
  (List.getElem?_eq_some_iff.mp (h.dirs dir hdir).1).1

theorem Inv.replace (h : Inv w) (hi : w.saves[i]? = some save) (hslot : save.slot = none)
    (hwhole : save.file = save.whole) : Inv (w.replace i save) := by
  have hget : ∀ j, (w.replace i save).saves[j]? =
      if i = j then some { save with stage := .openDir, slot := some w.versions.length }
      else w.saves[j]? := fun j => put_get hi
  have hnew : (w.versions ++ [some (Source.made i)])[w.versions.length]? =
      some (some (.made i)) := by simp
  have hold : ∀ {v : Nat} {source : Option Source}, w.versions[v]? = some source →
      (w.versions ++ [some (Source.made i)])[v]? = some source := by
    intro v source hv
    rw [List.getElem?_append_left (List.getElem?_eq_some_iff.mp hv).1, hv]
  have hsettled : w.settled ≤ w.versions.length :=
    Nat.le_trans (h.dirs w.dir List.mem_cons_self).2
      (Nat.le_of_lt (h.version_lt List.mem_cons_self))
  constructor
  · intro other hother
    rcases mem_put hother with hmem | rfl
    · exact h.ok other hmem
    · exact ⟨rfl, hwhole⟩
  · intro v source hv
    rcases Registry.get_add hv with hv' | ⟨rfl, rfl⟩
    · rcases h.version hv' with hfirst | ⟨j, other, hsource, hj, hother⟩
      · exact Or.inl hfirst
      · have hij : i ≠ j := by
          intro hij
          subst hij
          rw [hi] at hj
          cases hj
          rw [hslot] at hother
          cases hother
        exact Or.inr ⟨j, other, hsource, by simp [hget, hij, hj], hother⟩
    · exact Or.inr ⟨i, _, rfl, by rw [hget, if_pos rfl], rfl⟩
  · intro j other v hj hv
    rw [hget] at hj
    by_cases hij : i = j
    · subst hij
      rw [if_pos rfl] at hj
      cases hj
      cases hv
      exact hnew
    · rw [if_neg hij] at hj
      exact hold (h.slot hj hv)
  · intro dir hdir
    rcases List.mem_cons.mp hdir with rfl | hdir
    · exact ⟨hnew, hsettled⟩
    · exact ⟨hold (h.dirs dir hdir).1, (h.dirs dir hdir).2⟩
  · intro other hother hstage v hv
    show v ≤ w.versions.length
    rcases mem_put hother with hmem | rfl
    · exact Nat.le_trans (h.pending other hmem hstage v hv)
        (Nat.le_of_lt (h.version_lt List.mem_cons_self))
    · cases hv
      exact Nat.le_refl _
  · intro other hother hstage v hv
    rcases mem_put hother with hmem | rfl
    · exact h.durable other hmem hstage v hv
    · cases hstage

theorem Inv.settle (h : Inv w) : Inv w.settle := by
  refine ⟨h.ok, h.version, h.slot, ?_, h.pending, ?_⟩
  · intro dir hdir
    rw [List.mem_singleton.mp hdir]
    exact ⟨(h.dirs w.dir List.mem_cons_self).1, Nat.le_refl w.dir.version⟩
  · intro save hmem hstage v hv
    exact Nat.le_trans (h.durable save hmem hstage v hv) (h.dirs w.dir List.mem_cons_self).2

theorem Save.Ok.whole (h : save.Ok) (hslot : save.slot.isSome) : save.file = save.whole := by
  unfold Save.Ok at h
  split at h <;> simp_all

/-- A call that fails leads to the clean-up, or out of the save. -/
theorem Inv.call_failed (h : Inv w) (hi : w.saves[i]? = some save) : Inv (w.call i none) := by
  have hok : save.Ok := h.ok save (List.mem_of_getElem? hi)
  rw [World.call, hi]
  dsimp only
  cases hstage : save.stage with
  | mkstemp =>
    have hnone : save.slot = none := by simpa only [Save.Ok, hstage] using hok
    exact h.put hi rfl hnone (by simp) (by simp)
  | fchmod =>
    have hnone : save.slot = none ∧ save.file.content = [] := by
      simpa only [Save.Ok, hstage] using hok
    exact h.put hi rfl hnone.1 (by simp) (by simp)
  | write rest =>
    have hnone : save.slot = none ∧ save.file.content ++ rest = save.payload ∧
        save.file.mode = ownerOnly := by
      simpa only [Save.Ok, hstage] using hok
    exact h.put hi rfl hnone.1 (by simp) (by simp)
  | fsync =>
    have hnone : save.slot = none ∧ save.file.content = save.payload ∧
        save.file.mode = ownerOnly := by
      simpa only [Save.Ok, hstage] using hok
    exact h.put hi rfl hnone.1 (by simp) (by simp)
  | replace =>
    have hnone : save.slot = none ∧ save.file = save.whole := by
      simpa only [Save.Ok, hstage] using hok
    exact h.put hi rfl hnone.1 (by simp) (by simp)
  | unlink =>
    have hnone : save.slot = none := by simpa only [Save.Ok, hstage] using hok
    exact h.put hi rfl hnone (by simp) (by simp)
  | openDir =>
    have hmade : save.slot.isSome ∧ save.file = save.whole := by
      simpa only [Save.Ok, hstage] using hok
    exact h.put hi rfl hmade (by simp) (by simp)
  | fsyncDir =>
    have hmade : save.slot.isSome ∧ save.file = save.whole := by
      simpa only [Save.Ok, hstage] using hok
    exact h.put hi rfl hmade (by simp) (by simp)
  | returned durable => exact h
  | raised => exact h
  | killed => exact h

/-- A write appends what it took, and the last one leaves the payload in the file. -/
theorem Inv.writes (h : Inv w) (hi : w.saves[i]? = some save) {rest : Bytes}
    (hstage : save.stage = .write rest) (n : Nat) :
    Inv (w.put i { save with
      stage := if rest.drop (n + 1) = [] then .fsync else .write (rest.drop (n + 1))
      file := { save.file with content := save.file.content ++ rest.take (n + 1) } }) := by
  obtain ⟨hnone, hcontent, hmode⟩ : save.slot = none ∧
      save.file.content ++ rest = save.payload ∧ save.file.mode = ownerOnly := by
    simpa only [Save.Ok, hstage] using h.ok save (List.mem_of_getElem? hi)
  by_cases hrest : rest.drop (n + 1) = []
  · have hall : rest.take (n + 1) = rest := by
      have hsplit := List.take_append_drop (n + 1) rest
      rwa [hrest, List.append_nil] at hsplit
    simp only [hrest, if_true, hall]
    exact h.put hi rfl ⟨hnone, hcontent, hmode⟩ (by simp) (by simp)
  · simp only [hrest, if_false]
    have hcontent' : save.file.content ++ rest.take (n + 1) ++ rest.drop (n + 1) =
        save.payload := by
      rw [List.append_assoc, List.take_append_drop, hcontent]
    exact h.put hi rfl ⟨hnone, hcontent', hmode⟩ (by simp) (by simp)

theorem Inv.call_done (h : Inv w) (hi : w.saves[i]? = some save) (n : Nat) :
    Inv (w.call i (some n)) := by
  have hok : save.Ok := h.ok save (List.mem_of_getElem? hi)
  have hpending := h.pending save (List.mem_of_getElem? hi)
  rw [World.call, hi]
  dsimp only
  -- A save has made no version before its replace; from then on its file is whole.
  cases hstage : save.stage with
  | mkstemp =>
    have hnone : save.slot = none := by simpa only [Save.Ok, hstage] using hok
    have hmade : Inv (w.put i { save with stage := .fchmod, file := ⟨[], ownerOnly, false⟩ }) :=
      h.put hi rfl ⟨hnone, rfl⟩ (by simp) (by simp)
    exact hmade.change _
  | fchmod =>
    obtain ⟨hnone, hempty⟩ : save.slot = none ∧ save.file.content = [] := by
      simpa only [Save.Ok, hstage] using hok
    have hcontent : save.file.content ++ save.payload = save.payload := by
      rw [hempty, List.nil_append]
    exact h.put hi rfl ⟨hnone, hcontent, rfl⟩ (by simp) (by simp)
  | write rest => exact h.writes hi hstage n
  | fsync =>
    obtain ⟨hnone, hcontent, hmode⟩ : save.slot = none ∧
        save.file.content = save.payload ∧ save.file.mode = ownerOnly := by
      simpa only [Save.Ok, hstage] using hok
    have hwhole : (⟨save.file.content, save.file.mode, true⟩ : File) = save.whole := by
      rw [hcontent, hmode, Save.whole]
    exact h.put hi rfl ⟨hnone, hwhole⟩ (by simp) (by simp)
  | replace =>
    obtain ⟨hnone, hwhole⟩ : save.slot = none ∧ save.file = save.whole := by
      simpa only [Save.Ok, hstage] using hok
    exact h.replace hi hnone hwhole
  | unlink =>
    have hnone : save.slot = none := by simpa only [Save.Ok, hstage] using hok
    have hraised : Inv (w.put i { save with stage := .raised }) :=
      h.put hi rfl hnone (by simp) (by simp)
    exact hraised.change _
  | openDir =>
    have hmade : save.slot.isSome ∧ save.file = save.whole := by
      simpa only [Save.Ok, hstage] using hok
    exact h.put hi rfl hmade (fun _ => hpending (Or.inl hstage)) (by simp)
  | fsyncDir =>
    have hmade : save.slot.isSome ∧ save.file = save.whole := by
      simpa only [Save.Ok, hstage] using hok
    exact h.settle.put hi rfl hmade (by simp) (fun _ => hpending (Or.inr hstage))
  | returned durable => exact h
  | raised => exact h
  | killed => exact h

theorem Inv.call (h : Inv w) (i : Nat) (done : Option Nat) : Inv (w.call i done) := by
  cases hi : w.saves[i]? with
  | none =>
    rw [World.call, hi]
    exact h
  | some save =>
    cases done with
    | none => exact h.call_failed hi
    | some n => exact h.call_done hi n

theorem Save.Ok.stop (h : save.Ok) : save.stop.Ok := by
  obtain ⟨payload, stage, file, slot⟩ := save
  cases stage <;> simp_all [Save.Ok, Save.stop, Stage.stop, Save.whole]

theorem Save.Ok.afterLoss (h : save.Ok) (torn : File) : (save.afterLoss torn).Ok := by
  have hstop := h.stop
  obtain ⟨payload, stage, file, slot⟩ := save
  cases stage <;> simp_all [Save.Ok, Save.stop, Save.afterLoss, Stage.stop, Save.whole]

theorem stop_unfinished {stage : Stage} :
    ¬ (stage.stop = .openDir ∨ stage.stop = .fsyncDir) := by
  cases stage <;> simp [Stage.stop]

theorem stop_durable {stage : Stage} (h : stage.stop = .returned true) :
    stage = .returned true := by
  cases stage <;> simp_all [Stage.stop]

theorem Inv.kill (h : Inv w) (hi : w.saves[i]? = some save) : Inv (w.put i save.stop) :=
  h.put hi rfl (h.ok save (List.mem_of_getElem? hi)).stop
    (fun hstage => absurd hstage stop_unfinished)
    (fun hstage => h.durable save (List.mem_of_getElem? hi) (stop_durable hstage))

theorem Inv.start (h : Inv w) (payload : Bytes) : Inv (w.step (.start payload)) := by
  have hget : ∀ {j : Nat} {other : Save}, w.saves[j]? = some other →
      (w.saves ++ [Save.new payload])[j]? = some other := by
    intro j other hj
    rw [List.getElem?_append_left (List.getElem?_eq_some_iff.mp hj).1, hj]
  have hmem : ∀ other ∈ w.saves ++ [Save.new payload],
      other ∈ w.saves ∨ other = Save.new payload := by
    intro other hother
    simpa using hother
  refine ⟨?_, ?_, ?_, h.dirs, ?_, ?_⟩
  · intro other hother
    rcases hmem other hother with hold | rfl
    · exact h.ok other hold
    · exact rfl
  · intro v source hv
    rcases h.version hv with hfirst | ⟨j, other, hsource, hj, hslot⟩
    · exact Or.inl hfirst
    · exact Or.inr ⟨j, other, hsource, hget hj, hslot⟩
  · intro j other v hj hv
    rcases Registry.get_add hj with hold | ⟨-, rfl⟩
    · exact h.slot hold hv
    · cases hv
  · intro other hother hstage
    rcases hmem other hother with hold | rfl
    · exact h.pending other hold hstage
    · simp [Save.new] at hstage
  · intro other hother hstage
    rcases hmem other hother with hold | rfl
    · exact h.durable other hold hstage
    · simp [Save.new] at hstage

theorem Inv.powerLoss (h : Inv w) (undone : Nat) (torn : Nat → File) :
    Inv (w.step (.powerLoss undone torn)) := by
  have hget : ∀ j, (w.step (.powerLoss undone torn)).saves[j]? =
      (w.saves[j]?).map (Save.afterLoss (torn j)) := by
    intro j
    simp [World.step]
  have hmem : ∀ other ∈ (w.step (.powerLoss undone torn)).saves,
      ∃ save ∈ w.saves, ∃ file, other = save.afterLoss file := by
    intro other hother
    obtain ⟨j, hj⟩ := List.mem_iff_getElem?.mp hother
    rw [hget, Option.map_eq_some_iff] at hj
    obtain ⟨save, hsave, rfl⟩ := hj
    exact ⟨save, List.mem_of_getElem? hsave, torn j, rfl⟩
  have hback : ((w.dir :: w.earlier)[undone]?).getD w.dir ∈ w.dir :: w.earlier := by
    cases hdir : (w.dir :: w.earlier)[undone]? with
    | none => exact List.mem_cons_self
    | some dir => exact List.mem_of_getElem? hdir
  constructor
  · intro other hother
    obtain ⟨save, hsave, file, rfl⟩ := hmem other hother
    exact (h.ok save hsave).afterLoss file
  · intro v source hv
    rcases h.version hv with hfirst | ⟨j, save, hsource, hj, hslot⟩
    · exact Or.inl hfirst
    · exact Or.inr ⟨j, save.afterLoss (torn j), hsource, by rw [hget, hj, Option.map_some], hslot⟩
  · intro j other v hj hv
    rw [hget, Option.map_eq_some_iff] at hj
    obtain ⟨save, hsave, rfl⟩ := hj
    exact h.slot hsave hv
  · intro dir hdir
    rw [List.mem_singleton.mp hdir]
    exact h.dirs _ hback
  · intro other hother hstage
    obtain ⟨save, -, file, rfl⟩ := hmem other hother
    exact absurd hstage stop_unfinished
  · intro other hother hstage
    obtain ⟨save, hsave, file, rfl⟩ := hmem other hother
    exact h.durable save hsave (stop_durable hstage)

theorem Inv.step (h : Inv w) (e : Event) : Inv (w.step e) := by
  cases e with
  | start payload => exact h.start payload
  | call i done => exact h.call i done
  | kill i =>
    unfold World.step
    cases hi : w.saves[i]? with
    | none => simpa only [hi] using h
    | some save => simpa only [hi] using h.kill hi
  | powerLoss undone torn => exact h.powerLoss undone torn

theorem Inv.run (h : Inv w) (events : List Event) : Inv (w.run events) := by
  induction events generalizing w with
  | nil => exact h
  | cons e events ih => exact ih (h.step e)

/-- What a run leaves of the records it began with. -/
structure Extends (w w' : World) (lossless : Prop) : Prop where
  found : w'.found = w.found
  settled : w.settled ≤ w'.settled
  versions : w.versions.length ≤ w'.versions.length
  latest : lossless → w.dir.version + 1 = w.versions.length →
    w'.dir.version + 1 = w'.versions.length

theorem Extends.refl (w : World) (lossless : Prop) : Extends w w lossless :=
  ⟨rfl, Nat.le_refl _, Nat.le_refl _, fun _ h => h⟩

theorem Extends.trans {w₁ w₂ w₃ : World} {p q : Prop} (h : Extends w₁ w₂ p)
    (h' : Extends w₂ w₃ q) : Extends w₁ w₃ (p ∧ q) :=
  ⟨h'.found.trans h.found, Nat.le_trans h.settled h'.settled,
    Nat.le_trans h.versions h'.versions, fun hpq hw => h'.latest hpq.2 (h.latest hpq.1 hw)⟩

theorem Inv.extends_call (h : Inv w) (i : Nat) (done : Option Nat) (lossless : Prop) :
    Extends w (w.call i done) lossless := by
  have hsettled := (h.dirs w.dir List.mem_cons_self).2
  unfold World.call
  cases w.saves[i]? with
  | none => exact Extends.refl w lossless
  | some save =>
    dsimp only
    split
    all_goals
      constructor <;>
        simp [World.put, World.change, World.replace, World.settle, hsettled]

theorem Inv.extends_step (h : Inv w) (e : Event) : Extends w (w.step e) (e.isLoss = false) := by
  cases e with
  | start payload => exact ⟨rfl, Nat.le_refl _, Nat.le_refl _, fun _ h => h⟩
  | call i done => exact h.extends_call i done _
  | kill i =>
    unfold World.step
    cases hi : w.saves[i]? with
    | none => simpa only [hi] using Extends.refl w _
    | some save =>
      simp only [hi]
      exact ⟨rfl, Nat.le_refl _, Nat.le_refl _, fun _ h => h⟩
  | powerLoss undone torn => exact ⟨rfl, Nat.le_refl _, Nat.le_refl _, fun h => by cases h⟩

theorem Inv.extends_run (h : Inv w) (events : List Event) :
    Extends w (w.run events) (∀ e ∈ events, e.isLoss = false) := by
  induction events generalizing w with
  | nil => exact Extends.refl w _
  | cons e events ih =>
    have hrest : Extends w (w.run (e :: events)) _ := (h.extends_step e).trans (ih (h.step e))
    simpa only [List.forall_mem_cons] using hrest

/-- What the path stands for: the file found there at first, or the whole file of a save. -/
theorem Inv.file?_cases (h : Inv w) :
    (w.file? = w.found ∧ w.dir.version = 0) ∨
      ∃ save ∈ w.saves, save.slot = some w.dir.version ∧ w.file? = some save.whole := by
  rcases h.version (h.dirs w.dir List.mem_cons_self).1 with
    ⟨hzero, hdest⟩ | ⟨i, save, hdest, hi, hslot⟩
  · refine Or.inl ⟨?_, hzero⟩
    unfold World.file?
    rw [hdest]
    cases w.found with
    | none => rfl
    | some file => rfl
  · refine Or.inr ⟨save, List.mem_of_getElem? hi, hslot, ?_⟩
    have hwhole := (h.ok save (List.mem_of_getElem? hi)).whole (by simp [hslot])
    unfold World.file?
    rw [hdest]
    simp only [hi, Option.map_some, hwhole]

theorem Inv.checked (h : Inv w) (hsafe : ∀ file ∈ w.found, file.mode &&& unsafeModeBits = 0)
    (posix : Bool) : checkPermissions posix w.file? = .ok () := by
  rcases h.file?_cases with ⟨hfile, -⟩ | ⟨save, -, -, hfile⟩
  · rw [hfile]
    cases hfound : w.found with
    | none => rfl
    | some file =>
      have hmode := hsafe file hfound
      simp [checkPermissions, hmode]
  · rw [hfile]
    have hmode : save.whole.mode &&& unsafeModeBits = 0 := by
      show ownerOnly &&& unsafeModeBits = 0
      decide
    simp [checkPermissions, hmode]

theorem Inv.slot_lt (h : Inv w) (hmem : save ∈ w.saves) {v : Nat} (hv : save.slot = some v) :
    v < w.versions.length := by
  obtain ⟨i, hi⟩ := List.mem_iff_getElem?.mp hmem
  exact (List.getElem?_eq_some_iff.mp (h.slot hi hv)).1

/-- Each save that made a later version than `slot` had not synced the directory, and what it
made is gone by a loss of power. -/
def World.LaterLost (checked : World) (events : List Event) (slot : Nat) : Prop :=
  ∀ save ∈ checked.saves, ∀ slot', save.slot = some slot' → slot < slot' →
    save.stage ≠ .returned true ∧ ∃ e ∈ events, e.isLoss = true

/-- A load made during any run of saves reads a whole store, with a mode that it accepts: the
one found at first or that of a save which has replaced it. It is no older than any whose
directory was synced before the load began and, short of a loss of power, no older than any
that had replaced the file by then. -/
theorem load_finds_whole {found : Option File}
    (hsafe : ∀ file ∈ found, file.mode &&& unsafeModeBits = 0) (posix : Bool)
    (events later : List Event) :
    let checked := (World.new found).run events
    let read := checked.run later
    (loadDeviceStore posix checked read =
        found.elim (.error .fileNotFound) (fun file => .ok file.content) ∧
      checked.LaterLost (events ++ later) 0) ∨
    ∃ save ∈ read.saves, ∃ slot, save.slot = some slot ∧
      loadDeviceStore posix checked read = .ok save.payload ∧
      checked.LaterLost (events ++ later) slot := by
  intro checked read
  have hchecked : Inv checked := (inv_new found).run events
  have hread : Inv read := hchecked.run later
  have hbefore : Extends (World.new found) checked _ := (inv_new found).extends_run events
  have hduring : Extends checked read _ := hchecked.extends_run later
  have hpass : checkPermissions posix checked.file? = .ok () :=
    hchecked.checked (by rw [hbefore.found]; exact hsafe) posix
  have hlater : checked.LaterLost (events ++ later) read.dir.version := by
    intro save hsave slot hslot hlt
    constructor
    · intro hstage
      have hsettled := hchecked.durable save hsave hstage slot hslot
      have hkept := hduring.settled
      have hversion := (hread.dirs read.dir List.mem_cons_self).2
      omega
    · by_contra hnone
      have hlossless : ∀ e ∈ events ++ later, e.isLoss = false := by
        intro e he
        by_contra hloss
        exact hnone ⟨e, he, by simpa using hloss⟩
      have hstart := hbefore.latest
        (fun e he => hlossless e (List.mem_append_left later he)) rfl
      have hend := hduring.latest
        (fun e he => hlossless e (List.mem_append_right events he)) hstart
      have hlen := hchecked.slot_lt hsave hslot
      have hversions := hduring.versions
      omega
  rcases hread.file?_cases with ⟨hfile, hzero⟩ | ⟨save, hmem, hslot, hfile⟩
  · refine Or.inl ⟨?_, hzero ▸ hlater⟩
    have hfound : read.found = found := hduring.found.trans hbefore.found
    simp only [loadDeviceStore, hpass, hfile, hfound]
    cases found <;> rfl
  · refine Or.inr ⟨save, hmem, read.dir.version, hslot, ?_, hlater⟩
    simp only [loadDeviceStore, hpass, hfile]
    rfl

/-- One save returns with its directory synced; the power fails in the middle of the next. -/
def demoEvents : List Event :=
  [.start [1, 2]] ++ List.replicate 7 (.call 0 (some 1)) ++
    [.start [3, 4], .call 1 (some 0), .call 1 (some 0), .call 1 (some 0)]

def demoLoss : List Event := [.powerLoss 0 fun _ => ⟨[9], 511, false⟩]

def demoFound : File := ⟨[7], ownerOnly, true⟩

theorem load_finds_whole_interrupted :
    let checked := (World.new (some demoFound)).run demoEvents
    let read := checked.run demoLoss
    (loadDeviceStore true checked read = .ok [7] ∧
      checked.LaterLost (demoEvents ++ demoLoss) 0) ∨
    ∃ save ∈ read.saves, ∃ slot, save.slot = some slot ∧
      loadDeviceStore true checked read = .ok save.payload ∧
      checked.LaterLost (demoEvents ++ demoLoss) slot := by
  have hsafe : ∀ file ∈ some demoFound, file.mode &&& unsafeModeBits = 0 := by
    simp [demoFound, ownerOnly, unsafeModeBits]
  exact load_finds_whole hsafe true demoEvents demoLoss

/-- The second save is torn, the first one is read. -/
example : loadDeviceStore true ((World.new (some demoFound)).run demoEvents)
    (((World.new (some demoFound)).run demoEvents).run demoLoss) = .ok [1, 2] := rfl

end PyWhats.AtomicSave
