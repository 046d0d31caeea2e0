import PyWhats.Endpoint
import PyWhats.Lib.Matching
import PyWhats.StoreRefinement

/-! What `InMemoryLidMap` and the `lid_map` table hold after any sequence of `set` calls: the pairs
that no later call has broken. -/

namespace PyWhats

open Storage

section Dictionaries

namespace LidMap

def setAll (sets : List (String × String)) : LidMap :=
  sets.foldl (fun m q => m.set q.1 q.2) {}

/-- The two dictionaries are the two directions of one matching. -/
structure Matches (m : LidMap) (f : String ≃. String) : Prop where
  lid : ∀ pn, m.getLid pn = f pn
  pn : ∀ lid, m.getPn lid = f.symm lid

variable {m : LidMap} {f : String ≃. String}

theorem matches_empty : Matches {} ⊥ := ⟨fun _ => rfl, fun _ => rfl⟩

/-- Each side finds the entry to repair by asking the other one. -/
theorem Matches.set (h : m.Matches f) (pnUser lidUser : String) :
    (m.set pnUser lidUser).Matches (Matching.pair f pnUser lidUser) := by
  constructor
  · intro pn
    have hinv : f.symm lidUser = some pn ↔ f pn = some lidUser := f.inv pn lidUser
    rw [getLid_set, h.lid, h.pn]
    simp only [hinv]
    rfl
  · intro lid
    have hinv : f.symm lid = some pnUser ↔ f pnUser = some lid := f.inv pnUser lid
    rw [getPn_set, h.lid, h.pn]
    simp only [← hinv]
    rfl

theorem setAll_matches (sets : List (String × String)) :
    (setAll sets).Matches (Matching.pairAll sets) := by
  induction sets using List.reverseRecOn with
  | nil => exact matches_empty
  | append_singleton sets q ih =>
    rw [setAll, List.foldl_append, Matching.pairAll_append_singleton]
    exact ih.set q.1 q.2

/-- The dictionaries invert each other, and a pair is there while it stands. -/
theorem lids_stand (sets : List (String × String)) (pn lid : String) :
    ((setAll sets).getLid pn = some lid ↔ (setAll sets).getPn lid = some pn) ∧
      ((setAll sets).getLid pn = some lid ↔ Matching.Stands sets pn lid) := by
  have hmatches := setAll_matches sets
  have hinv : (Matching.pairAll sets).symm lid = some pn ↔ Matching.pairAll sets pn = some lid :=
    (Matching.pairAll sets).inv pn lid
  rw [hmatches.lid, hmatches.pn, hinv, Matching.pairAll_iff]
  exact ⟨Iff.rfl, Iff.rfl⟩

example : (setAll [("1", "a"), ("2", "b"), ("1", "b")]).getLid "2" = none := by decide

end LidMap

end Dictionaries

section Table

def sqliteSetAll (sets : List (String × String)) : Connection :=
  sets.foldl (fun c q => (sqliteLidStep c (.set q.1 q.2)).1) {}

theorem sqliteSetAll_matches (sets : List (String × String)) :
    (sqliteSetAll sets).pending = none ∧
      LidsMatch (sqliteSetAll sets).file.lidMap (LidMap.setAll sets) := by
  induction sets using List.reverseRecOn with
  | nil => exact ⟨rfl, fun _ => rfl, fun _ _ => iff_of_false (fun h => by cases h) fun h => by cases h⟩
  | append_singleton sets q ih =>
    obtain ⟨hreply, lidMap, hstep, hmatch⟩ := lids_simulate ih.1 ih.2 (.set q.1 q.2)
    rw [sqliteSetAll, LidMap.setAll, List.foldl_append, List.foldl_append]
    change (sqliteLidStep (sqliteSetAll sets) (.set q.1 q.2)).1.pending = none ∧
      LidsMatch (sqliteLidStep (sqliteSetAll sets) (.set q.1 q.2)).1.file.lidMap
        ((LidMap.setAll sets).set q.1 q.2)
    rw [hstep]
    exact ⟨rfl, hmatch⟩

theorem sqliteLids_stand (sets : List (String × String)) (pn lid : String) :
    (sqliteLidStep (sqliteSetAll sets) (.getLid pn)).2 = .user (some lid) ↔
      Matching.Stands sets pn lid := by
  obtain ⟨hpending, hmatch⟩ := sqliteSetAll_matches sets
  have hreply := (lids_simulate hpending hmatch (.getLid pn)).1
  have hlid : (LidMap.setAll sets).getLid pn = Matching.pairAll sets pn :=
    (LidMap.setAll_matches sets).lid pn
  rw [hreply, memoryLidStep, hlid, ← Matching.pairAll_iff]
  exact ⟨Reply.user.inj, congrArg Reply.user⟩

end Table

end PyWhats
