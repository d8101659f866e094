import RozeDtm.Conc.Levels
import RozeDtm.InMemory.Snapshot
import RozeDtm.Properties.RegistrationsKept
import RozeDtm.Properties.TerminalFinal

/-!
# Versions of a record

What can become of a record while every write of it is made from its latest version, over the
in-memory store or over one that does no more (`Machine.Within`): in one step it is changed at
most once (`changedOnce_step`), and over whole runs nothing of it is lost, a terminal status
stays, and the record stays (`laterVersion_run`).
-/

namespace RozeDtm

open Conc

/-! ### One change of a record -/

/-- Record `s'` is `s` after one change of it: a write of a version made from `s` itself, or a
change in place.  It has the next revision. -/
structure ChangedOnce (s s' : Transaction) : Prop where
  revision : s'.revision = s.revision + 1
  change : (∃ σ tx, Writes σ s tx ∧ SameRecord tx s') ∨ Amended s s'

section Step

variable {g : String} {i : Nat} {σ : Session} {w : World} {o : Effect}

theorem changedOnce_record_step (hf : Fresh g o w) (ho : SnapshotOf g σ w)
    (hp : registering.pre σ o) (c : Outcome) {s : Transaction} (hs : w.txs[g]? = some s) :
    ∃ s', (InMemory.exec i o c w).2.txs[g]? = some s' ∧ (s' = s ∨ ChangedOnce s s') := by
  have hlt := hf.1 s hs
  obtain ⟨s', hs', rfl | ⟨tx, -, hw, rfl⟩ | ha⟩ := record_step hf ho hp i c hs
  · exact ⟨s', hs', Or.inl rfl⟩
  · refine ⟨_, hs', Or.inr ⟨?_, Or.inl ⟨σ, tx, hw, .bump w.clock tx⟩⟩⟩
    simp only [bumpTransactionRevision, hw.head.revision, satAdd64_of_lt hlt]
  · refine ⟨s', hs', Or.inr ⟨?_, Or.inr ha⟩⟩
    rw [ha.revision, satAdd64_of_lt hlt]

variable {D : Type} {N : Machine effects World D}

/-- The outline of the runs of `N`. -/
abbrev withinOutline (hN : N.Within (inMemory.restrict (Fresh g)) registering) :
    Outline N registering Session.start := (freshOutline g).within hN

/-- **What becomes of a stored record in one step**: nothing, or one change. -/
theorem changedOnce_step (hN : N.Within (inMemory.restrict (Fresh g)) registering)
    (ho : (withinOutline hN).own i σ w) (hp : registering.pre σ o) (ha : N.allow o w) (c : D)
    {s : Transaction} (hs : w.txs[g]? = some s) :
    ∃ s', (N.exec i o c w).2.txs[g]? = some s' ∧ (s' = s ∨ ChangedOnce s s') := by
  rcases hN.exec i o c w with ⟨d, he⟩ | ⟨-, he | ⟨d, he⟩⟩ <;> rw [he]
  · exact changedOnce_record_step (hN.allow ha).2 ho.2 hp d hs
  · exact ⟨s, hs, Or.inl rfl⟩
  · exact changedOnce_record_step (hN.allow ha).2 ho.2 hp d hs

end Step

/-! ### Whole runs -/

/-- What a record has kept of an earlier version of itself. -/
structure LaterVersion (s s' : Transaction) : Prop where
  gid : s'.gid = s.gid
  kind : s'.kind = s.kind
  options : s'.options = s.options
  revision : s' = s ∨ s.revision < s'.revision
  branches : s.branches.map Branch.definition <+: s'.branches.map Branch.definition
  progresses : s.workflowProgresses <+: s'.workflowProgresses
  terminal : s.status.isTerminal = true → s'.status = s.status

theorem LaterVersion.refl (s : Transaction) : LaterVersion s s :=
  ⟨rfl, rfl, rfl, Or.inl rfl, List.prefix_rfl, List.prefix_rfl, fun _ => rfl⟩

theorem LaterVersion.trans {s s' s'' : Transaction} (h : LaterVersion s s')
    (h' : LaterVersion s' s'') : LaterVersion s s'' where
  gid := h'.gid.trans h.gid
  kind := h'.kind.trans h.kind
  options := h'.options.trans h.options
  revision := by
    rcases h.revision with rfl | hlt
    · exact h'.revision
    · rcases h'.revision with rfl | hlt'
      · exact Or.inr hlt
      · exact Or.inr (Nat.lt_trans hlt hlt')
  branches := h.branches.trans h'.branches
  progresses := h.progresses.trans h'.progresses
  terminal := fun ht => by
    have hstatus := h.terminal ht
    rw [h'.terminal (hstatus ▸ ht), hstatus]

theorem Writes.definitions {σ : Session} {s tx : Transaction} (hw : Writes σ s tx) :
    tx.branches.map Branch.definition = s.branches.map Branch.definition :=
  map_eq_of_forall₂ (fun _ _ hb => hb.definition) hw.branches

theorem ChangedOnce.laterVersion {s s' : Transaction} (h : ChangedOnce s s') :
    LaterVersion s s' := by
  have hrevision : s.revision < s'.revision := by
    rw [h.revision]
    exact Nat.lt_succ_self _
  rcases h.change with ⟨σ, tx, hw, revision, updatedAtMillis, rfl⟩ | ha
  · refine ⟨hw.head.gid, hw.head.kind, hw.head.options, Or.inr hrevision, ?_, ?_, fun ht => ?_⟩
    · exact hw.definitions ▸ List.prefix_rfl
    · rw [← hw.head.workflowProgresses]
    · -- a terminal record is not written over
      have hm := hw.moves
      rw [moves_of_isTerminal ht] at hm
      cases hm
  · obtain ⟨branches, hb⟩ := ha.branches
    refine ⟨ha.gid, ha.kind, ha.options, Or.inr hrevision, ?_, ha.extends.progresses, fun ht => ?_⟩
    · rw [hb, List.map_append]
      exact List.prefix_append ..
    · rw [ha.live] at ht
      cases ht

theorem withinOutline_good {D : Type} {N : Machine effects World D} {dtm : Dtm}
    {ops : Operation → Prop} {g : String} {w : World}
    (hN : N.Within (inMemory.restrict (Fresh g)) registering) (hw : w.Keyed) (hh : w.history = [])
    {A : System} (hA : N.Reaches (dtm.Programs ops) w A) : (withinOutline hN).Good A := by
  obtain ⟨hinv, hown⟩ := @fresh_start g w hw hh
  exact (withinOutline hN).good_of_reaches hinv hown (fun _ => starts_registering) hA

/-- **While every write is made from the latest version a record only advances.** -/
theorem laterVersion_run {D : Type} {N : Machine effects World D} {dtm : Dtm}
    {ops : Operation → Prop} {g : String} {A B : System}
    (hN : N.Within (inMemory.restrict (Fresh g)) registering) (hA : (withinOutline hN).Good A)
    (hB : N.Run (dtm.Programs ops) A B) {s : Transaction} (hs : A.world.txs[g]? = some s) :
    ∃ s', B.world.txs[g]? = some s' ∧ LaterVersion s s' := by
  refine hA.stays (fun w => ∃ s', w.txs[g]? = some s' ∧ LaterVersion s s')
    (fun _ => starts_registering) ?_ ?_ ⟨s, hs, .refl s⟩ hB
  · rintro w i σ o c - ho hp ha ⟨s', hs', hadv⟩
    obtain ⟨s'', hs'', rfl | hchange⟩ := changedOnce_step hN ho hp ha c hs'
    · exact ⟨s'', hs'', hadv⟩
    · exact ⟨s'', hs'', hadv.trans hchange.laterVersion⟩
  · rintro w w' - hd hφ
    obtain ⟨now, rfl⟩ := hN.drift hd
    exact hφ

end RozeDtm
