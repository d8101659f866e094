import RozeDtm.InMemory.Snapshot

/-!
# Acknowledged registrations

`register_branch` and `record_workflow_progress` change the record under the store's
lock.  The other operations write back a whole record, so one that has read the record
before the registration takes the registration out again (`registration_lost`).  When no
write is stale, what was acknowledged stays (`registrations_kept`).
-/

namespace RozeDtm

open Conc

/-- Nothing is taken out of a record. -/
structure Extends (s s' : Transaction) : Prop where
  branches : s.branches.map Branch.id <+: s'.branches.map Branch.id
  progresses : s.workflowProgresses <+: s'.workflowProgresses

theorem Amended.extends {s s' : Transaction} (h : Amended s s') : Extends s s' := by
  obtain ⟨branches, hb⟩ := h.branches
  obtain ⟨progresses, hp⟩ := h.workflowProgresses
  refine ⟨?_, ?_⟩
  · rw [hb, List.map_append]
    exact List.prefix_append ..
  · rw [hp]
    exact List.prefix_append ..

theorem Writes.extends {σ : Session} {s tx : Transaction} (h : Writes σ s tx) : Extends s tx := by
  refine ⟨?_, ?_⟩
  · rw [map_eq_of_forall₂ (fun _ _ hb => Branch.id_eq hb.definition) h.branches]
  · rw [h.head.workflowProgresses]

/-- What was registered in `g` is in the stored record. -/
structure Kept (g : String) (w : World) : Prop where
  branches : ∀ i b, (i, .registered g b) ∈ w.history →
    ∃ s, w.txs[g]? = some s ∧ b.id ∈ s.branches.map Branch.id
  progresses : ∀ i p, (i, .progressed g p) ∈ w.history →
    ∃ s, w.txs[g]? = some s ∧ p ∈ s.workflowProgresses

section Step

variable {g : String} {σ : Session} {w : World} {o : Effect}

/-- **A fresh step takes nothing out of the record under `g`.** -/
theorem extends_step (ho : SnapshotOf g σ w) (hp : registering.pre σ o) (hf : Fresh g o w)
    (i : Nat) (c : Outcome) {s : Transaction} (hs : w.txs[g]? = some s) :
    ∃ s', (InMemory.exec i o c w).2.txs[g]? = some s' ∧ Extends s s' := by
  obtain ⟨s', hs', rfl | ⟨tx, -, hw, rfl⟩ | ha⟩ := record_step hf ho hp i c hs
  · exact ⟨s', hs', List.prefix_rfl, List.prefix_rfl⟩
  · exact ⟨_, hs', hw.extends.1, hw.extends.2⟩
  · exact ⟨s', hs', ha.extends⟩

/-- An acknowledged branch is in the record that the store has then. -/
theorem registered_now {i : Nat} {c : Outcome} {gid : String} {branch : Branch}
    (h : (InMemory.exec i (.registerBranch gid branch) c w).2.history ≠ w.history) :
    ∃ s', (InMemory.exec i (.registerBranch gid branch) c w).2.txs[gid]? = some s' ∧
      branch.id ∈ s'.branches.map Branch.id := by
  rcases noteOk_modify with hh | ⟨s, s', -, hf, hs', -⟩
  · exact absurd hh h
  · refine ⟨s', hs', List.mem_map_of_mem ?_⟩
    rcases appendDynamicBranch_ok hf with ⟨rfl, hm⟩ | ⟨-, -, hb⟩
    · exact hm
    · rw [hb]
      exact List.mem_append_right _ (List.mem_singleton_self _)

/-- An acknowledged progress is in the record that the store has then. -/
theorem progressed_now {i : Nat} {c : Outcome} {gid : String} {progress : WorkflowProgress}
    (h : (InMemory.exec i (.recordWorkflowProgress gid progress) c w).2.history ≠ w.history) :
    ∃ s', (InMemory.exec i (.recordWorkflowProgress gid progress) c w).2.txs[gid]? = some s' ∧
      progress ∈ s'.workflowProgresses := by
  rcases noteOk_modify with hh | ⟨s, s', -, hf, hs', -⟩
  · exact absurd hh h
  · refine ⟨s', hs', ?_⟩
    rcases appendWorkflowProgress_ok hf with ⟨rfl, hm⟩ | ⟨-, -, hb⟩
    · exact hm
    · rw [hb]
      exact List.mem_append_right _ (List.mem_singleton_self _)

theorem Kept.exec (hw : Kept g w) (ho : SnapshotOf g σ w) (hp : registering.pre σ o)
    (hf : Fresh g o w) (i : Nat) (c : Outcome) : Kept g (InMemory.exec i o c w).2 := by
  refine ⟨fun j b hj => ?_, fun j p hj => ?_⟩
  · by_cases hold : (j, .registered g b) ∈ w.history
    · obtain ⟨s, hs, hb⟩ := hw.branches j b hold
      obtain ⟨s', hs', he⟩ := extends_step ho hp hf i c hs
      exact ⟨s', hs', he.branches.subset hb⟩
    · have he := (mem_history_step hj).resolve_left hold
      cases o with
      | registerBranch gid branch =>
        cases he
        exact registered_now fun h => hold (h ▸ hj)
      | barrier b =>
        obtain ⟨d, hd⟩ := he
        cases hd
      | invokeEnd call =>
        obtain ⟨ok, hok⟩ := he
        cases hok
      | _ => cases he
  · by_cases hold : (j, .progressed g p) ∈ w.history
    · obtain ⟨s, hs, hb⟩ := hw.progresses j p hold
      obtain ⟨s', hs', he⟩ := extends_step ho hp hf i c hs
      exact ⟨s', hs', he.progresses.subset hb⟩
    · have he := (mem_history_step hj).resolve_left hold
      cases o with
      | recordWorkflowProgress gid progress =>
        cases he
        exact progressed_now fun h => hold (h ▸ hj)
      | barrier b =>
        obtain ⟨d, hd⟩ := he
        cases hd
      | invokeEnd call =>
        obtain ⟨ok, hok⟩ := he
        cases hok
      | _ => cases he

end Step

/-- **In the runs in which no write of a transaction is stale, what was registered in it
and acknowledged stays in it.** -/
theorem registrations_kept (dtm : Dtm) {g : String} {w : World} (hw : w.Keyed)
    (hh : w.history = []) {P : System}
    (hP : (inMemory.restrict (Fresh g)).Reaches (dtm.Programs fun _ => True) w P) :
    Kept g P.world := by
  obtain ⟨hinv, hown⟩ := @fresh_start g w hw hh
  have hgood : (freshOutline g).Good (Pool.idle w : System) := Outline.good_idle hinv hown
  refine hgood.stays (Kept g) (fun _ => starts_registering) ?_ ?_ ?_ hP
  · exact fun c _ ho hp ha hφ => hφ.exec ho.2 hp ha.2 _ c
  · rintro w w' - ⟨now, rfl⟩ hφ
    exact ⟨hφ.1, hφ.2⟩
  · have hnil : (Pool.idle w : System).world.history = [] := hh
    refine ⟨fun i b h => ?_, fun i p h => ?_⟩ <;> rw [hnil] at h <;> cases h

/-- A branch is registered, then `prepare_xa` and `commit_xa` go through. -/
theorem registrations_kept_xa : ∃ P : System,
    (inMemory.restrict (Fresh "g")).Reaches (Dtm.plain.Programs fun _ => True)
      (.initial [.new 0 "g" .xa []]) P ∧
    P.world.HasStatus "g" .succeeded ∧
    (0, .registered "g" (.xa "b" "commit" "rollback" .null)) ∈ P.world.history ∧
    Kept "g" P.world := by
  obtain ⟨P, hP, hφ⟩ := Dtm.exists_run (inMemory.restrict (Fresh "g")) .plain (fun _ => True)
    (.initial [.new 0 "g" .xa []])
    (.start (.registerBranch "g" (.xa "b" "commit" "rollback" .null)) :: .start (.prepareXa "g") ::
      .start (.commitXa "g") :: steps 0 1 true ++ steps 1 2 true ++ steps 2 5 true)
    (fun w => w.statusOf "g" = some .succeeded &&
      (0, .registered "g" (.xa "b" "commit" "rollback" .null)) ∈ w.history)
    (fun _ _ => trivial) (by decide)
  rw [Bool.and_eq_true, decide_eq_true_eq, decide_eq_true_eq] at hφ
  exact ⟨P, hP, World.hasStatus_iff.mpr hφ.1, hφ.2,
    registrations_kept .plain (World.keyed_initial _) rfl hP⟩

/-- `prepare_xa` has read the record, `register_branch` adds a branch and returns `Ok`, and
`prepare_xa` writes the record back without it. -/
theorem registration_lost : ∃ P : System,
    inMemory.Reaches (Dtm.plain.Programs fun _ => True) (.initial [.new 0 "g" .xa []]) P ∧
    (1, .registered "g" (.xa "b" "commit" "rollback" .null)) ∈ P.world.history ∧
    ∀ s, P.world.txs["g"]? = some s → s.branches = [] := by
  obtain ⟨P, hP, hφ⟩ := Dtm.exists_run inMemory .plain (fun _ => True)
    (.initial [.new 0 "g" .xa []])
    (.start (.prepareXa "g") :: .start (.registerBranch "g" (.xa "b" "commit" "rollback" .null)) ::
      steps 0 1 true ++ steps 1 1 true ++ steps 0 1 true)
    (fun w => (w.txs["g"]?).all (fun s => s.branches = []) &&
      (1, .registered "g" (.xa "b" "commit" "rollback" .null)) ∈ w.history)
    (fun _ _ => trivial) (by decide)
  rw [Bool.and_eq_true, decide_eq_true_eq] at hφ
  refine ⟨P, hP, hφ.2, fun s hs => ?_⟩
  have h := hφ.1
  rw [hs] at h
  simpa using h

end RozeDtm
