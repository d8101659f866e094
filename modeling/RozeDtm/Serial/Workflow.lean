import RozeDtm.Serial.Frame
import RozeDtm.Session.Workflow

/-!
# Static Workflows, one operation after another

`WorkflowInv` is what holds of a static Workflow between operations that run one after
another: a branch whose action succeeded is stored as Succeeded or Compensating until its
compensation has succeeded, and a barrier of a compensation is taken only when it has.
`start_workflow` and `abort_workflow` keep it, and with it that an Aborted Workflow is
compensated, as long as Aborted is not written over a branch that is left Compensating.
-/

namespace RozeDtm

open Conc

/-- Every action that has succeeded was compensated, if the Workflow is Aborted. -/
def WorkflowCompensated (g : String) (h : List (Nat × Event)) (s : Transaction) : Prop :=
  s.status = .aborted → ∀ b ∈ s.branches,
    Succeeded h (b.key g "workflow") → Succeeded h (b.key g "workflow_rollback")

/-- The stored record is compensated if it is Aborted. -/
def World.WorkflowCompensated (g : String) (w : World) : Prop :=
  ∀ s, w.txs[g]? = some s → RozeDtm.WorkflowCompensated g w.history s

/-- Aborted is not written over a record of `g` with a branch that is Compensating. -/
def NoneCompensating (g : String) (o : Effect) (w : World) : Prop :=
  ∀ tx ∈ o.write?, tx.gid = g → tx.status = .aborted →
    ∀ s ∈ w.txs[g]?, ∀ b ∈ s.branches, b.status ≠ .compensating

instance (g : String) (o : Effect) (w : World) : Decidable (NoneCompensating g o w) :=
  inferInstanceAs (Decidable (∀ tx ∈ o.write?, _ → _ → ∀ s ∈ w.txs[g]?, ∀ b ∈ s.branches, _))

/-- A branch whose action has succeeded is marked for compensation, or was compensated. -/
def MarkedOrUndone (g : String) (h : List (Nat × Event)) (b : Branch) : Prop :=
  Succeeded h (b.key g "workflow") →
    b.status = .succeeded ∨ b.status = .compensating ∨ Succeeded h (b.key g "workflow_rollback")

/-- What the stored record of a static Workflow says of its actions. -/
structure StaticWorkflow (g : String) (h : List (Nat × Event)) (s : Transaction) : Prop where
  gid : s.gid = g
  kind : s.kind = .workflow
  static : isCallbackWorkflow s = false
  ids : (s.branches.map Branch.id).Nodup
  compensate : ∀ b ∈ s.branches, b.compensate ≠ none
  marked : ∀ b ∈ s.branches, MarkedOrUndone g h b
  compensated : WorkflowCompensated g h s

/-- The world while an operation on the Workflow `g` is between two branches; `s` is the
stored record. -/
structure WorkflowAt (g : String) (s : Transaction) (w : World) : Prop where
  keyed : w.Keyed
  held : ∀ b ∈ w.barriers, b.gid = g → b.op = "workflow_rollback" → Succeeded w.history b
  stored : w.txs[g]? = some s
  record : StaticWorkflow g w.history s

/-- What holds of the Workflow `g` between operations. -/
def WorkflowInv (g : String) (w : World) : Prop := ∃ s, WorkflowAt g s w

section Records

variable {g : String} {s s' : Transaction} {h h' : List (Nat × Event)} {w w' : World}

/-- The record of a run grows, and no action has succeeded in between. -/
structure Continues (g : String) (h h' : List (Nat × Event)) : Prop where
  grows : ∀ b, Succeeded h b → Succeeded h' b
  noAction : ∀ b, b.gid = g → b.op = "workflow" → Succeeded h' b → Succeeded h b

theorem Continues.refl (g : String) (h : List (Nat × Event)) : Continues g h h :=
  ⟨fun _ => id, fun _ _ _ => id⟩

/-- An entry that is not the success of an action of `g`. -/
theorem Continues.cons {entry : Nat × Event} (he : Continues g h h')
    (hn : ∀ c ∈ entry.2.success?, c.gid = g → c.op ≠ "workflow") : Continues g h (entry :: h') := by
  refine ⟨fun b hb => (he.grows b hb).cons, fun b hbg hop hb => ?_⟩
  rcases succeeded_cons.mp hb with ⟨c, hc, rfl⟩ | hb
  · exact absurd hop (hn c hc hbg)
  · exact he.noAction b hbg hop hb

theorem MarkedOrUndone.extends {b : Branch} (hb : MarkedOrUndone g h b) (he : Continues g h h') :
    MarkedOrUndone g h' b := by
  intro hs
  rcases hb (he.noAction _ rfl rfl hs) with hb | hb | hb
  · exact Or.inl hb
  · exact Or.inr (Or.inl hb)
  · exact Or.inr (Or.inr (he.grows _ hb))

theorem StaticWorkflow.extends (hs : StaticWorkflow g h s) (he : Continues g h h') :
    StaticWorkflow g h' s where
  gid := hs.gid
  kind := hs.kind
  static := hs.static
  ids := hs.ids
  compensate := hs.compensate
  marked := fun b hb => (hs.marked b hb).extends he
  compensated := fun hst b hb hact =>
    he.grows _ (hs.compensated hst b hb (he.noAction _ rfl rfl hact))

/-- A record with the same ids in its branches that a write of the Workflow leaves. -/
theorem StaticWorkflow.rewritten (hs : StaticWorkflow g h s) (hg : s'.gid = s.gid)
    (hk : s'.kind = s.kind) (hm : s'.metadata = s.metadata)
    (hids : s'.branches.map Branch.id = s.branches.map Branch.id)
    (hcomp : ∀ b ∈ s'.branches, b.compensate ≠ none)
    (hmarked : ∀ b ∈ s'.branches, MarkedOrUndone g h' b)
    (hc : WorkflowCompensated g h' s') : StaticWorkflow g h' s' where
  gid := hg.trans hs.gid
  kind := hk.trans hs.kind
  static := by
    have hempty : s'.branches.isEmpty = s.branches.isEmpty := by
      rw [← List.isEmpty_map, hids, List.isEmpty_map]
    rw [← hs.static, isCallbackWorkflow, isCallbackWorkflow, hk, hm, hempty]
  ids := by
    rw [hids]
    exact hs.ids
  compensate := hcomp
  marked := hmarked
  compensated := hc

/-- The world where only the record of the run, the clock and the barriers have changed. -/
theorem WorkflowAt.extends (hw : WorkflowAt g s w) (htxs : w'.txs = w.txs)
    (he : Continues g w.history w'.history)
    (hheld : ∀ b ∈ w'.barriers, b.gid = g → b.op = "workflow_rollback" →
      b ∈ w.barriers ∨ Succeeded w'.history b) : WorkflowAt g s w' where
  keyed := by
    rw [World.Keyed, htxs]
    exact hw.keyed
  held := fun b hb hbg hop =>
    (hheld b hb hbg hop).elim (fun hb => he.grows b (hw.held b hb hbg hop)) id
  stored := by
    rw [htxs]
    exact hw.stored
  record := hw.record.extends he

theorem WorkflowAt.setClock (hw : WorkflowAt g s w) (now : Nat) :
    WorkflowAt g s (w.setClock now) :=
  hw.extends rfl (.refl ..) fun _ hb _ _ => Or.inl hb

/-- A compensation under a free barrier has succeeded. -/
theorem WorkflowAt.undone (hw : WorkflowAt g s w) (i now now' : Nat) (call : BranchCall)
    (hop : call.op = "workflow_rollback")
    (hw' : w' = (((w.setClock now).claimed i call.barrier).called i call true).setClock now') :
    WorkflowAt g s w' ∧ Continues g w.history w'.history ∧ Succeeded w'.history call.barrier := by
  subst hw'
  have hdone : Succeeded ((w.claimed i call.barrier).called i call true).history call.barrier :=
    succeeded_cons.mpr (Or.inl ⟨call, rfl, rfl⟩)
  have he : Continues g w.history ((w.claimed i call.barrier).called i call true).history := by
    refine (((Continues.refl g w.history).cons ?_).cons ?_).cons fun c hc _ hact => ?_
    · simp [Event.success?]
    · simp [Event.success?]
    · cases hc
      exact absurd (hact.symm.trans hop) (by decide)
  refine ⟨hw.extends rfl he fun b hb _ _ => ?_, he, hdone⟩
  rcases Finset.mem_insert.mp hb with rfl | hb
  · exact Or.inr hdone
  · exact Or.inl hb

/-- A call under a free barrier has failed, and the barrier is given back. -/
theorem WorkflowAt.givenBack (hw : WorkflowAt g s w) (i now now' now'' : Nat) (call : BranchCall)
    (hw' : w' = (InMemory.releaseBarrier (((((w.setClock now).claimed i call.barrier).called i
      call false).setClock now').setClock now'') call.barrier).note i (.released call.barrier)) :
    WorkflowAt g s w' ∧ Continues g w.history w'.history := by
  subst hw'
  have he : Continues g w.history ((i, .released call.barrier) ::
      ((w.claimed i call.barrier).called i call false).history) := by
    refine ((((Continues.refl g w.history).cons ?_).cons ?_).cons ?_).cons ?_ <;>
      simp [Event.success?]
  refine ⟨hw.extends rfl he fun b hb _ _ => Or.inl ?_, he⟩
  obtain ⟨hne, hb⟩ := Finset.mem_erase.mp hb
  exact (Finset.mem_insert.mp hb).resolve_left hne

/-- The world after the record was written. -/
theorem WorkflowAt.put {tx : Transaction} {now : Nat} (hk : w.Keyed)
    (hheld : ∀ b ∈ w.barriers, b.gid = g → b.op = "workflow_rollback" → Succeeded w.history b)
    (htx : StaticWorkflow g w.history tx) :
    WorkflowAt g (bumpTransactionRevision now tx) (w.put (bumpTransactionRevision now tx)) where
  keyed := hk.put _
  held := hheld
  stored := by
    have hg : (bumpTransactionRevision now tx).gid = g := htx.gid
    rw [World.put_txs, hg]
    exact Std.ExtTreeMap.getElem?_insert_self
  record := ⟨htx.gid, htx.kind, htx.static, htx.ids, htx.compensate, htx.marked,
    htx.compensated⟩

theorem WorkflowInv.setClock (hw : WorkflowInv g w) (now : Nat) : WorkflowInv g (w.setClock now) :=
  hw.imp fun _ h => h.setClock now

/-- An operation on another transaction keeps the Workflow as it is. -/
theorem WorkflowInv.same (hw : WorkflowInv g w) (h : w'.Keyed ∧ SameOf g w w') :
    WorkflowInv g w' := by
  obtain ⟨s, hs⟩ := hw
  obtain ⟨hk, hsame⟩ := h
  have hiff {b : BranchBarrier} (hb : b.gid = g) :
      Succeeded w'.history b ↔ Succeeded w.history b := hsame.succeeded hb
  refine ⟨s, hk, fun b hb hbg hop => ?_, hsame.txs.trans hs.stored, ?_⟩
  · exact (hiff hbg).mpr (hs.held b ((hsame.barriers b hbg).mp hb) hbg hop)
  · have hr := hs.record
    refine ⟨hr.gid, hr.kind, hr.static, hr.ids, hr.compensate, fun b hb hact => ?_,
      fun hst b hb hact => ?_⟩
    · rw [hiff rfl] at hact
      rw [hiff rfl]
      exact hr.marked b hb hact
    · rw [hiff rfl] at hact
      rw [hiff rfl]
      exact hr.compensated hst b hb hact

theorem WorkflowInv.compensated (hw : WorkflowInv g w) : w.WorkflowCompensated g := by
  obtain ⟨s, hs⟩ := hw
  intro s' hs'
  cases hs.stored.symm.trans hs'
  exact hs.record.compensated

/-- While the stored record is not Aborted there is nothing to show. -/
theorem WorkflowAt.notAborted (hw : WorkflowAt g s w) (hst : s.status ≠ .aborted)
    (htxs : w'.txs = w.txs) : w'.WorkflowCompensated g := by
  intro s' hs' ha
  rw [htxs] at hs'
  cases hw.stored.symm.trans hs'
  exact absurd ha hst

end Records

section Operations

variable {g : String} {dtm : Dtm} {i : Nat} {s : Transaction} {w : World}

/-- An operation keeps the Workflow `g`, however it ends. -/
def KeepsWorkflow {α : Type} (g : String) (i : Nat) (x : Act α) (w : World) : Prop :=
  (alone (NoneCompensating g)).Runs (World.WorkflowCompensated g) i x (fun _ => WorkflowInv g)
    (fun _ => WorkflowInv g) w

/-- What is left of a branch that `abort_workflow` has passed; `s` is the stored record. -/
structure Unwound (g : String) (h : List (Nat × Event)) (s : Transaction) (b : Branch) :
    Prop where
  compensate : b.compensate ≠ none
  done : Succeeded h (b.key g "workflow") →
    b.status = .compensating ∨ Succeeded h (b.key g "workflow_rollback")
  left : b.status = .compensating → ∃ a ∈ s.branches, a.status = .compensating

theorem Unwound.extends {h h' : List (Nat × Event)} {b : Branch} (hb : Unwound g h s b)
    (he : Continues g h h') : Unwound g h' s b :=
  ⟨hb.compensate, fun hact => (hb.done (he.noAction _ rfl rfl hact)).imp id (he.grows _), hb.left⟩

theorem Unwound.marked {h : List (Nat × Event)} {b : Branch} (hb : Unwound g h s b) :
    MarkedOrUndone g h b :=
  fun hact => Or.inr (hb.done hact)

/-- A branch that the loop leaves as one it need not compensate. -/
theorem Unwound.skipped {h : List (Nat × Event)} {b : Branch} (hc : b.compensate ≠ none)
    (hst : b.status = .skipped)
    (hd : Succeeded h (b.key g "workflow") → Succeeded h (b.key g "workflow_rollback")) :
    Unwound g h s b :=
  ⟨hc, fun hact => Or.inr (hd hact), fun hcomp => by rw [hst] at hcomp; cases hcomp⟩

/-- A stored branch that is not Succeeded, and how the loop passes it by. -/
theorem Unwound.passedBy {h : List (Nat × Event)} {b : Branch} (hs : StaticWorkflow g h s)
    (hb : b ∈ s.branches) (hns : b.status ≠ .succeeded) :
    Unwound g h s (if b.status = .pending then { b with status := .skipped } else b) := by
  have hmarked := hs.marked b hb
  split
  · rename_i hp
    refine .skipped (hs.compensate b hb) rfl fun hact => ?_
    rcases hmarked hact with h | h | h
    · exact absurd h hns
    · exact absurd (hp.symm.trans h) (by decide)
    · exact h
  · exact ⟨hs.compensate b hb, fun hact => (hmarked hact).resolve_left hns,
      fun hc => ⟨b, hb, hc⟩⟩

/-- Writing the record of the Workflow. -/
theorem runs_persistWorkflow {tx : Transaction} {Q : Transaction → World → Prop}
    (hφ : ∀ w' : World, w'.txs = w.txs → w'.WorkflowCompensated g) (hw : w.Keyed)
    (hheld : ∀ b ∈ w.barriers, b.gid = g → b.op = "workflow_rollback" → Succeeded w.history b)
    (htx : NoneCompensating g (.updateTransaction tx) w → StaticWorkflow g w.history tx)
    (h : ∀ now w', w'.history = w.history → WorkflowAt g (bumpTransactionRevision now tx) w' →
      Q tx.written w') :
    (alone (NoneCompensating g)).Runs (World.WorkflowCompensated g) i (persistTransaction tx) Q
      (fun _ => WorkflowInv g) w := by
  refine runs_persistTransaction (fun _ => hφ _ rfl) fun now hallow => h now _ rfl ?_
  have hclock : (w.setClock now).Keyed := hw
  exact .put hclock hheld (htx hallow)

/-- **The loop of `abort_workflow`.** -/
theorem keeps_abortWorkflowLoop {tx : Transaction} {ahead passed : List Branch}
    (hw : WorkflowAt g s w) (hst : s.status ≠ .aborted) (hg : tx.gid = g)
    (hk : tx.kind = .workflow) (hm : tx.metadata = s.metadata) (htx : tx.status = .aborting)
    (hids : (ahead.reverse ++ passed).map Branch.id = s.branches.map Branch.id)
    (hahead : ∀ b ∈ ahead, b ∈ s.branches) (hpassed : ∀ b ∈ passed, Unwound g w.history s b) :
    KeepsWorkflow g i (dtm.abortWorkflowLoop tx ahead passed) w := by
  subst hg
  have hg := hw.record.gid.symm
  replace hk := hk.trans hw.record.kind.symm
  induction ahead generalizing w passed with
  | nil =>
    refine runs_persistWorkflow (fun _ => hw.notAborted hst) hw.keyed hw.held (fun hallow => ?_)
      fun _ _ _ hw' => ⟨_, hw'⟩
    have hnone := hallow _ rfl rfl rfl s hw.stored
    refine hw.record.rewritten (by exact hg) (by exact hk) (by exact hm) hids
      (fun b hb => (hpassed b hb).compensate) (fun b hb => (hpassed b hb).marked)
      fun _ b hb hact => ?_
    refine ((hpassed b hb).done hact).resolve_left fun hc => ?_
    obtain ⟨a, ha, hac⟩ := (hpassed b hb).left hc
    exact hnone a ha hac
  | cons branch ahead ih =>
    have hmem : branch ∈ s.branches := hahead branch (.head _)
    have hrest : ∀ b ∈ ahead, b ∈ s.branches := fun b hb => hahead b (.tail _ hb)
    have hopen (w' : World) (h : w'.txs = w.txs) : w'.WorkflowCompensated tx.gid :=
      hw.notAborted hst h
    rw [Dtm.abortWorkflowLoop]
    split
    · -- a branch that is not Succeeded is passed by
      rename_i hns
      refine ih ?_ hrest hw fun b hb => ?_
      · rw [← hids]
        split <;> simp
      · rcases List.mem_cons.mp hb with rfl | hb
        · exact .passedBy hw.record hmem hns
        · exact hpassed b hb
    · have hcomp : branch.compensate ≠ none := hw.record.compensate branch hmem
      refine Machine.runs_bind.mpr (runs_barrier (show "workflow_rollback" ≠ "try" by decide)
        (show "workflow_rollback" ≠ "cancel" by decide) (fun _ => hopen _ rfl) (fun now hb => ?_)
        fun now hb => ?_)
      · -- the barrier is taken: the compensation has succeeded
        have he : Continues tx.gid w.history ((i, .decided ⟨tx.gid, branch.id, "workflow_rollback"⟩
            .skipDuplicate) :: w.history) := (Continues.refl ..).cons (by simp [Event.success?])
        refine ih ?_ hrest (hw.extends rfl he fun _ hb _ _ => Or.inl hb) fun b hb' => ?_
        · simpa using hids
        · rcases List.mem_cons.mp hb' with rfl | hb'
          · exact .skipped (by exact hcomp) rfl fun _ => he.grows _ (hw.held _ hb rfl rfl)
          · exact (hpassed b hb').extends he
      · simp only [if_true, Machine.runs_bind]
        refine runs_ofOption (fun compensate _ => ?_) fun h => absurd h hcomp
        refine runs_invokeBranch (fun w' h => hopen w' h) (fun now' => ?_)
          fun now' b' hdef hst' => ?_
        · -- the compensation has succeeded
          obtain ⟨hw', he, hdone⟩ := hw.undone i now now' (Dtm.branchCall tx.options tx.gid
            { branch with attempts := satAdd32 branch.attempts 1 } compensate
            "workflow_rollback") rfl rfl
          refine ih ?_ hrest hw' fun b hb' => ?_
          · simpa using hids
          · rcases List.mem_cons.mp hb' with rfl | hb'
            · exact .skipped (by exact hcomp) rfl fun _ => hdone
            · exact (hpassed b hb').extends he
        · -- the compensation has failed: the branch is written as Compensating
          simp only [Bool.false_eq_true, if_false, Machine.runs_bind]
          refine runs_releaseBarrier (fun _ => hopen _ rfl) fun now'' => ?_
          obtain ⟨hw', he⟩ := hw.givenBack i now now' now'' (Dtm.branchCall tx.options tx.gid
            { branch with attempts := satAdd32 branch.attempts 1 } compensate
            "workflow_rollback") rfl
          refine runs_persistWorkflow (fun _ => hw'.notAborted hst) hw'.keyed hw'.held
            (fun _ => ?_) fun _ _ _ hw' => ⟨_, hw'⟩
          have hid : b'.id = branch.id := Branch.id_eq hdef
          refine hw'.record.rewritten (by exact hg) (by exact hk) (by exact hm) ?_ (fun b hb => ?_)
            (fun b hb => ?_) fun h => absurd (htx.symm.trans h) (by decide)
          · rw [← hids]
            simp [hid]
          · rcases List.mem_append.mp hb with hb | hb
            · exact hw.record.compensate b (hrest b (List.mem_reverse.mp hb))
            · rcases List.mem_cons.mp hb with rfl | hb
              · have hc : b'.compensate = branch.compensate := Branch.compensate_eq hdef
                exact hc ▸ hcomp
              · exact (hpassed b hb).compensate
          · rcases List.mem_append.mp hb with hb | hb
            · exact (hw.record.marked b (hrest b (List.mem_reverse.mp hb))).extends he
            · rcases List.mem_cons.mp hb with rfl | hb
              · exact fun _ => Or.inr (Or.inl rfl)
              · exact ((hpassed b hb).extends he).marked

/-- `abort_workflow`. -/
theorem keeps_abortWorkflow (hw : WorkflowInv g w) : KeepsWorkflow g i (dtm.abortWorkflow g) w := by
  refine Machine.runs_bind.mpr (runs_transactionOfKind (fun now => (hw.setClock now).compensated)
    (fun now tx htx hk => ?_) fun now _ => hw.setClock now)
  obtain ⟨_, hs⟩ := hw.setClock now
  cases hs.stored.symm.trans htx
  split
  · exact ⟨tx, hs⟩
  · rename_i hst
    rw [Machine.runs_bind, runs_ofExcept]
    split
    · refine keeps_abortWorkflowLoop hs hst hs.record.gid hk rfl rfl ?_ (fun b hb => ?_)
        fun b hb => ?_
      · simp
      · simpa using hb
      · cases hb
    · exact ⟨tx, hs⟩

/-- The action of a branch has succeeded under a free barrier, and the branch is written as
Succeeded. -/
theorem StaticWorkflow.acted {before after : List Branch} {b b' : Branch} {tx : Transaction}
    (hs : StaticWorkflow g w.history s) (i now now' : Nat) (call : BranchCall) (hb : s.branches = before ++ b :: after) (hid : b'.id = b.id)
    (hcomp : b'.compensate = b.compensate) (hst : b'.status = .succeeded)
    (hc : call.barrier = b.key g "workflow") (hg : tx.gid = g) (hk : tx.kind = .workflow)
    (hm : tx.metadata = s.metadata) (htx : tx.status ≠ .aborted)
    (hbs : tx.branches = before ++ b' :: after) :
    StaticWorkflow g ((((w.setClock now).claimed i call.barrier).called i call true).setClock
      now').history tx := by
  have hsucc (x : BranchBarrier) : Succeeded ((((w.setClock now).claimed i call.barrier).called i
      call true).setClock now').history x ↔ call.barrier = x ∨ Succeeded w.history x := by
    simp [succeeded_cons, Event.success?]
  have hids : tx.branches.map Branch.id = s.branches.map Branch.id := by
    rw [hbs, hb]
    simp [hid]
  refine hs.rewritten (hg.trans hs.gid.symm) (hk.trans hs.kind.symm) hm hids ?_ (fun a ha => ?_)
    fun h => absurd h htx
  · rw [hbs]
    have hall := hs.compensate
    rw [hb] at hall
    exact forall_mem_exchange hall (hcomp ▸ hall b (by simp))
  · -- the ids are distinct, so no other branch is meant
    have hother (hne : a.id ≠ b.id) (ha : a ∈ s.branches) : MarkedOrUndone g
        ((((w.setClock now).claimed i call.barrier).called i call true).setClock now').history
        a := by
      intro hact
      rw [hsucc] at hact ⊢
      have hkey : call.barrier ≠ a.key g "workflow" := by
        rw [hc]
        exact fun h => hne (congrArg BranchBarrier.branchId h).symm
      exact (hs.marked a ha (hact.resolve_left hkey)).imp id (Or.imp id Or.inr)
    have hnodup := hs.ids
    rw [hb, List.map_append, List.map_cons, List.nodup_append, List.nodup_cons] at hnodup
    obtain ⟨-, ⟨hafter, -⟩, hbefore⟩ := hnodup
    rw [hbs] at ha
    rcases List.mem_append.mp ha with ha | ha
    · have hne : a.id ≠ b.id := hbefore _ (List.mem_map_of_mem ha) _ (.head _)
      exact hother hne (by rw [hb]; exact List.mem_append_left _ ha)
    · rcases List.mem_cons.mp ha with rfl | ha
      · exact fun _ => Or.inl hst
      · have hne : a.id ≠ b.id := fun h => hafter (h ▸ List.mem_map_of_mem ha)
        exact hother hne (by rw [hb]; simp [ha])

/-- **The loop of `start_workflow`.** -/
theorem keeps_startWorkflowLoop {fuel : Nat} {tx : Transaction} (hw : WorkflowAt g s w)
    (hst : s.status ≠ .aborted) (hg : tx.gid = g) (hk : tx.kind = .workflow)
    (hm : tx.metadata = s.metadata) (hbs : tx.branches = s.branches)
    (htx : tx.status = .succeeding) :
    KeepsWorkflow g i (dtm.startWorkflowLoop g fuel tx) w := by
  induction fuel generalizing s tx w with
  | zero => exact ⟨s, hw⟩
  | succ fuel ih =>
    subst hg
    have hopen (w' : World) (h : w'.txs = w.txs) : w'.WorkflowCompensated tx.gid :=
      hw.notAborted hst h
    have hgid : tx.gid = s.gid := hw.record.gid.symm
    have hkind : tx.kind = s.kind := hk.trans hw.record.kind.symm
    rw [Dtm.startWorkflowLoop]
    split
    · split
      · refine runs_persistWorkflow hopen hw.keyed hw.held (fun _ => ?_) fun _ _ _ hw' => ⟨_, hw'⟩
        refine hw.record.rewritten (by exact hgid) (by exact hkind) (by exact hm) ?_ (fun b hb => ?_)
          (fun b hb => ?_) fun h => (by cases h)
        · exact congrArg (List.map Branch.id) hbs
        · exact hw.record.compensate b (hbs ▸ hb)
        · exact hw.record.marked b (hbs ▸ hb)
      · exact ⟨s, hw⟩
    · rename_i before branch after hnext
      have hsplit : s.branches = before ++ branch :: after :=
        hbs ▸ nextWorkflowBranch_eq_some hnext
      refine Machine.runs_bind.mpr (runs_barrier (show "workflow" ≠ "try" by decide)
        (show "workflow" ≠ "cancel" by decide) (fun _ => hopen _ rfl) (fun now hb => ?_)
        fun now hb => ?_)
      · -- another attempt holds the barrier
        simp only [ne_eq, reduceCtorEq, not_false_eq_true, if_true]
        have hw' : WorkflowAt tx.gid s ((w.setClock now).note i
            (.decided ⟨tx.gid, branch.id, "workflow"⟩ .skipDuplicate)) :=
          hw.extends rfl ((Continues.refl ..).cons (by simp [Event.success?]))
            fun _ hb _ _ => Or.inl hb
        exact runs_loadTransaction (fun _ => hopen _ rfl) (fun now _ _ => ⟨s, hw'.setClock now⟩)
          fun now _ _ => ⟨s, hw'.setClock now⟩
      · simp only [ne_eq, not_true_eq_false, if_false, Machine.runs_bind]
        refine runs_invokeBranch hopen (fun now' => ?_) fun now' b' hdef hst' => ?_
        · -- the action has succeeded
          simp only [if_true, Machine.runs_bind]
          refine runs_persistWorkflow (fun _ => hw.notAborted hst) hw.keyed (fun b hb hbg hop => ?_)
            (fun _ => ?_) fun now'' w' _ hw' => ?_
          · rcases Finset.mem_insert.mp hb with rfl | hb
            · exact absurd hop (show "workflow" ≠ "workflow_rollback" by decide)
            · exact (hw.held b hb hbg hop).cons.cons.cons
          · refine hw.record.acted i now now' (Dtm.branchCall tx.options tx.gid
              { branch with status := .running, attempts := satAdd32 branch.attempts 1 }
              branch.action "workflow") hsplit ?_ ?_ ?_ rfl rfl hk hm ?_ rfl
            · rfl
            · rfl
            · rfl
            · exact fun h => absurd (htx.symm.trans h) (by decide)
          · exact ih hw' (fun h => absurd (htx.symm.trans h) (by decide)) rfl hk rfl rfl htx
        · -- the action has failed, and what has succeeded is compensated
          simp only [Bool.false_eq_true, if_false, Machine.runs_bind]
          refine runs_releaseBarrier (fun _ => hopen _ rfl) fun now'' => ?_
          obtain ⟨hw', he⟩ := hw.givenBack i now now' now'' (Dtm.branchCall tx.options tx.gid
            { branch with status := .running, attempts := satAdd32 branch.attempts 1 }
            branch.action "workflow") rfl
          refine runs_persistWorkflow (fun _ => hw'.notAborted hst) hw'.keyed hw'.held
            (fun _ => ?_) fun _ _ _ hw' => keeps_abortWorkflow ⟨_, hw'⟩
          have hid : b'.id = branch.id := Branch.id_eq hdef
          have hcomp : b'.compensate = branch.compensate := Branch.compensate_eq hdef
          have hmem : branch ∈ s.branches := by rw [hsplit]; simp
          refine hw'.record.rewritten (by exact hgid) (by exact hkind) (by exact hm) ?_ ?_ ?_
            fun h => (by cases h)
          · rw [hsplit]
            simp [hid]
          · refine forall_mem_exchange (hsplit ▸ hw.record.compensate) ?_
            exact hcomp ▸ hw.record.compensate branch hmem
          · refine forall_mem_exchange (hsplit ▸ hw'.record.marked) fun hact => ?_
            have hkey (op : String) : b'.key tx.gid op = branch.key tx.gid op :=
              Branch.key_eq (by exact hdef) tx.gid op
            have hnot := nextWorkflowBranch_status hnext
            rcases hw'.record.marked branch hmem (hkey "workflow" ▸ hact) with h | h | h
            · rw [h] at hnot
              exact absurd hnot (by decide)
            · rw [h] at hnot
              exact absurd hnot (by decide)
            · exact Or.inr (Or.inr ((hkey "workflow_rollback").symm ▸ h))

/-- `start_workflow`. -/
theorem keeps_startWorkflow (hw : WorkflowInv g w) : KeepsWorkflow g i (dtm.startWorkflow g) w := by
  refine Machine.runs_bind.mpr (runs_transactionOfKind (fun now => (hw.setClock now).compensated)
    (fun now tx htx hk => ?_) fun now _ => hw.setClock now)
  obtain ⟨_, hs⟩ := hw.setClock now
  cases hs.stored.symm.trans htx
  split
  · exact ⟨tx, hs⟩
  · rw [Machine.runs_bind, runs_ofExcept]
    split
    · rw [Machine.runs_bind, runs_ofExcept]
      split
      · rename_i hallowed
        have hst : tx.status ≠ .aborted := by
          intro hst
          have hmem := ensureStatus_eq_ok.mp hallowed
          rw [hst] at hmem
          exact absurd hmem (by decide)
        exact keeps_startWorkflowLoop hs hst hs.record.gid hk rfl rfl rfl
      · exact ⟨tx, hs⟩
    · exact ⟨tx, hs⟩

/-- `schedule_abort`. -/
theorem keeps_scheduleAbort (hw : WorkflowInv g w) : KeepsWorkflow g i (Dtm.scheduleAbort g) w := by
  refine Machine.runs_bind.mpr (runs_loadTransaction (fun now => (hw.setClock now).compensated)
    (fun now tx htx => ?_) fun now _ _ => hw.setClock now)
  obtain ⟨_, hs⟩ := hw.setClock now
  cases hs.stored.symm.trans htx
  have hkind : ¬ tx.kind = .message := by
    rw [hs.record.kind]
    decide
  split
  · exact ⟨tx, hs⟩
  · rename_i hst
    rw [Machine.runs_bind, runs_ofExcept]
    split
    · refine runs_persistWorkflow (fun _ => hs.notAborted hst) hs.keyed hs.held (fun _ => ?_)
        fun _ _ _ hw' => ⟨_, hw'⟩
      have hr := hs.record
      refine hr.rewritten rfl rfl rfl ?_ (fun b hb => ?_) (fun b hb => ?_) fun h => (nomatch h)
      · simp [Function.comp_def]
      · obtain ⟨a, ha, rfl⟩ := List.mem_map.mp hb
        exact hr.compensate a ha
      · obtain ⟨a, ha, rfl⟩ := List.mem_map.mp hb
        exact hr.marked a ha
    · exact ⟨tx, hs⟩

/-- What the recovery runs for a status of the Workflow. -/
theorem keeps_resume {status : TransactionStatus} {move : Act Transaction} (hw : WorkflowInv g w)
    (h : dtm.resume g .workflow status = some move) : KeepsWorkflow g i move w := by
  rw [Dtm.resume.eq_def] at h
  cases status with
  | submitted | succeeding =>
    cases h
    exact keeps_startWorkflow hw
  | aborting =>
    cases h
    exact keeps_abortWorkflow hw
  | trying | prepared | succeeded | aborted | failed => cases h

/-- What the recovery runs for the Workflow past its timeout. -/
theorem keeps_expire {tx : Transaction} (hw : WorkflowInv g w) (hg : tx.gid = g)
    (hk : tx.kind = .workflow) (hstatic : isCallbackWorkflow tx = false) :
    KeepsWorkflow g i (dtm.expire tx) w := by
  rw [Dtm.expire, hk, hstatic, hg]
  exact keeps_abortWorkflow hw

theorem keeps_recoverMove {status : TransactionStatus} (hw : WorkflowInv g w) :
    KeepsWorkflow g i (dtm.recoverMove g .workflow status) w := by
  have hmove : dtm.recoverMove g .workflow status = (dtm.resume g .workflow status).getD
      (throw s!"transaction {g} is in non-replayable state {status.debug}") := rfl
  rw [hmove]
  cases h : dtm.resume g .workflow status with
  | none => exact hw
  | some move => exact keeps_resume hw h

/-- `recover`. -/
theorem keeps_recover (hw : WorkflowInv g w) : KeepsWorkflow g i (dtm.recover g) w := by
  refine Machine.runs_bind.mpr (runs_loadTransaction (fun now => (hw.setClock now).compensated)
    (fun now tx htx => ?_) fun now _ _ => hw.setClock now)
  obtain ⟨_, hs⟩ := hw.setClock now
  cases hs.stored.symm.trans htx
  have hkind : ¬ (tx.kind = .message ∧ tx.status = .succeeding) := by
    rw [hs.record.kind]
    exact fun h => absurd h.1 (by decide)
  have hstatic : ¬ isCallbackWorkflow tx = true := by
    rw [hs.record.static]
    decide
  split
  · exact ⟨tx, hs⟩
  · simp only [Machine.runs_bind, Machine.runs_pure, Bool.false_eq_true, if_false]
    refine runs_call (fun now' => WorkflowInv.compensated ⟨tx, hs.setClock now'⟩) fun now' c _ => ?_
    have hw' : WorkflowInv g ((w.setClock now).setClock now') := ⟨tx, hs.setClock now'⟩
    split
    · exact keeps_expire hw' hs.record.gid hs.record.kind hs.record.static
    · rw [hs.record.kind]
      exact keeps_recoverMove hw'

/-- An operation on another transaction. -/
theorem keeps_other {α : Type} {gid : String} {x : Act α} {Q : Unit → α → Prop}
    (hw : WorkflowInv g w) (hg : gid ≠ g) (hx : (within gid).Does x () Q) :
    KeepsWorkflow g i x w := by
  have hkeyed : w.Keyed := by
    obtain ⟨s, hs⟩ := hw
    exact hs.keyed
  refine (ends_frame hg hkeyed (fun w' h => (hw.same h).compensated) hx i).mono fun r w' h => ?_
  cases r <;> exact hw.same h

/-- What the recovery tick does with a listed transaction. -/
theorem keeps_tickMove {now : Nat} {tx : Transaction} {move : Act Transaction}
    (hw : WorkflowInv g w) (h : dtm.tickMove now tx = some move)
    (htx : tx.gid = g → tx.kind = .workflow ∧ isCallbackWorkflow tx = false) :
    KeepsWorkflow g i move w := by
  by_cases hg : tx.gid = g
  · obtain ⟨hk, hstatic⟩ := htx hg
    rw [Dtm.tickMove] at h
    split at h
    · cases h
    split at h
    · cases h
    split at h
    · cases h
      exact keeps_expire hw hg hk hstatic
    · rw [hstatic, if_neg (by decide), hk, hg] at h
      split at h
      · cases h
      · exact keeps_resume hw h
  · exact keeps_other hw hg (within_tickMove h)

/-- **The loop of `tick_recover_once`.** -/
theorem keeps_tickLoop {now : Nat} {listed : List Transaction} (hw : WorkflowInv g w)
    (hl : ∀ tx ∈ listed, tx.gid = g → tx.kind = .workflow ∧ isCallbackWorkflow tx = false) :
    KeepsWorkflow g i (dtm.tickLoop now listed) w := by
  induction listed generalizing w with
  | nil => exact hw
  | cons tx rest ih =>
    have hrest := fun tx h => hl tx (.tail _ h)
    rw [Dtm.tickLoop]
    split
    · exact ih hw hrest
    · rename_i move hmove
      refine Machine.runs_bind.mpr ((keeps_tickMove hw hmove (hl tx (.head _))).mono
        (fun _ w' hw' => ?_) fun _ _ => id)
      exact Machine.runs_bind.mpr ((ih hw' hrest).mono (fun _ _ => id) fun _ _ => id)

/-- `tick_recover_once`. -/
theorem keeps_tickRecoverOnce (hw : WorkflowInv g w) :
    KeepsWorkflow g i dtm.tickRecoverOnce w := by
  refine Machine.runs_bind.mpr (runs_call (fun now => (hw.setClock now).compensated)
    fun now c _ => ?_)
  have hw₁ : WorkflowInv g (w.setClock now) := hw.setClock now
  refine Machine.runs_bind.mpr (runs_call (fun now' => (hw₁.setClock now').compensated)
    fun now' c' _ => keeps_tickLoop (hw₁.setClock now') fun tx htx hg => ?_)
  obtain ⟨s, hs⟩ := hw
  -- the list has one record for each gid
  obtain ⟨gid, hgid⟩ : ∃ gid : String, w.txs[gid]? = some tx := InMemory.mem_listTransactions htx
  have hkey := hs.keyed gid tx hgid
  rw [← hkey, hg, hs.stored] at hgid
  cases hgid
  exact ⟨hs.record.kind, hs.record.static⟩

end Operations

end RozeDtm
