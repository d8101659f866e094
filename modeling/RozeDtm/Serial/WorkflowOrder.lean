import RozeDtm.Serial.CallOrder
import RozeDtm.Serial.Steady
import RozeDtm.Session.Workflow

/-!
# The order of a static Workflow, one operation after another

`StepsInv` is what holds of a static Workflow between operations that run one after another:
its calls are in order, a branch is stored as Succeeded only if its action has succeeded, and a
branch whose action has succeeded is stored as Succeeded or Compensating until it was
compensated.  `abort_workflow` goes through the branches against the order of their
declaration, so its compensations are in order as long as each of them is called when the
branches that depend on its own are settled (`DependentsSettled`).
-/

namespace RozeDtm

open Conc

/-- The call that a step issues. -/
def Effect.begin? : Effect → Option BranchCall
  | .invokeBegin call => some call
  | _ => none

/-- The stored branches that depend on the branch `id` are settled when it is compensated: none of
them is Compensating, and none that is declared before `id` is Succeeded. -/
def SettledBefore (id : String) (bs : List Branch) : Prop :=
  (∀ m ∈ bs, id ∈ m.dependencies → m.status ≠ .compensating) ∧
  ∀ m ∈ bs.takeWhile fun b => b.id ≠ id, id ∈ m.dependencies → m.status ≠ .succeeded

instance (id : String) (bs : List Branch) : Decidable (SettledBefore id bs) :=
  inferInstanceAs (Decidable (_ ∧ _))

/-- A compensation of `g` is called when the branches that depend on its own are settled. -/
def DependentsSettled (g : String) (o : Effect) (w : World) : Prop :=
  ∀ c ∈ o.begin?, c.gid = g → c.op = "workflow_rollback" →
    ∀ s ∈ w.txs[g]?, SettledBefore c.branchId s.branches

instance (g : String) (o : Effect) (w : World) : Decidable (DependentsSettled g o w) :=
  inferInstanceAs (Decidable (∀ c ∈ o.begin?, _ → _ → ∀ s ∈ w.txs[g]?, _))

/-- What the status of a branch says of its calls. -/
structure StepTold (h : List (Nat × Event)) (b : Branch) : Prop where
  acted : b.status = .succeeded → b.id ∈ doneIds "workflow" h
  owed : b.id ∈ doneIds "workflow" h →
    b.status = .succeeded ∨ b.status = .compensating ∨ b.id ∈ doneIds "workflow_rollback" h

/-- What the stored record of the Workflow says of its calls. -/
structure StepsRecord (s₀ : Transaction) (h : List (Nat × Event)) (s : Transaction) : Prop where
  gid : s.gid = s₀.gid
  kind : s.kind = .workflow
  metadata : s.metadata = s₀.metadata
  same : SameBranches s₀.branches s.branches
  told : ∀ b ∈ s.branches, StepTold h b

/-- The calls of the Workflow are in order. -/
def World.StepsOrdered (s₀ : Transaction) (w : World) : Prop :=
  CallOrder s₀.branches "workflow" "workflow_rollback" (callEvents s₀.gid w.history)

/-- A compensation holds its barrier only when it has succeeded. -/
def StepsHeld (s₀ : Transaction) (w : World) : Prop :=
  ∀ b ∈ w.barriers, b.gid = s₀.gid → b.op = "workflow_rollback" →
    b.branchId ∈ doneIds "workflow_rollback" (callEvents s₀.gid w.history)

/-- The world while an operation on the Workflow is between two branches. -/
structure StepsOpen (s₀ : Transaction) (w : World) : Prop where
  keyed : w.Keyed
  held : StepsHeld s₀ w
  order : w.StepsOrdered s₀

/-- The world between operations; `s` is the stored record. -/
structure StepsAt (s₀ s : Transaction) (w : World) : Prop extends StepsOpen s₀ w where
  stored : w.txs[s₀.gid]? = some s
  record : StepsRecord s₀ (callEvents s₀.gid w.history) s
  forward : s.status ∈ [TransactionStatus.submitted, .prepared, .succeeding] →
    doneIds "workflow_rollback" (callEvents s₀.gid w.history) = []

/-- What holds of the Workflow between operations. -/
def StepsInv (s₀ : Transaction) (w : World) : Prop := ∃ s, StepsAt s₀ s w

/-- A static Workflow whose graph is accepted, with a way to compensate each branch. -/
structure StaticSteps (s₀ : Transaction) : Prop where
  kind : s₀.kind = .workflow
  static : isCallbackWorkflow s₀ = false
  ids : (s₀.branches.map Branch.id).Nodup
  irreflexive : ∀ m, ¬ DependsOn s₀.branches m m
  compensate : ∀ b ∈ s₀.branches, b.compensate ≠ none

section Records

variable {s₀ s tx : Transaction} {h : List (Nat × Event)} {i : Nat} {c : BranchCall} {b : Branch}
  {w w' : World}

theorem StepTold.failed (hb : StepTold h b) :
    StepTold ((i, .ended c false) :: (i, .began c) :: h) b := ⟨hb.acted, hb.owed⟩

/-- The action of another branch has succeeded. -/
theorem StepTold.actedOther (hb : StepTold h b) (hop : c.op = "workflow") (hne : b.id ≠ c.branchId) :
    StepTold ((i, .ended c true) :: (i, .began c) :: h) b where
  acted := fun hst => by
    rw [doneIds_succeeded hop]
    exact List.mem_cons_of_mem _ (hb.acted hst)
  owed := by
    rw [doneIds_succeeded hop, doneIds_succeeded_of_ne (by rw [hop]; decide), List.mem_cons]
    rintro (h | h)
    · exact absurd h hne
    · exact hb.owed h

/-- The action of the branch `b` has succeeded, and it is written as `b'`. -/
theorem StepTold.acts {before after : List Branch} {b b' : Branch}
    (hall : ∀ a ∈ before ++ b :: after, StepTold h a)
    (hn : ((before ++ b :: after).map Branch.id).Nodup) (hop : c.op = "workflow")
    (hc : c.branchId = b.id) (hid : b'.id = b.id) (hst : b'.status = .succeeded) :
    ∀ a ∈ before ++ b' :: after, StepTold ((i, .ended c true) :: (i, .began c) :: h) a := by
  rw [List.map_append, List.map_cons, List.nodup_append, List.nodup_cons] at hn
  obtain ⟨-, ⟨hafter, -⟩, hapart⟩ := hn
  rw [List.forall_mem_append, List.forall_mem_cons] at hall ⊢
  refine ⟨fun a ha => ?_, ⟨fun _ => ?_, fun _ => Or.inl hst⟩, fun a ha => ?_⟩
  · have hne : a.id ≠ b.id := hapart _ (List.mem_map_of_mem ha) _ (.head _)
    exact (hall.1 a ha).actedOther hop (hc ▸ hne)
  · rw [doneIds_succeeded hop, hid, hc]
    exact .head _
  · have hne : a.id ≠ b.id := fun h => hafter (h ▸ List.mem_map_of_mem ha)
    exact (hall.2.2 a ha).actedOther hop (hc ▸ hne)

/-- A compensation has succeeded. -/
theorem StepTold.undoneAny (hb : StepTold h b) (hop : c.op = "workflow_rollback") :
    StepTold ((i, .ended c true) :: (i, .began c) :: h) b where
  acted := fun hst => by
    rw [doneIds_succeeded_of_ne (by rw [hop]; decide)]
    exact hb.acted hst
  owed := by
    rw [doneIds_succeeded_of_ne (by rw [hop]; decide), doneIds_succeeded hop]
    exact fun h => (hb.owed h).imp id (Or.imp id (List.mem_cons_of_mem _))

/-- A branch that is left as one that needs no compensation. -/
theorem StepTold.skipped (hst : b.status = .skipped)
    (hd : b.id ∈ doneIds "workflow" h → b.id ∈ doneIds "workflow_rollback" h) : StepTold h b where
  acted := fun hs => by
    rw [hst] at hs
    cases hs
  owed := fun h => Or.inr (Or.inr (hd h))

theorem StepTold.congr {b' : Branch} (hb : StepTold h b) (hid : b'.id = b.id)
    (hst : b'.status = b.status) : StepTold h b' where
  acted := by
    rw [hid, hst]
    exact hb.acted
  owed := by
    rw [hid, hst]
    exact hb.owed

theorem StepsRecord.ids (hS : StaticSteps s₀) (hr : StepsRecord s₀ h s) :
    (s.branches.map Branch.id).Nodup := by
  rw [hr.same.ids]
  exact hS.ids

theorem StepsRecord.compensate (hS : StaticSteps s₀) (hr : StepsRecord s₀ h s) {b : Branch}
    (hb : b ∈ s.branches) : b.compensate ≠ none := hr.same.compensate hS.compensate b hb

theorem StepsRecord.static (hS : StaticSteps s₀) (hr : StepsRecord s₀ h s) :
    ¬ isCallbackWorkflow s = true := by
  have hempty : s.branches.isEmpty = s₀.branches.isEmpty := by
    rw [← List.isEmpty_map, hr.same.ids, List.isEmpty_map]
  have hsame : isCallbackWorkflow s = isCallbackWorkflow s₀ := by
    rw [isCallbackWorkflow, isCallbackWorkflow, hr.kind, hS.kind, hr.metadata, hempty]
  rw [hsame, hS.static]
  decide

/-- What the branch at hand depends on. -/
theorem StepsRecord.dependsOn (hS : StaticSteps s₀) (hr : StepsRecord s₀ h s) {b : Branch}
    (hb : b ∈ s.branches) (d : String) : DependsOn s₀.branches b.id d ↔ d ∈ b.dependencies := by
  rw [← hr.same.dependsOn, dependsOn_iff (hr.ids hS) hb]

/-- The action of the branch at hand may be called. -/
theorem StepsRecord.runnable (hS : StaticSteps s₀) (hr : StepsRecord s₀ h s) {b : Branch}
    (hb : b ∈ s.branches)
    (hdeps : ∀ d ∈ b.dependencies, ∃ a ∈ s.branches, a.status = .succeeded ∧ a.id = d) (d : String)
    (hd : DependsOn s₀.branches b.id d) : d ∈ doneIds "workflow" h := by
  obtain ⟨a, ha, hst, rfl⟩ := hdeps d ((hr.dependsOn hS hb d).mp hd)
  exact (hr.told a ha).acted hst

/-- **The compensation of the branch at hand may be called**, when the branches that depend on it
are settled and the branches after it are dealt with. -/
theorem StepsRecord.compensable {before after : List Branch} (hS : StaticSteps s₀)
    (hr : StepsRecord s₀ h s) (hbs : s.branches = before ++ b :: after)
    (hafter : ∀ m ∈ after, m.status = .succeeded → m.id ∈ doneIds "workflow_rollback" h)
    (hsettled : SettledBefore b.id s.branches) (m : String) (hm : DependsOn s₀.branches m b.id)
    (hacted : m ∈ doneIds "workflow" h) : m ∈ doneIds "workflow_rollback" h := by
  obtain ⟨hcompensating, hsucceeded⟩ := hsettled
  rw [← hr.same.dependsOn] at hm
  obtain ⟨branch, hmem, rfl, hdep⟩ := hm
  rcases (hr.told branch hmem).owed hacted with hst | hst | hundone
  · rw [hbs] at hmem
    rcases List.mem_append.mp hmem with hbefore | hrest
    · -- a branch before this one is not Succeeded any more
      have hnodup := hr.ids hS
      rw [hbs, List.map_append, List.map_cons, List.nodup_append] at hnodup
      have hne : ∀ a ∈ before, decide (a.id ≠ b.id) = true := fun a ha =>
        decide_eq_true (hnodup.2.2 _ (List.mem_map_of_mem ha) _ (.head _))
      have hmemTake : branch ∈ s.branches.takeWhile fun a => a.id ≠ b.id := by
        rw [hbs, List.takeWhile_append_of_pos hne]
        exact List.mem_append_left _ hbefore
      exact absurd hst (hsucceeded branch hmemTake hdep)
    · rcases List.mem_cons.mp hrest with rfl | hrest
      · exact absurd ⟨branch, hbs ▸ hmem, rfl, hdep⟩
          (fun h => hS.irreflexive _ ((hr.same.dependsOn _ _).mp h))
      · exact hafter branch hrest hst
  · exact absurd hst (hcompensating branch hmem hdep)
  · exact hundone

end Records

section Worlds

variable {s₀ s tx : Transaction} {w w' : World} {i now : Nat}

theorem StepsOpen.goesOn (hw : StepsOpen s₀ w) (htxs : w'.txs = w.txs)
    (hcalls : callEvents s₀.gid w'.history = callEvents s₀.gid w.history)
    (hbarriers : w'.barriers = w.barriers) : StepsOpen s₀ w' where
  keyed := by
    rw [World.Keyed, htxs]
    exact hw.keyed
  held := by
    rw [StepsHeld, hbarriers, hcalls]
    exact hw.held
  order := by
    rw [World.StepsOrdered, hcalls]
    exact hw.order

theorem StepsAt.goesOn (hw : StepsAt s₀ s w) (htxs : w'.txs = w.txs)
    (hcalls : callEvents s₀.gid w'.history = callEvents s₀.gid w.history)
    (hbarriers : w'.barriers = w.barriers) : StepsAt s₀ s w' where
  toStepsOpen := hw.toStepsOpen.goesOn htxs hcalls hbarriers
  stored := by
    rw [htxs]
    exact hw.stored
  record := by
    rw [hcalls]
    exact hw.record
  forward := by
    rw [hcalls]
    exact hw.forward

theorem StepsInv.setClock (hw : StepsInv s₀ w) (now : Nat) : StepsInv s₀ (w.setClock now) :=
  hw.imp fun _ h => h.goesOn rfl rfl rfl

theorem StepsInv.ordered (hw : StepsInv s₀ w) : w.StepsOrdered s₀ := by
  obtain ⟨s, hs⟩ := hw
  exact hs.order

/-- What is done to other transactions does not matter. -/
theorem steady_steps (s₀ : Transaction) : Steady s₀.gid (World.StepsOrdered s₀) (StepsInv s₀) where
  keyed := fun hw => by
    obtain ⟨s, hs⟩ := hw
    exact hs.keyed
  clock := fun now hw => hw.setClock now
  same := fun {w w'} hw hk hsame => by
    obtain ⟨s, hs⟩ := hw
    have hcalls : callEvents s₀.gid w'.history = callEvents s₀.gid w.history := by
      rw [callEvents, hsame.events, callEvents]
    refine ⟨s, ⟨hk, fun b hb hbg hop => ?_, ?_⟩, hsame.txs.trans hs.stored, ?_, ?_⟩
    · rw [hcalls]
      exact hs.held b ((hsame.barriers b hbg).mp hb) hbg hop
    · rw [World.StepsOrdered, hcalls]
      exact hs.order
    · rw [hcalls]
      exact hs.record
    · rw [hcalls]
      exact hs.forward
  shows := StepsInv.ordered

/-- The world after the record was written. -/
theorem StepsAt.put (hw : StepsOpen s₀ w)
    (hr : StepsRecord s₀ (callEvents s₀.gid w.history) tx)
    (hf : tx.status ∈ [TransactionStatus.submitted, .prepared, .succeeding] →
      doneIds "workflow_rollback" (callEvents s₀.gid w.history) = []) :
    StepsAt s₀ (bumpTransactionRevision now tx) (w.put (bumpTransactionRevision now tx)) where
  keyed := hw.keyed.put _
  held := hw.held
  order := hw.order
  stored := by
    have hg : (bumpTransactionRevision now tx).gid = s₀.gid := hr.gid
    rw [World.put_txs, hg]
    exact Std.ExtTreeMap.getElem?_insert_self
  record := ⟨hr.gid, hr.kind, hr.metadata, hr.same, hr.told⟩
  forward := hf

/-- An action has succeeded. -/
theorem StepsOpen.acted (hw : StepsOpen s₀ w) (i now now' : Nat) (x : BranchBarrier)
    (c : BranchCall) (hg : c.gid = s₀.gid) (hop : c.op = "workflow") (hx : x.op = "workflow")
    (hdeps : ∀ d, DependsOn s₀.branches c.branchId d →
      d ∈ doneIds "workflow" (callEvents s₀.gid w.history))
    (hf : doneIds "workflow_rollback" (callEvents s₀.gid w.history) = [])
    (hw' : w' = (((w.setClock now).claimed i x).called i c true).setClock now') :
    StepsOpen s₀ w' ∧ callEvents s₀.gid w'.history =
      (i, .ended c true) :: (i, .began c) :: callEvents s₀.gid w.history := by
  subst hw'
  have hcalls := callEvents_claimed_called w i now now' x true hg
  refine ⟨⟨hw.keyed, fun b hb hbg hbop => ?_, ?_⟩, hcalls⟩
  · rw [hcalls, doneIds_succeeded_of_ne (by rw [hop]; decide), doneIds_began]
    rcases Finset.mem_insert.mp hb with rfl | hb
    · exact absurd (hx.symm.trans hbop) (by decide)
    · exact hw.held b hb hbg hbop
  · rw [World.StepsOrdered, hcalls]
    refine CallOrder.actedOne ?_ (by decide) hop (by simpa using hdeps) hf
    exact hw.order.began (fun _ => hdeps) fun h => absurd (hop.symm.trans h) (by decide)

/-- A compensation has succeeded. -/
theorem StepsOpen.undone (hw : StepsOpen s₀ w) (i now now' : Nat) (x : BranchBarrier)
    (c : BranchCall) (hg : c.gid = s₀.gid) (hop : c.op = "workflow_rollback") (hx : c.barrier = x)
    (hdirect : ∀ m, DependsOn s₀.branches m c.branchId →
      m ∈ doneIds "workflow" (callEvents s₀.gid w.history) →
      m ∈ doneIds "workflow_rollback" (callEvents s₀.gid w.history))
    (hw' : w' = (((w.setClock now).claimed i x).called i c true).setClock now') :
    StepsOpen s₀ w' ∧ callEvents s₀.gid w'.history =
      (i, .ended c true) :: (i, .began c) :: callEvents s₀.gid w.history := by
  subst hw' hx
  have hcalls := callEvents_claimed_called w i now now' c.barrier true hg
  refine ⟨⟨hw.keyed, fun b hb hbg hbop => ?_, ?_⟩, hcalls⟩
  · rw [hcalls, doneIds_succeeded hop, doneIds_began]
    rcases Finset.mem_insert.mp hb with rfl | hb
    · exact .head _
    · exact List.mem_cons_of_mem _ (hw.held b hb hbg hbop)
  · rw [World.StepsOrdered, hcalls]
    refine CallOrder.undoneOne ?_ (by decide) hop (by simpa using hdirect)
    exact hw.order.began (fun h => absurd (hop.symm.trans h) (by decide)) fun _ => hdirect

/-- A call has failed, and its barrier is given back. -/
theorem StepsOpen.givenBack (hw : StepsOpen s₀ w) (i now now' now'' : Nat) (b : BranchBarrier)
    (c : BranchCall) (hg : c.gid = s₀.gid)
    (ho : CallOrder s₀.branches "workflow" "workflow_rollback"
      ((i, .began c) :: callEvents s₀.gid w.history))
    (hw' : w' = (InMemory.releaseBarrier (((((w.setClock now).claimed i b).called i
      c false).setClock now').setClock now'') b).note i (.released b)) :
    StepsOpen s₀ w' ∧ callEvents s₀.gid w'.history =
      (i, .ended c false) :: (i, .began c) :: callEvents s₀.gid w.history := by
  subst hw'
  have hcalls := callEvents_claimed_called w i now now' b false hg
  have hnote : callEvents s₀.gid ((InMemory.releaseBarrier (((((w.setClock now).claimed i b).called i
      c false).setClock now').setClock now'') b).note i (.released b)).history =
        (i, .ended c false) :: (i, .began c) :: callEvents s₀.gid w.history := by
    rw [World.note_history, callEvents_released]
    exact hcalls
  refine ⟨⟨hw.keyed, fun a ha hag hop => ?_, ?_⟩, hnote⟩
  · rw [hnote]
    obtain ⟨hne, ha⟩ := Finset.mem_erase.mp ha
    exact hw.held a ((Finset.mem_insert.mp ha).resolve_left hne) hag hop
  · rw [World.StepsOrdered, hnote]
    exact ho.failed

end Worlds

section Operations

variable {s₀ s tx : Transaction} {w : World} {dtm : Dtm} {i : Nat}

/-- An operation keeps the Workflow, however it ends. -/
abbrev KeepsSteps {α : Type} (s₀ : Transaction) (i : Nat) (x : Act α) (w : World) : Prop :=
  Keeps (DependentsSettled s₀.gid) (World.StepsOrdered s₀) (StepsInv s₀) i x w

/-- Writing the record of the Workflow. -/
theorem runs_persistSteps {Q : Transaction → World → Prop} (hw : StepsOpen s₀ w)
    (hr : StepsRecord s₀ (callEvents s₀.gid w.history) tx)
    (hf : tx.status ∈ [TransactionStatus.submitted, .prepared, .succeeding] →
      doneIds "workflow_rollback" (callEvents s₀.gid w.history) = [])
    (h : ∀ now w', StepsAt s₀ (bumpTransactionRevision now tx) w' → Q tx.written w') :
    (alone (DependentsSettled s₀.gid)).Runs (World.StepsOrdered s₀) i (persistTransaction tx) Q
      (fun _ => StepsInv s₀) w := by
  refine runs_persistTransaction (fun _ => hw.order) fun now _ => h now _ ?_
  exact .put (w := w.setClock now) (hw.goesOn rfl rfl rfl) hr hf

/-- Calling a branch of the Workflow in its turn. -/
theorem runs_stepsCall {gid : String} {branch : Branch} {url op : String}
    {Q : Branch × Bool → World → Prop} {E : Err → World → Prop} (ho : w.StepsOrdered s₀)
    (hg : gid = s₀.gid)
    (hact : AfterDependencies s₀.branches "workflow"
      (Dtm.branchCall tx.options gid branch url op) (callEvents s₀.gid w.history))
    (hundo : op = "workflow_rollback" → ∀ m, DependsOn s₀.branches m branch.id →
      m ∈ doneIds "workflow" (callEvents s₀.gid w.history) →
      m ∈ doneIds "workflow_rollback" (callEvents s₀.gid w.history))
    (ok : ∀ now, Q (branch, true)
      ((w.called i (Dtm.branchCall tx.options gid branch url op) true).setClock now))
    (error : ∀ now b, b.definition = branch.definition → b.status = branch.status →
      CallOrder s₀.branches "workflow" "workflow_rollback"
        ((i, .began (Dtm.branchCall tx.options gid branch url op)) ::
          callEvents s₀.gid w.history) →
      World.StepsOrdered s₀
        ((w.called i (Dtm.branchCall tx.options gid branch url op) false).setClock now) →
      Q (b, false)
        ((w.called i (Dtm.branchCall tx.options gid branch url op) false).setClock now)) :
    (alone (DependentsSettled s₀.gid)).Runs (World.StepsOrdered s₀) i
      (dtm.invokeBranch tx.options gid branch url op) Q E w := by
  have hbegan : CallOrder s₀.branches "workflow" "workflow_rollback"
      ((i, .began (Dtm.branchCall tx.options gid branch url op)) ::
        callEvents s₀.gid w.history) := ho.began hact hundo
  have hfailed (now : Nat) : World.StepsOrdered s₀
      ((w.called i (Dtm.branchCall tx.options gid branch url op) false).setClock now) := by
    rw [World.StepsOrdered, setClock_history, callEvents_called hg]
    exact hbegan.failed
  refine runs_invokeBranch_through (fun _ => ho) (fun now => ?_) hfailed ok
    fun now b hdef hst _ => error now b hdef hst hbegan (hfailed now)
  rw [World.StepsOrdered, setClock_history, World.note_history, callEvents_began hg]
  exact hbegan

/-- **The loop of `abort_workflow`.**  `rest` is what the stored record has after the branches
ahead. -/
theorem keeps_abortStepsLoop {ahead rest passed : List Branch} (hS : StaticSteps s₀)
    (hw : StepsOpen s₀ w) (hs : w.txs[s₀.gid]? = some s)
    (hr : StepsRecord s₀ (callEvents s₀.gid w.history) s) (hg : tx.gid = s₀.gid)
    (hk : tx.kind = .workflow) (hm : tx.metadata = s₀.metadata) (htx : tx.status = .aborting)
    (hbs : s.branches = ahead.reverse ++ rest)
    (hrest : ∀ b ∈ rest, b.status = .succeeded →
      b.id ∈ doneIds "workflow_rollback" (callEvents s₀.gid w.history))
    (hpassed : ∀ b ∈ passed, StepTold (callEvents s₀.gid w.history) b)
    (hsame : SameBranches s₀.branches (ahead.reverse ++ passed)) :
    KeepsSteps s₀ i (dtm.abortWorkflowLoop tx ahead passed) w := by
  induction ahead generalizing w rest passed with
  | nil =>
    refine runs_persistSteps hw ⟨hg, hk, hm, hsame, hpassed⟩ (fun h => ?_) fun _ _ hw' => ⟨_, hw'⟩
    exact absurd h (show ¬ TransactionStatus.aborted ∈ _ by decide)
  | cons branch ahead ih =>
    rw [List.reverse_cons, List.append_assoc, List.singleton_append] at hbs hsame
    have hmem : branch ∈ s.branches := by rw [hbs]; simp
    have hcomp : branch.compensate ≠ none := hr.compensate hS hmem
    have htold := hr.told branch hmem
    rw [Dtm.abortWorkflowLoop]
    split
    · -- a branch that is not Succeeded is passed by
      rename_i hns
      refine ih hw hs hr hbs ?_ ?_ ?_
      · rw [List.forall_mem_cons]
        exact ⟨fun hst => absurd hst hns, hrest⟩
      · rw [List.forall_mem_cons]
        refine ⟨?_, hpassed⟩
        split
        · rename_i hp
          refine .skipped rfl fun hacted => ?_
          rcases htold.owed hacted with h | h | h
          · exact absurd h hns
          · exact absurd (hp.symm.trans h) (by decide)
          · exact h
        · exact htold
      · refine hsame.exchange ?_
        split <;> rfl
    · rename_i hst
      rw [Decidable.not_not] at hst
      have htxs : ∀ w' : World, w'.txs = w.txs → w'.txs[s₀.gid]? = some s := by
        intro w' h
        rw [h]
        exact hs
      refine Machine.runs_bind.mpr (runs_barrier (show "workflow_rollback" ≠ "try" by decide)
        (show "workflow_rollback" ≠ "cancel" by decide) (fun _ => hw.order) (fun now hb => ?_)
        fun now hb => ?_)
      · -- the barrier is taken: the compensation has succeeded
        have hdone : branch.id ∈ doneIds "workflow_rollback" (callEvents s₀.gid w.history) :=
          hw.held _ hb hg rfl
        have hcalls : callEvents s₀.gid ((w.setClock now).note i
            (.decided ⟨tx.gid, branch.id, "workflow_rollback"⟩ .skipDuplicate)).history =
              callEvents s₀.gid w.history := callEvents_decided
        simp only [reduceCtorEq, if_false]
        refine ih (hw.goesOn rfl hcalls rfl) (htxs _ rfl) (hcalls ▸ hr) hbs ?_ ?_
          (hsame.exchange rfl)
        · rw [hcalls, List.forall_mem_cons]
          exact ⟨fun _ => hdone, hrest⟩
        · rw [hcalls, List.forall_mem_cons]
          exact ⟨.skipped rfl fun _ => hdone, hpassed⟩
      · simp only [if_true, Machine.runs_bind]
        refine runs_ofOption (fun compensate _ => ?_) fun h => absurd h hcomp
        have hcalls : callEvents s₀.gid ((w.setClock now).claimed i
            ⟨tx.gid, branch.id, "workflow_rollback"⟩).history = callEvents s₀.gid w.history := by
          rw [claimed_history, callEvents_decided, setClock_history]
        have ho : ((w.setClock now).claimed i
            ⟨tx.gid, branch.id, "workflow_rollback"⟩).StepsOrdered s₀ := by
          rw [World.StepsOrdered, hcalls]
          exact hw.order
        refine runs_invokeBranch_allowed (fun _ => ho) fun now₁ hallow => ?_
        have hdirect := hr.compensable hS hbs hrest (hallow _ rfl hg rfl s hs)
        refine runs_stepsCall ho hg (fun h => absurd (show "workflow_rollback" = "workflow" from h)
          (by decide)) (fun _ => hcalls.symm ▸ hdirect) (fun now' => ?_)
          fun now' b' hdef hst' hbegan ho' => ?_
        · -- the compensation has succeeded
          obtain ⟨hw', hcalls'⟩ := hw.undone i now now'
            ⟨tx.gid, branch.id, "workflow_rollback"⟩ (Dtm.branchCall tx.options tx.gid
            { branch with attempts := satAdd32 branch.attempts 1 } compensate
            "workflow_rollback") hg rfl rfl hdirect rfl
          have hall {b : Branch} (hb : StepTold (callEvents s₀.gid w.history) b) :
              StepTold (callEvents s₀.gid _) b := hcalls' ▸ hb.undoneAny rfl
          have hdone : doneIds "workflow_rollback" (callEvents s₀.gid _) =
              branch.id :: doneIds "workflow_rollback" (callEvents s₀.gid w.history) :=
            (congrArg (doneIds "workflow_rollback") hcalls').trans (doneIds_succeeded rfl)
          refine ih hw' (htxs _ rfl) ?_ hbs ?_ ?_ (hsame.exchange rfl)
          · exact ⟨hr.gid, hr.kind, hr.metadata, hr.same, fun b hb => hall (hr.told b hb)⟩
          · rw [hdone, List.forall_mem_cons]
            exact ⟨fun _ => .head _, fun b hb hst => List.mem_cons_of_mem _ (hrest b hb hst)⟩
          · rw [List.forall_mem_cons]
            refine ⟨.skipped rfl fun _ => ?_, fun b hb => hall (hpassed b hb)⟩
            rw [hdone]
            exact .head _
        · -- the compensation has failed: the branch is written as Compensating
          simp only [Bool.false_eq_true, if_false, Machine.runs_bind]
          rw [hcalls] at hbegan
          refine runs_releaseBarrier (fun _ => ho') fun now'' => ?_
          obtain ⟨hw', hcalls'⟩ := hw.givenBack i now now' now''
            ⟨tx.gid, branch.id, "workflow_rollback"⟩ (Dtm.branchCall tx.options tx.gid
            { branch with attempts := satAdd32 branch.attempts 1 } compensate
            "workflow_rollback") hg hbegan rfl
          refine runs_persistSteps hw' ⟨hg, hk, hm, hsame.exchange hdef, ?_⟩ (fun h => ?_)
            fun _ _ hw' => ⟨_, hw'⟩
          · rw [hcalls', List.forall_mem_append, List.forall_mem_cons]
            refine ⟨fun b hb => (hr.told b ?_).failed, ?_, fun b hb => (hpassed b hb).failed⟩
            · rw [hbs]
              exact List.mem_append_left _ hb
            · exact ⟨fun h => (by cases h), fun _ => Or.inr (Or.inl rfl)⟩
          · rw [htx] at h
            exact absurd h (by decide)

/-- `abort_workflow`. -/
theorem keeps_abortSteps (hS : StaticSteps s₀) (hw : StepsInv s₀ w) :
    KeepsSteps s₀ i (dtm.abortWorkflow s₀.gid) w := by
  refine Machine.runs_bind.mpr (runs_transactionOfKind (fun now => (hw.setClock now).ordered)
    (fun now tx htx hk => ?_) fun now _ => hw.setClock now)
  obtain ⟨_, hs⟩ := hw.setClock now
  cases hs.stored.symm.trans htx
  split
  · exact ⟨tx, hs⟩
  · rw [Machine.runs_bind, runs_ofExcept]
    split
    · have hr := hs.record
      have hbs : tx.branches = tx.branches.reverse.reverse ++ [] := by simp
      refine keeps_abortStepsLoop hS hs.toStepsOpen hs.stored hr hr.gid hr.kind hr.metadata rfl hbs
        (fun b hb => (nomatch hb)) (fun b hb => (nomatch hb)) ?_
      simpa using hr.same
    · exact ⟨tx, hs⟩

/-- **The loop of `start_workflow`.** -/
theorem keeps_startStepsLoop {fuel : Nat} (hS : StaticSteps s₀) (hw : StepsAt s₀ s w)
    (hf : doneIds "workflow_rollback" (callEvents s₀.gid w.history) = [])
    (hg : tx.gid = s₀.gid) (hk : tx.kind = .workflow) (hm : tx.metadata = s₀.metadata)
    (hbs : tx.branches = s.branches) (htx : tx.status = .succeeding) :
    KeepsSteps s₀ i (dtm.startWorkflowLoop s₀.gid fuel tx) w := by
  induction fuel generalizing s tx w with
  | zero => exact ⟨s, hw⟩
  | succ fuel ih =>
    have hr := hw.record
    rw [Dtm.startWorkflowLoop]
    split
    · split
      · refine runs_persistSteps hw.toStepsOpen ⟨hg, hk, hm, hbs ▸ hr.same, hbs ▸ hr.told⟩
          (fun _ => hf) fun _ _ hw' => ⟨_, hw'⟩
      · exact ⟨s, hw⟩
    · rename_i before branch after hnext
      have hsplit : s.branches = before ++ branch :: after :=
        hbs ▸ nextWorkflowBranch_eq_some hnext
      obtain ⟨hst, hdeps⟩ := nextWorkflowBranch_runnable hnext
      have hmem : branch ∈ s.branches := by rw [hsplit]; simp
      have hturn := hr.runnable hS hmem (hbs ▸ hdeps)
      have hsame : SameBranches s₀.branches (before ++ branch :: after) := hsplit ▸ hr.same
      have hnot : branch.id ∉ doneIds "workflow" (callEvents s₀.gid w.history) := by
        intro hacted
        rcases (hr.told branch hmem).owed hacted with h | h | h
        · rw [h] at hst
          exact absurd hst (by decide)
        · rw [h] at hst
          exact absurd hst (by decide)
        · rw [hf] at h
          cases h
      refine Machine.runs_bind.mpr (runs_barrier (show "workflow" ≠ "try" by decide)
        (show "workflow" ≠ "cancel" by decide) (fun _ => hw.order) (fun now hb => ?_)
        fun now hb => ?_)
      · -- another attempt holds the barrier
        simp only [ne_eq, reduceCtorEq, not_false_eq_true, if_true]
        have hw' : StepsAt s₀ s ((w.setClock now).note i
            (.decided ⟨tx.gid, branch.id, "workflow"⟩ .skipDuplicate)) :=
          hw.goesOn rfl callEvents_decided rfl
        refine runs_loadTransaction (fun now' => hw'.order) (fun now' _ _ => ?_) fun now' _ _ => ?_
        · exact ⟨s, hw'.goesOn rfl rfl rfl⟩
        · exact ⟨s, hw'.goesOn rfl rfl rfl⟩
      · simp only [ne_eq, not_true_eq_false, if_false, Machine.runs_bind]
        have hcalls : callEvents s₀.gid ((w.setClock now).claimed i
            ⟨tx.gid, branch.id, "workflow"⟩).history = callEvents s₀.gid w.history := by
          rw [claimed_history, callEvents_decided, setClock_history]
        have ho : ((w.setClock now).claimed i
            ⟨tx.gid, branch.id, "workflow"⟩).StepsOrdered s₀ := by
          rw [World.StepsOrdered, hcalls]
          exact hw.order
        refine runs_stepsCall ho hg (fun _ => hcalls.symm ▸ hturn)
          (fun h => absurd h (by decide)) (fun now' => ?_) fun now' b' hdef hst' hbegan ho' => ?_
        · -- the action has succeeded
          simp only [if_true, Machine.runs_bind]
          obtain ⟨hw', hcalls'⟩ := hw.toStepsOpen.acted i now now' ⟨tx.gid, branch.id, "workflow"⟩
            (Dtm.branchCall tx.options tx.gid { branch with
              status := .running, attempts := satAdd32 branch.attempts 1 } branch.action "workflow")
            hg rfl rfl hturn hf rfl
          have hnone : doneIds "workflow_rollback" (callEvents s₀.gid _) = [] :=
            (congrArg (doneIds "workflow_rollback") hcalls').trans
              ((doneIds_succeeded_of_ne (show "workflow" ≠ "workflow_rollback" by decide)).trans hf)
          refine runs_persistSteps hw' ⟨hg, hk, hm, hsame.exchange rfl, ?_⟩ (fun _ => hnone)
            fun now'' w' hat => ?_
          · rw [hcalls']
            exact StepTold.acts (hsplit ▸ hr.told) (hsplit ▸ hr.ids hS) rfl rfl rfl rfl
          · refine ih hat (hat.forward ?_) hg hk hm rfl htx
            exact htx ▸ (by decide : TransactionStatus.succeeding ∈
              [TransactionStatus.submitted, .prepared, .succeeding])
        · -- the action has failed, and what has succeeded is compensated
          simp only [Bool.false_eq_true, if_false, Machine.runs_bind]
          rw [hcalls] at hbegan
          refine runs_releaseBarrier (fun _ => ho') fun now'' => ?_
          obtain ⟨hw', hcalls'⟩ := hw.givenBack i now now' now'' ⟨tx.gid, branch.id, "workflow"⟩
            (Dtm.branchCall tx.options tx.gid { branch with
              status := .running, attempts := satAdd32 branch.attempts 1 } branch.action "workflow")
            hg hbegan rfl
          refine runs_persistSteps hw' ⟨hg, hk, hm, hsame.exchange hdef, ?_⟩ (fun h => ?_)
            fun _ _ hat => keeps_abortSteps hS ⟨_, hat⟩
          · have hall := hr.told
            rw [hsplit] at hall
            rw [hcalls']
            have hid : b'.id = branch.id := Branch.id_eq hdef
            refine forall_mem_exchange (fun b hb => (hall b hb).failed) ⟨fun h => (by cases h), ?_⟩
            exact fun hacted => absurd (hid ▸ hacted) hnot
          · exact absurd h (show ¬ TransactionStatus.aborting ∈ _ by decide)

/-- `start_workflow`. -/
theorem keeps_startSteps (hS : StaticSteps s₀) (hw : StepsInv s₀ w) :
    KeepsSteps s₀ i (dtm.startWorkflow s₀.gid) w := by
  refine Machine.runs_bind.mpr (runs_transactionOfKind (fun now => (hw.setClock now).ordered)
    (fun now tx htx hk => ?_) fun now _ => hw.setClock now)
  obtain ⟨_, hs⟩ := hw.setClock now
  cases hs.stored.symm.trans htx
  split
  · exact ⟨tx, hs⟩
  · rw [Machine.runs_bind, runs_ofExcept]
    split
    · rw [Machine.runs_bind, runs_ofExcept]
      split
      · rename_i hallowed
        have hr := hs.record
        exact keeps_startStepsLoop hS hs (hs.forward (ensureStatus_eq_ok.mp hallowed)) hr.gid
          hr.kind hr.metadata rfl rfl
      · exact ⟨tx, hs⟩
    · exact ⟨tx, hs⟩

/-- `schedule_abort`. -/
theorem keeps_scheduleAbortSteps (hw : StepsInv s₀ w) :
    KeepsSteps s₀ i (Dtm.scheduleAbort s₀.gid) w := by
  refine Machine.runs_bind.mpr (runs_loadTransaction (fun now => (hw.setClock now).ordered)
    (fun now tx htx => ?_) fun now _ _ => hw.setClock now)
  obtain ⟨_, hs⟩ := hw.setClock now
  cases hs.stored.symm.trans htx
  have hr := hs.record
  split
  · exact ⟨tx, hs⟩
  · rw [if_neg (by rw [hr.kind]; decide), Machine.runs_bind, runs_ofExcept]
    split
    · refine runs_persistSteps hs.toStepsOpen ⟨hr.gid, hr.kind, hr.metadata,
        hr.same.map fun _ => rfl, fun b hb => ?_⟩ (fun h => ?_) fun _ _ hw' => ⟨_, hw'⟩
      · obtain ⟨a, ha, rfl⟩ := List.mem_map.mp hb
        exact (hr.told a ha).congr rfl rfl
      · exact absurd h (show ¬ TransactionStatus.aborting ∈ _ by decide)
    · exact ⟨tx, hs⟩

/-- **What a recovery runs for the Workflow.** -/
theorem keeps_recoverySteps {move : Act Transaction} (hS : StaticSteps s₀) (hw : StepsInv s₀ w)
    (hg : tx.gid = s₀.gid) (hk : tx.kind = .workflow) (hstatic : ¬ isCallbackWorkflow tx = true)
    (h : dtm.RecoveryMove tx move) : KeepsSteps s₀ i move w := by
  cases h with
  | expire =>
    rw [Dtm.expire, hk, hg]
    simp only [if_neg hstatic]
    exact keeps_abortSteps hS hw
  | prepareCallback hc | callback hc => exact absurd hc hstatic
  | confirm h | dispatch h | commit h =>
    rw [hk] at h
    cases h
  | resume _ h =>
    rw [hk, hg, Dtm.resume.eq_def] at h
    cases hst : tx.status with
    | submitted | succeeding =>
      rw [hst] at h
      cases h
      exact keeps_startSteps hS hw
    | aborting =>
      rw [hst] at h
      cases h
      exact keeps_abortSteps hS hw
    | trying | prepared | succeeded | aborted | failed =>
      rw [hst] at h
      cases h

end Operations

end RozeDtm
