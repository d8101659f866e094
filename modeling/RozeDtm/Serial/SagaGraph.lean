import Mathlib.Data.List.MinMax
import RozeDtm.Serial.GraphBatch
import RozeDtm.Session.Saga

/-!
# Concurrent Sagas, one operation after another

`GraphInv` is what holds of a concurrent Saga between operations that run one after another:
its calls are in order, and the status of each branch of the stored record tells what was
called for it (`NodeTold`).  On the way forward a branch is Succeeded exactly when its action
has succeeded; on the way back a branch whose action has succeeded is Compensating until it was
compensated.  A rank that falls along the dependencies shows that among the branches that are
Compensating there is one that no other of them depends on.
-/

namespace RozeDtm

open Conc

/-- The text of `abort_concurrent_saga` when none of the branches can be compensated. -/
def unresolvedCompensation (gid : String) : Err :=
  s!"concurrent Saga {gid} has unresolved compensation dependencies"

/-- What the status of a branch tells of its calls. -/
structure NodeTold (h : List (Nat × Event)) (b : Branch) : Prop where
  succeeded : b.status = .succeeded → b.id ∈ doneIds "action" h
  compensating : b.status = .compensating → b.id ∈ doneIds "action" h
  owed : b.id ∈ doneIds "action" h →
    b.status = .succeeded ∨ b.status = .compensating ∨ b.id ∈ doneIds "compensate" h

/-- The same on the way forward. -/
structure NodeForward (h : List (Nat × Event)) (b : Branch) : Prop where
  acted : b.status = .succeeded ↔ b.id ∈ doneIds "action" h
  notTurned : b.status ≠ .compensating

/-- The same on the way back. -/
structure NodeBackward (h : List (Nat × Event)) (b : Branch) : Prop where
  turned : b.status ≠ .succeeded
  acted : b.status = .compensating → b.id ∈ doneIds "action" h
  owed : b.id ∈ doneIds "action" h →
    b.status = .compensating ∨ b.id ∈ doneIds "compensate" h

/-- What the stored record of the Saga tells of its calls. -/
structure GraphRecord (s₀ : Transaction) (h : List (Nat × Event)) (s : Transaction) : Prop where
  gid : s.gid = s₀.gid
  kind : s.kind = .saga
  options : s.options = s₀.options
  same : SameBranches s₀.branches s.branches
  told : ∀ b ∈ s.branches, NodeTold h b
  forward : s.status ∈ [TransactionStatus.submitted, .succeeding] →
    doneIds "compensate" h = [] ∧ ∀ b ∈ s.branches, b.status ≠ .compensating

/-- The world between operations; `s` is the stored record. -/
structure GraphAt (s₀ s : Transaction) (w : World) : Prop extends GraphOpen s₀ w where
  stored : w.txs[s₀.gid]? = some s
  record : GraphRecord s₀ (callEvents s₀.gid w.history) s

/-- What holds of the Saga between operations. -/
def GraphInv (s₀ : Transaction) (w : World) : Prop := ∃ s, GraphAt s₀ s w

/-- A concurrent Saga whose graph is accepted, with a way to compensate each branch. -/
structure GraphSaga (s₀ : Transaction) : Prop where
  kind : s₀.kind = .saga
  concurrent : s₀.options.concurrent = true
  valid : validateTransactionDependencies s₀ = .ok ()
  compensate : ∀ b ∈ s₀.branches, b.compensate ≠ none

section Nodes

variable {h : List (Nat × Event)} {b : Branch} {c : BranchCall}

theorem NodeForward.told (hb : NodeForward h b) : NodeTold h b :=
  ⟨hb.acted.mp, fun hst => absurd hst hb.notTurned, fun hacted => Or.inl (hb.acted.mpr hacted)⟩

theorem NodeBackward.told (hb : NodeBackward h b) : NodeTold h b :=
  ⟨fun hst => absurd hst hb.turned, hb.acted, fun hacted => Or.inr (hb.owed hacted)⟩

theorem NodeTold.forward (hb : NodeTold h b) (hnone : doneIds "compensate" h = [])
    (hst : b.status ≠ .compensating) : NodeForward h b := by
  refine ⟨⟨hb.succeeded, fun hacted => ?_⟩, hst⟩
  rcases hb.owed hacted with h | h | h
  · exact h
  · exact absurd h hst
  · rw [hnone] at h
    cases h

/-- What the abort makes of a branch before it compensates any. -/
theorem NodeTold.backward {b' : Branch} (hb : NodeTold h b) (hid : b'.id = b.id)
    (hst : b'.status = if b.status = .succeeded ∨ b.status = .compensating then .compensating
      else .skipped) : NodeBackward h b' := by
  by_cases howed : b.status = .succeeded ∨ b.status = .compensating
  · rw [if_pos howed] at hst
    refine ⟨by rw [hst]; decide, fun _ => ?_, fun _ => Or.inl hst⟩
    rw [hid]
    exact howed.elim hb.succeeded hb.compensating
  · rw [if_neg howed] at hst
    refine ⟨by rw [hst]; decide, fun h => ?_, fun hacted => Or.inr ?_⟩
    · rw [hst] at h
      cases h
    · rw [hid] at hacted ⊢
      rcases hb.owed hacted with h | h | h
      · exact absurd (Or.inl h) howed
      · exact absurd (Or.inr h) howed
      · exact h

/-- **The calls of actions.** -/
theorem batchTold_action : BatchTold "action" .succeeded .failed NodeForward where
  quiet := fun ha _ hb => ⟨by rw [ha]; exact hb.acted, hb.notTurned⟩
  same := fun hid hst hb => ⟨by rw [hid, hst]; exact hb.acted, by rw [hst]; exact hb.notTurned⟩
  other := fun i hop hne hb => by
    refine ⟨?_, hb.notTurned⟩
    rw [doneIds_succeeded hop, List.mem_cons, hb.acted]
    exact ⟨Or.inr, fun h => h.resolve_left fun h => hne h.symm⟩
  won := fun i hop hid _ => by
    refine ⟨⟨fun _ => ?_, fun _ => rfl⟩, fun h => (nomatch h)⟩
    rw [doneIds_succeeded hop, hid]
    exact .head _

/-- **The calls of compensations.** -/
theorem batchTold_compensate : BatchTold "compensate" .skipped .compensating NodeBackward where
  quiet := fun ha hu hb => ⟨hb.turned, by rw [ha]; exact hb.acted, by rw [ha, hu]; exact hb.owed⟩
  same := fun hid hst hb => ⟨by rw [hst]; exact hb.turned, by rw [hid, hst]; exact hb.acted, by
    rw [hid, hst]
    exact hb.owed⟩
  other := fun i hop hne hb => by
    have hacted := @doneIds_succeeded_of_ne "action"
    refine ⟨hb.turned, fun hst => ?_, ?_⟩
    · rw [hacted (by rw [hop]; decide)]
      exact hb.acted hst
    · rw [hacted (by rw [hop]; decide), doneIds_succeeded hop]
      exact fun h => (hb.owed h).imp id (List.mem_cons_of_mem _)
  won := fun i hop hid _ => by
    refine ⟨(show BranchStatus.skipped ≠ .succeeded by decide), fun h => (nomatch h),
      fun _ => Or.inr ?_⟩
    rw [doneIds_succeeded hop, hid]
    exact .head _

end Nodes

section Graph

variable {s₀ s tx : Transaction} {h : List (Nat × Event)} {rank : String → Nat}

theorem GraphSaga.graph (hG : GraphSaga s₀) :
    ∃ name, validateDependencyGraph s₀ name = .ok () :=
  validateDependencyGraph_of_validate (Or.inr ⟨hG.kind, hG.concurrent⟩) hG.valid

theorem GraphSaga.ids (hG : GraphSaga s₀) : (s₀.branches.map Branch.id).Nodup := by
  obtain ⟨name, h⟩ := hG.graph
  exact nodup_of_validateDependencyGraph h

theorem GraphSaga.exists_rank (hG : GraphSaga s₀) :
    ∃ rank : String → Nat, ∀ m d, DependsOn s₀.branches m d → rank d < rank m := by
  obtain ⟨name, h⟩ := hG.graph
  exact exists_rank_of_validateDependencyGraph h

theorem SameBranches.sameNode {as bs : List Branch} (hs : SameBranches as bs) :
    List.Forall₂ SameNode as bs :=
  hs.imp fun _ _ hdef => ⟨Branch.id_eq hdef, Branch.dependencies_eq hdef⟩

/-- The stored graph stays accepted. -/
theorem GraphSaga.accepted (hG : GraphSaga s₀) (hk : tx.kind = .saga)
    (ho : tx.options = s₀.options) (hs : SameBranches s₀.branches tx.branches) :
    validateTransactionDependencies tx = .ok () := by
  rw [validateTransactionDependencies_congr (hk.trans hG.kind.symm) ho hs.sameNode]
  exact hG.valid

/-- The places of the actions that can be called. -/
theorem mem_readyBranches_iff {j : Nat} : j ∈ tx.readyBranches ↔ ∃ b, tx.branches[j]? = some b ∧
    (b.status = .pending ∨ b.status = .failed) ∧
      ∀ d ∈ b.dependencies, ∃ a ∈ tx.branches, a.status = .succeeded ∧ a.id = d := by
  refine (mem_indices tx.branches _ j).trans (exists_congr fun b => and_congr Iff.rfl ?_)
  simp [and_assoc]

/-- The places of the compensations that can be called. -/
theorem mem_readyCompensations_iff {j : Nat} : j ∈ tx.readyCompensations ↔
    ∃ b, tx.branches[j]? = some b ∧ b.status = .compensating ∧
      ∀ m ∈ tx.branches, b.id ∈ m.dependencies → m.status ≠ .compensating := by
  refine (mem_indices tx.branches _ j).trans (exists_congr fun b => and_congr Iff.rfl ?_)
  simp

/-- **Among the branches that are Compensating one can be compensated.** -/
theorem readyCompensations_ne_nil (hrank : ∀ m d, DependsOn tx.branches m d → rank d < rank m)
    {b : Branch} (hb : b ∈ tx.branches) (hst : b.status = .compensating) :
    tx.readyCompensations ≠ [] := by
  -- one of the highest rank
  have hne : (tx.branches.filter fun b => b.status = .compensating) ≠ [] :=
    List.ne_nil_of_mem (List.mem_filter.mpr ⟨hb, decide_eq_true hst⟩)
  obtain ⟨top, htop⟩ := Option.ne_none_iff_exists'.mp
    (mt List.argmax_eq_none.mp hne : List.argmax (fun b => rank b.id) _ ≠ none)
  obtain ⟨hmem, hcomp⟩ := List.mem_filter.mp (List.argmax_mem htop)
  obtain ⟨j, hj⟩ := List.mem_iff_getElem?.mp hmem
  refine List.ne_nil_of_mem (mem_readyCompensations_iff.mpr ⟨top, hj, of_decide_eq_true hcomp, ?_⟩)
  intro m hm hdep hmst
  have hle := List.le_of_mem_argmax (List.mem_filter.mpr ⟨hm, decide_eq_true hmst⟩) htop
  exact absurd (hrank m.id top.id ⟨m, hm, rfl, hdep⟩) (Nat.not_lt.mpr hle)

/-- **A compensation that is ready may be called.** -/
theorem inTurn_compensate {options : TransactionOptions} {g url : String} {j : Nat} {b b' : Branch}
    (hs : SameBranches s₀.branches tx.branches)
    (hback : ∀ b ∈ tx.branches, NodeBackward h b) (hj : j ∈ tx.readyCompensations)
    (hb : tx.branches[j]? = some b) (hid : b'.id = b.id) :
    InTurn s₀.branches h (Dtm.branchCall options g b' url "compensate") := by
  obtain ⟨_, hb', hst, hnone⟩ := mem_readyCompensations_iff.mp hj
  cases hb.symm.trans hb'
  refine ⟨fun hop => absurd (show "compensate" = "action" from hop) (by decide), fun _ => ?_⟩
  have hcall : (Dtm.branchCall options g b' url "compensate").branchId = b.id := hid
  rw [hcall]
  refine ⟨(hback b (List.mem_of_getElem? hb)).acted hst, fun m hm hacted => ?_⟩
  rw [← hs.dependsOn] at hm
  obtain ⟨a, ha, rfl, hdep⟩ := hm
  exact ((hback a ha).owed hacted).resolve_left (hnone a ha hdep)

/-- **An action that is ready may be called.** -/
theorem inTurn_action {options : TransactionOptions} {g url : String} {j : Nat} {b b' : Branch}
    (hn : (s₀.branches.map Branch.id).Nodup) (hs : SameBranches s₀.branches tx.branches)
    (hfwd : ∀ b ∈ tx.branches, NodeForward h b) (hnone : doneIds "compensate" h = [])
    (hj : j ∈ tx.readyBranches) (hb : tx.branches[j]? = some b) (hid : b'.id = b.id) :
    InTurn s₀.branches h (Dtm.branchCall options g b' url "action") := by
  obtain ⟨_, hb', -, hdeps⟩ := mem_readyBranches_iff.mp hj
  cases hb.symm.trans hb'
  refine ⟨fun _ => ⟨fun d hd => ?_, hnone⟩,
    fun hop => absurd (show "action" = "compensate" from hop) (by decide)⟩
  have hcall : (Dtm.branchCall options g b' url "action").branchId = b.id := hid
  have hn' : (tx.branches.map Branch.id).Nodup := by rwa [hs.ids]
  rw [hcall, ← hs.dependsOn, dependsOn_iff hn' (List.mem_of_getElem? hb)] at hd
  obtain ⟨a, ha, hst, rfl⟩ := hdeps d hd
  exact (hfwd a ha).acted.mp hst

/-- The tasks of compensations that all have a URL. -/
theorem compensationTasks_eq {ps : List (Nat × Branch)} (hps : ∀ p ∈ ps, p.2.compensate ≠ none) :
    Dtm.compensationTasks tx ps =
      (spawnAll tx.options tx.gid "compensate" (fun b => b.compensate.getD "") ps, none) := by
  induction ps with
  | nil => rfl
  | cons p ps ih =>
    obtain ⟨j, b⟩ := p
    have hrest := ih fun p hp => hps p (.tail _ hp)
    cases hc : b.compensate with
    | none => exact absurd hc (hps (j, b) (.head _))
    | some url => simp [Dtm.compensationTasks, hc, hrest, spawnAll]

end Graph

section World

variable {s₀ s tx : Transaction} {w w' : World} {i now : Nat} {dtm : Dtm}

theorem GraphAt.still (hw : GraphAt s₀ s w) (h : Still s₀ w w') : GraphAt s₀ s w' where
  toGraphOpen := hw.toGraphOpen.still h
  stored := by
    rw [h.txs]
    exact hw.stored
  record := by
    rw [h.calls]
    exact hw.record

theorem GraphInv.setClock (hw : GraphInv s₀ w) (now : Nat) : GraphInv s₀ (w.setClock now) :=
  hw.imp fun _ h => h.still ⟨rfl, rfl⟩

theorem GraphInv.ordered (hw : GraphInv s₀ w) : w.GraphOrdered s₀ := by
  obtain ⟨s, hs⟩ := hw
  exact hs.order

/-- What is done to other transactions does not matter. -/
theorem steady_graph (s₀ : Transaction) : Steady s₀.gid (World.GraphOrdered s₀) (GraphInv s₀) where
  keyed := fun hw => by
    obtain ⟨s, hs⟩ := hw
    exact hs.keyed
  clock := fun now hw => hw.setClock now
  same := fun {w w'} hw hk hsame => by
    obtain ⟨s, hs⟩ := hw
    have hcalls : callEvents s₀.gid w'.history = callEvents s₀.gid w.history := by
      rw [callEvents, hsame.events, callEvents]
    refine ⟨s, ⟨hk, ?_⟩, hsame.txs.trans hs.stored, ?_⟩
    · rw [World.GraphOrdered, hcalls]
      exact hs.order
    · rw [hcalls]
      exact hs.record
  shows := GraphInv.ordered

/-- The world after the record was written. -/
theorem GraphAt.put (hw : GraphOpen s₀ w)
    (hr : GraphRecord s₀ (callEvents s₀.gid w.history) tx) :
    GraphAt s₀ (bumpTransactionRevision now tx) (w.put (bumpTransactionRevision now tx)) where
  keyed := hw.keyed.put _
  order := hw.order
  stored := by
    have hg : (bumpTransactionRevision now tx).gid = s₀.gid := hr.gid
    rw [World.put_txs, hg]
    exact Std.ExtTreeMap.getElem?_insert_self
  record := ⟨hr.gid, hr.kind, hr.options, hr.same, hr.told, hr.forward⟩

/-- An operation keeps the Saga, however it ends, and does not end with unresolved
compensations. -/
abbrev KeepsGraph {α : Type} (s₀ : Transaction) (i : Nat) (x : Act α) (w : World) : Prop :=
  KeepsOr (fun _ _ => True) (World.GraphOrdered s₀) (GraphInv s₀)
    (fun e => ∀ gid, e ≠ unresolvedCompensation gid) i x w

/-- Writing the record of the Saga. -/
theorem runs_persistGraph {Q : Transaction → World → Prop} {E : Err → World → Prop}
    (hw : GraphOpen s₀ w) (hr : GraphRecord s₀ (callEvents s₀.gid w.history) tx)
    (h : ∀ now w', w'.history = w.history → GraphAt s₀ (bumpTransactionRevision now tx) w' →
      Q tx.written w') :
    (alone fun _ _ => True).Runs (World.GraphOrdered s₀) i (persistTransaction tx) Q E w := by
  refine runs_persistTransaction (fun _ => hw.order) fun now _ => h now _ rfl ?_
  exact .put (w := w.setClock now) ⟨hw.keyed, hw.order⟩ hr

/-- The record of the Saga is found. -/
theorem runs_loadGraph {Q : Transaction → World → Prop} {E : Err → World → Prop}
    (hw : GraphInv s₀ w) (h : ∀ now tx, GraphAt s₀ tx (w.setClock now) → Q tx (w.setClock now)) :
    (alone fun _ _ => True).Runs (World.GraphOrdered s₀) i (loadTransaction s₀.gid) Q E w := by
  obtain ⟨s, hs⟩ := hw
  refine runs_loadTransaction (fun _ => hs.order) (fun now tx htx => ?_) fun now _ hnone => ?_
  · obtain rfl : s = tx := Option.some.inj (hs.stored.symm.trans htx)
    exact h now s (hs.still ⟨rfl, rfl⟩)
  · rw [hs.stored] at hnone
    cases hnone

/-- Reading the record of the Saga again. -/
theorem keeps_reload (hw : GraphInv s₀ w) : KeepsGraph s₀ i (loadTransaction s₀.gid) w :=
  runs_loadGraph hw fun _ tx hs => ⟨tx, hs⟩

/-- **The loop of `abort_concurrent_saga`.** -/
theorem keeps_abortGraphLoop {fuel : Nat} (hG : GraphSaga s₀) (hw : GraphAt s₀ s w)
    (hg : tx.gid = s₀.gid) (hk : tx.kind = .saga) (ho : tx.options = s₀.options)
    (hbs : tx.branches = s.branches) (htx : tx.status = .aborting)
    (hback : ∀ b ∈ tx.branches, NodeBackward (callEvents s₀.gid w.history) b) :
    KeepsGraph s₀ i (dtm.abortConcurrentSagaLoop fuel tx) w := by
  induction fuel generalizing s tx w with
  | zero => exact ⟨s, hw⟩
  | succ fuel ih =>
    have hsame : SameBranches s₀.branches tx.branches := hbs ▸ hw.record.same
    have hforward {st : TransactionStatus} {P : Prop} (h : st = .aborting ∨ st = .aborted)
        (hmem : st ∈ [TransactionStatus.submitted, .succeeding]) : P := by
      rcases h with rfl | rfl <;> exact absurd hmem (by decide)
    rw [Dtm.abortConcurrentSagaLoop]
    split
    · exact runs_persistGraph hw.toGraphOpen ⟨hg, hk, ho, hsame, fun b hb => (hback b hb).told,
        hforward (Or.inr rfl)⟩ fun _ _ _ hw' => ⟨_, hw'⟩
    · rename_i hall
      obtain ⟨b, hb, hst⟩ : ∃ b ∈ tx.branches, b.status = .compensating := by
        simpa using hall
      obtain ⟨rank, hrank⟩ := hG.exists_rank
      have hne : tx.readyCompensations ≠ [] := by
        refine readyCompensations_ne_nil (fun m d hmd => hrank m d ?_) hb hst
        exact (hsame.dependsOn m d).mp hmd
      dsimp only
      rw [if_neg (by simpa using hne)]
      refine Machine.runs_bind.mpr (runs_claimBatch (Or.inr rfl) hw.toGraphOpen
        fun r w₁ hstill => ?_)
      have hw₁ := hw.still hstill
      cases r with
      | false =>
        rw [if_neg (by decide), hg]
        exact keeps_reload ⟨s, hw₁⟩
      | true =>
        rw [if_pos rfl]
        have hback₁ : ∀ b ∈ tx.branches, NodeBackward (callEvents s₀.gid w₁.history) b := by
          rw [hstill.calls]
          exact hback
        generalize hf : (fun branch : Branch =>
          { branch with attempts := satAdd32 branch.attempts 1 }) = f
        have hdef : ∀ b, (f b).definition = b.definition := fun b => by rw [← hf]; rfl
        have hfst : ∀ b, (f b).status = b.status := fun b => by rw [← hf]
        set ready := tx.readyCompensations with hready
        have hsame₁ : SameBranches s₀.branches (tx.mapBranchesAt ready f).branches :=
          hsame.trans (forall₂_mapBranchesAt (fun _ _ _ _ => rfl) hdef)
        have htold₁ : ∀ b ∈ (tx.mapBranchesAt ready f).branches,
            NodeBackward (callEvents s₀.gid w₁.history) b := by
          intro b hb
          obtain ⟨a, ha, rfl | rfl⟩ := of_mem_mapBranchesAt hb
          · exact batchTold_compensate.same (Branch.id_eq (hdef a)) (hfst a) (hback₁ a ha)
          · exact hback₁ _ ha
        -- the attempts are counted
        refine Machine.runs_bind.mpr (runs_persistGraph hw₁.toGraphOpen
          (show GraphRecord s₀ _ (tx.mapBranchesAt ready f) from ⟨hg, hk, ho, hsame₁,
            fun b hb => (htold₁ b hb).told, hforward (Or.inl htx)⟩) fun now₂ w₂ hhist₂ hw₂ => ?_)
        have hsource {j : Nat} {b : Branch}
            (hb : (tx.mapBranchesAt ready f).written.branches[j]? = some b) :
            ∃ a, tx.branches[j]? = some a ∧ b.definition = a.definition ∧ b.status = a.status := by
          obtain ⟨a, ha, rfl⟩ := Option.map_eq_some_iff.mp (getElem?_mapBranchesAt.symm.trans hb)
          refine ⟨a, ha, ?_⟩
          split
          · exact ⟨hdef a, hfst a⟩
          · exact ⟨rfl, rfl⟩
        rw [compensationTasks_eq fun p hp => ?_]
        · dsimp only
          rw [← hhist₂] at hback₁ htold₁
          refine Machine.runs_bind.mpr (runs_runBatch (fun b => b.compensate.getD "") ready
            batchTold_compensate (Or.inr rfl) hG.ids hw₂.toGraphOpen hg hsame₁ (nodup_indices ..)
            (fun j hj => ?_) (fun j hj b hb => ?_) (fun j b hb _ => ?_) fun w₃ bs failed hjoined => ?_)
          · obtain ⟨b, hb, -⟩ := mem_readyCompensations hj
            exact ⟨_, getElem?_mapBranchesAt.trans (by rw [hb]; rfl)⟩
          · obtain ⟨a, ha, hda, hsta⟩ := hsource hb
            obtain ⟨_, ha', hst', -⟩ := mem_readyCompensations_iff.mp hj
            cases ha.symm.trans ha'
            refine ⟨inTurn_compensate hsame hback₁ hj ha (Branch.id_eq hda), ?_⟩
            refine batchTold_compensate.same (b := b) rfl ?_ (htold₁ b (List.mem_of_getElem? hb))
            exact (hsta.trans hst').symm
          · exact htold₁ b (List.mem_of_getElem? hb)
          · -- the branches are written as the batch has left them
            dsimp only
            refine Machine.runs_bind.mpr (runs_persistGraph hjoined.toGraphOpen ⟨hg, hk, ho,
              hjoined.same, fun b hb => (hjoined.told b hb).told, hforward (Or.inl htx)⟩
              fun now₄ w₄ hhist₄ hw₄ => ?_)
            split
            · refine ih hw₄ hg hk ho rfl htx ?_
              rw [hhist₄]
              exact hjoined.told
            · exact ⟨_, hw₄⟩
        · obtain ⟨a, ha, hda, -⟩ := hsource (branchesAt_getElem? hp)
          have hcomp : p.2.compensate = a.compensate := Branch.compensate_eq hda
          rw [hcomp]
          exact hsame.compensate hG.compensate a (List.mem_of_getElem? ha)

theorem aborted_id (b : Branch) : b.aborted.id = b.id := Branch.id_eq (aborted_definition b)

/-- `abort_concurrent_saga`, on the record as it is stored. -/
theorem keeps_abortConcurrentSaga (hG : GraphSaga s₀) (hw : GraphAt s₀ s w)
    (hg : tx.gid = s₀.gid) (hk : tx.kind = .saga) (ho : tx.options = s₀.options)
    (hbs : tx.branches = s.branches) : KeepsGraph s₀ i (dtm.abortConcurrentSaga tx) w := by
  have hsame : SameBranches s₀.branches tx.branches := hbs ▸ hw.record.same
  have hback : ∀ b ∈ tx.branches.map Branch.aborted,
      NodeBackward (callEvents s₀.gid w.history) b := by
    intro b hb
    obtain ⟨a, ha, rfl⟩ := List.mem_map.mp hb
    exact (hw.record.told a (hbs ▸ ha)).backward (aborted_id a) (aborted_status a)
  rw [Dtm.abortConcurrentSaga, hG.accepted hk ho hsame]
  refine Machine.runs_bind.mpr (Machine.runs_pure.mpr (Machine.runs_bind.mpr
    (runs_persistGraph hw.toGraphOpen ⟨hg, hk, ho, hsame.map aborted_definition,
      fun b hb => (hback b hb).told, fun h => ?_⟩ fun now' w' hhist hw' => ?_)))
  · exact absurd h (show ¬ TransactionStatus.aborting ∈ _ by decide)
  · exact keeps_abortGraphLoop hG hw' hg hk ho rfl rfl (hhist.symm ▸ hback)

theorem nonReplayable_ne_unresolved (gid st g : String) :
    s!"transaction {gid} is in non-replayable state {st}" ≠ unresolvedCompensation g := by
  intro h
  have hhead := congrArg (fun s => s.toList.head?) h
  simp [unresolvedCompensation, toString, String.toList_append] at hhead

/-- The errors of a record in another status. -/
theorem ensureStatus_ne_unresolved {allowed : List TransactionStatus} {e : Err}
    (h : ensureStatus tx allowed = .error e) (g : String) : e ≠ unresolvedCompensation g := by
  rw [ensureStatus, ensure] at h
  split at h
  · cases h
  · cases h
    exact nonReplayable_ne_unresolved _ _ g

/-- `abort_saga`. -/
theorem keeps_abortGraph (hG : GraphSaga s₀) (hw : GraphInv s₀ w) :
    KeepsGraph s₀ i (dtm.abortSaga s₀.gid) w := by
  refine Machine.runs_bind.mpr (runs_loadGraph hw fun now tx hs => ?_)
  have hr := hs.record
  have hkind : ensureKind tx .saga = .ok () := ensureKind_eq_ok.mpr hr.kind
  rw [hkind, hr.options, hG.concurrent, if_pos rfl]
  refine Machine.runs_bind.mpr (Machine.runs_pure.mpr ?_)
  split
  · exact ⟨tx, hs⟩
  · rw [Machine.runs_bind, runs_ofExcept]
    split
    · exact keeps_abortConcurrentSaga hG hs hr.gid hr.kind hr.options rfl
    · rename_i e he
      exact ⟨⟨tx, hs⟩, ensureStatus_ne_unresolved he⟩

/-- A branch that was called and did not succeed is not Compensating. -/
theorem turned_status (b : Branch) : (if b.status = .succeeded then { b with status := .compensating }
      else { b with status := .skipped, nextRetryMillis := none } : Branch).status =
    if b.status = .succeeded then .compensating else .skipped := by
  split <;> rfl

/-- **The loop of `start_concurrent_saga`.** -/
theorem keeps_startGraphLoop {fuel : Nat} (hG : GraphSaga s₀) (hw : GraphAt s₀ s w)
    (hg : tx.gid = s₀.gid) (hk : tx.kind = .saga) (ho : tx.options = s₀.options)
    (hbs : tx.branches = s.branches) (htx : tx.status = .succeeding)
    (hnone : doneIds "compensate" (callEvents s₀.gid w.history) = [])
    (hfwd : ∀ b ∈ tx.branches, NodeForward (callEvents s₀.gid w.history) b) :
    KeepsGraph s₀ i (dtm.startConcurrentSagaLoop fuel tx) w := by
  induction fuel generalizing s tx w with
  | zero => exact ⟨s, hw⟩
  | succ fuel ih =>
    have hsame : SameBranches s₀.branches tx.branches := hbs ▸ hw.record.same
    rw [Dtm.startConcurrentSagaLoop]
    split
    · exact runs_persistGraph hw.toGraphOpen ⟨hg, hk, ho, hsame, fun b hb => (hfwd b hb).told,
        fun _ => ⟨hnone, fun b hb => (hfwd b hb).notTurned⟩⟩ fun _ _ _ hw' => ⟨_, hw'⟩
    · dsimp only
      split
      · exact ⟨s, hw⟩
      refine Machine.runs_bind.mpr (runs_claimBatch (Or.inl rfl) hw.toGraphOpen
        fun r w₁ hstill => ?_)
      have hw₁ := hw.still hstill
      cases r with
      | false =>
        rw [if_neg (by decide), hg]
        exact keeps_reload ⟨s, hw₁⟩
      | true =>
        rw [if_pos rfl]
        rw [← hstill.calls] at hfwd hnone
        generalize hf : (fun branch : Branch =>
          { branch with status := .running, attempts := satAdd32 branch.attempts 1 }) = f
        have hdef : ∀ b, (f b).definition = b.definition := fun b => by rw [← hf]; rfl
        have hrun : ∀ b, (f b).status = .running := fun b => by rw [← hf]
        set ready := tx.readyBranches with hready
        have hsame₁ : SameBranches s₀.branches (tx.mapBranchesAt ready f).branches :=
          hsame.trans (forall₂_mapBranchesAt (fun _ _ _ _ => rfl) hdef)
        -- a branch that is called has not succeeded
        have hsource {j : Nat} {b : Branch}
            (hb : (tx.mapBranchesAt ready f).branches[j]? = some b) :
            ∃ a, tx.branches[j]? = some a ∧ b.definition = a.definition ∧
              (j ∈ ready → b.status = .running) ∧ (j ∉ ready → b = a) := by
          obtain ⟨a, ha, rfl⟩ := Option.map_eq_some_iff.mp (getElem?_mapBranchesAt.symm.trans hb)
          refine ⟨a, ha, ?_⟩
          by_cases hj : j ∈ ready
          · rw [if_pos hj]
            exact ⟨hdef a, fun _ => hrun a, fun h => absurd hj h⟩
          · rw [if_neg hj]
            exact ⟨rfl, fun h => absurd h hj, fun _ => rfl⟩
        have hcalled {j : Nat} {b : Branch} {st : BranchStatus} (hj : j ∈ ready)
            (hb : (tx.mapBranchesAt ready f).branches[j]? = some b) (hst : st ≠ .succeeded)
            (hst' : st ≠ .compensating) :
            NodeForward (callEvents s₀.gid w₁.history) { b with status := st } := by
          obtain ⟨a, ha, hda, -⟩ := hsource hb
          obtain ⟨_, ha', hsta, -⟩ := mem_readyBranches_iff.mp hj
          cases ha.symm.trans ha'
          have hnot : a.status ≠ .succeeded := by rcases hsta with h | h <;> rw [h] <;> decide
          have hid : b.id = a.id := Branch.id_eq hda
          refine ⟨⟨fun h => absurd h hst, fun h => ?_⟩, hst'⟩
          exact absurd ((hfwd a (List.mem_of_getElem? ha)).acted.mpr (hid ▸ h)) hnot
        have hfwd₁ : ∀ b ∈ (tx.mapBranchesAt ready f).branches,
            NodeForward (callEvents s₀.gid w₁.history) b := by
          intro b hmem
          obtain ⟨j, hb⟩ := List.mem_iff_getElem?.mp hmem
          obtain ⟨a, ha, -, hin, hout⟩ := hsource hb
          by_cases hj : j ∈ ready
          · have hstatus := hin hj
            refine batchTold_action.same (b := { b with status := .running }) rfl hstatus ?_
            exact hcalled hj hb (by decide) (by decide)
          · rw [hout hj]
            exact hfwd a (List.mem_of_getElem? ha)
        -- the branches are written as Running
        refine Machine.runs_bind.mpr (runs_persistGraph hw₁.toGraphOpen
          (show GraphRecord s₀ _ (tx.mapBranchesAt ready f) from ⟨hg, hk, ho, hsame₁,
            fun b hb => (hfwd₁ b hb).told,
            fun _ => ⟨hnone, fun b hb => (hfwd₁ b hb).notTurned⟩⟩) fun now₂ w₂ hhist₂ hw₂ => ?_)
        rw [← hhist₂] at hfwd hnone hfwd₁ hcalled
        refine Machine.runs_bind.mpr (runs_runBatch Branch.action ready batchTold_action (Or.inl rfl)
          hG.ids hw₂.toGraphOpen hg hsame₁ (nodup_indices ..) (fun j hj => ?_)
          (fun j hj b hb => ?_) (fun j b hb _ => hfwd₁ b (List.mem_of_getElem? hb))
          fun w₃ bs failed hjoined => ?_)
        · obtain ⟨b, hb⟩ := mem_readyBranches hj
          exact ⟨_, getElem?_mapBranchesAt.trans (by rw [hb]; rfl)⟩
        · obtain ⟨a, ha, hda, -⟩ := hsource hb
          exact ⟨inTurn_action hG.ids hsame hfwd hnone hj ha (Branch.id_eq hda),
            hcalled hj hb (by decide) (by decide)⟩
        · have hnone₃ : doneIds "compensate" (callEvents s₀.gid w₃.history) = [] :=
            (hjoined.others "compensate" (by decide)).trans hnone
          dsimp only
          split
          · -- a branch has used up its attempts
            have htold : ∀ b ∈ bs.map fun branch : Branch => if branch.status = .succeeded then
                  { branch with status := .compensating }
                else { branch with status := .skipped, nextRetryMillis := none },
                NodeTold (callEvents s₀.gid w₃.history) b := by
              intro b hb
              obtain ⟨a, ha, rfl⟩ := List.mem_map.mp hb
              refine NodeBackward.told ((hjoined.told a ha).told.backward ?_ ?_)
              · split <;> rfl
              · rw [turned_status]
                simp [(hjoined.told a ha).notTurned]
            refine Machine.runs_bind.mpr (runs_persistGraph hjoined.toGraphOpen ⟨hg, hk, ho,
              hjoined.same.map fun b => ?_, htold, fun h => ?_⟩ fun now₄ w₄ _ hw₄ => ?_)
            · split <;> rfl
            · exact absurd h (show ¬ TransactionStatus.aborting ∈ _ by decide)
            · exact keeps_abortConcurrentSaga hG hw₄ hg hk ho rfl
          · refine Machine.runs_bind.mpr (runs_persistGraph hjoined.toGraphOpen ⟨hg, hk, ho,
              hjoined.same, fun b hb => (hjoined.told b hb).told,
              fun _ => ⟨hnone₃, fun b hb => (hjoined.told b hb).notTurned⟩⟩
              fun now₄ w₄ hhist₄ hw₄ => ?_)
            split
            · rw [← hhist₄] at hnone₃
              refine ih hw₄ hg hk ho rfl htx hnone₃ ?_
              rw [hhist₄]
              exact hjoined.told
            · exact ⟨_, hw₄⟩

/-- `start_saga`. -/
theorem keeps_startGraph (hG : GraphSaga s₀) (hw : GraphInv s₀ w) :
    KeepsGraph s₀ i (dtm.startSaga s₀.gid) w := by
  refine Machine.runs_bind.mpr (runs_loadGraph hw fun now tx hs => ?_)
  have hr := hs.record
  have hkind : ensureKind tx .saga = .ok () := ensureKind_eq_ok.mpr hr.kind
  rw [hkind, hr.options, hG.concurrent, if_pos rfl]
  refine Machine.runs_bind.mpr (Machine.runs_pure.mpr ?_)
  split
  · exact ⟨tx, hs⟩
  · rw [Machine.runs_bind, runs_ofExcept]
    split
    · rename_i hallowed
      obtain ⟨hnone, hst⟩ := hr.forward (ensureStatus_eq_ok.mp hallowed)
      rw [Dtm.startConcurrentSaga, hG.accepted hr.kind hr.options hr.same]
      refine Machine.runs_bind.mpr (Machine.runs_pure.mpr (Machine.runs_bind.mpr
        (runs_persistGraph hs.toGraphOpen ⟨hr.gid, hr.kind, hr.options, hr.same, hr.told,
          fun _ => ⟨hnone, hst⟩⟩ fun now' w' hhist hw' => ?_)))
      refine keeps_startGraphLoop hG hw' hr.gid hr.kind hr.options rfl rfl ?_ fun b hb => ?_
      · rw [hhist]
        exact hnone
      · rw [hhist]
        exact (hr.told b hb).forward hnone (hst b hb)
    · rename_i e he
      exact ⟨⟨tx, hs⟩, ensureStatus_ne_unresolved he⟩

/-- `schedule_abort`. -/
theorem keeps_scheduleAbortGraph (hw : GraphInv s₀ w) :
    KeepsGraph s₀ i (Dtm.scheduleAbort s₀.gid) w := by
  refine Machine.runs_bind.mpr (runs_loadGraph hw fun now tx hs => ?_)
  have hr := hs.record
  split
  · exact ⟨tx, hs⟩
  · rw [if_neg (by rw [hr.kind]; decide), Machine.runs_bind, runs_ofExcept]
    split
    · refine runs_persistGraph hs.toGraphOpen ⟨hr.gid, hr.kind, hr.options,
        hr.same.map fun _ => rfl, fun b hb => ?_, fun h => ?_⟩ fun _ _ _ hw' => ⟨_, hw'⟩
      · obtain ⟨a, ha, rfl⟩ := List.mem_map.mp hb
        have ha' := hr.told a ha
        exact ⟨ha'.succeeded, ha'.compensating, ha'.owed⟩
      · exact absurd h (show ¬ TransactionStatus.aborting ∈ _ by decide)
    · rename_i e he
      exact ⟨⟨tx, hs⟩, ensureStatus_ne_unresolved he⟩

/-- **What a recovery runs for the Saga.** -/
theorem keeps_recoveryGraph {move : Act Transaction} (hG : GraphSaga s₀) (hw : GraphInv s₀ w)
    (hg : tx.gid = s₀.gid) (hk : tx.kind = .saga) (h : dtm.RecoveryMove tx move) :
    KeepsGraph s₀ i move w := by
  have hstatic : ¬ isCallbackWorkflow tx = true := by simp [isCallbackWorkflow, hk]
  cases h with
  | expire =>
    rw [Dtm.expire, hk, hg]
    exact keeps_abortGraph hG hw
  | prepareCallback hc | callback hc => exact absurd hc hstatic
  | confirm h | dispatch h | commit h =>
    rw [hk] at h
    cases h
  | resume _ h =>
    rw [hk, hg, Dtm.resume.eq_def] at h
    cases hst : tx.status with
    | submitted | succeeding =>
      rw [hst] at h
      cases h
      exact keeps_startGraph hG hw
    | aborting =>
      rw [hst] at h
      cases h
      exact keeps_abortGraph hG hw
    | trying | prepared | succeeded | aborted | failed =>
      rw [hst] at h
      cases h

end World

end RozeDtm
