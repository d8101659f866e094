import RozeDtm.Model.Coordinator.Message
import RozeDtm.Trail.Batch
import RozeDtm.Twin.Calls

/-!
# Batches under two gids

The tasks of a batch are the same but for the gid of their calls, and the same task comes next
under both.  The branches keep their names.
-/

namespace RozeDtm

open Conc

variable {fails : (String → Err) → Prop} {gid gid' : String} {dtm : Dtm} {tx r : Transaction}
  {w w' : World} {E : Err → Err → Prop} {op : String}

/-! ### Claims -/

/-- The barriers of some branches. -/
def barriersOf (gid op : String) (ids : List String) : List BranchBarrier :=
  ids.map fun id => ⟨gid, id, op⟩

theorem twin_releaseAll {ids : List String} {Q : Unit → Unit → World → World → Prop}
    (h : Held gid gid' r w w') (hQ : ∀ u u', Held gid gid' r u u' → Q () () u u') :
    Twin fails gid gid' (claimBatch.releaseAll (barriersOf gid op ids))
      (claimBatch.releaseAll (barriersOf gid' op ids)) Q E w w' := by
  induction ids generalizing w w' with
  | nil => exact hQ w w' h
  | cons id ids ih => exact Twin.bind (twin_releaseBarrier h fun _ _ hu => ih hu)

theorem twin_claimBatch (claimed : List String) {ids : List String}
    {Q : Bool → Bool → World → World → Prop}
    (h : Held gid gid' r w w') (hQ : ∀ ok u u', Held gid gid' r u u' → Q ok ok u u') :
    Twin fails gid gid' (claimBatch gid op (barriersOf gid op claimed) ids)
      (claimBatch gid' op (barriersOf gid' op claimed) ids) Q E w w' := by
  induction ids generalizing claimed w w' with
  | nil => exact hQ true w w' h
  | cons id ids ih =>
    refine Twin.bind (twin_barrier h fun decision u u' hu => ?_)
    split
    · exact Twin.bind (twin_releaseAll hu fun u u' hu => hQ false u u' hu)
    · have hmore := ih (claimed ++ [id]) hu
      unfold barriersOf at hmore ⊢
      rw [List.map_append, List.map_append] at hmore
      exact hmore

/-! ### Tasks -/

/-- The same task for two gids, as far as it has come. -/
structure TaskTwin (gid gid' : String) (base : List Branch) (t t' : BatchTask × TaskStage) :
    Prop where
  index : t'.1.index = t.1.index
  branch : t'.1.branch = t.1.branch
  stage : t'.2 = t.2
  barrier : ∃ id op, t.1.call.barrier = ⟨gid, id, op⟩ ∧ t'.1.call.barrier = ⟨gid', id, op⟩
  place : ∃ b, base[t.1.index]? = some b ∧ t.1.branch.definition = b.definition
  returned : ∀ b ok, t.2 = .returned b ok → b.definition = t.1.branch.definition

variable {base : List Branch} {options : TransactionOptions} {onOk onErr : BranchStatus}

/-- **One step of a task.** -/
theorem twin_advanceTask {t t' : BatchTask × TaskStage}
    {Q : TaskStage → TaskStage → World → World → Prop} (ht : TaskTwin gid gid' base t t')
    (h : Held gid gid' r w w')
    (hQ : ∀ stage u u', TaskTwin gid gid' base (t.1, stage) (t'.1, stage) →
      Held gid gid' r u u' → Q stage stage u u') :
    Twin fails gid gid' (dtm.advanceTask options onOk onErr t.1 t.2)
      (dtm.advanceTask options onOk onErr t'.1 t'.2) Q E w w' := by
  obtain ⟨task, stage⟩ := t
  obtain ⟨task', stage'⟩ := t'
  cases (ht.stage : stage' = stage)
  have hstep (stage : TaskStage)
      (hret : ∀ b ok, stage = .returned b ok → b.definition = task.branch.definition) :
      TaskTwin gid gid' base (task, stage) (task', stage) :=
    ⟨ht.index, ht.branch, rfl, ht.barrier, ht.place, hret⟩
  have hbranch : task'.branch = task.branch := ht.branch
  cases stage with
  | spawned =>
    refine Twin.bind (twin_invokeBegin h fun u u' hu => ?_)
    exact hQ .calling u u' (hstep _ fun _ _ hr => nomatch hr) hu
  | calling =>
    unfold Dtm.advanceTask
    rw [hbranch]
    refine Twin.bind (twin_invokeEnd h fun ok u u' hu => Twin.bind ?_)
    cases ok with
    | true =>
      refine hQ _ u u' (hstep _ fun b ok hr => ?_) hu
      cases hr
      rfl
    | false =>
      refine Twin.bind (twin_currentMillis hu fun now u u' hu => ?_)
      refine hQ _ u u' (hstep _ fun b ok hr => ?_) hu
      cases hr
      rfl
  | returned b ok => exact hQ _ w w' ht h

theorem forall₂_eraseIdx {α : Type} {R : α → α → Prop} {as bs : List α} (h : List.Forall₂ R as bs)
    (k : Nat) : List.Forall₂ R (as.eraseIdx k) (bs.eraseIdx k) := by
  induction h generalizing k with
  | nil => exact .nil
  | cons hab h ih =>
    cases k with
    | zero => exact h
    | succ k => exact .cons hab (ih k)

theorem forall₂_set_both {α : Type} {R : α → α → Prop} {as bs : List α} {a b : α}
    (h : List.Forall₂ R as bs) (k : Nat) (hab : R a b) :
    List.Forall₂ R (as.set k a) (bs.set k b) := by
  induction h generalizing k with
  | nil => exact .nil
  | cons hab' h ih =>
    cases k with
    | zero => exact .cons hab h
    | succ k => exact .cons hab' (ih k)

/-- **Joining a batch.** -/
theorem twin_joinBatch {fuel : Nat} {ts ts' : List (BatchTask × TaskStage)} (bs : List Branch)
    {failed : List Branch}
    {Q : Transaction × List Branch → Transaction × List Branch → World → World → Prop}
    (hts : List.Forall₂ (TaskTwin gid gid' base) ts ts') (hbs : SameBranches base bs)
    (h : Held gid gid' r w w')
    (hQ : ∀ bs failed u u', SameBranches base bs → Held gid gid' r u u' →
      Q (({ tx with branches := bs } : Transaction).named gid, failed)
        (({ tx with branches := bs } : Transaction).named gid', failed) u u') :
    Twin fails gid gid'
      (dtm.joinBatch options onOk onErr fuel ts
        (({ tx with branches := bs } : Transaction).named gid) failed)
      (dtm.joinBatch options onOk onErr fuel ts'
        (({ tx with branches := bs } : Transaction).named gid') failed) Q E w w' := by
  induction fuel generalizing ts ts' bs failed w w' with
  | zero => exact hQ bs failed w w' hbs h
  | succ fuel ih =>
    cases hts with
    | nil => exact hQ bs failed w w' hbs h
    | @cons t t' ts ts' ht hrest =>
      have hall : List.Forall₂ (TaskTwin gid gid' base) (t :: ts) (t' :: ts') := .cons ht hrest
      unfold Dtm.joinBatch
      refine Twin.bind (twin_joinNext h hrest.length_eq.symm fun k k' u u' hk hu => ?_)
      -- the task that comes next
      have htask : TaskTwin gid gid' base ((t :: ts).get k) ((t' :: ts').get k') := by
        have hlt : k.val < (t' :: ts').length := hk ▸ k'.isLt
        have hget := hall.get k.isLt hlt
        rwa [show k' = ⟨k.val, hlt⟩ from Fin.ext hk]
      rw [hk]
      generalize (t :: ts).get k = next at htask
      generalize (t' :: ts').get k' = next' at htask
      obtain ⟨task, stage⟩ := next
      obtain ⟨task', stage'⟩ := next'
      cases (htask.stage : stage' = stage)
      have hadvance (hstage : ∀ b ok, stage ≠ .returned b ok) :
          Twin fails gid gid' (dtm.advanceTask options onOk onErr task stage >>= fun stage =>
            dtm.joinBatch options onOk onErr fuel ((t :: ts).set k.val (task, stage))
              (({ tx with branches := bs } : Transaction).named gid) failed)
            (dtm.advanceTask options onOk onErr task' stage >>= fun stage =>
              dtm.joinBatch options onOk onErr fuel ((t' :: ts').set k.val (task', stage))
                (({ tx with branches := bs } : Transaction).named gid') failed) Q E u u' :=
        Twin.bind (twin_advanceTask htask hu fun stage u u' hstage hu =>
          ih _ (forall₂_set_both hall k.val hstage) hbs hu)
      cases stage with
      | spawned => exact hadvance fun _ _ hr => by cases hr
      | calling => exact hadvance fun _ _ hr => by cases hr
      | returned b ok =>
        have hindex : task'.index = task.index := htask.index
        obtain ⟨b₀, hplace, hnode⟩ := htask.place
        have hset : SameBranches base (bs.set task.index b) :=
          forall₂_set hbs hplace ((htask.returned b ok rfl).trans hnode)
        dsimp only
        rw [hindex]
        split
        · exact ih _ (forall₂_eraseIdx hall k.val) hset hu
        · obtain ⟨id, op, hbarrier, hbarrier'⟩ := htask.barrier
          rw [show task.call.barrier = _ from hbarrier, show task'.call.barrier = _ from hbarrier']
          refine Twin.bind (twin_releaseBarrier hu fun u u' hu => ?_)
          exact ih _ (forall₂_eraseIdx hall k.val) hset hu

/-- A batch that is dropped. -/
theorem twin_abandonBatch {fuel : Nat} {ts ts' : List (BatchTask × TaskStage)}
    {Q : Unit → Unit → World → World → Prop}
    (hts : List.Forall₂ (TaskTwin gid gid' base) ts ts') (h : Held gid gid' r w w')
    (hQ : ∀ u u', Held gid gid' r u u' → Q () () u u') :
    Twin fails gid gid' (dtm.abandonBatch options onOk onErr fuel ts)
      (dtm.abandonBatch options onOk onErr fuel ts') Q E w w' := by
  induction fuel generalizing ts ts' w w' with
  | zero => exact hQ w w' h
  | succ fuel ih =>
    unfold Dtm.abandonBatch
    refine Twin.bind (twin_joinNext h hts.length_eq.symm fun k k' u u' hk hu => ?_)
    rw [hk]
    cases hnext : ts[k.val]? with
    | none =>
      have hnext' : ts'[k.val]? = none := by
        rw [List.getElem?_eq_none_iff] at hnext ⊢
        rwa [← hts.length_eq]
      rw [hnext']
      exact hQ u u' hu
    | some next =>
      obtain ⟨hlt, rfl⟩ := List.getElem?_eq_some_iff.mp hnext
      have hlt' : k.val < ts'.length := hts.length_eq ▸ hlt
      rw [List.getElem?_eq_getElem hlt']
      have htask := hts.get hlt hlt'
      exact Twin.bind (twin_advanceTask htask hu fun stage u u' hstage hu =>
        ih (forall₂_set_both hts k.val hstage) hu)

end RozeDtm
