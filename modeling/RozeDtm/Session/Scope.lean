import RozeDtm.Session.Rules
import RozeDtm.Model.Coordinator.Recover

/-!
# An operation on one transaction stays with it

`within gid` is the discipline of an operation that reads, writes, takes barriers and calls
branches of the transaction `gid` only.  Every operation on one gid keeps it, and so does
each move of the recovery tick with the gid of the listed transaction.
-/

namespace RozeDtm

open Conc

/-- What an operation on `gid` does.  A record that is read under a gid has that gid. -/
def within (gid : String) : Discipline effects Unit where
  pre := fun _ o => match o with
    | .updateTransaction tx => tx.gid = gid
    | .getTransaction gid' | .finishWorkflow gid' _ _ _ | .deferWorkflowRecovery gid' _ =>
      gid' = gid
    | .barrier b | .releaseBarrier b => b.gid = gid
    | .invokeBegin c | .invokeEnd c => c.gid = gid
    | .insertTransaction _ | .registerBranch _ _ | .recordWorkflowProgress _ _
    | .deleteTransactionIfUnchanged _ | .listTransactions | .getKv _ _
    | .acquireRecoveryLease _ _ _ => False
    | _ => True
  sees := fun _ o r => match o with
    | .getTransaction gid' => ∀ tx, (r : Option Transaction) = some tx → tx.gid = gid'
    | _ => True
  next := fun _ _ _ => ()

section Rules

variable {gid : String} {t : Unit} {α : Type}

theorem within_call {o : Effect} {Q : Unit → o.Reply → Prop} :
    (within gid).Does (Act.call o) t Q ↔
      (within gid).pre t o ∧ ∀ r, (within gid).sees t o r → Q () r :=
  Discipline.does_perform

@[simp] theorem within_getTransaction {Q : Unit → Option Transaction → Prop} :
    (within gid).Does (Store.getTransaction gid) t Q ↔
      ∀ r : Option Transaction, (∀ tx, r = some tx → tx.gid = gid) → Q () r :=
  within_call.trans ⟨fun h => h.2, fun h => ⟨rfl, h⟩⟩

@[simp] theorem within_loadTransaction {Q : Unit → Transaction → Prop} :
    (within gid).Does (loadTransaction gid) t Q ↔ ∀ tx, tx.gid = gid → Q () tx := by
  simp only [loadTransaction, Discipline.does_bind, within_getTransaction, does_ofOption]
  exact ⟨fun h tx htx => h (some tx) (fun _ h => by cases h; exact htx) tx rfl,
    fun h r hr tx htx => h tx (hr tx htx)⟩

@[simp] theorem within_transactionOfKind {kind : TransactionKind}
    {Q : Unit → Transaction → Prop} :
    (within gid).Does (transactionOfKind gid kind) t Q ↔
      ∀ tx, tx.gid = gid → tx.kind = kind → Q () tx := by
  simp only [transactionOfKind, Discipline.does_bind, within_loadTransaction, does_ofExcept,
    ensureKind_eq_ok, Discipline.does_pure]
  exact ⟨fun h tx hg hk => h tx hg () hk, fun h tx hg _ hk => h tx hg hk⟩

theorem within_persistTransaction {tx : Transaction} {Q : Unit → Transaction → Prop}
    (hg : tx.gid = gid) (hQ : Q () tx.written) :
    (within gid).Does (persistTransaction tx) t Q := by
  refine ⟨hg, fun r _ => ?_⟩
  match r with
  | .ok _ =>
    intro a ha
    cases ha
    exact hQ
  | .error _ =>
    intro a ha
    cases ha

theorem within_barrier {b : BranchBarrier} {Q : Unit → BarrierDecision → Prop}
    (hb : b.gid = gid) (hQ : ∀ d, Q () d) : (within gid).Does (Store.barrier b) t Q :=
  within_call.mpr ⟨hb, fun d _ => hQ d⟩

theorem within_releaseBarrier {b : BranchBarrier} {Q : Unit → Unit → Prop}
    (hb : b.gid = gid) (hQ : Q () ()) : (within gid).Does (Store.releaseBarrier b) t Q :=
  within_call.mpr ⟨hb, fun _ _ => hQ⟩

@[simp] theorem within_currentMillis {Q : Unit → Nat → Prop} :
    (within gid).Does currentMillis t Q ↔ ∀ now, Q () now :=
  within_call.trans ⟨fun h r => h.2 r trivial, fun h => ⟨trivial, fun r _ => h r⟩⟩

@[simp] theorem within_joinNext {n : Nat} {Q : Unit → Fin (n + 1) → Prop} :
    (within gid).Does (joinNext n) t Q ↔ ∀ k, Q () k :=
  within_call.trans ⟨fun h r => h.2 r trivial, fun h => ⟨trivial, fun r _ => h r⟩⟩

theorem within_invokeBranch {dtm : Dtm} {options : TransactionOptions} {branch : Branch}
    {url op : String} {Q : Unit → Branch × Bool → Prop} (hQ : ∀ r, Q () r) :
    (within gid).Does (dtm.invokeBranch options gid branch url op) t Q := by
  simp only [Dtm.invokeBranch, Discipline.does_bind]
  refine within_call.mpr ⟨rfl, fun _ _ => within_call.mpr ⟨rfl, fun ok _ => ?_⟩⟩
  split
  · exact Discipline.does_pure.mpr (hQ _)
  · simp only [Discipline.does_bind, within_currentMillis, Discipline.does_pure]
    exact fun _ => hQ _

end Rules

section Operations

variable {gid : String} {t : Unit} {dtm : Dtm}

/-! ### TCC and XA -/

theorem within_prepareTccLoop {tx : Transaction} (hg : tx.gid = gid) (passed ahead : List Branch) :
    (within gid).Does (dtm.prepareTccLoop tx passed ahead) t (fun _ _ => True) := by
  induction ahead generalizing passed with
  | nil => exact within_persistTransaction hg trivial
  | cons branch ahead ih =>
    rw [Dtm.prepareTccLoop]
    split
    · exact ih _
    · rw [Discipline.does_bind]
      refine within_barrier hg fun d => ?_
      cases d with
      | execute =>
        simp only [Discipline.does_bind]
        subst hg
        refine within_invokeBranch fun r => ?_
        split
        · exact ih _
        · rw [Discipline.does_bind]
          exact within_releaseBarrier rfl (within_persistTransaction rfl trivial)
      | skipDuplicate => exact ih _
      | skipNullCompensation => exact Discipline.does_throw
      | skipCancelledTry => exact within_persistTransaction hg trivial

theorem within_prepareTcc : (within gid).Does (dtm.prepareTcc gid) t (fun _ _ => True) := by
  simp only [Dtm.prepareTcc, Discipline.does_bind, within_loadTransaction, does_ofExcept]
  intro tx hg _ _
  split
  · exact Discipline.does_pure.mpr trivial
  · simp only [Discipline.does_bind, does_ofExcept]
    exact fun _ _ => within_prepareTccLoop (by exact hg) _ _

theorem within_phase2Loop {op : String} {url : Branch → Except Err String} {onOk : BranchStatus}
    {final : TransactionStatus} {tx : Transaction} (hg : tx.gid = gid)
    (passed ahead : List Branch) :
    (within gid).Does (dtm.phase2Loop op url onOk final tx passed ahead) t (fun _ _ => True) := by
  induction ahead generalizing passed with
  | nil => exact within_persistTransaction hg trivial
  | cons branch ahead ih =>
    rw [Dtm.phase2Loop, Discipline.does_bind]
    refine within_barrier hg fun d => ?_
    split
    · simp only [Discipline.does_bind, does_ofExcept]
      subst hg
      refine fun _ _ => within_invokeBranch fun r => ?_
      split
      · exact ih _
      · rw [Discipline.does_bind]
        exact within_releaseBarrier rfl (within_persistTransaction rfl trivial)
    · exact ih _

theorem within_confirmTcc : (within gid).Does (dtm.confirmTcc gid) t (fun _ _ => True) := by
  simp only [Dtm.confirmTcc, Discipline.does_bind, within_loadTransaction, does_ofExcept]
  intro tx hg _ _
  split
  · exact Discipline.does_pure.mpr trivial
  · simp only [Discipline.does_bind, does_ofExcept]
    exact fun _ _ => within_phase2Loop (by exact hg) _ _

theorem within_cancelTccLoop {tx : Transaction} (hg : tx.gid = gid) (passed ahead : List Branch) :
    (within gid).Does (dtm.cancelTccLoop tx passed ahead) t (fun _ _ => True) := by
  induction ahead generalizing passed with
  | nil => exact within_persistTransaction hg trivial
  | cons branch ahead ih =>
    simp only [Dtm.cancelTccLoop, Discipline.does_bind]
    refine within_barrier hg fun d => ?_
    split
    · simp only [Discipline.does_bind, does_ofExcept]
      subst hg
      refine fun _ _ => within_invokeBranch fun r => ?_
      split
      · exact ih _
      · rw [Discipline.does_bind]
        exact within_releaseBarrier rfl (within_persistTransaction rfl trivial)
    · cases d with
      | execute => exact Discipline.does_throw
      | skipDuplicate => exact ih _
      | skipNullCompensation => exact ih _
      | skipCancelledTry => exact Discipline.does_throw

theorem within_cancelTcc : (within gid).Does (dtm.cancelTcc gid) t (fun _ _ => True) := by
  simp only [Dtm.cancelTcc, Discipline.does_bind, within_loadTransaction, does_ofExcept]
  intro tx hg _ _
  split
  · exact Discipline.does_pure.mpr trivial
  · simp only [Discipline.does_bind, does_ofExcept]
    exact fun _ _ => within_cancelTccLoop (by exact hg) _ _

theorem within_prepareXa : (within gid).Does (Dtm.prepareXa gid) t (fun _ _ => True) := by
  simp only [Dtm.prepareXa, Discipline.does_bind, within_transactionOfKind]
  intro tx hg _
  split
  · exact Discipline.does_pure.mpr trivial
  · simp only [Discipline.does_bind, does_ofExcept]
    exact fun _ _ => within_persistTransaction hg trivial

theorem within_commitXa : (within gid).Does (dtm.commitXa gid) t (fun _ _ => True) := by
  simp only [Dtm.commitXa, Discipline.does_bind, within_transactionOfKind]
  intro tx hg _
  split
  · exact Discipline.does_pure.mpr trivial
  · simp only [Discipline.does_bind, does_ofExcept]
    exact fun _ _ => within_phase2Loop (by exact hg) _ _

theorem within_rollbackXa : (within gid).Does (dtm.rollbackXa gid) t (fun _ _ => True) := by
  simp only [Dtm.rollbackXa, Discipline.does_bind, within_transactionOfKind]
  intro tx hg _
  split
  · exact Discipline.does_pure.mpr trivial
  · simp only [Discipline.does_bind, does_ofExcept]
    exact fun _ _ => within_phase2Loop (by exact hg) _ _

/-! ### Batches -/

theorem within_releaseAll {bs : List BranchBarrier} (hbs : ∀ b ∈ bs, b.gid = gid) :
    (within gid).Does (claimBatch.releaseAll bs) t (fun _ _ => True) := by
  induction bs with
  | nil => exact Discipline.does_pure.mpr trivial
  | cons b rest ih =>
    rw [claimBatch.releaseAll, Discipline.does_bind]
    exact within_releaseBarrier (hbs b (.head _)) (ih fun b hb => hbs b (.tail _ hb))

theorem within_claimBatch {op : String} {claimed : List BranchBarrier} (ids : List String)
    (hbs : ∀ b ∈ claimed, b.gid = gid) :
    (within gid).Does (claimBatch gid op claimed ids) t (fun _ _ => True) := by
  induction ids generalizing claimed with
  | nil => exact Discipline.does_pure.mpr trivial
  | cons id ids ih =>
    simp only [claimBatch, Discipline.does_bind]
    refine within_barrier rfl fun d => ?_
    split
    · rw [Discipline.does_bind]
      exact (within_releaseAll hbs).mono fun _ _ _ => Discipline.does_pure.mpr trivial
    · refine ih fun b hb => ?_
      rcases List.mem_append.mp hb with hb | hb
      · exact hbs b hb
      · rw [List.mem_singleton.mp hb]

theorem within_advanceTask {options : TransactionOptions} {onOk onErr : BranchStatus}
    {task : BatchTask} (hg : task.call.gid = gid) (stage : TaskStage) :
    (within gid).Does (dtm.advanceTask options onOk onErr task stage) t (fun _ _ => True) := by
  cases stage with
  | spawned =>
    rw [Dtm.advanceTask, Discipline.does_bind]
    exact within_call.mpr ⟨hg, fun _ _ => Discipline.does_pure.mpr trivial⟩
  | calling =>
    simp only [Dtm.advanceTask, Dtm.settleTask, Discipline.does_bind]
    refine within_call.mpr ⟨hg, fun ok _ => ?_⟩
    split
    · exact Discipline.does_pure.mpr (Discipline.does_pure.mpr trivial)
    · simp only [Discipline.does_bind, within_currentMillis, Discipline.does_pure]
      exact fun _ => trivial
  | returned branch succeeded => exact Discipline.does_pure.mpr trivial

theorem within_joinBatch {options : TransactionOptions} {onOk onErr : BranchStatus} {fuel : Nat}
    {ts : List (BatchTask × TaskStage)} (hts : ∀ p ∈ ts, p.1.call.gid = gid) (tx : Transaction)
    (failed : List Branch) :
    (within gid).Does (dtm.joinBatch options onOk onErr fuel ts tx failed) t
      (fun _ r => r.1.gid = tx.gid) := by
  induction fuel generalizing ts tx failed with
  | zero => exact Discipline.does_pure.mpr rfl
  | succ fuel ih =>
    cases ts with
    | nil => exact Discipline.does_pure.mpr rfl
    | cons p ts =>
      simp only [Dtm.joinBatch, Discipline.does_bind, within_joinNext]
      intro k
      have hk : ((p :: ts).get k).1.call.gid = gid := hts _ (List.get_mem ..)
      have herase : ∀ q ∈ (p :: ts).eraseIdx k, q.1.call.gid = gid :=
        fun q hq => hts q (List.mem_of_mem_eraseIdx hq)
      split
      · rename_i task branch succeeded heq
        rw [heq] at hk
        split
        · exact ih herase _ _
        · rw [Discipline.does_bind]
          exact within_releaseBarrier hk (ih herase _ _)
      · rename_i task stage _ heq
        rw [heq] at hk
        rw [Discipline.does_bind]
        refine (within_advanceTask hk _).mono fun _ stage _ => ih (fun q hq => ?_) _ _
        rcases List.mem_or_eq_of_mem_set hq with hq | rfl
        · exact hts q hq
        · exact hk

theorem within_abandonBatch {options : TransactionOptions} {onOk onErr : BranchStatus}
    {fuel : Nat} {ts : List (BatchTask × TaskStage)} (hts : ∀ p ∈ ts, p.1.call.gid = gid) :
    (within gid).Does (dtm.abandonBatch options onOk onErr fuel ts) t (fun _ _ => True) := by
  induction fuel generalizing ts with
  | zero => exact Discipline.does_pure.mpr trivial
  | succ fuel ih =>
    simp only [Dtm.abandonBatch, Discipline.does_bind, within_joinNext]
    intro k
    split
    · exact Discipline.does_pure.mpr trivial
    · rename_i task stage hk
      have hk : task.call.gid = gid := hts _ (List.mem_of_getElem? hk)
      rw [Discipline.does_bind]
      refine (within_advanceTask hk _).mono fun _ stage _ => ih fun q hq => ?_
      rcases List.mem_or_eq_of_mem_set hq with hq | rfl
      · exact hts q hq
      · exact hk

theorem within_runBatch {options : TransactionOptions} {onOk onErr : BranchStatus}
    {tasks : List BatchTask} (hts : ∀ task ∈ tasks, task.call.gid = gid) (tx : Transaction) :
    (within gid).Does (dtm.runBatch options onOk onErr tasks tx) t
      (fun _ r => r.1.gid = tx.gid) := by
  refine within_joinBatch (fun p hp => ?_) tx []
  obtain ⟨task, htask, rfl⟩ := List.mem_map.mp hp
  exact hts task htask

/-! ### Messages -/

theorem within_prepareMessage :
    (within gid).Does (Dtm.prepareMessage gid) t (fun _ _ => True) := by
  simp only [Dtm.prepareMessage, Discipline.does_bind, within_transactionOfKind]
  intro tx hg _
  split
  · exact Discipline.does_pure.mpr trivial
  · simp only [Discipline.does_bind, does_ofExcept]
    exact fun _ _ => within_persistTransaction hg trivial

theorem within_abortMessage : (within gid).Does (Dtm.abortMessage gid) t (fun _ _ => True) := by
  simp only [Dtm.abortMessage, Discipline.does_bind, within_transactionOfKind]
  intro tx hg _
  split
  · exact Discipline.does_pure.mpr trivial
  · simp only [Discipline.does_bind, does_ofExcept]
    exact fun _ _ => within_persistTransaction hg trivial

theorem within_dispatchMessageLoop {tx : Transaction} (hg : tx.gid = gid)
    (passed ahead : List Branch) :
    (within gid).Does (dtm.dispatchMessageLoop tx passed ahead) t (fun _ _ => True) := by
  induction ahead generalizing passed with
  | nil => exact within_persistTransaction hg trivial
  | cons branch ahead ih =>
    rw [Dtm.dispatchMessageLoop]
    split
    · exact ih _
    · rw [Discipline.does_bind]
      refine within_barrier hg fun d => ?_
      split
      · simp only [Discipline.does_bind]
        subst hg
        refine within_invokeBranch fun r => ?_
        split
        · exact ih _
        · rw [Discipline.does_bind]
          exact within_releaseBarrier rfl (within_persistTransaction rfl trivial)
      · exact ih _

theorem within_dispatchMessageConcurrent {tx : Transaction} (hg : tx.gid = gid) :
    (within gid).Does (dtm.dispatchMessageConcurrent tx) t (fun _ _ => True) := by
  subst hg
  rw [Dtm.dispatchMessageConcurrent]
  split
  · exact within_persistTransaction rfl trivial
  · rw [Discipline.does_bind]
    refine (within_claimBatch _ (by simp)).mono fun _ claimed _ => ?_
    split
    · rw [Discipline.does_bind]
      refine within_persistTransaction rfl ?_
      rw [Discipline.does_bind]
      refine (within_runBatch (fun task htask => ?_) _).mono fun _ r hr => ?_
      · obtain ⟨_, -, rfl⟩ := List.mem_map.mp htask
        rfl
      · exact within_persistTransaction hr trivial
    · exact within_loadTransaction.mpr fun _ _ => trivial

theorem within_dispatchMessage :
    (within gid).Does (dtm.dispatchMessage gid) t (fun _ _ => True) := by
  -- what follows once the record is Succeeding
  have dispatch {tx : Transaction} (hg : tx.gid = gid) (now : Nat) : (within gid).Does (do
      if !messageDispatchDue tx now then
        return tx
      if tx.options.concurrent then
        dtm.dispatchMessageConcurrent tx
      else
        dtm.dispatchMessageLoop tx [] tx.branches) () (fun _ _ => True) := by
    split
    · exact Discipline.does_pure.mpr trivial
    · split
      · exact within_dispatchMessageConcurrent hg
      · exact within_dispatchMessageLoop hg _ _
  simp only [Dtm.dispatchMessage, Discipline.does_bind, within_transactionOfKind]
  intro tx hg _
  split
  · exact Discipline.does_pure.mpr trivial
  · simp only [Discipline.does_bind, does_ofExcept]
    intro _ _
    split
    · rw [Discipline.does_bind]
      refine within_persistTransaction hg ?_
      rw [Discipline.does_bind, within_currentMillis]
      exact fun now => dispatch (by exact hg) now
    · simp only [Discipline.does_bind, Discipline.does_pure, within_currentMillis]
      exact fun now => dispatch hg now

/-! ### Sagas -/

theorem within_abortSagaLoop {tx : Transaction} (hg : tx.gid = gid) (ahead passed : List Branch) :
    (within gid).Does (dtm.abortSagaLoop tx ahead passed) t (fun _ _ => True) := by
  induction ahead generalizing passed with
  | nil => exact within_persistTransaction hg trivial
  | cons branch ahead ih =>
    rw [Dtm.abortSagaLoop]
    split
    · exact ih _
    split
    · exact ih _
    · simp only [Discipline.does_bind]
      refine within_barrier hg fun d => ?_
      cases d with
      | execute =>
        dsimp only
        split
        · simp only [Discipline.does_bind]
          subst hg
          refine within_invokeBranch fun r => ?_
          split
          · exact ih _
          · rw [Discipline.does_bind]
            exact within_releaseBarrier rfl (within_persistTransaction rfl trivial)
        · exact ih _
      | skipDuplicate => exact within_persistTransaction hg trivial
      | skipNullCompensation => exact Discipline.does_throw
      | skipCancelledTry => exact Discipline.does_throw

theorem within_compensationTasks {tx : Transaction} (hg : tx.gid = gid)
    (bs : List (Nat × Branch)) : ∀ task ∈ (Dtm.compensationTasks tx bs).1, task.call.gid = gid := by
  induction bs with
  | nil => simp [Dtm.compensationTasks]
  | cons b bs ih =>
    obtain ⟨index, branch⟩ := b
    rw [Dtm.compensationTasks]
    split
    · simp
    · intro task htask
      rcases List.mem_cons.mp htask with rfl | htask
      · exact hg
      · exact ih task htask

theorem within_abortConcurrentSagaLoop {fuel : Nat} {tx : Transaction} (hg : tx.gid = gid) :
    (within gid).Does (dtm.abortConcurrentSagaLoop fuel tx) t (fun _ _ => True) := by
  induction fuel generalizing tx with
  | zero => exact Discipline.does_pure.mpr trivial
  | succ fuel ih =>
    subst hg
    simp only [Dtm.abortConcurrentSagaLoop]
    split
    · exact within_persistTransaction rfl trivial
    · split
      · exact Discipline.does_throw
      · rw [Discipline.does_bind]
        refine (within_claimBatch _ (by simp)).mono fun _ claimed _ => ?_
        split
        · rw [Discipline.does_bind]
          refine within_persistTransaction rfl ?_
          have htasks := @within_compensationTasks tx.gid
            (tx.mapBranchesAt tx.readyCompensations fun branch =>
              { branch with attempts := satAdd32 branch.attempts 1 }).written rfl
          split
          · rw [Discipline.does_bind]
            refine (within_abandonBatch fun p hp => ?_).mono fun _ _ _ => Discipline.does_throw
            obtain ⟨task, htask, rfl⟩ := List.mem_map.mp hp
            exact htasks _ task htask
          · rw [Discipline.does_bind]
            refine (within_runBatch (htasks _) _).mono fun _ r hr => ?_
            rw [Discipline.does_bind]
            refine within_persistTransaction hr ?_
            split
            · exact ih hr
            · exact Discipline.does_pure.mpr trivial
        · exact within_loadTransaction.mpr fun _ _ => trivial

theorem within_abortConcurrentSaga {tx : Transaction} (hg : tx.gid = gid) :
    (within gid).Does (dtm.abortConcurrentSaga tx) t (fun _ _ => True) := by
  simp only [Dtm.abortConcurrentSaga, Discipline.does_bind, does_ofExcept]
  exact fun _ _ => within_persistTransaction hg (within_abortConcurrentSagaLoop hg)

theorem within_abortSaga : (within gid).Does (dtm.abortSaga gid) t (fun _ _ => True) := by
  simp only [Dtm.abortSaga, Discipline.does_bind, within_loadTransaction, does_ofExcept]
  intro tx hg _ _
  split
  · exact Discipline.does_pure.mpr trivial
  · simp only [Discipline.does_bind, does_ofExcept]
    intro _ _
    split
    · exact within_abortConcurrentSaga hg
    · exact within_abortSagaLoop (by exact hg) _ _

theorem within_startSagaLoop {tx : Transaction} (hg : tx.gid = gid) (passed ahead : List Branch) :
    (within gid).Does (dtm.startSagaLoop gid tx passed ahead) t (fun _ _ => True) := by
  induction ahead generalizing tx passed with
  | nil => exact within_persistTransaction hg trivial
  | cons branch ahead ih =>
    rw [Dtm.startSagaLoop]
    split
    · exact ih hg _
    · rw [Discipline.does_bind]
      refine within_barrier hg fun d => ?_
      split
      · exact within_loadTransaction.mpr fun _ _ => trivial
      · simp only [Discipline.does_bind]
        subst hg
        refine within_invokeBranch fun r => ?_
        split
        · rw [Discipline.does_bind]
          exact within_persistTransaction rfl (ih (by rfl) _)
        · split
          · rw [Discipline.does_bind]
            exact within_releaseBarrier rfl (within_persistTransaction rfl trivial)
          · rw [Discipline.does_bind]
            exact within_persistTransaction rfl within_abortSaga

theorem within_startConcurrentSagaLoop {fuel : Nat} {tx : Transaction} (hg : tx.gid = gid) :
    (within gid).Does (dtm.startConcurrentSagaLoop fuel tx) t (fun _ _ => True) := by
  induction fuel generalizing tx with
  | zero => exact Discipline.does_pure.mpr trivial
  | succ fuel ih =>
    subst hg
    simp only [Dtm.startConcurrentSagaLoop]
    split
    · exact within_persistTransaction rfl trivial
    · split
      · exact Discipline.does_pure.mpr trivial
      · rw [Discipline.does_bind]
        refine (within_claimBatch _ (by simp)).mono fun _ claimed _ => ?_
        split
        · rw [Discipline.does_bind]
          refine within_persistTransaction rfl ?_
          rw [Discipline.does_bind]
          refine (within_runBatch (fun task htask => ?_) _).mono fun _ r hr => ?_
          · obtain ⟨_, -, rfl⟩ := List.mem_map.mp htask
            rfl
          · split
            · rw [Discipline.does_bind]
              exact within_persistTransaction hr (within_abortConcurrentSaga hr)
            · rw [Discipline.does_bind]
              refine within_persistTransaction hr ?_
              split
              · exact ih hr
              · exact Discipline.does_pure.mpr trivial
        · exact within_loadTransaction.mpr fun _ _ => trivial

theorem within_startSaga : (within gid).Does (dtm.startSaga gid) t (fun _ _ => True) := by
  simp only [Dtm.startSaga, Discipline.does_bind, within_loadTransaction, does_ofExcept]
  intro tx hg _ _
  split
  · exact Discipline.does_pure.mpr trivial
  · simp only [Discipline.does_bind, does_ofExcept]
    intro _ _
    split
    · simp only [Dtm.startConcurrentSaga, Discipline.does_bind, does_ofExcept]
      exact fun _ _ => within_persistTransaction hg (within_startConcurrentSagaLoop hg)
    · rw [Discipline.does_bind]
      exact within_persistTransaction hg (within_startSagaLoop (by exact hg) _ _)

/-! ### Workflows -/

theorem within_prepareWorkflow :
    (within gid).Does (Dtm.prepareWorkflow gid) t (fun _ tx => tx.gid = gid) := by
  simp only [Dtm.prepareWorkflow, Discipline.does_bind, within_transactionOfKind]
  intro tx hg _
  split
  · exact Discipline.does_pure.mpr hg
  · simp only [Discipline.does_bind, does_ofExcept]
    exact fun _ _ => within_persistTransaction hg hg

theorem within_abortWorkflowLoop {tx : Transaction} (hg : tx.gid = gid)
    (ahead passed : List Branch) :
    (within gid).Does (dtm.abortWorkflowLoop tx ahead passed) t (fun _ _ => True) := by
  induction ahead generalizing passed with
  | nil => exact within_persistTransaction hg trivial
  | cons branch ahead ih =>
    rw [Dtm.abortWorkflowLoop]
    split
    · exact ih _
    · rw [Discipline.does_bind]
      refine within_barrier hg fun d => ?_
      split
      · simp only [Discipline.does_bind, does_ofOption]
        subst hg
        refine fun _ _ => within_invokeBranch fun r => ?_
        split
        · exact ih _
        · rw [Discipline.does_bind]
          exact within_releaseBarrier rfl (within_persistTransaction rfl trivial)
      · exact ih _

theorem within_abortWorkflow : (within gid).Does (dtm.abortWorkflow gid) t (fun _ _ => True) := by
  simp only [Dtm.abortWorkflow, Discipline.does_bind, within_transactionOfKind]
  intro tx hg _
  split
  · exact Discipline.does_pure.mpr trivial
  · simp only [Discipline.does_bind, does_ofExcept]
    exact fun _ _ => within_abortWorkflowLoop (by exact hg) _ _

theorem within_startWorkflowLoop {fuel : Nat} {tx : Transaction} (hg : tx.gid = gid) :
    (within gid).Does (dtm.startWorkflowLoop gid fuel tx) t (fun _ _ => True) := by
  induction fuel generalizing tx with
  | zero => exact Discipline.does_pure.mpr trivial
  | succ fuel ih =>
    rw [Dtm.startWorkflowLoop]
    split
    · split
      · exact within_persistTransaction hg trivial
      · exact Discipline.does_throw
    · rw [Discipline.does_bind]
      refine within_barrier hg fun d => ?_
      split
      · exact within_loadTransaction.mpr fun _ _ => trivial
      · simp only [Discipline.does_bind]
        subst hg
        refine within_invokeBranch fun r => ?_
        split
        · rw [Discipline.does_bind]
          exact within_persistTransaction rfl (ih rfl)
        · rw [Discipline.does_bind]
          refine within_releaseBarrier rfl ?_
          rw [Discipline.does_bind]
          exact within_persistTransaction rfl within_abortWorkflow

theorem within_startWorkflow : (within gid).Does (dtm.startWorkflow gid) t (fun _ _ => True) := by
  simp only [Dtm.startWorkflow, Discipline.does_bind, within_transactionOfKind]
  intro tx hg _
  split
  · exact Discipline.does_pure.mpr trivial
  · simp only [Discipline.does_bind, does_ofExcept]
    exact fun _ _ _ _ => within_startWorkflowLoop hg

theorem within_terminalAfterConflict {e : Err} :
    (within gid).Does (Dtm.terminalAfterConflict gid e) t (fun _ _ => True) := by
  simp only [Dtm.terminalAfterConflict, Discipline.does_bind, within_loadTransaction]
  intro tx _
  split
  · exact Discipline.does_pure.mpr trivial
  · exact Discipline.does_throw

theorem within_finishOrTerminal {reason : Option String} :
    (within gid).Does (Dtm.finishOrTerminal gid reason) t (fun _ _ => True) := by
  rw [Dtm.finishOrTerminal, Discipline.does_bind]
  refine within_call.mpr ⟨rfl, fun r _ => ?_⟩
  match (r : Except Err Transaction) with
  | .ok tx => exact Discipline.does_pure.mpr trivial
  | .error e => exact within_terminalAfterConflict

theorem within_deferCallbackWorkflow {tx : Transaction} (hg : tx.gid = gid) {at' : Nat}
    {backoff : Bool} {outcome : String} :
    (within gid).Does (dtm.deferCallbackWorkflow tx at' backoff outcome) t (fun _ _ => True) := by
  subst hg
  rw [Dtm.deferCallbackWorkflow, Discipline.does_bind]
  refine within_call.mpr ⟨rfl, fun r _ => ?_⟩
  match (r : Except Err Transaction) with
  | .ok tx => exact Discipline.does_pure.mpr trivial
  | .error e => exact within_terminalAfterConflict

theorem within_recoverCallbackWorkflow :
    (within gid).Does (dtm.recoverCallbackWorkflow gid) t (fun _ _ => True) := by
  simp only [Dtm.recoverCallbackWorkflow, Discipline.does_bind, within_transactionOfKind]
  intro tx hg _
  split
  · exact Discipline.does_pure.mpr trivial
  · simp only [Discipline.does_bind, does_ofExcept, within_currentMillis]
    intro _ _ _ _ now
    split
    · exact within_deferCallbackWorkflow hg
    · rw [Discipline.does_bind]
      refine within_call.mpr ⟨trivial, fun r _ => ?_⟩
      simp only [Discipline.does_bind, within_loadTransaction]
      intro latest hl
      split
      · exact Discipline.does_pure.mpr trivial
      · simp only [Discipline.does_bind, does_ofExcept]
        intro _ _ _ _
        split
        · exact within_finishOrTerminal
        · exact within_deferCallbackWorkflow hl
        · exact within_deferCallbackWorkflow hl
        · exact within_deferCallbackWorkflow hl

theorem within_expireCallbackWorkflow {tx : Transaction} (hg : tx.gid = gid) :
    (within gid).Does (Dtm.expireCallbackWorkflow tx) t (fun _ _ => True) := by
  subst hg
  rw [Dtm.expireCallbackWorkflow]
  split
  · rw [Discipline.does_bind]
    refine within_prepareWorkflow.mono fun _ tx' hg => ?_
    simp only [Discipline.does_bind, does_ofExcept, ← hg]
    exact fun _ _ => within_finishOrTerminal
  · simp only [Discipline.does_bind, Discipline.does_pure, does_ofExcept]
    exact fun _ _ => within_finishOrTerminal

/-! ### Recovery -/

theorem within_expire {tx : Transaction} (hg : tx.gid = gid) :
    (within gid).Does (dtm.expire tx) t (fun _ _ => True) := by
  rw [Dtm.expire]
  rw [hg]
  split
  · exact within_cancelTcc
  · exact within_abortSaga
  · split
    · exact within_expireCallbackWorkflow hg
    · exact within_abortWorkflow
  · split
    · exact within_dispatchMessage
    · exact within_abortMessage
  · split
    · exact within_commitXa
    · exact within_rollbackXa

theorem within_resume {kind : TransactionKind} {status : TransactionStatus} {move : Act Transaction}
    (h : dtm.resume gid kind status = some move) :
    (within gid).Does move t (fun _ _ => True) := by
  rw [Dtm.resume.eq_def] at h
  split at h <;> simp only [Option.some.injEq, reduceCtorEq] at h <;> subst h
  · exact within_prepareTcc
  · exact within_prepareTcc
  · exact within_confirmTcc
  · exact within_cancelTcc
  · exact within_startSaga
  · exact within_startSaga
  · exact within_abortSaga
  · exact within_startWorkflow
  · exact within_startWorkflow
  · exact within_abortWorkflow
  · exact within_prepareMessage
  · exact within_dispatchMessage
  · exact within_prepareXa
  · exact within_commitXa
  · exact within_rollbackXa

/-- **Each move of the recovery tick stays with the listed transaction.** -/
theorem within_tickMove {now : Nat} {tx : Transaction} {move : Act Transaction}
    (h : dtm.tickMove now tx = some move) :
    (within tx.gid).Does move t (fun _ _ => True) := by
  rw [Dtm.tickMove] at h
  split at h
  · cases h
  split at h
  · cases h
  split at h
  · cases h
    exact within_expire rfl
  split at h
  · split at h
    · cases h
      exact within_prepareWorkflow.mono fun _ _ _ => trivial
    · split at h
      · cases h
        exact within_recoverCallbackWorkflow
      · cases h
    · cases h
  · split at h
    · cases h
    · exact within_resume h

theorem within_recoverMove {kind : TransactionKind} {status : TransactionStatus} :
    (within gid).Does (dtm.recoverMove gid kind status) t (fun _ _ => True) := by
  rw [Dtm.recoverMove.eq_def]
  split
  · exact within_confirmTcc
  · exact within_dispatchMessage
  · exact within_commitXa
  · cases h : dtm.resume gid kind status with
    | none => exact Discipline.does_throw
    | some move => exact within_resume h

theorem within_recoverNow {tx : Transaction} (hg : tx.gid = gid) :
    (within gid).Does (dtm.recoverNow gid tx) t (fun _ _ => True) := by
  simp only [Dtm.recoverNow, Discipline.does_bind, within_currentMillis]
  intro now
  split
  · exact within_expire hg
  · split
    · split
      · exact within_prepareWorkflow.mono fun _ _ _ => trivial
      · exact within_recoverCallbackWorkflow
      · exact Discipline.does_throw
    · exact within_recoverMove

theorem within_recover : (within gid).Does (dtm.recover gid) t (fun _ _ => True) := by
  simp only [Dtm.recover_eq, Discipline.does_bind, within_loadTransaction]
  intro tx hg
  split
  · exact Discipline.does_pure.mpr trivial
  · split
    · simp only [Discipline.does_bind, within_currentMillis]
      intro now
      split
      · exact Discipline.does_pure.mpr trivial
      · exact within_recoverNow hg
    · exact within_recoverNow hg

theorem within_scheduleAbort :
    (within gid).Does (Dtm.scheduleAbort gid) t (fun _ _ => True) := by
  simp only [Dtm.scheduleAbort, Discipline.does_bind, within_loadTransaction]
  intro tx hg
  split
  · exact Discipline.does_pure.mpr trivial
  · split
    · exact within_abortMessage
    · simp only [Discipline.does_bind, does_ofExcept]
      exact fun _ _ => within_persistTransaction hg trivial

theorem within_scheduleSubmit :
    (within gid).Does (Dtm.scheduleSubmit gid) t (fun _ _ => True) := by
  simp only [Dtm.scheduleSubmit, Discipline.does_bind, within_loadTransaction]
  intro tx hg
  split
  · exact Discipline.does_pure.mpr trivial
  · simp only [Discipline.does_bind, does_ofExcept]
    intro _ _ _ _
    split
    · exact within_persistTransaction hg trivial
    · split
      · exact within_persistTransaction hg trivial
      · exact Discipline.does_pure.mpr trivial

theorem within_forceStop : (within gid).Does (Dtm.forceStop gid) t (fun _ _ => True) := by
  simp only [Dtm.forceStop, Discipline.does_bind, within_loadTransaction, does_ofExcept]
  exact fun tx hg _ _ => within_persistTransaction hg trivial

theorem within_resetRetry : (within gid).Does (Dtm.resetRetry gid) t (fun _ _ => True) := by
  simp only [Dtm.resetRetry, Discipline.does_bind, within_loadTransaction, does_ofExcept,
    within_currentMillis]
  exact fun tx hg _ _ now => within_persistTransaction hg trivial

end Operations

end RozeDtm
