import RozeDtm.InMemory.Ledger
import RozeDtm.Serial.SagaRounds
import RozeDtm.Session.Table
import RozeDtm.Trail.Basic

/-!
# What an operation leaves of a transaction that it ends

A record is written with a terminal status at the end of a loop over its branches, and most loops
take the retry time from every branch that could have one.  Three of them do not: an abort of a
sequential Saga or of a Workflow leaves the branches as they are that it has nothing to compensate
for, and phase 2 and the delivery of a Message go past a branch whose barrier is taken.

`settling` is the discipline of ending a transaction without a retry time, if nothing was left in
one of these ways.  Its session is the shelf of the records that were read or written last, which
are the stored ones while the operation is alone.
-/

namespace RozeDtm

open Conc

/-! ### What is left -/

/-- The branches that an abort of the transaction leaves as they are. -/
def Transaction.abandons (tx : Transaction) (b : Branch) : Bool :=
  match tx.kind with
  | .saga => !tx.options.concurrent && (b.status = .failed || b.status = .running)
  | .workflow => b.retryable
  | _ => false

/-- The operations that go past a branch whose barrier is taken. -/
def Transaction.goesPast (tx : Transaction) (op : String) : Bool :=
  match tx.kind with
  | .tcc => op = "confirm" || op = "cancel"
  | .xa => op = "commit" || op = "rollback"
  | .message => op = "message" && !tx.options.concurrent
  | _ => false

/-- No branch that an abort leaves as it is has a retry time. -/
def Transaction.AbandonsNothing (tx : Transaction) : Prop :=
  ∀ b ∈ tx.branches, tx.abandons b = true → b.nextRetryMillis = none

/-- No branch that is gone past because its barrier is taken has a retry time. -/
def Transaction.GoesPastNothing (tx : Transaction) (barrier : BranchBarrier) : Prop :=
  tx.goesPast barrier.op = true →
    ∀ b ∈ tx.branches, b.id = barrier.branchId → b.nextRetryMillis = none

/-- A transaction that has ended has no retry time. -/
def Transaction.Settled (tx : Transaction) : Prop :=
  tx.status.isTerminal = true → ∀ b ∈ tx.branches, b.nextRetryMillis = none

/-- A branch has no retry time that counts. -/
def Branch.Idle (b : Branch) : Prop := b.Rested → b.nextRetryMillis = none

theorem Branch.Idle.of_none {b : Branch} (h : b.nextRetryMillis = none) : b.Idle := fun _ => h

theorem Branch.Idle.of_not_retryable {b : Branch} (h : b.retryable = false) : b.Idle := by
  intro hr
  by_contra hn
  rw [hr hn] at h
  cases h

theorem Branch.Idle.of_succeeded {b : Branch} (h : b.status = .succeeded) : b.Idle :=
  .of_not_retryable (by rw [Branch.retryable, h]; rfl)

theorem Branch.Idle.of_skipped {b : Branch} (h : b.status = .skipped) : b.Idle :=
  .of_not_retryable (by rw [Branch.retryable, h]; rfl)

/-- What the loop of an abort has made of a branch: it has no retry time that counts, or it is as
it was read. -/
def Transaction.Leaves (tx : Transaction) (b : Branch) : Prop :=
  b.Idle ∨ b ∈ tx.branches ∧ tx.abandons b = true

theorem Transaction.Leaves.none {tx : Transaction} {b : Branch} (h : tx.Leaves b)
    (htx : tx.AbandonsNothing) (hb : b.Rested) : b.nextRetryMillis = none := by
  rcases h with h | ⟨hm, ha⟩
  · exact h hb
  · exact htx b hm ha

/-! ### The discipline -/

/-- The records that were read or written last, by their gids. -/
abbrev Shelf := String → Option Transaction

namespace Shelf

def bare : Shelf := fun _ => none

def put (σ : Shelf) (tx : Transaction) : Shelf := Function.update σ tx.gid (some tx)

def drop (σ : Shelf) (gid : String) : Shelf := Function.update σ gid none

@[simp] theorem put_self (σ : Shelf) (tx : Transaction) : σ.put tx tx.gid = some tx :=
  Function.update_self ..

/-- The shelf after a step and its answer. -/
def next (σ : Shelf) : (o : Effect) → o.Reply → Shelf
  | .getTransaction _, r =>
    match (r : Option Transaction) with
    | some tx => σ.put tx
    | none => σ
  | .updateTransaction tx, _ => σ.put tx
  | .insertTransaction tx, _ | .deleteTransactionIfUnchanged tx, _ => σ.drop tx.gid
  | .registerBranch gid _, _ | .recordWorkflowProgress gid _, _ | .finishWorkflow gid _ _ _, _
  | .deferWorkflowRecovery gid _, _ => σ.drop gid
  | _, _ => σ

end Shelf

/-- A transaction is ended without a retry time, if nothing was left in a way that keeps one. -/
def settling : Discipline effects Shelf where
  pre := fun σ o => match o with
    | .updateTransaction tx =>
      (tx.status = .aborted → ∀ s, σ tx.gid = some s → s.AbandonsNothing) →
        (∀ b ∈ tx.branches, b.Rested) → tx.Settled
    | _ => True
  sees := fun σ o r => match o with
    | .getTransaction gid => ∀ tx, (r : Option Transaction) = some tx → tx.gid = gid
    | .barrier b => b.mayDecide r ∧
      (r = BarrierDecision.skipDuplicate → ∀ s, σ b.gid = some s → s.GoesPastNothing b)
    | _ => True
  next := Shelf.next

/-! ### Rules -/

section Rules

variable {σ : Shelf} {tx : Transaction}

theorem settling_call {o : Effect} {Q : Shelf → o.Reply → Prop} :
    settling.Does (Act.call o) σ Q ↔
      settling.pre σ o ∧ ∀ r, settling.sees σ o r → Q (σ.next o r) r := Discipline.does_perform

/-- A step that leaves the shelf as it is. -/
theorem settling_silent {o : Effect} {Q : Shelf → o.Reply → Prop} (hp : settling.pre σ o)
    (hσ : ∀ r, σ.next o r = σ) (h : ∀ r, Q σ r) : settling.Does (Act.call o) σ Q := by
  refine settling_call.mpr ⟨hp, fun r _ => ?_⟩
  rw [hσ]
  exact h r

theorem settling_currentMillis {Q : Shelf → Nat → Prop} (h : ∀ now, Q σ now) :
    settling.Does currentMillis σ Q := settling_silent trivial (fun _ => rfl) h

theorem settling_releaseBarrier {b : BranchBarrier} {Q : Shelf → Unit → Prop} (h : Q σ ()) :
    settling.Does (Store.releaseBarrier b) σ Q :=
  settling_silent trivial (fun _ => rfl) fun _ => h

/-- **Asking for a barrier.** -/
theorem settling_barrier {b : BranchBarrier} {s : Transaction}
    {Q : Shelf → BarrierDecision → Prop} (hs : σ b.gid = some s)
    (h : ∀ d, (d = .skipDuplicate → s.GoesPastNothing b) → Q σ d) :
    settling.Does (Store.barrier b) σ Q :=
  settling_call.mpr ⟨trivial, fun r hr => h r fun hd => hr.2 hd s hs⟩

/-- The same for one that is neither a Try's nor a Cancel's. -/
theorem settling_barrier_plain {b : BranchBarrier} {s : Transaction}
    {Q : Shelf → BarrierDecision → Prop} (hc : b.op ≠ "cancel") (ht : b.op ≠ "try")
    (hs : σ b.gid = some s) (execute : Q σ .execute)
    (duplicate : s.GoesPastNothing b → Q σ .skipDuplicate) :
    settling.Does (Store.barrier b) σ Q := by
  refine settling_call.mpr ⟨trivial, fun r hr => ?_⟩
  rcases BranchBarrier.mayDecide_plain hc ht hr.1 with rfl | rfl
  · exact execute
  · exact duplicate (hr.2 rfl s hs)

theorem settling_loadTransaction {gid : String} {Q : Shelf → Transaction → Prop}
    (h : ∀ tx, tx.gid = gid → Q (σ.put tx) tx) : settling.Does (loadTransaction gid) σ Q := by
  simp only [loadTransaction, Discipline.does_bind]
  refine settling_call.mpr ⟨trivial, fun r hr => does_ofOption.mpr fun tx htx => ?_⟩
  cases htx
  exact h tx (hr tx rfl)

theorem settling_transactionOfKind {gid : String} {kind : TransactionKind}
    {Q : Shelf → Transaction → Prop} (h : ∀ tx, tx.gid = gid → tx.kind = kind → Q (σ.put tx) tx) :
    settling.Does (transactionOfKind gid kind) σ Q := by
  simp only [transactionOfKind, Discipline.does_bind, does_ofExcept, ensureKind_eq_ok,
    Discipline.does_pure]
  exact settling_loadTransaction fun tx hg _ hk => h tx hg hk

/-- **Writing a record that ends a transaction.** -/
theorem settling_persistTransaction {Q : Shelf → Transaction → Prop}
    (h : (tx.status = .aborted → ∀ s, σ tx.gid = some s → s.AbandonsNothing) →
      (∀ b ∈ tx.branches, b.Rested) → tx.Settled) (hQ : Q (σ.put tx) tx.written) :
    settling.Does (persistTransaction tx) σ Q := by
  refine ⟨h, fun r _ => ?_⟩
  match r with
  | .ok _ =>
    intro a ha
    cases ha
    exact hQ
  | .error _ =>
    intro a ha
    cases ha

/-- Writing a record that does not. -/
theorem settling_persistOpen {Q : Shelf → Transaction → Prop} (htx : tx.status.isTerminal = false)
    (hQ : Q (σ.put tx) tx.written) : settling.Does (persistTransaction tx) σ Q := by
  refine settling_persistTransaction (fun _ _ hterm => ?_) hQ
  rw [htx] at hterm
  cases hterm

/-- Writing a record whose branches have no retry time that counts. -/
theorem settling_persistIdle {Q : Shelf → Transaction → Prop} (htx : ∀ b ∈ tx.branches, b.Idle)
    (hQ : Q (σ.put tx) tx.written) : settling.Does (persistTransaction tx) σ Q :=
  settling_persistTransaction (fun _ hrested _ b hb => htx b hb (hrested b hb)) hQ

theorem settling_invokeBranch {dtm : Dtm} {options : TransactionOptions} {gid : String}
    {branch : Branch} {url op : String} {Q : Shelf → Branch × Bool → Prop}
    (ok : Q σ (branch, true)) (error : ∀ b, Q σ (b, false)) :
    settling.Does (dtm.invokeBranch options gid branch url op) σ Q := by
  simp only [Dtm.invokeBranch, Discipline.does_bind]
  refine settling_silent trivial (fun _ => rfl) fun _ => ?_
  refine settling_silent trivial (fun _ => rfl) fun r => ?_
  cases r with
  | true => exact Discipline.does_pure.mpr ok
  | false =>
    simp only [Bool.false_eq_true, if_false, Discipline.does_bind, Discipline.does_pure]
    exact settling_currentMillis fun now => error _

/-- Any step that writes no record is permitted at any time. -/
theorem settling_always {o : Effect} (h : ∀ tx, o ≠ .updateTransaction tx) :
    settling.Always (Act.call o) := by
  refine fun σ => settling_call.mpr ⟨?_, fun _ _ => trivial⟩
  cases o with
  | updateTransaction tx => exact absurd rfl (h tx)
  | _ => trivial

theorem settling_batches : PermitsBatches (fun _ => True) fun x => settling.Always x where
  toClosed := closed_always settling
  clock := settling_always fun _ h => nomatch h
  joinNext := fun _ => settling_always fun _ h => nomatch h
  invokeBegin := fun _ _ => settling_always fun _ h => nomatch h
  invokeEnd := fun _ _ => settling_always fun _ h => nomatch h
  barrier := fun _ _ => settling_always fun _ h => nomatch h
  releaseBarrier := fun _ _ => settling_always fun _ h => nomatch h

end Rules

/-! ### The loops -/

section Loops

variable {dtm : Dtm} {σ : Shelf} {tx s : Transaction} {passed ahead : List Branch}

/-- The loop of `abort_saga`. -/
theorem settling_abortSagaLoop (hσ : σ tx.gid = some s) (hst : tx.status.isTerminal = false)
    (hk : s.kind = .saga) (hc : s.options.concurrent = false)
    (hahead : ∀ b ∈ ahead, b ∈ s.branches) (hpassed : ∀ b ∈ passed, s.Leaves b) :
    settling.Does (dtm.abortSagaLoop tx ahead passed) σ (fun _ _ => True) := by
  induction ahead generalizing σ passed with
  | nil =>
    refine settling_persistTransaction (fun hleft hrested _ b hb => ?_) trivial
    exact (hpassed b hb).none (hleft rfl s hσ) (hrested b hb)
  | cons branch ahead ih =>
    have hrest := List.forall_mem_of_forall_mem_cons hahead
    have hpass {b : Branch} (h : s.Leaves b) : ∀ b' ∈ b :: passed, s.Leaves b' :=
      List.forall_mem_cons.mpr ⟨h, hpassed⟩
    rw [Dtm.abortSagaLoop]
    split
    · exact ih hσ hrest (hpass (Or.inl (.of_skipped rfl)))
    split
    · rename_i hpending howed
      -- what is left is Failed, Running or Skipped
      refine ih hσ hrest (hpass ?_)
      by_cases hs : branch.status = .skipped
      · exact Or.inl (.of_skipped hs)
      · refine Or.inr ⟨hahead branch (.head _), ?_⟩
        rw [Transaction.abandons, hk, hc]
        cases hstatus : branch.status <;> simp_all
    · rw [Discipline.does_bind]
      refine settling_barrier hσ fun d _ => ?_
      cases d with
      | execute =>
        dsimp only
        split
        · rw [Discipline.does_bind]
          refine settling_invokeBranch ?_ fun b => ?_
          · exact ih hσ hrest (hpass (Or.inl (.of_skipped rfl)))
          · simp only [Bool.false_eq_true, if_false, Discipline.does_bind]
            exact settling_releaseBarrier (settling_persistOpen hst trivial)
        · exact ih hσ hrest (hpass (Or.inl (.of_skipped rfl)))
      | skipDuplicate => exact settling_persistOpen hst trivial
      | skipNullCompensation => exact Discipline.does_throw
      | skipCancelledTry => exact Discipline.does_throw

/-- The loop of `abort_workflow`. -/
theorem settling_abortWorkflowLoop (hσ : σ tx.gid = some s) (hst : tx.status.isTerminal = false)
    (hk : s.kind = .workflow) (hahead : ∀ b ∈ ahead, b ∈ s.branches)
    (hpassed : ∀ b ∈ passed, s.Leaves b) :
    settling.Does (dtm.abortWorkflowLoop tx ahead passed) σ (fun _ _ => True) := by
  induction ahead generalizing σ passed with
  | nil =>
    refine settling_persistTransaction (fun hleft hrested _ b hb => ?_) trivial
    exact (hpassed b hb).none (hleft rfl s hσ) (hrested b hb)
  | cons branch ahead ih =>
    have hrest := List.forall_mem_of_forall_mem_cons hahead
    have hpass {b : Branch} (h : s.Leaves b) : ∀ b' ∈ b :: passed, s.Leaves b' :=
      List.forall_mem_cons.mpr ⟨h, hpassed⟩
    rw [Dtm.abortWorkflowLoop]
    split
    · refine ih hσ hrest (hpass ?_)
      split
      · exact Or.inl (.of_skipped rfl)
      · by_cases hr : branch.retryable = true
        · refine Or.inr ⟨hahead branch (.head _), ?_⟩
          rw [Transaction.abandons, hk]
          exact hr
        · exact Or.inl (.of_not_retryable (Bool.eq_false_iff.mpr hr))
    · rw [Discipline.does_bind]
      refine settling_barrier hσ fun d _ => ?_
      split
      · simp only [Discipline.does_bind, does_ofOption]
        intro compensate _
        refine settling_invokeBranch ?_ fun b => ?_
        · exact ih hσ hrest (hpass (Or.inl (.of_skipped rfl)))
        · simp only [Bool.false_eq_true, if_false, Discipline.does_bind]
          exact settling_releaseBarrier (settling_persistOpen hst trivial)
      · exact ih hσ hrest (hpass (Or.inl (.of_skipped rfl)))

/-- The loop of `confirm_tcc`, `commit_xa` and `rollback_xa`. -/
theorem settling_phase2Loop {op : String} {url : Branch → Except Err String}
    {onOk : BranchStatus} {final : TransactionStatus} (hσ : σ tx.gid = some s)
    (hst : tx.status.isTerminal = false) (hop : s.goesPast op = true) (hc : op ≠ "cancel")
    (ht : op ≠ "try") (hahead : ∀ b ∈ ahead, b ∈ s.branches) (hpassed : ∀ b ∈ passed, b.Idle) :
    settling.Does (dtm.phase2Loop op url onOk final tx passed ahead) σ (fun _ _ => True) := by
  induction ahead generalizing σ passed with
  | nil => exact settling_persistIdle hpassed trivial
  | cons branch ahead ih =>
    have hrest := List.forall_mem_of_forall_mem_cons hahead
    have hpass {b : Branch} (h : b.nextRetryMillis = none) : ∀ b' ∈ passed ++ [b], b'.Idle :=
      List.forall_mem_append.mpr ⟨hpassed, List.forall_mem_singleton.mpr (.of_none h)⟩
    rw [Dtm.phase2Loop, Discipline.does_bind]
    refine settling_barrier_plain hc ht hσ ?_ fun hpast => ?_
    · simp only [if_true, Discipline.does_bind, does_ofExcept]
      intro target _
      refine settling_invokeBranch (ih hσ hrest (hpass rfl)) fun b => ?_
      simp only [Bool.false_eq_true, if_false, Discipline.does_bind]
      exact settling_releaseBarrier (settling_persistOpen hst trivial)
    · exact ih hσ hrest (hpass (hpast hop branch (hahead branch (.head _)) rfl))

/-- The loop of `cancel_tcc`. -/
theorem settling_cancelTccLoop (hσ : σ tx.gid = some s) (hst : tx.status.isTerminal = false)
    (hop : s.goesPast "cancel" = true) (hahead : ∀ b ∈ ahead, b ∈ s.branches)
    (hpassed : ∀ b ∈ passed, b.Idle) :
    settling.Does (dtm.cancelTccLoop tx passed ahead) σ (fun _ _ => True) := by
  induction ahead generalizing σ passed with
  | nil => exact settling_persistIdle hpassed trivial
  | cons branch ahead ih =>
    have hrest := List.forall_mem_of_forall_mem_cons hahead
    have hpass {b : Branch} (h : b.nextRetryMillis = none) : ∀ b' ∈ passed ++ [b], b'.Idle :=
      List.forall_mem_append.mpr ⟨hpassed, List.forall_mem_singleton.mpr (.of_none h)⟩
    rw [Dtm.cancelTccLoop, Discipline.does_bind]
    refine settling_barrier hσ fun d hd => ?_
    split
    · simp only [Discipline.does_bind, does_ofExcept]
      intro target _
      refine settling_invokeBranch (ih hσ hrest (hpass rfl)) fun b => ?_
      simp only [Bool.false_eq_true, if_false, Discipline.does_bind]
      exact settling_releaseBarrier (settling_persistOpen hst trivial)
    · cases d with
      | execute => exact Discipline.does_throw
      | skipDuplicate =>
        exact ih hσ hrest (hpass (hd rfl hop branch (hahead branch (.head _)) rfl))
      | skipNullCompensation => exact ih hσ hrest (hpass rfl)
      | skipCancelledTry => exact Discipline.does_throw

/-- The loop of `dispatch_message`. -/
theorem settling_dispatchMessageLoop (hσ : σ tx.gid = some s) (hst : tx.status.isTerminal = false)
    (hop : s.goesPast "message" = true) (hahead : ∀ b ∈ ahead, b ∈ s.branches)
    (hpassed : ∀ b ∈ passed, b.Idle) :
    settling.Does (dtm.dispatchMessageLoop tx passed ahead) σ (fun _ _ => True) := by
  induction ahead generalizing σ passed with
  | nil => exact settling_persistIdle hpassed trivial
  | cons branch ahead ih =>
    have hrest := List.forall_mem_of_forall_mem_cons hahead
    have hpass {b : Branch} (h : b.Idle) : ∀ b' ∈ passed ++ [b], b'.Idle :=
      List.forall_mem_append.mpr ⟨hpassed, List.forall_mem_singleton.mpr h⟩
    rw [Dtm.dispatchMessageLoop]
    split
    · rename_i hsucceeded
      exact ih hσ hrest (hpass (.of_succeeded hsucceeded))
    · rw [Discipline.does_bind]
      refine settling_barrier_plain (show "message" ≠ "cancel" by decide)
        (show "message" ≠ "try" by decide) hσ ?_ fun hpast => ?_
      · simp only [if_true, Discipline.does_bind]
        refine settling_invokeBranch (ih hσ hrest (hpass (.of_none rfl))) fun b => ?_
        simp only [Bool.false_eq_true, if_false, Discipline.does_bind]
        exact settling_releaseBarrier (settling_persistOpen hst trivial)
      · exact ih hσ hrest (hpass (.of_none (hpast hop branch (hahead branch (.head _)) rfl)))

/-- The loop of `start_saga`; `abort_saga` is what it goes on with once a branch has exhausted
its attempts. -/
theorem settling_startSagaLoop {gid : String} (habort : settling.Always (dtm.abortSaga gid))
    (hst : tx.status.isTerminal = false) (hpassed : ∀ b ∈ passed, b.Idle) :
    settling.Does (dtm.startSagaLoop gid tx passed ahead) σ (fun _ _ => True) := by
  induction ahead generalizing σ tx passed with
  | nil => exact settling_persistIdle hpassed trivial
  | cons branch ahead ih =>
    have hpass {b : Branch} (h : b.Idle) : ∀ b' ∈ passed ++ [b], b'.Idle :=
      List.forall_mem_append.mpr ⟨hpassed, List.forall_mem_singleton.mpr h⟩
    rw [Dtm.startSagaLoop]
    split
    · rename_i hsucceeded
      exact ih hst (hpass (.of_succeeded hsucceeded))
    · refine Discipline.does_bind.mpr ((settling_batches.barrier _ trivial σ).mono fun σ d _ => ?_)
      split
      · exact settling_loadTransaction fun _ _ => trivial
      · rw [Discipline.does_bind]
        refine settling_invokeBranch ?_ fun b => ?_
        · simp only [if_true, Discipline.does_bind]
          exact settling_persistOpen hst (ih hst (hpass (.of_none rfl)))
        · simp only [Bool.false_eq_true, if_false]
          split
          · simp only [Discipline.does_bind]
            exact settling_releaseBarrier (settling_persistOpen hst trivial)
          · rw [Discipline.does_bind]
            exact settling_persistOpen rfl (habort _)

/-- The loop of `start_workflow`. -/
theorem settling_startWorkflowLoop {gid : String} {fuel : Nat}
    (habort : settling.Always (dtm.abortWorkflow gid)) (hst : tx.status.isTerminal = false) :
    settling.Does (dtm.startWorkflowLoop gid fuel tx) σ (fun _ _ => True) := by
  induction fuel generalizing σ tx with
  | zero => exact Discipline.does_pure.mpr trivial
  | succ fuel ih =>
    rw [Dtm.startWorkflowLoop]
    split
    · split
      · rename_i hall
        refine settling_persistIdle (fun b hb => ?_) trivial
        exact .of_succeeded (by simpa using List.all_eq_true.mp hall b hb)
      · exact Discipline.does_throw
    · refine Discipline.does_bind.mpr ((settling_batches.barrier _ trivial σ).mono fun σ d _ => ?_)
      split
      · exact settling_loadTransaction fun _ _ => trivial
      · rw [Discipline.does_bind]
        refine settling_invokeBranch ?_ fun b => ?_
        · simp only [if_true, Discipline.does_bind]
          exact settling_persistOpen hst (ih hst)
        · simp only [Bool.false_eq_true, if_false, Discipline.does_bind]
          exact settling_releaseBarrier (settling_persistOpen rfl (habort _))

/-! ### The loops over batches -/

/-- The branches that a batch leaves when none of its calls failed. -/
theorem Landing.forall {onOk : BranchStatus} {ready : List Nat} {f : Branch → Branch}
    {bs : List Branch} {P : Branch → Prop}
    (hl : Landing onOk (tx.mapBranchesAt ready f).branches ready [] bs [])
    (hok : ∀ b : Branch, b.status = onOk → P b)
    (hout : ∀ j b, j ∉ ready → tx.branches[j]? = some b → P b) : ∀ b ∈ bs, P b := by
  intro b hb
  obtain ⟨j, hj⟩ := List.mem_iff_getElem?.mp hb
  by_cases hr : j ∈ ready
  · exact hok b (hl.landed rfl j hr (fun t ht => nomatch ht) b hj)
  · rw [hl.others j hr, getElem?_mapBranchesAt] at hj
    obtain ⟨a, ha, hab⟩ := Option.map_eq_some_iff.mp hj
    rw [if_neg hr] at hab
    subst hab
    exact hout j a hr ha

/-- **A batch from its spawn to its last join.** -/
theorem settling_runBatch {options : TransactionOptions} {onOk onErr : BranchStatus}
    {gid op : String} {ready : List Nat} (url : Branch → String)
    {Q : Shelf → Transaction × List Branch → Prop}
    (hready : ∀ j ∈ ready, ∃ b, tx.branches[j]? = some b)
    (hQ : ∀ σ bs failed, Landing onOk tx.branches ready [] bs failed →
      Q σ ({ tx with branches := bs }, failed)) :
    settling.Does (dtm.runBatch options onOk onErr
      (spawnAll options gid op url (tx.branchesAt ready)) tx) σ Q := by
  have hland := @anyReply_runBatch onOk onErr ready dtm options tx gid op url
    (fun _ r => ∃ bs failed, r = ({ tx with branches := bs }, failed) ∧
      Landing onOk tx.branches ready [] bs failed) hready
    fun bs failed hl => ⟨bs, failed, rfl, hl⟩
  refine ((settling_batches.runBatch (fun _ _ => trivial) σ).whatever hland).mono ?_
  rintro σ _ ⟨-, bs, failed, rfl, hl⟩
  exact hQ σ bs failed hl

/-- The loop of `abort_concurrent_saga`. -/
theorem settling_abortConcurrentSagaLoop {fuel : Nat} (hst : tx.status.isTerminal = false)
    (hbranches : ∀ b ∈ tx.branches, b.status = .compensating ∨ b.status = .skipped) :
    settling.Does (dtm.abortConcurrentSagaLoop fuel tx) σ (fun _ _ => True) := by
  induction fuel generalizing σ tx with
  | zero => exact Discipline.does_pure.mpr trivial
  | succ fuel ih =>
    rw [Dtm.abortConcurrentSagaLoop]
    split
    · rename_i hall
      refine settling_persistIdle (fun b hb => .of_skipped ((hbranches b hb).resolve_left ?_)) trivial
      simpa using List.all_eq_true.mp hall b hb
    dsimp only
    split
    · exact Discipline.does_throw
    refine Discipline.does_bind.mpr ((settling_batches.claimBatch (fun _ _ => trivial) (fun _ _ => trivial) σ).mono fun σ ok _ => ?_)
    split
    · rw [Discipline.does_bind]
      refine settling_persistOpen hst ?_
      have hready : ∀ j ∈ tx.readyCompensations, ∃ b, tx.branches[j]? = some b ∧
          decide (b.status = .compensating) = true := by
        intro j hj
        obtain ⟨b, hb, hs, -⟩ := mem_readyCompensations_iff.mp hj
        exact ⟨b, hb, decide_eq_true hs⟩
      -- the tasks end at the first branch without a compensation URL
      set base := (tx.mapBranchesAt tx.readyCompensations fun branch =>
        { branch with attempts := satAdd32 branch.attempts 1 }).written
      have hfst := compensationTasks_fst base (base.branchesAt tx.readyCompensations)
      have hsnd := @compensationTasks_snd base (base.branchesAt tx.readyCompensations)
      generalize Dtm.compensationTasks _ _ = tasks at hfst hsnd ⊢
      obtain ⟨tasks, missing⟩ := tasks
      cases missing with
      | some error =>
        refine Discipline.does_bind.mpr ((settling_batches.abandonBatch (fun _ _ => trivial) _).mono fun _ _ _ => ?_)
        exact Discipline.does_throw
      | none =>
        dsimp only at hfst hsnd ⊢
        rw [hfst, hsnd rfl]
        rw [Discipline.does_bind]
        refine settling_runBatch _ (exists_mapBranchesAt_of_ready hready) fun σ bs failed hl => ?_
        rw [Discipline.does_bind]
        refine settling_persistOpen hst ?_
        cases failed with
        | cons b failed => exact Discipline.does_pure.mpr trivial
        | nil =>
          refine ih hst (hl.forall (fun b hb => Or.inr hb) fun j b _ hb => ?_)
          exact hbranches b (List.mem_of_getElem? hb)
    · exact settling_loadTransaction fun _ _ => trivial

/-- The loop of `start_concurrent_saga`; `abort_concurrent_saga` is what it goes on with once a
branch has exhausted its attempts. -/
theorem settling_startConcurrentSagaLoop {fuel : Nat}
    (habort : ∀ tx, settling.Always (dtm.abortConcurrentSaga tx))
    (hst : tx.status.isTerminal = false) :
    settling.Does (dtm.startConcurrentSagaLoop fuel tx) σ (fun _ _ => True) := by
  induction fuel generalizing σ tx with
  | zero => exact Discipline.does_pure.mpr trivial
  | succ fuel ih =>
    rw [Dtm.startConcurrentSagaLoop]
    split
    · rename_i hall
      refine settling_persistIdle (fun b hb => ?_) trivial
      exact .of_succeeded (by simpa using List.all_eq_true.mp hall b hb)
    dsimp only
    split
    · exact Discipline.does_pure.mpr trivial
    refine Discipline.does_bind.mpr ((settling_batches.claimBatch (fun _ _ => trivial) (fun _ _ => trivial) σ).mono fun σ ok _ => ?_)
    split
    · rw [Discipline.does_bind]
      refine settling_persistOpen hst ?_
      have hready : ∀ j ∈ tx.readyBranches, ∃ b, tx.branches[j]? = some b ∧ true = true := by
        intro j hj
        obtain ⟨b, hb, -⟩ := mem_readyBranches_iff.mp hj
        exact ⟨b, hb, rfl⟩
      rw [Discipline.does_bind]
      refine settling_runBatch Branch.action (exists_mapBranchesAt_of_ready hready)
        fun σ bs failed hl => ?_
      dsimp only
      split
      · rw [Discipline.does_bind]
        exact settling_persistOpen rfl (habort _ _)
      · rw [Discipline.does_bind]
        refine settling_persistOpen hst ?_
        split
        · exact ih hst
        · exact Discipline.does_pure.mpr trivial
    · exact settling_loadTransaction fun _ _ => trivial

/-- The concurrent mode of `dispatch_message`. -/
theorem settling_dispatchMessageConcurrent (hst : tx.status.isTerminal = false) :
    settling.Does (dtm.dispatchMessageConcurrent tx) σ (fun _ _ => True) := by
  unfold Dtm.dispatchMessageConcurrent
  dsimp only
  split
  · rename_i hempty
    refine settling_persistIdle (fun b hb => .of_succeeded ?_) trivial
    obtain ⟨j, hj⟩ := List.mem_iff_getElem?.mp hb
    by_contra hne
    have hmem : j ∈ tx.undelivered := mem_undelivered.mpr ⟨b, hj, hne⟩
    rw [List.isEmpty_iff.mp hempty] at hmem
    cases hmem
  · refine Discipline.does_bind.mpr ((settling_batches.claimBatch (fun _ _ => trivial) (fun _ _ => trivial) σ).mono fun σ ok _ => ?_)
    split
    · rw [Discipline.does_bind]
      refine settling_persistOpen hst ?_
      have hready : ∀ j ∈ tx.undelivered, ∃ b, tx.branches[j]? = some b ∧
          decide (b.status ≠ .succeeded) = true := by
        intro j hj
        obtain ⟨b, hb, hs⟩ := mem_undelivered.mp hj
        exact ⟨b, hb, decide_eq_true hs⟩
      rw [Discipline.does_bind]
      refine settling_runBatch Branch.action (exists_mapBranchesAt_of_ready hready)
        fun σ bs failed hl => ?_
      cases failed with
      | cons b failed => exact settling_persistOpen rfl trivial
      | nil =>
        refine settling_persistIdle (hl.forall (fun b hb => .of_succeeded hb) fun j b hj hb => ?_)
          trivial
        refine .of_succeeded ?_
        by_contra hne
        exact hj (mem_undelivered.mpr ⟨b, hb, hne⟩)
    · exact settling_loadTransaction fun _ _ => trivial

end Loops

/-! ### The operations -/

section Operations

variable {dtm : Dtm} {gid : String}

theorem settling_abortConcurrentSaga (tx : Transaction) :
    settling.Always (dtm.abortConcurrentSaga tx) := by
  intro σ
  simp only [Dtm.abortConcurrentSaga, Discipline.does_bind, does_ofExcept]
  refine fun _ _ => settling_persistOpen rfl (settling_abortConcurrentSagaLoop rfl fun b hb => ?_)
  obtain ⟨a, -, rfl⟩ := List.mem_map.mp hb
  unfold Branch.aborted
  split
  · exact Or.inl rfl
  · exact Or.inr rfl
  · exact Or.inr rfl
  · exact Or.inr rfl
  · rename_i hs
    exact Or.inl hs
  · rename_i hs
    exact Or.inr hs

theorem settling_abortSaga (gid : String) : settling.Always (dtm.abortSaga gid) := by
  intro σ
  simp only [Dtm.abortSaga, Discipline.does_bind, does_ofExcept, ensureKind_eq_ok]
  refine settling_loadTransaction fun tx _ _ hk => ?_
  split
  · exact Discipline.does_pure.mpr trivial
  simp only [Discipline.does_bind, does_ofExcept]
  intro _ _
  split
  · exact settling_abortConcurrentSaga tx _
  · rename_i hc
    exact settling_abortSagaLoop (Shelf.put_self σ tx) rfl hk (Bool.eq_false_iff.mpr hc)
      (fun b hb => List.mem_reverse.mp hb) fun _ hb => by cases hb

theorem settling_startSaga (gid : String) : settling.Always (dtm.startSaga gid) := by
  intro σ
  simp only [Dtm.startSaga, Discipline.does_bind, does_ofExcept]
  refine settling_loadTransaction fun tx _ _ _ => ?_
  split
  · exact Discipline.does_pure.mpr trivial
  simp only [Discipline.does_bind, does_ofExcept]
  intro _ _
  split
  · simp only [Dtm.startConcurrentSaga, Discipline.does_bind, does_ofExcept]
    exact fun _ _ => settling_persistOpen rfl
      (settling_startConcurrentSagaLoop settling_abortConcurrentSaga rfl)
  · rw [Discipline.does_bind]
    exact settling_persistOpen rfl
      (settling_startSagaLoop (settling_abortSaga gid) rfl fun _ hb => nomatch hb)

/-! ### TCC and XA -/

theorem settling_prepareTccLoop {tx : Transaction} {passed ahead : List Branch}
    (hst : tx.status.isTerminal = false) :
    settling.Always (dtm.prepareTccLoop tx passed ahead) := by
  induction ahead generalizing passed with
  | nil => exact fun σ => settling_persistOpen rfl trivial
  | cons branch ahead ih =>
    rw [Dtm.prepareTccLoop]
    split
    · exact ih
    refine settling_batches.bind (settling_batches.barrier _ trivial) fun d => ?_
    cases d with
    | execute =>
      refine settling_batches.bind (settling_batches.invokeBranch trivial) fun r => ?_
      obtain ⟨b, succeeded⟩ := r
      dsimp only
      split
      · exact ih
      · refine settling_batches.bind (settling_batches.releaseBarrier _ trivial) fun _ σ =>
          settling_persistOpen ?_ trivial
        dsimp only
        split
        · rfl
        · exact hst
    | skipDuplicate => exact ih
    | skipNullCompensation => exact Discipline.always_throw _
    | skipCancelledTry => exact fun σ => settling_persistOpen rfl trivial

theorem settling_prepareTcc (gid : String) : settling.Always (dtm.prepareTcc gid) := by
  intro σ
  simp only [Dtm.prepareTcc, Discipline.does_bind, does_ofExcept]
  refine settling_loadTransaction fun tx _ _ _ => ?_
  split
  · exact Discipline.does_pure.mpr trivial
  simp only [Discipline.does_bind, does_ofExcept]
  exact fun _ _ => settling_prepareTccLoop rfl _

theorem settling_confirmTcc (gid : String) : settling.Always (dtm.confirmTcc gid) := by
  intro σ
  simp only [Dtm.confirmTcc, Discipline.does_bind, does_ofExcept, ensureKind_eq_ok]
  refine settling_loadTransaction fun tx _ _ hk => ?_
  split
  · exact Discipline.does_pure.mpr trivial
  simp only [Discipline.does_bind, does_ofExcept]
  intro _ _
  refine settling_phase2Loop (Shelf.put_self σ tx) rfl ?_ (by decide) (by decide) (fun _ hb => hb)
    fun _ hb => by cases hb
  rw [Transaction.goesPast, hk]
  rfl

theorem settling_cancelTcc (gid : String) : settling.Always (dtm.cancelTcc gid) := by
  intro σ
  simp only [Dtm.cancelTcc, Discipline.does_bind, does_ofExcept, ensureKind_eq_ok]
  refine settling_loadTransaction fun tx _ _ hk => ?_
  split
  · exact Discipline.does_pure.mpr trivial
  simp only [Discipline.does_bind, does_ofExcept]
  intro _ _
  refine settling_cancelTccLoop (Shelf.put_self σ tx) rfl ?_ (fun _ hb => hb)
    fun _ hb => by cases hb
  rw [Transaction.goesPast, hk]
  rfl

theorem settling_commitXa (gid : String) : settling.Always (dtm.commitXa gid) := by
  intro σ
  rw [Dtm.commitXa, Discipline.does_bind]
  refine settling_transactionOfKind fun tx _ hk => ?_
  split
  · exact Discipline.does_pure.mpr trivial
  simp only [Discipline.does_bind, does_ofExcept]
  intro _ _
  refine settling_phase2Loop (Shelf.put_self σ tx) rfl ?_ (by decide) (by decide) (fun _ hb => hb)
    fun _ hb => by cases hb
  rw [Transaction.goesPast, hk]
  rfl

theorem settling_rollbackXa (gid : String) : settling.Always (dtm.rollbackXa gid) := by
  intro σ
  rw [Dtm.rollbackXa, Discipline.does_bind]
  refine settling_transactionOfKind fun tx _ hk => ?_
  split
  · exact Discipline.does_pure.mpr trivial
  simp only [Discipline.does_bind, does_ofExcept]
  intro _ _
  refine settling_phase2Loop (Shelf.put_self σ tx) rfl ?_ (by decide) (by decide) (fun _ hb => hb)
    fun _ hb => by cases hb
  rw [Transaction.goesPast, hk]
  rfl

theorem settling_prepareXa (gid : String) : settling.Always (Dtm.prepareXa gid) := by
  intro σ
  rw [Dtm.prepareXa, Discipline.does_bind]
  refine settling_transactionOfKind fun tx _ _ => ?_
  split
  · exact Discipline.does_pure.mpr trivial
  simp only [Discipline.does_bind, does_ofExcept]
  exact fun _ _ => settling_persistOpen rfl trivial

/-! ### Messages and Workflows -/

theorem settling_prepareMessage (gid : String) : settling.Always (Dtm.prepareMessage gid) := by
  intro σ
  rw [Dtm.prepareMessage, Discipline.does_bind]
  refine settling_transactionOfKind fun tx _ _ => ?_
  split
  · exact Discipline.does_pure.mpr trivial
  simp only [Discipline.does_bind, does_ofExcept]
  exact fun _ _ => settling_persistOpen rfl trivial

theorem settling_abortMessage (gid : String) : settling.Always (Dtm.abortMessage gid) := by
  intro σ
  rw [Dtm.abortMessage, Discipline.does_bind]
  refine settling_transactionOfKind fun tx _ _ => ?_
  split
  · exact Discipline.does_pure.mpr trivial
  simp only [Discipline.does_bind, does_ofExcept]
  refine fun _ _ => settling_persistIdle (fun b hb => ?_) trivial
  obtain ⟨a, -, rfl⟩ := List.mem_map.mp hb
  exact .of_none rfl

theorem settling_dispatchMessage (gid : String) : settling.Always (dtm.dispatchMessage gid) := by
  intro σ
  rw [Dtm.dispatchMessage, Discipline.does_bind]
  refine settling_transactionOfKind fun tx _ hk => ?_
  split
  · exact Discipline.does_pure.mpr trivial
  simp only [Discipline.does_bind, does_ofExcept]
  intro _ _
  have hrest {tx' : Transaction} {σ' : Shelf} {s : Transaction} (hst : tx'.status = .succeeding)
      (hk' : s.kind = .message) (hb : s.branches = tx'.branches) (ho : s.options = tx'.options)
      (hσ' : σ' tx'.gid = some s) : settling.Does (do
        let now ← currentMillis
        if !messageDispatchDue tx' now then pure tx'
        else if tx'.options.concurrent then dtm.dispatchMessageConcurrent tx'
        else dtm.dispatchMessageLoop tx' [] tx'.branches) σ' (fun _ _ => True) := by
    rw [Discipline.does_bind]
    refine settling_currentMillis fun now => ?_
    split
    · exact Discipline.does_pure.mpr trivial
    split
    · exact settling_dispatchMessageConcurrent (by rw [hst]; rfl)
    · rename_i hc
      refine settling_dispatchMessageLoop hσ' (by rw [hst]; rfl) ?_ (fun b h => hb ▸ h)
        fun _ h => by cases h
      rw [Transaction.goesPast, hk', ho, Bool.eq_false_iff.mpr hc]
      rfl
  split
  · rw [Discipline.does_bind]
    refine settling_persistOpen rfl ?_
    exact @hrest _ _ { tx with status := .succeeding } rfl hk rfl rfl (Shelf.put_self _ _)
  · rename_i hne
    rw [Discipline.does_bind]
    exact Discipline.does_pure.mpr
      (hrest (not_not.mp hne) hk rfl rfl (Shelf.put_self σ tx))

theorem settling_prepareWorkflow (gid : String) : settling.Always (Dtm.prepareWorkflow gid) := by
  intro σ
  rw [Dtm.prepareWorkflow, Discipline.does_bind]
  refine settling_transactionOfKind fun tx _ _ => ?_
  split
  · exact Discipline.does_pure.mpr trivial
  simp only [Discipline.does_bind, does_ofExcept]
  exact fun _ _ => settling_persistOpen rfl trivial

theorem settling_abortWorkflow (gid : String) : settling.Always (dtm.abortWorkflow gid) := by
  intro σ
  rw [Dtm.abortWorkflow, Discipline.does_bind]
  refine settling_transactionOfKind fun tx _ hk => ?_
  split
  · exact Discipline.does_pure.mpr trivial
  simp only [Discipline.does_bind, does_ofExcept]
  exact fun _ _ => settling_abortWorkflowLoop (Shelf.put_self σ tx) rfl hk
    (fun b hb => List.mem_reverse.mp hb) fun _ hb => by cases hb

theorem settling_startWorkflow (gid : String) : settling.Always (dtm.startWorkflow gid) := by
  intro σ
  rw [Dtm.startWorkflow, Discipline.does_bind]
  refine settling_transactionOfKind fun tx _ _ => ?_
  split
  · exact Discipline.does_pure.mpr trivial
  simp only [Discipline.does_bind, does_ofExcept]
  exact fun _ _ _ _ => settling_startWorkflowLoop (settling_abortWorkflow gid) rfl

/-! ### Scheduling -/

theorem settling_scheduleSubmit (gid : String) : settling.Always (Dtm.scheduleSubmit gid) := by
  intro σ
  rw [Dtm.scheduleSubmit, Discipline.does_bind]
  refine settling_loadTransaction fun tx _ => ?_
  split
  · exact Discipline.does_pure.mpr trivial
  simp only [Discipline.does_bind, does_ofExcept]
  intro _ _ _ _
  split
  · exact settling_persistOpen rfl trivial
  split
  · exact settling_persistOpen rfl trivial
  · exact Discipline.does_pure.mpr trivial

theorem settling_scheduleAbort (gid : String) : settling.Always (Dtm.scheduleAbort gid) := by
  intro σ
  rw [Dtm.scheduleAbort, Discipline.does_bind]
  refine settling_loadTransaction fun tx _ => ?_
  split
  · exact Discipline.does_pure.mpr trivial
  split
  · exact settling_abortMessage gid _
  simp only [Discipline.does_bind, does_ofExcept]
  exact fun _ _ => settling_persistOpen rfl trivial

theorem settling_forceStop (gid : String) : settling.Always (Dtm.forceStop gid) := by
  intro σ
  simp only [Dtm.forceStop, Discipline.does_bind, does_ofExcept]
  refine settling_loadTransaction fun tx _ _ _ => settling_persistIdle (fun b hb => ?_) trivial
  obtain ⟨a, -, rfl⟩ := List.mem_map.mp hb
  exact .of_none rfl

theorem settling_resetRetry (gid : String) : settling.Always (Dtm.resetRetry gid) := by
  intro σ
  simp only [Dtm.resetRetry, Discipline.does_bind, does_ofExcept]
  refine settling_loadTransaction fun tx _ _ hopen => settling_currentMillis fun now => ?_
  refine settling_persistOpen ?_ trivial
  show tx.status.isTerminal = false
  simpa using ensure_eq_ok.mp hopen

/-- **Every operation ends a transaction without a retry time**, if nothing was left that has one. -/
theorem settling_walks : dtm.Walks (fun _ _ => True) fun x => settling.Always x where
  toClosed := closed_always settling
  load := fun _ _ => settling_loadTransaction fun _ _ => trivial
  clock := settling_batches.clock
  list := settling_always fun _ h => nomatch h
  lease := fun _ _ _ => settling_always fun _ h => nomatch h
  insert := fun _ _ => ⟨trivial, fun _ _ _ _ => trivial⟩
  register := fun _ _ _ _ => ⟨trivial, fun _ _ _ _ => trivial⟩
  progress := fun _ _ _ => ⟨trivial, fun _ _ _ _ => trivial⟩
  kv := fun _ _ => settling_always fun _ h => nomatch h
  finish := fun _ _ _ _ => settling_always fun _ h => nomatch h
  defer := fun _ _ => settling_always fun _ h => nomatch h
  query := fun _ _ => settling_always fun _ h => nomatch h
  scheduleSubmit := settling_scheduleSubmit
  scheduleAbort := settling_scheduleAbort
  forceStop := settling_forceStop
  resetRetry := settling_resetRetry
  startSaga := settling_startSaga
  abortSaga := settling_abortSaga
  prepareTcc := settling_prepareTcc
  confirmTcc := settling_confirmTcc
  cancelTcc := settling_cancelTcc
  prepareMessage := settling_prepareMessage
  dispatchMessage := settling_dispatchMessage
  abortMessage := settling_abortMessage
  prepareWorkflow := settling_prepareWorkflow
  startWorkflow := settling_startWorkflow
  abortWorkflow := settling_abortWorkflow
  prepareXa := settling_prepareXa
  commitXa := settling_commitXa
  rollbackXa := settling_rollbackXa

end Operations

end RozeDtm
