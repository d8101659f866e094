import RozeDtm.Trail.Basic

/-!
# Rules for writing what has developed

One rule for each of the steps that the operations are made of.  A loop holds a record
`{ tx with branches := passed ++ branch :: ahead }` that has developed from one that was read,
and carries it on one branch at a time (`Trail.From.carry`).
-/

namespace RozeDtm

open Conc

section Rules

variable {C : BranchCall → Prop} {σ : Trail} {tx : Transaction}

theorem developing_call {o : Effect} {Q : Trail → o.Reply → Prop} :
    (developing C).Does (Act.call o) σ Q ↔ (developing C).pre σ o ∧ ∀ r, Q (σ.next o r) r := by
  refine Discipline.does_perform.trans (and_congr Iff.rfl ?_)
  exact forall_congr' fun r => ⟨fun h => h trivial, fun h _ => h⟩

/-- A step that the discipline permits at any time and that leaves no trail. -/
theorem developing_silent {o : Effect} {Q : Trail → o.Reply → Prop} (hp : (developing C).pre σ o)
    (hσ : ∀ r, σ.next o r = σ) : (developing C).Does (Act.call o) σ Q ↔ ∀ r, Q σ r := by
  rw [developing_call]
  simp only [hσ]
  exact ⟨fun h => h.2, fun h => ⟨hp, h⟩⟩

@[simp] theorem developing_currentMillis {Q : Trail → Nat → Prop} :
    (developing C).Does currentMillis σ Q ↔ ∀ now, Q σ now :=
  developing_silent trivial fun _ => rfl

@[simp] theorem developing_joinNext {n : Nat} {Q : Trail → Fin (n + 1) → Prop} :
    (developing C).Does (joinNext n) σ Q ↔ ∀ k, Q σ k :=
  developing_silent trivial fun _ => rfl

@[simp] theorem developing_barrier {b : BranchBarrier} {Q : Trail → BarrierDecision → Prop} :
    (developing C).Does (Store.barrier b) σ Q ↔ ∀ d, Q σ d :=
  developing_silent trivial fun _ => rfl

@[simp] theorem developing_releaseBarrier {b : BranchBarrier} {Q : Trail → Unit → Prop} :
    (developing C).Does (Store.releaseBarrier b) σ Q ↔ Q σ () :=
  developing_call.trans ⟨fun h => h.2 (), fun h => ⟨trivial, fun _ => h⟩⟩

@[simp] theorem developing_listTransactions {Q : Trail → List Transaction → Prop} :
    (developing C).Does Store.listTransactions σ Q ↔ ∀ txs, Q σ txs :=
  developing_silent trivial fun _ => rfl

@[simp] theorem developing_finishWorkflow {gid : String} {status : TransactionStatus}
    {reason result : Option String} {Q : Trail → Except Err Transaction → Prop} :
    (developing C).Does (Store.finishWorkflow gid status reason result) σ Q ↔ ∀ r, Q σ r :=
  developing_silent trivial fun _ => rfl

@[simp] theorem developing_deferWorkflowRecovery {gid : String} {delay : WorkflowRecoveryDelay}
    {Q : Trail → Except Err Transaction → Prop} :
    (developing C).Does (Store.deferWorkflowRecovery gid delay) σ Q ↔ ∀ r, Q σ r :=
  developing_silent trivial fun _ => rfl

@[simp] theorem developing_queryWorkflowCallback {request : WorkflowCallbackRequest}
    {options : TransactionOptions} {Q : Trail → Except Err WorkflowCallbackResult → Prop} :
    (developing C).Does (queryWorkflowCallback request options) σ Q ↔ ∀ r, Q σ r :=
  developing_silent trivial fun _ => rfl

@[simp] theorem developing_acquireRecoveryLease {name owner : String} {ttl : Nat}
    {Q : Trail → Option RecoveryLeaseFence → Prop} :
    (developing C).Does (Store.acquireRecoveryLease name owner ttl) σ Q ↔ ∀ r, Q σ r :=
  developing_silent trivial fun _ => rfl

theorem developing_getTransaction {gid : String} {Q : Trail → Option Transaction → Prop} :
    (developing C).Does (Store.getTransaction gid) σ Q ↔
      Q σ none ∧ ∀ tx, Q (σ.addRead tx) (some tx) := by
  refine developing_call.trans ⟨fun h => ⟨h.2 none, fun tx => h.2 (some tx)⟩, fun h => ?_⟩
  refine ⟨trivial, fun r => ?_⟩
  match (r : Option Transaction) with
  | none => exact h.1
  | some tx => exact h.2 tx

/-- **Reading a record.** -/
@[simp] theorem developing_loadTransaction {gid : String} {Q : Trail → Transaction → Prop} :
    (developing C).Does (loadTransaction gid) σ Q ↔ ∀ tx, Q (σ.addRead tx) tx := by
  simp only [loadTransaction, Discipline.does_bind, developing_getTransaction, does_ofOption]
  refine ⟨fun h tx => h.2 tx tx rfl, fun h => ⟨fun tx htx => ?_, fun tx' tx htx => ?_⟩⟩
  · cases htx
  · cases htx
    exact h _

@[simp] theorem developing_transactionOfKind {gid : String} {kind : TransactionKind}
    {Q : Trail → Transaction → Prop} :
    (developing C).Does (transactionOfKind gid kind) σ Q ↔
      ∀ tx, tx.kind = kind → Q (σ.addRead tx) tx := by
  simp only [transactionOfKind, Discipline.does_bind, developing_loadTransaction, does_ofExcept,
    ensureKind_eq_ok, Discipline.does_pure]
  exact ⟨fun h tx hk => h tx () hk, fun h tx _ hk => h tx hk⟩

/-- **Writing a record.** -/
theorem developing_persistTransaction {Q : Trail → Transaction → Prop} (htx : σ.From tx)
    (hQ : Q σ tx.written) : (developing C).Does (persistTransaction tx) σ Q := by
  refine ⟨htx, fun r _ => ?_⟩
  match r with
  | .ok _ =>
    intro a ha
    cases ha
    exact hQ
  | .error _ =>
    intro a ha
    cases ha

/-- **Calling a branch.** -/
theorem developing_invokeBranch {dtm : Dtm} {options : TransactionOptions} {gid : String}
    {branch : Branch} {url op : String} {Q : Trail → Branch × Bool → Prop}
    (hC : C (Dtm.branchCall options gid branch url op))
    (ok : Q (σ.addWon (branch.key gid op)) (branch, true))
    (error : ∀ b, b.definition = branch.definition → Q σ (b, false)) :
    (developing C).Does (dtm.invokeBranch options gid branch url op) σ Q := by
  simp only [Dtm.invokeBranch, Discipline.does_bind]
  refine developing_call.mpr ⟨hC, fun _ => developing_call.mpr ⟨trivial, fun r => ?_⟩⟩
  match r with
  | true => exact Discipline.does_pure.mpr ok
  | false =>
    simp only [Bool.false_eq_true, if_false, Discipline.does_bind, Discipline.does_pure]
    refine developing_currentMillis.mpr fun now => ?_
    exact error _ (recordBranchFailure_definition ..)

end Rules

/-! ### Carrying on a record -/

namespace Trail.From

variable {σ : Trail} {tx : Transaction} {bs bs' : List Branch} {a b : Branch}

/-- Another status. -/
theorem status (h : σ.From tx) (status : TransactionStatus) :
    σ.From { tx with status := status } :=
  h.trans (.change status (List.forall₂_same.mpr fun b _ => .refl b))

/-- One branch is carried on. -/
theorem carry (h : σ.From { tx with branches := bs ++ a :: bs' }) (status : TransactionStatus)
    (hb : Branch.Develops σ.won tx.gid tx.kind a b) :
    σ.From { tx with branches := bs ++ b :: bs', status := status } :=
  h.trans (.middle status hb)

/-- A loop goes on to the next branch. -/
theorem pass (h : σ.From { tx with branches := bs ++ a :: bs' })
    (hb : Branch.Develops σ.won tx.gid tx.kind a b) :
    σ.From { tx with branches := (bs ++ [b]) ++ bs' } := by
  rw [List.append_assoc]
  exact h.carry tx.status hb

/-- The same for a loop that goes through the branches from the last one. -/
theorem passBack (h : σ.From { tx with branches := (a :: bs).reverse ++ bs' })
    (hb : Branch.Develops σ.won tx.gid tx.kind a b) :
    σ.From { tx with branches := bs.reverse ++ b :: bs' } := by
  rw [List.reverse_cons, List.append_assoc] at h
  exact h.carry tx.status hb

/-- All branches are carried on. -/
theorem map (h : σ.From tx) (status : TransactionStatus) {f : Branch → Branch}
    (hf : ∀ b ∈ tx.branches, Branch.Develops σ.won tx.gid tx.kind b (f b)) :
    σ.From { tx with status := status, branches := tx.branches.map f } := by
  refine h.trans (.change status ?_)
  rw [List.forall₂_map_right_iff, List.forall₂_same]
  exact hf

/-- The branches at some places are carried on. -/
theorem mapAt (h : σ.From tx) (ready : List Nat) {f : Branch → Branch}
    (hf : ∀ b, Branch.Develops σ.won tx.gid tx.kind b (f b)) :
    σ.From (tx.mapBranchesAt ready f) :=
  h.trans (.change tx.status (forall₂_mapBranchesAt (fun _ _ _ _ => .refl _) hf))

end Trail.From

end RozeDtm
