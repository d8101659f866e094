import RozeDtm.Session.Basic

/-!
# Rules for walking through an operation

One rule for each of the steps that the operations are made of, for the checks they
start with, and for the writes: `BranchWrite` by kind of transaction, and the writes
that leave the status of every branch as it is.
-/

namespace RozeDtm

open Conc

/-! ### Steps -/

section Steps

variable {σ : Session} {α : Type}

@[simp] theorem does_ofExcept {T : Type} {D : Discipline effects T} {t : T} {e : Except Err α}
    {Q : T → α → Prop} : D.Does (Act.ofExcept e) t Q ↔ ∀ a, e = .ok a → Q t a := Iff.rfl

@[simp] theorem does_ofOption {T : Type} {D : Discipline effects T} {t : T} {o : Option α}
    {e : Err} {Q : T → α → Prop} : D.Does (Act.ofOption o e) t Q ↔ ∀ a, o = some a → Q t a := by
  cases o <;> simp [Act.ofOption]

theorem does_call {o : Effect} {Q : Session → o.Reply → Prop} :
    coordinator.Does (Act.call o) σ Q ↔
      coordinator.pre σ o ∧ ∀ r, coordinator.sees σ o r → Q (σ.next o r) r :=
  Discipline.does_perform

@[simp] theorem does_getTransaction {gid : String} {Q : Session → Option Transaction → Prop} :
    coordinator.Does (Store.getTransaction gid) σ Q ↔ ∀ r, Q (σ.setSnap r) r :=
  does_call.trans ⟨fun h r => h.2 r trivial, fun h => ⟨trivial, fun r _ => h r⟩⟩

@[simp] theorem does_listTransactions {Q : Session → List Transaction → Prop} :
    coordinator.Does Store.listTransactions σ Q ↔ ∀ r, Q σ r :=
  does_call.trans ⟨fun h r => h.2 r trivial, fun h => ⟨trivial, fun r _ => h r⟩⟩

@[simp] theorem does_currentMillis {Q : Session → Nat → Prop} :
    coordinator.Does currentMillis σ Q ↔ ∀ r, Q σ r :=
  does_call.trans ⟨fun h r => h.2 r trivial, fun h => ⟨trivial, fun r _ => h r⟩⟩

@[simp] theorem does_joinNext {n : Nat} {Q : Session → Fin (n + 1) → Prop} :
    coordinator.Does (joinNext n) σ Q ↔ ∀ r, Q σ r :=
  does_call.trans ⟨fun h r => h.2 r trivial, fun h => ⟨trivial, fun r _ => h r⟩⟩

@[simp] theorem does_finishWorkflow {gid : String} {status : TransactionStatus}
    {reason result : Option String} {Q : Session → Except Err Transaction → Prop} :
    coordinator.Does (Store.finishWorkflow gid status reason result) σ Q ↔ ∀ r, Q σ r :=
  does_call.trans ⟨fun h r => h.2 r trivial, fun h => ⟨trivial, fun r _ => h r⟩⟩

@[simp] theorem does_deferWorkflowRecovery {gid : String} {delay : WorkflowRecoveryDelay}
    {Q : Session → Except Err Transaction → Prop} :
    coordinator.Does (Store.deferWorkflowRecovery gid delay) σ Q ↔ ∀ r, Q σ r :=
  does_call.trans ⟨fun h r => h.2 r trivial, fun h => ⟨trivial, fun r _ => h r⟩⟩

@[simp] theorem does_queryWorkflowCallback {request : WorkflowCallbackRequest}
    {options : TransactionOptions}
    {Q : Session → Except Err WorkflowCallbackResult → Prop} :
    coordinator.Does (queryWorkflowCallback request options) σ Q ↔ ∀ r, Q σ r :=
  does_call.trans ⟨fun h r => h.2 r trivial, fun h => ⟨trivial, fun r _ => h r⟩⟩

@[simp] theorem does_acquireRecoveryLease {name owner : String} {ttl : Nat}
    {Q : Session → Option RecoveryLeaseFence → Prop} :
    coordinator.Does (Store.acquireRecoveryLease name owner ttl) σ Q ↔ ∀ r, Q σ r :=
  does_call.trans ⟨fun h r => h.2 r trivial, fun h => ⟨trivial, fun r _ => h r⟩⟩

@[simp] theorem does_loadTransaction {gid : String} {Q : Session → Transaction → Prop} :
    coordinator.Does (loadTransaction gid) σ Q ↔ ∀ tx, Q (σ.setSnap (some tx)) tx := by
  simp only [loadTransaction, Discipline.does_bind, does_getTransaction, does_ofOption]
  exact ⟨fun h tx => h _ tx rfl, fun h r tx hr => by subst hr; exact h tx⟩

@[simp] theorem does_transactionOfKind {gid : String} {kind : TransactionKind}
    {Q : Session → Transaction → Prop} :
    coordinator.Does (transactionOfKind gid kind) σ Q ↔
      ∀ tx, tx.kind = kind → Q (σ.setSnap (some tx)) tx := by
  simp only [transactionOfKind, Discipline.does_bind, does_loadTransaction, does_ofExcept,
    ensureKind_eq_ok, Discipline.does_pure]
  exact ⟨fun h tx hk => h tx () hk, fun h tx _ hk => h tx hk⟩

/-- **Writing a record.** -/
theorem does_persistTransaction {base tx : Transaction} {Q : Session → Transaction → Prop}
    (hσ : σ.snap = some base) (hw : Writes σ base tx)
    (hQ : Q (σ.setSnap (some tx.written)) tx.written) :
    coordinator.Does (persistTransaction tx) σ Q := by
  refine ⟨⟨base, hσ, hw⟩, fun r _ => ?_⟩
  match r with
  | .ok _ =>
    intro a ha
    cases ha
    exact hQ
  | .error _ =>
    intro a ha
    cases ha

/-- **Taking a barrier.** -/
theorem does_barrier {b : BranchBarrier} {Q : Session → BarrierDecision → Prop}
    (execute : σ.hold b = none → Q (σ.setHold b (some .taken)) .execute)
    (duplicate : Q (σ.addDup b) .skipDuplicate)
    (null : b.op = "cancel" → σ.hold b = none →
      Q (σ.setHold b (some .nulled)) .skipNullCompensation)
    (cancelled : b.op = "try" → Q σ .skipCancelledTry) :
    coordinator.Does (Store.barrier b) σ Q := by
  refine does_call.mpr ⟨trivial, fun r hr => ?_⟩
  match r with
  | .execute => exact execute hr
  | .skipDuplicate => exact duplicate
  | .skipNullCompensation => exact null hr.2 hr.1
  | .skipCancelledTry => exact cancelled hr

/-- Taking a barrier that is neither one of a Try nor one of a Cancel. -/
theorem does_barrier_plain {b : BranchBarrier} {Q : Session → BarrierDecision → Prop}
    (hc : b.op ≠ "cancel") (ht : b.op ≠ "try")
    (execute : σ.hold b = none → Q (σ.setHold b (some .taken)) .execute)
    (duplicate : Q (σ.addDup b) .skipDuplicate) :
    coordinator.Does (Store.barrier b) σ Q :=
  does_barrier execute duplicate (fun h => absurd h hc) (fun h => absurd h ht)

/-- **Giving a barrier back.** -/
theorem does_releaseBarrier {b : BranchBarrier} {Q : Session → Unit → Prop}
    (h : σ.hold b = some .taken ∨ σ.hold b = some .failed) (hQ : Q (σ.setHold b none) ()) :
    coordinator.Does (Store.releaseBarrier b) σ Q :=
  does_call.mpr ⟨h, fun _ _ => hQ⟩

theorem does_invokeBegin {c : BranchCall} {Q : Session → Unit → Prop}
    (h : σ.hold c.barrier = some .taken ∨
      (σ.hold c.barrier = some .nulled ∧ ∃ base, σ.snap = some base ∧ base.gid = c.gid ∧
        ∃ b ∈ base.branches, b.id = c.branchId ∧ b.action = ""))
    (hQ : Q (σ.setHold c.barrier (some .calling)) ()) :
    coordinator.Does (invokeBegin c) σ Q :=
  does_call.mpr ⟨h, fun _ _ => hQ⟩

theorem does_invokeEnd {c : BranchCall} {Q : Session → Bool → Prop}
    (h : σ.hold c.barrier = some .calling) (ok : Q (σ.setHold c.barrier (some .done)) true)
    (error : Q (σ.setHold c.barrier (some .failed)) false) :
    coordinator.Does (invokeEnd c) σ Q := by
  refine does_call.mpr ⟨h, fun r _ => ?_⟩
  match r with
  | true => exact ok
  | false => exact error

@[simp] theorem Session.setHold_setHold (b : BranchBarrier) (h h' : Option Hold) :
    (σ.setHold b h).setHold b h' = σ.setHold b h' := by
  simp only [Session.setHold, Function.update_idem]

@[simp] theorem branchCall_barrier (options : TransactionOptions) (gid : String) (branch : Branch)
    (url op : String) :
    (Dtm.branchCall options gid branch url op).barrier = branch.key gid op := rfl

/-! ### Branch definitions -/

@[simp] theorem recordBranchFailure_definition (now : Nat) (b : Branch) (e : String) (i j : Nat) :
    (recordBranchFailure now b e i j).definition = b.definition := rfl

@[simp] theorem recordBranchFailure_status (now : Nat) (b : Branch) (e : String) (i j : Nat) :
    (recordBranchFailure now b e i j).status = b.status := rfl

theorem Branch.id_eq {a b : Branch} (h : b.definition = a.definition) : b.id = a.id :=
  show b.definition.id = a.definition.id by rw [h]

theorem Branch.action_eq {a b : Branch} (h : b.definition = a.definition) :
    b.action = a.action := show b.definition.action = a.definition.action by rw [h]

theorem Branch.compensate_eq {a b : Branch} (h : b.definition = a.definition) :
    b.compensate = a.compensate :=
  show b.definition.compensate = a.definition.compensate by rw [h]

theorem Branch.dependencies_eq {a b : Branch} (h : b.definition = a.definition) :
    b.dependencies = a.dependencies :=
  show b.definition.dependencies = a.definition.dependencies by rw [h]

theorem Branch.key_eq {a b : Branch} (h : b.definition = a.definition) (gid op : String) :
    b.key gid op = a.key gid op := by rw [Branch.key, Branch.key, Branch.id_eq h]

/-- **Calling a branch** under a barrier that is held and not used. -/
theorem does_invokeBranch {dtm : Dtm} {options : TransactionOptions} {gid : String}
    {branch : Branch} {url op : String} {Q : Session → Branch × Bool → Prop}
    (h : σ.hold (branch.key gid op) = some .taken ∨
      (σ.hold (branch.key gid op) = some .nulled ∧ ∃ base, σ.snap = some base ∧
        base.gid = gid ∧ ∃ b ∈ base.branches, b.id = branch.id ∧ b.action = ""))
    (ok : Q (σ.setHold (branch.key gid op) (some .done)) (branch, true))
    (error : ∀ b, b.definition = branch.definition → b.status = branch.status →
      Q (σ.setHold (branch.key gid op) (some .failed)) (b, false)) :
    coordinator.Does (dtm.invokeBranch options gid branch url op) σ Q := by
  simp only [Dtm.invokeBranch, Discipline.does_bind]
  refine does_invokeBegin h (does_invokeEnd ?_ ?_ ?_)
  · exact Session.setHold_self ..
  · simpa using ok
  · simpa using fun _ => error _ (recordBranchFailure_definition ..) (recordBranchFailure_status ..)

end Steps

/-! ### Any answer -/

section AnyReply

/-- The discipline of programs over any store. -/
abbrev anyReply : Discipline effects Unit := Discipline.anything effects

theorem anyReply_does {α : Type} {x : Act α} {Q : Unit → α → Prop} (h : ∀ a, Q () a) :
    anyReply.Does x () Q := by
  have hall : ∀ p : Prog effects (Except Err α),
      anyReply.Follows p () fun t r => ∀ a, r = .ok a → Q t a := by
    intro p
    induction p with
    | pure r => exact fun a _ => h a
    | step o k ih => exact ⟨trivial, fun r _ => ih r⟩
  exact hall x

theorem anyReply_call {o : Effect} {Q : Unit → o.Reply → Prop} :
    anyReply.Does (Act.call o) () Q ↔ ∀ r, Q () r := by
  refine Discipline.does_perform.trans ⟨fun h r => h.2 r trivial, fun h => ⟨trivial, fun r _ => h r⟩⟩

theorem anyReply_persistTransaction {tx : Transaction} {Q : Unit → Transaction → Prop} (h : Q () tx.written) :
    anyReply.Does (persistTransaction tx) () Q :=
  Discipline.does_bind.mpr (anyReply_does fun _ => Discipline.does_pure.mpr h)

end AnyReply

/-! ### Writes -/

namespace SameHead

variable {base tx : Transaction}

theorem refl (tx : Transaction) : SameHead tx tx := ⟨rfl, rfl, rfl, rfl, rfl, rfl, rfl⟩

/-- New branches, status and metadata leave the head as it is. -/
theorem change (h : SameHead base tx) (branches : List Branch) (status : TransactionStatus)
    (metadata : Std.ExtTreeMap String String) :
    SameHead base { tx with branches := branches, status := status, metadata := metadata } :=
  ⟨h.gid, h.kind, h.createdAtMillis, h.timeoutMillis, h.options, h.workflowProgresses, h.revision⟩

end SameHead

namespace BranchWrite

variable {σ : Session} {base : Transaction} {target : TransactionStatus} {a b : Branch}

theorem tcc (hk : base.kind = .tcc) (hd : b.definition = a.definition)
    (confirmed : target = .succeeded → σ.Settled (a.key base.gid "confirm"))
    (cancelled : target = .aborted → σ.Settled (a.key base.gid "cancel") ∨
      (σ.hold (a.key base.gid "cancel") = some .nulled ∧ a.action ≠ "")) :
    BranchWrite σ base target a b where
  definition := hd
  confirmed := fun _ => confirmed
  cancelled := fun _ => cancelled
  committed := by simp [hk]
  rolledBack := by simp [hk]
  delivered := by simp [hk]
  allDelivered := by simp [hk]
  kept := by simp [hk]
  compensated := by simp [hk]

theorem xa (hk : base.kind = .xa) (hd : b.definition = a.definition)
    (committed : target = .succeeded → σ.Settled (a.key base.gid "commit"))
    (rolledBack : target = .aborted → σ.Settled (a.key base.gid "rollback")) :
    BranchWrite σ base target a b where
  definition := hd
  confirmed := by simp [hk]
  cancelled := by simp [hk]
  committed := fun _ => committed
  rolledBack := fun _ => rolledBack
  delivered := by simp [hk]
  allDelivered := by simp [hk]
  kept := by simp [hk]
  compensated := by simp [hk]

theorem message (hk : base.kind = .message) (hd : b.definition = a.definition)
    (delivered : b.status = .succeeded →
      a.status = .succeeded ∨ σ.Done (a.key base.gid "message"))
    (allDelivered : target = .succeeded → b.status = .succeeded ∨
      (base.options.concurrent = false ∧ σ.dup (a.key base.gid "message"))) :
    BranchWrite σ base target a b where
  definition := hd
  confirmed := by simp [hk]
  cancelled := by simp [hk]
  committed := by simp [hk]
  rolledBack := by simp [hk]
  delivered := fun _ => delivered
  allDelivered := fun _ => allDelivered
  kept := by simp [hk]
  compensated := by simp [hk]

theorem saga (hk : base.kind = .saga) (hd : b.definition = a.definition)
    (kept : target = .aborting ∨ target = .aborted →
      a.status = .succeeded ∨ (a.status = .compensating ∧ base.status = .aborting) →
      b.status = .succeeded ∨ b.status = .compensating ∨
        σ.Done (a.key base.gid "compensate") ∨ a.compensate = none)
    (compensated : target = .aborted → b.status ≠ .succeeded ∧ b.status ≠ .compensating) :
    BranchWrite σ base target a b where
  definition := hd
  confirmed := by simp [hk]
  cancelled := by simp [hk]
  committed := by simp [hk]
  rolledBack := by simp [hk]
  delivered := by simp [hk]
  allDelivered := by simp [hk]
  kept := fun _ => kept
  compensated := fun _ => compensated

theorem workflow (hk : base.kind = .workflow) (hd : b.definition = a.definition) :
    BranchWrite σ base target a b where
  definition := hd
  confirmed := by simp [hk]
  cancelled := by simp [hk]
  committed := by simp [hk]
  rolledBack := by simp [hk]
  delivered := by simp [hk]
  allDelivered := by simp [hk]
  kept := by simp [hk]
  compensated := by simp [hk]

/-- A branch whose status stays may be written under every status that is no outcome of
branch calls. -/
theorem still (hd : b.definition = a.definition) (hs : b.status = a.status)
    (h1 : target ≠ .succeeded) (h2 : target ≠ .aborted) : BranchWrite σ base target a b where
  definition := hd
  confirmed := fun _ h => absurd h h1
  cancelled := fun _ h => absurd h h2
  committed := fun _ h => absurd h h1
  rolledBack := fun _ h => absurd h h2
  delivered := fun _ h => Or.inl (hs ▸ h)
  allDelivered := fun _ h => absurd h h1
  kept := fun _ _ h => h.elim (fun h => Or.inl (hs ▸ h)) fun h => Or.inr (Or.inl (hs ▸ h.1))
  compensated := fun _ h => absurd h h2

end BranchWrite

/-- A write that changes no branch's status and takes the transaction to a status that
is no outcome of branch calls. -/
theorem Writes.still {σ : Session} {base : Transaction} {bs : List Branch}
    {target : TransactionStatus} (metadata : Std.ExtTreeMap String String)
    (hbs : List.Forall₂ (fun a b => b.definition = a.definition ∧ b.status = a.status)
      base.branches bs)
    (hm : TransactionStatus.moves base.kind base.status target = true)
    (h1 : target ≠ .succeeded) (h2 : target ≠ .aborted) :
    Writes σ base { base with status := target, branches := bs, metadata := metadata } where
  head := (SameHead.refl base).change _ _ _
  moves := hm
  branches := hbs.imp fun _ _ h => .still h.1 h.2 h1 h2

/-- A write that changes the status only, to one that is no outcome of branch calls. -/
theorem Writes.status {σ : Session} {base : Transaction} {target : TransactionStatus}
    (hm : TransactionStatus.moves base.kind base.status target = true)
    (h1 : target ≠ .succeeded) (h2 : target ≠ .aborted) :
    Writes σ base { base with status := target } :=
  Writes.still base.metadata (List.forall₂_same.mpr fun _ _ => ⟨rfl, rfl⟩) hm h1 h2

end RozeDtm
