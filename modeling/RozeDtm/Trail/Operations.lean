import RozeDtm.Serial.Steady
import RozeDtm.Session.Operations
import RozeDtm.Trail.Saga

/-!
# Every operation writes what has developed
-/

namespace RozeDtm

open Conc

section Operations

variable {dtm : Dtm} {C : BranchCall → Prop} {σ : Trail} {gid : String} {tx : Transaction}

/-! ### Scheduling -/

theorem developing_scheduleSubmit :
    (developing C).Does (Dtm.scheduleSubmit gid) σ (fun _ _ => True) := by
  simp only [Dtm.scheduleSubmit, Discipline.does_bind, developing_loadTransaction]
  intro tx
  have h := σ.from_addRead tx
  split
  · exact Discipline.does_pure.mpr trivial
  · simp only [Discipline.does_bind, does_ofExcept]
    intro _ _ _ _
    split
    · exact developing_persistTransaction (h.status _) trivial
    · split
      · exact developing_persistTransaction (h.status _) trivial
      · exact Discipline.does_pure.mpr trivial

theorem developing_scheduleAbort :
    (developing C).Does (Dtm.scheduleAbort gid) σ (fun _ _ => True) := by
  simp only [Dtm.scheduleAbort, Discipline.does_bind, developing_loadTransaction]
  intro tx
  split
  · exact Discipline.does_pure.mpr trivial
  · split
    · exact developing_abortMessage
    · simp only [Discipline.does_bind, does_ofExcept]
      refine fun _ _ => developing_persistTransaction ?_ trivial
      exact (σ.from_addRead tx).map _ fun b _ => .delayed (Or.inl rfl)

theorem developing_forceStop :
    (developing C).Does (Dtm.forceStop gid) σ (fun _ _ => True) := by
  simp only [Dtm.forceStop, Discipline.does_bind, developing_loadTransaction, does_ofExcept]
  refine fun tx _ _ => developing_persistTransaction ?_ trivial
  exact (σ.from_addRead tx).map _ fun b _ => .delayed (Or.inl rfl)

/-- The record that `reset_retry` writes. -/
theorem develops_retryNow {won : Set BranchBarrier} (now : Nat) (tx : Transaction) :
    Develops won tx (Dtm.retryNow now tx) where
  gid := rfl
  kind := rfl
  options := rfl
  callback := by
    rw [Dtm.retryNow]
    split
    · rw [Std.ExtTreeMap.getElem?_insert, if_neg (by decide), Std.ExtTreeMap.getElem?_insert,
        if_neg (by decide)]
    · rfl
  branches := by
    rw [Dtm.retryNow, List.forall₂_map_right_iff, List.forall₂_same]
    intro b _
    split
    · rename_i hr
      exact .delayed (Or.inr hr)
    · exact .refl b

theorem developing_resetRetry :
    (developing C).Does (Dtm.resetRetry gid) σ (fun _ _ => True) := by
  simp only [Dtm.resetRetry, Discipline.does_bind, developing_loadTransaction, does_ofExcept,
    developing_currentMillis]
  intro tx _ _ now
  exact developing_persistTransaction ((σ.from_addRead tx).trans (develops_retryNow now tx)) trivial

theorem developing_resetEach {gids : List String} :
    (developing C).Does (Dtm.resetEach gids) σ (fun _ _ => True) := by
  induction gids generalizing σ with
  | nil => exact Discipline.does_pure.mpr trivial
  | cons gid rest ih =>
    simp only [Dtm.resetEach, Discipline.does_bind, Discipline.does_pure]
    exact developing_resetRetry.mono fun _ _ _ => ih.mono fun _ _ _ => trivial

theorem developing_resetRetryBatch {limit : Nat} :
    (developing C).Does (Dtm.resetRetryBatch limit) σ (fun _ _ => True) := by
  simp only [Dtm.resetRetryBatch, Discipline.does_bind, developing_listTransactions]
  exact fun _ => developing_resetEach

theorem developing_resetRetryBatchAfter {afterMillis limit : Nat} :
    (developing C).Does (Dtm.resetRetryBatchAfter afterMillis limit) σ (fun _ _ => True) := by
  simp only [Dtm.resetRetryBatchAfter, Discipline.does_bind, developing_listTransactions,
    developing_currentMillis, Discipline.does_pure]
  exact fun _ _ => developing_resetEach

/-! ### Recovery -/

/-- The calls that an expiry may issue. -/
def Dtm.expiryOp (tx : Transaction) : Option String :=
  match tx.kind with
  | .tcc => some "cancel"
  | .saga => some "compensate"
  | .workflow => some "workflow_rollback"
  | .message => if tx.status = .succeeding then some "message" else none
  | .xa => some (if tx.status = .succeeding then "commit" else "rollback")

theorem developing_expire (hC : ∀ c, Dtm.expiryOp tx = some c.op → C c) :
    (developing C).Does (dtm.expire tx) σ (fun _ _ => True) := by
  rw [Dtm.expire]
  split
  · rename_i hk
    refine developing_cancelTcc fun c hc => hC c ?_
    rw [Dtm.expiryOp, hk, hc]
  · rename_i hk
    refine developing_abortSaga fun c hc => hC c ?_
    rw [Dtm.expiryOp, hk, hc]
  · rename_i hk
    split
    · exact developing_expireCallbackWorkflow
    · refine developing_abortWorkflow fun c hc => hC c ?_
      rw [Dtm.expiryOp, hk, hc]
  · rename_i hk
    split
    · rename_i hs
      refine developing_dispatchMessage fun c hc => hC c ?_
      rw [Dtm.expiryOp, hk, hc]
      exact if_pos hs
    · exact developing_abortMessage
  · rename_i hk
    split
    · rename_i hs
      refine developing_commitXa fun c hc => hC c ?_
      rw [Dtm.expiryOp, hk, hc]
      exact congrArg some (if_pos hs)
    · rename_i hs
      refine developing_rollbackXa fun c hc => hC c ?_
      rw [Dtm.expiryOp, hk, hc]
      exact congrArg some (if_neg hs)

theorem developing_resume {kind : TransactionKind} {status : TransactionStatus}
    {move : Act Transaction} (hC : ∀ c, C c) (h : dtm.resume gid kind status = some move) :
    (developing C).Does move σ (fun _ _ => True) := by
  rw [Dtm.resume.eq_def] at h
  split at h <;> simp only [Option.some.injEq, reduceCtorEq] at h <;> subst h
  · exact developing_prepareTcc fun c _ => hC c
  · exact developing_prepareTcc fun c _ => hC c
  · exact developing_confirmTcc fun c _ => hC c
  · exact developing_cancelTcc fun c _ => hC c
  · exact developing_startSaga fun c _ => hC c
  · exact developing_startSaga fun c _ => hC c
  · exact developing_abortSaga fun c _ => hC c
  · exact developing_startWorkflow fun c _ => hC c
  · exact developing_startWorkflow fun c _ => hC c
  · exact developing_abortWorkflow fun c _ => hC c
  · exact developing_prepareMessage
  · exact developing_dispatchMessage fun c _ => hC c
  · exact developing_prepareXa
  · exact developing_commitXa fun c _ => hC c
  · exact developing_rollbackXa fun c _ => hC c

/-- **What a recovery runs for a record.** -/
theorem developing_recoveryMove {move : Act Transaction} (hC : ∀ c, C c)
    (h : dtm.RecoveryMove tx move) : (developing C).Does move σ (fun _ _ => True) := by
  cases h with
  | expire => exact developing_expire fun c _ => hC c
  | prepareCallback _ => exact developing_prepareWorkflow
  | callback _ => exact developing_recoverCallbackWorkflow
  | confirm _ => exact developing_confirmTcc fun c _ => hC c
  | dispatch _ => exact developing_dispatchMessage fun c _ => hC c
  | commit _ => exact developing_commitXa fun c _ => hC c
  | resume _ h => exact developing_resume hC h

theorem developing_recoverNow (hC : ∀ c, C c) :
    (developing C).Does (dtm.recoverNow gid tx) σ (fun _ _ => True) := by
  simp only [Dtm.recoverNow, Discipline.does_bind, developing_currentMillis]
  intro now
  split
  · exact developing_expire fun c _ => hC c
  · split
    · split
      · exact developing_prepareWorkflow
      · exact developing_recoverCallbackWorkflow
      · exact Discipline.does_throw
    · rw [Dtm.recoverMove.eq_def]
      split
      · exact developing_confirmTcc fun c _ => hC c
      · exact developing_dispatchMessage fun c _ => hC c
      · exact developing_commitXa fun c _ => hC c
      · cases h : dtm.resume gid tx.kind tx.status with
        | none => exact Discipline.does_throw
        | some move => exact developing_resume hC h

theorem developing_recover (hC : ∀ c, C c) :
    (developing C).Does (dtm.recover gid) σ (fun _ _ => True) := by
  simp only [Dtm.recover_eq, Discipline.does_bind, developing_loadTransaction]
  intro tx
  split
  · exact Discipline.does_pure.mpr trivial
  · split
    · simp only [Discipline.does_bind, developing_currentMillis]
      intro now
      split
      · exact Discipline.does_pure.mpr trivial
      · exact developing_recoverNow hC
    · exact developing_recoverNow hC

theorem developing_tickLoop {now : Nat} {listed : List Transaction} (hC : ∀ c, C c) :
    (developing C).Does (dtm.tickLoop now listed) σ (fun _ _ => True) := by
  induction listed generalizing σ with
  | nil => exact Discipline.does_pure.mpr trivial
  | cons tx rest ih =>
    rw [Dtm.tickLoop]
    split
    · exact ih
    · rename_i move h
      simp only [Discipline.does_bind, Discipline.does_pure]
      exact (developing_recoveryMove hC (Dtm.recoveryMove_of_tickMove h)).mono fun _ _ _ =>
        ih.mono fun _ _ _ => trivial

theorem developing_tickRecoverOnce (hC : ∀ c, C c) :
    (developing C).Does dtm.tickRecoverOnce σ (fun _ _ => True) := by
  simp only [Dtm.tickRecoverOnce, Discipline.does_bind, developing_currentMillis,
    developing_listTransactions]
  exact fun _ _ => developing_tickLoop hC

theorem developing_tickRecoverOnceWithLease {owner : String} {ttlMillis : Nat} (hC : ∀ c, C c) :
    (developing C).Does (dtm.tickRecoverOnceWithLease owner ttlMillis) σ (fun _ _ => True) := by
  simp only [Dtm.tickRecoverOnceWithLease, Discipline.does_bind, developing_acquireRecoveryLease]
  intro fence
  split
  · exact Discipline.does_pure.mpr trivial
  · exact developing_tickRecoverOnce hC

end Operations

/-! ### The table of operations -/

section Table

variable {dtm : Dtm} {C : BranchCall → Prop} {σ : Trail}

theorem developing_one {act : Act Transaction} (h : (developing C).Does act σ (fun _ _ => True)) :
    (developing C).Does (Operation.act.one act) σ (fun _ _ => True) :=
  Discipline.does_bind.mpr (h.mono fun _ _ _ => Discipline.does_pure.mpr trivial)

/-- **Every operation that registers nothing writes what has developed.** -/
theorem developing_act {op : Operation} (hC : ∀ c, C c) (hop : op.registers = false) :
    (developing C).Does (op.act dtm) σ (fun _ _ => True) := by
  cases op with
  | submit tx => cases hop
  | registerBranch gid branch => cases hop
  | recordWorkflowProgress gid progress => cases hop
  | finishCallbackWorkflow gid status reason result =>
    refine developing_one ?_
    simp [finishCallbackWorkflow]
  | recoverCallbackWorkflow gid => exact developing_one developing_recoverCallbackWorkflow
  | scheduleSubmit gid => exact developing_one developing_scheduleSubmit
  | scheduleAbort gid => exact developing_one developing_scheduleAbort
  | startSaga gid => exact developing_one (developing_startSaga fun c _ => hC c)
  | abortSaga gid => exact developing_one (developing_abortSaga fun c _ => hC c)
  | prepareTcc gid => exact developing_one (developing_prepareTcc fun c _ => hC c)
  | confirmTcc gid => exact developing_one (developing_confirmTcc fun c _ => hC c)
  | cancelTcc gid => exact developing_one (developing_cancelTcc fun c _ => hC c)
  | prepareMessage gid => exact developing_one developing_prepareMessage
  | dispatchMessage gid => exact developing_one (developing_dispatchMessage fun c _ => hC c)
  | abortMessage gid => exact developing_one developing_abortMessage
  | prepareWorkflow gid => exact developing_one developing_prepareWorkflow
  | startWorkflow gid => exact developing_one (developing_startWorkflow fun c _ => hC c)
  | abortWorkflow gid => exact developing_one (developing_abortWorkflow fun c _ => hC c)
  | prepareXa gid => exact developing_one developing_prepareXa
  | commitXa gid => exact developing_one (developing_commitXa fun c _ => hC c)
  | rollbackXa gid => exact developing_one (developing_rollbackXa fun c _ => hC c)
  | forceStop gid => exact developing_one developing_forceStop
  | resetRetry gid => exact developing_one developing_resetRetry
  | resetRetryBatch limit => exact developing_resetRetryBatch
  | resetRetryBatchAfter afterMillis limit =>
    exact Discipline.does_bind.mpr (developing_resetRetryBatchAfter.mono
      fun _ _ _ => Discipline.does_pure.mpr trivial)
  | recover gid => exact developing_one (developing_recover hC)
  | tickRecoverOnce => exact developing_tickRecoverOnce hC
  | tickRecoverOnceWithLease owner ttlMillis => exact developing_tickRecoverOnceWithLease hC

end Table

/-! ### Registrations -/

/-- The same with the registrations: `I` are the records that may be inserted, `R` the branches
that may be registered. -/
def developingAnd (C : BranchCall → Prop) (I : Transaction → Prop) (R : String → Branch → Prop) :
    Discipline effects Trail where
  pre := fun σ o => match o with
    | .insertTransaction tx => I tx
    | .registerBranch gid branch => R gid branch
    | .recordWorkflowProgress _ _ => True
    | o => (developing C).pre σ o
  sees := (developing C).sees
  next := Trail.next

theorem developing_le {C : BranchCall → Prop} {I : Transaction → Prop}
    {R : String → Branch → Prop} : Discipline.Le (developing C) (developingAnd C I R) where
  pre := fun {_ o} h => by cases o <;> first | exact h | exact h.elim
  sees := fun h => h
  next := rfl

/-- What `submit` inserts for `tx`. -/
structure SubmittedAs (tx tx' : Transaction) : Prop where
  gid : tx'.gid = tx.gid
  kind : tx'.kind = tx.kind
  status : tx'.status = tx.status
  options : tx'.options = tx.options
  metadata : tx'.metadata = tx.metadata
  valid : validateTransactionDependencies tx = .ok ()
  same : tx.kind ≠ .message → tx'.branches = tx.branches
  each : ∀ b ∈ tx'.branches, ∃ a ∈ tx.branches, b = { a with id := b.id, action := b.action }

section Submit

variable {dtm : Dtm} {C : BranchCall → Prop} {I : Transaction → Prop}
  {R : String → Branch → Prop} {σ : Trail}

theorem developing_getKv {category key : String} {Q : Trail → Option KvEntry → Prop} :
    (developing C).Does (Store.getKv category key) σ Q ↔ ∀ r, Q σ r :=
  developing_silent trivial fun _ => rfl

/-- **The branches that a Message is submitted with.** -/
theorem developing_expandBranches (branches : List Branch) :
    (developing C).Does (dtm.expandBranches branches) σ (fun σ' bs => σ' = σ ∧
      ∀ b ∈ bs, ∃ a ∈ branches, b = { a with id := b.id, action := b.action }) := by
  induction branches with
  | nil => exact Discipline.does_pure.mpr ⟨rfl, fun b hb => nomatch hb⟩
  | cons branch rest ih =>
    have hrest {bs : List Branch} (hbs : ∀ b ∈ bs, b = { branch with id := b.id, action := b.action }) :
        (developing C).Does (dtm.expandBranches rest) σ (fun σ' bs' => σ' = σ ∧
          ∀ b ∈ bs ++ bs', ∃ a ∈ branch :: rest, b = { a with id := b.id, action := b.action }) := by
      refine ih.mono fun σ' bs' h => ⟨h.1, fun b hb => ?_⟩
      rcases List.mem_append.mp hb with hb | hb
      · exact ⟨branch, .head _, hbs b hb⟩
      · obtain ⟨a, ha, hab⟩ := h.2 b hb
        exact ⟨a, .tail _ ha, hab⟩
    rw [Dtm.expandBranches]
    split
    · simp only [Discipline.does_bind, does_ofOption, does_ofExcept, Discipline.does_pure,
        Dtm.getTopic, developing_getKv]
      intro _ _ entry
      cases entry with
      | none => simp
      | some entry =>
        simp only [Discipline.does_bind, does_ofExcept, Discipline.does_pure]
        intro subscribers _ topic htopic _ _
        refine hrest fun b hb => ?_
        obtain ⟨i, hi, rfl⟩ := List.mem_mapIdx.mp hb
        rfl
    · simp only [Discipline.does_bind, Discipline.does_pure]
      exact hrest (by simp)

theorem developing_submit {tx : Transaction} (hI : ∀ tx', SubmittedAs tx tx' → I tx') :
    (developingAnd C I R).Does (dtm.submit tx) σ (fun _ _ => True) := by
  -- the last step, and the only one that other operations do not take
  have insert {tx' : Transaction} {σ : Trail} (h : SubmittedAs tx tx') :
      (developingAnd C I R).Does (do
        Store.insertTransaction tx'
        return tx') σ (fun _ _ => True) :=
    Discipline.does_bind.mpr ⟨hI _ h, fun _ _ _ _ => Discipline.does_pure.mpr trivial⟩
  simp only [Dtm.submit, Discipline.does_bind, does_ofExcept]
  intro _ _ _ _ _ hvalid
  have hvalid : validateTransactionDependencies tx = .ok () := hvalid
  split
  · rename_i hmessage
    rw [Discipline.does_bind]
    have hexpand : (developing C).Does (dtm.expandMessageTopics { tx with revision := 1 }) σ
        (fun _ tx' => ∃ bs, tx' = { tx with revision := 1, branches := bs } ∧
          ∀ b ∈ bs, ∃ a ∈ tx.branches, b = { a with id := b.id, action := b.action }) := by
      simp only [Dtm.expandMessageTopics, Discipline.does_bind, does_ofExcept,
        Discipline.does_pure]
      exact (developing_expandBranches _).mono fun _ bs h _ _ => ⟨bs, rfl, h.2⟩
    refine Discipline.Does.mono (hexpand.le developing_le) ?_
    rintro σ' _ ⟨bs, rfl, hbs⟩
    refine insert ?_
    split <;> exact ⟨rfl, rfl, rfl, rfl, rfl, hvalid, fun h => absurd hmessage h, hbs⟩
  · rw [Discipline.does_bind, Discipline.does_pure]
    refine insert ?_
    split <;> exact ⟨rfl, rfl, rfl, rfl, rfl, hvalid, fun _ => rfl, fun b hb => ⟨b, hb, rfl⟩⟩

/-- An operation brings in only records that may be inserted and branches that may be
registered. -/
def Operation.Brings (I : Transaction → Prop) (R : String → Branch → Prop) : Operation → Prop
  | .submit tx => ∀ tx', SubmittedAs tx tx' → I tx'
  | .registerBranch gid branch => R gid branch
  | _ => True

/-- **Every operation writes what has developed**, and brings in what it may. -/
theorem developing_prog {op : Operation} (hC : ∀ c, C c) (hI : op.Brings I R) :
    (developingAnd C I R).Follows (op.prog dtm) σ (fun _ _ => True) := by
  have single {act : Act Transaction} (h : (developingAnd C I R).Does act σ (fun _ _ => True)) :
      (developingAnd C I R).Follows (Operation.act.one act).run σ (fun _ _ => True) := by
    have h' : (developingAnd C I R).Does (Operation.act.one act) σ (fun _ _ => True) :=
      Discipline.does_bind.mpr (h.mono fun _ _ _ => Discipline.does_pure.mpr trivial)
    exact h'.follows
  cases hop : op.registers with
  | false => exact ((developing_act hC hop).follows).le developing_le
  | true =>
    cases op with
    | submit tx => exact single (developing_submit hI)
    | registerBranch gid branch => exact single ⟨hI, fun _ _ _ _ => trivial⟩
    | recordWorkflowProgress gid progress => exact single ⟨trivial, fun _ _ _ _ => trivial⟩
    | _ => cases hop

end Submit

end RozeDtm
