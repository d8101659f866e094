import RozeDtm.Twin.Operations

/-!
# Recovery under two gids

`recover` looks at the record and the clock and passes it to another operation, or to the two
ways a callback Workflow is driven.  The store calls of these hand a failure to the program,
which then looks whether the Workflow has ended meanwhile (`terminal_after_conflict`).
-/

namespace RozeDtm

open Conc

variable {fails : (String → Err) → Prop} {gid gid' : String} {dtm : Dtm} {tx r : Transaction}
  {w w' : World}

/-! ### A change to a callback Workflow -/

/-- **The error stays** when the Workflow has not ended, whether it came from the store's
failure (`t`) or not. -/
theorem twins_terminalAfterConflict {t : Bool} {e e' : Err}
    {Q : Transaction → Transaction → World → World → Prop} {E : Err → Err → Prop}
    (h : Held gid gid' tx w w') (hopen : tx.status.isTerminal = false)
    (hE : ∀ u u', (controlStore gid).Verdict (controlStore gid') fails Q E t (.error e) (.error e')
      u u') :
    (controlStore gid).Twins (controlStore gid') fails
      ((controlStore gid).Verdict (controlStore gid') fails Q E) t
      (Dtm.terminalAfterConflict gid e).run (Dtm.terminalAfterConflict gid' e').run w w' := by
  refine ⟨fun c => ?_, fun f hf => ⟨f, hf, rfl, rfl⟩⟩
  -- the end of the program with what the load has found
  let ending (found : Option Transaction) (g : String) (e : Err) : Act Transaction :=
    Act.ofOption found s!"transaction not found: {g}" >>= fun latest =>
      if latest.status.isTerminal then pure latest else throw e
  have hthrow (g : String) (e : Err) : (ending (some (tx.named g)) g e).run = .pure (.error e) := by
    show (if (tx.named g).status.isTerminal then pure (tx.named g) else throw e : Act _).run = _
    rw [named_status, hopen]
    rfl
  show (controlStore gid).Twins _ _ _ t (ending w.txs[gid]? gid e).run
    (ending w'.txs[gid']? gid' e').run _ _
  rw [h.left, h.right, hthrow, hthrow]
  exact hE _ _

/-- A change that does the same to a record under every gid, or fails with one plain error. -/
def NameBlind (change : Transaction → Except Err Transaction) (tx : Transaction) : Prop :=
  (∃ s : Transaction, ∀ g, change (tx.named g) = .ok (s.named g)) ∨
    ∃ e, Plain e ∧ ∀ g, change (tx.named g) = .error e

/-- What is made of the result of a change. -/
def afterChange (gid : String) (result : Except Err Transaction) : Act Transaction :=
  match result with
  | .ok transaction => pure transaction
  | .error error => Dtm.terminalAfterConflict gid error

theorem twin_afterChange {change : Transaction → Except Err Transaction}
    (h : Held gid gid' tx w w') (hopen : tx.status.isTerminal = false)
    (hchange : NameBlind change tx) :
    Twin fails gid gid' (afterChange gid (InMemory.modify w gid change).1)
      (afterChange gid' (InMemory.modify w' gid' change).1) (fun _ _ => Alive gid gid') BothPlain
      (InMemory.modify w gid change).2 (InMemory.modify w' gid' change).2 := by
  unfold InMemory.modify
  rw [h.left, h.right]
  obtain ⟨s, hs⟩ | ⟨e, he, hs⟩ := hchange
  · dsimp only
    rw [hs, hs]
    exact ⟨s, Std.ExtTreeMap.getElem?_insert_self, Std.ExtTreeMap.getElem?_insert_self, h.barriers⟩
  · dsimp only
    rw [hs, hs]
    exact twins_terminalAfterConflict h hopen fun _ _ => BothPlain.same he

theorem NameBlind.of_ok {f : Transaction → Transaction} (h : ∀ g, f (tx.named g) = (f tx).named g) :
    NameBlind (fun tx => .ok (f tx)) tx :=
  Or.inl ⟨f tx, fun g => congrArg Except.ok (h g)⟩

theorem NameBlind.of_checked {check : Transaction → Except Err Unit}
    {change : Transaction → Except Err Transaction} (hcheck : ∀ g, check (tx.named g) = .ok ())
    (h : NameBlind change tx) : NameBlind (fun tx => check tx >>= fun _ => change tx) tx := by
  have heq (g : String) : (check (tx.named g) >>= fun _ => change (tx.named g)) =
      change (tx.named g) := by
    rw [hcheck]
    rfl
  unfold NameBlind
  simp only [heq]
  exact h

/-- A check that does not look at the record. -/
theorem NameBlind.of_test {check : Except Err Unit}
    {change : Transaction → Except Err Transaction} (hplain : ∀ e, check = .error e → Plain e)
    (h : NameBlind change tx) : NameBlind (fun tx => check >>= fun _ => change tx) tx := by
  cases check with
  | error e => exact Or.inr ⟨e, hplain e rfl, fun _ => rfl⟩
  | ok u => exact h

theorem plain_of_ensure {c : Bool} {e e' : Err} (h : ensure c e = .error e') (he : Plain e) :
    Plain e' := by
  cases c with
  | true => cases h
  | false =>
    cases h
    exact he

theorem plain_of_validate {delay : WorkflowRecoveryDelay} {e : Err}
    (h : delay.validate = .error e) : Plain e := by
  unfold WorkflowRecoveryDelay.validate at h
  by_cases hfirst : (0 < delay.retryIntervalMillis &&
      delay.retryIntervalMillis ≤ delay.maxRetryIntervalMillis &&
      delay.maxRetryIntervalMillis ≤ 86400000) = true
  · rw [hfirst] at h
    exact plain_of_ensure h (by unfold Plain; decide)
  · rw [Bool.eq_false_iff.mpr hfirst] at h
    cases h
    unfold Plain
    decide

theorem isCallbackWorkflow_kind (hcallback : isCallbackWorkflow tx = true) :
    tx.kind = .workflow := by
  rw [isCallbackWorkflow, Bool.and_assoc, Bool.and_eq_true] at hcallback
  exact of_decide_eq_true hcallback.1

theorem ensureCallbackWorkflow_named (hcallback : isCallbackWorkflow tx = true) (g : String) :
    ensureCallbackWorkflow (tx.named g) = .ok () := by
  have hk := isCallbackWorkflow_kind hcallback
  unfold ensureCallbackWorkflow
  rw [named_kind, named_isCallbackWorkflow, hk, hcallback]
  rfl

/-- `apply_workflow_completion` of a callback Workflow that is not completed. -/
theorem nameBlind_completion {now : Nat} {reason : Option String}
    (hcallback : isCallbackWorkflow tx = true) (hs : tx.status = .prepared) :
    NameBlind (fun tx => applyWorkflowCompletion now tx .failed reason none) tx := by
  unfold applyWorkflowCompletion
  refine .of_checked (ensureCallbackWorkflow_named hcallback) ?_
  refine .of_test (fun e he => nomatch he) ?_
  refine .of_test (fun e he => plain_of_ensure he (by unfold Plain; decide)) ?_
  refine .of_test (fun e he => plain_of_ensure he (by unfold Plain; decide)) ?_
  refine Or.inl ⟨bumpTransactionRevision now { tx with
    status := .failed
    metadata := putOrRemove (putOrRemove tx.metadata "rollback_reason" (reason.getD ""))
      "dtm.workflow.result" "" }, fun g => ?_⟩
  have hopen : (tx.named g).status.isTerminal = false := by
    rw [named_status, hs]
    rfl
  have hstatus : ensureStatus (tx.named g) [.prepared] = .ok () := by
    rw [ensureStatus_eq_ok, named_status, hs]
    exact List.mem_singleton_self _
  dsimp only
  rw [hopen, hstatus]
  rfl

/-- `defer_workflow_recovery` of a callback Workflow that is not completed. -/
theorem nameBlind_deferral {now : Nat} {delay : WorkflowRecoveryDelay}
    (hcallback : isCallbackWorkflow tx = true) (hs : tx.status = .prepared) :
    NameBlind (fun tx => deferWorkflowRecovery now tx delay) tx := by
  unfold deferWorkflowRecovery
  refine .of_checked (ensureCallbackWorkflow_named hcallback) ?_
  refine .of_checked (fun g => ?_) ?_
  · rw [ensureStatus_eq_ok, named_status, hs]
    exact List.mem_singleton_self _
  · refine .of_test (fun e he => plain_of_validate he) ?_
    exact .of_ok fun _ => rfl

/-- `finish_or_terminal`. -/
theorem twin_finishOrTerminal {reason : Option String} (h : Held gid gid' tx w w')
    (hcallback : isCallbackWorkflow tx = true) (hs : tx.status = .prepared) :
    Twin fails gid gid' (Dtm.finishOrTerminal gid reason) (Dtm.finishOrTerminal gid' reason)
      (fun _ _ => Alive gid gid') BothPlain w w' := by
  have hopen : tx.status.isTerminal = false := by rw [hs]; rfl
  refine ⟨fun c => ?_, fun f hf => ?_⟩
  · exact twin_afterChange (h.of_eq rfl rfl rfl rfl) hopen (nameBlind_completion hcallback hs)
  · exact twins_terminalAfterConflict h hopen fun _ _ => ⟨f, hf, rfl, rfl⟩

/-- `defer_callback_workflow`. -/
theorem twin_deferCallbackWorkflow {now : Nat} {backoff : Bool} {outcome : String}
    (h : Held gid gid' tx w w') (hcallback : isCallbackWorkflow tx = true)
    (hs : tx.status = .prepared) :
    Twin fails gid gid' (dtm.deferCallbackWorkflow (tx.named gid) now backoff outcome)
      (dtm.deferCallbackWorkflow (tx.named gid') now backoff outcome) (fun _ _ => Alive gid gid')
      BothPlain w w' := by
  have hopen : tx.status.isTerminal = false := by rw [hs]; rfl
  refine ⟨fun c => ?_, fun f hf => ?_⟩
  · exact twin_afterChange (h.of_eq rfl rfl rfl rfl) hopen (nameBlind_deferral hcallback hs)
  · exact twins_terminalAfterConflict h hopen fun _ _ => ⟨f, hf, rfl, rfl⟩

/-! ### Callback Workflows -/

/-- `prepare_workflow` of a Submitted Workflow. -/
theorem twin_prepareWorkflow {Q : Transaction → Transaction → World → World → Prop}
    {E : Err → Err → Prop} (h : Held gid gid' tx w w') (hk : tx.kind = .workflow)
    (hs : tx.status = .submitted)
    (hQ : ∀ now u u', Held gid gid' (bumpTransactionRevision now { tx with status := .prepared }) u
      u' → Q ((Transaction.written { tx with status := .prepared }).named gid)
        ((Transaction.written { tx with status := .prepared }).named gid') u u') :
    Twin fails gid gid' (Dtm.prepareWorkflow gid) (Dtm.prepareWorkflow gid') Q E w w' := by
  refine Twin.bind (twin_transactionOfKind h hk fun u u' hu => ?_)
  have hgo : ¬ (tx.status = .prepared || tx.status.isTerminal) = true := by
    rw [hs]
    decide
  refine twin_ite Iff.rfl (fun hstop => absurd hstop hgo) fun _ => ?_
  refine twin_ensureStatus (by rw [hs]; exact List.mem_singleton_self _) ?_
  exact twin_persist (r := { tx with status := .prepared }) hu hQ

/-- Two results of one computation whose values may differ. -/
def SameEnd {α β : Type} (x : Except Err α) (y : Except Err β) : Prop :=
  (∃ a b, x = .ok a ∧ y = .ok b) ∨ ∃ e, x = .error e ∧ y = .error e

theorem SameEnd.bind {α β γ : Type} {x : Except Err α} {f : α → Except Err β}
    {g : α → Except Err γ} (h : ∀ a, SameEnd (f a) (g a)) : SameEnd (x >>= f) (x >>= g) := by
  cases x with
  | error e => exact Or.inr ⟨e, rfl, rfl⟩
  | ok a => exact h a

theorem SameEnd.made {α β : Type} (a : α) (b : β) :
    SameEnd (pure a : Except Err α) (pure b : Except Err β) := Or.inl ⟨a, b, rfl, rfl⟩

theorem SameEnd.ite {α β : Type} {c : Prop} [Decidable c] {x y : Except Err α}
    {x' y' : Except Err β} (hthen : SameEnd x x') (helse : SameEnd y y') :
    SameEnd (if c then x else y) (if c then x' else y') := by
  split
  · exact hthen
  · exact helse

/-- The callback request can be made under both gids or under none. -/
theorem sameEnd_workflowCallbackRequest (libs : Libs) (hcallback : isCallbackWorkflow tx = true)
    (g g' : String) : SameEnd (workflowCallbackRequest libs (tx.named g))
      (workflowCallbackRequest libs (tx.named g')) := by
  unfold workflowCallbackRequest
  rw [ensureCallbackWorkflow_named hcallback, ensureCallbackWorkflow_named hcallback]
  refine .bind fun _ => .bind fun url => .bind fun customData => .bind fun _ => ?_
  refine .bind fun value => ?_
  cases value with
  | obj _ =>
    refine .bind fun entries => .bind fun operation => ?_
    dsimp only
    generalize List.lookup "data" entries = data
    rcases data with _ | (_ | _ | _ | _ | _ | _)
    all_goals
      refine .bind fun data => .bind fun _ => ?_
      refine .ite (.bind fun _ => .made _ _) (.ite (.ite ?_ ?_) (.bind fun _ => .made _ _))
      · cases libs.url.parse url with
        | none => exact .bind fun _ => .ite (.bind fun _ => .made _ _) (.bind fun _ => .made _ _)
        | some u => exact .bind fun _ => .ite (.bind fun _ => .made _ _) (.bind fun _ => .made _ _)
      · exact .bind fun _ => .ite (.bind fun _ => .made _ _) (.bind fun _ => .made _ _)
  | _ => exact Or.inr ⟨_, rfl, rfl⟩

/-- `recover_callback_workflow` of a Prepared callback Workflow. -/
theorem twin_recoverCallbackWorkflow (h : Held gid gid' tx w w')
    (hcallback : isCallbackWorkflow tx = true) (hs : tx.status = .prepared) :
    Twin fails gid gid' (dtm.recoverCallbackWorkflow gid) (dtm.recoverCallbackWorkflow gid')
      (fun _ _ => Alive gid gid') BothPlain w w' := by
  have hmem : tx.status ∈ [TransactionStatus.prepared] := by
    rw [hs]
    exact List.mem_singleton_self _
  have hopen : ¬ tx.status.isTerminal = true := by
    rw [hs]
    decide
  refine Twin.bind (twin_transactionOfKind h (isCallbackWorkflow_kind hcallback) fun u u' hu => ?_)
  refine twin_ite Iff.rfl (fun hterminal => absurd hterminal hopen) fun _ => ?_
  rw [ensureCallbackWorkflow_named hcallback, ensureCallbackWorkflow_named hcallback]
  refine twin_ok (twin_ensureStatus hmem ?_)
  refine Twin.bind (twin_currentMillis hu fun now u u' hu => ?_)
  obtain ⟨callback, callback', hleft, hright⟩ | ⟨e, hleft, hright⟩ :=
    sameEnd_workflowCallbackRequest dtm.libs hcallback gid gid'
  · rw [hleft, hright]
    refine Twin.bind (twin_queryWorkflowCallback hu fun result u u' hu => ?_)
    refine Twin.bind (twin_load hu fun u u' hu => ?_)
    refine twin_ite Iff.rfl (fun hterminal => absurd hterminal hopen) fun _ => ?_
    rw [ensureCallbackWorkflow_named hcallback, ensureCallbackWorkflow_named hcallback]
    refine twin_ok (twin_ensureStatus hmem ?_)
    cases result with
    | error e => exact twin_deferCallbackWorkflow hu hcallback hs
    | ok result =>
      cases result with
      | failed reason => exact twin_finishOrTerminal hu hcallback hs
      | ongoing => exact twin_deferCallbackWorkflow hu hcallback hs
      | completed => exact twin_deferCallbackWorkflow hu hcallback hs
  · rw [hleft, hright]
    exact twin_deferCallbackWorkflow hu hcallback hs

/-- `expire_callback_workflow` of a callback Workflow that is not driven further. -/
theorem twin_expireCallbackWorkflow (h : Held gid gid' tx w w')
    (hcallback : isCallbackWorkflow tx = true)
    (hs : tx.status = .submitted ∨ tx.status = .prepared) :
    Twin fails gid gid' (Dtm.expireCallbackWorkflow (tx.named gid))
      (Dtm.expireCallbackWorkflow (tx.named gid')) (fun _ _ => Alive gid gid') BothPlain w w' := by
  unfold Dtm.expireCallbackWorkflow
  by_cases hsub : tx.status = .submitted
  · have hsub' (g : String) : (tx.named g).status = .submitted := hsub
    rw [if_pos (hsub' gid), if_pos (hsub' gid')]
    refine Twin.bind (twin_prepareWorkflow h (isCallbackWorkflow_kind hcallback) hsub
      fun now u u' hu => ?_)
    refine twin_ensureStatus (List.mem_singleton_self _) ?_
    exact twin_finishOrTerminal hu hcallback rfl
  · have hprep := hs.resolve_left hsub
    have hsub' (g : String) : ¬ (tx.named g).status = .submitted := hsub
    rw [if_neg (hsub' gid), if_neg (hsub' gid')]
    refine twin_ok (twin_ensureStatus (by rw [hprep]; exact List.mem_singleton_self _) ?_)
    exact twin_finishOrTerminal h hcallback hprep

/-! ### What `recover` does at a time -/

/-- What `recover` does with a record once it has looked at the clock. -/
def Dtm.recoverAt (dtm : Dtm) (gid : String) (now : Nat) (tx : Transaction) : Act Transaction :=
  if isExpired tx now then
    dtm.expire tx
  else if isCallbackWorkflow tx then
    match tx.status with
    | .submitted => Dtm.prepareWorkflow gid
    | .prepared => dtm.recoverCallbackWorkflow gid
    | status => throw s!"callback workflow {gid} is in non-replayable state {status.debug}"
  else dtm.recoverMove gid tx.kind tx.status

theorem recoverNow_eq (gid : String) (tx : Transaction) :
    dtm.recoverNow gid tx = (do
      let now ← currentMillis
      dtm.recoverAt gid now tx) := rfl

namespace ControlOperation

theorem act_recoverMove {kind : TransactionKind} {status : TransactionStatus}
    {target : ControlOperation} (h : next kind status = some target) (g : String) :
    act.found (dtm.recoverMove g kind status) = target.act dtm g := by
  cases kind <;> cases status <;> cases h <;> rfl

theorem recoverMove_none {kind : TransactionKind} {status : TransactionStatus}
    (h : next kind status = none) (g : String) : dtm.recoverMove g kind status =
      throw s!"transaction {g} is in non-replayable state {status.debug}" := by
  cases kind <;> cases status <;> cases h <;> rfl

theorem act_expire (hcallback : isCallbackWorkflow tx = false) (g : String) :
    act.found (dtm.expire (tx.named g)) = (expiry tx).act dtm g := by
  unfold Dtm.expire expiry
  rw [named_isCallbackWorkflow, hcallback, named_kind, named_status, named_gid]
  cases tx.kind with
  | message =>
    by_cases hs : tx.status = .succeeding
    · rw [hs]
      rfl
    · dsimp only
      rw [if_neg hs, if_neg hs]
      rfl
  | xa =>
    by_cases hs : tx.status = .succeeding
    · rw [hs]
      rfl
    · dsimp only
      rw [if_neg hs, if_neg hs]
      rfl
  | tcc => rfl
  | saga => rfl
  | workflow => rfl

theorem recovery_forward {now : Nat} {target : ControlOperation}
    (h : recovery now tx = some target) :
    target ≠ .recover ∧ target ≠ .forceStop ∧ target ≠ .resetRetry := by
  unfold recovery expiry at h
  generalize tx.kind = kind at h
  generalize tx.status = status at h
  split at h
  · cases h
    cases kind <;> cases status <;> decide
  · cases kind <;> cases status <;> cases h <;> decide

theorem act_recovery {now : Nat} {target : ControlOperation}
    (hcallback : isCallbackWorkflow tx = false) (h : recovery now tx = some target) (g : String) :
    act.found (dtm.recoverAt g now (tx.named g)) = target.act dtm g := by
  unfold recovery at h
  unfold Dtm.recoverAt
  by_cases hexpired : isExpired tx now = true
  · have hexpired' : isExpired (tx.named g) now = true := hexpired
    rw [if_pos hexpired] at h
    cases h
    rw [if_pos hexpired', act_expire hcallback]
  · have hexpired' : ¬ isExpired (tx.named g) now = true := hexpired
    rw [if_neg hexpired] at h
    rw [if_neg hexpired', named_isCallbackWorkflow, hcallback]
    exact act_recoverMove h g

theorem recoverAt_none {now : Nat} (hcallback : isCallbackWorkflow tx = false)
    (h : recovery now tx = none) (g : String) : dtm.recoverAt g now (tx.named g) =
      throw s!"transaction {g} is in non-replayable state {tx.status.debug}" := by
  unfold recovery at h
  unfold Dtm.recoverAt
  by_cases hexpired : isExpired tx now = true
  · rw [if_pos hexpired] at h
    cases h
  · have hexpired' : ¬ isExpired (tx.named g) now = true := hexpired
    rw [if_neg hexpired] at h
    rw [if_neg hexpired', named_isCallbackWorkflow, hcallback]
    exact recoverMove_none h g

theorem recoverAt_expired_callback {now : Nat} (hcallback : isCallbackWorkflow tx = true)
    (hexpired : isExpired tx now = true) (g : String) :
    dtm.recoverAt g now (tx.named g) = Dtm.expireCallbackWorkflow (tx.named g) := by
  have hexpired' : isExpired (tx.named g) now = true := hexpired
  unfold Dtm.recoverAt Dtm.expire
  rw [if_pos hexpired', named_isCallbackWorkflow, hcallback, named_kind,
    isCallbackWorkflow_kind hcallback]
  rfl

theorem recoverAt_callback {now : Nat} (hcallback : isCallbackWorkflow tx = true)
    (hexpired : ¬ isExpired tx now = true) (g : String) : dtm.recoverAt g now (tx.named g) =
      match tx.status with
      | .submitted => Dtm.prepareWorkflow g
      | .prepared => dtm.recoverCallbackWorkflow g
      | status => throw s!"callback workflow {g} is in non-replayable state {status.debug}" := by
  have hexpired' : ¬ isExpired (tx.named g) now = true := hexpired
  unfold Dtm.recoverAt
  rw [if_neg hexpired', named_isCallbackWorkflow, if_pos hcallback, named_status]

theorem recoverAt_callback_refused {now : Nat} (hcallback : isCallbackWorkflow tx = true)
    (hexpired : ¬ isExpired tx now = true) (hsub : tx.status ≠ .submitted)
    (hprep : tx.status ≠ .prepared) (g : String) : dtm.recoverAt g now (tx.named g) =
      throw s!"callback workflow {g} is in non-replayable state {tx.status.debug}" := by
  rw [recoverAt_callback hcallback hexpired]
  generalize tx.status = status at hsub hprep ⊢
  cases status with
  | submitted => exact absurd rfl hsub
  | prepared => exact absurd rfl hprep
  | _ => rfl

/-! ### Refusals -/

/-- The refusal begins with `transaction {gid}`; the one of a callback Workflow that is not past
its timeout does not. -/
def opens (op : ControlOperation) (now : Nat) (tx : Transaction) : Prop :=
  ¬ (op = .recover ∧ isCallbackWorkflow tx = true ∧ isExpired tx now = false)

/-- How the refusal of a record is searched. -/
def RefusalAt (op : ControlOperation) (now : Nat) (tx : Transaction) (gid : String) (e : Err) :
    Prop :=
  SearchedAs (op.opens now tx ∧ Lead gid) (op = .forceStop ∨ op = .resetRetry → Marked gid) e

/-- The same under both gids. -/
def RefusalsAt (op : ControlOperation) (now : Nat) (tx : Transaction) (gid gid' : String)
    (e e' : Err) : Prop := op.RefusalAt now tx gid e ∧ op.RefusalAt now tx gid' e'

/-- The texts of an operation that are not answered by the kind of the failure alone. -/
def ClearAt (op : ControlOperation) (now : Nat) (tx : Transaction) (gid : String) : Prop :=
  if op ≠ .recover then op.Clear tx gid
  else if tx.status.isTerminal then True
  else if isCallbackWorkflow tx then
    op.refuses now tx = true → op.opens now tx → ¬ Lead gid
  else match recovery now tx with
  | some target => target.Clear tx gid
  | none => ¬ Lead gid

theorem RefusalsAt.of_searched {op : ControlOperation} {now : Nat} {e e' : Err}
    (hop : op ≠ .forceStop ∧ op ≠ .resetRetry)
    (he : SearchedAs (op.opens now tx ∧ Lead gid) True e)
    (he' : SearchedAs (op.opens now tx ∧ Lead gid') True e') : op.RefusalsAt now tx gid gid' e e' := by
  have htrue (g : String) : True ↔ (op = .forceStop ∨ op = .resetRetry → Marked g) :=
    ⟨fun _ h => (h.elim hop.1 hop.2).elim, fun _ => trivial⟩
  exact ⟨⟨he.1, he.2.trans (htrue gid)⟩, ⟨he'.1, he'.2.trans (htrue gid')⟩⟩

/-- **`recover` refuses the record** at a time at which it has no operation for it. -/
theorem twin_recoverAt_refused {now : Nat} (h : Held gid gid' tx w w')
    (hrefuse : ControlOperation.recover.refuses now tx = true) :
    Twin fails gid gid' (act.found (dtm.recoverAt gid now (tx.named gid)))
      (act.found (dtm.recoverAt gid' now (tx.named gid'))) (fun _ _ _ _ => False)
      (ControlOperation.recover.RefusalsAt now tx gid gid') w w' := by
  have hopening (hne : ¬ (isCallbackWorkflow tx = true ∧ isExpired tx now = false)) (e e' : Err)
      (he : SearchedAs (Lead gid) True e) (he' : SearchedAs (Lead gid') True e') :
      ControlOperation.recover.RefusalsAt now tx gid gid' e e' := by
    have hopens : ControlOperation.recover.opens now tx := fun hcase => hne hcase.2
    exact .of_searched (by decide) ⟨he.1.trans (and_iff_right hopens).symm, he.2⟩
      ⟨he'.1.trans (and_iff_right hopens).symm, he'.2⟩
  have hopen : ¬ tx.status.isTerminal = true := by
    intro hterminal
    unfold refuses at hrefuse
    rw [if_neg (not_not_intro rfl), if_pos hterminal] at hrefuse
    cases hrefuse
  unfold refuses at hrefuse
  rw [if_neg (not_not_intro rfl), if_neg hopen] at hrefuse
  by_cases hcallback : isCallbackWorkflow tx = true
  · -- driven by its callback only while it is Submitted or Prepared
    rw [if_pos hcallback, Bool.and_eq_true, decide_eq_true_eq, decide_eq_true_eq] at hrefuse
    obtain ⟨hsub, hprep⟩ := hrefuse
    refine twin_found ?_
    by_cases hexpired : isExpired tx now = true
    · rw [recoverAt_expired_callback hcallback hexpired,
        recoverAt_expired_callback hcallback hexpired]
      have hsub' (g : String) : ¬ (tx.named g).status = .submitted := hsub
      unfold Dtm.expireCallbackWorkflow
      rw [if_neg (hsub' gid), if_neg (hsub' gid')]
      refine twin_ok (twin_ensureStatus_refused (fun hs => hprep (List.mem_singleton.mp hs)) ?_)
      refine hopening fun hcase => ?_
      rw [hexpired] at hcase
      cases hcase.2
    · rw [recoverAt_callback_refused hcallback hexpired hsub hprep,
        recoverAt_callback_refused hcallback hexpired hsub hprep]
      have hopens : ¬ ControlOperation.recover.opens now tx := not_not_intro
        ⟨rfl, hcallback, Bool.eq_false_iff.mpr hexpired⟩
      have hread (g : String) : SearchedAs (ControlOperation.recover.opens now tx ∧ Lead g) True
          s!"callback workflow {g} is in non-replayable state {tx.status.debug}" := by
        obtain ⟨hmissing, hmarked⟩ := reads_callback g tx.status
        exact ⟨hmissing.trans ⟨False.elim, fun hlead => hopens hlead.1⟩, hmarked⟩
      exact RefusalsAt.of_searched (by decide) (hread gid) (hread gid')
  · rw [if_neg hcallback] at hrefuse
    have hcb : isCallbackWorkflow tx = false := Bool.eq_false_iff.mpr hcallback
    have hne : ¬ (isCallbackWorkflow tx = true ∧ isExpired tx now = false) := fun hcase =>
      hcallback hcase.1
    cases hrecovery : recovery now tx with
    | some target =>
      rw [hrecovery] at hrefuse
      rw [act_recovery hcb hrecovery, act_recovery hcb hrecovery]
      refine Single.Both.mono (twin_declined h hrefuse) (fun _ _ _ _ hfalse => hfalse) ?_
      obtain ⟨-, hstop, hreset⟩ := recovery_forward hrecovery
      have hforward (g : String) : (target = .forceStop ∨ target = .resetRetry → Marked g) ↔ True :=
        ⟨fun _ => trivial, fun _ hcase => (hcase.elim hstop hreset).elim⟩
      intro e e' hrefusal
      exact hopening hne e e' ⟨hrefusal.1.1, hrefusal.1.2.trans (hforward gid)⟩
        ⟨hrefusal.2.1, hrefusal.2.2.trans (hforward gid')⟩
    | none =>
      rw [recoverAt_none hcb hrecovery, recoverAt_none hcb hrecovery]
      exact hopening hne _ _ (reads_status gid tx.status) (reads_status gid' tx.status)

/-- **`recover` goes on with the record** and ends alike under both gids, with plain errors. -/
theorem twin_recoverAt_accepted {now : Nat} (h : Held gid gid' tx w w')
    (hopen : tx.status.isTerminal = false)
    (haccept : ControlOperation.recover.refuses now tx = false)
    (hclear : ControlOperation.recover.ClearAt now tx gid)
    (hclear' : ControlOperation.recover.ClearAt now tx gid') :
    Twin fails gid gid' (act.found (dtm.recoverAt gid now (tx.named gid)))
      (act.found (dtm.recoverAt gid' now (tx.named gid'))) (fun _ _ => Alive gid gid') BothPlain
      w w' := by
  have hopen' : ¬ tx.status.isTerminal = true := Bool.eq_false_iff.mp hopen
  unfold refuses at haccept
  rw [if_neg (not_not_intro rfl), if_neg hopen'] at haccept
  by_cases hcallback : isCallbackWorkflow tx = true
  · have hs : tx.status = .submitted ∨ tx.status = .prepared := by
      rw [if_pos hcallback] at haccept
      by_contra hs
      rw [not_or] at hs
      simp [hs.1, hs.2] at haccept
    refine twin_found ?_
    by_cases hexpired : isExpired tx now = true
    · rw [recoverAt_expired_callback hcallback hexpired,
        recoverAt_expired_callback hcallback hexpired]
      exact twin_expireCallbackWorkflow h hcallback hs
    · rw [recoverAt_callback hcallback hexpired, recoverAt_callback hcallback hexpired]
      obtain hsub | hprep := hs
      · rw [hsub]
        exact twin_prepareWorkflow h (isCallbackWorkflow_kind hcallback) hsub
          fun now u u' hu => hu.alive
      · rw [hprep]
        exact twin_recoverCallbackWorkflow h hcallback hprep
  · have hcb : isCallbackWorkflow tx = false := Bool.eq_false_iff.mpr hcallback
    unfold ClearAt at hclear hclear'
    rw [if_neg (not_not_intro rfl), if_neg hopen', if_neg hcallback] at hclear hclear'
    rw [if_neg hcallback] at haccept
    cases hrecovery : recovery now tx with
    | none =>
      rw [hrecovery] at haccept
      cases haccept
    | some target =>
      rw [hrecovery] at haccept hclear hclear'
      rw [act_recovery hcb hrecovery, act_recovery hcb hrecovery]
      exact twin_accepted (recovery_forward hrecovery).1 h haccept hclear hclear'

/-! ### Before `recover` looks at the timeout -/

/-- A transaction that has ended is returned. -/
theorem twin_recover_terminal (h : Held gid gid' tx w w') (hst : tx.status.isTerminal = true) :
    Twin fails gid gid' (recover.act dtm gid) (recover.act dtm gid') (fun _ _ => Alive gid gid')
      BothPlain w w' := by
  refine twin_found (Twin.bind (twin_load h fun u u' hu => ?_))
  exact twin_ite Iff.rfl (fun _ => hu.alive) fun hopen => absurd hst hopen

/-- A Message in Succeeding is dispatched, past its timeout as before. -/
theorem recovery_message {now : Nat} (hk : tx.kind = .message) (hs : tx.status = .succeeding) :
    recovery now tx = some .dispatchMessage := by
  unfold recovery expiry
  rw [hk, hs]
  exact ite_self _

theorem declines_dispatchMessage (hk : tx.kind = .message) (hs : tx.status = .succeeding) :
    dispatchMessage.declines tx = false := by
  unfold declines expects
  rw [hk, hs]
  rfl

/-- No text of its dispatch names anything. -/
theorem clear_dispatchMessage (hk : tx.kind = .message) (hs : tx.status = .succeeding)
    (g : String) : dispatchMessage.Clear tx g := by
  have hdecl := Bool.eq_false_iff.mp (declines_dispatchMessage hk hs)
  exact ⟨fun hd => absurd hd hdecl, fun hd => absurd hd hdecl,
    fun _ name hname => (nomatch hname), fun hop => nomatch hop⟩

/-- Such a Message may have to wait. -/
theorem twin_recover_message (h : Held gid gid' tx w w') (hk : tx.kind = .message)
    (hs : tx.status = .succeeding) :
    Twin fails gid gid' (recover.act dtm gid) (recover.act dtm gid') (fun _ _ => Alive gid gid')
      BothPlain w w' := by
  have hcallback : isCallbackWorkflow tx = false := by
    rw [isCallbackWorkflow, hk]
    rfl
  have hopen : ¬ tx.status.isTerminal = true := by
    rw [hs]
    decide
  refine twin_found (Twin.bind (twin_load h fun u u' hu => ?_))
  refine twin_ite Iff.rfl (fun hst => absurd hst hopen) fun _ => ?_
  refine twin_ite Iff.rfl (fun _ => ?_) fun hno => absurd ⟨hk, hs⟩ hno
  refine Twin.bind (twin_currentMillis hu fun _ u u' hu => ?_)
  refine twin_ite Iff.rfl (fun _ => hu.alive) fun _ => ?_
  refine Twin.bind (twin_currentMillis hu fun now u u' hu => ?_)
  refine Single.Both.of_map some some ?_
  have hmove (g : String) :
      act.found (dtm.recoverAt g now (tx.named g)) = dispatchMessage.act dtm g :=
    act_recovery hcallback (recovery_message hk hs) g
  show Twin fails gid gid' (act.found (dtm.recoverAt gid now (tx.named gid)))
    (act.found (dtm.recoverAt gid' now (tx.named gid'))) _ _ _ _
  rw [hmove, hmove]
  exact twin_accepted (by decide) hu (declines_dispatchMessage hk hs)
    (clear_dispatchMessage hk hs gid) (clear_dispatchMessage hk hs gid')

/-- **The run of `recover`** up to its look at the timeout. -/
theorem run_recover (dtm : Dtm) (hw : w.txs[gid]? = some (tx.named gid))
    (hopen : ¬ tx.status.isTerminal = true)
    (hmessage : ¬ (tx.kind = .message ∧ tx.status = .succeeding))
    (cs : List (Reading ⊕ (String → Err))) : recover.run? dtm gid w cs =
      match cs with
      | .inl _ :: .inl c :: cs => (controlStore gid).run?
          (act.found (dtm.recoverAt gid c.now (tx.named gid))).run { w with clock := c.now } cs
      | [.inr f] => some (.error (f gid))
      | _ => none := by
  let rest (found : Option Transaction) : Act (Option Transaction) :=
    act.found (Act.ofOption found s!"transaction not found: {gid}" >>= fun tx =>
      if tx.status.isTerminal then pure tx
      else if tx.kind = .message ∧ tx.status = .succeeding then do
        let now ← currentMillis
        if !messageDispatchDue tx now then pure tx else dtm.recoverNow gid tx
      else dtm.recoverNow gid tx)
  have hload : (recover.act dtm gid).run =
      .step (.getTransaction gid) fun found => (rest found).run := rfl
  have hrest : (rest (some (tx.named gid))).run = .step .currentMillis fun now : Nat =>
      (act.found (dtm.recoverAt gid now (tx.named gid))).run := by
    have hopen' : ¬ (tx.named gid).status.isTerminal = true := hopen
    have hmessage' : ¬ ((tx.named gid).kind = .message ∧ (tx.named gid).status = .succeeding) :=
      hmessage
    show (act.found (if (tx.named gid).status.isTerminal then _ else _)).run = _
    rw [if_neg hopen', if_neg hmessage']
    rfl
  unfold run?
  rw [hload]
  rcases cs with _ | ⟨c | f, cs⟩
  · rfl
  · show (controlStore gid).run? (rest w.txs[gid]?).run _ cs = _
    rw [hw, hrest]
    rcases cs with _ | ⟨c | f, cs⟩ <;> rfl
  · cases cs <;> rfl

end ControlOperation

end RozeDtm
