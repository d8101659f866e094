import RozeDtm.Twin.Recover

/-!
# Operations that end with an error

The errors that name a branch or the gid do come about: for each operation that can name a
branch there is a record, with the name for the only id in it, whose branches make the operation
end with the error (`fails_spoiled`).  Such an operation runs alone, with one outcome for all its
calls.
-/

namespace RozeDtm

open Conc

variable {gid : String} {c : Reading} {w w' : World} {α β : Type} {e : Err} {dtm : Dtm}
  {tx : Transaction} {kind : TransactionKind} {done : TransactionStatus}
  {allowed : List TransactionStatus}

/-! ### Ends -/

/-- With the reading `c` at each step the program ends with the value. -/
def Passes (gid : String) (c : Reading) (x : Act α) (w : World) (a : α) (w' : World) : Prop :=
  (controlStore gid).machine.outcome (fun _ _ => c) 0 x.run w = (.ok a, w')

/-- With the reading `c` at each step the program ends with the error. -/
def FailsWith (gid : String) (c : Reading) (x : Act α) (w : World) (e : Err) : Prop :=
  ∃ w', (controlStore gid).machine.outcome (fun _ _ => c) 0 x.run w = (.error e, w')

theorem FailsWith.bind {x : Act α} {f : α → Act β} (h : FailsWith gid c x w e) :
    FailsWith gid c (x >>= f) w e := by
  obtain ⟨w', h⟩ := h
  exact ⟨w', Machine.outcome_run_bind_error h⟩

theorem Passes.fails {x : Act α} {f : α → Act β} {a : α} (h : Passes gid c x w a w')
    (hf : FailsWith gid c (f a) w' e) : FailsWith gid c (x >>= f) w e := by
  obtain ⟨w'', hf⟩ := hf
  exact ⟨w'', (Machine.outcome_run_bind_ok h).trans hf⟩

theorem Passes.bind {x : Act α} {f : α → Act β} {a : α} {b : β} {w'' : World}
    (h : Passes gid c x w a w') (hf : Passes gid c (f a) w' b w'') :
    Passes gid c (x >>= f) w b w'' :=
  (Machine.outcome_run_bind_ok h).trans hf

theorem fails_throw : FailsWith gid c (throw e : Act α) w e := ⟨w, rfl⟩

theorem passes_ok {a : α} : Passes gid c (Act.ofExcept (.ok a)) w a w := rfl

/-! ### Steps -/

theorem passes_load (hw : w.txs[gid]? = some tx) :
    Passes gid c (loadTransaction gid) w tx { w with clock := c.now } := by
  have hget : Passes gid c (Store.getTransaction gid) w w.txs[gid]? { w with clock := c.now } := rfl
  refine hget.bind ?_
  rw [hw]
  rfl

theorem passes_barrier {b : BranchBarrier} {decision : BarrierDecision} {u : World}
    (h : InMemory.barrier { w with clock := c.now } b = (decision, u)) :
    Passes gid c (Store.barrier b) w decision (u.note 0 (.decided b decision)) := by
  have hstep : Passes gid c (Store.barrier b) w (InMemory.barrier { w with clock := c.now } b).1
      ((InMemory.barrier { w with clock := c.now } b).2.note 0
        (.decided b (InMemory.barrier { w with clock := c.now } b).1)) := rfl
  rw [h] at hstep
  exact hstep

/-- A barrier of an operation other than Try and Cancel that nobody has won. -/
theorem barrier_free {b : BranchBarrier} (hb : b ∉ w.barriers) (htry : b.op ≠ "try")
    (hcancel : b.op ≠ "cancel") : InMemory.barrier w b =
      (.execute, { w with barriers := insert b w.barriers }) := by
  unfold InMemory.barrier
  rw [if_neg hb]
  dsimp only
  rw [if_neg fun h => htry h.1, if_neg fun h => hcancel h.1]

/-- A Cancel with no Try before it. -/
theorem barrier_null {b : BranchBarrier} (hb : w.barriers = ∅) (hcancel : b.op = "cancel") :
    ∃ u, InMemory.barrier w b = (.skipNullCompensation, u) := by
  unfold InMemory.barrier
  rw [hb, if_neg (Finset.notMem_empty _)]
  dsimp only
  rw [if_neg fun h => Finset.notMem_empty _ h.2, if_pos ⟨hcancel, Finset.notMem_empty _⟩]
  exact ⟨_, rfl⟩

/-! ### Beginnings of operations -/

theorem fails_load {body : Transaction → Act Transaction} (hw : w.txs[gid]? = some tx)
    (hk : tx.kind = kind) (hdone : tx.status ≠ done) (hs : tx.status ∈ allowed)
    (h : FailsWith gid c (body tx) { w with clock := c.now } e) :
    FailsWith gid c
      (loadTransaction gid >>= fun tx => Act.ofExcept (ensureKind tx kind) >>= fun _ =>
        if tx.status = done then pure tx
        else Act.ofExcept (ensureStatus tx allowed) >>= fun _ => body tx) w e := by
  refine (passes_load hw).fails ?_
  rw [show ensureKind tx kind = .ok () from ensureKind_eq_ok.mpr hk, if_neg hdone,
    show ensureStatus tx allowed = .ok () from ensureStatus_eq_ok.mpr hs]
  exact passes_ok.fails (passes_ok.fails h)

theorem passes_ofKind (hw : w.txs[gid]? = some tx) (hk : tx.kind = kind) :
    Passes gid c (transactionOfKind gid kind) w tx { w with clock := c.now } := by
  refine (passes_load hw).bind ?_
  rw [show ensureKind tx kind = .ok () from ensureKind_eq_ok.mpr hk]
  exact passes_ok.bind rfl

theorem fails_ofKind {body : Transaction → Act Transaction} (hw : w.txs[gid]? = some tx)
    (hk : tx.kind = kind) (hdone : tx.status ≠ done) (hs : tx.status ∈ allowed)
    (h : FailsWith gid c (body tx) { w with clock := c.now } e) :
    FailsWith gid c
      (transactionOfKind gid kind >>= fun tx =>
        if tx.status = done then pure tx
        else Act.ofExcept (ensureStatus tx allowed) >>= fun _ => body tx) w e := by
  refine (passes_ofKind hw hk).fails ?_
  rw [if_neg hdone, show ensureStatus tx allowed = .ok () from ensureStatus_eq_ok.mpr hs]
  exact passes_ok.fails h

/-! ### Records that make an operation blame a name -/

/-- A branch with an id and nothing to call. -/
def bare (id : String) : Branch where
  id := id
  kind := .tccTry
  action := ""
  compensate := none
  confirm := none
  cancel := none
  payload := .null
  status := .pending
  attempts := 0
  lastError := none
  nextRetryMillis := none
  dependencies := []

/-- A branch that has been called. -/
def ran (id : String) : Branch := { bare id with status := .succeeded }

/-- The record with no id but `name`, in branches that an operation cannot do with. -/
def ControlOperation.spoiled (op : ControlOperation) (tx : Transaction) (name : String) :
    Transaction :=
  { tx with
    options := { tx.options with concurrent := true }
    branches := match op with
      | .startSaga | .abortSaga => [{ bare name with dependencies := [name] }]
      | .startWorkflow => [ran name, bare name]
      | .abortWorkflow => [ran name]
      | _ => [bare name] }

variable {name : String}

theorem fails_phase2Loop {op : String} {url : Branch → Except Err String} {onOk : BranchStatus}
    {final : TransactionStatus} {b : Branch} (hfree : w.barriers = ∅) (htry : op ≠ "try")
    (hcancel : op ≠ "cancel") (hurl : url b = .error e) :
    FailsWith gid c (dtm.phase2Loop op url onOk final tx [] [b]) w e := by
  unfold Dtm.phase2Loop
  have hb : (⟨tx.gid, b.id, op⟩ : BranchBarrier) ∉ w.barriers := by
    rw [hfree]
    exact Finset.notMem_empty _
  refine (passes_barrier (barrier_free hb htry hcancel)).fails ?_
  rw [if_pos rfl, hurl]
  exact FailsWith.bind ⟨_, rfl⟩

theorem fails_cancelTccLoop {b : Branch} (hfree : w.barriers = ∅) (haction : b.action = "")
    (hurl : Dtm.cancelUrl b = .error e) :
    FailsWith gid c (dtm.cancelTccLoop tx [] [b]) w e := by
  unfold Dtm.cancelTccLoop
  obtain ⟨u, hu⟩ := barrier_null (w := { w with clock := c.now })
    (b := ⟨tx.gid, b.id, "cancel"⟩) hfree rfl
  refine (passes_barrier hu).fails ?_
  have hinvoke : Dtm.shouldInvokeCancel b .skipNullCompensation = true := by
    unfold Dtm.shouldInvokeCancel
    rw [haction]
    decide
  rw [if_pos hinvoke, hurl]
  exact FailsWith.bind ⟨_, rfl⟩

theorem fails_abortWorkflowLoop {b : Branch} {passed : List Branch}
    (hfree : (⟨tx.gid, b.id, "workflow_rollback"⟩ : BranchBarrier) ∉ w.barriers)
    (hs : b.status = .succeeded) (hurl : b.compensate = none) :
    FailsWith gid c (dtm.abortWorkflowLoop tx [b] passed) w
      s!"missing workflow compensation URL for {b.id}" := by
  unfold Dtm.abortWorkflowLoop
  rw [if_neg (not_not_intro hs)]
  refine (passes_barrier (barrier_free hfree (by decide : "workflow_rollback" ≠ "try")
    (by decide : "workflow_rollback" ≠ "cancel"))).fails ?_
  rw [if_pos rfl, hurl]
  exact FailsWith.bind ⟨_, rfl⟩

/-- A branch that depends on itself. -/
theorem validate_selfDependent (hk : tx.kind = .saga) (hconc : tx.options.concurrent = true)
    (hbs : tx.branches = [{ bare name with dependencies := [name] }]) :
    validateTransactionDependencies tx =
      .error ("concurrent Saga" ++ " branch " ++ name ++ " cannot depend on itself") := by
  unfold validateTransactionDependencies
  rw [if_neg (not_not_intro hk), hconc]
  show validateDependencyGraph tx "concurrent Saga" = _
  unfold validateDependencyGraph
  rw [hbs]
  have hsize : ((∅ : Std.ExtTreeMap String Nat).insert name 0).size = 1 := by
    rw [Std.ExtTreeMap.size_insert]
    simp
  simp [hsize, ensure, bare]
  rfl

/-! ### The two Workflow operations -/

theorem fails_abortWorkflow {ahead : List Branch} (hw : w.txs[gid]? = some tx)
    (hk : tx.kind = .workflow)
    (hs : tx.status ∈ [TransactionStatus.submitted, .prepared, .succeeding, .aborting])
    (hbs : tx.branches = ran name :: ahead)
    (hahead : ∀ b ∈ ahead, b.status ≠ .succeeded)
    (hfree : (⟨tx.gid, name, "workflow_rollback"⟩ : BranchBarrier) ∉ w.barriers) :
    FailsWith gid c (dtm.abortWorkflow gid) w
      s!"missing workflow compensation URL for {name}" := by
  have hdone : tx.status ≠ .aborted := by
    intro h
    rw [h] at hs
    exact absurd hs (by decide)
  refine fails_ofKind hw hk hdone hs ?_
  have hskip (tx : Transaction) (passed : List Branch) : ∀ behind : List Branch,
      (∀ b ∈ behind, b.status ≠ .succeeded) → ∀ last, ∃ passed',
        dtm.abortWorkflowLoop tx (behind ++ [last]) passed =
          dtm.abortWorkflowLoop tx [last] passed' := by
    intro behind
    induction behind generalizing passed with
    | nil => exact fun _ last => ⟨passed, rfl⟩
    | cons b behind ih =>
      intro hb last
      rw [List.cons_append, Dtm.abortWorkflowLoop, if_pos (hb b (.head _))]
      exact ih _ (fun b' hb' => hb b' (.tail _ hb')) last
  have hreverse : tx.branches.reverse = ahead.reverse ++ [ran name] := by
    rw [hbs, List.reverse_cons]
  obtain ⟨passed, hloop⟩ := hskip { tx with status := .aborting } [] ahead.reverse
    (fun b hb => hahead b (List.mem_reverse.mp hb)) (ran name)
  rw [hreverse, hloop]
  exact fails_abortWorkflowLoop hfree rfl rfl

/-- A call that fails. -/
theorem passes_invokeBranch (dtm : Dtm) (options : TransactionOptions) (g url op : String)
    (b : Branch) (hc : c.outcome.ok = false) :
    ∃ b' u, Passes gid c (dtm.invokeBranch options g b url op) w (b', false) u ∧
      u.txs = w.txs ∧ u.barriers = w.barriers := by
  let call := Dtm.branchCall options g b url op
  have hlast (u : World) : ∃ b' u', Passes gid c (if c.outcome.ok then pure (b, true) else do
      let now ← currentMillis
      let backoff := dtm.retryBackoff options
      return (recordBranchFailure now b "branch_call_failed" backoff.1 backoff.2, false)) u
      (b', false) u' ∧ u'.txs = u.txs ∧ u'.barriers = u.barriers := by
    rw [hc]
    exact ⟨_, _, rfl, rfl, rfl⟩
  have hbegin : Passes gid c (invokeBegin call) w ()
      (({ w with clock := c.now } : World).note 0 (.began call)) := rfl
  obtain ⟨b', u', hend, htxs, hbarriers⟩ := hlast
    ((({ w with clock := c.now } : World).note 0 (.began call)).note 0 (.ended call c.outcome.ok))
  exact ⟨b', u', hbegin.bind (Passes.bind (a := c.outcome.ok) rfl hend), htxs, hbarriers⟩

theorem fails_startWorkflow (hw : w.txs[gid]? = some tx) (hgid : tx.gid = gid)
    (hk : tx.kind = .workflow)
    (hs : tx.status ∈ [TransactionStatus.submitted, .prepared, .succeeding])
    (hbs : tx.branches = [ran name, bare name]) (hfree : w.barriers = ∅)
    (hc : c.outcome.ok = false) : FailsWith gid c (dtm.startWorkflow gid) w
      s!"missing workflow compensation URL for {name}" := by
  have hdone : tx.status ≠ .succeeded := by
    intro h
    rw [h] at hs
    exact absurd hs (by decide)
  have hcallback : isCallbackWorkflow tx = false := by
    rw [isCallbackWorkflow, hbs]
    simp
  refine (passes_ofKind hw hk).fails ?_
  rw [if_neg hdone, hcallback, show ensureStatus tx _ = .ok () from ensureStatus_eq_ok.mpr hs, hbs]
  refine passes_ok.fails (passes_ok.fails ?_)
  set s : Transaction := { tx with
    status := .succeeding, branches := [ran name, bare name] } with hdef
  have hnext : s.nextWorkflowBranch = some ([ran name], bare name, []) := rfl
  show FailsWith gid c (dtm.startWorkflowLoop gid 3 s) _ _
  unfold Dtm.startWorkflowLoop
  rw [hnext]
  have hb : (⟨s.gid, name, "workflow"⟩ : BranchBarrier) ∉ w.barriers := by
    rw [hfree]
    exact Finset.notMem_empty _
  refine (passes_barrier (barrier_free hb (by decide : "workflow" ≠ "try")
    (by decide : "workflow" ≠ "cancel"))).fails ?_
  rw [if_neg (not_not_intro rfl)]
  obtain ⟨b', u, hcall, -, hbarriers⟩ := passes_invokeBranch dtm s.options s.gid "" "workflow"
    { bare name with status := .running, attempts := satAdd32 0 1 } hc
  refine hcall.fails ?_
  set r : Transaction := { s with
    branches := [ran name, { b' with status := .failed }], status := .aborting } with hr
  have hrelease : Passes gid c (Store.releaseBarrier ⟨s.gid, name, "workflow"⟩) u () _ := rfl
  refine hrelease.fails ?_
  have hpersist (u : World) : Passes gid c (persistTransaction r) u r.written
      (({ u with clock := c.now } : World).put (bumpTransactionRevision c.now r)) := rfl
  refine (hpersist _).fails ?_
  have hstored (u : World) : (({ u with clock := c.now } : World).put
      (bumpTransactionRevision c.now r)).txs[gid]? = some (bumpTransactionRevision c.now r) := by
    rw [World.put_txs, show (bumpTransactionRevision c.now r).gid = gid from hgid]
    exact Std.ExtTreeMap.getElem?_insert_self
  refine fails_abortWorkflow (hstored _) hk ?_ rfl ?_ ?_
  · exact List.mem_of_getElem? (i := 3) rfl
  · intro b hb
    rw [List.mem_singleton.mp hb]
    intro h
    cases h
  · show _ ∉ (u.barriers.erase _)
    rw [hbarriers]
    show _ ∉ (insert _ w.barriers).erase _
    rw [hfree]
    simp

/-- A branch that an earlier run has left in Running is in nobody's way but never ends. -/
theorem fails_startWorkflow_stuck {b : Branch} (hw : w.txs[gid]? = some tx)
    (hk : tx.kind = .workflow)
    (hs : tx.status ∈ [TransactionStatus.submitted, .prepared, .succeeding])
    (hbs : tx.branches = [b]) (hrunning : b.status = .running) :
    FailsWith gid c (dtm.startWorkflow gid) w
      ("workflow " ++ tx.gid ++ " has unresolved or cyclic dependencies") := by
  have hdone : tx.status ≠ .succeeded := by
    intro h
    rw [h] at hs
    exact absurd hs (by decide)
  have hcallback : isCallbackWorkflow tx = false := by
    rw [isCallbackWorkflow, hbs]
    simp
  refine (passes_ofKind hw hk).fails ?_
  rw [if_neg hdone, hcallback, show ensureStatus tx _ = .ok () from ensureStatus_eq_ok.mpr hs]
  refine passes_ok.fails (passes_ok.fails ?_)
  have hnext : Transaction.nextWorkflowBranch { tx with status := .succeeding } = none := by
    unfold Transaction.nextWorkflowBranch
    rw [hbs]
    simp [hrunning]
  unfold Dtm.startWorkflowLoop
  rw [hnext]
  have hall : ¬ (tx.branches.all fun branch => branch.status = .succeeded) = true := by
    rw [hbs]
    simp [hrunning]
  dsimp only
  rw [if_neg hall]
  exact fails_throw

/-! ### All operations -/

theorem goesOn_iff {op : ControlOperation} (hop : op.expects = some (kind, done, allowed)) :
    op.goesOn tx = true ↔ tx.kind = kind ∧ tx.status ≠ done ∧ tx.status ∈ allowed := by
  unfold ControlOperation.goesOn
  rw [hop]
  simp [and_assoc]

/-- **Each operation that can blame a name does so**: on the spoiled record it ends with an error
that is misread when the name is marked. -/
theorem fails_spoiled (dtm : Dtm) {op : ControlOperation} (hgo : op.goesOn tx = true)
    (hblames : name ∈ op.blames tx) (hc : c.outcome.ok = false) :
    ∃ e, (Plain e → ¬ Marked name) ∧ ∀ (gid : String) (w : World),
      w.txs[gid]? = some ((op.spoiled tx name).named gid) → w.barriers = ∅ →
      FailsWith gid c (op.act dtm gid) w e := by
  have hself : Plain ("concurrent Saga" ++ " branch " ++ name ++ " cannot depend on itself") →
      ¬ Marked name :=
    (plain_between _ " cannot depend on itself" (by decide) (by decide) (by decide)).mp
  cases op with
  | confirmTcc =>
    obtain ⟨hk, hdone, hs⟩ := (goesOn_iff rfl).mp hgo
    refine ⟨_, (plain_behind "missing confirm action for branch " (by decide) (by decide)).mp,
      fun gid w hw hfree => FailsWith.bind ?_⟩
    exact fails_load hw hk hdone hs (fails_phase2Loop hfree (by decide) (by decide) rfl)
  | cancelTcc =>
    obtain ⟨hk, hdone, hs⟩ := (goesOn_iff rfl).mp hgo
    refine ⟨_, (plain_behind "missing cancel action for branch " (by decide) (by decide)).mp,
      fun gid w hw hfree => FailsWith.bind ?_⟩
    exact fails_load hw hk hdone hs (fails_cancelTccLoop hfree rfl rfl)
  | startSaga =>
    obtain ⟨hk, hdone, hs⟩ := (goesOn_iff rfl).mp hgo
    refine ⟨_, hself, fun gid w hw hfree => FailsWith.bind (fails_load hw hk hdone hs ?_)⟩
    have hconc :
        ((ControlOperation.startSaga.spoiled tx name).named gid).options.concurrent = true := rfl
    have hinvalid : validateTransactionDependencies
        ((ControlOperation.startSaga.spoiled tx name).named gid) = .error _ :=
      validate_selfDependent hk rfl rfl
    rw [if_pos hconc]
    unfold Dtm.startConcurrentSaga
    rw [hinvalid]
    exact FailsWith.bind ⟨_, rfl⟩
  | abortSaga =>
    obtain ⟨hk, hdone, hs⟩ := (goesOn_iff rfl).mp hgo
    refine ⟨_, hself, fun gid w hw hfree => FailsWith.bind (fails_load hw hk hdone hs ?_)⟩
    have hconc :
        ((ControlOperation.abortSaga.spoiled tx name).named gid).options.concurrent = true := rfl
    have hinvalid : validateTransactionDependencies
        ((ControlOperation.abortSaga.spoiled tx name).named gid) = .error _ :=
      validate_selfDependent hk rfl rfl
    rw [if_pos hconc]
    unfold Dtm.abortConcurrentSaga
    rw [hinvalid]
    exact FailsWith.bind ⟨_, rfl⟩
  | startWorkflow =>
    obtain ⟨hk, hdone, hs⟩ := (goesOn_iff rfl).mp hgo
    exact ⟨_, (plain_behind "missing workflow compensation URL for " (by decide) (by decide)).mp,
      fun gid w hw hfree => (fails_startWorkflow hw rfl hk hs rfl hfree hc).bind⟩
  | abortWorkflow =>
    obtain ⟨hk, hdone, hs⟩ := (goesOn_iff rfl).mp hgo
    refine ⟨_, (plain_behind "missing workflow compensation URL for " (by decide) (by decide)).mp,
      fun gid w hw hfree => FailsWith.bind ?_⟩
    refine fails_abortWorkflow hw hk hs rfl (fun b hb => nomatch hb) ?_
    rw [hfree]
    exact Finset.notMem_empty _
  | commitXa =>
    obtain ⟨hk, hdone, hs⟩ := (goesOn_iff rfl).mp hgo
    refine ⟨_, (plain_behind "missing XA commit URL for " (by decide) (by decide)).mp,
      fun gid w hw hfree => FailsWith.bind ?_⟩
    exact fails_ofKind hw hk hdone hs (fails_phase2Loop hfree (by decide) (by decide) rfl)
  | rollbackXa =>
    obtain ⟨hk, hdone, hs⟩ := (goesOn_iff rfl).mp hgo
    refine ⟨_, (plain_behind "missing XA rollback URL for " (by decide) (by decide)).mp,
      fun gid w hw hfree => FailsWith.bind ?_⟩
    exact fails_ofKind hw hk hdone hs (fails_phase2Loop hfree (by decide) (by decide) rfl)
  | get | prepareTcc | prepareMessage | dispatchMessage | abortMessage | prepareXa | recover
  | forceStop | resetRetry => nomatch hblames

/-- The record with one branch left in Running. -/
def Transaction.stalled (tx : Transaction) (b : Branch) : Transaction :=
  { tx with branches := [{ b with status := .running }] }

/-- **`start_workflow` names the gid** when it finds no branch to go on with. -/
theorem fails_stalled {b : Branch} (hgo : ControlOperation.startWorkflow.goesOn tx = true)
    (hw : w.txs[gid]? = some ((tx.stalled b).named gid)) :
    FailsWith gid c (ControlOperation.startWorkflow.act dtm gid) w
      ("workflow " ++ gid ++ " has unresolved or cyclic dependencies") := by
  obtain ⟨hk, -, hs⟩ := (goesOn_iff rfl).mp hgo
  exact (fails_startWorkflow_stuck hw hk hs rfl rfl).bind

/-- The run of a program that ends with the error. -/
theorem FailsWith.run {x : Act α} (h : FailsWith gid c x w e) :
    ∃ n, (controlStore gid).run? x.run w (List.replicate n (.inl c)) = some (.error e) := by
  obtain ⟨w', h⟩ := h
  obtain ⟨n, hn⟩ := (controlStore gid).run_outcome c x.run w
  rw [h] at hn
  exact ⟨n, hn⟩

theorem FailsWith.of_run {x : Act α} {n : Nat} {e' : Err} (h : FailsWith gid c x w e)
    (hr : (controlStore gid).run? x.run w (List.replicate n (.inl c)) = some (.error e')) :
    e' = e := by
  obtain ⟨w', h⟩ := h
  have hend := Single.outcome_of_run _ hr
  rw [h] at hend
  cases hend
  rfl

end RozeDtm
