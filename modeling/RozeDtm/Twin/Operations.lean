import RozeDtm.Known.Workflow
import RozeDtm.Twin.Graph

/-!
# The operations under two gids

What each operation but `recover` does with a record that is held under two gids.  One that
declines the record ends in a refusal under both (`twin_declined`).  One that does not ends
alike, and with plain errors as long as its texts are `Clear` (`twin_accepted`).
-/

namespace RozeDtm

open Conc

/-! ### What errors can name -/

/-- The names of branches and of dependencies that the errors of an operation can carry: of
branches that have no URL, and of those of a graph that is not accepted. -/
def ControlOperation.blames (op : ControlOperation) (tx : Transaction) : List String :=
  match op with
  | .confirmTcc | .commitXa => idsWhere fun branch => branch.confirm.isNone
  | .cancelTcc => idsWhere fun branch => (branch.cancel.or branch.compensate).isNone
  | .rollbackXa => idsWhere fun branch => branch.cancel.isNone
  | .startWorkflow => idsWhere fun branch => branch.compensate.isNone
  | .abortWorkflow =>
    idsWhere fun branch => branch.status = .succeeded && branch.compensate.isNone
  | .startSaga | .abortSaga =>
    if !tx.options.concurrent then []
    else if validateTransactionDependencies tx = .ok () then
      idsWhere fun branch => branch.compensate.isNone
    else tx.branches.flatMap fun branch => branch.id :: branch.dependencies
  | _ => []
where
  idsWhere (missing : Branch → Bool) : List String := (tx.branches.filter missing).map Branch.id

/-- The operation goes on with the record. -/
def ControlOperation.goesOn (op : ControlOperation) (tx : Transaction) : Bool :=
  match op.expects with
  | some (kind, done, allowed) => tx.kind = kind && tx.status ≠ done && allowed.contains tx.status
  | none => false

/-- A Workflow that is never found stuck: its dependencies are accepted, and each of its branches
can be started or has succeeded. -/
def Transaction.Startable (tx : Transaction) : Prop :=
  validateTransactionDependencies tx = .ok () ∧
    ∀ b ∈ tx.branches, b.status = .pending ∨ b.status = .failed ∨ b.status = .succeeded

/-- **No text of an operation other than `recover` is misread**: a refusal is not taken for a
missing transaction, and those of `force_stop` and `reset_retry` need a marked gid to be taken
for a conflict; no other error carries a mark. -/
structure ControlOperation.Clear (op : ControlOperation) (tx : Transaction) (gid : String) :
    Prop where
  lead : op.declines tx = true → ¬ Lead gid
  terminal : op.declines tx = true → op = .forceStop ∨ op = .resetRetry → Marked gid
  blames : op.goesOn tx = true → ∀ name ∈ op.blames tx, ¬ Marked name
  /-- `start_workflow` names the gid when it finds no branch to go on with. -/
  stuck : op = .startWorkflow → op.goesOn tx = true → ¬ tx.Startable → tx.branches ≠ [] →
    ¬ Marked gid

variable {fails : (String → Err) → Prop} {gid gid' : String} {dtm : Dtm} {tx r : Transaction}
  {w w' : World} {kind : TransactionKind} {done : TransactionStatus}
  {allowed : List TransactionStatus}

/-- The errors of a refusal by an operation. -/
def ControlOperation.Refusal (op : ControlOperation) (gid : String) (e : Err) : Prop :=
  SearchedAs (Lead gid) (op = .forceStop ∨ op = .resetRetry → Marked gid) e

/-- A refusal under both gids. -/
def ControlOperation.Refusals (op : ControlOperation) (gid gid' : String) (e e' : Err) : Prop :=
  op.Refusal gid e ∧ op.Refusal gid' e'

/-! ### Checks -/

section Checks

variable {α β : Type} {E : Err → Err → Prop}

theorem twin_transactionOfKind {Q : Transaction → Transaction → World → World → Prop}
    (h : Held gid gid' tx w w') (hk : tx.kind = kind)
    (hQ : ∀ u u', Held gid gid' tx u u' → Q (tx.named gid) (tx.named gid') u u') :
    Twin fails gid gid' (transactionOfKind gid kind) (transactionOfKind gid' kind) Q E w w' := by
  refine Twin.bind (twin_load h fun u u' hu => ?_)
  refine twin_ensure rfl (fun hfail => ?_) fun _ => hQ u u' hu
  exact absurd hk (of_decide_eq_false hfail)

/-- The kind is refused. -/
theorem twin_ensureKind_refused {f : Unit → Act α} {f' : Unit → Act β}
    {Q : α → β → World → World → Prop} (hk : tx.kind ≠ kind)
    (hE : ∀ e e', SearchedAs (Lead gid) True e → SearchedAs (Lead gid') True e' → E e e') :
    Twin fails gid gid' (Act.ofExcept (ensureKind (tx.named gid) kind) >>= f)
      (Act.ofExcept (ensureKind (tx.named gid') kind) >>= f') Q E w w' := by
  have hfail (g : String) : ensureKind (tx.named g) kind =
      .error s!"transaction {g} is {tx.kind.debug}, expected {kind.debug}" :=
    if_neg (by rw [decide_eq_true_eq]; exact hk)
  rw [hfail, hfail]
  exact hE _ _ (reads_kind gid tx.kind kind) (reads_kind gid' tx.kind kind)

theorem twin_ensureKind {f : Unit → Act α} {f' : Unit → Act β} {Q : α → β → World → World → Prop}
    (hk : tx.kind = kind) (h : Twin fails gid gid' (f ()) (f' ()) Q E w w') :
    Twin fails gid gid' (Act.ofExcept (ensureKind (tx.named gid) kind) >>= f)
      (Act.ofExcept (ensureKind (tx.named gid') kind) >>= f') Q E w w' := by
  have hok (g : String) : ensureKind (tx.named g) kind = .ok () := ensureKind_eq_ok.mpr hk
  rw [hok, hok]
  exact h

/-- The status is refused. -/
theorem twin_ensureStatus_refused {f : Unit → Act α} {f' : Unit → Act β}
    {Q : α → β → World → World → Prop} (hs : tx.status ∉ allowed)
    (hE : ∀ e e', SearchedAs (Lead gid) True e → SearchedAs (Lead gid') True e' → E e e') :
    Twin fails gid gid' (Act.ofExcept (ensureStatus (tx.named gid) allowed) >>= f)
      (Act.ofExcept (ensureStatus (tx.named gid') allowed) >>= f') Q E w w' := by
  have hfail (g : String) : ensureStatus (tx.named g) allowed =
      .error s!"transaction {g} is in non-replayable state {tx.status.debug}" :=
    if_neg (by rw [List.contains_iff_mem]; exact hs)
  rw [hfail, hfail]
  exact hE _ _ (reads_status gid tx.status) (reads_status gid' tx.status)

theorem twin_ensureStatus {f : Unit → Act α} {f' : Unit → Act β}
    {Q : α → β → World → World → Prop} (hs : tx.status ∈ allowed)
    (h : Twin fails gid gid' (f ()) (f' ()) Q E w w') :
    Twin fails gid gid' (Act.ofExcept (ensureStatus (tx.named gid) allowed) >>= f)
      (Act.ofExcept (ensureStatus (tx.named gid') allowed) >>= f') Q E w w' := by
  have hok (g : String) : ensureStatus (tx.named g) allowed = .ok () := ensureStatus_eq_ok.mpr hs
  rw [hok, hok]
  exact h

/-- Nothing to do in the status `done`; otherwise the status is checked. -/
theorem twin_status {x x' : Act Transaction} (h : Held gid gid' tx w w')
    (hs : tx.status = done ∨ tx.status ∈ allowed)
    (hx : tx.status ≠ done → tx.status ∈ allowed →
      Twin fails gid gid' x x' (fun _ _ => Alive gid gid') BothPlain w w') :
    Twin fails gid gid'
      (if (tx.named gid).status = done then pure (tx.named gid)
        else Act.ofExcept (ensureStatus (tx.named gid) allowed) >>= fun _ => x)
      (if (tx.named gid').status = done then pure (tx.named gid')
        else Act.ofExcept (ensureStatus (tx.named gid') allowed) >>= fun _ => x')
      (fun _ _ => Alive gid gid') BothPlain w w' := by
  refine twin_ite Iff.rfl (fun _ => h.alive) fun hdone => ?_
  have hmem := hs.resolve_left hdone
  exact twin_ensureStatus hmem (hx hdone hmem)

theorem twin_status_refused {x : Act α} {x' : Act β} {y : Act α} {y' : Act β}
    {Q : α → β → World → World → Prop} (hdone : tx.status ≠ done) (hs : tx.status ∉ allowed)
    (hE : ∀ e e', SearchedAs (Lead gid) True e → SearchedAs (Lead gid') True e' → E e e') :
    Twin fails gid gid'
      (if (tx.named gid).status = done then y
        else Act.ofExcept (ensureStatus (tx.named gid) allowed) >>= fun _ => x)
      (if (tx.named gid').status = done then y'
        else Act.ofExcept (ensureStatus (tx.named gid') allowed) >>= fun _ => x') Q E w w' :=
  twin_ite Iff.rfl (fun h => absurd h hdone) fun _ => twin_ensureStatus_refused hs hE

/-- The result of an operation is passed on. -/
theorem twin_found {x x' : Act Transaction} {P : World → World → Prop}
    (h : Twin fails gid gid' x x' (fun _ _ => P) E w w') :
    Twin fails gid gid' (ControlOperation.act.found x) (ControlOperation.act.found x')
      (fun _ _ => P) E w w' :=
  Twin.bind (Single.Both.mono h (fun _ _ _ _ hP => hP) fun _ _ he => he)

end Checks

/-! ### Refusals -/

/-- The operations that begin with `transaction_of_kind`, or with its two steps. -/
theorem twin_declined_load {body body' : Transaction → Act Transaction}
    (h : Held gid gid' tx w w')
    (hdecl : tx.kind ≠ kind ∨ tx.status ≠ done ∧ tx.status ∉ allowed) {E : Err → Err → Prop}
    (hE : ∀ e e', SearchedAs (Lead gid) True e → SearchedAs (Lead gid') True e' → E e e') :
    Twin fails gid gid'
      (loadTransaction gid >>= fun tx => Act.ofExcept (ensureKind tx kind) >>= fun _ =>
        if tx.status = done then pure tx
        else Act.ofExcept (ensureStatus tx allowed) >>= fun _ => body tx)
      (loadTransaction gid' >>= fun tx => Act.ofExcept (ensureKind tx kind) >>= fun _ =>
        if tx.status = done then pure tx
        else Act.ofExcept (ensureStatus tx allowed) >>= fun _ => body' tx)
      (fun _ _ _ _ => False) E w w' := by
  refine Twin.bind (twin_load h fun u u' hu => ?_)
  by_cases hk : tx.kind = kind
  · obtain ⟨hdone, hs⟩ := hdecl.resolve_left (not_not_intro hk)
    exact twin_ensureKind hk (twin_status_refused hdone hs hE)
  · exact twin_ensureKind_refused hk hE

theorem twin_declined_ofKind {body body' : Transaction → Act Transaction}
    (h : Held gid gid' tx w w')
    (hdecl : tx.kind ≠ kind ∨ tx.status ≠ done ∧ tx.status ∉ allowed) {E : Err → Err → Prop}
    (hE : ∀ e e', SearchedAs (Lead gid) True e → SearchedAs (Lead gid') True e' → E e e') :
    Twin fails gid gid'
      (transactionOfKind gid kind >>= fun tx =>
        if tx.status = done then pure tx
        else Act.ofExcept (ensureStatus tx allowed) >>= fun _ => body tx)
      (transactionOfKind gid' kind >>= fun tx =>
        if tx.status = done then pure tx
        else Act.ofExcept (ensureStatus tx allowed) >>= fun _ => body' tx)
      (fun _ _ _ _ => False) E w w' := by
  by_cases hk : tx.kind = kind
  · obtain ⟨hdone, hs⟩ := hdecl.resolve_left (not_not_intro hk)
    exact Twin.bind (twin_transactionOfKind h hk fun u u' hu => twin_status_refused hdone hs hE)
  · refine Twin.bind (Twin.bind (twin_load h fun u u' hu => ?_))
    exact twin_ensureKind_refused hk hE

theorem declines_iff {op : ControlOperation}
    (hop : op.expects = some (kind, done, allowed)) : op.declines tx = true ↔
      tx.kind ≠ kind ∨ (tx.status ≠ done ∧ tx.status ∉ allowed) ∧
        ¬ (op = .startWorkflow ∧ isCallbackWorkflow tx = true) := by
  unfold ControlOperation.declines
  rw [hop]
  simp [and_assoc, imp_iff_not_or]

theorem declined_of_expects {op : ControlOperation}
    (hop : op.expects = some (kind, done, allowed)) (hdecl : op.declines tx = true) :
    tx.kind ≠ kind ∨ tx.status ≠ done ∧ tx.status ∉ allowed :=
  ((declines_iff hop).mp hdecl).imp id fun h => h.1

/-- **An operation that declines the record refuses it**, under both gids. -/
theorem twin_declined {op : ControlOperation} (h : Held gid gid' tx w w')
    (hdecl : op.declines tx = true) :
    Twin fails gid gid' (op.act dtm gid) (op.act dtm gid') (fun _ _ _ _ => False)
      (op.Refusals gid gid') w w' := by
  have hE (hne : ¬ (op = .forceStop ∨ op = .resetRetry)) (e e' : Err)
      (he : SearchedAs (Lead gid) True e) (he' : SearchedAs (Lead gid') True e') :
      op.Refusals gid gid' e e' := by
    have htrue (g : String) : True ↔ (op = .forceStop ∨ op = .resetRetry → Marked g) :=
      ⟨fun _ hop => absurd hop hne, fun _ => trivial⟩
    exact ⟨⟨he.1, he.2.trans (htrue gid)⟩, ⟨he'.1, he'.2.trans (htrue gid')⟩⟩
  have hterminal (tail : String) (hne : ¬ "not found:".toList <+: tail.toList)
      (hstart : Codec.Substring.NoStart "not found:".toList tail.toList) (htail : Before tail)
      (hop : op = .forceStop ∨ op = .resetRetry) :
      op.Refusals gid gid' ("transaction " ++ gid ++ tail) ("transaction " ++ gid' ++ tail) := by
    have hread (g : String) : op.Refusal g ("transaction " ++ g ++ tail) := by
      obtain ⟨hmissing, hmarked⟩ := reads_terminal g hne hstart htail
      exact ⟨hmissing, hmarked.trans ⟨fun hm _ => hm, fun hm => hm hop⟩⟩
    exact ⟨hread gid, hread gid'⟩
  cases op with
  | get => cases hdecl
  | recover => cases hdecl
  | prepareTcc =>
    exact twin_found (twin_declined_load h (declined_of_expects rfl hdecl) (hE (by decide)))
  | confirmTcc =>
    exact twin_found (twin_declined_load h (declined_of_expects rfl hdecl) (hE (by decide)))
  | cancelTcc =>
    exact twin_found (twin_declined_load h (declined_of_expects rfl hdecl) (hE (by decide)))
  | startSaga =>
    exact twin_found (twin_declined_load h (declined_of_expects rfl hdecl) (hE (by decide)))
  | abortSaga =>
    exact twin_found (twin_declined_load h (declined_of_expects rfl hdecl) (hE (by decide)))
  | startWorkflow =>
    refine twin_found ?_
    by_cases hk : tx.kind = .workflow
    · obtain ⟨⟨hdone, hs⟩, hcallback⟩ :=
        ((declines_iff rfl).mp hdecl).resolve_left (not_not_intro hk)
      refine Twin.bind (twin_transactionOfKind h hk fun u u' hu => ?_)
      refine twin_ite Iff.rfl (fun hst => absurd hst hdone) fun _ => ?_
      refine twin_ensure rfl (fun hfail => ?_) fun _ => ?_
      · exact absurd ⟨rfl, by simpa using hfail⟩ hcallback
      · exact twin_ensureStatus_refused hs (hE (by decide))
    · refine Twin.bind (Twin.bind (twin_load h fun u u' hu => ?_))
      exact twin_ensureKind_refused hk (hE (by decide))
  | abortWorkflow =>
    exact twin_found (twin_declined_ofKind h (declined_of_expects rfl hdecl) (hE (by decide)))
  | prepareMessage =>
    exact twin_found (twin_declined_ofKind h (declined_of_expects rfl hdecl) (hE (by decide)))
  | dispatchMessage =>
    exact twin_found (twin_declined_ofKind h (declined_of_expects rfl hdecl) (hE (by decide)))
  | abortMessage =>
    exact twin_found (twin_declined_ofKind h (declined_of_expects rfl hdecl) (hE (by decide)))
  | prepareXa =>
    exact twin_found (twin_declined_ofKind h (declined_of_expects rfl hdecl) (hE (by decide)))
  | commitXa =>
    exact twin_found (twin_declined_ofKind h (declined_of_expects rfl hdecl) (hE (by decide)))
  | rollbackXa =>
    exact twin_found (twin_declined_ofKind h (declined_of_expects rfl hdecl) (hE (by decide)))
  | forceStop =>
    refine twin_found (Twin.bind (twin_load h fun u u' hu => ?_))
    refine twin_ensure rfl (fun _ => ?_) fun hopen => ?_
    · exact hterminal " is already terminal" (by decide) (by decide) (by decide) (Or.inl rfl)
    · have hst : tx.status.isTerminal = true := hdecl
      rw [named_status, hst] at hopen
      cases hopen
  | resetRetry =>
    refine twin_found (Twin.bind (twin_load h fun u u' hu => ?_))
    refine twin_ensure rfl (fun _ => ?_) fun hopen => ?_
    · exact hterminal " is terminal" (by decide) (by decide) (by decide) (Or.inr rfl)
    · have hst : tx.status.isTerminal = true := hdecl
      rw [named_status, hst] at hopen
      cases hopen

/-! ### Operations that go on -/

section Accepted

variable {P : World → World → Prop}

theorem accepted_of_expects {op : ControlOperation} (hop : op.expects = some (kind, done, allowed))
    (hne : op ≠ .startWorkflow) (hdecl : op.declines tx = false) :
    tx.kind = kind ∧ (tx.status = done ∨ tx.status ∈ allowed) := by
  have hnot := mt (declines_iff hop).mpr (Bool.eq_false_iff.mp hdecl)
  by_cases hk : tx.kind = kind
  · refine ⟨hk, ?_⟩
    by_contra hs
    rw [not_or] at hs
    exact hnot (Or.inr ⟨hs, fun h => hne h.1⟩)
  · exact absurd (Or.inl hk) hnot

theorem goesOn_of_expects {op : ControlOperation} (hop : op.expects = some (kind, done, allowed))
    (hk : tx.kind = kind) (hdone : tx.status ≠ done) (hs : tx.status ∈ allowed) :
    op.goesOn tx = true := by
  unfold ControlOperation.goesOn
  rw [hop]
  simp [hk, hdone, hs]

theorem mem_idsWhere {missing : Branch → Bool} {b : Branch} (hb : b ∈ tx.branches)
    (hm : missing b = true) : b.id ∈ ControlOperation.blames.idsWhere tx missing :=
  List.mem_map_of_mem (List.mem_filter.mpr ⟨hb, hm⟩)

/-- An operation that begins with the load and the two checks. -/
theorem twin_accepted_load {body body' : Transaction → Act Transaction}
    (h : Held gid gid' tx w w') (hk : tx.kind = kind)
    (hs : tx.status = done ∨ tx.status ∈ allowed)
    (hbody : tx.status ≠ done → tx.status ∈ allowed → ∀ u u', Held gid gid' tx u u' →
      Twin fails gid gid' (body (tx.named gid)) (body' (tx.named gid')) (fun _ _ => Alive gid gid')
        BothPlain u u') :
    Twin fails gid gid'
      (loadTransaction gid >>= fun tx => Act.ofExcept (ensureKind tx kind) >>= fun _ =>
        if tx.status = done then pure tx
        else Act.ofExcept (ensureStatus tx allowed) >>= fun _ => body tx)
      (loadTransaction gid' >>= fun tx => Act.ofExcept (ensureKind tx kind) >>= fun _ =>
        if tx.status = done then pure tx
        else Act.ofExcept (ensureStatus tx allowed) >>= fun _ => body' tx)
      (fun _ _ => Alive gid gid') BothPlain w w' :=
  Twin.bind (twin_load h fun u u' hu => twin_ensureKind hk (twin_status hu hs fun hdone hmem =>
    hbody hdone hmem u u' hu))

theorem twin_accepted_ofKind {body body' : Transaction → Act Transaction}
    (h : Held gid gid' tx w w') (hk : tx.kind = kind)
    (hs : tx.status = done ∨ tx.status ∈ allowed)
    (hbody : tx.status ≠ done → tx.status ∈ allowed → ∀ u u', Held gid gid' tx u u' →
      Twin fails gid gid' (body (tx.named gid)) (body' (tx.named gid')) (fun _ _ => Alive gid gid')
        BothPlain u u') :
    Twin fails gid gid'
      (transactionOfKind gid kind >>= fun tx =>
        if tx.status = done then pure tx
        else Act.ofExcept (ensureStatus tx allowed) >>= fun _ => body tx)
      (transactionOfKind gid' kind >>= fun tx =>
        if tx.status = done then pure tx
        else Act.ofExcept (ensureStatus tx allowed) >>= fun _ => body' tx)
      (fun _ _ => Alive gid gid') BothPlain w w' :=
  Twin.bind (twin_transactionOfKind h hk fun u u' hu => twin_status hu hs fun hdone hmem =>
    hbody hdone hmem u u' hu)

/-! ### Sagas -/

/-- `abort_saga`, as it is called and as `start_saga` calls it. -/
theorem twin_abortSaga (tx : Transaction) (hk : tx.kind = .saga)
    (hs : tx.status = .aborted ∨ tx.status ∈ [TransactionStatus.submitted, .succeeding, .aborting])
    (hconc : tx.options.concurrent = true → tx.status ≠ .aborted →
      Errs Plain (validateTransactionDependencies tx) ∧ Nameable tx.branches)
    (h : Held gid gid' tx w w') :
    Twin fails gid gid' (dtm.abortSaga gid) (dtm.abortSaga gid') (fun _ _ => Alive gid gid')
      BothPlain w w' := by
  refine twin_accepted_load h hk hs fun hdone _ u u' hu => ?_
  refine twin_ite Iff.rfl (fun hc => ?_) fun _ => ?_
  · obtain ⟨hchecked, hnames⟩ := hconc hc hdone
    exact twin_abortConcurrentSaga tx hk hc hchecked hnames hu
  · exact twin_abortSagaLoop { tx with status := .aborting } hu

theorem twin_startSagaLoop (tx : Transaction) {passed ahead : List Branch} (hk : tx.kind = .saga)
    (hseq : tx.options.concurrent ≠ true) (h : Held gid gid' r w w') :
    Twin fails gid gid' (dtm.startSagaLoop gid (tx.named gid) passed ahead)
      (dtm.startSagaLoop gid' (tx.named gid') passed ahead) (fun _ _ => Alive gid gid') BothPlain
      w w' := by
  induction ahead generalizing passed tx r w w' with
  | nil => exact twin_persist_end (s := { tx with branches := passed, status := .succeeded }) h
  | cons branch ahead ih =>
    unfold Dtm.startSagaLoop
    refine twin_ite Iff.rfl (fun _ => ih tx hk hseq h) fun _ => ?_
    refine Twin.bind (twin_barrier h fun decision u u' hu => ?_)
    refine twin_ite Iff.rfl (fun _ => twin_load_end hu) fun _ => ?_
    refine Twin.bind (twin_invokeBranch hu fun b ok u u' _ hu => ?_)
    cases ok with
    | true =>
      set s : Transaction := { tx with
        branches := passed ++ { b with status := .succeeded, nextRetryMillis := none } :: ahead }
      refine Twin.bind (twin_persist (r := s) hu fun now u u' hu => ?_)
      exact ih s.written hk hseq hu
    | false =>
      refine twin_ite Iff.rfl (fun hok => by cases hok) fun _ => ?_
      refine twin_ite Iff.rfl (fun _ => ?_) fun _ => ?_
      · refine Twin.bind (twin_releaseBarrier hu fun u u' hu => ?_)
        exact twin_persist_end (s := { tx with
          branches := passed ++ { b with status := .failed } :: ahead }) hu
      · -- the retries are used up
        set s : Transaction := { tx with
          status := .aborting
          branches := (passed ++ { b with status := .compensating } :: ahead).map fun previous =>
            if previous.status = .succeeded then { previous with status := .compensating }
            else previous } with hs
        refine Twin.bind (twin_persist (r := s) hu fun now u u' hu => ?_)
        have hst : s.status = .aborting := rfl
        refine twin_abortSaga (bumpTransactionRevision now s) hk (Or.inr ?_)
          (fun hc => absurd hc hseq) hu
        exact List.mem_of_getElem? (i := 2) (congrArg some hst.symm)

/-! ### Workflows -/

/-- `abort_workflow`, as it is called and as `start_workflow` calls it. -/
theorem twin_abortWorkflow (tx : Transaction) (hk : tx.kind = .workflow)
    (hs : tx.status = .aborted ∨
      tx.status ∈ [TransactionStatus.submitted, .prepared, .succeeding, .aborting])
    (hnames : tx.status ≠ .aborted →
      ∀ b ∈ tx.branches, b.status = .succeeded → b.compensate.isNone = true → ¬ Marked b.id)
    (h : Held gid gid' tx w w') :
    Twin fails gid gid' (dtm.abortWorkflow gid) (dtm.abortWorkflow gid')
      (fun _ _ => Alive gid gid') BothPlain w w' := by
  refine twin_accepted_ofKind h hk hs fun hdone _ u u' hu => ?_
  refine twin_abortWorkflowLoop { tx with status := .aborting } (fun b hb => ?_) hu
  exact hnames hdone b (List.mem_reverse.mp hb)

theorem twin_startWorkflowLoop {fuel : Nat} (tx : Transaction) (hk : tx.kind = .workflow)
    (hnames : Nameable tx.branches)
    (hstuck : ¬ tx.Startable → tx.branches ≠ [] → ¬ Marked gid ∧ ¬ Marked gid')
    (h : Held gid gid' r w w') :
    Twin fails gid gid' (dtm.startWorkflowLoop gid fuel (tx.named gid))
      (dtm.startWorkflowLoop gid' fuel (tx.named gid')) (fun _ _ => Alive gid gid') BothPlain
      w w' := by
  induction fuel generalizing tx r w w' with
  | zero => exact h.alive
  | succ fuel ih =>
    unfold Dtm.startWorkflowLoop
    cases hnext : tx.nextWorkflowBranch with
    | none =>
      have hnext' (g : String) : (tx.named g).nextWorkflowBranch = none := hnext
      rw [hnext' gid, hnext' gid']
      refine twin_ite Iff.rfl (fun _ => ?_) fun hsome => ?_
      · exact twin_persist_end (s := { tx with status := .succeeded }) h
      · have hbroken : ¬ tx.Startable := fun hstart => hsome (List.all_eq_true.mpr fun b hb =>
          decide_eq_true (nextWorkflowBranch_ne_none hk hstart.1 hstart.2 hnext b hb))
        have hne : tx.branches ≠ [] := by
          intro hnil
          rw [named_branches, hnil] at hsome
          exact hsome rfl
        obtain ⟨hgid, hgid'⟩ := hstuck hbroken hne
        have hplain (g : String) (hg : ¬ Marked g) :
            Plain ("workflow " ++ g ++ " has unresolved or cyclic dependencies") :=
          (plain_between _ _ (by decide) (by decide) (by decide)).mpr hg
        exact ⟨hplain gid hgid, hplain gid' hgid'⟩
    | some next =>
      obtain ⟨before, branch, after⟩ := next
      have hnext' (g : String) : (tx.named g).nextWorkflowBranch = some (before, branch, after) :=
        hnext
      rw [hnext' gid, hnext' gid']
      have hbs := nextWorkflowBranch_eq_some hnext
      have hsame {b : Branch} (hb : b.definition = branch.definition) :
          SameBranches tx.branches (before ++ b :: after) := by
        rw [hbs]
        exact forall₂_middle (SameBranches.refl before) hb (SameBranches.refl after)
      refine Twin.bind (twin_barrier h fun decision u u' hu => ?_)
      refine twin_ite Iff.rfl (fun _ => twin_load_end hu) fun _ => ?_
      refine Twin.bind (twin_invokeBranch hu fun b ok u u' hdef hu => ?_)
      have hb : b.definition = branch.definition := hdef
      cases ok with
      | true =>
        set s : Transaction := { tx with
          branches := before ++ { b with status := .succeeded, nextRetryMillis := none } :: after }
          with hs
        have hstep : SameBranches tx.branches s.branches := hsame hb
        refine Twin.bind (twin_persist (r := s) hu fun now u u' hu => ?_)
        refine ih s.written hk (hnames.of_same hstep) (fun hbroken _ => ?_) hu
        refine hstuck (fun hstart => hbroken ⟨?_, ?_⟩) (by rw [hbs]; simp)
        · rw [← hstart.1]
          exact validateTransactionDependencies_congr rfl rfl hstep.sameNode
        · have hall := hstart.2
          rw [hbs] at hall
          exact forall_mem_exchange hall (Or.inr (Or.inr rfl))
      | false =>
        refine Twin.bind (twin_releaseBarrier hu fun u u' hu => ?_)
        set s : Transaction := { tx with
          branches := before ++ { b with status := .failed } :: after, status := .aborting } with hs
        refine Twin.bind (twin_persist (r := s) hu fun now u u' hu => ?_)
        have hstep : SameBranches tx.branches s.branches := hsame hb
        have hst : s.status = .aborting := rfl
        refine twin_abortWorkflow (bumpTransactionRevision now s) hk
          (Or.inr (List.mem_of_getElem? (i := 3) (congrArg some hst.symm)))
          (fun _ b hb _ hc => ?_) hu
        exact hnames.of_same hstep b hb (Option.isNone_iff_eq_none.mp hc)

/-! ### Messages -/

/-- `dispatch_message` of a Message in Succeeding. -/
theorem twin_dispatch (tx : Transaction) (h : Held gid gid' r w w') :
    Twin fails gid gid'
      (currentMillis >>= fun now =>
        if (!messageDispatchDue (tx.named gid) now) = true then pure (tx.named gid)
        else if (tx.named gid).options.concurrent = true then
          dtm.dispatchMessageConcurrent (tx.named gid)
        else dtm.dispatchMessageLoop (tx.named gid) [] (tx.named gid).branches)
      (currentMillis >>= fun now =>
        if (!messageDispatchDue (tx.named gid') now) = true then pure (tx.named gid')
        else if (tx.named gid').options.concurrent = true then
          dtm.dispatchMessageConcurrent (tx.named gid')
        else dtm.dispatchMessageLoop (tx.named gid') [] (tx.named gid').branches)
      (fun _ _ => Alive gid gid') BothPlain w w' := by
  refine Twin.bind (twin_currentMillis h fun now u u' hu => ?_)
  refine twin_ite Iff.rfl (fun _ => hu.alive) fun _ => ?_
  refine twin_ite Iff.rfl (fun _ => ?_) fun _ => ?_
  · exact twin_dispatchMessageConcurrent hu
  · exact twin_dispatchMessageLoop tx hu

/-! ### All operations -/

/-- The names that an operation blames are not marked. -/
theorem ControlOperation.Clear.ids {op : ControlOperation} {missing : Branch → Bool}
    (hclear : op.Clear tx gid) (hgo : op.goesOn tx = true)
    (hop : op.blames tx = ControlOperation.blames.idsWhere tx missing) :
    ∀ b ∈ tx.branches, missing b = true → ¬ Marked b.id := by
  intro b hb hm
  refine hclear.blames hgo b.id ?_
  rw [hop]
  exact mem_idsWhere hb hm

/-- What the errors of a Saga can name. -/
theorem ControlOperation.Clear.saga {op : ControlOperation} (hclear : op.Clear tx gid)
    (hgo : op.goesOn tx = true) (hop : op = .startSaga ∨ op = .abortSaga)
    (hk : tx.kind = .saga) (hconc : tx.options.concurrent = true) :
    Errs Plain (validateTransactionDependencies tx) ∧ Nameable tx.branches := by
  have hblames : op.blames tx = if validateTransactionDependencies tx = .ok () then
      ControlOperation.blames.idsWhere tx fun branch => branch.compensate.isNone
      else tx.branches.flatMap fun branch => branch.id :: branch.dependencies := by
    rcases hop with rfl | rfl <;>
    · unfold ControlOperation.blames
      rw [hconc]
      rfl
  have hnames := hclear.blames hgo
  rw [hblames] at hnames
  split at hnames
  · rename_i hvalid
    refine ⟨hvalid ▸ errs_ok (), fun b hb hc => hnames b.id ?_⟩
    exact mem_idsWhere hb (Option.isNone_iff_eq_none.mpr hc)
  · have hall (b : Branch) (hb : b ∈ tx.branches) :
        ¬ Marked b.id ∧ ∀ dependency ∈ b.dependencies, ¬ Marked dependency :=
      ⟨hnames b.id (List.mem_flatMap.mpr ⟨b, hb, .head _⟩),
        fun d hd => hnames d (List.mem_flatMap.mpr ⟨b, hb, .tail _ hd⟩)⟩
    exact ⟨plain_validateTransactionDependencies hk hall, fun b hb _ => (hall b hb).1⟩

/-- **An operation that does not decline the record ends alike under both gids**, and its errors
are plain. -/
theorem twin_accepted {op : ControlOperation} (hrecover : op ≠ .recover)
    (h : Held gid gid' tx w w') (hdecl : op.declines tx = false) (hclear : op.Clear tx gid)
    (hclear' : op.Clear tx gid') :
    Twin fails gid gid' (op.act dtm gid) (op.act dtm gid') (fun _ _ => Alive gid gid') BothPlain
      w w' := by
  cases op with
  | recover => exact absurd rfl hrecover
  | get => exact twin_getTransaction h fun u u' hu => hu.alive
  | prepareTcc =>
    obtain ⟨hk, hs⟩ := accepted_of_expects rfl (by decide) hdecl
    refine twin_found (twin_accepted_load h hk hs fun _ _ u u' hu => ?_)
    exact twin_prepareTccLoop { tx with status := .trying } hu
  | confirmTcc =>
    obtain ⟨hk, hs⟩ := accepted_of_expects rfl (by decide) hdecl
    refine twin_found (twin_accepted_load h hk hs fun hdone hmem u u' hu => ?_)
    have hids := hclear.ids (goesOn_of_expects rfl hk hdone hmem) rfl
    exact twin_phase2Loop { tx with status := .succeeding } urlAlike_confirm hids hu
  | cancelTcc =>
    obtain ⟨hk, hs⟩ := accepted_of_expects rfl (by decide) hdecl
    refine twin_found (twin_accepted_load h hk hs fun hdone hmem u u' hu => ?_)
    have hids := hclear.ids (goesOn_of_expects rfl hk hdone hmem) rfl
    exact twin_cancelTccLoop { tx with status := .aborting } hids hu
  | startSaga =>
    obtain ⟨hk, hs⟩ := accepted_of_expects rfl (by decide) hdecl
    refine twin_found (twin_accepted_load h hk hs fun hdone hmem u u' hu => ?_)
    refine twin_ite Iff.rfl (fun hconc => ?_) fun hseq => ?_
    · obtain ⟨hchecked, hnames⟩ := hclear.saga (goesOn_of_expects rfl hk hdone hmem) (Or.inl rfl) hk
        hconc
      exact twin_startConcurrentSaga hk hconc hchecked hnames hu
    · refine Twin.bind (twin_persist (r := { tx with status := .succeeding }) hu
        fun now u u' hu => ?_)
      exact twin_startSagaLoop (Transaction.written { tx with status := .succeeding }) hk hseq hu
  | abortSaga =>
    obtain ⟨hk, hs⟩ := accepted_of_expects rfl (by decide) hdecl
    refine twin_found (twin_abortSaga tx hk hs (fun hconc hdone => ?_) h)
    have hmem := hs.resolve_left hdone
    exact hclear.saga (goesOn_of_expects rfl hk hdone hmem) (Or.inr rfl) hk hconc
  | startWorkflow =>
    have hnot := mt (declines_iff rfl).mpr (Bool.eq_false_iff.mp hdecl)
    rw [not_or, not_not] at hnot
    obtain ⟨hk, hs⟩ := hnot
    refine twin_found (Twin.bind (twin_transactionOfKind h hk fun u u' hu => ?_))
    refine twin_ite Iff.rfl (fun _ => hu.alive) fun hdone => ?_
    refine twin_ensure rfl (fun _ => ?_) fun hcallback => ?_
    · exact BothPlain.same (by unfold Plain; decide)
    · have hmem : tx.status ∈ [TransactionStatus.submitted, .prepared, .succeeding] := by
        by_contra hmem
        refine hs ⟨⟨hdone, hmem⟩, fun h => ?_⟩
        rw [named_isCallbackWorkflow, h.2] at hcallback
        cases hcallback
      have hgo : ControlOperation.startWorkflow.goesOn tx = true :=
        goesOn_of_expects rfl hk hdone hmem
      refine twin_ensureStatus hmem ?_
      refine twin_startWorkflowLoop { tx with status := .succeeding } hk ?_ ?_ hu
      · intro b hb hc
        exact hclear.ids hgo rfl b hb (Option.isNone_iff_eq_none.mpr hc)
      · intro hbroken hne
        have hbroken' : ¬ tx.Startable := fun hstart => hbroken ⟨by
          rw [← hstart.1]
          exact validateTransactionDependencies_congr rfl rfl
            (List.forall₂_same.mpr fun b _ => ⟨rfl, rfl⟩), hstart.2⟩
        exact ⟨hclear.stuck rfl hgo hbroken' hne, hclear'.stuck rfl hgo hbroken' hne⟩
  | abortWorkflow =>
    obtain ⟨hk, hs⟩ := accepted_of_expects rfl (by decide) hdecl
    refine twin_found (twin_abortWorkflow tx hk hs (fun hdone b hb hst hc => ?_) h)
    have hgo : ControlOperation.abortWorkflow.goesOn tx = true :=
      goesOn_of_expects rfl hk hdone (hs.resolve_left hdone)
    refine hclear.ids hgo rfl b hb ?_
    rw [hst, hc]
    rfl
  | prepareMessage =>
    obtain ⟨hk, hs⟩ := accepted_of_expects rfl (by decide) hdecl
    refine twin_found (twin_accepted_ofKind h hk hs fun _ _ u u' hu => ?_)
    exact twin_persist_end (s := { tx with status := .prepared }) hu
  | dispatchMessage =>
    obtain ⟨hk, hs⟩ := accepted_of_expects rfl (by decide) hdecl
    refine twin_found (twin_accepted_ofKind h hk hs fun _ _ u u' hu => ?_)
    refine twin_ite Iff.rfl (fun _ => ?_) fun _ => twin_dispatch tx hu
    refine Twin.bind (twin_persist (r := { tx with status := .succeeding }) hu
      fun now u u' hu => ?_)
    exact twin_dispatch (Transaction.written { tx with status := .succeeding }) hu
  | abortMessage =>
    obtain ⟨hk, hs⟩ := accepted_of_expects rfl (by decide) hdecl
    refine twin_found (twin_accepted_ofKind h hk hs fun _ _ u u' hu => ?_)
    exact twin_persist_end (s := { tx with
      status := .aborted
      branches := tx.branches.map fun branch =>
        { branch with status := .skipped, nextRetryMillis := none } }) hu
  | prepareXa =>
    obtain ⟨hk, hs⟩ := accepted_of_expects rfl (by decide) hdecl
    refine twin_found (twin_accepted_ofKind h hk hs fun _ _ u u' hu => ?_)
    exact twin_persist_end (s := { tx with status := .prepared }) hu
  | commitXa =>
    obtain ⟨hk, hs⟩ := accepted_of_expects rfl (by decide) hdecl
    refine twin_found (twin_accepted_ofKind h hk hs fun hdone hmem u u' hu => ?_)
    have hids := hclear.ids (goesOn_of_expects rfl hk hdone hmem) rfl
    exact twin_phase2Loop { tx with status := .succeeding } urlAlike_commit hids hu
  | rollbackXa =>
    obtain ⟨hk, hs⟩ := accepted_of_expects rfl (by decide) hdecl
    refine twin_found (twin_accepted_ofKind h hk hs fun hdone hmem u u' hu => ?_)
    have hids := hclear.ids (goesOn_of_expects rfl hk hdone hmem) rfl
    exact twin_phase2Loop { tx with status := .aborting } urlAlike_rollback hids hu
  | forceStop =>
    refine twin_found (Twin.bind (twin_load h fun u u' hu => ?_))
    refine twin_ensure rfl (fun hterminal => ?_) fun _ => ?_
    · have hst : tx.status.isTerminal = false := hdecl
      rw [named_status, hst] at hterminal
      cases hterminal
    · exact twin_persist_end (s := { tx with
        status := .failed
        branches := tx.branches.map fun branch => { branch with nextRetryMillis := none } }) hu
  | resetRetry =>
    refine twin_found (Twin.bind (twin_load h fun u u' hu => ?_))
    refine twin_ensure rfl (fun hterminal => ?_) fun _ => ?_
    · have hst : tx.status.isTerminal = false := hdecl
      rw [named_status, hst] at hterminal
      cases hterminal
    · refine Twin.bind (twin_currentMillis hu fun now u u' hu => ?_)
      exact twin_persist_end (s := Dtm.retryNow now tx) hu

end Accepted

end RozeDtm
