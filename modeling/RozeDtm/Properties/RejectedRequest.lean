import RozeDtm.Known.Operations
import RozeDtm.Known.World
import RozeDtm.Properties.BranchFit
import RozeDtm.Trail.Inserts

/-!
# A rejected request leaves nothing behind

`compat_apply` checks a request, submits the transaction that it builds from it, and runs the
operation.  What it submits is found under the gid of the request, and the operation looks under
that gid without its surrounding white space, so the two are the same only where there is none.
The Submit of a TCC or an XA is refused by the status of the transaction that has just been
submitted.  Every other operation succeeds on it (`knowing_compatDispatch`).
-/

namespace RozeDtm

open Conc

/-! ### What is submitted -/

/-- The same transaction, created at another time. -/
def Transaction.createdAt (tx : Transaction) (now : Nat) : Transaction :=
  { tx with createdAtMillis := now, updatedAtMillis := now }

theorem map_bind_eq {α β γ : Type} (x : Except Err α) (f : α → Except Err β) (g : β → γ) :
    (x >>= f).map g = x >>= fun a => (f a).map g := by
  cases x <;> rfl

theorem bind_of_ok {α β : Type} {x : Except Err α} {a : α} {f : α → Except Err β}
    (h : x = .ok a) : (x >>= f) = f a := by
  rw [h]
  rfl

theorem bind_of_error {α β : Type} {x : Except Err α} {e : Err} {f : α → Except Err β}
    (h : x = .error e) : (x >>= f) = .error e := by
  rw [h]
  rfl

section Times
variable {state : ControlState} {tx : Transaction} {request : CompatTransactionRequest}

theorem applyCompatSagaCustom_createdAt (now : Nat) :
    state.applyCompatSagaCustom (tx.createdAt now) request =
      (state.applyCompatSagaCustom tx request).map fun tx => tx.createdAt now := by
  unfold ControlState.applyCompatSagaCustom
  split
  · rfl
  · split
    · rfl
    · dsimp only
      split
      · rfl
      · simp only [map_bind_eq]
        rfl

theorem applyCompatMessageCustom_createdAt (now : Nat) :
    state.applyCompatMessageCustom (tx.createdAt now) request =
      (state.applyCompatMessageCustom tx request).map fun tx => tx.createdAt now := by
  unfold ControlState.applyCompatMessageCustom
  split
  · rfl
  · rw [map_bind_eq]
    congr 1
    funext value
    split
    · rfl
    · rw [map_bind_eq]
      congr 1
      funext custom
      split
      · rw [map_bind_eq]
        rfl
      · rfl

theorem compatTransaction_createdAt (kind : TransactionKind) (now now' : Nat) :
    state.compatTransaction now kind request =
      (state.compatTransaction now' kind request).map fun tx => tx.createdAt now := by
  unfold ControlState.compatTransaction
  rw [map_bind_eq]
  congr 1
  funext branches
  dsimp only
  rw [map_bind_eq]
  congr 1
  funext options
  cases kind with
  | saga =>
    exact @applyCompatSagaCustom_createdAt state
      { Transaction.new now' request.gid .saga branches with options := options } request now
  | message =>
    exact @applyCompatMessageCustom_createdAt state
      { Transaction.new now' request.gid .message branches with options := options } request now
  | workflow => rfl
  | tcc => rfl
  | xa => rfl

theorem workflowCallbackRequest_createdAt (libs : Libs) (now : Nat) :
    workflowCallbackRequest libs (tx.createdAt now) = workflowCallbackRequest libs tx := rfl

theorem compatSubmission_createdAt (kind : TransactionKind) (now now' : Nat) :
    state.compatSubmission now kind request =
      (state.compatSubmission now' kind request).map fun tx => tx.createdAt now := by
  unfold ControlState.compatSubmission
  rw [compatTransaction_createdAt kind now now', map_bind_eq]
  cases state.compatTransaction now' kind request with
  | error e => rfl
  | ok tx =>
    have hprepared : state.preserveCompatMetadata
        (ControlState.withCompatTimeout (tx.createdAt now) request) request =
      (state.preserveCompatMetadata
        (ControlState.withCompatTimeout tx request) request).createdAt now := by
      unfold ControlState.withCompatTimeout
      cases request.timeoutToFail <;> rfl
    have hreason : ∀ tx : Transaction, ControlState.withRollbackReason (tx.createdAt now) request =
        (ControlState.withRollbackReason tx request).createdAt now := by
      intro tx
      unfold ControlState.withRollbackReason
      cases request.rollbackReason <;> rfl
    simp only [Except.map, bind, Except.bind, hprepared, hreason,
      workflowCallbackRequest_createdAt]
    generalize state.preserveCompatMetadata _ request = prepared
    split
    · cases workflowCallbackRequest state.dtm.libs prepared with
      | error e => rfl
      | ok callback =>
        cases h : state.branchUrlPolicy.validateCallback state.libs callback.url with
        | error e => simp only [h]
        | ok u =>
          simp only [h]
          rfl
    · rfl

end Times

/-! ### What `submit` makes of a transaction -/

namespace Dtm

variable (dtm : Dtm) (kv : String × String → Option KvEntry)

/-- What `expand_message_topics` makes of one branch of a Message, over the topics in `kv`. -/
def expandedBranch (branch : Branch) : Except Err (List Branch) :=
  if branch.action.startsWith "topic://" then do
    let topic := (branch.action.drop "topic://".length).toString
    ensure (!topic.isEmpty && topic.utf8ByteSize ≤ 191) "invalid topic name"
    let entry ← require (kv ("topics", topic)) s!"topic not found: {topic}"
    let subscribers ← dtm.libs.parseSubscribers entry.value
    ensure (!subscribers.isEmpty) s!"topic has no subscribers: {topic}"
    return subscriberBranches branch subscribers
  else return [branch]

/-- What it makes of all of them. -/
def expandedOver : List Branch → Except Err (List Branch)
  | [] => return []
  | branch :: rest => do
    let expanded ← dtm.expandedBranch kv branch
    return expanded ++ (← expandedOver rest)

/-- The branches that `submit` gives to a transaction. -/
def branchesOver (tx : Transaction) : Except Err (List Branch) :=
  if tx.kind = .message then do
    let expanded ← dtm.expandedOver kv tx.branches
    ensure (expanded.map Branch.id).Nodup
      "message topic expansion produced duplicate branch ids"
    return expanded
  else return tx.branches

/-- The record that `submit` inserts for `tx`. -/
def submission (tx : Transaction) : Except Err Transaction := do
  tx.options.validate dtm.libs
  ensure (tx.kind = .message || tx.options.delayMillis.isNone)
    "delay_millis is only supported by Message transactions"
  validateTransactionDependencies tx
  let branches ← dtm.branchesOver kv tx
  return dtm.withTimeout { tx with revision := 1, branches }

end Dtm

section Submit

variable {dtm : Dtm} {i : Nat} {w : World} {tx : Transaction} {E : Err → World → Prop}
  {allow : Effect → World → Prop}

@[simp] theorem setClock_kv (w : World) (now : Nat) : (w.setClock now).kv = w.kv := rfl

theorem runs_ofExcept_of {α : Type} {e : Except Err α} {Q : α → World → Prop}
    (ok : ∀ a, e = .ok a → Q a w) (error : ∀ err, e = .error err → E err w) :
    (alone allow).Runs (fun _ => True) i (Act.ofExcept e) Q E w := by
  cases e with
  | ok a => exact ok a rfl
  | error err => exact error err rfl

/-- **The expansion of topics reads them and changes nothing.** -/
theorem runs_expandBranches {branches : List Branch} {Q : List Branch → World → Prop}
    (ok : ∀ now bs, dtm.expandedOver w.kv branches = .ok bs → Q bs (w.setClock now))
    (error : ∀ now e, dtm.expandedOver w.kv branches = .error e → E e (w.setClock now)) :
    (alone allow).Runs (fun _ => True) i (dtm.expandBranches branches) Q E w := by
  induction branches generalizing w Q with
  | nil => exact ok w.clock [] rfl
  | cons branch rest ih =>
    -- a branch that is not expanded is an error, of all of them
    have hfails {now : Nat} {e : Err} (h : dtm.expandedBranch w.kv branch = .error e) :
        E e (w.setClock now) := by
      refine error now e ?_
      rw [Dtm.expandedOver, h]
      rfl
    have hrest {now : Nat} {group : List Branch}
        (hgroup : dtm.expandedBranch w.kv branch = .ok group) :
        (alone allow).Runs (fun _ => True) i (dtm.expandBranches rest)
          (fun bs w => Q (group ++ bs) w) E (w.setClock now) := by
      have hover : dtm.expandedOver w.kv (branch :: rest) =
          (dtm.expandedOver w.kv rest).map fun bs => group ++ bs := by
        rw [Dtm.expandedOver, hgroup]
        rfl
      refine ih (fun now' bs hbs => ok now' (group ++ bs) ?_) fun now' e he => error now' e ?_
      · rw [hover, show dtm.expandedOver w.kv rest = _ from hbs]
        rfl
      · rw [hover, show dtm.expandedOver w.kv rest = _ from he]
        rfl
    rw [Dtm.expandBranches]
    split
    · rename_i haction
      have hbranch : dtm.expandedBranch w.kv branch = _ := if_pos haction
      dsimp only at hbranch
      simp only [Dtm.getTopic, Machine.runs_bind]
      refine runs_ofExcept_of (fun _ hname => ?_) fun e he =>
        hfails (hbranch.trans (bind_of_error he))
      have hbranch := hbranch.trans (bind_of_ok hname)
      refine runs_call (fun _ => trivial) fun now c _ => ?_
      simp only [InMemory.exec, setClock_kv]
      cases hentry : w.kv ("topics", (branch.action.drop "topic://".length).toString) with
      | none =>
        rw [hentry] at hbranch
        exact hfails hbranch
      | some entry =>
        rw [hentry] at hbranch
        have hbranch := hbranch.trans (bind_of_ok rfl)
        rw [Machine.runs_bind]
        refine runs_ofExcept_of (fun subscribers hparse => ?_) fun e he =>
          hfails (hbranch.trans (bind_of_error he))
        have hbranch := hbranch.trans (bind_of_ok hparse)
        show (alone allow).Runs (fun _ => True) i
          (Act.ofExcept (ensure (!subscribers.isEmpty) _)) _ _ _
        refine runs_ofExcept_of (fun _ hne => hrest (hbranch.trans (bind_of_ok hne))) fun e he =>
          hfails (hbranch.trans (bind_of_error he))
    · rename_i haction
      unfold Dtm.expandedBranch at hrest
      rw [if_neg haction] at hrest
      simp only [Machine.runs_bind, Machine.runs_pure]
      exact hrest rfl

/-- **What `submit` inserts**, or why it refuses. -/
theorem runs_submit {Q : Transaction → World → Prop}
    (inserted : ∀ now stored, dtm.submission w.kv tx = .ok stored → w.txs[stored.gid]? = none →
      Q stored ((w.setClock now).put stored))
    (present : ∀ now stored e, dtm.submission w.kv tx = .ok stored → w.txs[stored.gid]? ≠ none →
      E e (w.setClock now))
    (refused : ∀ now e, dtm.submission w.kv tx = .error e → E e (w.setClock now)) :
    (alone allow).Runs (fun _ => True) i (dtm.submit tx) Q E w := by
  have insert {now : Nat} {branches : List Branch}
      (h : dtm.submission w.kv tx = .ok (dtm.withTimeout { tx with revision := 1, branches })) :
      (alone allow).Runs (fun _ => True) i
        (Store.insertTransaction (dtm.withTimeout { tx with revision := 1, branches }))
        (fun _ w => Q (dtm.withTimeout { tx with revision := 1, branches }) w) E
        (w.setClock now) :=
    runs_insertTransaction (fun _ => trivial) (fun now' e hpresent => present now' _ e h hpresent)
      fun now' habsent => inserted now' _ h habsent
  simp only [Dtm.submit, Machine.runs_bind]
  refine runs_ofExcept_of (fun _ hoptions => ?_) fun e he => refused w.clock e (bind_of_error he)
  have hsubmission : dtm.submission w.kv tx = _ := bind_of_ok hoptions
  refine runs_ofExcept_of (fun _ hdelay => ?_) fun e he =>
    refused w.clock e (hsubmission.trans (bind_of_error he))
  have hsubmission := hsubmission.trans (bind_of_ok hdelay)
  refine runs_ofExcept_of (fun _ hvalid => ?_) fun e he =>
    refused w.clock e (hsubmission.trans (bind_of_error he))
  have hsubmission := hsubmission.trans (bind_of_ok hvalid)
  split
  · rename_i hmessage
    have hbranches : dtm.branchesOver w.kv tx = _ := if_pos hmessage
    simp only [Dtm.expandMessageTopics, Machine.runs_bind]
    refine runs_expandBranches (fun now bs hbs => ?_) fun now e he =>
      refused now e (hsubmission.trans (bind_of_error (hbranches.trans (bind_of_error he))))
    have hbranches := hbranches.trans (bind_of_ok hbs)
    refine runs_ofExcept_of (fun _ hnodup => ?_) fun e he =>
      refused now e (hsubmission.trans (bind_of_error (hbranches.trans (bind_of_error he))))
    exact insert (hsubmission.trans (bind_of_ok (hbranches.trans (bind_of_ok hnodup))))
  · rename_i hmessage
    simp only [Machine.runs_bind, Machine.runs_pure]
    exact @insert w.clock _ (hsubmission.trans (bind_of_ok (if_neg hmessage)))

end Submit

/-! ### What a request creates -/

namespace ControlState

variable (state : ControlState)

/-- What `compat_apply` inserts for a request when nothing is stored under the gid that it looks
up, over the topics in `kv`; and the kind of the operation that it runs then. -/
def compatCreation (kv : String × String → Option KvEntry) (now : Nat)
    (request : CompatTransactionRequest) (operation : CompatOperation) :
    Except Err (TransactionKind × Transaction) := do
  let kind ← parseKind request.transType
  let callbackCompletion ← callbackWorkflowCompletion kind operation request
  ensure (!(trim request.gid).isEmpty && (trim request.gid).utf8ByteSize ≤ 128) "invalid gid"
  ensure callbackCompletion.isNone "callback workflow must be prepared before completion"
  ensure (!isCallbackRequest kind request none || operation ≠ .submit)
    "callback workflow completion status is required"
  let transaction ← state.compatSubmission now kind request
  let stored ← state.dtm.submission kv transaction
  return (kind, stored)

end ControlState

section Creation

variable {state : ControlState} {kv : String × String → Option KvEntry} {now : Nat}
  {kind : TransactionKind} {request : CompatTransactionRequest} {operation : CompatOperation}
  {tx stored : Transaction} {b : Branch}

/-- What comes after `Transaction::new` leaves these. -/
structure SameStart (tx tx' : Transaction) : Prop where
  gid : tx'.gid = tx.gid
  kind : tx'.kind = tx.kind
  status : tx'.status = tx.status

theorem applyCompatSagaCustom_start {tx' : Transaction}
    (h : state.applyCompatSagaCustom tx request = .ok tx') :
    SameStart tx tx' ∧ tx'.metadata = tx.metadata := by
  unfold ControlState.applyCompatSagaCustom at h
  split at h
  · cases h
    exact ⟨⟨rfl, rfl, rfl⟩, rfl⟩
  · split at h
    · cases h
      exact ⟨⟨rfl, rfl, rfl⟩, rfl⟩
    · dsimp only at h
      split at h
      · cases h
        exact ⟨⟨rfl, rfl, rfl⟩, rfl⟩
      · obtain ⟨custom, -, h⟩ := bind_eq_ok h
        obtain ⟨_, -, h⟩ := bind_eq_ok h
        obtain ⟨branches, -, h⟩ := bind_eq_ok h
        cases h
        exact ⟨⟨rfl, rfl, rfl⟩, rfl⟩

theorem applyCompatMessageCustom_start {tx' : Transaction}
    (h : state.applyCompatMessageCustom tx request = .ok tx') :
    SameStart tx tx' ∧ tx'.metadata = tx.metadata := by
  unfold ControlState.applyCompatMessageCustom at h
  split at h
  · cases h
    exact ⟨⟨rfl, rfl, rfl⟩, rfl⟩
  · obtain ⟨value, -, h⟩ := bind_eq_ok h
    dsimp only at h
    split at h
    · cases h
      exact ⟨⟨rfl, rfl, rfl⟩, rfl⟩
    · obtain ⟨custom, -, h⟩ := bind_eq_ok h
      split at h
      · obtain ⟨_, -, h⟩ := bind_eq_ok h
        cases h
        exact ⟨⟨rfl, rfl, rfl⟩, rfl⟩
      · cases h
        exact ⟨⟨rfl, rfl, rfl⟩, rfl⟩

/-- How a transaction starts that `compat_transaction` builds. -/
theorem compatTransaction_start (h : state.compatTransaction now kind request = .ok tx) :
    SameStart (.new now request.gid kind []) tx ∧ tx.metadata = ∅ := by
  unfold ControlState.compatTransaction at h
  obtain ⟨built, -, h⟩ := bind_eq_ok h
  obtain ⟨options, -, h⟩ := bind_eq_ok h
  cases kind with
  | saga =>
    obtain ⟨hstart, hmetadata⟩ := applyCompatSagaCustom_start h
    exact ⟨⟨hstart.gid, hstart.kind, hstart.status⟩, hmetadata⟩
  | message =>
    obtain ⟨hstart, hmetadata⟩ := applyCompatMessageCustom_start h
    exact ⟨⟨hstart.gid, hstart.kind, hstart.status⟩, hmetadata⟩
  | workflow | tcc | xa =>
    cases h
    exact ⟨⟨rfl, rfl, rfl⟩, rfl⟩

theorem getElem?_putSome {m : Std.ExtTreeMap String String} {key key' : String}
    (value : Option String) (hne : key ≠ key') :
    (ControlState.putSome m key value)[key']? = m[key']? := by
  cases value with
  | none => rfl
  | some value => exact getElem?_insert_other hne

/-- The callback of a Workflow is the one of its request. -/
theorem preserveCompatMetadata_query (hmetadata : tx.metadata = ∅) :
    (state.preserveCompatMetadata tx request).metadata["dtm.query_prepared"]? =
      nonEmpty request.queryPrepared := by
  have hquery (m : Std.ExtTreeMap String String) (hm : m["dtm.query_prepared"]? = none) :
      (ControlState.putSome m "dtm.query_prepared"
        (nonEmpty request.queryPrepared))["dtm.query_prepared"]? =
        nonEmpty request.queryPrepared := by
    cases nonEmpty request.queryPrepared with
    | none => exact hm
    | some value => exact Std.ExtTreeMap.getElem?_insert_self
  unfold ControlState.preserveCompatMetadata
  dsimp only
  have hempty : tx.metadata["dtm.query_prepared"]? = none := by
    rw [hmetadata]
    exact Std.ExtTreeMap.getElem?_empty
  have hlater : ∀ m : Std.ExtTreeMap String String, ∀ c : Bool, ∀ key value,
      key ≠ "dtm.query_prepared" →
      (if c then m else m.insert key value)["dtm.query_prepared"]? = m["dtm.query_prepared"]? := by
    intro m c key value hne
    cases c with
    | true => rfl
    | false => exact getElem?_insert_other hne
  rw [hlater _ _ _ _ (by decide), hlater _ _ _ _ (by decide), getElem?_putSome _ (by decide),
    getElem?_putSome _ (by decide), getElem?_putSome _ (by decide),
    getElem?_insert_other (by decide), getElem?_insert_other (by decide)]
  refine hquery _ ?_
  rw [getElem?_putSome _ (by decide)]
  exact hempty

/-- How a transaction starts that a request submits. -/
theorem compatSubmission_start (h : state.compatSubmission now kind request = .ok tx) :
    SameStart (.new now request.gid kind []) tx ∧
      tx.metadata["dtm.query_prepared"]? = nonEmpty request.queryPrepared := by
  unfold ControlState.compatSubmission at h
  obtain ⟨built, hbuilt, h⟩ := bind_eq_ok h
  obtain ⟨hstart, hmetadata⟩ := compatTransaction_start hbuilt
  have hresult : tx = ControlState.withRollbackReason (state.preserveCompatMetadata
      (ControlState.withCompatTimeout built request) request) request := by
    dsimp only at h
    split at h
    · obtain ⟨callback, -, h⟩ := bind_eq_ok h
      obtain ⟨_, -, h⟩ := bind_eq_ok h
      cases h
      rfl
    · cases h
      rfl
  have htimed : SameStart built (ControlState.withCompatTimeout built request) ∧
      (ControlState.withCompatTimeout built request).metadata = ∅ := by
    unfold ControlState.withCompatTimeout
    cases request.timeoutToFail with
    | none => exact ⟨⟨rfl, rfl, rfl⟩, hmetadata⟩
    | some seconds => exact ⟨⟨rfl, rfl, rfl⟩, hmetadata⟩
  generalize ControlState.withCompatTimeout built request = timed at hresult htimed
  have hquery := @preserveCompatMetadata_query state request timed htimed.2
  have hsame : SameStart timed tx ∧ tx.metadata["dtm.query_prepared"]? =
      (state.preserveCompatMetadata timed request).metadata["dtm.query_prepared"]? := by
    rw [hresult]
    unfold ControlState.withRollbackReason
    cases request.rollbackReason with
    | none => exact ⟨⟨rfl, rfl, rfl⟩, rfl⟩
    | some reason => exact ⟨⟨rfl, rfl, rfl⟩, getElem?_insert_other (by decide)⟩
  obtain ⟨hkept, hreason⟩ := hsame
  refine ⟨⟨?_, ?_, ?_⟩, hreason.trans hquery⟩
  · rw [hkept.gid, htimed.1.gid, hstart.gid]
  · rw [hkept.kind, htimed.1.kind, hstart.kind]
  · rw [hkept.status, htimed.1.status, hstart.status]

/-- A TCC or an XA starts without branches. -/
theorem compatTransaction_empty (h : state.compatTransaction now kind request = .ok tx)
    (hk : kind = .tcc ∨ kind = .xa) : tx.branches = [] := by
  unfold ControlState.compatTransaction at h
  obtain ⟨built, -, h⟩ := bind_eq_ok h
  obtain ⟨options, -, h⟩ := bind_eq_ok h
  rcases hk with rfl | rfl
  · cases h
    rfl
  · cases h
    rfl

theorem expandedOver_pending {dtm : Dtm} {branches bs : List Branch}
    (h : dtm.expandedOver kv branches = .ok bs) (hbs : ∀ b ∈ branches, b.status = .pending) :
    ∀ b ∈ bs, b.status = .pending := by
  induction branches generalizing bs with
  | nil =>
    cases h
    exact hbs
  | cons branch rest ih =>
    obtain ⟨hbranch, hrest⟩ := List.forall_mem_cons.mp hbs
    unfold Dtm.expandedOver at h
    obtain ⟨group, hgroup, h⟩ := bind_eq_ok h
    obtain ⟨others, hothers, h⟩ := bind_eq_ok h
    cases h
    refine List.forall_mem_append.mpr ⟨?_, ih hothers hrest⟩
    unfold Dtm.expandedBranch at hgroup
    split at hgroup
    · obtain ⟨_, -, hgroup⟩ := bind_eq_ok hgroup
      obtain ⟨entry, -, hgroup⟩ := bind_eq_ok hgroup
      obtain ⟨subscribers, -, hgroup⟩ := bind_eq_ok hgroup
      obtain ⟨_, -, hgroup⟩ := bind_eq_ok hgroup
      cases hgroup
      intro b hb
      obtain ⟨index, hindex, rfl⟩ := List.mem_mapIdx.mp hb
      exact hbranch
    · cases hgroup
      exact List.forall_mem_singleton.mpr hbranch

/-- What `submit` inserts, of what it is given. -/
theorem submission_eq_ok {dtm : Dtm} (h : dtm.submission kv tx = .ok stored) :
    validateTransactionDependencies tx = .ok () ∧ ∃ branches,
      dtm.branchesOver kv tx = .ok branches ∧
      stored = dtm.withTimeout { tx with revision := 1, branches } := by
  unfold Dtm.submission at h
  obtain ⟨_, -, h⟩ := bind_eq_ok h
  obtain ⟨_, -, h⟩ := bind_eq_ok h
  obtain ⟨_, hvalid, h⟩ := bind_eq_ok h
  obtain ⟨branches, hbranches, h⟩ := bind_eq_ok h
  cases h
  exact ⟨hvalid, branches, hbranches, rfl⟩

theorem withTimeout_eq (dtm : Dtm) (tx : Transaction) :
    ∃ timeoutMillis, dtm.withTimeout tx = { tx with timeoutMillis } := by
  unfold Dtm.withTimeout
  split
  · exact ⟨tx.timeoutMillis, rfl⟩
  · exact ⟨_, rfl⟩

/-- **What a request creates** is a new record of its kind, under its gid as it is written, and no
callback Workflow if it is to be submitted. -/
theorem compatCreation_new
    (h : state.compatCreation kv now request operation = .ok (kind, stored)) :
    NewRecord request.gid kind stored ∧
      (operation = .submit → isCallbackWorkflow stored = false) := by
  unfold ControlState.compatCreation at h
  obtain ⟨kind', -, h⟩ := bind_eq_ok h
  obtain ⟨completion, -, h⟩ := bind_eq_ok h
  obtain ⟨_, -, h⟩ := bind_eq_ok h
  obtain ⟨_, -, h⟩ := bind_eq_ok h
  obtain ⟨_, hcallback, h⟩ := bind_eq_ok h
  obtain ⟨tx, htx, h⟩ := bind_eq_ok h
  obtain ⟨stored', hstored, h⟩ := bind_eq_ok h
  cases h
  obtain ⟨hstart, hquery⟩ := compatSubmission_start htx
  obtain ⟨built, hbuilt, -, hsame⟩ := compatSubmission_built htx
  have hpending : ∀ b ∈ tx.branches, b.status = .pending := by
    rw [hsame]
    exact fun b hb => compatTransaction_pending hbuilt hb
  obtain ⟨hvalid, branches, hbranches, heq⟩ := submission_eq_ok hstored
  obtain ⟨timeoutMillis, htimeout⟩ :=
    withTimeout_eq state.dtm { tx with revision := 1, branches }
  have heq : stored = { tx with revision := 1, branches, timeoutMillis } := heq.trans htimeout
  have hkind : tx.kind = kind := hstart.kind
  -- only the branches of a Message are expanded
  have hkept (hk : kind ≠ .message) : branches = tx.branches := by
    unfold Dtm.branchesOver at hbranches
    rw [if_neg (hkind.trans_ne hk)] at hbranches
    cases hbranches
    rfl
  refine ⟨?_, fun hsubmit => ?_⟩
  · constructor
    · rw [heq]
      exact hstart.gid
    · rw [heq]
      exact hkind
    · rw [heq]
      exact hstart.status
    · rw [heq]
      by_cases hk : tx.kind = .message
      · unfold Dtm.branchesOver at hbranches
        rw [if_pos hk] at hbranches
        obtain ⟨expanded, hexpanded, hbranches⟩ := bind_eq_ok hbranches
        obtain ⟨_, -, hbranches⟩ := bind_eq_ok hbranches
        cases hbranches
        exact expandedOver_pending hexpanded hpending
      · show ∀ b ∈ branches, b.status = .pending
        rw [hkept (hkind ▸ hk)]
        exact hpending
    · intro hk
      have hmessage : kind ≠ .message := by rcases hk with rfl | rfl <;> decide
      rw [heq]
      show ∀ b ∈ branches, b.compensate ≠ none
      rw [hkept hmessage]
      intro b hb
      have hfits := (compatSubmission_fits htx).2 b hb
      have haccepts : state.dtm.libs.url.Accepts b.compensate := by
        rcases hk with rfl | rfl
        · exact List.forall_mem_singleton.mp hfits.urls
        · exact List.forall_mem_singleton.mp hfits.urls
      obtain ⟨text, u, hsome, -⟩ := haccepts
      rw [hsome]
      exact Option.some_ne_none text
    · intro hk
      have hmessage : kind ≠ .message := by rcases hk with rfl | rfl <;> decide
      rw [heq]
      show branches = []
      rw [hkept hmessage, hsame]
      exact compatTransaction_empty hbuilt hk
    · intro hk
      have hmessage : kind ≠ .message := by rcases hk with rfl | rfl <;> decide
      rw [heq, hkept hmessage]
      exact hvalid
  · -- a callback of the request would have been refused
    rw [ensure_eq_ok] at hcallback
    rw [heq]
    show (decide (tx.kind = .workflow) && branches.isEmpty &&
      (tx.metadata["dtm.query_prepared"]?).any fun value => !value.isEmpty) = false
    rw [hquery, hkind]
    by_cases hworkflow : kind = .workflow
    · have hnone : (nonEmpty request.queryPrepared).isSome = false := by
        cases hsome : (nonEmpty request.queryPrepared).isSome with
        | false => rfl
        | true =>
          unfold ControlState.isCallbackRequest at hcallback
          rw [hsome, hworkflow, hsubmit] at hcallback
          exact absurd hcallback (by decide)
      rw [Option.isSome_eq_false_iff, Option.isNone_iff_eq_none] at hnone
      rw [hnone, Option.any_none, Bool.and_false]
    · rw [decide_eq_false hworkflow, Bool.false_and, Bool.false_and]

theorem withTimeout_createdAt (dtm : Dtm) (tx : Transaction) (now : Nat) :
    dtm.withTimeout (tx.createdAt now) = (dtm.withTimeout tx).createdAt now := by
  have hcallback : isCallbackWorkflow (tx.createdAt now) = isCallbackWorkflow tx := rfl
  unfold Dtm.withTimeout
  rw [hcallback]
  split <;> rfl

theorem submission_createdAt (dtm : Dtm) :
    dtm.submission kv (tx.createdAt now) =
      (dtm.submission kv tx).map fun tx => tx.createdAt now := by
  unfold Dtm.submission
  simp only [map_bind_eq]
  congr 1
  funext _
  congr 1
  funext _
  refine congrArg (validateTransactionDependencies tx >>= ·) ?_
  funext _
  refine congrArg (dtm.branchesOver kv tx >>= ·) ?_
  funext branches
  exact congrArg Except.ok (withTimeout_createdAt dtm { tx with revision := 1, branches } now)

/-- **A request creates the same at any time**, but for the time. -/
theorem compatCreation_createdAt (now now' : Nat) :
    state.compatCreation kv now request operation =
      (state.compatCreation kv now' request operation).map fun created =>
        (created.1, created.2.createdAt now) := by
  unfold ControlState.compatCreation
  simp only [map_bind_eq]
  congr 1
  funext kind
  congr 1
  funext completion
  congr 1
  funext _
  congr 1
  funext _
  congr 1
  funext _
  rw [compatSubmission_createdAt kind now now']
  cases state.compatSubmission now' kind request with
  | error e => rfl
  | ok tx =>
    show (state.dtm.submission kv (tx.createdAt now) >>= _) =
      (state.dtm.submission kv tx >>= _)
    rw [submission_createdAt]
    cases state.dtm.submission kv tx with
    | error e => rfl
    | ok stored => rfl

end Creation

/-! ### Running a request -/

section Runs

variable {state : ControlState} {kind : TransactionKind} {request : CompatTransactionRequest}
  {operation : CompatOperation} {i : Nat} {w : World} {Q : Transaction → World → Prop}
  {E : Err → World → Prop} {allow : Effect → World → Prop}

/-- **What `compat_apply` does when nothing is stored under the gid that it looks up.** -/
theorem runs_compatApply (hmissing : w.txs[trim request.gid]? = none)
    (created : ∀ now now' kind stored,
      state.compatCreation w.kv now request operation = .ok (kind, stored) →
      w.txs[request.gid]? = none → (alone allow).Runs (fun _ => True) i
        (state.compatDispatch kind operation request.waitResult none (trim request.gid)) Q E
        ((w.setClock now').put stored))
    (present : ∀ now now' kind stored e,
      state.compatCreation w.kv now request operation = .ok (kind, stored) →
      w.txs[request.gid]? ≠ none → E e (w.setClock now'))
    (refused : ∀ now now' e, state.compatCreation w.kv now request operation = .error e →
      E e (w.setClock now')) :
    (alone allow).Runs (fun _ => True) i (state.compatApply request operation) Q E w := by
  unfold ControlState.compatApply
  rw [Machine.runs_bind]
  refine runs_ofExcept_of (fun kind hkind => ?_) fun e he =>
    refused w.clock w.clock e (bind_of_error he)
  have hcreation (now : Nat) : state.compatCreation w.kv now request operation = _ :=
    bind_of_ok hkind
  dsimp only at hcreation ⊢
  rw [Machine.runs_bind]
  refine runs_ofExcept_of (fun completion hcompletion => ?_) fun e he =>
    refused w.clock w.clock e ((hcreation w.clock).trans (bind_of_error he))
  have hcreation now := (hcreation now).trans (bind_of_ok hcompletion)
  rw [Machine.runs_bind]
  refine runs_ofExcept_of (fun _ hgid => ?_) fun e he =>
    refused w.clock w.clock e ((hcreation w.clock).trans (bind_of_error he))
  have hcreation now := (hcreation now).trans (bind_of_ok hgid)
  rw [Machine.runs_bind]
  refine runs_call (fun _ => trivial) fun now _ _ => ?_
  simp only [InMemory.exec, InMemory.getTransaction, setClock_txs, hmissing, Option.isSome_none,
    Bool.or_false, Machine.runs_bind]
  refine runs_ofExcept_of (fun _ hcompletion => ?_) fun e he =>
    refused w.clock now e ((hcreation w.clock).trans (bind_of_error he))
  have hcreation now := (hcreation now).trans (bind_of_ok hcompletion)
  rw [ensure_eq_ok, Option.isNone_iff_eq_none] at hcompletion
  rw [hcompletion]
  simp only [Option.isSome_none, Bool.or_false]
  refine runs_ofExcept_of (fun _ hcallback => ?_) fun e he =>
    refused w.clock now e ((hcreation w.clock).trans (bind_of_error he))
  have hcreation now := (hcreation now).trans (bind_of_ok hcallback)
  simp only [Option.isNone_none, if_true, Machine.runs_bind]
  refine runs_currentMillis (fun _ => trivial) fun now' => ?_
  refine runs_ofExcept_of (fun tx htx => ?_) fun e he =>
    refused now' now' e ((hcreation now').trans (bind_of_error he))
  have hcreation := (hcreation now').trans (bind_of_ok htx)
  refine runs_submit (fun now'' stored hstored habsent => ?_)
    (fun now'' stored e hstored hpresent => ?_)
    fun now'' e he => refused now' now'' e (hcreation.trans (bind_of_error he))
  · have hcreated := hcreation.trans (bind_of_ok hstored)
    have hgid := (compatCreation_new hcreated).1.gid
    exact created now' now'' kind stored hcreated (hgid ▸ habsent)
  · have hcreated := hcreation.trans (bind_of_ok hstored)
    have hgid := (compatCreation_new hcreated).1.gid
    exact present now' now'' kind stored e hcreated (hgid ▸ hpresent)

theorem runs_loadMissing {gid : String} (hmissing : w.txs[gid]? = none)
    (hE : ∀ now e, E e (w.setClock now)) :
    (alone allow).Runs (fun _ => True) i (loadTransaction gid) Q E w :=
  runs_loadTransaction (fun _ => trivial)
    (fun _ tx htx => absurd (hmissing.symm.trans htx) (Option.some_ne_none tx).symm)
    fun now e _ => hE now e

/-- **An operation on a gid without a record changes nothing.** -/
theorem runs_compatDispatch_missing {waitResult : Bool} {gid : String}
    (hmissing : w.txs[gid]? = none) (hE : ∀ now e, E e (w.setClock now)) :
    (alone allow).Runs (fun _ => True) i (state.compatDispatch kind operation waitResult none gid)
      Q E w := by
  -- every operation begins by reading the record
  have load {k : Transaction → Act Transaction} :
      (alone allow).Runs (fun _ => True) i (loadTransaction gid >>= k) Q E w :=
    Machine.runs_bind.mpr (runs_loadMissing hmissing hE)
  have ofKind {kind : TransactionKind} {k : Transaction → Act Transaction} :
      (alone allow).Runs (fun _ => True) i (transactionOfKind gid kind >>= k) Q E w :=
    Machine.runs_bind.mpr (Machine.runs_bind.mpr (runs_loadMissing hmissing hE))
  have get : (alone allow).Runs (fun _ => True) i (do
      Act.ofOption (← Store.getTransaction gid) "transaction not found") Q E w := by
    refine Machine.runs_bind.mpr (runs_call (fun _ => trivial) fun now _ _ => ?_)
    simp only [InMemory.exec, InMemory.getTransaction, setClock_txs, hmissing]
    exact hE now _
  unfold ControlState.compatDispatch
  dsimp only
  split
  · exact load
  · exact load
  · cases kind with
    | saga => cases operation with
      | prepare => exact get
      | submit | abort => exact load
    | tcc => cases operation <;> exact load
    | xa => cases operation <;> exact ofKind
    | message => cases operation <;> exact ofKind
    | workflow => cases operation <;> exact ofKind

/-- **The Submit of a TCC or an XA that has just been submitted is refused.** -/
theorem runs_compatDispatch_refused {waitResult : Bool} {gid : String} {tx : Transaction}
    (hstored : w.txs[gid]? = some tx) (hkind : tx.kind = kind) (hstatus : tx.status = .submitted)
    (hk : kind = .tcc ∨ kind = .xa) (hE : ∀ now e, E e (w.setClock now)) :
    (alone allow).Runs (fun _ => True) i (state.compatDispatch kind .submit waitResult none gid)
      Q E w := by
  have hopen : ¬ tx.status = .succeeded := by
    rw [hstatus]
    decide
  have hprepared (now : Nat) (k : Unit → Act Transaction) :
      (alone allow).Runs (fun _ => True) i
        (Act.ofExcept (ensureStatus tx [.prepared, .succeeding]) >>= k) Q E (w.setClock now) := by
    refine Machine.runs_bind.mpr (runs_ofExcept_of (fun _ hallowed => ?_) fun e _ => hE now e)
    rw [ensureStatus_eq_ok, hstatus] at hallowed
    exact absurd hallowed (by decide)
  have hfound {tx' : Transaction} (h : w.txs[gid]? = some tx') : tx' = tx :=
    Option.some.inj (h.symm.trans hstored)
  unfold ControlState.compatDispatch
  dsimp only
  split
  · rw [Dtm.scheduleSubmit, Machine.runs_bind]
    refine runs_loadTransaction (fun _ => trivial) (fun now tx' htx' => ?_) fun now e _ => hE now e
    cases hfound htx'
    rw [if_neg hopen, Machine.runs_bind]
    refine runs_ofExcept_of (fun _ _ => ?_) fun e _ => hE now e
    rw [Machine.runs_bind]
    refine runs_ofExcept_of (fun _ hallowed => ?_) fun e _ => hE now e
    rw [ensureStatus_eq_ok, hstatus, hkind] at hallowed
    rcases hk with rfl | rfl
    · exact absurd hallowed (by decide)
    · exact absurd hallowed (by decide)
  · rename_i h
    cases h
  · rcases hk with rfl | rfl
    · show (alone allow).Runs (fun _ => True) i (state.dtm.confirmTcc gid) Q E w
      rw [Dtm.confirmTcc, Machine.runs_bind]
      refine runs_loadTransaction (fun _ => trivial) (fun now tx' htx' => ?_) fun now e _ =>
        hE now e
      cases hfound htx'
      rw [Machine.runs_bind]
      refine runs_ofExcept_of (fun _ _ => ?_) fun e _ => hE now e
      rw [if_neg hopen]
      exact hprepared now _
    · show (alone allow).Runs (fun _ => True) i (state.dtm.commitXa gid) Q E w
      rw [Dtm.commitXa, Machine.runs_bind]
      refine runs_transactionOfKind (fun _ => trivial) (fun now tx' htx' _ => ?_) hE
      cases hfound htx'
      rw [if_neg hopen]
      exact hprepared now _

end Runs

/-! ### The property -/

/-- What a request answers and leaves behind: nothing if it is rejected, and otherwise one
transaction more, which is the one that it looked up and answers with. -/
def NothingLeft (request : CompatTransactionRequest) (w : World) :
    Except Err Transaction → World → Prop
  | .error _, w' => ∀ gid : String, w'.txs[gid]? = w.txs[gid]?
  | .ok tx, w' => tx.gid = trim request.gid ∧ w.txs[tx.gid]? = none ∧ w'.txs[tx.gid]? ≠ none ∧
      ∀ gid : String, gid ≠ tx.gid → w'.txs[gid]? = w.txs[gid]?

/-- However the request runs alone in the store, it leaves nothing behind if it is rejected. -/
def ControlState.RejectsCleanly (state : ControlState) (request : CompatTransactionRequest)
    (operation : CompatOperation) (w : World) : Prop :=
  ∀ i r w', inMemory.Goes i (state.compatApply request operation).run w (some r) w' →
    NothingLeft request w r w'

/-- A request is applied to what it creates: its gid has no white space around it, and it is no
Submit of a TCC or an XA. -/
structure Applies (request : CompatTransactionRequest) (operation : CompatOperation)
    (kind : TransactionKind) : Prop where
  gid : trim request.gid = request.gid
  kind : operation = .submit → kind ≠ .tcc ∧ kind ≠ .xa

section Property

variable {state : ControlState} {kind : TransactionKind} {request : CompatTransactionRequest}
  {operation : CompatOperation} {i : Nat} {w : World} {stored : Transaction}

/-- **A request that is applied to what it creates leaves that behind, and succeeds.** -/
theorem runs_created {now : Nat} {allow : Effect → World → Prop}
    (hnew : NewRecord request.gid kind stored)
    (hcallback : operation = .submit → isCallbackWorkflow stored = false)
    (habsent : w.txs[request.gid]? = none) (happlies : Applies request operation kind) :
    (alone allow).Runs (fun _ => True) i
      (state.compatDispatch kind operation request.waitResult none (trim request.gid))
      (fun tx => NothingLeft request w (.ok tx)) (fun _ _ => False)
      ((w.setClock now).put stored) := by
  have hknown : KnownIn request.gid w stored ((w.setClock now).put stored) := by
    constructor
    · refine ⟨stored, ?_, .refl stored⟩
      rw [← hnew.gid]
      exact Std.ExtTreeMap.getElem?_insert_self
    · intro g hg
      have hne : stored.gid ≠ g := fun h => hg (h.symm.trans hnew.gid)
      show (w.txs.insert stored.gid stored)[g]? = w.txs[g]?
      rw [Std.ExtTreeMap.getElem?_insert, if_neg (mt Std.compare_eq_iff_eq.mp hne)]
  rw [happlies.gid]
  have hyields := @knowing_compatDispatch request.gid kind stored state operation
    request.waitResult hnew happlies.kind hcallback
  refine (runs_of_yields hyields hknown i).mono ?_ fun _ _ h => h
  rintro tx w' ⟨σ', hknown', hgid⟩
  have hgid : tx.gid = request.gid := hgid
  obtain ⟨⟨record, hrecord, -⟩, hothers⟩ := hknown'
  refine ⟨hgid.trans happlies.gid.symm, ?_, ?_, ?_⟩
  · rw [hgid]
    exact habsent
  · rw [hgid, hrecord]
    exact Option.some_ne_none record
  · rw [hgid]
    exact hothers

/-- **A request that is not leaves a record behind, and fails.** -/
theorem runs_left {now : Nat} {allow : Effect → World → Prop}
    (hnew : NewRecord request.gid kind stored) (habsent : w.txs[trim request.gid]? = none)
    (happlies : ¬ Applies request operation kind) :
    (alone allow).Runs (fun _ => True) i
      (state.compatDispatch kind operation request.waitResult none (trim request.gid))
      (fun _ _ => False) (fun _ w' => w'.txs[request.gid]? ≠ none)
      ((w.setClock now).put stored) := by
  have hput : (w.txs.insert stored.gid stored)[request.gid]? = some stored := by
    rw [← hnew.gid]
    exact Std.ExtTreeMap.getElem?_insert_self
  have hleft (now' : Nat) :
      (((w.setClock now).put stored).setClock now').txs[request.gid]? ≠ none := by
    show (w.txs.insert stored.gid stored)[request.gid]? ≠ none
    rw [hput]
    exact Option.some_ne_none stored
  by_cases hgid : trim request.gid = request.gid
  · have hk : operation = .submit ∧ (kind = .tcc ∨ kind = .xa) := by
      by_contra hk
      refine happlies ⟨hgid, fun hsubmit => ⟨fun htcc => hk ⟨hsubmit, .inl htcc⟩, fun hxa =>
        hk ⟨hsubmit, .inr hxa⟩⟩⟩
    rw [hgid, hk.1]
    exact runs_compatDispatch_refused hput hnew.ofKind hnew.status hk.2 fun now' _ => hleft now'
  · refine runs_compatDispatch_missing ?_ fun now' _ => hleft now'
    have hne : stored.gid ≠ trim request.gid := fun h => hgid (h.symm.trans hnew.gid)
    show (w.txs.insert stored.gid stored)[trim request.gid]? = none
    rw [Std.ExtTreeMap.getElem?_insert, if_neg (mt Std.compare_eq_iff_eq.mp hne)]
    exact habsent

/-- **When a rejected request leaves nothing behind**: when it is refused before anything is
inserted, or is applied to what it creates. -/
theorem rejected_request_iff (state : ControlState) (request : CompatTransactionRequest)
    (operation : CompatOperation) (w : World) (hmissing : w.txs[trim request.gid]? = none) :
    state.RejectsCleanly request operation w ↔
      ∀ kind stored, state.compatCreation w.kv 0 request operation = .ok (kind, stored) →
        w.txs[request.gid]? = none → Applies request operation kind := by
  constructor
  · intro hleaves kind stored hcreated habsent
    by_contra happlies
    -- at any other time the same is created
    have hat (now : Nat) : state.compatCreation w.kv now request operation =
        .ok (kind, stored.createdAt now) := by
      rw [compatCreation_createdAt now 0, hcreated]
      rfl
    have hruns : (alone fun _ _ => True).Runs (fun _ => True) 0
        (state.compatApply request operation) (fun _ _ => False)
        (fun _ w' => w'.txs[request.gid]? ≠ none) w := by
      refine runs_compatApply hmissing (fun now now' kind' stored' hcreated' _ => ?_)
        (fun _ _ _ _ _ _ hpresent => absurd habsent hpresent) fun now _ e he => ?_
      · have hsame := (hat now).symm.trans hcreated'
        cases hsame
        exact runs_left (compatCreation_new hcreated').1 hmissing happlies
      · exact nomatch (hat now).symm.trans he
    have : Nonempty Outcome := ⟨.ofOk true⟩
    obtain ⟨r, w', hgoes, hr⟩ := Machine.Ends.exists_goes (fun _ _ => trivial)
      (Machine.Ends.ofRestrict (fun _ _ => trivial) hruns)
    have hresult := hleaves 0 r w' hgoes
    cases r with
    | ok tx => exact hr
    | error e => exact hr ((hresult request.gid).trans habsent)
  · intro happlies i r w' hgoes
    have hruns : (alone fun _ _ => True).Runs (fun _ => True) i
        (state.compatApply request operation) (fun tx w' => NothingLeft request w (.ok tx) w')
        (fun e w' => NothingLeft request w (.error e) w') w := by
      refine runs_compatApply hmissing (fun now now' kind stored hcreated habsent => ?_)
        (fun _ _ _ _ _ _ _ _ => rfl) fun _ _ _ _ _ => rfl
      have hat : state.compatCreation w.kv 0 request operation =
          .ok (kind, stored.createdAt 0) := by
        rw [compatCreation_createdAt 0 now, hcreated]
        rfl
      obtain ⟨hnew, hcallback⟩ := compatCreation_new hcreated
      exact (runs_created hnew hcallback habsent (happlies kind _ hat habsent)).mono
        (fun _ _ h => h) fun _ _ h => h.elim
    refine Machine.Ends.sound (fun r w₁ w₂ h hd => ?_)
      (Machine.Ends.mono hruns fun r w' h => ?_) (hgoes.restrict fun _ _ => trivial)
    · obtain ⟨now, rfl⟩ := hd
      cases r with
      | ok tx => exact h
      | error e => exact h
    · cases r with
      | ok tx => exact h
      | error e => exact h

end Property

/-! ### Two requests on an empty store -/

/-- A request of a TCC without steps under a gid. -/
def tccRequest (gid : String) : CompatTransactionRequest :=
  { CompatTransactionRequest.default with gid, transType := "tcc", waitResult := true }

/-- The Prepare of a TCC is rejected by none of the checks, and creates it. -/
theorem rejected_request_tcc :
    ControlState.plain.RejectsCleanly (tccRequest "g") .prepare (World.initial []) := by
  refine (rejected_request_iff _ _ _ _ (by decide +kernel)).mpr fun kind stored _ _ => ?_
  exact ⟨by decide +kernel, fun h => nomatch h⟩

/-- A request that is rejected after its transaction has been inserted. -/
def LeavesBehind (request : CompatTransactionRequest) (operation : CompatOperation) : Bool :=
  (inMemory.finish? 0 (ControlState.plain.compatApply request operation).run (World.initial [])
    (List.replicate 8 (.ofOk true))).any fun r => !r.1.isOk && (r.2.txs[request.gid]?).isSome

theorem leavesBehind_goes {request : CompatTransactionRequest} {operation : CompatOperation}
    (h : LeavesBehind request operation = true) :
    ¬ ControlState.plain.RejectsCleanly request operation (World.initial []) := by
  intro hclean
  unfold LeavesBehind at h
  rw [Option.any_eq_true] at h
  obtain ⟨⟨r, w'⟩, hr, h⟩ := h
  obtain ⟨herror, hstored⟩ := (Bool.and_eq_true _ _).mp h
  have hleaves := hclean 0 r w' (Machine.goes_of_finish? hr)
  cases r with
  | ok tx => cases herror
  | error e =>
    have hempty : (World.initial []).txs[request.gid]? = none := Std.ExtTreeMap.getElem?_empty
    rw [show w'.txs[request.gid]? = none from (hleaves request.gid).trans hempty] at hstored
    cases hstored

/-- **The Submit of a TCC, and a request whose gid begins with a blank**, are rejected and leave
their transactions behind. -/
theorem rejected_request_left :
    (World.initial []).txs[trim (tccRequest "g").gid]? = none ∧
    ¬ ControlState.plain.RejectsCleanly (tccRequest "g") .submit (World.initial []) ∧
    (World.initial []).txs[trim (tccRequest " g").gid]? = none ∧
    ¬ ControlState.plain.RejectsCleanly (tccRequest " g") .prepare (World.initial []) :=
  ⟨by decide +kernel, leavesBehind_goes (by decide +kernel), by decide +kernel,
    leavesBehind_goes (by decide +kernel)⟩

end RozeDtm
