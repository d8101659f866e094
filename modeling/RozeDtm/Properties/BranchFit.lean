import RozeDtm.Model.Dependencies
import RozeDtm.Trail.Service

/-!
# Every branch fits its transaction

The branches that the service builds from a request are of the kind that belongs to the
transaction, with the URLs that phase 2 calls, and the dependencies of the transaction are
accepted.  Nothing that an operation writes changes this, and neither does a registration whose
branch is of the kind that belongs to the stored transaction.  The kind of a registration is that
of its request, though, and `append_dynamic_branch` does not compare it with the stored one.
-/

namespace RozeDtm

open Conc

/-- The kind of the branches that belong to a transaction. -/
def TransactionKind.branchKind : TransactionKind → BranchKind
  | .saga => .sagaAction
  | .workflow => .workflowAction
  | .message => .messageAction
  | .xa => .xaAction
  | .tcc => .tccTry

theorem TransactionKind.branchKind_injective : Function.Injective TransactionKind.branchKind := by
  intro kind kind' h
  cases kind <;> cases kind' <;> first | rfl | cases h

/-- The URLs that phase 2 calls, beside the action. -/
def Branch.phase2Urls (kind : TransactionKind) (b : Branch) : List (Option String) :=
  match kind with
  | .tcc | .xa => [b.confirm, b.cancel]
  | .saga | .workflow => [b.compensate]
  | .message => []

/-- There is a URL, and `parse_branch_url` accepts it. -/
def UrlLib.Accepts (url : UrlLib) (value : Option String) : Prop :=
  ∃ text u, value = some text ∧ parseBranchUrl url text = .ok u

/-- A branch that belongs to a transaction of a kind. -/
structure Branch.Fits (url : UrlLib) (kind : TransactionKind) (b : Branch) : Prop where
  ofKind : b.kind = kind.branchKind
  urls : ∀ value ∈ b.phase2Urls kind, url.Accepts value

/-- Whether a branch fits is decided by its kind and its URLs. -/
theorem Branch.Fits.congr {url : UrlLib} {kind : TransactionKind} {a b : Branch}
    (h : a.Fits url kind) (hk : b.kind = a.kind) (hcompensate : b.compensate = a.compensate)
    (hconfirm : b.confirm = a.confirm) (hcancel : b.cancel = a.cancel) : b.Fits url kind := by
  have hurls : b.phase2Urls kind = a.phase2Urls kind := by
    unfold Branch.phase2Urls
    rw [hcompensate, hconfirm, hcancel]
  refine ⟨hk.trans h.ofKind, ?_⟩
  rw [hurls]
  exact h.urls

/-- A transaction whose branches belong to it. -/
structure Transaction.Fits (url : UrlLib) (tx : Transaction) : Prop where
  branches : ∀ b ∈ tx.branches, b.Fits url tx.kind
  graph : tx.kind = .workflow ∨ tx.kind = .saga → validateTransactionDependencies tx = .ok ()

/-! ### What a request is built into -/

section Requests

variable {state : ControlState}

theorem accepts_of_validate {value : String} {u : Unit} (h : state.validate value = .ok u) :
    state.dtm.libs.url.Accepts (some value) := by
  unfold ControlState.validate BranchUrlPolicy.validate at h
  obtain ⟨parsed, hparsed, -⟩ := bind_eq_ok h
  exact ⟨value, parsed, rfl, hparsed⟩

theorem accepts_of_isOk {value : String} (h : (state.validate value).isOk = true) :
    state.dtm.libs.url.Accepts (some value) := by
  cases hv : state.validate value with
  | ok u => exact accepts_of_validate hv
  | error e =>
    rw [hv] at h
    cases h

theorem accepts_of_allowed {url : Option String} {value : String}
    (h : state.allowed url = some value) : state.dtm.libs.url.Accepts (some value) := by
  unfold ControlState.allowed at h
  rw [Option.filter_eq_some_iff] at h
  exact accepts_of_isOk h.2

theorem forall₂_of_mapM {α β : Type} {f : α → Except Err β} {l : List α} {bs : List β}
    (h : l.mapM f = .ok bs) : List.Forall₂ (fun a b => f a = .ok b) l bs := by
  induction l generalizing bs with
  | nil =>
    cases h
    exact .nil
  | cons a rest ih =>
    rw [List.mapM_cons] at h
    obtain ⟨b, hb, h⟩ := bind_eq_ok h
    obtain ⟨bs', hbs', h⟩ := bind_eq_ok h
    cases h
    exact .cons hb (ih hbs')

theorem compatBranch_fits {kind : TransactionKind} {request : CompatTransactionRequest}
    {step : Std.ExtTreeMap String String} {index : Nat} {b : Branch}
    (h : state.compatBranch kind request step index = .ok b) :
    b.Fits state.dtm.libs.url kind := by
  unfold ControlState.compatBranch at h
  obtain ⟨action, -, h⟩ := bind_eq_ok h
  cases kind with
  | saga =>
    obtain ⟨_, -, h⟩ := bind_eq_ok h
    obtain ⟨compensate, -, h⟩ := bind_eq_ok h
    obtain ⟨_, hcompensate, h⟩ := bind_eq_ok h
    cases h
    exact ⟨rfl, List.forall_mem_singleton.mpr (accepts_of_validate hcompensate)⟩
  | workflow =>
    obtain ⟨_, -, h⟩ := bind_eq_ok h
    obtain ⟨compensate, -, h⟩ := bind_eq_ok h
    obtain ⟨_, hcompensate, h⟩ := bind_eq_ok h
    cases h
    exact ⟨rfl, List.forall_mem_singleton.mpr (accepts_of_validate hcompensate)⟩
  | message =>
    have hb : b = Branch.message (Dtm.twoDigits (index + 1)) action
        (compatPayload state.dtm.libs request index) := by
      dsimp only at h
      split at h
      · obtain ⟨_, -, h⟩ := bind_eq_ok h
        cases h
        rfl
      · cases h
        rfl
    subst hb
    exact ⟨rfl, fun _ h => nomatch h⟩
  | tcc =>
    obtain ⟨_, -, h⟩ := bind_eq_ok h
    cases h
  | xa =>
    obtain ⟨_, -, h⟩ := bind_eq_ok h
    cases h

/-- A branch that a request describes has not been called. -/
theorem compatBranch_pending {kind : TransactionKind} {request : CompatTransactionRequest}
    {step : Std.ExtTreeMap String String} {index : Nat} {b : Branch}
    (h : state.compatBranch kind request step index = .ok b) : b.status = .pending := by
  unfold ControlState.compatBranch at h
  obtain ⟨action, -, h⟩ := bind_eq_ok h
  cases kind with
  | saga | workflow =>
    obtain ⟨_, -, h⟩ := bind_eq_ok h
    obtain ⟨compensate, -, h⟩ := bind_eq_ok h
    obtain ⟨_, -, h⟩ := bind_eq_ok h
    cases h
    rfl
  | message =>
    dsimp only at h
    split at h
    · obtain ⟨_, -, h⟩ := bind_eq_ok h
      cases h
      rfl
    · cases h
      rfl
  | tcc | xa =>
    obtain ⟨_, -, h⟩ := bind_eq_ok h
    cases h

/-- The branches are the same but for their dependencies. -/
def SameButOrder (branches bs : List Branch) : Prop :=
  List.Forall₂ (fun a b => b = { a with dependencies := b.dependencies }) branches bs

theorem SameButOrder.refl (branches : List Branch) : SameButOrder branches branches :=
  List.forall₂_same.mpr fun _ _ => rfl

/-- **What `orders` changes of the branches.** -/
theorem applyOrders_each {branches bs : List Branch} {orders : List (Nat × List Nat)}
    (h : ControlState.applyOrders branches orders = .ok bs) : SameButOrder branches bs := by
  induction orders generalizing branches with
  | nil =>
    cases h
    exact .refl bs
  | cons entry rest ih =>
    unfold ControlState.applyOrders at h
    obtain ⟨_, -, h⟩ := bind_eq_ok h
    obtain ⟨resolved, -, h⟩ := bind_eq_ok h
    have hmodify : SameButOrder branches
        (branches.modify entry.1 fun b => { b with dependencies := resolved }) := by
      refine List.forall₂_iff_get.mpr ⟨(List.length_modify ..).symm, fun i hi _ => ?_⟩
      simp only [List.get_eq_getElem, List.getElem_modify]
      split <;> rfl
    refine forall₂_trans (fun a b c hab hbc => ?_) hmodify (ih h)
    rw [hbc, hab]

theorem applyCompatSagaCustom_each {tx tx' : Transaction} {request : CompatTransactionRequest}
    (h : state.applyCompatSagaCustom tx request = .ok tx') :
    tx'.kind = tx.kind ∧ SameButOrder tx.branches tx'.branches := by
  have hsame : tx = tx' → tx'.kind = tx.kind ∧ SameButOrder tx.branches tx'.branches := by
    rintro rfl
    exact ⟨rfl, .refl tx.branches⟩
  unfold ControlState.applyCompatSagaCustom at h
  split at h
  · exact hsame (Except.ok.inj h)
  · split at h
    · exact hsame (Except.ok.inj h)
    · dsimp only at h
      split at h
      · exact hsame (Except.ok.inj h)
      · obtain ⟨custom, -, h⟩ := bind_eq_ok h
        obtain ⟨_, -, h⟩ := bind_eq_ok h
        obtain ⟨branches, hbranches, h⟩ := bind_eq_ok h
        cases h
        exact ⟨rfl, applyOrders_each hbranches⟩

theorem applyCompatMessageCustom_same {tx tx' : Transaction} {request : CompatTransactionRequest}
    (h : state.applyCompatMessageCustom tx request = .ok tx') :
    tx'.kind = tx.kind ∧ tx'.branches = tx.branches := by
  have hsame : tx = tx' → tx'.kind = tx.kind ∧ tx'.branches = tx.branches := by
    rintro rfl
    exact ⟨rfl, rfl⟩
  unfold ControlState.applyCompatMessageCustom at h
  split at h
  · exact hsame (Except.ok.inj h)
  · obtain ⟨value, -, h⟩ := bind_eq_ok h
    dsimp only at h
    split at h
    · exact hsame (Except.ok.inj h)
    · obtain ⟨custom, -, h⟩ := bind_eq_ok h
      split at h
      · obtain ⟨_, -, h⟩ := bind_eq_ok h
        cases h
        exact ⟨rfl, rfl⟩
      · exact hsame (Except.ok.inj h)

/-- What `compat_transaction` builds of the steps. -/
theorem compatTransaction_steps {now : Nat} {kind : TransactionKind}
    {request : CompatTransactionRequest} {tx : Transaction}
    (h : state.compatTransaction now kind request = .ok tx) :
    tx.kind = kind ∧ ∃ built,
      List.Forall₂ (fun step b => state.compatBranch kind request step.1 step.2 = .ok b)
        request.steps.zipIdx built ∧
      (SameButOrder built tx.branches ∨ (kind = .tcc ∨ kind = .xa) ∧ tx.branches = []) := by
  unfold ControlState.compatTransaction at h
  obtain ⟨built, hbuilt, h⟩ := bind_eq_ok h
  obtain ⟨options, -, h⟩ := bind_eq_ok h
  have hsteps := forall₂_of_mapM hbuilt
  cases kind with
  | saga =>
    obtain ⟨hk, heach⟩ := applyCompatSagaCustom_each h
    exact ⟨hk, built, hsteps, .inl heach⟩
  | message =>
    obtain ⟨hk, hbs⟩ := applyCompatMessageCustom_same h
    refine ⟨hk, built, hsteps, .inl ?_⟩
    rw [hbs]
    exact .refl built
  | workflow =>
    cases h
    exact ⟨rfl, built, hsteps, .inl (.refl built)⟩
  | tcc =>
    cases h
    exact ⟨rfl, built, hsteps, .inr ⟨.inl rfl, rfl⟩⟩
  | xa =>
    cases h
    exact ⟨rfl, built, hsteps, .inr ⟨.inr rfl, rfl⟩⟩

theorem compatTransaction_fits {now : Nat} {kind : TransactionKind}
    {request : CompatTransactionRequest} {tx : Transaction}
    (h : state.compatTransaction now kind request = .ok tx) :
    tx.kind = kind ∧ ∀ b ∈ tx.branches, b.Fits state.dtm.libs.url kind := by
  obtain ⟨hk, built, hsteps, hbranches⟩ := compatTransaction_steps h
  refine ⟨hk, fun b hb => ?_⟩
  rcases hbranches with hsame | ⟨-, hnone⟩
  · obtain ⟨a, ha, hab⟩ := exists_of_forall₂ hsame hb
    obtain ⟨step, -, hstep⟩ := exists_of_forall₂ hsteps ha
    rw [hab]
    exact (compatBranch_fits hstep).congr rfl rfl rfl rfl
  · rw [hnone] at hb
    cases hb

theorem compatTransaction_pending {now : Nat} {kind : TransactionKind}
    {request : CompatTransactionRequest} {tx : Transaction} {b : Branch}
    (h : state.compatTransaction now kind request = .ok tx) (hb : b ∈ tx.branches) : b.status = .pending := by
  obtain ⟨-, built, hsteps, hsame | ⟨-, hnone⟩⟩ := compatTransaction_steps h
  · obtain ⟨a, ha, hab⟩ := exists_of_forall₂ hsame hb
    obtain ⟨step, -, hstep⟩ := exists_of_forall₂ hsteps ha
    rw [hab]
    show a.status = .pending
    exact compatBranch_pending hstep
  · rw [hnone] at hb
    cases hb

/-- What comes after `compat_transaction` leaves the kind and the branches alone. -/
theorem compatSubmission_built {now : Nat} {kind : TransactionKind}
    {request : CompatTransactionRequest} {tx : Transaction}
    (h : state.compatSubmission now kind request = .ok tx) :
    ∃ built, state.compatTransaction now kind request = .ok built ∧
      tx.kind = built.kind ∧ tx.branches = built.branches := by
  unfold ControlState.compatSubmission at h
  obtain ⟨built, hbuilt, h⟩ := bind_eq_ok h
  have hreason : ∀ tx : Transaction,
      (ControlState.withRollbackReason tx request).kind = tx.kind ∧
        (ControlState.withRollbackReason tx request).branches = tx.branches := by
    intro tx
    unfold ControlState.withRollbackReason
    split <;> exact ⟨rfl, rfl⟩
  have hprepared : (state.preserveCompatMetadata
        (ControlState.withCompatTimeout built request) request).kind = built.kind ∧
      (state.preserveCompatMetadata
        (ControlState.withCompatTimeout built request) request).branches = built.branches := by
    unfold ControlState.preserveCompatMetadata ControlState.withCompatTimeout
    dsimp only
    split <;> exact ⟨rfl, rfl⟩
  refine ⟨built, hbuilt, ?_⟩
  dsimp only at h
  split at h
  · obtain ⟨callback, -, h⟩ := bind_eq_ok h
    obtain ⟨_, -, h⟩ := bind_eq_ok h
    cases h
    exact ⟨(hreason _).1.trans hprepared.1, (hreason _).2.trans hprepared.2⟩
  · cases h
    exact ⟨(hreason _).1.trans hprepared.1, (hreason _).2.trans hprepared.2⟩

theorem compatSubmission_fits {now : Nat} {kind : TransactionKind}
    {request : CompatTransactionRequest} {tx : Transaction}
    (h : state.compatSubmission now kind request = .ok tx) :
    tx.kind = kind ∧ ∀ b ∈ tx.branches, b.Fits state.dtm.libs.url kind := by
  obtain ⟨built, hbuilt, hkind, hbranches⟩ := compatSubmission_built h
  rw [hkind, hbranches]
  exact compatTransaction_fits hbuilt

theorem nativeBranch_fits {kind : TransactionKind} {request : BranchRequest} {b : Branch}
    (haction : kind ≠ .message → state.dtm.libs.url.Accepts (some request.action))
    (h : state.nativeBranch kind request = .ok b) : b.Fits state.dtm.libs.url kind := by
  unfold ControlState.nativeBranch at h
  -- the URLs that `allowed` lets through, and `require` asks for
  have hrequire {url : Option String} {text : String} {e : Err}
      (h : require (state.allowed url) e = .ok text) :
      state.dtm.libs.url.Accepts (some text) := by
    cases hurl : state.allowed url with
    | none =>
      rw [hurl] at h
      cases h
    | some text' =>
      rw [hurl] at h
      cases h
      exact accepts_of_allowed hurl
  cases kind with
  | tcc =>
    obtain ⟨_, -, h⟩ := bind_eq_ok h
    split at h
    · rename_i confirm cancel hconfirm hcancel
      cases h
      exact ⟨rfl, List.forall_mem_cons.mpr ⟨accepts_of_allowed hconfirm,
        List.forall_mem_singleton.mpr (accepts_of_allowed hcancel)⟩⟩
    · cases h
  | saga =>
    obtain ⟨_, -, h⟩ := bind_eq_ok h
    obtain ⟨compensate, hcompensate, h⟩ := bind_eq_ok h
    cases h
    exact ⟨rfl, List.forall_mem_singleton.mpr (hrequire hcompensate)⟩
  | workflow =>
    obtain ⟨compensate, hcompensate, h⟩ := bind_eq_ok h
    cases h
    exact ⟨rfl, List.forall_mem_singleton.mpr (hrequire hcompensate)⟩
  | message =>
    obtain ⟨_, -, h⟩ := bind_eq_ok h
    cases h
    exact ⟨rfl, fun _ h => nomatch h⟩
  | xa =>
    obtain ⟨rollback, hrollback, h⟩ := bind_eq_ok h
    cases h
    exact ⟨rfl, List.forall_mem_cons.mpr ⟨haction (by decide),
      List.forall_mem_singleton.mpr (hrequire hrollback)⟩⟩

theorem nativeBranch_pending {kind : TransactionKind} {request : BranchRequest} {b : Branch}
    (h : state.nativeBranch kind request = .ok b) : b.status = .pending := by
  unfold ControlState.nativeBranch at h
  cases kind with
  | tcc =>
    obtain ⟨_, -, h⟩ := bind_eq_ok h
    split at h
    · cases h
      rfl
    · cases h
  | saga =>
    obtain ⟨_, -, h⟩ := bind_eq_ok h
    obtain ⟨compensate, -, h⟩ := bind_eq_ok h
    cases h
    rfl
  | workflow | message | xa =>
    obtain ⟨_, -, h⟩ := bind_eq_ok h
    cases h
    rfl

theorem nativeBranches_fits {kind : TransactionKind} {ids : List String}
    {requests : List BranchRequest} {bs : List Branch}
    (h : state.nativeBranches kind ids requests = .ok bs) :
    ∀ b ∈ bs, b.Fits state.dtm.libs.url kind := by
  induction requests generalizing ids bs with
  | nil =>
    cases h
    intro b hb
    cases hb
  | cons request rest ih =>
    unfold ControlState.nativeBranches at h
    obtain ⟨_, hcheck, h⟩ := bind_eq_ok h
    obtain ⟨built, hbuilt, h⟩ := bind_eq_ok h
    obtain ⟨bs', hbs', h⟩ := bind_eq_ok h
    cases h
    have haction : kind ≠ .message → state.dtm.libs.url.Accepts (some request.action) := by
      intro hk
      apply accepts_of_isOk
      rw [ensure_eq_ok] at hcheck
      simp only [hk, decide_false, Bool.false_and, Bool.not_false, Bool.true_and, Bool.not_or,
        Bool.not_not, Bool.and_eq_true] at hcheck
      exact hcheck.2
    exact List.forall_mem_cons.mpr ⟨nativeBranch_fits haction hbuilt, ih hbs'⟩

theorem nativeBranches_pending {kind : TransactionKind} {ids : List String}
    {requests : List BranchRequest} {bs : List Branch}
    (h : state.nativeBranches kind ids requests = .ok bs) : ∀ b ∈ bs, b.status = .pending := by
  induction requests generalizing ids bs with
  | nil =>
    cases h
    intro b hb
    cases hb
  | cons request rest ih =>
    unfold ControlState.nativeBranches at h
    obtain ⟨_, -, h⟩ := bind_eq_ok h
    obtain ⟨built, hbuilt, h⟩ := bind_eq_ok h
    obtain ⟨bs', hbs', h⟩ := bind_eq_ok h
    cases h
    exact List.forall_mem_cons.mpr ⟨nativeBranch_pending hbuilt, ih hbs'⟩

/-- What the branches of a native request are built by. -/
theorem buildTransaction_built {now : Nat} {kind : TransactionKind}
    {request : SubmitTransactionRequest} {tx : Transaction}
    (h : state.buildTransaction now kind request = .ok tx) :
    tx.kind = kind ∧ request.branches ≠ [] ∧
      state.nativeBranches kind [] request.branches = .ok tx.branches := by
  unfold ControlState.buildTransaction at h
  obtain ⟨_, -, h⟩ := bind_eq_ok h
  obtain ⟨_, -, h⟩ := bind_eq_ok h
  obtain ⟨_, hcount, h⟩ := bind_eq_ok h
  obtain ⟨_, -, h⟩ := bind_eq_ok h
  obtain ⟨branches, hbranches, h⟩ := bind_eq_ok h
  obtain ⟨_, -, h⟩ := bind_eq_ok h
  obtain ⟨_, -, h⟩ := bind_eq_ok h
  obtain ⟨_, -, h⟩ := bind_eq_ok h
  have hne : request.branches ≠ [] := by
    rw [ensure_eq_ok, Bool.not_eq_true', Bool.or_eq_false_iff] at hcount
    exact fun hnil => absurd hcount.1 (by rw [hnil]; decide)
  split at h
  · obtain ⟨_, -, h⟩ := bind_eq_ok h
    cases h
    exact ⟨rfl, hne, hbranches⟩
  · cases h
    exact ⟨rfl, hne, hbranches⟩

theorem buildTransaction_fits {now : Nat} {kind : TransactionKind}
    {request : SubmitTransactionRequest} {tx : Transaction}
    (h : state.buildTransaction now kind request = .ok tx) :
    tx.kind = kind ∧ ∀ b ∈ tx.branches, b.Fits state.dtm.libs.url kind := by
  obtain ⟨hkind, -, hbranches⟩ := buildTransaction_built h
  exact ⟨hkind, nativeBranches_fits hbranches⟩

/-- **What a request is submitted as fits**, with the topics of a Message expanded. -/
theorem submits_fits {tx tx' : Transaction} (h : state.Submits tx) (hs : SubmittedAs tx tx') :
    tx'.Fits state.dtm.libs.url := by
  have hfits : ∀ b ∈ tx.branches, b.Fits state.dtm.libs.url tx.kind := by
    cases h with
    | compat h =>
      obtain ⟨rfl, hfits⟩ := compatSubmission_fits h
      exact hfits
    | native h =>
      obtain ⟨rfl, hfits⟩ := buildTransaction_fits h
      exact hfits
  refine ⟨fun b hb => ?_, fun hk => ?_⟩
  · obtain ⟨a, ha, hab⟩ := hs.each b hb
    rw [hs.kind, hab]
    exact (hfits a ha).congr rfl rfl rfl rfl
  · rw [hs.kind] at hk
    have hbs : tx'.branches = tx.branches := by
      apply hs.same
      rcases hk with hk | hk <;>
      · rw [hk]
        decide
    rw [validateTransactionDependencies_congr hs.kind hs.options]
    · exact hs.valid
    · rw [hbs]
      exact List.forall₂_same.mpr fun b _ => ⟨rfl, rfl⟩

/-- **What a request is submitted as has not been called.** -/
theorem submits_pending {tx tx' : Transaction} (h : state.Submits tx) (hs : SubmittedAs tx tx') :
    ∀ b ∈ tx'.branches, b.status = .pending := by
  have hpending : ∀ b ∈ tx.branches, b.status = .pending := by
    cases h with
    | compat h =>
      obtain ⟨built, hbuilt, -, hbranches⟩ := compatSubmission_built h
      rw [hbranches]
      exact fun b hb => compatTransaction_pending hbuilt hb
    | native h => exact nativeBranches_pending (buildTransaction_built h).2.2
  intro b hb
  obtain ⟨a, ha, hab⟩ := hs.each b hb
  rw [hab]
  exact hpending a ha

/-- What can be registered: a Try or an XA branch. -/
theorem registers_fits {branch : Branch} (h : state.Registers branch) :
    branch.Fits state.dtm.libs.url .tcc ∨ branch.Fits state.dtm.libs.url .xa := by
  obtain ⟨request, h⟩ := h
  unfold ControlState.compatRegistrationFromRequest at h
  obtain ⟨kind, -, h⟩ := bind_eq_ok h
  cases kind with
  | workflow =>
    -- a progress, not a branch
    dsimp only at h
    rw [if_pos rfl] at h
    split at h
    all_goals
      obtain ⟨_, -, h⟩ := bind_eq_ok h
      obtain ⟨_, -, h⟩ := bind_eq_ok h
      obtain ⟨_, -, h⟩ := bind_eq_ok h
      cases h
  | tcc =>
    obtain ⟨confirm, -, h⟩ := bind_eq_ok h
    obtain ⟨cancel, -, h⟩ := bind_eq_ok h
    obtain ⟨_, hvalid, h⟩ := bind_eq_ok h
    cases h
    rw [ensure_eq_ok, Bool.and_eq_true] at hvalid
    left
    exact ⟨rfl, List.forall_mem_cons.mpr ⟨accepts_of_isOk hvalid.1,
      List.forall_mem_singleton.mpr (accepts_of_isOk hvalid.2)⟩⟩
  | xa =>
    obtain ⟨url, -, h⟩ := bind_eq_ok h
    obtain ⟨_, hvalid, h⟩ := bind_eq_ok h
    cases h
    rw [ensure_eq_ok] at hvalid
    have hurl : state.dtm.libs.url.Accepts (some url) := accepts_of_isOk hvalid
    right
    exact ⟨rfl, List.forall_mem_cons.mpr ⟨hurl, List.forall_mem_singleton.mpr hurl⟩⟩
  | saga => cases h
  | message => cases h

end Requests

/-! ### The records -/

/-- A registration is of the kind that belongs to the stored transaction. -/
def Effect.ownKind (w : World) : Effect → Bool
  | .registerBranch gid branch => (w.txs[gid]?).all fun tx => branch.kind = tx.kind.branchKind
  | _ => true

/-- The condition on the steps of a run. -/
def OwnKind (o : Effect) (w : World) : Prop := o.ownKind w = true

/-- Branches that may be registered. -/
def Branch.Registrable (url : UrlLib) (b : Branch) : Prop := b.Fits url .tcc ∨ b.Fits url .xa

section Records

variable {url : UrlLib} {w : World} {gid : String} {branch : Branch} {tx tx' : Transaction}

/-- **A transaction goes on to fit** while it develops. -/
theorem lasting_fits (url : UrlLib) : Lasting fun _ tx => tx.Fits url where
  mono := fun _ h => h
  develops := by
    intro won tx tx' hd hfits
    refine ⟨fun b hb => ?_, fun hk => ?_⟩
    · obtain ⟨a, ha, hab⟩ := exists_of_forall₂ hd.branches hb
      rw [hd.kind]
      have hdef := hab.definition
      apply (hfits.branches a ha).congr
      · exact show b.definition.kind = a.definition.kind by rw [hdef]
      · exact Branch.compensate_eq hdef
      · exact show b.definition.confirm = a.definition.confirm by rw [hdef]
      · exact show b.definition.cancel = a.definition.cancel by rw [hdef]
    · have hnodes : List.Forall₂ SameNode tx.branches tx'.branches :=
        hd.branches.imp fun _ _ h =>
          ⟨Branch.id_eq h.definition, Branch.dependencies_eq h.definition⟩
      rw [validateTransactionDependencies_congr hd.kind hd.options hnodes]
      exact hfits.graph (hd.kind ▸ hk)

/-- A registration of its own kind is one at a TCC or at an XA. -/
theorem OwnKind.kind (ha : OwnKind (.registerBranch gid branch) w) (hR : branch.Registrable url)
    (htx : w.txs[gid]? = some tx) : branch.Fits url tx.kind ∧ (tx.kind = .tcc ∨ tx.kind = .xa) := by
  have hk : branch.kind = tx.kind.branchKind := by
    have h : ((w.txs[gid]?).all fun tx => branch.kind = tx.kind.branchKind) = true := ha
    rw [htx] at h
    exact of_decide_eq_true h
  rcases hR with hfits | hfits
  · have htcc : tx.kind = .tcc := TransactionKind.branchKind_injective (hk.symm.trans hfits.ofKind)
    rw [htcc]
    exact ⟨hfits, Or.inl rfl⟩
  · have hxa : tx.kind = .xa := TransactionKind.branchKind_injective (hk.symm.trans hfits.ofKind)
    rw [hxa]
    exact ⟨hfits, Or.inr rfl⟩

/-- **A registration of its own kind leaves a transaction that fits.** -/
theorem fits_registered {now : Nat} (hR : branch.Registrable url)
    (ha : OwnKind (.registerBranch gid branch) w) (htx : w.txs[gid]? = some tx)
    (hfits : tx.Fits url) (h : appendDynamicBranch now tx branch = .ok tx') : tx'.Fits url := by
  obtain ⟨hbranch, hkind⟩ := ha.kind hR htx
  rcases appendDynamicBranch_ok h with ⟨rfl, -⟩ | ⟨hamended, -, hbs⟩
  · exact hfits
  · constructor
    · rw [hbs, hamended.kind]
      intro b hb
      rcases List.mem_append.mp hb with hb | hb
      · exact hfits.branches b hb
      · rw [List.mem_singleton.mp hb]
        exact hbranch
    · rw [hamended.kind]
      intro hk
      rcases hkind with h | h <;> rw [h] at hk <;> exact absurd hk (by decide)

/-! ### Callback Workflows -/

/-- What makes a transaction a callback Workflow is as it was. -/
structure SameShape (tx tx' : Transaction) : Prop where
  kind : tx'.kind = tx.kind
  callback : tx.kind = .workflow →
    tx'.metadata["dtm.query_prepared"]? = tx.metadata["dtm.query_prepared"]? ∧
      tx'.branches.isEmpty = tx.branches.isEmpty

theorem SameShape.refl (tx : Transaction) : SameShape tx tx := ⟨rfl, fun _ => ⟨rfl, rfl⟩⟩

theorem SameShape.symm (h : SameShape tx tx') : SameShape tx' tx :=
  ⟨h.kind.symm, fun hk => (h.callback (h.kind ▸ hk)).imp Eq.symm Eq.symm⟩

theorem SameShape.trans {tx'' : Transaction} (h : SameShape tx tx') (h' : SameShape tx' tx'') :
    SameShape tx tx'' := by
  refine ⟨h'.kind.trans h.kind, fun hk => ?_⟩
  have h₁ := h.callback hk
  have h₂ := h'.callback (h.kind.trans hk)
  exact ⟨h₂.1.trans h₁.1, h₂.2.trans h₁.2⟩

theorem SameShape.isCallbackWorkflow (h : SameShape tx tx')
    (htx : isCallbackWorkflow tx = true) : isCallbackWorkflow tx' = true := by
  unfold RozeDtm.isCallbackWorkflow at htx ⊢
  have hk : tx.kind = .workflow := by
    rw [Bool.and_eq_true, Bool.and_eq_true, decide_eq_true_eq] at htx
    exact htx.1.1
  obtain ⟨hcallback, hbranches⟩ := h.callback hk
  rw [h.kind, hcallback, hbranches]
  exact htx

theorem Develops.sameShape {won : Set BranchBarrier} (h : Develops won tx tx') :
    SameShape tx tx' := by
  refine ⟨h.kind, fun _ => ⟨h.callback, ?_⟩⟩
  rw [Bool.eq_iff_iff, List.isEmpty_iff_length_eq_zero, List.isEmpty_iff_length_eq_zero,
    h.branches.length_eq]

/-- The stored records are shaped like those that were read. -/
def ShapesRead (σ : Trail) (w : World) : Prop :=
  ∀ tx ∈ σ.read, ∃ stored : Transaction, w.txs[tx.gid]? = some stored ∧ SameShape tx stored

/-- **The shape of a stored record through one step.** -/
theorem sameShape_exec {C : BranchCall → Prop} {I : Transaction → Prop} {σ : Trail} {o : Effect}
    (hread : ShapesRead σ w)
    (hp : (developingAnd C I fun _ branch => branch.Registrable url).pre σ o)
    (ha : OwnKind o w) (i : Nat) (c : Outcome) (htx : w.txs[gid]? = some tx) :
    ∃ tx' : Transaction, (InMemory.exec i o c w).2.txs[gid]? = some tx' ∧ SameShape tx tx' := by
  have hd : ∀ tx, o ≠ .deleteTransactionIfUnchanged tx := by
    rintro tx rfl
    exact hp
  rcases txs_step i c w gid hd with h | ⟨t, ho, hgid, h⟩ | ⟨t, ho, -, hnone, -⟩ |
    ⟨s, s', hs, hamends, h⟩
  · exact ⟨tx, h.trans htx, .refl tx⟩
  · subst ho
    obtain ⟨base, hbase, hdev⟩ : σ.From t := hp
    obtain ⟨stored, hstored, hshape⟩ := hread base hbase
    rw [← hdev.gid, hgid, htx] at hstored
    cases hstored
    exact ⟨_, h, hshape.symm.trans (hdev.trans (develops_bump w.clock t)).sameShape⟩
  · rw [hnone] at htx
    cases htx
  · cases hs.symm.trans htx
    apply Exists.intro s'
    refine ⟨h, ?_⟩
    by_cases hr : ∃ gid branch, o = .registerBranch gid branch
    · obtain ⟨gid', branch, rfl⟩ := hr
      obtain ⟨rfl, happend⟩ := hamends
      obtain ⟨-, hkind⟩ := ha.kind hp hs
      rcases appendDynamicBranch_ok happend with ⟨rfl, -⟩ | ⟨hamended, -, -⟩
      · exact .refl s'
      · refine ⟨hamended.kind, fun hk => ?_⟩
        rcases hkind with h | h <;> rw [h] at hk <;> exact absurd hk (by decide)
    · have hdev : Develops ∅ tx s' := hamends.develops fun gid branch h => hr ⟨gid, branch, h⟩
      exact hdev.sameShape

/-- A read adds a record that is stored. -/
theorem ShapesRead.next {σ : Trail} (hw : w.Keyed) (h : ShapesRead σ w) (i : Nat) (o : Effect)
    (c : Outcome) (hstays : ∀ (gid : String) (tx : Transaction), w.txs[gid]? = some tx →
      ∃ tx' : Transaction, (InMemory.exec i o c w).2.txs[gid]? = some tx' ∧ SameShape tx tx') :
    ShapesRead (σ.next o (InMemory.exec i o c w).1) (InMemory.exec i o c w).2 := by
  have hkept : ∀ tx ∈ σ.read, ∃ stored : Transaction,
      (InMemory.exec i o c w).2.txs[tx.gid]? = some stored ∧ SameShape tx stored := by
    intro tx htx
    obtain ⟨stored, hstored, hshape⟩ := h tx htx
    obtain ⟨stored', hstored', hshape'⟩ := hstays tx.gid stored hstored
    exact ⟨stored', hstored', hshape.trans hshape'⟩
  cases o with
  | getTransaction gid =>
    simp only [InMemory.exec, InMemory.getTransaction, Trail.next]
    split
    · rename_i tx htx
      intro tx' htx'
      rcases Set.mem_insert_iff.mp htx' with rfl | htx'
      · have hgid : tx'.gid = gid := hw gid tx' htx
        subst hgid
        exact ⟨tx', htx, .refl tx'⟩
      · exact hkept tx' htx'
    · exact hkept
  | invokeEnd call =>
    simp only [InMemory.exec, Trail.next]
    split <;> exact hkept
  | _ => exact hkept

/-- The outline for the shapes. -/
def shapeOutline (C : BranchCall → Prop) (I : Transaction → Prop) (url : UrlLib) :
    Outline (inMemory.restrict OwnKind)
      (developingAnd C I fun _ branch => branch.Registrable url) Trail.start where
  inv := World.Keyed
  own := fun _ σ w => ShapesRead σ w
  sees := fun _ _ _ _ _ => trivial
  inv_step := fun {_ i _ _} c hw _ _ _ => hw.exec i c
  own_step := fun {_ i _ o} c hw ho hp ha =>
    ho.next hw i o c fun _ _ htx => sameShape_exec ho hp ha.2 i c htx
  own_other := fun {_ i _ _} c {_ _} _ ho hp ha _ hj tx htx => by
    obtain ⟨stored, hstored, hshape⟩ := hj tx htx
    obtain ⟨stored', hstored', hshape'⟩ := sameShape_exec ho hp ha.2 i c hstored
    exact ⟨stored', hstored', hshape.trans hshape'⟩
  inv_drift := fun hw hd => by
    obtain ⟨now, rfl⟩ := hd
    exact hw
  own_drift := fun _ ho hd => by
    obtain ⟨now, rfl⟩ := hd
    exact ho

end Records

/-- A Workflow with a callback is stored under a gid. -/
def World.HoldsCallbackWorkflow (w : World) (gid : String) : Prop :=
  ∃ tx : Transaction, w.txs[gid]? = some tx ∧ isCallbackWorkflow tx = true

/-- **A Workflow that is prepared with a callback is submitted as a callback Workflow.** -/
theorem compatSubmission_callback {state : ControlState} {now : Nat}
    {request : CompatTransactionRequest} {tx : Transaction}
    (hquery : (nonEmpty request.queryPrepared).isSome = true)
    (h : state.compatSubmission now .workflow request = .ok tx) : isCallbackWorkflow tx = true := by
  unfold ControlState.compatSubmission at h
  obtain ⟨built, -, h⟩ := bind_eq_ok h
  dsimp only at h
  rw [if_pos (by rw [hquery]; rfl)] at h
  generalize state.preserveCompatMetadata _ request = prepared at h
  obtain ⟨callback, hcallback, h⟩ := bind_eq_ok h
  obtain ⟨_, -, h⟩ := bind_eq_ok h
  -- `workflow_callback_request` begins with the check
  unfold workflowCallbackRequest at hcallback
  obtain ⟨_, hcheck, -⟩ := bind_eq_ok hcallback
  obtain ⟨_, -, hwas⟩ := bind_eq_ok hcheck
  rw [ensure_eq_ok] at hwas
  cases h
  unfold ControlState.withRollbackReason
  split
  · have hkept : ∀ reason : String, (prepared.metadata.insert "rollback_reason"
        reason)["dtm.query_prepared"]? = prepared.metadata["dtm.query_prepared"]? := by
      intro reason
      rw [Std.ExtTreeMap.getElem?_insert]
      exact if_neg (by decide)
    refine Eq.trans ?_ hwas
    exact isCallbackWorkflow_congr rfl rfl (hkept _)
  · exact hwas

section Runs

variable {state : ControlState} {P Q : System}

/-- **Every branch fits its transaction**, in every run whose registrations are of the kind of
the stored transaction. -/
theorem branches_fit
    (hP : (inMemory.restrict OwnKind).Reaches (state.Programs fun _ => True) (World.initial []) P)
    (hQ : (inMemory.restrict OwnKind).Run (state.Programs fun _ => True) P Q) :
    (∀ (gid : String) (tx : Transaction), P.world.txs[gid]? = some tx →
      tx.Fits state.dtm.libs.url) ∧
    (∀ gid, P.world.HoldsCallbackWorkflow gid → Q.world.HoldsCallbackWorkflow gid) ∧
    ∀ (now : Nat) (request : CompatTransactionRequest) (tx tx' : Transaction),
      (nonEmpty request.queryPrepared).isSome = true →
      state.compatSubmission now .workflow request = .ok tx → SubmittedAs tx tx' →
      isCallbackWorkflow tx' = true := by
  have hstart : ∀ p, state.Programs (fun _ => True) p →
      (developingAnd (fun _ => True) (Transaction.Fits state.dtm.libs.url)
        fun _ branch => branch.Registrable state.dtm.libs.url).Follows p .start (fun _ _ => True) :=
    developing_programs (fun _ => trivial) (fun _ h _ h' => submits_fits h h')
      fun _ _ h => registers_fits h
  have hempty : ∀ gid : String, (World.initial []).txs[gid]? = none := by
    intro gid
    simp [World.initial]
  refine ⟨?_, ?_, ?_⟩
  · -- what is stored fits
    have hgood := Outline.good_of_reaches
      (lastingOutline (fun _ => True) (lasting_fits state.dtm.libs.url) (fun _ h => h)
        (fun hR ha htx hfits h => fits_registered hR ha htx hfits h))
      ⟨World.keyed_initial [], fun gid tx h => by rw [hempty gid] at h; cases h⟩
      (fun _ => .start _) hstart hP
    exact hgood.1.2
  · -- the shapes stay
    intro gid hcallback
    have hgood := Outline.good_of_reaches (shapeOutline (fun _ => True) _ state.dtm.libs.url)
      (World.keyed_initial []) (fun _ tx h => absurd h (Set.notMem_empty tx)) hstart hP
    apply hgood.stays (fun w => w.HoldsCallbackWorkflow gid) hstart _ _ hcallback hQ
    · rintro w i σ o c hw hown hp ha ⟨tx, htx, hc⟩
      obtain ⟨tx', htx', hshape⟩ := sameShape_exec hown hp ha.2 i c htx
      exact ⟨tx', htx', hshape.isCallbackWorkflow hc⟩
    · rintro w w' hw ⟨now, rfl⟩ h
      exact h
  · intro now request tx tx' hquery hbuilt hsubmitted
    rw [← compatSubmission_callback hquery hbuilt]
    apply isCallbackWorkflow_congr hsubmitted.kind
    · apply hsubmitted.same
      rw [(compatSubmission_fits hbuilt).1]
      decide
    · rw [hsubmitted.metadata]

end Runs

instance (o : Effect) (w : World) : Decidable ((inMemory.restrict OwnKind).allow o w) :=
  inferInstanceAs (Decidable (True ∧ o.ownKind w = true))

/-- A TCC is prepared under "g" and the Try of a branch registered at it. -/
def tccMoves : List (Move ServiceOperation Outcome) :=
  [.start (.compatApply { CompatTransactionRequest.default with gid := "g", transType := "tcc" }
      .prepare),
    .start (.registerBranch ⟨"g", "tcc", "b", none, none, none, some "http://b/confirm",
      some "http://b/cancel", none, none⟩)] ++
  List.replicate 5 (.exec 0 (.ofOk true)) ++ [.exec 1 (.ofOk true)]

/-- The same at a TCC. -/
theorem branches_fit_tcc : ∃ P : System,
    ((P.world.txs["g"]?).any fun tx => tx.branches.length = 1) = true ∧
    ∀ (gid : String) (tx : Transaction), P.world.txs[gid]? = some tx →
      tx.Fits Libs.plain.url := by
  obtain ⟨P, hP, hφ⟩ := ControlState.exists_run (inMemory.restrict OwnKind) .plain
    (fun _ => True) (World.initial []) tccMoves
    (fun w => (w.txs["g"]?).any fun tx => tx.branches.length = 1) (fun _ _ => trivial)
    (by decide +kernel)
  exact ⟨P, hφ, (branches_fit hP .refl).1⟩

/-- A Workflow with one branch is submitted under "g", and then the Try of a branch registered
there. -/
def mixedMoves : List (Move ServiceOperation Outcome) :=
  [.start (.submitTransaction .workflow ⟨"g", none, [⟨"a", none, "http://a", some "http://a/undo",
      none, none, .null, []⟩], none, ∅, .default⟩),
    .start (.registerBranch ⟨"g", "tcc", "b", none, none, none, some "http://b/confirm",
      some "http://b/cancel", none, none⟩)] ++
  List.replicate 2 (.exec 0 (.ofOk true)) ++ [.exec 1 (.ofOk true)]

/-- **A Workflow with a Try.** -/
theorem try_in_workflow : ∃ P : System,
    inMemory.Reaches (ControlState.plain.Programs fun _ => True) (World.initial []) P ∧
    ∃ tx : Transaction, P.world.txs["g"]? = some tx ∧ ¬tx.Fits Libs.plain.url := by
  obtain ⟨P, hP, hφ⟩ := ControlState.exists_run inMemory .plain (fun _ => True)
    (World.initial []) mixedMoves
    (fun w => (w.txs["g"]?).any fun tx => tx.kind = .workflow &&
      tx.branches.any fun b => b.kind = .tccTry)
    (fun _ _ => trivial) (by decide +kernel)
  rw [Option.any_eq_true] at hφ
  obtain ⟨tx, htx, h⟩ := hφ
  rw [Bool.and_eq_true, decide_eq_true_eq, List.any_eq_true] at h
  obtain ⟨hk, b, hb, htry⟩ := h
  refine ⟨P, hP, tx, htx, fun hfits => ?_⟩
  have hkind : b.kind = tx.kind.branchKind := (hfits.branches b hb).ofKind
  rw [of_decide_eq_true htry, hk] at hkind
  cases hkind

end RozeDtm
