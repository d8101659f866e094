import RozeDtm.Model.Service.Compat
import RozeDtm.Trail.World

/-!
# The operations of the service write what has developed

The service brings in the transactions that it builds from requests (`Submits`) and the branches
that it builds from registrations (`Registers`); all else that it writes has developed from what
it has read.
-/

namespace RozeDtm

open Conc

namespace ControlState

variable (state : ControlState)

/-- The transactions that a request is submitted as. -/
inductive Submits : Transaction → Prop
  | compat {now : Nat} {kind : TransactionKind} {request : CompatTransactionRequest}
      {tx : Transaction} (h : state.compatSubmission now kind request = .ok tx) : Submits tx
  | native {now : Nat} {kind : TransactionKind} {request : SubmitTransactionRequest}
      {tx : Transaction} (h : state.buildTransaction now kind request = .ok tx) : Submits tx

/-- The branches that a request registers. -/
def Registers (branch : Branch) : Prop :=
  ∃ request, state.compatRegistrationFromRequest request = .ok (.branch branch)

end ControlState

section Service

variable {state : ControlState} {C : BranchCall → Prop} {I : Transaction → Prop}
  {R : String → Branch → Prop} {σ : Trail} {gid : String}

theorem developing_finishCallbackWorkflow {status : TransactionStatus}
    {reason result : Option String} :
    (developing C).Does (finishCallbackWorkflow gid status reason result) σ (fun _ _ => True) := by
  simp [finishCallbackWorkflow]

theorem developing_compatOperate (hC : ∀ c, C c) (kind : TransactionKind)
    (operation : CompatOperation) :
    (developing C).Does (state.compatOperate kind operation gid) σ (fun _ _ => True) := by
  cases kind <;> cases operation <;> simp only [ControlState.compatOperate]
  case saga.prepare =>
    simp only [Discipline.does_bind, developing_getTransaction, does_ofOption, implies_true,
      and_self]
  case saga.submit => exact developing_startSaga fun c _ => hC c
  case saga.abort => exact developing_abortSaga fun c _ => hC c
  case workflow.prepare => exact developing_prepareWorkflow
  case workflow.submit => exact developing_startWorkflow fun c _ => hC c
  case workflow.abort => exact developing_abortWorkflow fun c _ => hC c
  case message.prepare => exact developing_prepareMessage
  case message.submit => exact developing_dispatchMessage fun c _ => hC c
  case message.abort => exact developing_abortMessage
  case xa.prepare => exact developing_prepareXa
  case xa.submit => exact developing_commitXa fun c _ => hC c
  case xa.abort => exact developing_rollbackXa fun c _ => hC c
  case tcc.prepare => exact developing_prepareTcc fun c _ => hC c
  case tcc.submit => exact developing_confirmTcc fun c _ => hC c
  case tcc.abort => exact developing_cancelTcc fun c _ => hC c

theorem developing_compatDispatch (hC : ∀ c, C c) (kind : TransactionKind)
    (operation : CompatOperation) (waitResult : Bool)
    (completion : Option CallbackWorkflowCompletion) :
    (developing C).Does (state.compatDispatch kind operation waitResult completion gid) σ
      (fun _ _ => True) := by
  unfold ControlState.compatDispatch
  split
  · exact developing_finishCallbackWorkflow
  · split
    · exact developing_scheduleSubmit
    · exact developing_scheduleAbort
    · exact developing_compatOperate hC kind operation

theorem developing_compatApply (hC : ∀ c, C c)
    (hI : ∀ tx, state.Submits tx → ∀ tx', SubmittedAs tx tx' → I tx')
    (request : CompatTransactionRequest) (operation : CompatOperation) :
    (developingAnd C I R).Does (state.compatApply request operation) σ (fun _ _ => True) := by
  have hdispatch {σ : Trail} (kind : TransactionKind) (gid : String)
      (completion : Option CallbackWorkflowCompletion) :
      (developingAnd C I R).Does
        (state.compatDispatch kind operation request.waitResult completion gid) σ
        (fun _ _ => True) :=
    (developing_compatDispatch hC kind operation request.waitResult completion).le developing_le
  have hcreate {σ : Trail} (kind : TransactionKind) (gid : String)
      (completion : Option CallbackWorkflowCompletion) :
      (developingAnd C I R).Does (do
        let now ← currentMillis
        let transaction ← Act.ofExcept (state.compatSubmission now kind request)
        let _ ← state.dtm.submit transaction
        state.compatDispatch kind operation request.waitResult completion gid) σ
        (fun _ _ => True) := by
    rw [Discipline.does_bind]
    apply Discipline.Does.le developing_le
    rw [developing_currentMillis]
    intro now
    simp only [Discipline.does_bind, does_ofExcept]
    intro tx htx
    exact (developing_submit (hI tx (.compat htx))).mono fun _ _ _ => hdispatch kind gid completion
  simp only [ControlState.compatApply, Discipline.does_bind, does_ofExcept]
  intro kind _ completion _ _ _
  apply Discipline.Does.le developing_le
  rw [developing_getTransaction]
  constructor
  · intro _ _ _ _
    exact hcreate kind _ completion
  · intro existing _ _ _ _
    exact hdispatch kind _ completion

theorem developing_compatRegisterBranch (hR : ∀ gid branch, state.Registers branch → R gid branch)
    (request : CompatBranchRequest) :
    (developingAnd C I R).Does (state.compatRegisterBranch request) σ (fun _ _ => True) := by
  simp only [ControlState.compatRegisterBranch, ControlState.applyCompatRegistration,
    Discipline.does_bind, does_ofExcept]
  intro registration hregistration _ _
  cases registration with
  | branch branch => exact ⟨hR _ _ ⟨request, hregistration⟩, fun _ _ _ _ => trivial⟩
  | workflow progress => exact ⟨trivial, fun _ _ _ _ => trivial⟩

theorem developing_submitTransaction
    (hI : ∀ tx, state.Submits tx → ∀ tx', SubmittedAs tx tx' → I tx')
    (kind : TransactionKind) (request : SubmitTransactionRequest) :
    (developingAnd C I R).Does (state.submitTransaction kind request) σ (fun _ _ => True) := by
  simp only [ControlState.submitTransaction, Discipline.does_bind]
  apply Discipline.Does.le developing_le
  rw [developing_currentMillis]
  intro now
  rw [does_ofExcept]
  intro tx htx
  exact developing_submit (hI tx (.native htx))

/-- **Every operation of the service writes what has developed**, and brings in what it may. -/
theorem developing_service (hC : ∀ c, C c)
    (hI : ∀ tx, state.Submits tx → ∀ tx', SubmittedAs tx tx' → I tx')
    (hR : ∀ gid branch, state.Registers branch → R gid branch) (op : ServiceOperation) :
    (developingAnd C I R).Follows (op.prog state) σ (fun _ _ => True) := by
  have single {act : Act Transaction} (h : (developingAnd C I R).Does act σ (fun _ _ => True)) :
      (developingAnd C I R).Follows (ServiceOperation.one act).run σ (fun _ _ => True) := by
    have h' : (developingAnd C I R).Does (ServiceOperation.one act) σ (fun _ _ => True) :=
      Discipline.does_bind.mpr (h.mono fun _ _ _ => Discipline.does_pure.mpr trivial)
    exact h'.follows
  cases op with
  | compatApply request operation => exact single (developing_compatApply hC hI request operation)
  | registerBranch request => exact single (developing_compatRegisterBranch hR request)
  | submitTransaction kind request => exact single (developing_submitTransaction hI kind request)
  | coordinator op served => exact ((developing_act hC served).follows).le developing_le

/-- The same for every program of the service. -/
theorem developing_programs (hC : ∀ c, C c)
    (hI : ∀ tx, state.Submits tx → ∀ tx', SubmittedAs tx tx' → I tx')
    (hR : ∀ gid branch, state.Registers branch → R gid branch)
    {ops : ServiceOperation → Prop} (p : Prog effects (Except Err (List Transaction)))
    (hp : state.Programs ops p) : (developingAnd C I R).Follows p .start (fun _ _ => True) := by
  obtain ⟨op, -, rfl⟩ := hp
  exact developing_service hC hI hR op

end Service

end RozeDtm
