import RozeDtm.Conc.Among
import RozeDtm.Properties.RegistrationsKept
import RozeDtm.Session.Awaiting

/-!
# The first completion wins

A callback Workflow is completed by its client, by an answer of its callback, or by its
timeout, whichever comes first.  From then on its record does not change, and whoever comes
later gets that record and no error, at any interleaving of any number of the operations that
may complete it (`first_completion_wins`).
-/

namespace RozeDtm

open Conc

/-- The operations that complete a callback Workflow, or report on it. -/
def Operation.Completes : Operation → Prop
  | .finishCallbackWorkflow _ _ _ _ | .recordWorkflowProgress _ _ | .recoverCallbackWorkflow _
  | .tickRecoverOnce => True
  | _ => False

/-- A callback that reports a failure gives a reason that a completion may have. -/
def Outcome.Short (c : Outcome) : Prop :=
  match c.callback with
  | .ok (.failed (some reason)) => reason.utf8ByteSize ≤ 4096
  | _ => True

/-- The in-memory store, with callbacks that keep their reasons short. -/
abbrev completing : Machine effects World {c : Outcome // c.Short} := inMemory.picking Outcome.Short

instance (o : Effect) (w : World) : Decidable (completing.allow o w) :=
  inferInstanceAs (Decidable True)

/-- The delays that `defer_callback_workflow` asks for are valid. -/
structure Dtm.DelaysWell (dtm : Dtm) (options : TransactionOptions) : Prop where
  interval : options.retryIntervalMillis.getD dtm.options.retryBackoffMillis ≤ 86400000
  bound : dtm.options.maxRetryBackoffMillis ≤ 86400000

section Records

variable {s s' : Transaction} {now : Nat}

theorem Awaited.prepared (h : Awaited s) (hlive : s.status.isTerminal = false) :
    s.status = .prepared := h.status.resolve_right (by simp [hlive])

theorem Awaited.kind (h : Awaited s) : s.kind = .workflow := by
  have hc := h.callback
  simp only [isCallbackWorkflow, Bool.and_eq_true, decide_eq_true_eq] at hc
  exact hc.1.1

theorem Awaited.ensure (h : Awaited s) : ensureCallbackWorkflow s = .ok () := by
  rw [ensureCallbackWorkflow, h.kind, h.callback]
  rfl

/-- How the record of a callback Workflow changes: it stays once it is complete. -/
structure Advances (s s' : Transaction) : Prop where
  awaited : Awaited s'
  options : s'.options = s.options
  gid : s'.gid = s.gid
  progresses : s.workflowProgresses ⊆ s'.workflowProgresses
  final : s.status.isTerminal = true → s' = s

theorem Advances.refl (h : Awaited s) : Advances s s :=
  ⟨h, rfl, rfl, fun _ => id, fun _ => rfl⟩

/-- What an accepted completion makes of the record. -/
theorem Awaited.complete {status : TransactionStatus} {reason result : Option String}
    (hs : Awaited s) (h : applyWorkflowCompletion now s status reason result = .ok s') :
    Advances s s' ∧ s'.status = status ∧ s'.status.isTerminal = true := by
  rw [applyWorkflowCompletion] at h
  obtain ⟨_, -, h⟩ := bind_eq_ok h
  obtain ⟨_, hst, h⟩ := bind_eq_ok h
  obtain ⟨_, -, h⟩ := bind_eq_ok h
  obtain ⟨_, -, h⟩ := bind_eq_ok h
  have hterminal : status.isTerminal = true := by
    rw [ensure_eq_ok, Bool.or_eq_true, decide_eq_true_eq, decide_eq_true_eq] at hst
    rcases hst with rfl | rfl <;> rfl
  split at h
  · rename_i hlive
    obtain ⟨_, heq, h⟩ := bind_eq_ok h
    rw [ensure_eq_ok, Bool.and_eq_true, Bool.and_eq_true, decide_eq_true_eq] at heq
    cases h
    exact ⟨.refl hs, heq.1.1, hlive⟩
  · rename_i hlive
    obtain ⟨_, -, h⟩ := bind_eq_ok h
    cases h
    refine ⟨⟨⟨?_, Or.inr hterminal⟩, rfl, rfl, fun _ => id, fun h => absurd h hlive⟩, rfl,
      hterminal⟩
    rw [← hs.callback]
    refine isCallbackWorkflow_congr rfl rfl ?_
    exact (getElem?_putOrRemove (by decide)).trans (getElem?_putOrRemove (by decide))

theorem Awaited.progress {progress : WorkflowProgress} (hs : Awaited s)
    (h : appendWorkflowProgress now s progress = .ok s') : Advances s s' := by
  rcases appendWorkflowProgress_ok h with ⟨rfl, -⟩ | ⟨ha, hst, hp⟩
  · exact .refl hs
  · have hlive := ha.live
    rw [appendWorkflowProgress] at h
    obtain ⟨_, -, h⟩ := bind_eq_ok h
    obtain ⟨_, -, h⟩ := bind_eq_ok h
    obtain ⟨_, -, h⟩ := bind_eq_ok h
    split at h
    · obtain ⟨_, -, h⟩ := bind_eq_ok h
      cases h
      exact .refl hs
    · obtain ⟨_, -, h⟩ := bind_eq_ok h
      obtain ⟨_, -, h⟩ := bind_eq_ok h
      obtain ⟨_, -, h⟩ := bind_eq_ok h
      cases h
      refine ⟨⟨?_, hs.status⟩, rfl, rfl, List.subset_append_left .., fun h => ?_⟩
      · rw [← hs.callback]
        exact isCallbackWorkflow_congr rfl rfl rfl
      · rw [hlive] at h
        cases h

theorem Awaited.defer {delay : WorkflowRecoveryDelay} (hs : Awaited s)
    (h : deferWorkflowRecovery now s delay = .ok s') : Advances s s' := by
  have hlive := (deferWorkflowRecovery_ok h).1.live
  rw [deferWorkflowRecovery] at h
  obtain ⟨_, -, h⟩ := bind_eq_ok h
  obtain ⟨_, -, h⟩ := bind_eq_ok h
  obtain ⟨_, -, h⟩ := bind_eq_ok h
  cases h
  refine ⟨⟨?_, hs.status⟩, rfl, rfl, fun _ => id, fun h => ?_⟩
  · rw [← hs.callback]
    refine isCallbackWorkflow_congr rfl rfl ?_
    simp [bumpTransactionRevision, Std.ExtTreeMap.getElem?_insert]
  · rw [hlive] at h
    cases h

/-- A completion with a short reason is refused only where there is one already. -/
theorem Awaited.finish_error {reason : String} {e : Err} (hs : Awaited s)
    (hr : reason.utf8ByteSize ≤ 4096)
    (h : applyWorkflowCompletion now s .failed (some reason) none = .error e) :
    s.status.isTerminal = true := by
  by_contra hlive
  have hst := hs.prepared (by simpa using hlive)
  rw [applyWorkflowCompletion, hs.ensure] at h
  simp [hr, hst, TransactionStatus.isTerminal, ensureStatus, RozeDtm.ensure, bind, Except.bind,
    pure, Except.pure] at h

/-- So is a valid deferral. -/
theorem Awaited.defer_error {delay : WorkflowRecoveryDelay} {e : Err} (hs : Awaited s)
    (hv : delay.validate = .ok ()) (h : deferWorkflowRecovery now s delay = .error e) :
    s.status.isTerminal = true := by
  by_contra hlive
  have hst := hs.prepared (by simpa using hlive)
  rw [deferWorkflowRecovery, hs.ensure, hv] at h
  simp [hst, ensureStatus, RozeDtm.ensure, bind, Except.bind, pure, Except.pure] at h

end Records

/-! ### The record along a run -/

/-- What holds of the callback Workflow `g` that was submitted with `options`. -/
structure CompletionInv (g : String) (options : TransactionOptions) (w : World) : Prop where
  keyed : w.Keyed
  stored : ∃ s, w.txs[g]? = some s ∧ Awaited s ∧ s.options = options
  progresses : ∀ i p, (i, .progressed g p) ∈ w.history →
    ∃ s, w.txs[g]? = some s ∧ p ∈ s.workflowProgresses

/-- The record of `g` is complete, and it is `s`. -/
def CompletedAs (g : String) (s : Transaction) (w : World) : Prop :=
  w.txs[g]? = some s ∧ s.status.isTerminal = true

section Steps

variable {g : String} {options : TransactionOptions} {w : World} {t : Unit} {o : Effect}

theorem awaiting_not_delete (hp : (awaiting g).pre t o) (tx : Transaction) :
    o ≠ .deleteTransactionIfUnchanged tx := by
  rintro rfl
  exact hp

theorem Amends.advances {now : Nat} {s s' : Transaction} (ha : Amends now g s s' o)
    (hp : (awaiting g).pre t o) (hs : Awaited s) : Advances s s' := by
  cases o with
  | registerBranch gid branch => exact absurd ha.1 hp
  | recordWorkflowProgress gid progress => exact hs.progress ha.2
  | finishWorkflow gid status reason result => exact (hs.complete ha.2).1
  | deferWorkflowRecovery gid delay => exact hs.defer ha.2
  | _ => exact ha.elim

/-- **The record of `g` through one step.** -/
theorem advances_step (hp : (awaiting g).pre t o) (i : Nat) (c : Outcome) {s : Transaction}
    (hs : w.txs[g]? = some s) (ha : Awaited s) :
    ∃ s', (InMemory.exec i o c w).2.txs[g]? = some s' ∧ Advances s s' := by
  rcases txs_step i c w g (awaiting_not_delete hp) with h | ⟨tx, rfl, htx, -⟩ |
    ⟨tx, rfl, htx, -, -⟩ | ⟨s₁, s', hs₁, hm, h⟩
  · exact ⟨s, h.trans hs, .refl ha⟩
  · exact absurd htx hp
  · exact absurd htx hp
  · cases hs.symm.trans hs₁
    exact ⟨s', h, hm.advances hp ha⟩

theorem CompletionInv.exec (hw : CompletionInv g options w) (hp : (awaiting g).pre t o) (i : Nat)
    (c : Outcome) : CompletionInv g options (InMemory.exec i o c w).2 := by
  obtain ⟨s, hs, ha, ho⟩ := hw.stored
  obtain ⟨s', hs', hadv⟩ := advances_step hp i c hs ha
  refine ⟨hw.keyed.exec i c, ⟨s', hs', hadv.awaited, hadv.options.trans ho⟩, fun j p hj => ?_⟩
  by_cases hold : (j, .progressed g p) ∈ w.history
  · obtain ⟨s₁, hs₁, hm⟩ := hw.progresses j p hold
    cases hs.symm.trans hs₁
    exact ⟨s', hs', hadv.progresses hm⟩
  · -- the progress was accepted in this step
    have he := (mem_history_step hj).resolve_left hold
    cases o with
    | recordWorkflowProgress gid progress =>
      cases he
      exact progressed_now fun h => hold (h ▸ hj)
    | barrier b =>
      obtain ⟨d, hd⟩ := he
      cases hd
    | invokeEnd call =>
      obtain ⟨ok, hok⟩ := he
      cases hok
    | _ => cases he

theorem CompletedAs.exec {s : Transaction} (hw : CompletionInv g options w)
    (hp : (awaiting g).pre t o) (hs : CompletedAs g s w) (i : Nat) (c : Outcome) :
    CompletedAs g s (InMemory.exec i o c w).2 := by
  obtain ⟨s₁, hs₁, ha, -⟩ := hw.stored
  cases hs.1.symm.trans hs₁
  obtain ⟨s', hs', hadv⟩ := advances_step hp i c hs.1 ha
  exact ⟨(hadv.final hs.2) ▸ hs', hs.2⟩

theorem CompletionInv.setClock (hw : CompletionInv g options w) (now : Nat) :
    CompletionInv g options { w with clock := now } :=
  ⟨hw.keyed, hw.stored, hw.progresses⟩

/-- The outline of the operations that leave `g` to its completion. -/
def completionOutline (g : String) (options : TransactionOptions) :
    Outline completing (awaiting g) () where
  inv := CompletionInv g options
  own := fun _ _ _ => True
  sees := fun {w i t o} c hw _ hp _ => by
    cases o with
    | getTransaction gid =>
      intro tx htx
      exact hw.keyed gid tx htx
    | listTransactions =>
      intro tx htx hg
      obtain ⟨gid, hgid⟩ := InMemory.mem_listTransactions htx
      obtain ⟨s, hs, ha, -⟩ := hw.stored
      rw [← hg, hw.keyed gid tx hgid] at hs
      cases hs.symm.trans hgid
      exact ha
    | _ => trivial
  inv_step := fun {_ i _ _} c hw _ hp _ => hw.exec hp i c.1
  own_step := fun _ _ _ _ _ => trivial
  own_other := fun _ _ _ _ _ _ _ _ _ => trivial
  inv_drift := fun hw hd => by
    obtain ⟨now, rfl⟩ := hd
    exact hw.setClock now
  own_drift := fun _ _ _ => trivial

/-- **Each of the operations leaves `g` to its completion.** -/
theorem follows_completes {dtm : Dtm} {p : Prog effects (Except Err (List Transaction))}
    (hp : dtm.Programs Operation.Completes p) :
    (awaiting g).Follows p () (fun _ _ => True) := by
  obtain ⟨op, hop, rfl⟩ := hp
  have close {act : Act Transaction} (h : (awaiting g).Does act () (fun _ _ => True)) :
      (awaiting g).Follows (Operation.act.one act).run () (fun _ _ => True) := by
    have hone : (awaiting g).Does (Operation.act.one act) () (fun _ _ => True) :=
      Discipline.does_bind.mpr (h.mono fun _ _ _ => Discipline.does_pure.mpr trivial)
    exact hone.follows
  cases op with
  | finishCallbackWorkflow gid status reason result =>
    refine close (Discipline.does_bind.mpr (awaiting_call.mpr ⟨trivial, fun r _ => ?_⟩))
    exact fun _ _ => trivial
  | recordWorkflowProgress gid progress => exact close ⟨trivial, fun _ _ _ _ => trivial⟩
  | recoverCallbackWorkflow gid => exact close awaiting_recoverCallbackWorkflow
  | tickRecoverOnce => exact awaiting_tickRecoverOnce.follows
  | _ => exact hop.elim

/-- The same for a program among any number of them. -/
def completionSolo (dtm : Dtm) (g : String) (options : TransactionOptions) :
    Solo (completing.among (dtm.Programs Operation.Completes)) (awaiting g) () :=
  (completionOutline g options).solo (fun _ _ _ => trivial) fun _ => follows_completes

end Steps

/-! ### Recovery among others -/

section Recovery

variable {dtm : Dtm} {g : String} {options : TransactionOptions} {P P' : System} {i : Nat}

/-- The operations around the Workflow `g` keep to the discipline. -/
abbrev AmidCompletions (g : String) (options : TransactionOptions) (P : System) : Prop :=
  (completionOutline g options).Good P

theorem CompletedAs.step {s : Transaction} (hP : AmidCompletions g options P)
    (hs : CompletedAs g s P.world)
    (hstep : completing.Step (dtm.Programs Operation.Completes) P P') :
    CompletedAs g s P'.world :=
  hP.stays (CompletedAs g s) (fun _ => follows_completes)
    (fun c hinv _ hp _ hφ => hφ.exec hinv hp _ c.1)
    (fun _ hd hφ => by obtain ⟨now, rfl⟩ := hd; exact hφ) hs (.single hstep)

/-- What the others do in between. -/
theorem amid_drifts (hP : AmidCompletions g options P)
    (hd : (completing.among (dtm.Programs Operation.Completes)).Drifts P P') :
    AmidCompletions g options P' ∧ ∀ s, CompletedAs g s P.world → CompletedAs g s P'.world := by
  induction hd with
  | refl => exact ⟨hP, fun _ => id⟩
  | tail _ hstep ih =>
    exact ⟨(completionSolo dtm g options).inv_drift ih.1 hstep,
      fun s hs => (ih.2 s hs).step ih.1 hstep⟩

variable (dtm g) in
/-- A part of an operation, among others, returns the record as it is then stored. -/
def ReturnsStored (i : Nat) (x : Act Transaction) (P : System) : Prop :=
  (completing.among (dtm.Programs Operation.Completes)).Runs (fun _ => True) i x
    (fun tx P => P.world.txs[g]? = some tx) (fun _ _ => False) P

/-- **One step among others.** -/
theorem amid_call {α : Type} {o : Effect} {f : o.Reply → Act α} {Q : α → System → Prop}
    {E : Err → System → Prop} (hP : AmidCompletions g options P) (hp : (awaiting g).pre () o)
    (h : ∀ (P₁ : System) (c : {c : Outcome // c.Short}), AmidCompletions g options P₁ →
      (∀ s, CompletedAs g s P.world → CompletedAs g s P₁.world) →
      ∀ P₂, AmidCompletions g options P₂ → P₂.world = (InMemory.exec i o c.1 P₁.world).2 →
        (completing.among (dtm.Programs Operation.Completes)).Runs (fun _ => True) i
          (f (InMemory.exec i o c.1 P₁.world).1) Q E P₂) :
    (completing.among (dtm.Programs Operation.Completes)).Runs (fun _ => True) i
      (Act.call o >>= f) Q E P := by
  refine Machine.runs_bind.mpr (Machine.runs_perform.mpr fun P₁ hd => ⟨trivial, fun ha c => ?_⟩)
  obtain ⟨hP₁, hstay⟩ := amid_drifts hP hd
  exact h P₁ c hP₁ hstay _ ((completionSolo dtm g options).inv_step c hP₁ trivial hp ha) rfl

/-- Loading the record. -/
theorem amid_load {α : Type} {f : Transaction → Act α} {Q : α → System → Prop}
    {E : Err → System → Prop} (hP : AmidCompletions g options P)
    (h : ∀ P₂ s, AmidCompletions g options P₂ → P₂.world.txs[g]? = some s → Awaited s →
      s.options = options → s.gid = g → (∀ s', CompletedAs g s' P.world → s = s') →
      (completing.among (dtm.Programs Operation.Completes)).Runs (fun _ => True) i (f s) Q E P₂) :
    (completing.among (dtm.Programs Operation.Completes)).Runs (fun _ => True) i
      (loadTransaction g >>= f) Q E P := by
  refine Machine.runs_bind.mpr (amid_call hP trivial fun P₁ c hP₁ hstay P₂ hP₂ hw => ?_)
  obtain ⟨s, hs, ha, ho⟩ := hP₁.1.stored
  have hstored : P₂.world.txs[g]? = some s := by
    rw [hw]
    exact hs
  have hreply : (InMemory.exec i (.getTransaction g) c.1 P₁.world).1 = some s := hs
  rw [hreply]
  exact h P₂ s hP₂ hstored ha ho (hP₁.1.keyed g s hs)
    fun s' hs' => Option.some.inj (hs.symm.trans (hstay s' hs').1)

/-- `terminal_after_conflict`, once there is a completion. -/
theorem amid_terminalAfterConflict {s : Transaction} {e : Err} (hP : AmidCompletions g options P)
    (hs : CompletedAs g s P.world) :
    ReturnsStored dtm g i (Dtm.terminalAfterConflict g e) P := by
  refine amid_load hP fun P₂ s' _ hs' _ _ _ hsame => ?_
  rw [hsame s hs] at hs' ⊢
  rw [if_pos hs.2]
  exact hs'

/-- A completion by the recovery itself. -/
theorem amid_finishOrTerminal {reason : String} (hP : AmidCompletions g options P)
    (hr : reason.utf8ByteSize ≤ 4096) :
    ReturnsStored dtm g i (Dtm.finishOrTerminal g (some reason)) P := by
  refine amid_call hP trivial fun P₁ c hP₁ _ P₂ hP₂ hw => ?_
  obtain ⟨s, hs, ha, -⟩ := hP₁.1.stored
  rcases modify_cases (f := fun tx => applyWorkflowCompletion P₁.world.clock tx .failed
    (some reason) none) hs with ⟨s', hf, hm⟩ | ⟨e, hf, hm⟩
  · simp only [InMemory.exec, InMemory.finishWorkflow, hm] at hw ⊢
    show P₂.world.txs[g]? = some s'
    rw [hw]
    exact Std.ExtTreeMap.getElem?_insert_self
  · -- another completion was first
    simp only [InMemory.exec, InMemory.finishWorkflow, hm] at hw ⊢
    refine amid_terminalAfterConflict hP₂ ⟨?_, ha.finish_error hr hf⟩
    rw [hw]
    exact hs

/-- The delay that `defer_callback_workflow` asks for. -/
def Dtm.callbackDelay (dtm : Dtm) (options : TransactionOptions) (attemptedAtMillis : Nat)
    (backoff : Bool) (outcome : String) : WorkflowRecoveryDelay :=
  let retryIntervalMillis :=
    max (options.retryIntervalMillis.getD dtm.options.retryBackoffMillis) 1
  { attemptedAtMillis, retryIntervalMillis, backoff, outcome
    maxRetryIntervalMillis := max dtm.options.maxRetryBackoffMillis retryIntervalMillis }

theorem ensure_bind {α : Type} {c : Bool} {e : Err} {f : Unit → Except Err α} (hc : c = true) :
    (ensure c e >>= f) = f () := by
  subst hc
  rfl

/-- What the recovery says of an attempt that it defers. -/
def deferralOutcomes : List String :=
  ["invalid_callback", "ongoing", "completed_without_terminal", "transport_error"]

theorem Dtm.DelaysWell.valid (hd : dtm.DelaysWell options) {attemptedAtMillis : Nat}
    {backoff : Bool} {outcome : String} (ho : outcome ∈ deferralOutcomes) :
    (dtm.callbackDelay options attemptedAtMillis backoff outcome).validate = .ok () := by
  have hi := hd.interval
  have hb := hd.bound
  have hname : (!outcome.isEmpty && outcome.utf8ByteSize ≤ 64 &&
      outcome.toList.all fun c => c.isLower || c = '_') = true := by
    simp only [deferralOutcomes, List.mem_cons, List.not_mem_nil, or_false] at ho
    rcases ho with rfl | rfl | rfl | rfl <;> decide
  have hinterval : (0 < max (options.retryIntervalMillis.getD dtm.options.retryBackoffMillis) 1 &&
      max (options.retryIntervalMillis.getD dtm.options.retryBackoffMillis) 1 ≤
        max dtm.options.maxRetryBackoffMillis
          (max (options.retryIntervalMillis.getD dtm.options.retryBackoffMillis) 1) &&
      max dtm.options.maxRetryBackoffMillis
        (max (options.retryIntervalMillis.getD dtm.options.retryBackoffMillis) 1) ≤ 86400000) =
      true := by
    simp only [Bool.and_eq_true, decide_eq_true_eq]
    omega
  exact (ensure_bind hinterval).trans (ensure_eq_ok.mpr hname)

/-- A deferral by the recovery. -/
theorem amid_deferCallbackWorkflow {tx : Transaction} {attemptedAtMillis : Nat} {backoff : Bool}
    {outcome : String} (hP : AmidCompletions g options P) (hd : dtm.DelaysWell options)
    (hg : tx.gid = g) (htx : tx.options = options) (ho : outcome ∈ deferralOutcomes) :
    ReturnsStored dtm g i (dtm.deferCallbackWorkflow tx attemptedAtMillis backoff outcome) P := by
  subst hg htx
  refine amid_call (o := .deferWorkflowRecovery tx.gid
    (dtm.callbackDelay tx.options attemptedAtMillis backoff outcome)) hP trivial
    fun P₁ c hP₁ _ P₂ hP₂ hw => ?_
  obtain ⟨s, hs, ha, -⟩ := hP₁.1.stored
  rcases modify_cases (f := fun s => deferWorkflowRecovery P₁.world.clock s
    (dtm.callbackDelay tx.options attemptedAtMillis backoff outcome)) hs with
    ⟨s', hf, hm⟩ | ⟨e, hf, hm⟩
  · simp only [InMemory.exec, InMemory.deferRecovery, hm] at hw ⊢
    show P₂.world.txs[tx.gid]? = some s'
    rw [hw]
    exact Std.ExtTreeMap.getElem?_insert_self
  · -- a completion was first
    simp only [InMemory.exec, InMemory.deferRecovery, hm] at hw ⊢
    refine amid_terminalAfterConflict hP₂ ⟨?_, ha.defer_error (hd.valid ho) hf⟩
    rw [hw]
    exact hs

theorem Outcome.Short.reason {c : Outcome} (hc : c.Short) {reason : Option String}
    (h : c.callback = .ok (.failed reason)) :
    ∃ r : String, reason.or (some "workflow callback reported failure") = some r ∧
      r.utf8ByteSize ≤ 4096 := by
  cases reason with
  | none => exact ⟨_, rfl, by decide⟩
  | some r =>
    rw [Outcome.Short, h] at hc
    exact ⟨r, rfl, hc⟩

/-- A check that is met. -/
theorem amid_checked {α : Type} {x : Except Err Unit} {f : Unit → Act α} {Q : α → System → Prop}
    {E : Err → System → Prop} (hx : x = .ok ())
    (h : (completing.among (dtm.Programs Operation.Completes)).Runs (fun _ => True) i (f ()) Q E P) :
    (completing.among (dtm.Programs Operation.Completes)).Runs (fun _ => True) i
      (Act.ofExcept x >>= f) Q E P := by
  subst hx
  exact h

/-- The checks that a record passes while it waits. -/
theorem Awaited.checks {s : Transaction} (ha : Awaited s) (hlive : ¬ s.status.isTerminal = true) :
    ensureKind s .workflow = .ok () ∧ ensureCallbackWorkflow s = .ok () ∧
      ensureStatus s [.prepared] = .ok () := by
  refine ⟨ensureKind_eq_ok.mpr ha.kind, ha.ensure, ensureStatus_eq_ok.mpr ?_⟩
  rw [ha.prepared (by simpa using hlive)]
  exact List.mem_singleton_self _

/-- `recover_callback_workflow`. -/
theorem amid_recoverCallbackWorkflow (hP : AmidCompletions g options P)
    (hd : dtm.DelaysWell options) :
    ReturnsStored dtm g i (dtm.recoverCallbackWorkflow g) P := by
  refine Machine.runs_bind.mpr (amid_load hP fun P₂ s hP₂ hs ha ho hg _ => ?_)
  refine amid_checked (ensureKind_eq_ok.mpr ha.kind) (Machine.runs_pure.mpr ?_)
  split
  · exact hs
  · rename_i hlive
    obtain ⟨-, hcallback, hprepared⟩ := ha.checks hlive
    refine amid_checked hcallback (amid_checked hprepared ?_)
    refine amid_call hP₂ trivial fun P₃ c hP₃ _ P₄ hP₄ _ => ?_
    split
    · exact amid_deferCallbackWorkflow hP₄ hd hg ho (by decide)
    · rename_i callback _
      refine amid_call hP₄ trivial fun P₅ c hP₅ _ P₆ hP₆ _ => ?_
      refine amid_load hP₆ fun P₇ latest hP₇ hl hla hlo hlg _ => ?_
      split
      · exact hl
      · rename_i hlive'
        obtain ⟨-, hcallback', hprepared'⟩ := hla.checks hlive'
        refine amid_checked hcallback' (amid_checked hprepared' ?_)
        have hreply : (InMemory.exec i (.queryWorkflowCallback callback s.options) c.1
          P₅.world).1 = c.1.callback := rfl
        rw [hreply]
        split
        · rename_i reason hr
          obtain ⟨r, hor, hlen⟩ := c.2.reason hr
          rw [hor]
          exact amid_finishOrTerminal hP₇ hlen
        · exact amid_deferCallbackWorkflow hP₇ hd hlg hlo (by decide)
        · exact amid_deferCallbackWorkflow hP₇ hd hlg hlo (by decide)
        · exact amid_deferCallbackWorkflow hP₇ hd hlg hlo (by decide)

/-- `expire_callback_workflow`. -/
theorem amid_expireCallbackWorkflow {tx : Transaction} (hP : AmidCompletions g options P)
    (hg : tx.gid = g) (hst : tx.status = .prepared) :
    ReturnsStored dtm g i (Dtm.expireCallbackWorkflow tx) P := by
  subst hg
  rw [ReturnsStored, Dtm.expireCallbackWorkflow, if_neg (by rw [hst]; decide)]
  refine Machine.runs_bind.mpr (Machine.runs_pure.mpr (amid_checked ?_ ?_))
  · rw [ensureStatus_eq_ok, hst]
    exact List.mem_singleton_self _
  · exact amid_finishOrTerminal hP (by decide)

end Recovery

/-! ### The claim -/

/-- What recovers the callback Workflow `g` in a run that has come to `P`: a call of
`recover_callback_workflow`, or the move of a recovery tick on a record that it has listed. -/
inductive Dtm.Recovers (dtm : Dtm) (g : String) (w : World) (P : System) : Act Transaction → Prop
  | called : Dtm.Recovers dtm g w P (dtm.recoverCallbackWorkflow g)
  | ticked {P₀ : System} {now : Nat} {tx : Transaction} {move : Act Transaction}
      (before : completing.Reaches (dtm.Programs Operation.Completes) w P₀)
      (listed : P₀.world.txs[g]? = some tx)
      (since : completing.Run (dtm.Programs Operation.Completes) P₀ P)
      (moves : dtm.tickMove now tx = some move) : Dtm.Recovers dtm g w P move

/-- A completion of `g` that is accepted, at any step of any run. -/
theorem accepted_completes {g : String} {options : TransactionOptions} {w : World} {i : Nat}
    {c : Outcome} {status : TransactionStatus} {reason result : Option String} {tx : Transaction}
    (hw : CompletionInv g options w)
    (h : (InMemory.exec i (.finishWorkflow g status reason result) c w).1 = .ok tx) :
    CompletedAs g tx (InMemory.exec i (.finishWorkflow g status reason result) c w).2 ∧
      tx.status = status := by
  obtain ⟨s, hs, ha, -⟩ := hw.stored
  simp only [InMemory.exec, InMemory.finishWorkflow] at h ⊢
  rcases modify_cases (f := fun tx => applyWorkflowCompletion w.clock tx status reason result) hs
    with ⟨s', hf, hm⟩ | ⟨e, hf, hm⟩
  · rw [hm] at h ⊢
    cases h
    obtain ⟨-, hst, hterminal⟩ := ha.complete hf
    exact ⟨⟨Std.ExtTreeMap.getElem?_insert_self, hterminal⟩, hst⟩
  · rw [hm] at h
    cases h

/-- **The first completion of a callback Workflow wins.**  At every point of every run: a
completion that is accepted completes the record; a complete record stays as it is; what
recovers the Workflow, in any interleaving with the others, returns the record that is stored
at its last step, which is the completed one if there was a completion at any point before;
and a progress that was accepted is there. -/
theorem first_completion_wins (dtm : Dtm) {g : String} {w : World} (hw : w.Keyed)
    (hh : w.history = []) {s₀ : Transaction} (hs₀ : w.txs[g]? = some s₀)
    (hst : s₀.status = .prepared) (hc : isCallbackWorkflow s₀ = true)
    (hd : dtm.DelaysWell s₀.options) {P : System}
    (hP : completing.Reaches (dtm.Programs Operation.Completes) w P) :
    (∀ i c status reason result tx,
      (InMemory.exec i (.finishWorkflow g status reason result) c P.world).1 = .ok tx →
      CompletedAs g tx (InMemory.exec i (.finishWorkflow g status reason result) c P.world).2 ∧
        tx.status = status) ∧
    (∀ s Q, CompletedAs g s P.world → completing.Run (dtm.Programs Operation.Completes) P Q →
      CompletedAs g s Q.world) ∧
    (∀ x, dtm.Recovers g w P x → ∀ i q P₁ r P₂,
      (completing.among (dtm.Programs Operation.Completes)).Comes i x.run P q P₁ →
      (completing.among (dtm.Programs Operation.Completes)).Returns i q P₁ r P₂ →
      ∃ t, r = .ok t ∧ P₂.world.txs[g]? = some t ∧ ∀ s, CompletedAs g s P₁.world → t = s) ∧
    (∀ i p, (i, .progressed g p) ∈ P.world.history →
      ∃ s, P.world.txs[g]? = some s ∧ p ∈ s.workflowProgresses) := by
  have hinv : CompletionInv g s₀.options w := by
    refine ⟨hw, ⟨s₀, hs₀, ⟨hc, Or.inl hst⟩, rfl⟩, fun i p hm => ?_⟩
    rw [hh] at hm
    cases hm
  have hgood {Q : System} (hQ : completing.Reaches (dtm.Programs Operation.Completes) w Q) :
      AmidCompletions g s₀.options Q :=
    (completionOutline g s₀.options).good_of_reaches hinv (fun _ => trivial)
      (fun _ => follows_completes) hQ
  refine ⟨fun i c status reason result tx => accepted_completes (hgood hP).1, fun s Q hs hr => ?_,
    fun x hx i q P₁ r P₂ hcome hret => ?_, (hgood hP).1.progresses⟩
  · induction hr with
    | refl => exact hs
    | tail hr hstep ih => exact ih.step (hgood (hP.run hr)) hstep
  · have hstored : ReturnsStored dtm g i x P := by
      cases hx with
      | called => exact amid_recoverCallbackWorkflow (hgood hP) hd
      | @ticked P₀ now tx move before listed since moves =>
        obtain ⟨s, hs, ha, -⟩ := (hgood before).1.stored
        cases listed.symm.trans hs
        have hg : tx.gid = g := (hgood before).1.keyed g tx listed
        obtain ⟨hprepared, rfl | rfl⟩ := tickMove_awaited ha moves
        · exact amid_expireCallbackWorkflow (hgood hP) hg hprepared
        · rw [hg]
          exact amid_recoverCallbackWorkflow (hgood hP) hd
    have hend := Machine.Ends.returns hstored (hcome.returns hret)
    cases r with
    | error e => exact hend.elim
    | ok t =>
      refine ⟨t, rfl, hend, fun s hs => ?_⟩
      -- what is left of the program keeps the completed record too
      have hfollows : (awaiting g).Follows x.run () (fun _ _ => True) := by
        cases hx with
        | called => exact awaiting_recoverCallbackWorkflow.follows
        | ticked before listed since moves =>
          obtain ⟨s, hs, ha, -⟩ := (hgood before).1.stored
          cases listed.symm.trans hs
          exact (awaiting_tickMove (fun _ => ha) moves).follows
      obtain ⟨hP₁, _, -, hq⟩ := (completionSolo dtm g s₀.options).comes (hgood hP) trivial hfollows
        hcome
      have hlast : CompletedAs g s P₂.world :=
        (completionSolo dtm g s₀.options).returns (ψ := fun P => CompletedAs g s P.world) hP₁
          trivial hq (fun c hP _ hp _ hψ => hψ.exec hP.1 hp i c.1) (fun hP hd hψ => hψ.step hP hd)
          hs hret
      exact Option.some.inj (hend.symm.trans hlast.1)

/-- A callback Workflow that waits for its completion. -/
def awaitedWorkflow : Transaction :=
  { Transaction.new 0 "g" .workflow [] with
    status := .prepared
    metadata := (∅ : Std.ExtTreeMap String String).insert "dtm.query_prepared" "query" }

/-- Its client completes it. -/
def clientCompletes : List (Move Operation {c : Outcome // c.Short}) :=
  [.start (.finishCallbackWorkflow "g" .succeeded none none), .exec 0 ⟨.ofOk true, trivial⟩]

/-- The client completes the Workflow while a recovery is between its reading of the record and
its deferral: the recovery returns the completed record. -/
theorem first_completion_wins_raced : ∃ (P : System) (s : Transaction),
    completing.Reaches (Dtm.plain.Programs Operation.Completes) (.initial [awaitedWorkflow]) P ∧
    CompletedAs "g" s P.world ∧ s.status = .succeeded ∧
    (∀ Q, completing.Run (Dtm.plain.Programs Operation.Completes) P Q → CompletedAs "g" s Q.world) ∧
    ∀ i q P₁ r P₂,
      (completing.among (Dtm.plain.Programs Operation.Completes)).Comes i
        (Dtm.plain.recoverCallbackWorkflow "g").run (Pool.idle (.initial [awaitedWorkflow])) q P₁ →
      (completing.among (Dtm.plain.Programs Operation.Completes)).Returns i q P₁ r P₂ →
      ∃ t, r = .ok t ∧ P₂.world.txs["g"]? = some t ∧ ∀ s, CompletedAs "g" s P₁.world → t = s := by
  have hd : Dtm.plain.DelaysWell awaitedWorkflow.options := ⟨by decide, by decide⟩
  have hs₀ : (World.initial [awaitedWorkflow]).txs["g"]? = some awaitedWorkflow := rfl
  have hwins {P : System} (hP : completing.Reaches (Dtm.plain.Programs Operation.Completes)
      (.initial [awaitedWorkflow]) P) :=
    first_completion_wins .plain (World.keyed_initial _) rfl hs₀ rfl (by decide) hd hP
  have hstart : completing.Reaches (Dtm.plain.Programs Operation.Completes)
    (.initial [awaitedWorkflow]) (Pool.idle (.initial [awaitedWorkflow])) := .refl ..
  obtain ⟨P, hP, hφ⟩ := Dtm.exists_run completing .plain Operation.Completes
    (.initial [awaitedWorkflow]) clientCompletes (fun w => w.statusOf "g" = some .succeeded)
    (by simp [clientCompletes, Operation.Completes]) (by decide)
  obtain ⟨s, hs, hsucc⟩ := World.hasStatus_iff.mpr (of_decide_eq_true hφ)
  have hs : CompletedAs "g" s P.world := ⟨hs, by rw [hsucc]; rfl⟩
  exact ⟨P, s, hP, hs, hsucc, fun Q hQ => (hwins hP).2.1 s Q hs hQ,
    fun i q P₁ r P₂ => (hwins hstart).2.2.1 _ .called i q P₁ r P₂⟩

end RozeDtm
