import RozeDtm.Session.Phase2
import RozeDtm.Twin.Rules
import RozeDtm.Twin.Texts

/-!
# The sequential loops under two gids

The loops of the TCC, XA, Message and sequential Saga operations, and the one of
`abort_workflow`.  Their errors name a branch that has no URL, so as long as no such branch has
a marked id they are plain.
-/

namespace RozeDtm

open Conc

/-- Two errors that are answered as failures of the operation. -/
def BothPlain (e e' : Err) : Prop := Plain e ∧ Plain e'

variable {fails : (String → Err) → Prop} {gid gid' : String} {dtm : Dtm} {tx r : Transaction}
  {w w' : World}

theorem BothPlain.same {e : Err} (h : Plain e) : BothPlain e e := ⟨h, h⟩

/-! ### One call -/

theorem twin_invokeBranch {options : TransactionOptions} {branch : Branch}
    {url url' op : String} {Q : Branch × Bool → Branch × Bool → World → World → Prop}
    {E : Err → Err → Prop} (h : Held gid gid' r w w')
    (hQ : ∀ b ok u u', b.definition = branch.definition → Held gid gid' r u u' →
      Q (b, ok) (b, ok) u u') :
    Twin fails gid gid' (dtm.invokeBranch options gid branch url op)
      (dtm.invokeBranch options gid' branch url' op) Q E w w' := by
  unfold Dtm.invokeBranch
  refine Twin.bind (twin_invokeBegin h fun u u' hu => ?_)
  refine Twin.bind (twin_invokeEnd hu fun ok u u' hu => ?_)
  cases ok with
  | true => exact hQ branch true u u' rfl hu
  | false =>
    refine Twin.bind (twin_currentMillis hu fun now u u' hu => ?_)
    exact hQ _ false u u' rfl hu

/-- A write at the end of an operation. -/
theorem twin_persist_end {s : Transaction} (h : Held gid gid' r w w') :
    Twin fails gid gid' (persistTransaction (s.named gid)) (persistTransaction (s.named gid'))
      (fun _ _ => Alive gid gid') BothPlain w w' :=
  twin_persist h fun _ _ _ hu => hu.alive

/-- The record as it is stored, at the end of an operation. -/
theorem twin_load_end (h : Held gid gid' r w w') :
    Twin fails gid gid' (loadTransaction gid) (loadTransaction gid')
      (fun _ _ => Alive gid gid') BothPlain w w' :=
  twin_load h fun _ _ hu => hu.alive

/-! ### TCC and XA -/

theorem twin_prepareTccLoop (tx : Transaction) {passed ahead : List Branch}
    (h : Held gid gid' r w w') :
    Twin fails gid gid' (dtm.prepareTccLoop (tx.named gid) passed ahead)
      (dtm.prepareTccLoop (tx.named gid') passed ahead) (fun _ _ => Alive gid gid') BothPlain
      w w' := by
  induction ahead generalizing passed w w' with
  | nil => exact twin_persist_end (s := { tx with branches := passed, status := .prepared }) h
  | cons branch ahead ih =>
    unfold Dtm.prepareTccLoop
    split
    · exact ih h
    · refine Twin.bind (twin_barrier h fun decision u u' hu => ?_)
      cases decision with
      | execute =>
        refine Twin.bind (twin_invokeBranch hu fun b ok u u' _ hu => ?_)
        cases ok with
        | true => exact ih hu
        | false =>
          refine Twin.bind (twin_releaseBarrier hu fun u u' hu => ?_)
          exact twin_persist_end (s := { tx with
            branches := passed ++ { b with status := .failed } :: ahead
            status := if dtm.maxAttempts tx.options ≤ b.attempts then .aborting else tx.status }) hu
      | skipCancelledTry =>
        exact twin_persist_end (s := { tx with
          branches := passed ++ { branch with status := .skipped, nextRetryMillis := none } :: ahead
          status := .aborting }) hu
      | skipDuplicate => exact ih hu
      | skipNullCompensation => exact BothPlain.same (by unfold Plain; decide)

/-- The URL of a branch is there under both gids, or the error is plain, as long as the branch
is not `missing` its URL with a marked id. -/
def UrlAlike (missing : Branch → Bool) (url url' : Branch → Except Err String) : Prop :=
  ∀ b : Branch, (missing b = true → ¬ Marked b.id) →
    (∃ target target', url b = .ok target ∧ url' b = .ok target') ∨
      ∃ e, Plain e ∧ url b = .error e ∧ url' b = .error e

theorem twin_phase2Loop (tx : Transaction) {op : String} {url url' : Branch → Except Err String}
    {missing : Branch → Bool} {onOk : BranchStatus} {final : TransactionStatus}
    {passed ahead : List Branch} (hurl : UrlAlike missing url url')
    (hahead : ∀ b ∈ ahead, missing b = true → ¬ Marked b.id) (h : Held gid gid' r w w') :
    Twin fails gid gid' (dtm.phase2Loop op url onOk final (tx.named gid) passed ahead)
      (dtm.phase2Loop op url' onOk final (tx.named gid') passed ahead)
      (fun _ _ => Alive gid gid') BothPlain w w' := by
  induction ahead generalizing passed w w' with
  | nil => exact twin_persist_end (s := { tx with branches := passed, status := final }) h
  | cons branch ahead ih =>
    have hrest : ∀ b ∈ ahead, missing b = true → ¬ Marked b.id :=
      fun b hb => hahead b (.tail _ hb)
    unfold Dtm.phase2Loop
    refine Twin.bind (twin_barrier h fun decision u u' hu => ?_)
    split
    · obtain ⟨target, target', heq, heq'⟩ | ⟨e, he, heq, heq'⟩ := hurl branch (hahead _ (.head _))
      · rw [heq, heq']
        refine twin_ok (Twin.bind (twin_invokeBranch hu fun b ok u u' _ hu => ?_))
        cases ok with
        | true => exact ih hrest hu
        | false =>
          refine Twin.bind (twin_releaseBarrier hu fun u u' hu => ?_)
          exact twin_persist_end (s := { tx with
            branches := passed ++ { b with status := .failed } :: ahead }) hu
      · rw [heq, heq']
        exact BothPlain.same he
    · exact ih hrest hu

theorem urlAlike_confirm :
    UrlAlike (fun b => b.confirm.isNone) Dtm.confirmUrl Dtm.confirmUrl := by
  intro b hb
  unfold Dtm.confirmUrl
  cases hc : b.confirm with
  | some url => exact Or.inl ⟨url, url, rfl, rfl⟩
  | none =>
    refine Or.inr ⟨_, ?_, rfl, rfl⟩
    exact (plain_behind "missing confirm action for branch " (by decide) (by decide)).mpr
      (hb (Option.isNone_iff_eq_none.mpr hc))

theorem parseBranchUrl_error {url : UrlLib} {value : String} {e : Err}
    (h : parseBranchUrl url value = .error e) : e = "invalid branch URL" := by
  unfold parseBranchUrl ensure at h
  split at h
  · dsimp only [bind, Except.bind] at h
    cases hp : url.parse value with
    | none =>
      rw [hp] at h
      cases h
      rfl
    | some u =>
      rw [hp] at h
      dsimp only at h
      split at h
      · rename_i heq
        split at heq <;> cases heq
        cases h
        rfl
      · cases h
  · cases h
    rfl

/-- The callback URL of an XA branch can be made under any gid. -/
theorem xaPhase2CallbackUrl_alike (url : UrlLib) (value branchId operation : String) :
    (∃ target target', xaPhase2CallbackUrl url value gid branchId operation = .ok target ∧
      xaPhase2CallbackUrl url value gid' branchId operation = .ok target') ∨
    ∃ e, Plain e ∧ xaPhase2CallbackUrl url value gid branchId operation = .error e ∧
      xaPhase2CallbackUrl url value gid' branchId operation = .error e := by
  unfold xaPhase2CallbackUrl ensure
  split
  · cases hp : parseBranchUrl url value with
    | ok u => exact Or.inl ⟨_, _, rfl, rfl⟩
    | error e =>
      cases parseBranchUrl_error hp
      exact Or.inr ⟨_, by unfold Plain; decide, rfl, rfl⟩
  · exact Or.inr ⟨"invalid XA phase-2 operation", by unfold Plain; decide, rfl, rfl⟩

theorem urlAlike_commit :
    UrlAlike (fun b => b.confirm.isNone) (dtm.commitUrl gid) (dtm.commitUrl gid') := by
  intro b hb
  unfold Dtm.commitUrl
  cases hc : b.confirm with
  | some url => exact xaPhase2CallbackUrl_alike dtm.libs.url url b.id "commit"
  | none =>
    refine Or.inr ⟨_, ?_, rfl, rfl⟩
    exact (plain_behind "missing XA commit URL for " (by decide) (by decide)).mpr
      (hb (Option.isNone_iff_eq_none.mpr hc))

theorem urlAlike_rollback :
    UrlAlike (fun b => b.cancel.isNone) (dtm.rollbackUrl gid) (dtm.rollbackUrl gid') := by
  intro b hb
  unfold Dtm.rollbackUrl
  cases hc : b.cancel with
  | some url => exact xaPhase2CallbackUrl_alike dtm.libs.url url b.id "rollback"
  | none =>
    refine Or.inr ⟨_, ?_, rfl, rfl⟩
    exact (plain_behind "missing XA rollback URL for " (by decide) (by decide)).mpr
      (hb (Option.isNone_iff_eq_none.mpr hc))

theorem urlAlike_cancel :
    UrlAlike (fun b => (b.cancel.or b.compensate).isNone) Dtm.cancelUrl Dtm.cancelUrl := by
  intro b hb
  unfold Dtm.cancelUrl
  cases hc : b.cancel.or b.compensate with
  | some url => exact Or.inl ⟨url, url, rfl, rfl⟩
  | none =>
    refine Or.inr ⟨_, ?_, rfl, rfl⟩
    exact (plain_behind "missing cancel action for branch " (by decide) (by decide)).mpr
      (hb (Option.isNone_iff_eq_none.mpr hc))

theorem twin_cancelTccLoop (tx : Transaction) {passed ahead : List Branch}
    (hahead : ∀ b ∈ ahead, (b.cancel.or b.compensate).isNone = true → ¬ Marked b.id)
    (h : Held gid gid' r w w') :
    Twin fails gid gid' (dtm.cancelTccLoop (tx.named gid) passed ahead)
      (dtm.cancelTccLoop (tx.named gid') passed ahead) (fun _ _ => Alive gid gid') BothPlain
      w w' := by
  induction ahead generalizing passed w w' with
  | nil => exact twin_persist_end (s := { tx with branches := passed, status := .aborted }) h
  | cons branch ahead ih =>
    have hrest : ∀ b ∈ ahead, (b.cancel.or b.compensate).isNone = true → ¬ Marked b.id :=
      fun b hb => hahead b (.tail _ hb)
    unfold Dtm.cancelTccLoop
    refine Twin.bind (twin_barrier h fun decision u u' hu => ?_)
    split
    · obtain ⟨target, target', heq, heq'⟩ | ⟨e, he, heq, -⟩ :=
        urlAlike_cancel branch (hahead _ (.head _))
      · rw [heq]
        refine twin_ok (Twin.bind (twin_invokeBranch hu fun b ok u u' _ hu => ?_))
        cases ok with
        | true => exact ih hrest hu
        | false =>
          refine Twin.bind (twin_releaseBarrier hu fun u u' hu => ?_)
          exact twin_persist_end (s := { tx with
            branches := passed ++ { b with status := .failed } :: ahead }) hu
      · rw [heq]
        exact BothPlain.same he
    · cases decision with
      | execute => exact BothPlain.same (by unfold Plain; decide)
      | skipNullCompensation => exact ih hrest hu
      | skipDuplicate => exact ih hrest hu
      | skipCancelledTry => exact BothPlain.same (by unfold Plain; decide)

/-! ### Messages -/

theorem twin_dispatchMessageLoop (tx : Transaction) {passed ahead : List Branch}
    (h : Held gid gid' r w w') :
    Twin fails gid gid' (dtm.dispatchMessageLoop (tx.named gid) passed ahead)
      (dtm.dispatchMessageLoop (tx.named gid') passed ahead) (fun _ _ => Alive gid gid') BothPlain
      w w' := by
  induction ahead generalizing passed w w' with
  | nil => exact twin_persist_end (s := { tx with branches := passed, status := .succeeded }) h
  | cons branch ahead ih =>
    unfold Dtm.dispatchMessageLoop
    split
    · exact ih h
    · refine Twin.bind (twin_barrier h fun decision u u' hu => ?_)
      split
      · refine Twin.bind (twin_invokeBranch hu fun b ok u u' _ hu => ?_)
        cases ok with
        | true => exact ih hu
        | false =>
          refine Twin.bind (twin_releaseBarrier hu fun u u' hu => ?_)
          exact twin_persist_end (s := { tx with
            branches := passed ++ { b with status := .failed } :: ahead }) hu
      · exact ih hu

/-! ### Compensation in reverse order -/

theorem twin_abortWorkflowLoop (tx : Transaction) {ahead passed : List Branch}
    (hahead : ∀ b ∈ ahead, b.status = .succeeded → b.compensate.isNone = true → ¬ Marked b.id)
    (h : Held gid gid' r w w') :
    Twin fails gid gid' (dtm.abortWorkflowLoop (tx.named gid) ahead passed)
      (dtm.abortWorkflowLoop (tx.named gid') ahead passed) (fun _ _ => Alive gid gid') BothPlain
      w w' := by
  induction ahead generalizing passed w w' with
  | nil => exact twin_persist_end (s := { tx with branches := passed, status := .aborted }) h
  | cons branch ahead ih =>
    have hrest : ∀ b ∈ ahead, b.status = .succeeded → b.compensate.isNone = true →
        ¬ Marked b.id := fun b hb => hahead b (.tail _ hb)
    unfold Dtm.abortWorkflowLoop
    split
    · exact ih hrest h
    · rename_i hst
      have hid := hahead branch (.head _) (not_not.mp hst)
      refine Twin.bind (twin_barrier h fun decision u u' hu => ?_)
      split
      · cases hc : branch.compensate with
        | none =>
          have hplain : Plain ("missing workflow compensation URL for " ++ branch.id) :=
            (plain_behind _ (by decide) (by decide)).mpr (hid (Option.isNone_iff_eq_none.mpr hc))
          exact BothPlain.same hplain
        | some compensate =>
          refine twin_ok (Twin.bind (twin_invokeBranch hu fun b ok u u' _ hu => ?_))
          cases ok with
          | true => exact ih hrest hu
          | false =>
            refine Twin.bind (twin_releaseBarrier hu fun u u' hu => ?_)
            exact twin_persist_end (s := { tx with
              branches := ahead.reverse ++ { b with status := .compensating } :: passed }) hu
      · exact ih hrest hu

theorem twin_abortSagaLoop (tx : Transaction) {ahead passed : List Branch}
    (h : Held gid gid' r w w') :
    Twin fails gid gid' (dtm.abortSagaLoop (tx.named gid) ahead passed)
      (dtm.abortSagaLoop (tx.named gid') ahead passed) (fun _ _ => Alive gid gid') BothPlain
      w w' := by
  induction ahead generalizing passed w w' with
  | nil => exact twin_persist_end (s := { tx with branches := passed, status := .aborted }) h
  | cons branch ahead ih =>
    unfold Dtm.abortSagaLoop
    split
    · exact ih h
    · split
      · exact ih h
      · refine Twin.bind (twin_barrier h fun decision u u' hu => ?_)
        cases decision with
        | execute =>
          dsimp only
          cases hc : branch.compensate with
          | none => exact ih hu
          | some compensate =>
            refine Twin.bind (twin_invokeBranch hu fun b ok u u' _ hu => ?_)
            cases ok with
            | true => exact ih hu
            | false =>
              refine Twin.bind (twin_releaseBarrier hu fun u u' hu => ?_)
              exact twin_persist_end (s := { tx with
                branches := ahead.reverse ++ { b with status := .compensating } :: passed }) hu
        | skipDuplicate =>
          exact twin_persist_end (s := { tx with
            branches := ahead.reverse ++ { branch with status := .compensating } :: passed }) hu
        | skipNullCompensation => exact BothPlain.same (by unfold Plain; decide)
        | skipCancelledTry => exact BothPlain.same (by unfold Plain; decide)

end RozeDtm
