import RozeDtm.Session.LoadsFirst
import RozeDtm.Session.Phase2

/-!
# Operations on a TCC

`tryFirst g` is the discipline of the operations that a TCC `g` is driven by.  A session
keeps the record that was last read or written, and the branches whose Try it has run or
found taken.  With the record these are the branches that count as tried (`CountsTried`).
An operation marks a branch Succeeded, or takes the whole record to Prepared and on, only
over branches that count, and it calls the confirm endpoint of no other.
-/

namespace RozeDtm

open Conc

/-- What an operation knows of a TCC. -/
structure TccView where
  snap : Option Transaction
  settled : String → Prop

/-- An operation that has done nothing yet. -/
def TccView.start : TccView := ⟨none, fun _ => False⟩

/-- The operation has settled the Try of one more branch. -/
def TccView.settle (σ : TccView) (id : String) : TccView :=
  { σ with settled := fun id' => id' = id ∨ σ.settled id' }

/-- The statuses after which every branch counts as tried. -/
def TransactionStatus.pastTry : TransactionStatus → Bool
  | .prepared | .succeeding | .succeeded => true
  | _ => false

/-- A branch of a record with this status counts as tried. -/
def CountsTried (settled : String → Prop) (status : TransactionStatus) (a : Branch) : Prop :=
  a.status = .succeeded ∨ status.pastTry = true ∨ settled a.id

/-- What a write may make of the record that was read. -/
structure TccWrite (settled : String → Prop) (base tx : Transaction) : Prop where
  kind : tx.kind = base.kind
  branches : List.Forall₂ (fun a b => b.definition = a.definition ∧
    (b.status = .succeeded ∨ tx.status.pastTry = true → CountsTried settled base.status a))
    base.branches tx.branches

/-- The operation may call the confirm endpoint of a branch. -/
def TccView.MayConfirm (σ : TccView) (id : String) : Prop :=
  ∃ base, σ.snap = some base ∧ ∃ a ∈ base.branches, a.id = id ∧
    CountsTried σ.settled base.status a

/-- What the operations do with the TCC `g`. -/
def tryFirst (g : String) : Discipline effects TccView where
  pre := fun σ o => match o with
    | .updateTransaction tx =>
      tx.gid = g → ∃ base, σ.snap = some base ∧ TccWrite σ.settled base tx
    | .invokeBegin c => c.gid = g → c.op = "confirm" → σ.MayConfirm c.branchId
    | .deleteTransactionIfUnchanged _ => False
    | _ => True
  sees := fun _ o r => match o with
    | .getTransaction gid => ∀ tx, (r : Option Transaction) = some tx →
      tx.gid = gid ∧ (gid = g → tx.kind = .tcc)
    | .listTransactions => ∀ tx, List.Mem tx r → tx.gid = g → tx.kind = .tcc
    | _ => True
  next := fun σ o r => match o with
    | .getTransaction gid => if gid = g then ⟨r, fun _ => False⟩ else σ
    | .updateTransaction tx => if tx.gid = g then { σ with snap := some tx } else σ
    | .barrier b =>
      match (r : BarrierDecision) with
      | .skipDuplicate => if b.gid = g ∧ b.op = "try" then σ.settle b.branchId else σ
      | _ => σ
    | .invokeEnd c =>
      match (r : Bool) with
      | true => if c.gid = g ∧ c.op = "try" then σ.settle c.branchId else σ
      | false => σ
    | _ => σ

theorem tryFirst_free {g : String} {o : Effect} {σ : TccView} (ho : o.Free) :
    (tryFirst g).pre σ o := by
  cases o <;> first | exact ho.elim | trivial

/-- What stays with another transaction keeps to it, from any session. -/
theorem tryFirst_of_within {α : Type} {gid g : String} (hg : gid ≠ g) {x : Act α}
    (h : (within gid).Does x () (fun _ _ => True)) (σ : TccView) :
    (tryFirst g).Does x σ (fun _ _ => True) := by
  have hx := Discipline.Follows.transfer (fun _ _ => True) (E := tryFirst g) (u := σ) ?_ ?_
    (fun _ _ _ => trivial) h trivial
  · exact hx.mono fun _ _ _ _ _ => trivial
  · rintro _ _ o - hp
    cases o with
    | updateTransaction tx => exact fun h => absurd ((hp : tx.gid = gid).symm.trans h) hg
    | invokeBegin c => exact fun h => absurd ((hp : c.gid = gid).symm.trans h) hg
    | deleteTransactionIfUnchanged => exact hp.elim
    | _ => trivial
  · rintro _ _ o r - _ hr
    cases o with
    | getTransaction gid' => exact fun tx htx => (hr tx htx).1
    | _ => trivial

/-! ### A loop over the branches -/

/-- A loop that has come to `ahead`: the branches in `ahead` are as they were read, those in
`passed` are marked Succeeded only if they count as tried.  With `past`, the loop has passed
none that does not count. -/
structure Scan (g : String) (σ : TccView) (tx : Transaction) (past : Prop)
    (passed ahead : List Branch) : Prop where
  gid : tx.gid = g
  snap : ∃ base front, σ.snap = some base ∧ tx.kind = base.kind ∧
    base.branches = front ++ ahead ∧ List.Forall₂ (fun a b => b.definition = a.definition ∧
      (b.status = .succeeded ∨ past → CountsTried σ.settled base.status a)) front passed

namespace Scan

variable {g : String} {σ : TccView} {tx : Transaction} {past : Prop} {passed ahead : List Branch}
  {branch : Branch}

/-- The loop begins with the record that was read. -/
theorem start {st : TransactionStatus} (hg : tx.gid = g) (hsnap : σ.snap = some tx) :
    Scan g σ { tx with status := st } past [] tx.branches :=
  ⟨hg, tx, [], hsnap, rfl, rfl, .nil⟩

/-- One more branch is passed. -/
theorem push (h : Scan g σ tx past passed (branch :: ahead)) {b : Branch}
    (hb : b.definition = branch.definition) (hcount : b.status = .succeeded ∨ past →
      ∀ base, σ.snap = some base → CountsTried σ.settled base.status branch) :
    Scan g σ tx past (passed ++ [b]) ahead := by
  obtain ⟨hg, base, front, hsnap, hk, hbs, hrel⟩ := h
  refine ⟨hg, base, front ++ [branch], hsnap, hk, ?_, forall₂_snoc hrel ⟨hb, fun hp => ?_⟩⟩
  · rw [hbs, List.append_assoc, List.singleton_append]
  · exact hcount hp base hsnap

/-- Another Try is settled. -/
theorem settle (h : Scan g σ tx past passed ahead) (id : String) :
    Scan g (σ.settle id) tx past passed ahead := by
  obtain ⟨hg, base, front, hsnap, hk, hbs, hrel⟩ := h
  refine ⟨hg, base, front, hsnap, hk, hbs, hrel.imp fun a b ⟨hd, hp⟩ => ⟨hd, fun hb => ?_⟩⟩
  rcases hp hb with h | h | h
  · exact Or.inl h
  · exact Or.inr (Or.inl h)
  · exact Or.inr (Or.inr (Or.inr h))

/-- The record may be written when every branch is passed. -/
theorem write (h : Scan g σ tx past passed []) {st : TransactionStatus}
    (hst : st.pastTry = true → past) : ∃ base, σ.snap = some base ∧
      TccWrite σ.settled base { tx with branches := passed, status := st } := by
  obtain ⟨-, base, front, hsnap, hk, hbs, hrel⟩ := h
  rw [List.append_nil] at hbs
  refine ⟨base, hsnap, hk, ?_⟩
  rw [hbs]
  exact hrel.imp fun a b ⟨hd, hp⟩ => ⟨hd, fun hb => hp (hb.imp id hst)⟩

/-- The record may be written when the loop ends at a branch whose call has failed. -/
theorem leave (h : Scan g σ tx past passed (branch :: ahead)) {b : Branch}
    {st : TransactionStatus} (hb : b.definition = branch.definition) (hbs : b.status ≠ .succeeded)
    (hst : st.pastTry = true → ∀ base, σ.snap = some base → base.status.pastTry = true) :
    ∃ base, σ.snap = some base ∧
      TccWrite σ.settled base { tx with branches := passed ++ b :: ahead, status := st } := by
  obtain ⟨-, base, front, hsnap, hk, hbr, hrel⟩ := h
  have counts (a : Branch) (hpast : st.pastTry = true) :
      CountsTried σ.settled base.status a := Or.inr (Or.inl (hst hpast base hsnap))
  refine ⟨base, hsnap, hk, ?_⟩
  rw [hbr]
  refine List.rel_append ?_ (.cons ⟨hb, fun h => counts branch (h.resolve_left hbs)⟩ ?_)
  · exact hrel.imp fun a b ⟨hd, hp⟩ => ⟨hd, fun h => h.elim (fun h => hp (Or.inl h)) (counts a)⟩
  · exact List.forall₂_same.mpr fun a _ => ⟨rfl, fun h => h.elim Or.inl (counts a)⟩

/-- The confirm endpoint of the next branch may be called once the record is past the Try. -/
theorem mayConfirm (h : Scan g σ tx past passed (branch :: ahead))
    (hbase : ∀ base, σ.snap = some base → base.status.pastTry = true) :
    σ.MayConfirm branch.id := by
  obtain ⟨-, base, front, hsnap, -, hbs, -⟩ := h
  refine ⟨base, hsnap, branch, ?_, rfl, Or.inr (Or.inl (hbase base hsnap))⟩
  rw [hbs]
  exact List.mem_append_right _ (.head _)

end Scan

section Walk

variable {g : String} {σ : TccView} {dtm : Dtm}

/-! ### Steps -/

theorem tryFirst_call {o : Effect} {Q : TccView → o.Reply → Prop} :
    (tryFirst g).Does (Act.call o) σ Q ↔ (tryFirst g).pre σ o ∧
      ∀ r, (tryFirst g).sees σ o r → Q ((tryFirst g).next σ o r) r :=
  Discipline.does_perform

theorem tryFirst_loadTransaction {Q : TccView → Transaction → Prop}
    (h : ∀ tx, tx.gid = g → tx.kind = .tcc → Q ⟨some tx, fun _ => False⟩ tx) :
    (tryFirst g).Does (loadTransaction g) σ Q := by
  simp only [loadTransaction, Discipline.does_bind, does_ofOption]
  refine tryFirst_call.mpr ⟨trivial, fun r hr tx htx => ?_⟩
  obtain ⟨hg, hk⟩ := hr tx htx
  have hnext : (tryFirst g).next σ (.getTransaction g) r = ⟨some tx, fun _ => False⟩ := by
    rw [← htx]
    exact if_pos rfl
  rw [hnext]
  exact h tx hg (hk rfl)

theorem tryFirst_persistTransaction {tx : Transaction} {Q : TccView → Transaction → Prop}
    (hw : ∃ base, σ.snap = some base ∧ TccWrite σ.settled base tx)
    (hQ : ∀ σ, Q σ tx.written) : (tryFirst g).Does (persistTransaction tx) σ Q := by
  refine ⟨fun _ => hw, fun r _ => ?_⟩
  match r with
  | .ok _ =>
    rintro a ⟨⟩
    exact hQ _
  | .error _ => exact fun a ha => nomatch ha

/-- A barrier that is not the Try of a branch. -/
theorem tryFirst_barrier {b : BranchBarrier} {Q : TccView → BarrierDecision → Prop}
    (hop : b.op ≠ "try") (hQ : ∀ d, Q σ d) : (tryFirst g).Does (Store.barrier b) σ Q := by
  refine tryFirst_call.mpr ⟨trivial, fun d _ => ?_⟩
  have hnext : (tryFirst g).next σ (.barrier b) d = σ := by
    cases d with
    | skipDuplicate => exact if_neg fun h => hop h.2
    | _ => rfl
  rw [hnext]
  exact hQ d

/-- The Try barrier of a branch. -/
theorem tryFirst_tryBarrier {gid id : String} {Q : TccView → BarrierDecision → Prop}
    (hg : gid = g) (free : ∀ d, d ≠ .skipDuplicate → Q σ d) (taken : Q (σ.settle id) .skipDuplicate) :
    (tryFirst g).Does (Store.barrier ⟨gid, id, "try"⟩) σ Q := by
  refine tryFirst_call.mpr ⟨trivial, fun d _ => ?_⟩
  cases (d : BarrierDecision) with
  | skipDuplicate =>
    have hnext : (tryFirst g).next σ (.barrier ⟨gid, id, "try"⟩) BarrierDecision.skipDuplicate =
        σ.settle id := if_pos ⟨hg, rfl⟩
    rw [hnext]
    exact taken
  | execute => exact free .execute (by decide)
  | skipNullCompensation => exact free .skipNullCompensation (by decide)
  | skipCancelledTry => exact free .skipCancelledTry (by decide)

theorem tryFirst_releaseBarrier {b : BranchBarrier} {Q : TccView → Unit → Prop} (hQ : Q σ ()) :
    (tryFirst g).Does (Store.releaseBarrier b) σ Q :=
  tryFirst_call.mpr ⟨trivial, fun _ _ => hQ⟩

theorem tryFirst_currentMillis {Q : TccView → Nat → Prop} (hQ : ∀ now, Q σ now) :
    (tryFirst g).Does currentMillis σ Q :=
  tryFirst_call.mpr ⟨trivial, fun now _ => hQ now⟩

/-- A call that is not the Try of a branch. -/
theorem tryFirst_invokeBranch {options : TransactionOptions} {gid : String} {branch : Branch}
    {url op : String} {Q : TccView → Branch × Bool → Prop} (hop : op ≠ "try")
    (hcall : op = "confirm" → σ.MayConfirm branch.id) (ok : Q σ (branch, true))
    (error : ∀ b, b.definition = branch.definition → Q σ (b, false)) :
    (tryFirst g).Does (dtm.invokeBranch options gid branch url op) σ Q := by
  simp only [Dtm.invokeBranch, Discipline.does_bind]
  refine tryFirst_call.mpr ⟨fun _ => hcall, fun _ _ => tryFirst_call.mpr ⟨trivial, fun r _ => ?_⟩⟩
  cases (r : Bool) with
  | true =>
    have hnext : (tryFirst g).next σ (.invokeEnd (Dtm.branchCall options gid branch url op)) true =
        σ := if_neg fun h => hop h.2
    rw [if_pos rfl, Discipline.does_pure]
    exact hnext.symm ▸ ok
  | false =>
    rw [if_neg Bool.false_ne_true, Discipline.does_bind]
    exact tryFirst_currentMillis fun now => Discipline.does_pure.mpr (error _ rfl)

/-- The Try of a branch. -/
theorem tryFirst_invokeTry {options : TransactionOptions} {gid : String} {branch : Branch}
    {url : String} {Q : TccView → Branch × Bool → Prop} (hg : gid = g)
    (ok : Q (σ.settle branch.id) (branch, true))
    (error : ∀ b, b.definition = branch.definition → Q σ (b, false)) :
    (tryFirst g).Does (dtm.invokeBranch options gid branch url "try") σ Q := by
  simp only [Dtm.invokeBranch, Discipline.does_bind]
  refine tryFirst_call.mpr ⟨fun _ h => absurd h (by decide : ("try" : String) ≠ "confirm"),
    fun _ _ => tryFirst_call.mpr ⟨trivial, fun r _ => ?_⟩⟩
  cases (r : Bool) with
  | true =>
    have hnext : (tryFirst g).next σ (.invokeEnd (Dtm.branchCall options gid branch url "try"))
        true = σ.settle branch.id := if_pos ⟨hg, rfl⟩
    rw [if_pos rfl, Discipline.does_pure]
    exact hnext.symm ▸ ok
  | false =>
    rw [if_neg Bool.false_ne_true, Discipline.does_bind]
    exact tryFirst_currentMillis fun now => Discipline.does_pure.mpr (error _ rfl)

/-! ### The operations -/

theorem tryFirst_prepareTccLoop {tx : Transaction} {passed ahead : List Branch}
    (hst : tx.status = .trying) (h : Scan g σ tx True passed ahead) :
    (tryFirst g).Does (dtm.prepareTccLoop tx passed ahead) σ (fun _ _ => True) := by
  induction ahead generalizing σ passed with
  | nil => exact tryFirst_persistTransaction (h.write fun _ => trivial) fun _ => trivial
  | cons branch ahead ih =>
    rw [Dtm.prepareTccLoop]
    split
    · rename_i hs
      exact ih (h.push rfl fun _ _ _ => Or.inl hs)
    · rw [Discipline.does_bind]
      refine tryFirst_tryBarrier h.gid (fun d hd => ?_) ?_
      · cases d with
        | execute =>
          simp only [Discipline.does_bind]
          refine tryFirst_invokeTry h.gid ?_ fun b hb => ?_
          · rw [if_pos rfl]
            exact ih ((h.settle _).push rfl fun _ _ _ => Or.inr (Or.inr (Or.inl rfl)))
          · rw [if_neg Bool.false_ne_true, Discipline.does_bind]
            refine tryFirst_releaseBarrier (tryFirst_persistTransaction ?_ fun _ => trivial)
            refine h.leave (b := { b with status := .failed }) hb (by simp) fun hpast => ?_
            split at hpast
            · cases hpast
            · rw [hst] at hpast
              cases hpast
        | skipDuplicate => exact absurd rfl hd
        | skipNullCompensation => exact Discipline.does_throw
        | skipCancelledTry =>
          exact tryFirst_persistTransaction (h.leave
            (b := { branch with status := .skipped, nextRetryMillis := none }) rfl (by simp)
            fun h => by cases h) fun _ => trivial
      · exact ih ((h.settle _).push rfl fun _ _ _ => Or.inr (Or.inr (Or.inl rfl)))

theorem tryFirst_prepareTcc : (tryFirst g).Does (dtm.prepareTcc g) σ (fun _ _ => True) := by
  simp only [Dtm.prepareTcc, Discipline.does_bind]
  refine tryFirst_loadTransaction fun tx hg _ => ?_
  simp only [does_ofExcept]
  intro _ _
  split
  · exact Discipline.does_pure.mpr trivial
  · simp only [Discipline.does_bind, does_ofExcept]
    exact fun _ _ => tryFirst_prepareTccLoop rfl (.start hg rfl)

theorem tryFirst_confirmLoop {tx : Transaction} {passed ahead : List Branch}
    (hbase : ∀ base, σ.snap = some base → base.status.pastTry = true)
    (h : Scan g σ tx True passed ahead) :
    (tryFirst g).Does (dtm.phase2Loop "confirm" Dtm.confirmUrl .succeeded .succeeded tx passed ahead)
      σ (fun _ _ => True) := by
  induction ahead generalizing passed with
  | nil => exact tryFirst_persistTransaction (h.write fun _ => trivial) fun _ => trivial
  | cons branch ahead ih =>
    have push {b : Branch} (hb : b.definition = branch.definition) :
        Scan g σ tx True (passed ++ [b]) ahead :=
      h.push hb fun _ base hsnap => Or.inr (Or.inl (hbase base hsnap))
    rw [Dtm.phase2Loop, Discipline.does_bind]
    refine tryFirst_barrier (by simp) fun d => ?_
    split
    · simp only [Discipline.does_bind, does_ofExcept]
      intro _ _
      refine tryFirst_invokeBranch (by decide) (fun _ => h.mayConfirm hbase) ?_ fun b hb => ?_
      · rw [if_pos rfl]
        exact ih (push rfl)
      · rw [if_neg Bool.false_ne_true, Discipline.does_bind]
        refine tryFirst_releaseBarrier (tryFirst_persistTransaction ?_ fun _ => trivial)
        exact h.leave (b := { b with status := .failed }) hb (by simp) fun _ => hbase
    · exact ih (push rfl)

theorem tryFirst_confirmTcc : (tryFirst g).Does (dtm.confirmTcc g) σ (fun _ _ => True) := by
  simp only [Dtm.confirmTcc, Discipline.does_bind]
  refine tryFirst_loadTransaction fun tx hg _ => ?_
  simp only [does_ofExcept]
  intro _ _
  split
  · exact Discipline.does_pure.mpr trivial
  · simp only [Discipline.does_bind, does_ofExcept, ensureStatus_eq_ok, List.mem_cons,
      List.not_mem_nil, or_false]
    intro _ hs
    refine tryFirst_confirmLoop (fun base hsnap => ?_) (.start hg rfl)
    cases hsnap
    rcases hs with hs | hs <;> rw [hs] <;> rfl

theorem tryFirst_cancelTccLoop {tx : Transaction} {passed ahead : List Branch}
    (hst : tx.status = .aborting) (h : Scan g σ tx False passed ahead) :
    (tryFirst g).Does (dtm.cancelTccLoop tx passed ahead) σ (fun _ _ => True) := by
  induction ahead generalizing passed with
  | nil => exact tryFirst_persistTransaction (h.write fun h => (nomatch h)) fun _ => trivial
  | cons branch ahead ih =>
    have skip {b : Branch} (hb : b.definition = branch.definition) (hs : b.status ≠ .succeeded) :
        Scan g σ tx False (passed ++ [b]) ahead :=
      h.push hb fun hp => (hp.resolve_left hs).elim
    simp only [Dtm.cancelTccLoop, Discipline.does_bind]
    refine tryFirst_barrier (by simp) fun d => ?_
    split
    · simp only [Discipline.does_bind, does_ofExcept]
      intro _ _
      refine tryFirst_invokeBranch (by decide) (fun h => absurd h (by decide)) ?_ fun b hb => ?_
      · rw [if_pos rfl]
        exact ih (skip rfl (by simp))
      · rw [if_neg Bool.false_ne_true, Discipline.does_bind]
        refine tryFirst_releaseBarrier (tryFirst_persistTransaction ?_ fun _ => trivial)
        refine h.leave (b := { b with status := .failed }) hb (by simp) fun hpast => ?_
        rw [hst] at hpast
        cases hpast
    · cases d with
      | execute => exact Discipline.does_throw
      | skipDuplicate =>
        exact ih (h.push rfl fun hp _ _ => Or.inl (hp.resolve_right id))
      | skipNullCompensation => exact ih (skip rfl (by simp))
      | skipCancelledTry => exact Discipline.does_throw

theorem tryFirst_cancelTcc : (tryFirst g).Does (dtm.cancelTcc g) σ (fun _ _ => True) := by
  simp only [Dtm.cancelTcc, Discipline.does_bind]
  refine tryFirst_loadTransaction fun tx hg _ => ?_
  simp only [does_ofExcept]
  intro _ _
  split
  · exact Discipline.does_pure.mpr trivial
  · simp only [Discipline.does_bind, does_ofExcept]
    exact fun _ _ => tryFirst_cancelTccLoop rfl (.start hg rfl)

theorem tryFirst_scheduleSubmit :
    (tryFirst g).Does (Dtm.scheduleSubmit g) σ (fun _ _ => True) := by
  simp only [Dtm.scheduleSubmit, Discipline.does_bind]
  refine tryFirst_loadTransaction fun tx hg hk => ?_
  split
  · exact Discipline.does_pure.mpr trivial
  · simp only [Discipline.does_bind, does_ofExcept]
    intro _ _ _ _
    split
    · rename_i hdecide
      -- a TCC is taken to Succeeding from Prepared only
      have hs : tx.status = .prepared := by
        rcases hdecide with ⟨-, h⟩ | ⟨h, -⟩
        · exact h
        · cases hk.symm.trans h
      refine tryFirst_persistTransaction ⟨tx, rfl, rfl, ?_⟩ fun _ => trivial
      exact List.forall₂_same.mpr fun a _ => ⟨rfl, fun _ => Or.inr (Or.inl (by rw [hs]; rfl))⟩
    · split
      · rename_i hw
        cases hk.symm.trans hw.1
      · exact Discipline.does_pure.mpr trivial

/-! ### Recovery -/

theorem tcc_not_callback {tx : Transaction} (hk : tx.kind = .tcc) :
    isCallbackWorkflow tx = false := by simp [isCallbackWorkflow, hk]

theorem tryFirst_expire {tx : Transaction} (hg : tx.gid = g) (hk : tx.kind = .tcc) :
    (tryFirst g).Does (dtm.expire tx) σ (fun _ _ => True) := by
  subst hg
  simp only [Dtm.expire, hk]
  exact tryFirst_cancelTcc

theorem tryFirst_resume {status : TransactionStatus} {move : Act Transaction}
    (h : dtm.resume g .tcc status = some move) :
    (tryFirst g).Does move σ (fun _ _ => True) := by
  cases status <;> cases h
  · exact tryFirst_prepareTcc
  · exact tryFirst_prepareTcc
  · exact tryFirst_confirmTcc
  · exact tryFirst_cancelTcc

theorem tryFirst_recover : (tryFirst g).Does (dtm.recover g) σ (fun _ _ => True) := by
  simp only [Dtm.recover_eq, Discipline.does_bind]
  refine tryFirst_loadTransaction fun tx hg hk => ?_
  split
  · exact Discipline.does_pure.mpr trivial
  · rw [if_neg fun h => absurd (hk.symm.trans h.1) (by decide), Dtm.recoverNow,
      Discipline.does_bind]
    refine tryFirst_currentMillis fun now => ?_
    split
    · exact tryFirst_expire hg hk
    · rw [tcc_not_callback hk, if_neg Bool.false_ne_true, hk]
      cases hs : tx.status with
      | submitted => exact tryFirst_prepareTcc
      | trying => exact tryFirst_prepareTcc
      | prepared => exact tryFirst_confirmTcc
      | succeeding => exact tryFirst_confirmTcc
      | aborting => exact tryFirst_cancelTcc
      | _ => exact Discipline.does_throw

theorem tryFirst_tickMove {now : Nat} {tx : Transaction} (hg : tx.gid = g)
    (hk : tx.kind = .tcc) {move : Act Transaction} (h : dtm.tickMove now tx = some move) :
    (tryFirst g).Does move σ (fun _ _ => True) := by
  rw [Dtm.tickMove, tcc_not_callback hk] at h
  split at h
  · cases h
  split at h
  · cases h
  split at h
  · cases h
    exact tryFirst_expire hg hk
  simp only [Bool.false_eq_true, if_false] at h
  split at h
  · cases h
  · rw [hg, hk] at h
    exact tryFirst_resume h

theorem tryFirst_tickLoop {now : Nat} {txs : List Transaction}
    (htxs : ∀ tx ∈ txs, tx.gid = g → tx.kind = .tcc) :
    (tryFirst g).Does (dtm.tickLoop now txs) σ (fun _ _ => True) := by
  induction txs generalizing σ with
  | nil => exact Discipline.does_pure.mpr trivial
  | cons tx rest ih =>
    have ih {σ : TccView} := @ih σ fun tx htx => htxs tx (.tail _ htx)
    rw [Dtm.tickLoop]
    split
    · exact ih
    · rename_i move hmove
      have hmove : (tryFirst g).Does move σ (fun _ _ => True) := by
        by_cases hg : tx.gid = g
        · exact tryFirst_tickMove hg (htxs tx (.head _) hg) hmove
        · exact tryFirst_of_within hg (within_tickMove hmove) σ
      simp only [Discipline.does_bind, Discipline.does_pure]
      exact hmove.mono fun _ _ _ => ih.mono fun _ _ _ => trivial

theorem tryFirst_tickRecoverOnce :
    (tryFirst g).Does dtm.tickRecoverOnce σ (fun _ _ => True) := by
  simp only [Dtm.tickRecoverOnce, Discipline.does_bind]
  refine tryFirst_currentMillis fun now => ?_
  exact tryFirst_call.mpr ⟨trivial, fun r hr => tryFirst_tickLoop hr⟩

end Walk

end RozeDtm
