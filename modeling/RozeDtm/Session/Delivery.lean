import RozeDtm.Session.Scope

/-!
# Operations on a Message

`delivery g` is the discipline of the operations that a Message `g` is driven by.  A session
keeps the record that was last read or written and a time that has come.  A call is issued
only over a record in Succeeding whose dispatch time has come, a record is not written over
a terminal one, and a record in Succeeding stays there or becomes Succeeded.
-/

namespace RozeDtm

open Conc

/-- What an operation knows of a Message. -/
structure MessageView where
  snap : Option Transaction
  now : Nat

/-- An operation that has done nothing yet. -/
def MessageView.start : MessageView := ⟨none, 0⟩

/-- What two records of a Message have in common. -/
structure SameMessage (base tx : Transaction) : Prop where
  kind : tx.kind = base.kind
  createdAtMillis : tx.createdAtMillis = base.createdAtMillis
  options : tx.options = base.options

theorem SameMessage.refl (tx : Transaction) : SameMessage tx tx := ⟨rfl, rfl, rfl⟩

/-- What a Message may be written over. -/
structure MessageWrite (base tx : Transaction) : Prop where
  same : SameMessage base tx
  live : base.status.isTerminal = false
  committed : base.status = .succeeding → tx.status = .succeeding ∨ tx.status = .succeeded

/-- The operation may call: the commit is stored, and the dispatch time has come. -/
def MessageView.MayCall (σ : MessageView) : Prop :=
  ∃ base, σ.snap = some base ∧ base.status = .succeeding ∧ messageDispatchDue base σ.now = true

/-- What the operations do with the Message `g`. -/
def delivery (g : String) : Discipline effects MessageView where
  pre := fun σ o => match o with
    | .updateTransaction tx => tx.gid = g → ∃ base, σ.snap = some base ∧ MessageWrite base tx
    | .invokeBegin c => c.gid = g → σ.MayCall
    | .insertTransaction _ | .deleteTransactionIfUnchanged _ => False
    | _ => True
  sees := fun _ o r => match o with
    | .getTransaction gid => ∀ tx, (r : Option Transaction) = some tx →
      tx.gid = gid ∧ (gid = g → tx.kind = .message)
    | .listTransactions => ∀ tx, List.Mem tx r → tx.gid = g → tx.kind = .message
    | _ => True
  next := fun σ o r => match o with
    | .getTransaction gid => if gid = g then { σ with snap := r } else σ
    | .updateTransaction tx => if tx.gid = g then { σ with snap := some tx } else σ
    | .currentMillis => { σ with now := max σ.now r }
    | _ => σ

/-- What stays with another transaction keeps to it, from any session. -/
theorem delivery_of_within {α : Type} {gid g : String} (hg : gid ≠ g) {x : Act α}
    (h : (within gid).Does x () (fun _ _ => True)) (σ : MessageView) :
    (delivery g).Does x σ (fun _ _ => True) := by
  have hx := Discipline.Follows.transfer (fun _ _ => True) (E := delivery g) (u := σ) ?_ ?_
    (fun _ _ _ => trivial) h trivial
  · exact hx.mono fun _ _ _ _ _ => trivial
  · rintro _ _ o - hp
    cases o with
    | updateTransaction tx => exact fun h => absurd ((hp : tx.gid = gid).symm.trans h) hg
    | invokeBegin c => exact fun h => absurd ((hp : c.gid = gid).symm.trans h) hg
    | insertTransaction | deleteTransactionIfUnchanged => exact hp.elim
    | _ => trivial
  · rintro _ _ o r - _ hr
    cases o with
    | getTransaction gid' => exact fun tx htx => (hr tx htx).1
    | _ => trivial

/-- A Message that is being dispatched: its commit is stored and its time has come. -/
structure Sending (g : String) (tx : Transaction) (σ : MessageView) : Prop where
  gid : tx.gid = g
  status : tx.status = .succeeding
  snap : ∃ base, σ.snap = some base ∧ base.status = .succeeding ∧
    messageDispatchDue base σ.now = true ∧ SameMessage base tx

theorem messageDispatchDue_mono {tx : Transaction} {now now' : Nat}
    (h : messageDispatchDue tx now = true) (hle : now ≤ now') :
    messageDispatchDue tx now' = true := by
  rw [messageDispatchDue] at h ⊢
  cases hd : messageDispatchAtMillis tx with
  | none => rfl
  | some at' =>
    rw [hd, Option.all_some, decide_eq_true_eq] at h
    rw [Option.all_some, decide_eq_true_eq]
    exact Nat.le_trans h hle

theorem SameMessage.messageDispatchDue {base tx : Transaction} (h : SameMessage base tx)
    (now : Nat) : messageDispatchDue tx now = messageDispatchDue base now := by
  rw [RozeDtm.messageDispatchDue, RozeDtm.messageDispatchDue, messageDispatchAtMillis,
    messageDispatchAtMillis, h.options, h.createdAtMillis]

namespace Sending

variable {g : String} {tx : Transaction} {σ : MessageView}

theorem mayCall (h : Sending g tx σ) : σ.MayCall := by
  obtain ⟨base, hb, hs, hd, -⟩ := h.snap
  exact ⟨base, hb, hs, hd⟩

/-- Time goes on. -/
theorem later (h : Sending g tx σ) (now : Nat) :
    Sending g tx { σ with now := max σ.now now } := by
  obtain ⟨base, hb, hs, hd, hsame⟩ := h.snap
  exact ⟨h.gid, h.status, base, hb, hs, messageDispatchDue_mono hd (Nat.le_max_left ..), hsame⟩

/-- The branches move on. -/
theorem withBranches (h : Sending g tx σ) (bs : List Branch) :
    Sending g { tx with branches := bs } σ := by
  obtain ⟨base, hb, hs, hd, hsame⟩ := h.snap
  exact ⟨h.gid, h.status, base, hb, hs, hd, hsame.kind, hsame.createdAtMillis, hsame.options⟩

/-- The record is written. -/
theorem write (h : Sending g tx σ) {bs : List Branch} {st : TransactionStatus}
    (hst : st = .succeeding ∨ st = .succeeded) :
    ∃ base, σ.snap = some base ∧ MessageWrite base { tx with branches := bs, status := st } := by
  obtain ⟨base, hb, hs, -, hsame⟩ := h.snap
  refine ⟨base, hb, ⟨hsame.kind, hsame.createdAtMillis, hsame.options⟩, ?_, fun _ => hst⟩
  rw [hs]
  rfl

/-- It is written as it is, and dispatched on. -/
theorem rewrite (h : Sending g tx σ) : ∃ base, σ.snap = some base ∧ MessageWrite base tx := by
  obtain ⟨base, hb, hs, -, hsame⟩ := h.snap
  exact ⟨base, hb, hsame, by rw [hs]; rfl, fun _ => Or.inl h.status⟩

theorem written (h : Sending g tx σ) : Sending g tx.written { σ with snap := some tx } := by
  obtain ⟨base, -, -, hd, hsame⟩ := h.snap
  refine ⟨h.gid, h.status, tx, rfl, h.status, ?_, rfl, rfl, rfl⟩
  rwa [hsame.messageDispatchDue]

end Sending

section Walk

variable {g : String} {σ : MessageView} {dtm : Dtm}

/-! ### Steps -/

theorem delivery_call {o : Effect} {Q : MessageView → o.Reply → Prop} :
    (delivery g).Does (Act.call o) σ Q ↔ (delivery g).pre σ o ∧
      ∀ r, (delivery g).sees σ o r → Q ((delivery g).next σ o r) r :=
  Discipline.does_perform

theorem delivery_loadTransaction {Q : MessageView → Transaction → Prop}
    (h : ∀ tx, tx.gid = g → tx.kind = .message → Q { σ with snap := some tx } tx) :
    (delivery g).Does (loadTransaction g) σ Q := by
  simp only [loadTransaction, Discipline.does_bind, does_ofOption]
  refine delivery_call.mpr ⟨trivial, fun r hr tx htx => ?_⟩
  obtain ⟨hg, hk⟩ := hr tx htx
  have hnext : (delivery g).next σ (.getTransaction g) r = { σ with snap := some tx } := by
    rw [← htx]
    exact if_pos rfl
  rw [hnext]
  exact h tx hg (hk rfl)

theorem delivery_transactionOfKind {kind : TransactionKind} {Q : MessageView → Transaction → Prop}
    (h : ∀ tx, tx.gid = g → tx.kind = .message → tx.kind = kind →
      Q { σ with snap := some tx } tx) :
    (delivery g).Does (transactionOfKind g kind) σ Q := by
  simp only [transactionOfKind, Discipline.does_bind]
  refine delivery_loadTransaction fun tx hg hm => ?_
  simp only [does_ofExcept, ensureKind_eq_ok, Discipline.does_pure]
  exact fun _ hk => h tx hg hm hk

theorem delivery_persistTransaction {tx base : Transaction}
    {Q : MessageView → Transaction → Prop} (hg : tx.gid = g) (hb : σ.snap = some base)
    (hw : MessageWrite base tx) (hQ : Q { σ with snap := some tx } tx.written) :
    (delivery g).Does (persistTransaction tx) σ Q := by
  refine ⟨fun _ => ⟨base, hb, hw⟩, fun r _ => ?_⟩
  have hnext : (delivery g).next σ (.updateTransaction tx) r = { σ with snap := some tx } :=
    if_pos hg
  match r with
  | .ok _ =>
    rintro a ⟨⟩
    rw [hnext]
    exact hQ
  | .error _ => exact fun a ha => nomatch ha

theorem delivery_barrier {b : BranchBarrier} {Q : MessageView → BarrierDecision → Prop}
    (hQ : ∀ d, Q σ d) : (delivery g).Does (Store.barrier b) σ Q :=
  delivery_call.mpr ⟨trivial, fun d _ => hQ d⟩

theorem delivery_releaseBarrier {b : BranchBarrier} {Q : MessageView → Unit → Prop}
    (hQ : Q σ ()) : (delivery g).Does (Store.releaseBarrier b) σ Q :=
  delivery_call.mpr ⟨trivial, fun _ _ => hQ⟩

theorem delivery_joinNext {n : Nat} {Q : MessageView → Fin (n + 1) → Prop} (hQ : ∀ k, Q σ k) :
    (delivery g).Does (joinNext n) σ Q :=
  delivery_call.mpr ⟨trivial, fun k _ => hQ k⟩

theorem delivery_currentMillis {Q : MessageView → Nat → Prop}
    (hQ : ∀ now, Q { σ with now := max σ.now now } now) :
    (delivery g).Does currentMillis σ Q :=
  delivery_call.mpr ⟨trivial, fun now _ => hQ now⟩

theorem delivery_invokeBranch {options : TransactionOptions} {gid : String} {branch : Branch}
    {url op : String} {tx : Transaction} {Q : MessageView → Branch × Bool → Prop}
    (h : Sending g tx σ) (hQ : ∀ σ r, Sending g tx σ → Q σ r) :
    (delivery g).Does (dtm.invokeBranch options gid branch url op) σ Q := by
  simp only [Dtm.invokeBranch, Discipline.does_bind]
  refine delivery_call.mpr ⟨fun _ => h.mayCall, fun _ _ => ?_⟩
  refine delivery_call.mpr ⟨trivial, fun ok _ => ?_⟩
  split
  · exact Discipline.does_pure.mpr (hQ _ _ h)
  · rw [Discipline.does_bind]
    exact delivery_currentMillis fun now => Discipline.does_pure.mpr (hQ _ _ (h.later now))

/-! ### Dispatch -/

theorem delivery_dispatchMessageLoop {tx : Transaction} (h : Sending g tx σ)
    (passed ahead : List Branch) :
    (delivery g).Does (dtm.dispatchMessageLoop tx passed ahead) σ (fun _ _ => True) := by
  induction ahead generalizing σ passed with
  | nil =>
    obtain ⟨base, hb, hw⟩ := h.write (Or.inr rfl)
    exact delivery_persistTransaction h.gid hb hw trivial
  | cons branch ahead ih =>
    rw [Dtm.dispatchMessageLoop]
    split
    · exact ih h _
    · rw [Discipline.does_bind]
      refine delivery_barrier fun d => ?_
      split
      · simp only [Discipline.does_bind]
        refine delivery_invokeBranch h fun σ r h => ?_
        split
        · exact ih h _
        · rw [Discipline.does_bind]
          obtain ⟨base, hb, hw⟩ := h.write (Or.inl h.status)
          exact delivery_releaseBarrier (delivery_persistTransaction h.gid hb hw trivial)
      · exact ih h _

theorem delivery_releaseAll (bs : List BranchBarrier) {Q : MessageView → Unit → Prop}
    (hQ : Q σ ()) : (delivery g).Does (claimBatch.releaseAll bs) σ Q := by
  induction bs with
  | nil => exact Discipline.does_pure.mpr hQ
  | cons b rest ih =>
    rw [claimBatch.releaseAll, Discipline.does_bind]
    exact delivery_releaseBarrier ih

theorem delivery_claimBatch {gid op : String} (claimed : List BranchBarrier) (ids : List String)
    {Q : MessageView → Bool → Prop} (hQ : ∀ ok, Q σ ok) :
    (delivery g).Does (claimBatch gid op claimed ids) σ Q := by
  induction ids generalizing claimed with
  | nil => exact Discipline.does_pure.mpr (hQ _)
  | cons id ids ih =>
    simp only [claimBatch, Discipline.does_bind]
    refine delivery_barrier fun d => ?_
    split
    · rw [Discipline.does_bind]
      exact delivery_releaseAll _ (Discipline.does_pure.mpr (hQ _))
    · exact ih _

theorem delivery_advanceTask {tx : Transaction} {options : TransactionOptions}
    {onOk onErr : BranchStatus} {task : BatchTask} (h : Sending g tx σ) (stage : TaskStage) :
    (delivery g).Does (dtm.advanceTask options onOk onErr task stage) σ
      (fun σ _ => Sending g tx σ) := by
  cases stage with
  | spawned =>
    rw [Dtm.advanceTask, Discipline.does_bind]
    exact delivery_call.mpr ⟨fun _ => h.mayCall, fun _ _ => Discipline.does_pure.mpr h⟩
  | calling =>
    simp only [Dtm.advanceTask, Dtm.settleTask, Discipline.does_bind]
    refine delivery_call.mpr ⟨trivial, fun ok _ => ?_⟩
    split
    · exact Discipline.does_pure.mpr (Discipline.does_pure.mpr h)
    · simp only [Discipline.does_bind]
      exact delivery_currentMillis fun now =>
        Discipline.does_pure.mpr (Discipline.does_pure.mpr (h.later now))
  | returned branch succeeded => exact Discipline.does_pure.mpr h

theorem delivery_joinBatch {tx : Transaction} {options : TransactionOptions}
    {onOk onErr : BranchStatus} {fuel : Nat} (ts : List (BatchTask × TaskStage))
    (failed : List Branch) (h : Sending g tx σ) :
    (delivery g).Does (dtm.joinBatch options onOk onErr fuel ts tx failed) σ
      (fun σ r => Sending g r.1 σ) := by
  induction fuel generalizing σ ts tx failed with
  | zero => exact Discipline.does_pure.mpr h
  | succ fuel ih =>
    cases ts with
    | nil => exact Discipline.does_pure.mpr h
    | cons p ts =>
      simp only [Dtm.joinBatch, Discipline.does_bind]
      refine delivery_joinNext fun k => ?_
      split
      · split
        · exact ih _ _ (h.withBranches _)
        · rw [Discipline.does_bind]
          exact delivery_releaseBarrier (ih _ _ (h.withBranches _))
      · rw [Discipline.does_bind]
        exact (delivery_advanceTask h _).mono fun σ stage h => ih _ _ h

theorem delivery_dispatchMessageConcurrent {tx : Transaction} (h : Sending g tx σ) :
    (delivery g).Does (dtm.dispatchMessageConcurrent tx) σ (fun _ _ => True) := by
  rw [Dtm.dispatchMessageConcurrent]
  split
  · obtain ⟨base, hb, hw⟩ := h.write (Or.inr rfl)
    exact delivery_persistTransaction h.gid hb hw trivial
  · rw [Discipline.does_bind]
    refine delivery_claimBatch _ _ fun claimed => ?_
    split
    · rw [Discipline.does_bind]
      -- the attempts are counted and written before the calls
      have h' := h.withBranches (tx.mapBranchesAt tx.undelivered fun branch =>
        { branch with status := .running, attempts := satAdd32 branch.attempts 1 }).branches
      obtain ⟨base, hb, hw⟩ := h'.rewrite
      refine delivery_persistTransaction h'.gid hb hw ?_
      rw [Discipline.does_bind]
      refine (delivery_joinBatch _ _ h'.written).mono fun σ r h => ?_
      obtain ⟨tx', failed⟩ := r
      have hst : (if failed.isEmpty then TransactionStatus.succeeded else .succeeding) =
          .succeeding ∨ (if failed.isEmpty then TransactionStatus.succeeded else .succeeding) =
          .succeeded := by
        split
        · exact Or.inr rfl
        · exact Or.inl rfl
      obtain ⟨base, hb, hw⟩ := h.write hst
      exact delivery_persistTransaction (by exact h.gid) hb hw trivial
    · rw [h.gid]
      exact delivery_loadTransaction fun _ _ _ => trivial

/-! ### The operations -/

/-- A record that was just read, with another status. -/
theorem delivery_persistStatus {tx : Transaction} {bs : List Branch} {st : TransactionStatus}
    {Q : MessageView → Transaction → Prop} (hg : tx.gid = g) (hb : σ.snap = some tx)
    (hlive : tx.status.isTerminal = false) (hs : tx.status ≠ .succeeding)
    (hQ : Q { σ with snap := some { tx with branches := bs, status := st } }
      { tx with branches := bs, status := st }.written) :
    (delivery g).Does (persistTransaction { tx with branches := bs, status := st }) σ Q :=
  delivery_persistTransaction (by exact hg) hb ⟨⟨rfl, rfl, rfl⟩, hlive, fun h => absurd h hs⟩ hQ

theorem delivery_prepareMessage :
    (delivery g).Does (Dtm.prepareMessage g) σ (fun _ _ => True) := by
  simp only [Dtm.prepareMessage, Discipline.does_bind]
  refine delivery_transactionOfKind fun tx hg _ _ => ?_
  split
  · exact Discipline.does_pure.mpr trivial
  · simp only [Discipline.does_bind, does_ofExcept, ensureStatus_eq_ok, List.mem_singleton]
    intro _ hs
    exact delivery_persistStatus hg rfl (by rw [hs]; rfl) (by simp [hs]) trivial

theorem delivery_abortMessage : (delivery g).Does (Dtm.abortMessage g) σ (fun _ _ => True) := by
  simp only [Dtm.abortMessage, Discipline.does_bind]
  refine delivery_transactionOfKind fun tx hg _ _ => ?_
  split
  · exact Discipline.does_pure.mpr trivial
  · simp only [Discipline.does_bind, does_ofExcept, ensureStatus_eq_ok, List.mem_cons,
      List.not_mem_nil, or_false]
    rintro _ (hs | hs) <;>
    · exact delivery_persistStatus hg rfl (by rw [hs]; rfl) (by simp [hs]) trivial

theorem delivery_dispatchMessage :
    (delivery g).Does (dtm.dispatchMessage g) σ (fun _ _ => True) := by
  -- what follows once the record is Succeeding and the clock was read
  have dispatch {tx : Transaction} {σ : MessageView} {now : Nat} (hg : tx.gid = g)
      (hs : tx.status = .succeeding) (hsnap : ∃ base, σ.snap = some base ∧
        base.status = .succeeding ∧ SameMessage base tx) (hnow : now ≤ σ.now) :
      (delivery g).Does (do
        if !messageDispatchDue tx now then
          return tx
        if tx.options.concurrent then
          dtm.dispatchMessageConcurrent tx
        else
          dtm.dispatchMessageLoop tx [] tx.branches) σ (fun _ _ => True) := by
    split
    · exact Discipline.does_pure.mpr trivial
    · rename_i hdue
      obtain ⟨base, hb, hbs, hsame⟩ := hsnap
      have h : Sending g tx σ := by
        refine ⟨hg, hs, base, hb, hbs, messageDispatchDue_mono ?_ hnow, hsame⟩
        rw [← hsame.messageDispatchDue]
        simpa using hdue
      split
      · exact delivery_dispatchMessageConcurrent h
      · exact delivery_dispatchMessageLoop h _ _
  simp only [Dtm.dispatchMessage, Discipline.does_bind]
  refine delivery_transactionOfKind fun tx hg _ _ => ?_
  split
  · exact Discipline.does_pure.mpr trivial
  · simp only [Discipline.does_bind, does_ofExcept, ensureStatus_eq_ok, List.mem_cons,
      List.not_mem_nil, or_false]
    intro _ hs
    split
    · rename_i hne
      have hlive : tx.status.isTerminal = false := by
        rcases hs with hs | hs | hs <;> rw [hs] <;> rfl
      rw [Discipline.does_bind]
      refine delivery_persistStatus hg rfl hlive hne ?_
      rw [Discipline.does_bind]
      refine delivery_currentMillis fun now => ?_
      exact dispatch (by exact hg) rfl ⟨_, rfl, rfl, rfl, rfl, rfl⟩ (Nat.le_max_right ..)
    · rename_i hst
      rw [Discipline.does_bind, Discipline.does_pure, Discipline.does_bind]
      refine delivery_currentMillis fun now => ?_
      exact dispatch hg (not_not.mp hst) ⟨tx, rfl, not_not.mp hst, .refl tx⟩ (Nat.le_max_right ..)

theorem delivery_scheduleSubmit :
    (delivery g).Does (Dtm.scheduleSubmit g) σ (fun _ _ => True) := by
  simp only [Dtm.scheduleSubmit, Discipline.does_bind]
  refine delivery_loadTransaction fun tx hg hk => ?_
  split
  · exact Discipline.does_pure.mpr trivial
  · simp only [Discipline.does_bind, does_ofExcept]
    intro _ _ _ hs
    split
    · rename_i hdecide
      have hsub : tx.status = .submitted ∨ tx.status = .prepared := by
        rcases hdecide with ⟨hk' | hk', -⟩ | ⟨-, h⟩
        · cases hk.symm.trans hk'
        · cases hk.symm.trans hk'
        · exact h
      rcases hsub with hs | hs <;>
      · exact delivery_persistStatus hg rfl (by rw [hs]; rfl) (by simp [hs]) trivial
    · split
      · rename_i hw
        cases hk.symm.trans hw.1
      · exact Discipline.does_pure.mpr trivial

theorem delivery_scheduleAbort :
    (delivery g).Does (Dtm.scheduleAbort g) σ (fun _ _ => True) := by
  simp only [Dtm.scheduleAbort, Discipline.does_bind]
  refine delivery_loadTransaction fun tx hg hk => ?_
  split
  · exact Discipline.does_pure.mpr trivial
  · exact delivery_abortMessage

theorem delivery_resetRetry : (delivery g).Does (Dtm.resetRetry g) σ (fun _ _ => True) := by
  simp only [Dtm.resetRetry, Discipline.does_bind]
  refine delivery_loadTransaction fun tx hg hk => ?_
  simp only [does_ofExcept, ensure_eq_ok, Bool.not_eq_true']
  intro _ hlive
  refine delivery_currentMillis fun now => ?_
  exact delivery_persistTransaction (by exact hg) rfl
    ⟨⟨rfl, rfl, rfl⟩, hlive, fun h => Or.inl h⟩ trivial

/-! ### Recovery -/

theorem delivery_expire {tx : Transaction} (hg : tx.gid = g) (hk : tx.kind = .message) :
    (delivery g).Does (dtm.expire tx) σ (fun _ _ => True) := by
  subst hg
  simp only [Dtm.expire, hk]
  split
  · exact delivery_dispatchMessage
  · exact delivery_abortMessage

theorem delivery_resume {status : TransactionStatus} {move : Act Transaction}
    (h : dtm.resume g .message status = some move) :
    (delivery g).Does move σ (fun _ _ => True) := by
  cases status <;> cases h
  · exact delivery_prepareMessage
  · exact delivery_dispatchMessage

theorem message_not_callback {tx : Transaction} (hk : tx.kind = .message) :
    isCallbackWorkflow tx = false := by simp [isCallbackWorkflow, hk]

theorem delivery_recoverNow {tx : Transaction} (hg : tx.gid = g) (hk : tx.kind = .message) :
    (delivery g).Does (dtm.recoverNow g tx) σ (fun _ _ => True) := by
  rw [Dtm.recoverNow, Discipline.does_bind]
  refine delivery_currentMillis fun now => ?_
  split
  · exact delivery_expire hg hk
  · rw [message_not_callback hk, if_neg Bool.false_ne_true, hk]
    cases hs : tx.status with
    | prepared => exact delivery_dispatchMessage
    | submitted => exact delivery_prepareMessage
    | succeeding => exact delivery_dispatchMessage
    | _ => exact Discipline.does_throw

theorem delivery_recover : (delivery g).Does (dtm.recover g) σ (fun _ _ => True) := by
  simp only [Dtm.recover_eq, Discipline.does_bind]
  refine delivery_loadTransaction fun tx hg hk => ?_
  split
  · exact Discipline.does_pure.mpr trivial
  · split
    · rw [Discipline.does_bind]
      refine delivery_currentMillis fun now => ?_
      split
      · exact Discipline.does_pure.mpr trivial
      · exact delivery_recoverNow hg hk
    · exact delivery_recoverNow hg hk

theorem delivery_tickMove {now : Nat} {tx : Transaction} (hg : tx.gid = g)
    (hk : tx.kind = .message) {move : Act Transaction} (h : dtm.tickMove now tx = some move) :
    (delivery g).Does move σ (fun _ _ => True) := by
  rw [Dtm.tickMove, message_not_callback hk] at h
  split at h
  · cases h
  split at h
  · cases h
  split at h
  · cases h
    exact delivery_expire hg hk
  simp only [Bool.false_eq_true, if_false] at h
  split at h
  · cases h
  · rw [hg, hk] at h
    exact delivery_resume h

theorem delivery_tickLoop {now : Nat} {txs : List Transaction}
    (htxs : ∀ tx ∈ txs, tx.gid = g → tx.kind = .message) :
    (delivery g).Does (dtm.tickLoop now txs) σ (fun _ _ => True) := by
  induction txs generalizing σ with
  | nil => exact Discipline.does_pure.mpr trivial
  | cons tx rest ih =>
    have ih {σ : MessageView} := @ih σ fun tx htx => htxs tx (.tail _ htx)
    rw [Dtm.tickLoop]
    split
    · exact ih
    · rename_i move hmove
      have hmove : (delivery g).Does move σ (fun _ _ => True) := by
        by_cases hg : tx.gid = g
        · exact delivery_tickMove hg (htxs tx (.head _) hg) hmove
        · exact delivery_of_within hg (within_tickMove hmove) σ
      simp only [Discipline.does_bind, Discipline.does_pure]
      exact hmove.mono fun _ _ _ => ih.mono fun _ _ _ => trivial

theorem delivery_tickRecoverOnce :
    (delivery g).Does dtm.tickRecoverOnce σ (fun _ _ => True) := by
  simp only [Dtm.tickRecoverOnce, Discipline.does_bind]
  refine delivery_currentMillis fun now => ?_
  exact delivery_call.mpr ⟨trivial, fun r hr => delivery_tickLoop hr⟩

end Walk

end RozeDtm
