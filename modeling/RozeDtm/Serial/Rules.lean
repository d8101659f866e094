import RozeDtm.Conc.Alone
import RozeDtm.InMemory.Ledger
import RozeDtm.InMemory.Stored
import RozeDtm.Session.Scope

/-!
# Rules for an operation that runs alone

What each step of an operation does to the in-memory store when nothing else is under
way.  The clock may be set to anything between two steps, so the worlds in the rules are
named up to their clock (`World.setClock`).
-/

namespace RozeDtm

open Conc

/-- The same world at another time. -/
def World.setClock (w : World) (now : Nat) : World := { w with clock := now }

/-- The world after a call of operation `i` has returned. -/
def World.called (w : World) (i : Nat) (call : BranchCall) (ok : Bool) : World :=
  { w with history := (i, .ended call ok) :: (i, .began call) :: w.history }

/-- The world after operation `i` has taken a barrier. -/
def World.claimed (w : World) (i : Nat) (b : BranchBarrier) : World :=
  { w with barriers := insert b w.barriers, history := (i, .decided b .execute) :: w.history }

section Fields

variable (w : World) (now now' i : Nat) (call : BranchCall) (ok : Bool) (b : BranchBarrier)

@[simp] theorem setClock_txs : (w.setClock now).txs = w.txs := rfl
@[simp] theorem setClock_barriers : (w.setClock now).barriers = w.barriers := rfl
@[simp] theorem setClock_history : (w.setClock now).history = w.history := rfl
@[simp] theorem setClock_clock : (w.setClock now).clock = now := rfl
@[simp] theorem setClock_setClock : (w.setClock now).setClock now' = w.setClock now' := rfl
@[simp] theorem called_txs : (w.called i call ok).txs = w.txs := rfl
@[simp] theorem called_barriers : (w.called i call ok).barriers = w.barriers := rfl
@[simp] theorem called_history : (w.called i call ok).history =
    (i, .ended call ok) :: (i, .began call) :: w.history := rfl

@[simp] theorem claimed_txs : (w.claimed i b).txs = w.txs := rfl
@[simp] theorem claimed_barriers : (w.claimed i b).barriers = insert b w.barriers := rfl
@[simp] theorem claimed_history : (w.claimed i b).history =
    (i, .decided b .execute) :: w.history := rfl

end Fields

section Rules

variable {allow : Effect → World → Prop} {φ : World → Prop} {i : Nat} {w : World}
  {E : Err → World → Prop} {α : Type}

/-- Operations that run alone over the in-memory store, taking the steps that meet
`allow`. -/
abbrev alone (allow : Effect → World → Prop) : Machine effects World Outcome :=
  inMemory.restrict allow

theorem drifts_clock {w' : World} (h : (alone allow).Drifts w w') :
    ∃ now, w' = w.setClock now := by
  induction h with
  | refl => exact ⟨w.clock, rfl⟩
  | tail _ hd ih =>
    obtain ⟨now, rfl⟩ := ih
    obtain ⟨now', rfl⟩ := hd
    exact ⟨now', rfl⟩

theorem runs_call {o : Effect} {Q : o.Reply → World → Prop} (hφ : ∀ now, φ (w.setClock now))
    (h : ∀ now c, allow o (w.setClock now) → Q (InMemory.exec i o c (w.setClock now)).1
      (InMemory.exec i o c (w.setClock now)).2) :
    (alone allow).Runs φ i (Act.call o) Q E w := by
  refine Machine.runs_perform.mpr fun w₁ hd => ?_
  obtain ⟨now, rfl⟩ := drifts_clock hd
  exact ⟨hφ now, fun ha c => h now c ha.2⟩

/-- What a program does after a step has only to be shown where the step is allowed. -/
theorem runs_allowed {o : Effect} {k : o.Reply → Act α} {Q : α → World → Prop}
    (hφ : ∀ now, φ (w.setClock now))
    (h : ∀ now, allow o (w.setClock now) → (alone allow).Runs φ i (Act.call o >>= k) Q E w) :
    (alone allow).Runs φ i (Act.call o >>= k) Q E w := by
  refine Machine.runs_bind.mpr (Machine.runs_perform.mpr fun w₁ hd => ?_)
  obtain ⟨now, rfl⟩ := drifts_clock hd
  refine ⟨hφ now, fun ha c => ?_⟩
  exact (Machine.runs_perform.mp (Machine.runs_bind.mp (h now ha.2)) _ hd).2 ha c

@[simp] theorem runs_ofExcept {C : Type} {M : Machine effects World C} {e : Except Err α}
    {Q : α → World → Prop} : M.Runs φ i (Act.ofExcept e) Q E w ↔
      match e with
      | .ok a => Q a w
      | .error e => E e w := by
  cases e <;> exact Iff.rfl

theorem runs_ofOption {M : Machine effects World Outcome} {o : Option α} {e : Err}
    {Q : α → World → Prop} (found : ∀ a, o = some a → Q a w) (missing : o = none → E e w) :
    M.Runs φ i (Act.ofOption o e) Q E w := by
  cases o with
  | none => exact missing rfl
  | some a => exact found a rfl

theorem runs_currentMillis {Q : Nat → World → Prop} (hφ : ∀ now, φ (w.setClock now))
    (h : ∀ now, Q now (w.setClock now)) : (alone allow).Runs φ i currentMillis Q E w :=
  runs_call hφ fun now _ _ => h now

theorem runs_loadTransaction {gid : String} {Q : Transaction → World → Prop}
    (hφ : ∀ now, φ (w.setClock now))
    (found : ∀ now tx, w.txs[gid]? = some tx → Q tx (w.setClock now))
    (missing : ∀ now e, w.txs[gid]? = none → E e (w.setClock now)) :
    (alone allow).Runs φ i (loadTransaction gid) Q E w := by
  refine Machine.runs_bind.mpr (runs_call hφ fun now c _ => ?_)
  simp only [InMemory.exec, InMemory.getTransaction, setClock_txs]
  cases h : w.txs[gid]? with
  | none => exact missing now _ h
  | some tx => exact found now tx h

theorem runs_transactionOfKind {gid : String} {kind : TransactionKind}
    {Q : Transaction → World → Prop} (hφ : ∀ now, φ (w.setClock now))
    (found : ∀ now tx, w.txs[gid]? = some tx → tx.kind = kind → Q tx (w.setClock now))
    (missing : ∀ now e, E e (w.setClock now)) :
    (alone allow).Runs φ i (transactionOfKind gid kind) Q E w := by
  refine Machine.runs_bind.mpr (runs_loadTransaction hφ (fun now tx htx => ?_) fun now e _ =>
    missing now e)
  rw [Machine.runs_bind, runs_ofExcept]
  cases h : ensureKind tx kind with
  | ok _ => exact found now tx htx (ensureKind_eq_ok.mp h)
  | error e => exact missing now e

theorem runs_persistTransaction {tx : Transaction} {Q : Transaction → World → Prop}
    (hφ : ∀ now, φ (w.setClock now))
    (h : ∀ now, allow (.updateTransaction tx) (w.setClock now) →
      Q tx.written ((w.setClock now).put (bumpTransactionRevision now tx))) :
    (alone allow).Runs φ i (persistTransaction tx) Q E w := by
  refine Machine.runs_bind.mpr fun w₁ hd => ?_
  obtain ⟨now, rfl⟩ := drifts_clock hd
  exact ⟨hφ now, fun ha c => h now ha.2⟩

theorem runs_insertTransaction {tx : Transaction} {Q : Unit → World → Prop}
    (hφ : ∀ now, φ (w.setClock now))
    (present : ∀ now e, w.txs[tx.gid]? ≠ none → E e (w.setClock now))
    (absent : ∀ now, w.txs[tx.gid]? = none → Q () ((w.setClock now).put tx)) :
    (alone allow).Runs φ i (Store.insertTransaction tx) Q E w := by
  intro w₁ hd
  obtain ⟨now, rfl⟩ := drifts_clock hd
  refine ⟨hφ now, fun _ c => ?_⟩
  by_cases htx : w.txs[tx.gid]? = none
  · have hexec : InMemory.insertTransaction (w.setClock now) tx =
        (.ok (), (w.setClock now).put tx) := by
      rw [InMemory.insertTransaction, if_neg]
      rw [setClock_txs, Std.ExtTreeMap.contains_eq_isSome_getElem?, htx]
      decide
    show Machine.Ends _ _ _ (Prog.pure (InMemory.insertTransaction (w.setClock now) tx).1) _
      (InMemory.insertTransaction (w.setClock now) tx).2
    rw [hexec]
    exact absent now htx
  · have hexec : InMemory.insertTransaction (w.setClock now) tx =
        (.error s!"transaction already exists: {tx.gid}", w.setClock now) := by
      rw [InMemory.insertTransaction, if_pos]
      rw [setClock_txs, Std.ExtTreeMap.contains_eq_isSome_getElem?]
      exact Option.isSome_iff_ne_none.mpr htx
    show Machine.Ends _ _ _ (Prog.pure (InMemory.insertTransaction (w.setClock now) tx).1) _
      (InMemory.insertTransaction (w.setClock now) tx).2
    rw [hexec]
    exact present now _ htx

/-- A barrier that is not a Cancel's. -/
theorem runs_barrierNotCancel {b : BranchBarrier} {Q : BarrierDecision → World → Prop}
    (hc : b.op ≠ "cancel") (hφ : ∀ now, φ (w.setClock now))
    (taken : ∀ now, b ∈ w.barriers →
      Q .skipDuplicate ((w.setClock now).note i (.decided b .skipDuplicate)))
    (cancelled : b.op = "try" → ∀ now,
      Q .skipCancelledTry ((w.setClock now).note i (.decided b .skipCancelledTry)))
    (free : ∀ now, b ∉ w.barriers → Q .execute ((w.setClock now).claimed i b)) :
    (alone allow).Runs φ i (Store.barrier b) Q E w := by
  refine runs_call hφ fun now c _ => ?_
  simp only [InMemory.exec]
  rcases barrier_cases (w.setClock now) b with ⟨hb, h⟩ | ⟨-, hop, h⟩ | ⟨-, hop, -⟩ | ⟨hb, -, h⟩
  · rw [h]
    exact taken now hb
  · rw [h]
    exact cancelled hop now
  · exact absurd hop hc
  · rw [h]
    exact free now hb

/-- A barrier that is neither a Try's nor a Cancel's. -/
theorem runs_barrier {b : BranchBarrier} {Q : BarrierDecision → World → Prop}
    (ht : b.op ≠ "try") (hc : b.op ≠ "cancel") (hφ : ∀ now, φ (w.setClock now))
    (taken : ∀ now, b ∈ w.barriers →
      Q .skipDuplicate ((w.setClock now).note i (.decided b .skipDuplicate)))
    (free : ∀ now, b ∉ w.barriers → Q .execute ((w.setClock now).claimed i b)) :
    (alone allow).Runs φ i (Store.barrier b) Q E w :=
  runs_barrierNotCancel hc hφ taken (fun h => absurd h ht) free

theorem runs_releaseBarrier {b : BranchBarrier} {Q : Unit → World → Prop}
    (hφ : ∀ now, φ (w.setClock now))
    (h : ∀ now, Q () ((InMemory.releaseBarrier (w.setClock now) b).note i (.released b))) :
    (alone allow).Runs φ i (Store.releaseBarrier b) Q E w :=
  runs_call hφ fun now _ _ => h now

theorem runs_invokeEnd {call : BranchCall} {Q : Bool → World → Prop}
    (hφ : ∀ now, φ (w.setClock now))
    (h : ∀ now ok, Q ok ((w.setClock now).note i (.ended call ok))) :
    (alone allow).Runs φ i (invokeEnd call) Q E w :=
  runs_call hφ fun now c _ => h now c.ok

/-- **Calling a branch.** -/
theorem runs_invokeBranch_through {dtm : Dtm} {options : TransactionOptions} {gid : String}
    {branch : Branch} {url op : String} {Q : Branch × Bool → World → Prop}
    (before : ∀ now, φ (w.setClock now))
    (during : ∀ now, φ ((w.note i (.began (Dtm.branchCall options gid branch url op))).setClock now))
    (after : ∀ now,
      φ ((w.called i (Dtm.branchCall options gid branch url op) false).setClock now))
    (ok : ∀ now, Q (branch, true)
      ((w.called i (Dtm.branchCall options gid branch url op) true).setClock now))
    (error : ∀ now b, b.definition = branch.definition → b.status = branch.status →
      b.attempts = branch.attempts → Q (b, false)
        ((w.called i (Dtm.branchCall options gid branch url op) false).setClock now)) :
    (alone allow).Runs φ i (dtm.invokeBranch options gid branch url op) Q E w := by
  refine Machine.runs_bind.mpr (runs_call before fun now c _ => ?_)
  refine Machine.runs_bind.mpr (runs_invokeEnd during fun now' r => ?_)
  cases r with
  | true => exact ok now'
  | false =>
    exact Machine.runs_bind.mpr (runs_call after fun now'' c'' _ => error now'' _ rfl rfl rfl)

/-- The same has only to be shown where the call is allowed. -/
theorem runs_invokeBranch_allowed {dtm : Dtm} {options : TransactionOptions} {gid : String}
    {branch : Branch} {url op : String} {Q : Branch × Bool → World → Prop}
    (hφ : ∀ now, φ (w.setClock now))
    (h : ∀ now, allow (.invokeBegin (Dtm.branchCall options gid branch url op)) (w.setClock now) →
      (alone allow).Runs φ i (dtm.invokeBranch options gid branch url op) Q E w) :
    (alone allow).Runs φ i (dtm.invokeBranch options gid branch url op) Q E w :=
  runs_allowed hφ h

/-- The same where only the records matter. -/
theorem runs_invokeBranch {dtm : Dtm} {options : TransactionOptions} {gid : String}
    {branch : Branch} {url op : String} {Q : Branch × Bool → World → Prop}
    (hφ : ∀ w' : World, w'.txs = w.txs → φ w')
    (ok : ∀ now, Q (branch, true)
      ((w.called i (Dtm.branchCall options gid branch url op) true).setClock now))
    (error : ∀ now b, b.definition = branch.definition → b.status = branch.status → Q (b, false)
      ((w.called i (Dtm.branchCall options gid branch url op) false).setClock now)) :
    (alone allow).Runs φ i (dtm.invokeBranch options gid branch url op) Q E w :=
  runs_invokeBranch_through (fun _ => hφ _ rfl) (fun _ => hφ _ rfl) (fun _ => hφ _ rfl) ok
    fun now b hdef hst _ => error now b hdef hst

end Rules

end RozeDtm
