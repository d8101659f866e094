import RozeDtm.Model.Dependencies
import RozeDtm.Properties.TickIsolation
import RozeDtm.Serial.Steady
import RozeDtm.Trail.World

/-!
# Back-off in the recovery tick

A branch whose last call has failed waits for its retry time.  The recovery tick passes a
transaction with a waiting branch by, unless the transaction has expired: an expiry calls all
branches of its operation, without a look at their retry times (`message_recalled`).  When the
tick runs no such expiry, it does not call the branch (`tick_respects_backOff`).
-/

namespace RozeDtm

open Conc

/-! ### Branches at rest -/

/-- Every retry time of the record counts, and the branches of a Workflow have ids of their
own. -/
structure Transaction.AtRest (tx : Transaction) : Prop where
  rested : ∀ b ∈ tx.branches, b.Rested
  ids : tx.kind = .workflow → (tx.branches.map Branch.id).Nodup

theorem Develops.ids {won : Set BranchBarrier} {tx tx' : Transaction} (h : Develops won tx tx') :
    tx'.branches.map Branch.id = tx.branches.map Branch.id :=
  map_eq_of_forall₂ (fun _ _ hb => Branch.id_eq hb.definition) h.branches

theorem lasting_atRest : Lasting fun _ tx => tx.AtRest where
  mono := fun _ h => h
  develops := fun {won tx tx'} hd h => by
    refine ⟨fun b hb => ?_, fun hk => ?_⟩
    · obtain ⟨a, ha, hab⟩ := exists_of_forall₂ hd.branches hb
      exact hab.rested (h.rested a ha)
    · rw [hd.ids]
      exact h.ids (hd.kind.symm.trans hk)

/-- Branches are handed over without a retry time, as their constructors build them. -/
def Operation.Unscheduled : Operation → Prop
  | .submit tx => ∀ b ∈ tx.branches, b.nextRetryMillis = none
  | .registerBranch _ branch => branch.nextRetryMillis = none
  | _ => True

theorem SubmittedAs.atRest {tx tx' : Transaction} (h : SubmittedAs tx tx')
    (hn : ∀ b ∈ tx.branches, b.nextRetryMillis = none) : tx'.AtRest := by
  refine ⟨fun b hb hne => ?_, fun hk => ?_⟩
  · obtain ⟨a, ha, hab⟩ := h.each b hb
    rw [hab] at hne
    exact absurd (hn a ha) hne
  · rw [h.kind] at hk
    rw [h.same (by rw [hk]; decide)]
    exact nodup_of_validateWorkflow hk h.valid

/-- A registration: the id of a new branch is not taken. -/
theorem Transaction.AtRest.register {now : Nat} {s s' : Transaction} {branch : Branch}
    (hs : s.AtRest) (hn : branch.nextRetryMillis = none)
    (h : appendDynamicBranch now s branch = .ok s') : s'.AtRest := by
  by_cases hex : ∃ existing ∈ s.branches, existing.id = branch.id
  · rw [appendDynamicBranch_existing h hex]
    exact hs
  rcases appendDynamicBranch_ok h with ⟨rfl, -⟩ | ⟨ha, -, hbranches⟩
  · exact hs
  refine ⟨fun b hb => ?_, fun hk => ?_⟩
  · rw [hbranches, List.mem_append, List.mem_singleton] at hb
    rcases hb with hb | rfl
    · exact hs.rested b hb
    · exact fun hne => absurd hn hne
  · rw [hbranches, List.map_append, List.map_singleton, List.nodup_append]
    refine ⟨hs.ids (ha.kind.symm.trans hk), List.nodup_singleton _, ?_⟩
    rintro _ hid _ hid' rfl
    obtain ⟨existing, hm, rfl⟩ := List.mem_map.mp hid
    exact hex ⟨existing, hm, List.mem_singleton.mp hid'⟩

/-! ### The calls of a tick -/

/-- `tick_recover_once` after it has read the clock. -/
def Dtm.tickAt (dtm : Dtm) (now : Nat) : Act (List Transaction) := do
  let listed ← Store.listTransactions
  dtm.tickLoop now listed

theorem Dtm.tickRecoverOnce_eq (dtm : Dtm) :
    dtm.tickRecoverOnce = currentMillis >>= fun now => dtm.tickAt now := rfl

/-- The branch calls that were issued under a barrier, latest first. -/
def World.callsUnder (w : World) (key : BranchBarrier) : List BranchCall :=
  (w.callsFor key.gid).filter fun call => call.barrier = key

theorem callsUnder_congr {w w' : World} {key : BranchBarrier}
    (h : eventsOf key.gid w'.history = eventsOf key.gid w.history) :
    w'.callsUnder key = w.callsUnder key := by
  rw [World.callsUnder, World.callsUnder, World.callsFor, World.callsFor, h]

theorem callsUnder_note {w w' : World} {key : BranchBarrier} {i : Nat} {e : Event}
    (hh : w'.history = (i, e) :: w.history) (he : ∀ call, e = .began call → call.barrier ≠ key) :
    w'.callsUnder key = w.callsUnder key := by
  by_cases hg : e.gid = key.gid
  · have hevents : eventsOf key.gid w'.history = (i, e) :: eventsOf key.gid w.history := by
      rw [hh, eventsOf, List.filter_cons_of_pos (by exact decide_eq_true hg), eventsOf]
    rw [World.callsUnder, World.callsUnder, World.callsFor, World.callsFor, hevents]
    cases e with
    | began call =>
      simp only [List.filterMap_cons, Event.began?]
      rw [List.filter_cons_of_neg (by simpa using he call rfl)]
    | _ => simp only [List.filterMap_cons, Event.began?]
  · refine callsUnder_congr ?_
    rw [hh, eventsOf, List.filter_cons_of_neg (by simpa using hg), eventsOf]

/-- **A step that issues no call under the barrier.** -/
theorem callsUnder_exec {o : Effect} {key : BranchBarrier} {w : World}
    (ho : ∀ call, o = .invokeBegin call → call.barrier ≠ key) (i : Nat) (c : Outcome) :
    (InMemory.exec i o c w).2.callsUnder key = w.callsUnder key := by
  rcases history_step i o c w with hh | ⟨e, he, hh⟩
  · exact callsUnder_congr (by rw [hh])
  · refine callsUnder_note hh ?_
    rintro call rfl
    exact ho call (began_ofStep he)

/-- While a tick runs: no call under `key` since those in `calls`, and the stored record of the
transaction has `S`. -/
structure Spared (S : Transaction → Prop) (key : BranchBarrier) (calls : List BranchCall)
    (w : World) : Prop where
  keyed : w.Keyed
  stored : ∀ s, w.txs[key.gid]? = some s → S s
  calls : w.callsUnder key = calls

theorem steady_spared {S : Transaction → Prop} {key : BranchBarrier} {calls : List BranchCall} :
    Steady key.gid (fun w => w.callsUnder key = calls) (Spared S key calls) where
  keyed := fun hw => hw.keyed
  clock := fun _ hw => ⟨hw.keyed, hw.stored, hw.calls⟩
  same := fun hw hk hsame => ⟨hk, fun s hs => hw.stored s (hsame.txs.symm.trans hs),
    (callsUnder_congr hsame.events).trans hw.calls⟩
  shows := fun hw => hw.calls

section Spared

variable {dtm : Dtm} {key : BranchBarrier} {calls : List BranchCall} {i : Nat} {w : World}

/-- An operation that issues no call under the barrier. -/
def sparedOutline (key : BranchBarrier) (calls : List BranchCall) :
    Outline inMemory (developing fun call => call.barrier ≠ key) .start where
  inv := Spared (fun _ => True) key calls
  own := fun _ _ _ => True
  sees := fun _ _ _ _ _ => trivial
  inv_step := fun {w i _ o} c hw _ hp _ => by
    refine ⟨hw.keyed.exec i c, fun _ _ => trivial, (callsUnder_exec ?_ i c).trans hw.calls⟩
    rintro call rfl
    exact hp
  own_step := fun _ _ _ _ _ => trivial
  own_other := fun _ _ _ _ _ _ _ _ _ => trivial
  inv_drift := fun hw hd => by
    obtain ⟨now, rfl⟩ := hd
    exact ⟨hw.keyed, hw.stored, hw.calls⟩
  own_drift := fun _ _ _ => trivial

/-- An expiry that issues other calls. -/
theorem spared_expire {tx : Transaction} (hw : Spared (fun _ => True) key calls w)
    (hop : Dtm.expiryOp tx ≠ some key.op) :
    Keeps (fun _ _ => True) (fun w => w.callsUnder key = calls) (Spared (fun _ => True) key calls) i
      (dtm.expire tx) w := by
  have hexpire : (developing fun call => call.barrier ≠ key).Does (dtm.expire tx) .start
      (fun _ _ => True) := by
    refine developing_expire fun call hcall hkey => hop ?_
    rw [hcall, ← hkey]
    rfl
  have hcalls : ∀ w, Spared (fun _ => True) key calls w → w.callsUnder key = calls :=
    fun _ hw => hw.calls
  have hends := ((sparedOutline key calls).restrict fun _ _ => True).ends hcalls hw trivial
    hexpire.follows (i := i)
  refine Machine.Ends.mono hends fun r w' h => ?_
  cases r <;> exact h.1

/-! ### The rollback of a Workflow -/

/-- The branch with that id is not Succeeded. -/
def Transaction.Unacted (id : String) (tx : Transaction) : Prop :=
  ∀ b ∈ tx.branches, b.id = id → b.status ≠ .succeeded

/-- A branch that waits is not Succeeded, and no other branch of a Workflow has its id. -/
theorem Transaction.AtRest.unacted {tx : Transaction} {b : Branch} (h : tx.AtRest)
    (hk : tx.kind = .workflow) (hb : b ∈ tx.branches) (hn : b.nextRetryMillis ≠ none) :
    tx.Unacted b.id := by
  intro b' hb' hid hst
  have hsame : b' = b := List.inj_on_of_nodup_map (h.ids hk) hb' hb hid
  subst hsame
  have hr := h.rested b' hb hn
  rw [Branch.retryable, hst] at hr
  exact absurd hr (by decide)

/-- What a rollback that leaves a branch alone may do. -/
def sparing (key : BranchBarrier) : Discipline effects Unit where
  pre := fun _ o => match o with
    | .updateTransaction tx => tx.gid = key.gid → tx.Unacted key.branchId
    | .invokeBegin call => call.barrier ≠ key
    | .getTransaction _ | .barrier _ | .releaseBarrier _ | .currentMillis | .invokeEnd _ => True
    | _ => False
  sees := fun _ o r => match o with
    | .getTransaction gid => ∀ tx, (r : Option Transaction) = some tx →
        tx.gid = gid ∧ (gid = key.gid → tx.Unacted key.branchId)
    | _ => True
  next := fun _ _ _ => ()

theorem sparing_call {o : Effect} {Q : Unit → o.Reply → Prop} :
    (sparing key).Does (Act.call o) () Q ↔
      (sparing key).pre () o ∧ ∀ r, (sparing key).sees () o r → Q () r :=
  Discipline.does_perform

theorem sparing_persistTransaction {tx : Transaction}
    (htx : tx.gid = key.gid → tx.Unacted key.branchId) :
    (sparing key).Does (persistTransaction tx) () (fun _ _ => True) := by
  refine ⟨htx, fun r _ => ?_⟩
  match r with
  | .ok _ => exact fun _ _ => trivial
  | .error _ => exact fun _ _ => trivial

theorem sparing_invokeBranch {options : TransactionOptions} {gid : String} {branch : Branch}
    {url op : String} {Q : Unit → Branch × Bool → Prop} (hkey : branch.key gid op ≠ key)
    (hQ : ∀ b ok, b.id = branch.id → Q () (b, ok)) :
    (sparing key).Does (dtm.invokeBranch options gid branch url op) () Q := by
  simp only [Dtm.invokeBranch, Discipline.does_bind]
  refine sparing_call.mpr ⟨hkey, fun _ _ => sparing_call.mpr ⟨trivial, fun r _ => ?_⟩⟩
  match r with
  | true => exact Discipline.does_pure.mpr (hQ _ _ rfl)
  | false =>
    simp only [Bool.false_eq_true, if_false, Discipline.does_bind, Discipline.does_pure]
    exact sparing_call.mpr ⟨trivial, fun now _ => hQ _ _ rfl⟩

theorem sparing_abortWorkflowLoop {tx : Transaction} {id : String} {ahead passed : List Branch}
    (h : Transaction.Unacted id { tx with branches := ahead.reverse ++ passed }) :
    (sparing ⟨tx.gid, id, "workflow_rollback"⟩).Does (dtm.abortWorkflowLoop tx ahead passed) ()
      (fun _ _ => True) := by
  induction ahead generalizing passed with
  | nil => exact sparing_persistTransaction fun _ => h
  | cons branch ahead ih =>
    have hmem : branch ∈ (branch :: ahead).reverse ++ passed := by simp
    -- the branch is passed by, or what is made of it is not Succeeded
    have hnext {b : Branch} (hb : b.id = id → b.status ≠ .succeeded) :
        Transaction.Unacted id { tx with branches := ahead.reverse ++ b :: passed } := by
      intro b' hb'
      rcases List.mem_append.mp hb' with hb' | hb'
      · exact h b' (by simp_all)
      rcases List.mem_cons.mp hb' with rfl | hb'
      · exact hb
      · exact h b' (List.mem_append_right _ hb')
    rw [Dtm.abortWorkflowLoop]
    split
    · rename_i hst
      refine ih (hnext fun _ => ?_)
      split
      · intro h
        cases h
      · exact hst
    · rename_i hst
      have hid : branch.id ≠ id := fun hid => h branch hmem hid (not_not.mp hst)
      rw [Discipline.does_bind]
      refine sparing_call.mpr ⟨trivial, fun d _ => ?_⟩
      split
      · simp only [Discipline.does_bind, does_ofOption]
        intro compensate _
        refine sparing_invokeBranch (fun hkey => hid (congrArg BranchBarrier.branchId hkey))
          fun b ok hb => ?_
        cases ok with
        | true => exact ih (hnext fun _ => fun h => by cases h)
        | false =>
          simp only [Bool.false_eq_true, if_false, Discipline.does_bind]
          refine sparing_call.mpr ⟨trivial, fun _ _ => ?_⟩
          exact sparing_persistTransaction fun _ => hnext fun _ => fun h => by cases h
      · exact ih (hnext fun _ => fun h => by cases h)

theorem sparing_abortWorkflow {gid id : String} :
    (sparing ⟨gid, id, "workflow_rollback"⟩).Does (dtm.abortWorkflow gid) ()
      (fun _ _ => True) := by
  simp only [Dtm.abortWorkflow, transactionOfKind, loadTransaction, Discipline.does_bind,
    does_ofExcept, does_ofOption, Discipline.does_pure]
  refine sparing_call.mpr ⟨trivial, fun r hr tx htx _ _ => ?_⟩
  obtain ⟨rfl, hun⟩ := hr tx htx
  split
  · exact Discipline.does_pure.mpr trivial
  · simp only [Discipline.does_bind, does_ofExcept]
    have hun' : Transaction.Unacted id { tx with
        status := .aborting, branches := tx.branches.reverse.reverse ++ [] } := by
      rw [List.reverse_reverse, List.append_nil]
      exact hun rfl
    exact fun _ _ => @sparing_abortWorkflowLoop dtm { tx with status := .aborting } _ _ _ hun'

/-- A rollback of the stored record. -/
def sparingOutline (key : BranchBarrier) (calls : List BranchCall) :
    Outline inMemory (sparing key) () where
  inv := Spared (Transaction.Unacted key.branchId) key calls
  own := fun _ _ _ => True
  sees := fun {w i _ o} c hw _ _ _ => by
    cases o with
    | getTransaction gid =>
      refine fun tx htx => ⟨hw.keyed gid tx htx, ?_⟩
      rintro rfl
      exact hw.stored tx htx
    | _ => trivial
  inv_step := fun {w i _ o} c hw _ hp _ => by
    refine ⟨hw.keyed.exec i c, fun s hs => ?_, (callsUnder_exec ?_ i c).trans hw.calls⟩
    · have hd : ∀ tx, o ≠ .deleteTransactionIfUnchanged tx := by
        rintro tx rfl
        exact hp
      rcases txs_step i c w key.gid hd with h | ⟨tx, rfl, hg, h⟩ | ⟨tx, rfl, -⟩ | ⟨_, _, -, ha, -⟩
      · exact hw.stored s (h.symm.trans hs)
      · cases h.symm.trans hs
        exact hp hg
      · exact hp.elim
      · cases o <;> first | exact ha.elim | exact hp.elim
    · rintro call rfl
      exact hp
  own_step := fun _ _ _ _ _ => trivial
  own_other := fun _ _ _ _ _ _ _ _ _ => trivial
  inv_drift := fun hw hd => by
    obtain ⟨now, rfl⟩ := hd
    exact ⟨hw.keyed, hw.stored, hw.calls⟩
  own_drift := fun _ _ _ => trivial

theorem spared_abortWorkflow {gid id : String}
    (hw : Spared (Transaction.Unacted id) ⟨gid, id, "workflow_rollback"⟩ calls w) :
    Keeps (fun _ _ => True) (fun w => w.callsUnder ⟨gid, id, "workflow_rollback"⟩ = calls)
      (Spared (Transaction.Unacted id) ⟨gid, id, "workflow_rollback"⟩ calls) i
      (dtm.abortWorkflow gid) w := by
  have hcalls : ∀ w, Spared (Transaction.Unacted id) ⟨gid, id, "workflow_rollback"⟩ calls w →
      w.callsUnder ⟨gid, id, "workflow_rollback"⟩ = calls := fun _ hw => hw.calls
  have hends := ((sparingOutline ⟨gid, id, "workflow_rollback"⟩ calls).restrict
    fun _ _ => True).ends hcalls hw trivial (@sparing_abortWorkflow dtm gid id).follows (i := i)
  refine Machine.Ends.mono hends fun r w' h => ?_
  cases r <;> exact h.1

end Spared

/-! ### The tick -/

/-- The tick finds the transaction expired, and its expiry calls `op` for all branches. -/
structure ExpiryCalls (tx : Transaction) (now : Nat) (op : String) : Prop where
  live : tx.status.isTerminal = false
  dispatched : tx.kind = .message → tx.status = .succeeding → messageDispatchDue tx now = true
  expired : isExpired tx now = true
  kind : tx.kind ≠ .workflow
  op : Dtm.expiryOp tx = some op

/-- How the last call under a barrier returned, if it did. -/
def lastReturn (key : BranchBarrier) : List (Nat × Event) → Option Bool
  | [] => none
  | (_, .ended call ok) :: h => if call.barrier = key then some ok else lastReturn key h
  | _ :: h => lastReturn key h

/-- The last call of `op` for branch `b` of the stored `tx` failed, and its retry time has not
come. -/
structure Waiting (w : World) (tx : Transaction) (b : Branch) (op : String) : Prop where
  stored : w.txs[tx.gid]? = some tx
  branch : b ∈ tx.branches
  failed : lastReturn (b.key tx.gid op) w.history = some false
  retry : ∃ next, b.nextRetryMillis = some next ∧ w.clock < next

/-- A tick that reads the clock in `w` does not call `op` for the branch, as far as it comes. -/
def RespectsBackOff (dtm : Dtm) (w : World) (tx : Transaction) (b : Branch) (op : String) : Prop :=
  ∀ i r w', inMemoryOnward.Goes i (dtm.tickAt w.clock).run w r w' →
    w'.callsUnder (b.key tx.gid op) = w.callsUnder (b.key tx.gid op)

/-- **What the tick does with a transaction that has a waiting branch**: it lets it expire. -/
theorem tickMove_waiting {dtm : Dtm} {tx : Transaction} {b : Branch} {now next : Nat}
    {move : Act Transaction} (hb : b ∈ tx.branches) (hrested : b.Rested)
    (hnext : b.nextRetryMillis = some next) (hlt : now < next)
    (h : dtm.tickMove now tx = some move) :
    move = dtm.expire tx ∧ tx.status.isTerminal = false ∧ isExpired tx now = true ∧
      (tx.kind = .message → tx.status = .succeeding → messageDispatchDue tx now = true) := by
  have hcallback : isCallbackWorkflow tx = false := by
    rw [isCallbackWorkflow, Bool.and_eq_false_iff, Bool.and_eq_false_iff]
    refine Or.inl (Or.inr ?_)
    exact List.isEmpty_eq_false_iff.mpr (List.ne_nil_of_mem hb)
  have hdue : transactionDue tx now = false := by
    rw [transactionDue]
    split
    · rfl
    · refine Bool.eq_false_iff.mpr fun hall => ?_
      have hretry : b.retryable = true := hrested (by rw [hnext]; exact Option.some_ne_none _)
      have hle := List.all_eq_true.mp hall b (List.mem_filter.mpr ⟨hb, hretry⟩)
      rw [hnext, Option.all_some, decide_eq_true_eq] at hle
      omega
  rw [Dtm.tickMove] at h
  split at h
  · cases h
  rename_i hlive
  split at h
  · cases h
  rename_i hwait
  split at h
  · rename_i hexpired
    cases h
    refine ⟨rfl, by simpa using hlive, hexpired, fun hk hst => ?_⟩
    simpa [hk, hst] using hwait
  · rw [hcallback, hdue] at h
    cases h

/-- **A tick that keeps what spares the branch**, as far as it comes. -/
theorem goes_tickAt {dtm : Dtm} {S : Transaction → Prop} {key : BranchBarrier}
    {tx : Transaction} {w w' : World} {i : Nat} {r : Option (Except Err (List Transaction))}
    (hw : Spared S key (w.callsUnder key) w) (hs : w.txs[key.gid]? = some tx)
    (hmove : ∀ {w₁ : World} {move : Act Transaction}, Spared S key (w.callsUnder key) w₁ →
      dtm.tickMove w.clock tx = some move → Keeps (fun _ _ => True)
        (fun w₁ => w₁.callsUnder key = w.callsUnder key) (Spared S key (w.callsUnder key)) i move w₁)
    (h : inMemory.Goes i (dtm.tickAt w.clock).run w r w') :
    w'.callsUnder key = w.callsUnder key := by
  have hkeeps : Keeps (fun _ _ => True) (fun w₁ => w₁.callsUnder key = w.callsUnder key)
      (Spared S key (w.callsUnder key)) i (dtm.tickAt w.clock) w := by
    have hsteady := @steady_spared S key (w.callsUnder key)
    refine Machine.runs_bind.mpr (runs_call (fun now => hsteady.shows (hsteady.clock now hw))
      fun now c _ => KeepsOr.keeps (F := fun _ => True) (hsteady.tickLoopOr (hsteady.clock now hw)
        (fun {w₁ tx' move} hw₁ htx hg hm => ?_) fun _ _ _ _ => trivial))
    -- the listed record of the transaction is the stored one
    obtain ⟨gid, hgid⟩ : ∃ gid : String, w.txs[gid]? = some tx' := InMemory.mem_listTransactions htx
    rw [← hw.keyed gid tx' hgid, hg] at hgid
    cases hs.symm.trans hgid
    exact (hmove hw₁ hm).or fun _ => trivial
  have hends : inMemory.Ends (fun w₁ => w₁.callsUnder key = w.callsUnder key) i
      (dtm.tickAt w.clock).run (fun _ w₁ => w₁.callsUnder key = w.callsUnder key) w := by
    refine Machine.Ends.ofRestrict (fun _ _ => trivial) (Machine.Ends.mono hkeeps ?_)
    rintro (_ | _) w₁ hw₁ <;> exact hw₁.calls
  have hdrift : ∀ w₁ w₂ : World, w₁.callsUnder key = w.callsUnder key → ClockSet w₁ w₂ →
      w₂.callsUnder key = w.callsUnder key := by
    rintro w₁ _ h ⟨now, rfl⟩
    exact h
  exact Machine.Ends.along (φ := fun w₁ => w₁.callsUnder key = w.callsUnder key)
    (fun _ => hdrift) (fun _ _ h => h) hends h

/-- **The tick respects back-off**: over operations of the coordinator one after another, a
branch whose last call of `op` has failed is not called again by a recovery tick before its retry
time, unless the tick finds the transaction expired and its expiry calls `op`. -/
theorem tick_respects_backOff (dtm : Dtm) {w₀ w : World} {tx : Transaction} {b : Branch}
    {op : String} (hw₀ : w₀.Keyed)
    (hrest : ∀ (gid : String) (s : Transaction), w₀.txs[gid]? = some s → s.AtRest)
    (hrun : inMemoryOnward.Serial (dtm.Programs Operation.Unscheduled) w₀ w)
    (hwaiting : Waiting w tx b op) (hexpiry : ¬ ExpiryCalls tx w.clock op) :
    RespectsBackOff dtm w tx b op := by
  have hclock : ∀ w w' : World, ClockRuns w w' → ClockSet w w' := by
    rintro _ _ ⟨now, -, h⟩
    exact ⟨now, h⟩
  have hrun : inMemory.Serial (dtm.Programs Operation.Unscheduled) w₀ w :=
    Machine.Serial.widen hclock hrun
  -- every stored record is at rest
  have hstored : w.Keyed ∧ w.All fun _ tx => tx.AtRest := by
    refine Lasting.serial (I := Transaction.AtRest)
      (R := fun _ branch => branch.nextRetryMillis = none) lasting_atRest (fun _ h => h)
      (fun hR _ _ hs h => hs.register hR h) (fun op hop => ?_) hw₀ hrest
      (Machine.Serial.restrict (fun _ _ => trivial) hrun)
    cases op with
    | submit tx => exact fun tx' h => h.atRest hop
    | registerBranch gid branch => exact hop
    | _ => trivial
  obtain ⟨next, hnext, hlt⟩ := hwaiting.retry
  have hrested : tx.AtRest := hstored.2 _ tx hwaiting.stored
  intro i r w' hgoes
  have hgoes : inMemory.Goes i (dtm.tickAt w.clock).run w r w' :=
    Machine.Goes.widen hclock hgoes
  have hmove {move : Act Transaction} (h : dtm.tickMove w.clock tx = some move) :=
    tickMove_waiting hwaiting.branch (hrested.rested b hwaiting.branch) hnext hlt h
  by_cases hop : tx.kind = .workflow ∧ op = "workflow_rollback"
  · obtain ⟨hk, rfl⟩ := hop
    have hun : tx.Unacted b.id := hrested.unacted hk hwaiting.branch (by
      rw [hnext]
      exact Option.some_ne_none _)
    refine goes_tickAt (S := Transaction.Unacted b.id) ⟨hstored.1, fun s hs => ?_, rfl⟩
      hwaiting.stored (fun {w₁ move} hw₁ h => ?_) hgoes
    · cases hwaiting.stored.symm.trans hs
      exact hun
    · obtain ⟨rfl, -⟩ := hmove h
      have hcallback : isCallbackWorkflow tx = false := by
        simp [isCallbackWorkflow, List.ne_nil_of_mem hwaiting.branch]
      rw [Dtm.expire, hk, hcallback]
      exact spared_abortWorkflow hw₁
  · refine goes_tickAt (S := fun _ => True) ⟨hstored.1, fun _ _ => trivial, rfl⟩ hwaiting.stored
      (fun {w₁ move} hw₁ h => ?_) hgoes
    obtain ⟨rfl, hlive, hexpired, hdispatch⟩ := hmove h
    refine spared_expire hw₁ fun hexpire => ?_
    by_cases hk : tx.kind = .workflow
    · rw [Dtm.expiryOp, hk] at hexpire
      cases hexpire
      exact hop ⟨hk, rfl⟩
    · exact hexpiry ⟨hlive, hdispatch, hexpired, hk, hexpire⟩

/-- A Message whose delivery has failed at 500 waits until 1500: a tick at 500 leaves it alone. -/
theorem tick_respects_backOff_message : ∃ (w : World) (tx : Transaction) (b : Branch),
    inMemoryOnward.Serial (Dtm.plain.Programs Operation.Unscheduled)
      { World.initial [] with clock := 500 } w ∧
    Waiting w tx b "message" ∧ RespectsBackOff .plain w tx b "message" := by
  obtain ⟨w, hw, hφ⟩ := Dtm.exists_serial inMemoryOnward .plain Operation.Unscheduled
    { World.initial [] with clock := 500 }
    [(.submit (.new 500 "g" .message [.message "b" "url" .null]), outcomes 1 true),
      (.scheduleSubmit "g", outcomes 2 true), (.dispatchMessage "g", outcomes 8 false)]
    (fun w => (w.txs["g"]?).any fun tx =>
      decide (tx.gid = "g") && decide (isExpired tx w.clock = false) && tx.branches.any fun b =>
        decide (lastReturn (b.key tx.gid "message") w.history = some false) &&
        b.nextRetryMillis.any fun next => decide (w.clock < next))
    (by
      simp only [List.forall_mem_cons]
      refine ⟨fun b hb => ?_, trivial, trivial, fun _ h => nomatch h⟩
      rw [List.mem_singleton.mp hb]
      rfl) (by decide +kernel)
  rw [Option.any_eq_true] at hφ
  obtain ⟨tx, htx, hφ⟩ := hφ
  rw [Bool.and_eq_true, Bool.and_eq_true, decide_eq_true_eq, decide_eq_true_eq,
    List.any_eq_true] at hφ
  obtain ⟨⟨hg, hexpired⟩, b, hb, hφ⟩ := hφ
  rw [Bool.and_eq_true, decide_eq_true_eq, Option.any_eq_true] at hφ
  obtain ⟨hfailed, next, hnext, hlt⟩ := hφ
  have hwaiting : Waiting w tx b "message" :=
    ⟨hg ▸ htx, hb, hfailed, next, hnext, of_decide_eq_true hlt⟩
  refine ⟨w, tx, b, hw, hwaiting, ?_⟩
  refine tick_respects_backOff .plain (by exact World.keyed_initial []) (fun gid s hs => ?_) hw
    hwaiting fun h => ?_
  · simp [World.initial] at hs
  · exact absurd h.expired (by rw [hexpired]; decide)

/-- A Message whose delivery has failed at 500 waits until 1500, but has expired since 100: a
tick at 500 delivers it again. -/
theorem message_recalled : ∃ (w : World) (tx : Transaction) (b : Branch),
    inMemoryOnward.Serial (Dtm.plain.Programs Operation.Unscheduled)
      { World.initial [] with clock := 500 } w ∧
    Waiting w tx b "message" ∧ ¬ RespectsBackOff .plain w tx b "message" := by
  obtain ⟨w, hw, hφ⟩ := Dtm.exists_serial inMemoryOnward .plain Operation.Unscheduled
    { World.initial [] with clock := 500 }
    [(.submit { Transaction.new 0 "g" .message [.message "b" "url" .null] with
        timeoutMillis := some 100 }, outcomes 1 true),
      (.scheduleSubmit "g", outcomes 2 true), (.dispatchMessage "g", outcomes 8 false)]
    (fun w => (w.txs["g"]?).any fun tx => decide (tx.gid = "g") && tx.branches.any fun b =>
      decide (lastReturn (b.key tx.gid "message") w.history = some false) &&
      b.nextRetryMillis.any (fun next => decide (w.clock < next)) &&
      (inMemoryOnward.finish? 0 (Dtm.plain.tickAt w.clock).run w (outcomes 9 false)).any fun r =>
        decide (r.2.callsUnder (b.key tx.gid "message") ≠ w.callsUnder (b.key tx.gid "message")))
    (by
      simp only [List.forall_mem_cons]
      refine ⟨fun b hb => ?_, trivial, trivial, fun _ h => nomatch h⟩
      rw [List.mem_singleton.mp hb]
      rfl) (by decide +kernel)
  rw [Option.any_eq_true] at hφ
  obtain ⟨tx, htx, hφ⟩ := hφ
  rw [Bool.and_eq_true, decide_eq_true_eq, List.any_eq_true] at hφ
  obtain ⟨hg, b, hb, hφ⟩ := hφ
  rw [Bool.and_eq_true, Bool.and_eq_true, decide_eq_true_eq, Option.any_eq_true,
    Option.any_eq_true] at hφ
  obtain ⟨⟨hfailed, next, hnext, hlt⟩, r, hr, hcalls⟩ := hφ
  refine ⟨w, tx, b, hw, ⟨hg ▸ htx, hb, hfailed, next, hnext, of_decide_eq_true hlt⟩, fun h => ?_⟩
  exact of_decide_eq_true hcalls (h 0 _ _ (Machine.goes_of_finish? hr))

end RozeDtm
