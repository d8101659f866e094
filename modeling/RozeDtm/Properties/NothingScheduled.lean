import RozeDtm.Model.Service.Compat
import RozeDtm.Trail.Settling
import RozeDtm.Trail.World

/-!
# A transaction that has ended has nothing scheduled

Operations one after another end a transaction without a retry time on any of its branches, as
long as nothing is left with one (`terminal_nothing_scheduled`): an abort of a sequential Saga or
of a Workflow leaves its Failed and Running branches as they are (`aborted_with_retry`), and
phase 2 goes past a branch whose barrier an earlier call has taken and an error has kept.
-/

namespace RozeDtm

open Conc

/-- At the step that completes an abort, the stored record has no retry time on a branch that the
abort leaves as it is; and a barrier that is found taken is not that of a branch with one. -/
def LeavesNothing (o : Effect) (w : World) : Prop :=
  match o with
  | .updateTransaction tx =>
    tx.status = .aborted → ∀ s, w.txs[tx.gid]? = some s → s.AbandonsNothing
  | .barrier b => b ∈ w.barriers → ∀ s, w.txs[b.gid]? = some s → s.GoesPastNothing b
  | _ => True

instance (tx : Transaction) : Decidable tx.AbandonsNothing :=
  inferInstanceAs (Decidable (∀ b ∈ tx.branches, tx.abandons b = true → b.nextRetryMillis = none))

instance (tx : Transaction) (barrier : BranchBarrier) : Decidable (tx.GoesPastNothing barrier) :=
  inferInstanceAs (Decidable (tx.goesPast barrier.op = true →
    ∀ b ∈ tx.branches, b.id = barrier.branchId → b.nextRetryMillis = none))

instance (o : Effect) (w : World) : Decidable (LeavesNothing o w) :=
  match o with
  | .updateTransaction tx => inferInstanceAs (Decidable (tx.status = .aborted →
      ∀ s ∈ w.txs[tx.gid]?, s.AbandonsNothing))
  | .barrier b => inferInstanceAs (Decidable (b ∈ w.barriers →
      ∀ s ∈ w.txs[b.gid]?, s.GoesPastNothing b))
  | .insertTransaction _ | .getTransaction _ | .registerBranch _ _ | .recordWorkflowProgress _ _
  | .finishWorkflow _ _ _ _ | .deferWorkflowRecovery _ _ | .listTransactions
  | .deleteTransactionIfUnchanged _ | .getKv _ _ | .releaseBarrier _
  | .acquireRecoveryLease _ _ _ | .currentMillis | .invokeBegin _ | .invokeEnd _
  | .queryWorkflowCallback _ _ | .joinNext _ => isTrue trivial

/-- The retry times of a record count, and it has none once it has ended. -/
structure Transaction.Calm (tx : Transaction) : Prop where
  rested : ∀ b ∈ tx.branches, b.Rested
  settled : tx.Settled

/-- Transactions and branches are handed over without a retry time that does not count. -/
def Operation.HandsOver : Operation → Prop
  | .submit tx => tx.Calm
  | .registerBranch _ branch => branch.Rested
  | _ => True

theorem SubmittedAs.calm {tx tx' : Transaction} (h : SubmittedAs tx tx') (htx : tx.Calm) :
    tx'.Calm where
  rested := fun b hb hn => by
    obtain ⟨a, ha, hab⟩ := h.each b hb
    rw [hab] at hn ⊢
    exact htx.rested a ha hn
  settled := fun hst b hb => by
    obtain ⟨a, ha, hab⟩ := h.each b hb
    rw [h.status] at hst
    rw [hab]
    exact htx.settled hst a ha

theorem lasting_rested : Lasting fun _ tx => ∀ b ∈ tx.branches, b.Rested where
  mono := fun _ h => h
  develops := fun {won tx tx'} hd h b hb => by
    obtain ⟨a, ha, hab⟩ := exists_of_forall₂ hd.branches hb
    exact hab.rested (h a ha)

theorem rested_register {now : Nat} {s s' : Transaction} {branch : Branch}
    (hs : ∀ b ∈ s.branches, b.Rested) (hn : branch.Rested)
    (h : appendDynamicBranch now s branch = .ok s') : ∀ b ∈ s'.branches, b.Rested := by
  rcases appendDynamicBranch_ok h with ⟨rfl, -⟩ | ⟨-, -, hbranches⟩
  · exact hs
  · rw [hbranches]
    exact List.forall_mem_append.mpr ⟨hs, List.forall_mem_singleton.mpr hn⟩

/-! ### The records on the shelf -/

theorem SameRecord.abandonsNothing {s tx : Transaction} (h : SameRecord s tx)
    (htx : tx.AbandonsNothing) : s.AbandonsNothing := by
  obtain ⟨revision, updated, rfl⟩ := h
  exact htx

theorem SameRecord.goesPastNothing {s tx : Transaction} {b : BranchBarrier} (h : SameRecord s tx)
    (htx : tx.GoesPastNothing b) : s.GoesPastNothing b := by
  obtain ⟨revision, updated, rfl⟩ := h
  exact htx

/-- The records on the shelf are the stored ones. -/
def Shelf.Holds (σ : Shelf) (w : World) : Prop :=
  ∀ gid s, σ gid = some s → ∃ tx, w.txs[gid]? = some tx ∧ SameRecord s tx

section Shelf

variable {σ : Shelf} {w : World} {o : Effect} {i : Nat}

theorem Shelf.holds_bare (w : World) : Shelf.bare.Holds w := fun _ _ h => nomatch h

/-- A record is put on the shelf that the world has under its gid. -/
theorem Shelf.Holds.put {w' : World} {tx tx' : Transaction} (h : σ.Holds w)
    (hother : ∀ g : String, g ≠ tx.gid → w'.txs[g]? = w.txs[g]?)
    (htx : w'.txs[tx.gid]? = some tx') (hsame : SameRecord tx tx') : (σ.put tx).Holds w' := by
  intro gid s hs
  by_cases hg : gid = tx.gid
  · subst hg
    rw [Shelf.put_self] at hs
    cases hs
    exact ⟨tx', htx, hsame⟩
  · rw [Shelf.put, Function.update_of_ne hg] at hs
    rw [hother gid hg]
    exact h gid s hs

theorem Shelf.Holds.drop {w' : World} {gid : String} (h : σ.Holds w)
    (hother : ∀ g : String, g ≠ gid → w'.txs[g]? = w.txs[g]?) : (σ.drop gid).Holds w' := by
  intro g s hs
  by_cases hg : g = gid
  · subst hg
    rw [Shelf.drop, Function.update_self] at hs
    cases hs
  · rw [Shelf.drop, Function.update_of_ne hg] at hs
    rw [hother g hg]
    exact h g s hs

theorem Shelf.Holds.same {w' : World} (h : σ.Holds w) (htxs : w'.txs = w.txs) : σ.Holds w' := by
  rw [Shelf.Holds, htxs]
  exact h

/-- A step that does not write under a gid. -/
theorem txs_other {g : String} (i : Nat) (c : Outcome)
    (hd : ∀ tx, o ≠ .deleteTransactionIfUnchanged tx)
    (hu : ∀ tx, o = .updateTransaction tx → tx.gid ≠ g)
    (hi : ∀ tx, o = .insertTransaction tx → tx.gid ≠ g)
    (ha : ∀ s s', ¬ Amends w.clock g s s' o) :
    (InMemory.exec i o c w).2.txs[g]? = w.txs[g]? := by
  rcases txs_step i c w g hd with h | ⟨tx, rfl, hg, -⟩ | ⟨tx, rfl, hg, -⟩ | ⟨s, s', -, h, -⟩
  · exact h
  · exact absurd hg (hu tx rfl)
  · exact absurd hg (hi tx rfl)
  · exact absurd h (ha s s')

/-- **The shelf through one step** of an operation that is alone. -/
theorem Shelf.Holds.step (h : σ.Holds w) (hk : w.Keyed)
    (hd : ∀ tx, o ≠ .deleteTransactionIfUnchanged tx) (i : Nat) (c : Outcome) :
    (σ.next o (InMemory.exec i o c w).1).Holds (InMemory.exec i o c w).2 := by
  have hother {gid : String} (hu : ∀ tx, o = .updateTransaction tx → tx.gid = gid)
      (hi : ∀ tx, o = .insertTransaction tx → tx.gid = gid)
      (ha : ∀ g s s', Amends w.clock g s s' o → gid = g) (g : String) (hg : g ≠ gid) :
      (InMemory.exec i o c w).2.txs[g]? = w.txs[g]? :=
    txs_other i c hd (fun tx htx h => hg (h.symm.trans (hu tx htx)))
      (fun tx htx h => hg (h.symm.trans (hi tx htx))) fun s s' h => hg (ha g s s' h).symm
  cases o with
  | getTransaction gid =>
    simp only [InMemory.exec, InMemory.getTransaction, Shelf.next]
    split
    · rename_i tx htx
      have hg : tx.gid = gid := hk gid tx htx
      exact h.put (fun _ _ => rfl) (hg ▸ htx) (.refl tx)
    · exact h
  | updateTransaction tx =>
    refine h.put (hother (fun _ h => by cases h; rfl) (fun _ h => by cases h) fun _ _ _ h => h.elim)
      ?_ (.bump w.clock tx)
    exact Std.ExtTreeMap.getElem?_insert_self
  | insertTransaction tx =>
    exact h.drop (hother (fun _ h => by cases h) (fun _ h => by cases h; rfl) fun _ _ _ h => h.elim)
  | deleteTransactionIfUnchanged tx => exact absurd rfl (hd tx)
  | registerBranch gid branch =>
    exact h.drop (hother (fun _ h => by cases h) (fun _ h => by cases h) fun _ _ _ h => h.1)
  | recordWorkflowProgress gid progress =>
    exact h.drop (hother (fun _ h => by cases h) (fun _ h => by cases h) fun _ _ _ h => h.1)
  | finishWorkflow gid status reason result =>
    exact h.drop (hother (fun _ h => by cases h) (fun _ h => by cases h) fun _ _ _ h => h.1)
  | deferWorkflowRecovery gid delay =>
    exact h.drop (hother (fun _ h => by cases h) (fun _ h => by cases h) fun _ _ _ h => h.1)
  | barrier b => exact h.same (barrier_txs w b)
  | acquireRecoveryLease name owner ttl =>
    refine h.same ?_
    simp only [InMemory.exec, InMemory.acquireRecoveryLease, InMemory.tryAcquireRecoveryLease]
    split <;> rfl
  | listTransactions => exact h
  | getKv category key => exact h
  | currentMillis => exact h
  | releaseBarrier b => exact h.same rfl
  | invokeBegin call => exact h.same rfl
  | invokeEnd call => exact h.same rfl
  | queryWorkflowCallback request options => exact h
  | joinNext n => exact h

/-- **The answers are those that the shelf expects**, at a step that leaves nothing. -/
theorem Shelf.Holds.sees (h : σ.Holds w) (hk : w.Keyed) (ha : LeavesNothing o w) (i : Nat)
    (c : Outcome) : settling.sees σ o (InMemory.exec i o c w).1 := by
  cases o with
  | getTransaction gid => exact fun tx htx => hk gid tx htx
  | barrier b =>
    refine ⟨barrier_mayDecide w b, fun hdup s hs => ?_⟩
    obtain ⟨tx, htx, hsame⟩ := h b.gid s hs
    exact hsame.goesPastNothing (ha (mem_of_skipDuplicate hdup) tx htx)
  | _ => trivial

end Shelf

/-! ### The run -/

/-- What is in the store between two steps. -/
structure World.Quiescent (w : World) : Prop where
  keyed : w.Keyed
  rested : w.All fun _ tx => ∀ b ∈ tx.branches, b.Rested
  settled : ∀ (gid : String) tx, w.txs[gid]? = some tx → tx.Settled

/-- What an operation that is alone has read, in a world between two of its steps. -/
structure SettlingIn (s : Trail × Shelf) (w : World) : Prop where
  store : w.Quiescent
  trail : TrailOwn (fun _ tx => ∀ b ∈ tx.branches, b.Rested) s.1 w
  shelf : s.2.Holds w

/-- A callback Workflow has no branches, so a change of it schedules nothing. -/
theorem settled_of_callback {s s' : Transaction} {u : Unit} (h : ensureCallbackWorkflow s = .ok u)
    (hb : s'.branches = s.branches) : s'.Settled := by
  have hempty : s.branches = [] := by
    rw [ensureCallbackWorkflow] at h
    obtain ⟨_, -, h⟩ := bind_eq_ok h
    rw [ensure_eq_ok, isCallbackWorkflow, Bool.and_eq_true, Bool.and_eq_true,
      List.isEmpty_iff] at h
    exact h.1.2
  intro _ b hb'
  rw [hb, hempty] at hb'
  cases hb'

/-- **A change in place keeps a record settled.** -/
theorem Amends.settled {now : Nat} {g : String} {s s' : Transaction} {o : Effect}
    (h : Amends now g s s' o) (hs : s.Settled) : s'.Settled := by
  cases o with
  | registerBranch gid branch =>
    rcases appendDynamicBranch_ok h.2 with ⟨rfl, -⟩ | ⟨ha, hst, -⟩
    · exact hs
    · intro hterm
      rw [hst, ha.live] at hterm
      cases hterm
  | recordWorkflowProgress gid progress =>
    rcases appendWorkflowProgress_ok h.2 with ⟨rfl, -⟩ | ⟨ha, hst, -⟩
    · exact hs
    · intro hterm
      rw [hst, ha.live] at hterm
      cases hterm
  | finishWorkflow gid status reason result =>
    rcases applyWorkflowCompletion_ok h.2 with rfl | ⟨-, hb⟩
    · exact hs
    · obtain ⟨_, hc, -⟩ := bind_eq_ok h.2
      exact settled_of_callback hc hb
  | deferWorkflowRecovery gid delay =>
    obtain ⟨_, hc, -⟩ := bind_eq_ok h.2
    exact settled_of_callback hc (deferWorkflowRecovery_ok h.2).2
  | _ => exact h.elim

section Run

variable {s : Trail × Shelf} {w : World} {o : Effect}

/-- What is brought in by an operation that hands over what it may. -/
abbrev quietly : Discipline effects (Trail × Shelf) :=
  (developingAnd (fun _ => True) Transaction.Calm fun _ branch => branch.Rested).both settling

/-- **One step of an operation that is alone.** -/
theorem SettlingIn.step (h : SettlingIn s w) (hp : quietly.pre s o) (ha : LeavesNothing o w)
    (i : Nat) (c : Outcome) :
    SettlingIn (quietly.next s o (InMemory.exec i o c w).1) (InMemory.exec i o c w).2 := by
  have hd : ∀ tx, o ≠ .deleteTransactionIfUnchanged tx := by
    rintro tx rfl
    exact hp.1
  refine ⟨⟨h.store.keyed.exec i c, ?_, fun gid tx' htx' => ?_⟩,
    h.trail.exec lasting_rested h.store.rested i o c, h.shelf.step h.store.keyed hd i c⟩
  · refine lasting_rested.exec (I := Transaction.Calm) (fun tx h => h.rested) (fun ho hs hrested h => ?_)
      h.store.rested h.trail.read h.trail.won hp.1 i c
    subst ho
    exact rested_register hrested hp.1 h
  rcases txs_step i c w gid hd with h' | ⟨tx, rfl, hg, h'⟩ | ⟨tx, rfl, -, -, h'⟩ |
    ⟨s₁, s₂, hs₁, hamends, h'⟩
  · exact h.store.settled gid tx' (h' ▸ htx')
  · cases h'.symm.trans htx'
    obtain ⟨base, hbase, hdev⟩ : s.1.From tx := hp.1
    refine hp.2 (fun hst s' hs' => ?_) (lasting_rested.develops hdev (h.trail.read base hbase))
    obtain ⟨tx₁, htx₁, hsame⟩ := h.shelf tx.gid s' hs'
    exact hsame.abandonsNothing (ha hst tx₁ htx₁)
  · cases h'.symm.trans htx'
    exact Transaction.Calm.settled hp.1
  · cases h'.symm.trans htx'
    exact hamends.settled (h.store.settled gid s₁ hs₁)

/-- **An operation that is alone**, from its start to its end. -/
theorem ends_quiescent {dtm : Dtm} {op : Operation} (hop : op.HandsOver) (hw : w.Quiescent)
    (i : Nat) :
    (alone LeavesNothing).Ends World.Quiescent i (op.prog dtm) (fun _ => World.Quiescent) w := by
  have hbrings : op.Brings Transaction.Calm fun _ branch => branch.Rested := by
    cases op with
    | submit tx => exact fun tx' h => h.calm hop
    | registerBranch gid branch => exact hop
    | _ => trivial
  have hregisters : op.RegistersIn fun _ _ => True := by cases op <;> trivial
  have hdeveloping : (developingAnd (fun _ => True) Transaction.Calm fun _ branch => branch.Rested).Follows
      (op.prog dtm) Trail.start (fun _ _ => True) := developing_prog (fun _ => trivial) hbrings
  have hfollows := hdeveloping.both (settling_walks.act hregisters Shelf.bare).follows
  have hstart : SettlingIn (Trail.start, Shelf.bare) w :=
    ⟨hw, .start w, Shelf.holds_bare w⟩
  refine (Discipline.Follows.ends (M := alone LeavesNothing) (R := SettlingIn) (fun _ _ h => h.store)
    (fun s o c w h _ ha => And.intro trivial (h.shelf.sees h.store.keyed ha.2 i c))
    (fun s o c w h hp ha => h.step hp ha.2 i c) (fun s w w' h hd => ?_) hstart hfollows).mono ?_
  · obtain ⟨now, rfl⟩ := hd
    exact ⟨⟨h.store.keyed, h.store.rested, h.store.settled⟩, ⟨h.trail.read, h.trail.won⟩, h.shelf⟩
  · rintro _ w' ⟨s, hs, -⟩
    exact hs.store

end Run

/-- Without a retry time on a branch the views of a transaction that has ended show none. -/
theorem dashboard_none {tx : Transaction} (hterm : tx.status.isTerminal = true)
    (h : ∀ b ∈ tx.branches, b.nextRetryMillis = none) :
    nextRetryMillis tx = none ∧ dashboardNextRetryMillis tx = none := by
  have hnext : nextRetryMillis tx = none := by
    rw [nextRetryMillis, List.filterMap_eq_nil_iff.mpr h, List.min?_nil]
  refine ⟨hnext, ?_⟩
  have hst : tx.status ≠ .succeeding := by
    intro hs
    rw [hs] at hterm
    cases hterm
  rw [dashboardNextRetryMillis, hnext]
  simp [hst]

/-- **A transaction that has ended has nothing scheduled**, at every point of every run of
operations one after another in which nothing is left with a retry time: no branch has one, and
neither the query nor the dashboard shows one. -/
theorem terminal_nothing_scheduled (dtm : Dtm) {w₀ w : World} (hw₀ : w₀.Keyed)
    (hcalm : ∀ (gid : String) tx, w₀.txs[gid]? = some tx → tx.Calm)
    (hrun : (alone LeavesNothing).SerialAt (dtm.Programs Operation.HandsOver) w₀ w)
    {gid : String} {tx : Transaction} (htx : w.txs[gid]? = some tx)
    (hterm : tx.status.isTerminal = true) :
    (∀ b ∈ tx.branches, b.nextRetryMillis = none) ∧ nextRetryMillis tx = none ∧
      dashboardNextRetryMillis tx = none := by
  have hstart : w₀.Quiescent :=
    ⟨hw₀, fun gid tx h => (hcalm gid tx h).rested, fun gid tx h => (hcalm gid tx h).settled⟩
  have hdrift (w w' : World) (h : w.Quiescent) (hd : (alone LeavesNothing).drift w w') :
      w'.Quiescent := by
    obtain ⟨now, rfl⟩ := hd
    exact ⟨h.keyed, h.rested, h.settled⟩
  have hquiet : w.Quiescent := by
    refine hrun.along hdrift (fun _ h => h) (fun i p w hp hw => ?_) hstart
    obtain ⟨op, hop, rfl⟩ := hp
    exact ends_quiescent hop hw i
  have hnone : ∀ b ∈ tx.branches, b.nextRetryMillis = none := hquiet.settled gid tx htx hterm
  exact ⟨hnone, dashboard_none hterm hnone⟩

/-- A Saga of one branch that is called at most twice. -/
def calledTwice : Transaction :=
  { Transaction.new 0 "g" .saga [.saga "a" "do" "undo" .null] with
    options := { TransactionOptions.default with retryLimit := some 1 } }

theorem calm_calledTwice : calledTwice.Calm where
  rested := fun b hb hn => by
    rw [List.mem_singleton.mp hb] at hn
    exact absurd rfl hn
  settled := fun h => nomatch h

/-- The action fails once and is called again by recovery. -/
theorem terminal_nothing_scheduled_saga : ∃ (w : World) (tx : Transaction),
    (alone LeavesNothing).SerialAt (Dtm.plain.Programs Operation.HandsOver) (.initial []) w ∧
    w.txs["g"]? = some tx ∧ tx.status = .succeeded ∧ tx.branches.map Branch.attempts = [2] ∧
    dashboardNextRetryMillis tx = none := by
  obtain ⟨w, hw, hφ⟩ := Dtm.exists_serial (alone LeavesNothing) .plain Operation.HandsOver
    (.initial []) [(.submit calledTwice, outcomes 1 true), (.startSaga "g", outcomes 8 false),
      (.recover "g", outcomes 10 true)]
    (fun w => (w.txs["g"]?).any fun tx =>
      tx.status = .succeeded && tx.branches.map Branch.attempts = [2])
    (by
      simp only [List.forall_mem_cons]
      exact ⟨calm_calledTwice, trivial, trivial, fun _ h => nomatch h⟩) (by decide +kernel)
  rw [Option.any_eq_true] at hφ
  obtain ⟨tx, htx, hφ⟩ := hφ
  rw [Bool.and_eq_true, decide_eq_true_eq, decide_eq_true_eq] at hφ
  have hat := hw.at ⟨.tickRecoverOnce, trivial, rfl⟩
  refine ⟨w, tx, hat, htx, hφ.1, hφ.2, ?_⟩
  refine (terminal_nothing_scheduled .plain (World.keyed_initial _) (fun gid tx h => ?_) hat htx
    ?_).2.2
  · simp [World.initial] at h
  · rw [hφ.1]
    rfl

/-- The action fails once and the Saga is aborted: the branch keeps its retry time. -/
theorem aborted_with_retry : ∃ (w : World) (tx : Transaction) (b : Branch) (next : Nat),
    inMemory.Serial (Dtm.plain.Programs Operation.HandsOver) (.initial []) w ∧
    w.txs["g"]? = some tx ∧ tx.status = .aborted ∧ b ∈ tx.branches ∧
    b.nextRetryMillis = some next ∧ dashboardNextRetryMillis tx = some next := by
  obtain ⟨w, hw, hφ⟩ := Dtm.exists_serial inMemory .plain Operation.HandsOver (.initial [])
    [(.submit calledTwice, outcomes 1 true), (.startSaga "g", outcomes 8 false),
      (.abortSaga "g", outcomes 2 true)]
    (fun w => (w.txs["g"]?).any fun tx => tx.status = .aborted && tx.branches.any fun b =>
      b.nextRetryMillis.any fun next => dashboardNextRetryMillis tx = some next)
    (by
      simp only [List.forall_mem_cons]
      exact ⟨calm_calledTwice, trivial, trivial, fun _ h => nomatch h⟩) (by decide +kernel)
  rw [Option.any_eq_true] at hφ
  obtain ⟨tx, htx, hφ⟩ := hφ
  rw [Bool.and_eq_true, decide_eq_true_eq, List.any_eq_true] at hφ
  obtain ⟨hst, b, hb, hφ⟩ := hφ
  rw [Option.any_eq_true] at hφ
  obtain ⟨next, hnext, hφ⟩ := hφ
  exact ⟨w, tx, b, next, hw, htx, hst, hb, hnext, of_decide_eq_true hφ⟩

end RozeDtm
