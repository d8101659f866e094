import RozeDtm.Redis.Stored

/-!
# The Redis store is a store with versions

Each call of the store takes effect at one of its commands or scripts, with the fence or
without: a read at its HGET, a write at the compare-and-swap that succeeds, a barrier at its
decision, a release at the HDEL.  `redisRefines` puts the calls together.

A swap is done when its answer is lost too, and then the call fails with its change made.  The
clock that a change reads is the one of an earlier step, which above is a drift.
-/

namespace RozeDtm

open Conc

/-! ### The calls of the store -/

section Calls

variable {json : RedisJson} {i : Nat} {s : RedisState} {w : World}

/-- An outcome without faults. -/
def VersionedOutcome.plain : VersionedOutcome := ⟨⟨false, .error "", 0⟩, none, [], none⟩

theorem servesLast_insertTransaction (tx : Transaction) :
    ServesLast (countedStore json) versioned (StoredAs json) i (.insertTransaction tx)
      (fun r => r) (RedisStore.insertTransaction json tx).run := by
  refine servesLast_reads_bind (reads_ofExcept _) fun payload hpayload => ?_
  intro s w c hs ha
  obtain ⟨hdecode, hbound⟩ := ha.2 tx hpayload
  refine (puts_hsetnx tx.gid payload c s).decides
    (k := fun r => do
      let inserted ← RedisStore.ofExcept r
      RedisStore.ofExcept (ensure (inserted = 1) s!"transaction already exists: {tx.gid}"))
    hs (fun habsent => ?_) (fun r hr => ?_) fun e => ⟨e, rfl⟩
  · have hnew : w.txs.contains tx.gid = false := by
      rw [Std.ExtTreeMap.contains_eq_isSome_getElem?, hs.absent.mp habsent]
      rfl
    have hallow : versioned.allow (.insertTransaction tx) w := hs.fresh rfl
    obtain ⟨w', hexec, hstores⟩ := stores_insert hnew
    exact ⟨w.clock, .plain, (), w', hallow, hexec, hs.stores hstores hdecode hbound, rfl⟩
  · refine servesLast_reads_bind (reads_ofExcept _) fun inserted hinserted => ?_
    have hne : inserted ≠ 1 := fun h => hr (by rw [hinserted, h])
    exact ⟨_, by rw [ensure, if_neg (by simpa using hne)]⟩

/-- What is asked of a step of a call of `o`. -/
abbrev AnswersWith {R : Type} (json : RedisJson) (i : Nat) (o : Effect) (w : World)
    (k : R → RedisAct o.Reply) (after : R × RedisState) : Prop :=
  Answers (countedStore json) versioned (StoredAs json) i o w k after

variable {o : Effect} {u : RedisStep} {k : u.Reply → RedisAct o.Reply}

/-- A step with which a call fails when its answer is lost. -/
theorem serves_ask (hdone : ∀ c s w, StoredAs json s w → RedisStep.Counts json u →
      AnswersWith json i o w k (s.done i c u))
    (hlost : ∀ r, u.lost = some r → ∃ e, (k r).run = .pure (.error e)) :
    Serves (countedStore json) versioned (StoredAs json) i o (RedisStore.ask u >>= k).run := by
  have hlossy : Lossy ((countedStore json).exec i u) (fun c s => s.done i c u)
      fun r => u.lost = some r := by
    intro c s
    rcases RedisState.exec_cases i u c s with he | ⟨r, hr, hreply, hstate⟩
    · exact Or.inl he
    · refine Or.inr ⟨?_, hstate⟩
      change u.lost = some (s.exec i u c).1
      rw [hreply]
      exact hr
  exact serves_lossy hlossy (fun c s w hs ha => hdone c s w hs ha.2) hlost

/-- The step is the deciding one, at once. -/
theorem answersWith_now {R : Type} {k : R → RedisAct o.Reply} {after : R × RedisState} {r : o.Reply}
    {w' : World} (d : VersionedOutcome) (hallow : versioned.allow o w)
    (hexec : versioned.exec i o d w = (r, w')) (habs : StoredAs json after.2 w')
    (hk : Reads (countedStore json) (StoredAs json) i (k after.1) fun a => a = r) :
    AnswersWith json i o w k after :=
  answers_after d .refl hallow hexec habs hk

/-- `get_transaction`: the record at the moment of the HGET. -/
theorem serves_getTransaction (gid : String) :
    Serves (countedStore json) versioned (StoredAs json) i (.getTransaction gid)
      (RedisStore.getTransaction json gid).run := by
  refine serves_ask (o := .getTransaction gid) (u := .command (.hgetTransaction gid))
    (k := fun r => do
    let payload ← RedisStore.ofExcept r
    RedisStore.ofExcept (payload.elim (.ok none) fun payload => (json.decode payload).map some))
    (fun c s w hs _ => ?_) fun r hr => ?_
  · refine answersWith_now .plain (hs.fresh rfl) rfl hs ((reads_ofExcept _).mono fun _ r hr => ?_)
    change r = w.txs[gid]?
    cases hp : s.keys.transactions gid with
    | none =>
      rw [hp] at hr
      cases hr
      exact (hs.absent.mp hp).symm
    | some payload =>
      cases hd : json.decode payload with
      | error e =>
        rw [hp, Option.elim_some, hd] at hr
        cases hr
      | ok tx =>
        rw [hp, Option.elim_some, hd] at hr
        cases hr
        exact (hs.record hp hd).symm
  · cases hr
    exact ⟨_, rfl⟩

/-- `get_kv`. -/
theorem serves_getKv (category key : String) :
    Serves (countedStore json) versioned (StoredAs json) i (.getKv category key)
      (RedisStore.getKv json category key).run := by
  refine serves_ask (fun c s w hs _ => ?_) fun r hr => ?_
  · refine answersWith_now .plain (hs.fresh rfl) rfl hs ((reads_ofExcept _).mono fun _ r hr => ?_)
    change r = w.kv (category, key)
    rw [hs.kv]
    cases hp : s.kv (kvField category key) with
    | none =>
      rw [hp] at hr
      cases hr
      rfl
    | some payload =>
      rw [hp, Option.elim_some] at hr
      rw [Option.bind_some]
      cases hd : json.decodeKv payload with
      | error e =>
        rw [hd] at hr
        cases hr
      | ok entry =>
        rw [hd] at hr
        cases hr
        rfl
  · cases hr
    exact ⟨_, rfl⟩

/-- `BARRIER_DECISION` decides as the in-memory store does. -/
theorem barrierDecision_eq {keys : RedisWorld} (hb : w.barriers = keys.barriers)
    (b : BranchBarrier) (unknown : Err) :
    RedisProc.parseDecision unknown (keys.barrierDecision b.gid b ⟨b.gid, b.branchId, "cancel"⟩
      ⟨b.gid, b.branchId, "try"⟩ b.op).1 = .ok (InMemory.barrier w b).1 ∧
    (InMemory.barrier w b).2.barriers = (keys.barrierDecision b.gid b
      ⟨b.gid, b.branchId, "cancel"⟩ ⟨b.gid, b.branchId, "try"⟩ b.op).2.barriers ∧
    (keys.barrierDecision b.gid b ⟨b.gid, b.branchId, "cancel"⟩
      ⟨b.gid, b.branchId, "try"⟩ b.op).2.transactions = keys.transactions := by
  rw [RedisWorld.barrierDecision, InMemory.barrier, ← hb]
  by_cases hm : b ∈ w.barriers
  · rw [if_pos hm, if_pos hm]
    exact ⟨by simp [RedisProc.parseDecision], hb, rfl⟩
  rw [if_neg hm, if_neg hm]
  by_cases htry : b.op = "try" ∧ (⟨b.gid, b.branchId, "cancel"⟩ : BranchBarrier) ∈ w.barriers
  · rw [if_pos htry, if_pos htry]
    exact ⟨by simp [RedisProc.parseDecision], hb, rfl⟩
  rw [if_neg htry, if_neg htry]
  by_cases hcancel : b.op = "cancel" ∧ (⟨b.gid, b.branchId, "try"⟩ : BranchBarrier) ∉ w.barriers
  · rw [if_pos hcancel, if_pos hcancel]
    refine ⟨by simp [RedisProc.parseDecision], ?_, rfl⟩
    -- the cancel key is the barrier itself
    simp only [RedisWorld.take, ← hb, ← hcancel.1]
  · rw [if_neg hcancel, if_neg hcancel]
    refine ⟨by simp [RedisProc.parseDecision], ?_, rfl⟩
    simp only [RedisWorld.take, ← hb]

/-- What is seen above of a step on the barriers. -/
theorem StoredAs.barrier (hs : StoredAs json s w) {keys : RedisWorld}
    {barriers : Finset BranchBarrier} {e : Event} (he : e.isBranchCall = false)
    (ht : keys.transactions = s.keys.transactions) (hb : barriers = keys.barriers) :
    StoredAs json { s with keys := keys } (({ w with barriers := barriers } : World).note i e) where
  txs := fun gid => by
    rw [World.note_txs]
    exact ht ▸ hs.txs gid
  bounded := hs.bounded
  barriers := hb
  kv := hs.kv
  history := by
    rw [World.note_history, List.filter_cons_of_neg (by simp [he])]
    exact hs.history

/-- `barrier`. -/
theorem serves_barrier (b : BranchBarrier) :
    Serves (countedStore json) versioned (StoredAs json) i (.barrier b)
      (RedisStore.barriers (RedisProc.barrier b)).run := by
  refine serves_ask (o := .barrier b) (u := .command (.barrierDecision b.gid b
    ⟨b.gid, b.branchId, "cancel"⟩ ⟨b.gid, b.branchId, "try"⟩ b.op))
    (k := fun r => RedisStore.barriers (do
      let decision ← RedisProc.ofExcept r
      RedisProc.ofExcept (RedisProc.parseDecision s!"unknown Redis barrier decision: {decision}"
        decision))) (fun c s w hs _ => ?_) fun r hr => ?_
  · have hdecision := barrierDecision_eq hs.barriers b
    obtain ⟨-, hbarriers, htxs⟩ := hdecision ""
    have habs := hs.barrier (i := i) (e := .decided b (InMemory.barrier w b).1) rfl htxs hbarriers
    rw [← barrier_world] at habs
    exact answersWith_now .plain (hs.fresh rfl) rfl habs fun d hd =>
      Except.ok.inj (hd.symm.trans (hdecision _).1)
  · cases hr
    exact ⟨_, rfl⟩

/-- A function on the barriers whose fence does not pass its own check. -/
theorem serves_fence_refused {fence : RecoveryLeaseFence} {x : RedisProc o.Reply}
    (h : RedisProc.validateRecoveryFence fence ≠ .ok ()) :
    Serves (countedStore json) versioned (StoredAs json) i o (RedisStore.barriers (do
      RedisProc.ofExcept (RedisProc.validateRecoveryFence fence)
      x)).run := by
  cases hfence : RedisProc.validateRecoveryFence fence with
  | error e => exact ⟨e, rfl⟩
  | ok _ => exact absurd hfence h

/-- `barrier_fenced`. -/
theorem serves_barrierFenced (b : BranchBarrier) (fence : RecoveryLeaseFence) :
    Serves (countedStore json) versioned (StoredAs json) i (.barrier b)
      (RedisStore.barriers (RedisProc.barrierFenced b fence)).run := by
  by_cases hfence : RedisProc.validateRecoveryFence fence = .ok ()
  · rw [RedisProc.barrierFenced, hfence]
    refine serves_ask (o := .barrier b) (u := .command (.fencedBarrierDecision b.gid b
      ⟨b.gid, b.branchId, "cancel"⟩ ⟨b.gid, b.branchId, "try"⟩ b.op fence)) (k := fun r =>
      RedisStore.barriers (do
        let decision ← RedisProc.ofExcept r
        if decision = "fence_lost" then throw "Redis recovery lease fence is no longer valid"
        RedisProc.ofExcept (RedisProc.parseDecision
          s!"unknown Redis fenced barrier decision: {decision}" decision)))
      (fun c s w hs _ => ?_) fun r hr => ?_
    · by_cases hv : s.keys.FenceValid fence
      · have hdecision := barrierDecision_eq hs.barriers b
        obtain ⟨-, hbarriers, htxs⟩ := hdecision ""
        have habs := hs.barrier (i := i) (e := .decided b (InMemory.barrier w b).1) rfl htxs
          hbarriers
        rw [← barrier_world] at habs
        have hdone : s.done i c (.command (.fencedBarrierDecision b.gid b
            ⟨b.gid, b.branchId, "cancel"⟩ ⟨b.gid, b.branchId, "try"⟩ b.op fence)) =
            ((.ok (s.keys.barrierDecision b.gid b ⟨b.gid, b.branchId, "cancel"⟩
              ⟨b.gid, b.branchId, "try"⟩ b.op).1 : Except Err String),
            { s with keys := (s.keys.barrierDecision b.gid b ⟨b.gid, b.branchId, "cancel"⟩
              ⟨b.gid, b.branchId, "try"⟩ b.op).2 }) := by
          rw [RedisState.done, RedisWorld.done, if_pos hv]
          rfl
        rw [hdone]
        generalize s.keys.barrierDecision b.gid b ⟨b.gid, b.branchId, "cancel"⟩
          ⟨b.gid, b.branchId, "try"⟩ b.op = answer at habs hdecision
        refine answersWith_now .plain (hs.fresh rfl) rfl habs ?_
        have hne : answer.1 ≠ "fence_lost" := by
          intro h
          have hparse := (hdecision "").1
          rw [h] at hparse
          simp [RedisProc.parseDecision] at hparse
        change Reads _ _ _ (RedisStore.barriers (if answer.1 = "fence_lost" then _ else _)) _
        rw [if_neg hne]
        exact fun d hd => Except.ok.inj (hd.symm.trans (hdecision _).1)
      · have hdone : s.done i c (.command (.fencedBarrierDecision b.gid b
            ⟨b.gid, b.branchId, "cancel"⟩ ⟨b.gid, b.branchId, "try"⟩ b.op fence)) =
            ((.ok "fence_lost" : Except Err String), s) := by
          rw [RedisState.done, RedisWorld.done, if_neg hv]
          rfl
        rw [hdone]
        exact Or.inl ⟨hs, _, rfl⟩
    · cases hr
      exact ⟨_, rfl⟩
  · exact serves_fence_refused hfence

/-- `release_barrier`: the barrier is released by the HDEL. -/
theorem serves_releaseBarrier (b : BranchBarrier) :
    Serves (countedStore json) versioned (StoredAs json) i (.releaseBarrier b)
      (RedisStore.barriers (RedisProc.releaseBarrier b)).run := by
  refine serves_ask (o := .releaseBarrier b) (u := .command (.hdel b)) (k := fun r =>
    RedisStore.barriers (do
      let _ ← RedisProc.ofExcept r
      let _ ← RedisProc.ofExcept (← RedisProc.ask (.srem b.gid b)))) (fun c s w hs _ => ?_)
    fun r hr => ?_
  · have habs : StoredAs json
        { s with keys := { s.keys with barriers := s.keys.barriers.erase b } }
        ((InMemory.releaseBarrier w b).note i (.released b)) :=
      hs.barrier rfl rfl (by rw [hs.barriers])
    refine answersWith_now .plain (hs.fresh rfl) rfl habs ?_
    refine ⟨unseen_srem b.gid b, fun r _ => ?_⟩
    cases r with
    | error e => exact fun a ha => by cases ha
    | ok n => exact fun a ha => rfl
  · cases hr
    exact ⟨_, rfl⟩

/-- `release_barrier_fenced`. -/
theorem serves_releaseBarrierFenced (b : BranchBarrier) (fence : RecoveryLeaseFence) :
    Serves (countedStore json) versioned (StoredAs json) i (.releaseBarrier b)
      (RedisStore.barriers (RedisProc.releaseBarrierFenced b fence)).run := by
  by_cases hfence : RedisProc.validateRecoveryFence fence = .ok ()
  · rw [RedisProc.releaseBarrierFenced, hfence]
    refine serves_ask (o := .releaseBarrier b) (u := .command (.fencedDelete b.gid b fence))
      (k := fun r => RedisStore.barriers (do
        let deleted ← RedisProc.ofExcept r
        if deleted = 0 ∨ deleted = 1 then return ()
        else if deleted = -2 then throw "Redis recovery lease fence is no longer valid"
        else throw s!"unknown Redis fenced barrier release result: {deleted}"))
      (fun c s w hs _ => ?_) fun r hr => ?_
    · by_cases hv : s.keys.FenceValid fence
      · have hdone : s.done i c (.command (.fencedDelete b.gid b fence)) =
            ((.ok (s.keys.deleteField b.gid b).1 : Except Err Int),
              { s with keys := (s.keys.deleteField b.gid b).2 }) := by
          rw [RedisState.done, RedisWorld.done, if_pos hv]
          rfl
        have habs : StoredAs json { s with keys := (s.keys.deleteField b.gid b).2 }
            ((InMemory.releaseBarrier w b).note i (.released b)) :=
          hs.barrier rfl rfl (by rw [hs.barriers]; rfl)
        have hdeleted :
            (s.keys.deleteField b.gid b).1 = 0 ∨ (s.keys.deleteField b.gid b).1 = 1 := by
          by_cases hm : b ∈ s.keys.barriers
          · exact Or.inr (if_pos hm)
          · exact Or.inl (if_neg hm)
        rw [hdone]
        refine answersWith_now .plain (hs.fresh rfl) rfl habs ?_
        rcases hdeleted with h | h <;> rw [h] <;> exact fun a _ => rfl
      · have hdone : s.done i c (.command (.fencedDelete b.gid b fence)) =
            ((.ok (-2) : Except Err Int), s) := by
          rw [RedisState.done, RedisWorld.done, if_neg hv]
          rfl
        rw [hdone]
        exact Or.inl ⟨hs, _, rfl⟩
    · cases hr
      exact ⟨_, rfl⟩
  · exact serves_fence_refused hfence

/-- The pages of a scan are only read. -/
theorem reads_hashValues (pages cursor : Nat) (values : Std.ExtTreeMap String String) :
    Reads (countedStore json) (StoredAs json) i (RedisStore.hashValues pages cursor values)
      fun _ => True := by
  induction pages generalizing cursor values with
  | zero => exact Discipline.does_throw
  | succ pages ih =>
    refine Discipline.does_bind.mpr ((reads_ask (unseen_hscan cursor)).mono fun _ r _ => ?_)
    refine Discipline.does_bind.mpr ((reads_ofExcept r).mono fun _ page _ => ?_)
    refine Discipline.does_bind.mpr ((reads_ofExcept _).mono fun _ _ _ => ?_)
    split
    · exact Discipline.does_pure.mpr trivial
    · exact ih _ _

/-- `list_transactions`: it may return anything. -/
theorem serves_listTransactions (pages : Nat) :
    Serves (countedStore json) versioned (StoredAs json) i .listTransactions
      (RedisStore.listTransactions json pages).run := by
  refine serves_of_reads (P := fun _ => True) ?_ (fun a h => ?_) fun {s w u} r hs _ _ => ?_
  · refine Discipline.does_bind.mpr ((reads_hashValues pages 0 ∅).mono fun _ payloads _ => ?_)
    refine Discipline.does_bind.mpr ((reads_ofExcept _).mono fun _ listed _ => ?_)
    exact Discipline.does_pure.mpr trivial
  · cases pages <;> cases h
  · exact ⟨hs.fresh rfl, ⟨⟨false, .error "", 0⟩, none, r, none⟩, rfl⟩

theorem validateRecoveryFence_eq_ok {fence : RecoveryLeaseFence} :
    RedisProc.validateRecoveryFence fence = .ok () ↔ fence.wellFormed = true := by
  grind [RedisProc.validateRecoveryFence, RecoveryLeaseFence.wellFormed]

/-- A fence that was granted after the check of the input. -/
theorem wellFormed_of_validate {name owner : String} {ttlMillis epoch : Nat}
    (h : RedisStore.validateRecoveryLeaseInput name owner ttlMillis = .ok ()) (he : 0 < epoch) :
    RecoveryLeaseFence.wellFormed { name, owner, epoch } = true := by
  obtain ⟨_, hname, h⟩ := bind_eq_ok h
  obtain ⟨_, howner, -⟩ := bind_eq_ok h
  rw [ensure_eq_ok, Bool.and_eq_true] at hname howner
  simp only [RecoveryLeaseFence.wellFormed, hname.1, hname.2, howner.1, howner.2, he, decide_true,
    Bool.and_self]

/-- `acquire_recovery_lease`: the fences it returns pass their own check. -/
theorem serves_acquireRecoveryLease (name owner : String) (ttlMillis : Nat) :
    Serves (countedStore json) versioned (StoredAs json) i
      (.acquireRecoveryLease name owner ttlMillis)
      (RedisStore.acquireRecoveryLease name owner ttlMillis).run := by
  refine serves_reads_bind (reads_ofExcept _) fun _ hvalid => ?_
  refine serves_ask (o := .acquireRecoveryLease name owner ttlMillis)
    (u := .acquireRecoveryLease name owner ttlMillis) (fun c s w hs hcounts => ?_) fun r hr => ?_
  · have habs : StoredAs json (s.done i c (.acquireRecoveryLease name owner ttlMillis)).2 w :=
      done_acquireRecoveryLease hs
    have hreply : (s.done i c (.acquireRecoveryLease name owner ttlMillis)).1 =
        (.ok (s.keys.acquireRecoveryLease name owner ttlMillis).1 : Except Err (Int × Int)) := rfl
    have hanswer := s.keys.acquireRecoveryLease_answer name owner ttlMillis
    generalize s.keys.acquireRecoveryLease name owner ttlMillis = script at hreply hanswer
    obtain ⟨⟨acquired, epoch⟩, keys⟩ := script
    rcases hanswer with rfl | ⟨n, hn, h⟩
    · refine answersWith_now (r := none) .plain (hs.fresh rfl) rfl habs ?_
      rw [hreply]
      exact fun a ha => by cases ha; rfl
    · cases h
      have hformed := wellFormed_of_validate hvalid hn
      refine answersWith_now (r := some { name, owner, epoch := n })
        ⟨⟨false, .error "", 0⟩, none, [], some { name, owner, epoch := n }⟩ (hs.fresh rfl) ?_
        habs ?_
      · change ((some _ : Option RecoveryLeaseFence).filter _, w) = _
        rw [Option.filter_some, if_pos hformed]
        rfl
      · rw [hreply]
        intro a ha
        cases ha
        rfl
  · cases hr
    exact ⟨_, rfl⟩

/-- `register_branch`. -/
theorem serves_registerBranch (gid : String) (branch : Branch) :
    Serves (countedStore json) versioned (StoredAs json) i (.registerBranch gid branch)
      (do return .ok (← RedisStore.registerBranch json gid branch) : RedisAct _).run := by
  have hlast : ServesLast (countedStore json) versioned (StoredAs json) i
      (.registerBranch gid branch) (fun r => r)
      (RedisStore.registerBranch json gid branch).run := by
    refine servesLast_reads_bind (reads_ofExcept _) fun _ _ => ?_
    refine servesLast_mutateLoop rfl (fun w tx tx' htx hf => ?_) _
    exact ⟨.plain, stores_noteOk rfl htx hf⟩
  exact hlast.required

/-- `record_workflow_progress`, with a fence or without. -/
theorem serves_recordWorkflowProgress (fence : Option RecoveryLeaseFence) (gid : String)
    (progress : WorkflowProgress) :
    Serves (countedStore json) versioned (StoredAs json) i (.recordWorkflowProgress gid progress)
      (do return .ok (← RedisStore.recordWorkflowProgress json fence gid progress) :
        RedisAct _).run := by
  have hlast : ServesLast (countedStore json) versioned (StoredAs json) i
      (.recordWorkflowProgress gid progress) (fun r => r)
      (RedisStore.recordWorkflowProgress json fence gid progress).run := by
    refine servesLast_reads_bind (reads_ofExcept _) fun _ _ => ?_
    refine servesLast_mutateLoop rfl (fun w tx tx' htx hf => ?_) _
    exact ⟨.plain, stores_noteOk rfl htx hf⟩
  exact hlast.required

/-- The fence of a mode that programs come into passes the check. -/
theorem checkFence_eq_ok {fence : Option RecoveryLeaseFence}
    (h : ∀ f ∈ fence, f.wellFormed = true) : RedisStore.checkFence fence = .ok () := by
  cases fence with
  | none => rfl
  | some f => exact validateRecoveryFence_eq_ok.mpr (h f rfl)

/-- A change in place whose caller keeps the error: above, the call may fail, with its change
made or not. -/
theorem serves_attempt {fence : Option RecoveryLeaseFence}
    (hfence : ∀ f ∈ fence, f.wellFormed = true) {gid operation : String}
    {f : Nat → Transaction → Except Err Transaction} {o : Effect}
    {reply : Except Err Transaction → o.Reply} (ho : o.write? = none)
    (hexec : ∀ (d : VersionedOutcome) (w : World),
      let r := InMemory.faulty d.fault (InMemory.modify w gid (f w.clock)) w
      versioned.exec i o d w = (reply r.1, r.2)) :
    Serves (countedStore json) versioned (StoredAs json) i o
      ((RedisStore.mutateTransaction json fence gid operation f).run.bind fun r =>
        (.pure (.ok (reply r)) : Prog redisSteps (Except Err o.Reply))) := by
  have hmutate : (RedisStore.mutateTransaction json fence gid operation f).run =
      (RedisStore.mutateLoop json fence gid operation f RedisStore.mutationAttempts).run := by
    rw [RedisStore.mutateTransaction, checkFence_eq_ok hfence]
    rfl
  rw [hmutate]
  refine ServesLast.kept (servesLast_mutateLoop ho (fun w tx tx' htx hf => ?_) _)
    (fun e h => ?_) (fun {s w u} e hs _ => ⟨hs.fresh ho, ?_⟩) (fun {w d a w'} e h => ?_)
  · obtain ⟨w', hmodify, hstores⟩ := stores_modify htx hf
    refine ⟨.plain, w', ?_, hstores⟩
    rw [hexec, VersionedOutcome.plain, InMemory.faulty, hmodify]
  · cases h
  · exact ⟨⟨⟨false, .error "", 0⟩, some (e, false), [], none⟩, hexec _ w⟩
  · rw [hexec] at h
    obtain ⟨-, rfl⟩ := Prod.mk.inj h
    rcases d with ⟨outcome, _ | ⟨e', _ | _⟩, listed, lease⟩
    · exact ⟨⟨outcome, some (e, true), listed, lease⟩, hexec _ w⟩
    · exact ⟨⟨outcome, some (e, false), listed, lease⟩, hexec _ w⟩
    · exact ⟨⟨outcome, some (e, true), listed, lease⟩, hexec _ w⟩

/-- `finish_workflow`, with a fence or without. -/
theorem serves_finishWorkflow {fence : Option RecoveryLeaseFence}
    (hfence : ∀ f ∈ fence, f.wellFormed = true) (gid : String) (status : TransactionStatus)
    (reason result : Option String) :
    Serves (countedStore json) versioned (StoredAs json) i
      (.finishWorkflow gid status reason result)
      (RedisStore.attempt (RedisStore.finishWorkflow json fence gid status reason result)).run :=
  serves_attempt (o := .finishWorkflow gid status reason result) hfence rfl fun _ _ => rfl

/-- `defer_workflow_recovery`, with a fence or without. -/
theorem serves_deferWorkflowRecovery {fence : Option RecoveryLeaseFence}
    (hfence : ∀ f ∈ fence, f.wellFormed = true) (gid : String) (delay : WorkflowRecoveryDelay) :
    Serves (countedStore json) versioned (StoredAs json) i (.deferWorkflowRecovery gid delay)
      (RedisStore.attempt (RedisStore.deferWorkflowRecovery json fence gid delay)).run :=
  serves_attempt (o := .deferWorkflowRecovery gid delay) hfence rfl fun _ _ => rfl

/-- What a retention delete does with the answer to its first command. -/
def RedisStore.deletesRead (json : RedisJson) (tx : Transaction) : Option String → RedisProc Bool
  | none => return false
  | some payload => do
    let current ← RedisProc.ofExcept (json.decode payload)
    if current ≠ tx then return false
    let deleted ← RedisProc.ofExcept (← RedisProc.ask (.deleteTransactionIfUnchanged tx.gid
      payload (RedisProc.transactionBarrierFields tx)))
    if deleted = 1 then return true
    else if deleted = 0 ∨ deleted = -1 then return false
    else throw s!"unknown Redis transaction retention result: {deleted}"

theorem RedisStore.deletes_eq (tx : Transaction) :
    RedisProc.deleteTransactionIfUnchanged json.decode tx = (do
      let payload ← RedisProc.ofExcept (← RedisProc.ask (.hgetTransaction tx.gid))
      RedisStore.deletesRead json tx payload) := by
  rfl

theorem RedisStore.deletesRead_eq {payload : String} {current tx : Transaction}
    (hd : json.decode payload = .ok current) :
    RedisStore.deletesRead json tx (some payload) = if current ≠ tx then pure false else (do
      let deleted ← RedisProc.ofExcept (← RedisProc.ask (.deleteTransactionIfUnchanged tx.gid
        payload (RedisProc.transactionBarrierFields tx)))
      if deleted = 1 then return true
      else if deleted = 0 ∨ deleted = -1 then return false
      else throw s!"unknown Redis transaction retention result: {deleted}") := by
  rw [RedisStore.deletesRead, hd]
  rfl

/-- A call that has come to a program goes on as that program. -/
theorem Serves.congr {o : Effect} {p q : Prog redisSteps (Except Err o.Reply)}
    (hp : p = q) (h : Serves (countedStore json) versioned (StoredAs json) i o q) :
    Serves (countedStore json) versioned (StoredAs json) i o p := hp ▸ h

/-- `delete_transaction_if_unchanged`, which finds that the record is another one. -/
theorem serves_deleteTransactionIfUnchanged (tx : Transaction) :
    Serves (countedStore json) versioned (StoredAs json) i (.deleteTransactionIfUnchanged tx)
      (RedisStore.barriers (RedisProc.deleteTransactionIfUnchanged json.decode tx)).run := by
  have hother {w : World} (h : w.txs[tx.gid]? ≠ some tx) :
      versioned.exec i (.deleteTransactionIfUnchanged tx) .plain w = (false, w) := if_pos h
  rw [RedisStore.deletes_eq]
  refine serves_ask (o := .deleteTransactionIfUnchanged tx)
    (u := .command (.hgetTransaction tx.gid)) (k := fun payload => RedisStore.barriers (do
      let payload ← RedisProc.ofExcept payload
      RedisStore.deletesRead json tx payload)) (fun c s w hs _ => ?_) fun r hr => ?_
  · change AnswersWith json i _ w _ ((.ok (s.keys.transactions tx.gid) : Except Err _), s)
    cases hp : s.keys.transactions tx.gid with
    | none =>
      refine answersWith_now .plain (hs.fresh rfl) (hother fun h => ?_) hs
        fun a ha => by cases ha; rfl
      rw [hs.absent.mp hp] at h
      cases h
    | some payload =>
      cases hd : json.decode payload with
      | error e =>
        have hfails : (RedisStore.barriers (RedisStore.deletesRead json tx (some payload))).run =
            .pure (.error e) := by
          rw [RedisStore.deletesRead, hd]
          rfl
        exact Or.inl ⟨hs, Serves.congr hfails ⟨e, rfl⟩⟩
      | ok current =>
        have hread : RedisStore.deletesRead json tx (some payload) = _ :=
          RedisStore.deletesRead_eq hd
        by_cases hne : current = tx
        · -- the script that would delete the record is not sent in these runs
          rw [if_neg (not_not.mpr hne)] at hread
          refine Or.inl ⟨hs,
            Serves.congr (congrArg (fun x => (RedisStore.barriers x).run) hread) ?_⟩
          exact fun v w' c' _ ha => absurd ha.2 id
        · rw [if_pos hne] at hread
          have hreads : Reads (countedStore json) (StoredAs json) i
              (RedisStore.barriers (RedisStore.deletesRead json tx (some payload)))
              fun a => a = false := by
            rw [hread]
            exact fun a ha => by cases ha; rfl
          refine answersWith_now .plain (hs.fresh rfl) (hother fun h => ?_) hs hreads
          rw [hs.record hp hd] at h
          exact hne (Option.some.inj h)
  · cases hr
    exact ⟨_, rfl⟩

theorem RedisState.exec_direct {u : RedisStep} (hu : u.lost = none) (c : RedisOutcome)
    (s : RedisState) : s.exec i u c = s.done i c u := by
  rcases RedisState.exec_cases i u c s with h | ⟨r, hr, -⟩
  · exact h
  · rw [hu] at hr
    cases hr

/-- A call that is one step and does not go to the server. -/
theorem serves_direct {u : RedisStep} {o : Effect} {k : u.Reply → o.Reply} (hu : u.lost = none)
    (h : ∀ c s w, StoredAs json s w → ∃ w₁ d, Relation.ReflTransGen versioned.drift w w₁ ∧
      versioned.allow o w₁ ∧ StoredAs json (s.done i c u).2 (versioned.exec i o d w₁).2 ∧
      k (s.done i c u).1 = (versioned.exec i o d w₁).1) :
    Serves (countedStore json) versioned (StoredAs json) i o
      (.step u fun r => .pure (.ok (k r)) : Prog redisSteps (Except Err o.Reply)) := by
  refine serves_step fun c s w hs _ => ?_
  have hdone : (countedStore json).exec i u c s = s.done i c u := RedisState.exec_direct hu c s
  rw [hdone]
  exact h c s w hs

/-- An event that is recorded below as above. -/
theorem StoredAs.note (hs : StoredAs json s w) {e : Event} (he : e.isBranchCall = true) :
    StoredAs json (s.note i e) (w.note i e) where
  txs := hs.txs
  bounded := hs.bounded
  barriers := hs.barriers
  kv := hs.kv
  history := by
    rw [World.note_history, List.filter_cons_of_pos (by simpa using he), RedisState.note,
      hs.history]

/-- The calls of the store, with the fences that programs come into. -/
theorem serves_call (pages : Nat) {fence : Option RecoveryLeaseFence}
    (hfence : ∀ f ∈ fence, f.wellFormed = true) (o : Effect) :
    Serves (countedStore json) versioned (StoredAs json) i o
      (RedisStore.call json pages fence o).run := by
  cases o with
  | insertTransaction tx => exact (servesLast_insertTransaction tx).required
  | getTransaction gid => exact serves_getTransaction gid
  | updateTransaction tx => exact (servesLast_updateTransaction fence tx).required
  | registerBranch gid branch => exact serves_registerBranch gid branch
  | recordWorkflowProgress gid progress =>
    exact serves_recordWorkflowProgress fence gid progress
  | finishWorkflow gid status reason result =>
    exact serves_finishWorkflow hfence gid status reason result
  | deferWorkflowRecovery gid delay => exact serves_deferWorkflowRecovery hfence gid delay
  | listTransactions => exact serves_listTransactions pages
  | deleteTransactionIfUnchanged tx => exact serves_deleteTransactionIfUnchanged tx
  | getKv category key => exact serves_getKv category key
  | barrier b =>
    cases fence with
    | none => exact serves_barrier b
    | some f => exact serves_barrierFenced b f
  | releaseBarrier b =>
    cases fence with
    | none => exact serves_releaseBarrier b
    | some f => exact serves_releaseBarrierFenced b f
  | acquireRecoveryLease name owner ttlMillis =>
    exact serves_acquireRecoveryLease name owner ttlMillis
  | currentMillis =>
    refine serves_direct (u := .currentMillis) (o := .currentMillis) (k := fun r => r) rfl
      fun c s w hs => ?_
    exact ⟨{ w with clock := s.clock }, .plain, .single ⟨s.clock, rfl⟩,
      (hs.clock s.clock).fresh rfl, hs.clock s.clock, rfl⟩
  | invokeBegin call =>
    refine serves_direct (u := .invokeBegin call) (o := .invokeBegin call)
      (k := fun r => r) rfl fun c s w hs => ?_
    exact ⟨w, .plain, .refl, hs.fresh rfl, hs.note rfl, rfl⟩
  | invokeEnd call =>
    refine serves_direct (u := .invokeEnd call) (o := .invokeEnd call)
      (k := fun r => r) rfl fun c s w hs => ?_
    exact ⟨w, ⟨c.outcome, none, [], none⟩, .refl, hs.fresh rfl, hs.note rfl, rfl⟩
  | queryWorkflowCallback request options =>
    refine serves_direct (u := .queryWorkflowCallback request options)
      (o := .queryWorkflowCallback request options) (k := fun r => r) rfl
      fun c s w hs => ?_
    exact ⟨w, ⟨c.outcome, none, [], none⟩, .refl, hs.fresh rfl, hs, rfl⟩
  | joinNext n =>
    refine serves_direct (u := .joinNext n) (o := .joinNext n)
      (k := fun r => r) rfl fun c s w hs => ?_
    exact ⟨w, ⟨c.outcome, none, [], none⟩, .refl, hs.fresh rfl, hs, rfl⟩

end Calls

/-- The mode after a call: a fence that is new was granted. -/
theorem RedisStore.wellFormed_next {json : RedisJson} {pages : Nat}
    {fence : Option RecoveryLeaseFence} (i : Nat) (o : Effect) (d : VersionedOutcome) (w : World)
    (h : ∀ f ∈ fence, f.wellFormed = true) :
    ∀ f ∈ (RedisStore.handler json pages).next fence o (versioned.exec i o d w).1,
      f.wellFormed = true := by
  cases o with
  | acquireRecoveryLease name owner ttlMillis =>
    intro f hf
    have hreply : (versioned.exec i (.acquireRecoveryLease name owner ttlMillis) d w).1 =
        d.lease.filter RecoveryLeaseFence.wellFormed := rfl
    rw [hreply] at hf
    cases hl : d.lease.filter RecoveryLeaseFence.wellFormed with
    | none =>
      rw [hl] at hf
      exact h f hf
    | some granted =>
      rw [hl] at hf
      cases hf
      cases fence with
      | none => exact (Option.filter_eq_some_iff.mp hl).2
      | some f => exact h f rfl
  | _ => exact h

/-- **Operations over the Redis store do what they can do over a store with versions**, while
payloads read back. -/
def redisRefines (json : RedisJson) (pages : Nat) :
    Refinement (countedStore json) versioned (RedisStore.handler json pages) where
  abs := StoredAs json
  mode := fun fence => ∀ f ∈ fence, f.wellFormed = true
  mode_next := RedisStore.wellFormed_next
  drift := fun {_ _ w} hs h => by
    obtain ⟨clock, now, -, rfl⟩ := h
    exact ⟨w, .refl, hs.same rfl rfl rfl rfl⟩
  serves := fun _ _ o hfence => serves_call pages hfence o

end RozeDtm
