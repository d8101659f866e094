import RozeDtm.Serial.ChainCalls

/-!
# Sagas whose branches run in turn, one operation after another

`ChainAt` is what holds of such a Saga between operations that run one after another: its stored
record says how far its calls have come (`ChainPhase`).  `ChainDone` is what an operation that
takes the Saga on ends with: the Saga is at its end, or one more call has failed, or a concurrent
abort has met a branch without a compensation URL, which it never gets past.  The sequential mode
is here, `Serial.ChainBatches` has the concurrent one.
-/

namespace RozeDtm

open Conc Conc.Retries

/-- A Saga, in either mode. -/
structure SagaOf (s₀ tx : Transaction) : Prop where
  gid : tx.gid = s₀.gid
  kind : tx.kind = .saga
  options : tx.options = s₀.options
  timeoutMillis : tx.timeoutMillis = s₀.timeoutMillis
  createdAtMillis : tx.createdAtMillis = s₀.createdAtMillis

/-- The branches are run in order. -/
structure Sequenced (s₀ : Transaction) : Prop where
  sequential : s₀.options.concurrent = false
  ids : (s₀.branches.map Branch.id).Nodup

/-- How far a Saga is, by its status. -/
inductive ChainPhase (s₀ : Transaction) (w : World) (st : TransactionStatus) (bs : List Branch) : Prop
  | forward (acted rest : List Branch) (hst : st = .submitted ∨ st = .succeeding)
      (hbs : bs = acted ++ rest) (hf : OnTheWay s₀ w acted rest)
  | succeeded (hst : st = .succeeded) (hc : Completed s₀ w)
  | backward (k : Nat) (hst : st = .aborting) (hb : OnTheWayBack s₀ k w bs)
      (hd : s₀.options.concurrent = true → ∃ left passed, Descending k bs left passed)
  | aborted (k : Nat) (hst : st = .aborted) (hb : OnTheWayBack s₀ k w bs) (ho : owing bs = [])
      (hd : s₀.options.concurrent = true → ∃ passed, Descending k bs [] passed)

/-- What the record of the Saga says of its calls. -/
structure ChainRecord (s₀ : Transaction) (w : World) (tx : Transaction) : Prop
    extends SagaOf s₀ tx where
  same : SameBranches s₀.branches tx.branches
  phase : ChainPhase s₀ w tx.status tx.branches

/-- The world between operations on the Saga; `s` is the stored record. -/
structure ChainAt (s₀ s : Transaction) (w : World) : Prop where
  stored : w.txs[s₀.gid]? = some s
  record : ChainRecord s₀ w s

/-- The calls of the transaction `g` that have failed. -/
def World.failedReturns (w : World) (g : String) : Nat :=
  (w.returns g "action").countP (fun e => !e.2) + (w.returns g "compensate").countP fun e => !e.2

/-- A branch that has to be compensated has no URL for it. -/
def Blocked (s₀ : Transaction) (w : World) : Prop :=
  ∃ k, GivenUp s₀ k w ∧ ∃ b ∈ s₀.branches.take k, b.compensate = none

/-- What an operation ends with that takes the Saga on; `n` calls had failed before. -/
def ChainDone (s₀ : Transaction) (n : Nat) (w : World) : Prop :=
  ∃ s, ChainAt s₀ s w ∧ (s.status = .succeeded ∨ s.status = .aborted ∨ n < w.failedReturns s₀.gid ∨
    s₀.options.concurrent = true ∧ Blocked s₀ w)

/-- The operations of a Saga. -/
theorem Returned.failedReturns {g op id : String} {ok : Bool} {w w' : World}
    (h : Returned g op id ok w w') (hop : op = "action" ∨ op = "compensate") :
    w'.failedReturns g = w.failedReturns g + if ok then 0 else 1 := by
  rcases hop with rfl | rfl
  · rw [World.failedReturns, h.same, h.other "compensate" (by decide), List.countP_cons,
      World.failedReturns]
    cases ok
    · simp
      omega
    · simp
  · rw [World.failedReturns, h.same, h.other "action" (by decide), List.countP_cons,
      World.failedReturns]
    cases ok
    · simp
      omega
    · simp

section Phases

variable {s₀ s tx : Transaction} {w w' : World} {bs : List Branch} {st : TransactionStatus} {n : Nat}

theorem World.ReturnsSame.failedReturns {g : String} (h : w'.ReturnsSame g w) :
    w'.failedReturns g = w.failedReturns g := by
  rw [World.failedReturns, h, h, World.failedReturns]

theorem ChainPhase.same (h : ChainPhase s₀ w st bs) (hr : w'.ReturnsSame s₀.gid w)
    (hb : w'.barriers = w.barriers) : ChainPhase s₀ w' st bs := by
  cases h with
  | forward acted rest hst hbs hf => exact .forward acted rest hst hbs (hf.same hr hb)
  | succeeded hst hc =>
    obtain ⟨jobs, hids, hlt, hlog, hundone⟩ := hc
    exact .succeeded hst ⟨jobs, hids, hlt, (hr _).trans hlog, (hr _).trans hundone⟩
  | backward k hst hback hd => exact .backward k hst (hback.same hr hb (.refl bs) rfl) hd
  | aborted k hst hback ho hd => exact .aborted k hst (hback.same hr hb (.refl bs) rfl) ho hd

theorem ChainAt.same (h : ChainAt s₀ s w) (ht : w'.txs = w.txs) (hr : w'.ReturnsSame s₀.gid w)
    (hb : w'.barriers = w.barriers) : ChainAt s₀ s w' where
  stored := by
    rw [ht]
    exact h.stored
  record := { h.record with phase := h.record.phase.same hr hb }

theorem SagaOf.branches {bs : List Branch} (h : SagaOf s₀ tx) :
    SagaOf s₀ { tx with branches := bs, status := st } := ⟨h.1, h.2, h.3, h.4, h.5⟩

theorem SagaOf.written (h : SagaOf s₀ tx) : SagaOf s₀ tx.written := ⟨h.1, h.2, h.3, h.4, h.5⟩

end Phases

section Rules

variable {allow : Effect → World → Prop} {i n : Nat} {s₀ s tx : Transaction} {w : World} {dtm : Dtm}
  {E : Err → World → Prop}

/-- Writing the record of the Saga. -/
theorem runs_persistChain {Q : Transaction → World → Prop} (hr : ChainRecord s₀ w tx)
    (h : ∀ now w', w'.ReturnsSame s₀.gid w → w'.barriers = w.barriers →
      ChainAt s₀ (bumpTransactionRevision now tx) w' → Q tx.written w') :
    (alone allow).Runs (fun _ => True) i (persistTransaction tx) Q E w := by
  refine runs_persistTransaction (fun _ => trivial) fun now _ =>
    h now _ (returnsSame_of_history rfl) rfl ?_
  refine ⟨?_, { hr with phase := hr.phase.same (returnsSame_of_history rfl) rfl }⟩
  have hg : (bumpTransactionRevision now tx).gid = s₀.gid := hr.gid
  rw [World.put_txs, hg]
  exact Std.ExtTreeMap.getElem?_insert_self

/-- The record of the Saga is found. -/
theorem runs_loadChain {Q : Transaction → World → Prop} (hs : ChainAt s₀ s w)
    (h : ∀ now, ChainAt s₀ s (w.setClock now) → Q s (w.setClock now)) :
    (alone allow).Runs (fun _ => True) i (loadTransaction s₀.gid) Q E w := by
  refine runs_loadTransaction (fun _ => trivial) (fun now tx htx => ?_) fun now _ hnone => ?_
  · obtain rfl : s = tx := Option.some.inj (hs.stored.symm.trans htx)
    exact h now (hs.same rfl (returnsSame_of_history rfl) rfl)
  · rw [hs.stored] at hnone
    cases hnone

/-- **Calling a branch under a barrier that was free.** -/
theorem runs_chainCall {branch : Branch} {url op : String} {now : Nat}
    {Q : Branch × Bool → World → Prop}
    (ok : ∀ w', Returned tx.gid op branch.id true w w' → Q (branch, true) w')
    (error : ∀ w' b, Returned tx.gid op branch.id false w w' → b.definition = branch.definition →
      b.status = branch.status → b.attempts = branch.attempts → Q (b, false) w') :
    (alone allow).Runs (fun _ => True) i (dtm.invokeBranch tx.options tx.gid branch url op) Q E
      ((w.setClock now).claimed i (barrierOf tx.gid op branch.id)) := by
  refine runs_invokeBranch_through (fun _ => trivial) (fun _ => trivial) (fun _ => trivial)
    (fun now' => ok _ ?_) fun now' b hdef hst hatt => error _ b ?_ hdef hst hatt
  · exact returned_of_call (c := Dtm.branchCall tx.options tx.gid branch url op) rfl rfl rfl rfl rfl
  · exact returned_of_call (c := Dtm.branchCall tx.options tx.gid branch url op) rfl rfl rfl rfl rfl

/-- The call has failed and its barrier is given back. -/
theorem runs_releaseChain {g op id : String} {w' : World} {Q : Unit → World → Prop}
    (hr : Returned g op id false w w')
    (h : ∀ w'', Returned g op id false w w'' → barrierOf g op id ∉ w''.barriers → Q () w'') :
    (alone allow).Runs (fun _ => True) i (Store.releaseBarrier (barrierOf g op id)) Q E w' := by
  refine runs_releaseBarrier (fun _ => trivial) fun now => ?_
  let w'' := (InMemory.releaseBarrier (w'.setClock now) (barrierOf g op id)).note i
    (.released (barrierOf g op id))
  have hreleased : Returned g op id false w w'' ∧ barrierOf g op id ∉ w''.barriers :=
    hr.released rfl rfl
  exact h w'' hreleased.1 hreleased.2

end Rules

/-! ### The way back of a sequential Saga -/

section Sequential

variable {allow : Effect → World → Prop} {i n k : Nat} {s₀ s tx : Transaction} {w : World} {dtm : Dtm}

/-- **The loop of `abort_saga`.** -/
theorem runs_abortChainLoop {ahead passed : List Branch} (hS : Sequenced s₀) (htx : SagaOf s₀ tx) (hst : tx.status = .aborting)
    (hs : SameBranches s₀.branches (ahead.reverse ++ passed))
    (hpassed : ∀ b ∈ passed, b.status.isOwed = false)
    (hb : OnTheWayBack s₀ k w (ahead.reverse ++ passed)) (hle : n ≤ w.failedReturns s₀.gid) :
    (alone allow).Runs (fun _ => True) i (dtm.abortSagaLoop tx ahead passed)
      (fun _ => ChainDone s₀ n) (fun _ => ChainDone s₀ n) w := by
  have hconc {P : Prop} (h : s₀.options.concurrent = true) : P := by
    rw [hS.sequential] at h
    cases h
  have hg : tx.gid = s₀.gid := htx.gid
  induction ahead generalizing w passed with
  | nil =>
    refine runs_persistChain ⟨htx.branches, hs, .aborted k rfl hb (owing_of_not_owed hpassed) hconc⟩
      fun now w' _ _ hat => ⟨_, hat, Or.inr (Or.inl rfl)⟩
  | cons branch ahead ih =>
    rw [List.reverse_cons, List.append_assoc, List.singleton_append] at hs hb
    have hids : ((ahead.reverse ++ branch :: passed).map Branch.id).Nodup := hs.ids ▸ hS.ids
    -- another branch that is still owed has another id
    have hother {b' : Branch} (hnot : b'.status.isOwed = false) :
        ∀ b ∈ ahead.reverse ++ b' :: passed, b.status.isOwed = true → b.id ≠ branch.id := by
      intro b hmem howed
      refine id_ne_of_nodup hids hmem fun h => ?_
      rw [h, hnot] at howed
      cases howed
    rw [Dtm.abortSagaLoop]
    split
    · -- a branch that is Pending is passed by
      rename_i hpending
      have hnot : branch.status.isOwed = false := by rw [hpending]; rfl
      refine ih (hs.exchange rfl) (List.forall_mem_cons.mpr ⟨rfl, hpassed⟩) ?_ hle
      refine hb.same (returnsSame_of_history rfl) rfl (.exchange rfl fun h => (by cases h)) ?_
      rw [owing_append, owing_append, owing_cons_of_not_owed rfl, owing_cons_of_not_owed hnot]
    split
    · rename_i hst'
      have hnot : branch.status.isOwed = false := by simpa [BranchStatus.isOwed] using hst'
      exact ih hs (List.forall_mem_cons.mpr ⟨hnot, hpassed⟩) hb hle
    · rename_i hst'
      have howed : branch.status.isOwed = true := by
        simpa [BranchStatus.isOwed, Classical.or_iff_not_imp_left] using hst'
      have hfree : barrierOf s₀.gid "compensate" branch.id ∉ w.barriers :=
        hb.free branch (by simp) howed hconc
      have hskipped (attempts : Nat) : SameBranches s₀.branches (ahead.reverse ++
          { branch with status := .skipped, attempts := attempts, nextRetryMillis := none } ::
            passed) := hs.exchange rfl
      refine Machine.runs_bind.mpr (runs_barrier (show "compensate" ≠ "try" by decide)
        (show "compensate" ≠ "cancel" by decide) (fun _ => trivial) (fun now hbar => ?_)
        fun now hbar => ?_)
      · rw [hg] at hbar
        exact absurd hbar hfree
      dsimp only
      split
      · rename_i url hurl
        have howing : owing (ahead.reverse ++ branch :: passed) = owing ahead.reverse ++ [branch.id] := by
          rw [owing_append, owing_cons howed (by rw [hurl]; simp), owing_of_not_owed hpassed]
        have hmem : branch.id ∈ s₀.branches.map Branch.id := by
          rw [← hs.ids]
          exact List.mem_map_of_mem (by simp)
        refine Machine.runs_bind.mpr (runs_chainCall (fun w' hr => ?_) fun w' b' hr hdef _ _ => ?_)
        · -- the compensation has succeeded
          rw [hg] at hr
          have hnext := @ih w' _ (hskipped (satAdd32 branch.attempts 1))
            (List.forall_mem_cons.mpr ⟨rfl, hpassed⟩)
          refine hnext (hb.undo howing ?_ hmem hr (.exchange rfl ?_) (hother rfl)) ?_
          · rw [owing_append, owing_cons_of_not_owed rfl, owing_of_not_owed hpassed, List.append_nil]
          · intro h
            cases h
          · rw [hr.failedReturns (Or.inr rfl)]
            exact hle
        · -- the compensation has failed: the branch is written as Compensating
          simp only [Bool.false_eq_true, if_false, Machine.runs_bind]
          refine runs_releaseChain hr fun w'' hr' hfree' => ?_
          rw [hg] at hr' hfree'
          have hid : b'.id = branch.id := Branch.id_eq hdef
          have hcomp : b'.compensate = branch.compensate := Branch.compensate_eq hdef
          have hkept : BranchesKept (ahead.reverse ++ branch :: passed)
            (ahead.reverse ++ { b' with status := .compensating } :: passed) :=
              .exchange hdef fun _ => howed
          have hback := hb.missed hmem hr' hfree' hkept (by
            rw [howing, owing_append, owing_cons rfl (by rw [hcomp, hurl]; simp),
              owing_of_not_owed hpassed, hid])
          refine runs_persistChain ⟨htx.branches, hs.exchange hdef, .backward k hst hback hconc⟩
            fun now w₃ hh _ hat => ⟨_, hat, Or.inr (Or.inr (Or.inl ?_))⟩
          rw [hh.failedReturns, hr'.failedReturns (Or.inr rfl)]
          exact Nat.lt_succ_of_le hle
      · -- there is no way to compensate the branch, and it is passed by
        rename_i hnone
        rw [hg]
        have hnext := @ih ((w.setClock now).claimed i (barrierOf s₀.gid "compensate" branch.id)) _
          (hskipped branch.attempts) (List.forall_mem_cons.mpr ⟨rfl, hpassed⟩)
        have hkept : BranchesKept (ahead.reverse ++ branch :: passed) (ahead.reverse ++
            { branch with status := .skipped, nextRetryMillis := none } :: passed) :=
          .exchange rfl fun h => by cases h
        refine hnext (hb.claimed (returnsSame_of_event (fun _ => rfl) rfl) (fun _ h => h) hkept ?_
          fun b hmem howed' _ => hother rfl b hmem howed') hle
        rw [owing_append, owing_append, owing_cons_of_not_owed rfl, owing_cons_of_none hnone]

/-- `abort_saga`. -/
theorem runs_abortChain (hS : Sequenced s₀) (hw : ChainAt s₀ s w) (hst : s.status = .aborting)
    (hle : n ≤ w.failedReturns s₀.gid) :
    (alone allow).Runs (fun _ => True) i (dtm.abortSaga s₀.gid)
      (fun _ => ChainDone s₀ n) (fun _ => ChainDone s₀ n) w := by
  refine Machine.runs_bind.mpr (runs_loadChain hw fun now hw' => ?_)
  have hr := hw'.record
  have hkind : ensureKind s .saga = .ok () := ensureKind_eq_ok.mpr hr.kind
  have hstatus : ensureStatus s [.submitted, .succeeding, .aborting] = .ok () :=
    ensureStatus_eq_ok.mpr (by rw [hst]; decide)
  have hseq : s.options.concurrent = false := by
    rw [hr.options]
    exact hS.sequential
  rw [hkind, hstatus, hseq, if_neg (by rw [hst]; decide), if_neg (by decide)]
  obtain ⟨k, hb⟩ : ∃ k, OnTheWayBack s₀ k (w.setClock now) s.branches := by
    cases hr.phase with
    | forward _ _ h => rcases h with h | h <;> exact absurd (h.symm.trans hst) (by decide)
    | succeeded h => exact absurd (h.symm.trans hst) (by decide)
    | backward k _ hb => exact ⟨k, hb⟩
    | aborted _ h => exact absurd (h.symm.trans hst) (by decide)
  have hwhole : s.branches.reverse.reverse ++ [] = s.branches := by
    rw [List.reverse_reverse, List.append_nil]
  exact runs_abortChainLoop hS hr.toSagaOf.branches rfl (hwhole.symm ▸ hr.same)
    (fun _ h => nomatch h) (hwhole.symm ▸ hb) hle

/-! ### The way forward of a sequential Saga -/

/-- What `start_saga` makes of a branch when it turns back. -/
def Branch.turned (b : Branch) : Branch :=
  if b.status = .succeeded then { b with status := .compensating } else b

theorem turned_definition (b : Branch) : b.turned.definition = b.definition := by
  rw [Branch.turned]
  split
  · rfl
  · rfl

theorem turned_owed (b : Branch) : b.turned.status.isOwed = b.status.isOwed := by
  rw [Branch.turned]
  split
  · rename_i hst
    rw [hst]
    rfl
  · rfl

/-- The branches with the one that was given up, as they are written to be compensated. -/
theorem GivenUp.turned {before after : List Branch} {b : Branch} (h : GivenUp s₀ k w)
    (hseq : s₀.options.concurrent = false)
    (hs : SameBranches s₀.branches (before ++ b :: after)) (hk : before.length = k)
    (hbefore : ∀ b ∈ before, b.status = .succeeded) (hb : b.status = .compensating)
    (hafter : ∀ b ∈ after, b.status.isOwed = false)
    (hundone : w.returns s₀.gid "compensate" = [])
    (hfree : ∀ id, barrierOf s₀.gid "compensate" id ∉ w.barriers) :
    OnTheWayBack s₀ k w ((before ++ b :: after).map Branch.turned) := by
  have hsplit : (before ++ b :: after).map Branch.turned =
      (before ++ [b]).map Branch.turned ++ after.map Branch.turned := by simp
  rw [hsplit]
  refine h.turn (hsplit ▸ hs.map turned_definition) ?_ (fun a ha => ?_) (fun a ha => ?_) hundone hfree
  · rw [List.length_map, List.length_append, List.length_singleton, hk, hseq]
    rfl
  · obtain ⟨a', ha', rfl⟩ := List.mem_map.mp ha
    rw [turned_owed]
    rcases List.mem_append.mp ha' with ha' | ha'
    · rw [hbefore a' ha']
      rfl
    · rw [List.mem_singleton.mp ha', hb]
      rfl
  · obtain ⟨a', ha', rfl⟩ := List.mem_map.mp ha
    rw [turned_owed]
    exact hafter a' ha'

/-- A branch that is not taken yet is not owed. -/
theorem OnTheWay.not_owed {acted rest : List Branch} (h : OnTheWay s₀ w acted rest) :
    ∀ b ∈ rest, b.status.isOwed = false := fun b hb => by
  rcases (h.left b hb).1 with h | h <;> rw [h] <;> rfl

/-- **The loop of `start_saga`.** -/
theorem runs_startChainLoop {passed acted rest ahead : List Branch} (hS : Sequenced s₀)
    (htx : SagaOf s₀ tx) (hst : tx.status = .succeeding)
    (hs : SameBranches s₀.branches (passed ++ ahead)) (hahead : ahead = acted ++ rest)
    (hf : OnTheWay s₀ w (passed ++ acted) rest) (hle : n ≤ w.failedReturns s₀.gid) :
    (alone allow).Runs (fun _ => True) i (dtm.startSagaLoop s₀.gid tx passed ahead)
      (fun _ => ChainDone s₀ n) (fun _ => ChainDone s₀ n) w := by
  have hconc {P : Prop} (h : s₀.options.concurrent = true) : P := by
    rw [hS.sequential] at h
    cases h
  have hg : tx.gid = s₀.gid := htx.gid
  induction ahead generalizing tx w passed acted rest with
  | nil =>
    obtain ⟨rfl, rfl⟩ := List.append_eq_nil_iff.mp hahead.symm
    rw [List.append_nil] at hf hs
    refine runs_persistChain ⟨htx.branches, hs, .succeeded rfl (hf.completed hs.ids)⟩
      fun _ _ _ _ hat => ⟨_, hat, Or.inl rfl⟩
  | cons branch ahead ih =>
    rw [Dtm.startSagaLoop]
    cases acted with
    | cons a acted =>
      cases hahead
      rw [if_pos (hf.won branch (by simp)).1]
      refine ih htx hst ?_ rfl ?_ hle hg
      · rw [List.append_assoc, List.singleton_append]
        exact hs
      · rw [List.append_assoc, List.singleton_append]
        exact hf
    | nil =>
      rw [List.append_nil] at hf
      cases hahead
      have hbranch := hf.left branch (.head _)
      have hattempts : satAdd32 branch.attempts 1 = branch.attempts + 1 := satAdd32_attempts hbranch.2
      have hids : ((passed ++ branch :: ahead).map Branch.id).Nodup := hs.ids ▸ hS.ids
      have hrest : ((branch :: ahead).map Branch.id).Nodup := by
        rw [List.map_append] at hids
        exact (List.nodup_append.mp hids).2.1
      rw [if_neg (by rcases hbranch.1 with h | h <;> rw [h] <;> decide)]
      refine Machine.runs_bind.mpr (runs_barrier (show "action" ≠ "try" by decide)
        (show "action" ≠ "cancel" by decide) (fun _ => trivial) (fun now hbar => ?_)
        fun now hbar => ?_)
      · rw [hg] at hbar
        exact absurd hbar (hf.free branch (.head _))
      simp only [ne_eq, not_true_eq_false, if_false, Machine.runs_bind]
      refine runs_chainCall (fun w' hr => ?_) fun w' b' hr hdef hbst hatt => ?_
      · -- the action has succeeded
        rw [hg] at hr
        simp only [if_true, Machine.runs_bind]
        have hdone : SameBranches s₀.branches (passed ++ { branch with
            status := .succeeded, attempts := satAdd32 branch.attempts 1, nextRetryMillis := none } ::
              ahead) := hs.exchange rfl
        have hf' : OnTheWay s₀ w' (passed ++ [{ branch with
            status := .succeeded, attempts := satAdd32 branch.attempts 1, nextRetryMillis := none }])
              ahead := hf.act hrest hr rfl rfl hattempts
        refine runs_persistChain ⟨htx.branches, hdone, .forward _ ahead (Or.inr hst)
          (List.append_cons ..) hf'⟩ fun now w'' hh hb _ => ?_
        refine ih htx.branches.written hst ?_ (List.nil_append ahead).symm ?_ ?_ hg
        · rw [List.append_assoc, List.singleton_append]
          exact hdone
        · rw [List.append_nil]
          exact hf'.same hh hb
        · rw [hh.failedReturns, hr.failedReturns (Or.inl rfl)]
          exact hle
      · have hid : b'.id = branch.id := Branch.id_eq hdef
        have hatt' : b'.attempts = branch.attempts + 1 := hatt.trans hattempts
        have hmore {w'' : World} (hr : Returned s₀.gid "action" branch.id false w w'') :
            n < w''.failedReturns s₀.gid := by
          rw [hr.failedReturns (Or.inl rfl)]
          exact Nat.lt_succ_of_le hle
        simp only [Bool.false_eq_true, if_false]
        split
        · -- the action has failed and is tried again later
          rename_i hleft
          rw [htx.options] at hleft
          simp only [Machine.runs_bind]
          refine runs_releaseChain hr fun w'' hr' hfree => ?_
          rw [hg] at hr' hfree
          have hf' : OnTheWay s₀ w'' passed ({ b' with status := .failed } :: ahead) :=
            hf.miss hrest hr' hfree hid rfl hatt' hleft
          refine runs_persistChain ⟨htx.branches, hs.exchange hdef, .forward _ _ (Or.inr hst) rfl hf'⟩
            fun _ w₃ hh _ hat => ⟨_, hat, Or.inr (Or.inr (Or.inl ?_))⟩
          rw [hh.failedReturns]
          exact hmore hr'
        · -- the action has used up its attempts
          rename_i hleft
          rw [htx.options] at hleft
          rw [hg] at hr
          have hgiven := hf.giveUp hs.ids hr (by omega)
          have hgone : SameBranches s₀.branches
              (passed ++ { b' with status := .compensating } :: ahead) := hs.exchange hdef
          have hback : OnTheWayBack s₀ passed.length w'
              ((passed ++ { b' with status := .compensating } :: ahead).map Branch.turned) := by
            refine hgiven.turned hS.sequential hgone rfl (fun b hb => (hf.won b hb).1)
              rfl (fun b hb => hf.not_owed b (.tail _ hb)) ?_ fun id hm => ?_
            · exact (hr.other _ (by decide)).trans hf.undone
            · exact hf.freeUndo id ((hr.barriers _ _ fun hop => absurd hop (by decide)).mp hm)
          simp only [Machine.runs_bind]
          have hturned := hgone.map turned_definition
          refine runs_persistChain ⟨htx.branches, hturned, .backward _ rfl hback hconc⟩
            fun _ w₃ hh _ hat => runs_abortChain hS hat rfl ?_
          rw [hh.failedReturns]
          exact (hmore hr).le

/-- What `start_saga` finds has not turned back. -/
theorem ChainRecord.forward (hr : ChainRecord s₀ w s) (hst : s.status = .submitted ∨ s.status = .succeeding) :
    ∃ acted rest, s.branches = acted ++ rest ∧ OnTheWay s₀ w acted rest := by
  cases hr.phase with
  | forward acted rest _ hbs hf => exact ⟨acted, rest, hbs, hf⟩
  | succeeded h => rcases hst with hst | hst <;> exact absurd (h.symm.trans hst) (by decide)
  | backward _ h => rcases hst with hst | hst <;> exact absurd (h.symm.trans hst) (by decide)
  | aborted _ h => rcases hst with hst | hst <;> exact absurd (h.symm.trans hst) (by decide)

/-- `start_saga`. -/
theorem runs_startChain (hS : Sequenced s₀) (hw : ChainAt s₀ s w)
    (hst : s.status = .submitted ∨ s.status = .succeeding) (hle : n ≤ w.failedReturns s₀.gid) :
    (alone allow).Runs (fun _ => True) i (dtm.startSaga s₀.gid)
      (fun _ => ChainDone s₀ n) (fun _ => ChainDone s₀ n) w := by
  refine Machine.runs_bind.mpr (runs_loadChain hw fun now hw' => ?_)
  have hr := hw'.record
  have hkind : ensureKind s .saga = .ok () := ensureKind_eq_ok.mpr hr.kind
  have hstatus : ensureStatus s [.submitted, .succeeding] = .ok () :=
    ensureStatus_eq_ok.mpr (by rcases hst with h | h <;> rw [h] <;> decide)
  have hseq : s.options.concurrent = false := by
    rw [hr.options]
    exact hS.sequential
  rw [hkind, hstatus, hseq, if_neg (by rcases hst with h | h <;> rw [h] <;> decide),
    if_neg (by decide)]
  obtain ⟨acted, rest, hbs, hf⟩ := hr.forward hst
  simp only [Machine.runs_bind, runs_ofExcept]
  refine runs_persistChain ⟨hr.toSagaOf.branches, hr.same, .forward acted rest (Or.inr rfl) hbs hf⟩
    fun _ w' hh hb _ => ?_
  refine runs_startChainLoop hS hr.toSagaOf.branches.written rfl hr.same hbs (hf.same hh hb) ?_
  rw [hh.failedReturns]
  exact hle

end Sequential

end RozeDtm
