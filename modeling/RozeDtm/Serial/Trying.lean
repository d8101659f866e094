import RozeDtm.Serial.TrialEnds

/-!
# The trial of one branch after another

`start_saga` of a sequential Saga and `prepare_tcc` call one branch after another.  Between two
branches the local record has counted the calls (`Trial.Between`), and an abort that the operation
turns to is explained by the call before it (`Trial.Explained`).
-/

namespace RozeDtm

open Conc

namespace Trial

variable {T : Trial} {w w' w'' : World} {s : Transaction} {passed ahead : List Branch}
  {b b' : Branch} {ids : List String} {id : String} {i : Nat}

/-- The transaction was turned to an abort. -/
def Turned (T : Trial) (w : World) : Prop :=
  ∃ s, w.txs[T.gid]? = some s ∧ (s.status = .aborting ∨ s.status = .aborted)

/-- The limit is kept, and `R` explains an abort. -/
def Explained (T : Trial) (R : World → Prop) (w : World) : Prop :=
  T.Limited w ∧ (T.Turned w → R w)

/-- A branch has failed as often as it may be called. -/
def Spent (T : Trial) (ids : List String) (w : World) : Prop :=
  ∃ id ∈ ids, T.failures w id = T.limit

/-- One more call of the branch `id` was issued, under its barrier; `failed` says whether it has
failed. -/
structure Attempted (T : Trial) (id : String) (failed : Bool) (w w' : World) : Prop where
  txs : w'.txs = w.txs
  calls : ∀ id', T.calls w' id' = T.calls w id' + if id' = id then 1 else 0
  failures : ∀ id', T.failures w' id' = T.failures w id' + if id' = id ∧ failed then 1 else 0
  barriers : ∀ id', T.key id' ∈ w.barriers → T.key id' ∈ w'.barriers
  held : T.key id ∈ w'.barriers

section Attempt

variable {c : BranchCall} {k : BranchBarrier} {failed : Bool}

theorem key_inj {id id' : String} : T.key id = T.key id' ↔ id = id' := by
  simp [key]

/-- The call is under way. -/
theorem attempted_began (hk : k = T.key id) (hc : c.barrier = k) (htxs : w'.txs = w.txs)
    (hb : w'.barriers = insert k w.barriers)
    (hh : w'.history = (i, .began c) :: (i, .decided k .execute) :: w.history) :
    T.Attempted id false w w' where
  txs := htxs
  calls := fun id' => by
    rw [calls, hh]
    split
    · rename_i h
      rw [callsUnder_began (by rw [hc, hk, h]), callsUnder_quiet rfl, calls]
    · rename_i h
      have hne : c.barrier ≠ T.key id' := by
        rw [hc, hk, ne_eq, key_inj]
        exact fun h' => h h'.symm
      rw [callsUnder_quiet (by simp [Event.beginsUnder, hne]), callsUnder_quiet rfl, calls]
      rfl
  failures := fun id' => by
    rw [failures, hh, failuresUnder_quiet rfl, failuresUnder_quiet rfl, failures]
    simp
  barriers := fun id' h => by
    rw [hb]
    exact Finset.mem_insert_of_mem h
  held := by
    rw [hb, hk]
    exact Finset.mem_insert_self _ _

/-- The call has returned. -/
theorem Attempted.ended {ok : Bool} (h : T.Attempted id false w w') (hc : c.barrier = T.key id)
    (htxs : w''.txs = w'.txs) (hb : w''.barriers = w'.barriers)
    (hh : w''.history = (i, .ended c ok) :: w'.history) : T.Attempted id (!ok) w w'' where
  txs := htxs.trans h.txs
  calls := fun id' => by
    rw [Trial.calls, hh, callsUnder_quiet rfl]
    exact h.calls id'
  failures := fun id' => by
    have hbefore : T.failures w' id' = T.failures w id' := by simpa using h.failures id'
    rw [Trial.failures, hh, ← hbefore]
    cases ok with
    | true =>
      rw [failuresUnder_quiet rfl, Trial.failures]
      simp
    | false =>
      split
      · rename_i h'
        rw [failuresUnder_failed (by rw [hc, h'.1]), Trial.failures]
      · rename_i h'
        have hne : c.barrier ≠ T.key id' := by
          rw [hc, ne_eq, key_inj]
          exact fun he => h' ⟨he.symm, rfl⟩
        rw [failuresUnder_quiet (by simp [Event.failsUnder, hne]), Trial.failures]
        rfl
  barriers := fun id' h' => by
    rw [hb]
    exact h.barriers id' h'
  held := by
    rw [hb]
    exact h.held

end Attempt

/-- The world between two branches; `ids` are those of the record. -/
structure Between (T : Trial) (s : Transaction) (ids : List String) (w : World)
    (passed ahead : List Branch) : Prop where
  isOpen : T.Open s w
  tries : T.Tries s.status
  ids : (passed ++ ahead).map Branch.id = ids
  settled : ∀ b ∈ passed, b.status = .succeeded ∨ T.key b.id ∈ w.barriers
  counted : T.Counted w (passed ++ ahead)

section Between

theorem due_exchange {l₁ l₂ : List Branch} (hid : b'.id = b.id) (hne : id ≠ b.id) :
    due id (l₁ ++ b' :: l₂) = due id (l₁ ++ b :: l₂) := by
  have hb : decide (b.id = id) = false := decide_eq_false fun h => hne h.symm
  have hb' : decide (b'.id = id) = false := by rw [hid, hb]
  simp only [due, List.find?_append, List.find?_cons, hb, hb', Bool.false_and]

/-- One branch of the record is exchanged, and only its calls have changed. -/
theorem Counted.exchange {l₁ l₂ : List Branch} (h : T.Counted w (l₁ ++ b :: l₂))
    (hid : b'.id = b.id)
    (hother : ∀ id, id ≠ b.id → T.calls w' id = T.calls w id ∧ T.failures w' id = T.failures w id ∧
      (T.key id ∈ w.barriers → T.key id ∈ w'.barriers))
    (hself : T.key b.id ∉ w'.barriers → ∀ x, due b.id (l₁ ++ b' :: l₂) = some x →
      T.Even w' x ∧ x.attempts < T.limit) : T.Counted w' (l₁ ++ b' :: l₂) := by
  intro id x hdue hfree
  by_cases hne : id = b.id
  · subst hne
    exact hself hfree x hdue
  · rw [due_exchange hid hne] at hdue
    obtain ⟨hc, hf, hb⟩ := hother id hne
    obtain ⟨heven, hlt⟩ := h id x hdue fun hm => hfree (hb hm)
    obtain ⟨-, hxid, -⟩ := due_eq_some hdue
    refine ⟨⟨?_, ?_⟩, hlt⟩
    · rw [hxid, hc, ← hxid]
      exact heven.calls
    · rw [hxid, hf, ← hxid]
      exact heven.failures

theorem not_turned_of_tries (hs : w.txs[T.gid]? = some s) (ht : T.Tries s.status) :
    ¬ T.Turned w := by
  rintro ⟨s', hs', hst⟩
  cases hs.symm.trans hs'
  rcases hst with hst | hst <;> rw [hst] at ht <;> exact not_tries rfl ht

theorem Between.explained {R : World → Prop} (h : T.Between s ids w passed ahead) :
    T.Explained R w :=
  ⟨h.isOpen.limited, fun ht => absurd ht (not_turned_of_tries h.isOpen.stored h.tries)⟩

theorem Between.setClock (h : T.Between s ids w passed ahead) (now : Nat) :
    T.Between s ids (w.setClock now) passed ahead :=
  ⟨h.isOpen.setClock now, h.tries, h.ids, h.settled, (idle_setClock T w now).counted h.counted⟩

/-- The next branch is passed by. -/
theorem Between.pass (h : T.Between s ids w passed (b :: ahead))
    (hb : b.status = .succeeded ∨ T.key b.id ∈ w.barriers) :
    T.Between s ids w (passed ++ [b]) ahead where
  isOpen := h.isOpen
  tries := h.tries
  ids := by
    rw [List.append_assoc]
    exact h.ids
  settled := by
    refine List.forall_mem_append.mpr ⟨h.settled, List.forall_mem_singleton.mpr hb⟩
  counted := by
    rw [List.append_assoc]
    exact h.counted

/-- A branch that comes next is the one that is due. -/
theorem Between.due (h : T.Between s ids w passed (b :: ahead))
    (hfree : T.key b.id ∉ w.barriers) (hid : b'.id = b.id) (hst' : b'.status ≠ .succeeded) :
    due b.id (passed ++ b' :: ahead) = some b' := by
  have hnone : passed.find? (fun a => decide (a.id = b.id) && decide (a.status ≠ .succeeded)) =
      none := by
    refine List.find?_eq_none.mpr fun a ha hp => ?_
    rw [Bool.and_eq_true, decide_eq_true_eq, decide_eq_true_eq] at hp
    rcases h.settled a ha with hs | hk
    · exact hp.2 hs
    · rw [hp.1] at hk
      exact hfree hk
  rw [Trial.due, List.find?_append, hnone, Option.none_or, List.find?_cons_of_pos]
  simp [hid, hst']

/-- What the next branch says of its calls. -/
theorem Between.even (h : T.Between s ids w passed (b :: ahead)) (hst : b.status ≠ .succeeded)
    (hfree : T.key b.id ∉ w.barriers) : T.Even w b ∧ b.attempts < T.limit :=
  h.counted b.id b (h.due hfree rfl hst) hfree

/-- **The next branch may be called.** -/
theorem Between.limited {failed : Bool} (h : T.Between s ids w passed (b :: ahead))
    (hst : b.status ≠ .succeeded) (hfree : T.key b.id ∉ w.barriers)
    (ha : T.Attempted b.id failed w w') : T.Limited w' := by
  intro id
  rw [ha.calls]
  split
  · rename_i hid
    obtain ⟨heven, hlt⟩ := h.even hst hfree
    rw [hid, heven.calls]
    exact hlt
  · exact h.isOpen.limited id

/-- The stored record while the next branch is called. -/
theorem Between.attempted {failed : Bool} (h : T.Between s ids w passed (b :: ahead))
    (hst : b.status ≠ .succeeded) (hfree : T.key b.id ∉ w.barriers)
    (ha : T.Attempted b.id failed w w') : T.Open s w' := by
  refine ⟨?_, h.limited hst hfree ha, ?_⟩
  · rw [World.Keyed, ha.txs]
    exact h.isOpen.keyed
  · rw [ha.txs]
    exact h.isOpen.stored

/-- **The call of the next branch has succeeded.** -/
theorem Between.succeeded (h : T.Between s ids w passed (b :: ahead))
    (hst : b.status ≠ .succeeded) (hfree : T.key b.id ∉ w.barriers)
    (ha : T.Attempted b.id false w w') (hid : b'.id = b.id) (hst' : b'.status = .succeeded) :
    T.Between s ids w' (passed ++ [b']) ahead where
  isOpen := h.attempted hst hfree ha
  tries := h.tries
  ids := by
    rw [← h.ids]
    simp [hid]
  settled := by
    refine List.forall_mem_append.mpr ⟨fun a hm => ?_, List.forall_mem_singleton.mpr (Or.inl hst')⟩
    exact (h.settled a hm).imp id (ha.barriers a.id)
  counted := by
    rw [List.append_assoc]
    refine h.counted.exchange hid (fun id hne => ?_) fun hf => absurd ha.held hf
    refine ⟨?_, ?_, ha.barriers id⟩
    · simpa [hne] using ha.calls id
    · simpa using ha.failures id

/-- **The call of the next branch has failed**, and its barrier was given back. -/
theorem Between.failed (h : T.Between s ids w passed (b :: ahead))
    (hst : b.status ≠ .succeeded) (hfree : T.key b.id ∉ w.barriers)
    (ha : T.Attempted b.id true w w') (hc : T.calls w'' = T.calls w')
    (hf : T.failures w'' = T.failures w')
    (hb : ∀ id, id ≠ b.id → T.key id ∈ w'.barriers → T.key id ∈ w''.barriers)
    (hid : b'.id = b.id) (hst' : b'.status ≠ .succeeded) (hatt : b'.attempts = b.attempts + 1)
    (hlt : b'.attempts < T.limit) : T.Counted w'' (passed ++ b' :: ahead) := by
  obtain ⟨heven, -⟩ := h.even hst hfree
  refine h.counted.exchange hid (fun id hne => ?_) fun _ x hx => ?_
  · refine ⟨?_, ?_, fun hm => hb id hne (ha.barriers id hm)⟩
    · rw [hc]
      simpa [hne] using ha.calls id
    · rw [hf]
      simpa [hne] using ha.failures id
  · rw [h.due hfree hid hst'] at hx
    cases hx
    refine ⟨⟨?_, ?_⟩, hlt⟩
    · rw [hc, ha.calls, hid, if_pos rfl, heven.calls, hatt]
    · rw [hf, ha.failures, hid, if_pos ⟨rfl, rfl⟩, heven.failures, hatt]

/-- **A branch that has used up its attempts** has failed as often as it may be called. -/
theorem Between.spent (h : T.Between s ids w passed (b :: ahead))
    (hst : b.status ≠ .succeeded) (hfree : T.key b.id ∉ w.barriers)
    (ha : T.Attempted b.id true w w') (hlimit : T.limit ≤ b.attempts + 1) :
    b.id ∈ ids ∧ T.failures w' b.id = T.limit := by
  obtain ⟨heven, hlt⟩ := h.even hst hfree
  refine ⟨?_, ?_⟩
  · rw [← h.ids]
    simp
  · rw [ha.failures, if_pos ⟨rfl, rfl⟩, heven.failures]
    omega

end Between

/-! ### One call -/

section Call

variable {R : World → Prop} {dtm : Dtm} {E : Err → World → Prop}

/-- A record that is tried is not one of an abort. -/
theorem explained_of_tries (ho : T.Open s w) (ht : T.Tries s.status) : T.Explained R w :=
  ⟨ho.limited, fun h => absurd h (not_turned_of_tries ho.stored ht)⟩

/-- **Calling the next branch**, under the barrier that was claimed for it. -/
theorem runs_trialCall {options : TransactionOptions} {gid op url : String} {branch : Branch}
    {now : Nat} {Q : Branch × Bool → World → Prop} (h : T.Between s ids w passed (b :: ahead))
    (hst : b.status ≠ .succeeded) (hfree : T.key b.id ∉ w.barriers)
    (hkey : (⟨gid, b.id, op⟩ : BranchBarrier) = T.key b.id) (hid : branch.id = b.id)
    (ok : ∀ w', T.Attempted b.id false w w' → Q (branch, true) w')
    (error : ∀ w' b' c, b'.definition = branch.definition → b'.attempts = branch.attempts →
      T.Attempted b.id true w w' → c.barrier = T.key b.id →
      w'.history.head? = some (i, .ended c false) → Q (b', false) w') :
    (alone fun _ _ => True).Runs (T.Explained R) i (dtm.invokeBranch options gid branch url op) Q E
      ((w.setClock now).claimed i ⟨gid, b.id, op⟩) := by
  have hcall : (Dtm.branchCall options gid branch url op).barrier = T.key b.id := by
    rw [← hkey, ← hid]
    rfl
  have hbegan (now' : Nat) : T.Attempted b.id false w
      ((((w.setClock now).claimed i ⟨gid, b.id, op⟩).note i
        (.began (Dtm.branchCall options gid branch url op))).setClock now') :=
    attempted_began hkey (hcall.trans hkey.symm) rfl rfl rfl
  have hended (ok : Bool) (now' : Nat) : T.Attempted b.id (!ok) w
      ((((w.setClock now).claimed i ⟨gid, b.id, op⟩).called i
        (Dtm.branchCall options gid branch url op) ok).setClock now') :=
    (hbegan now').ended hcall rfl rfl rfl
  have hshow {failed : Bool} {w' : World} (ha : T.Attempted b.id failed w w') :
      T.Explained R w' := explained_of_tries (h.attempted hst hfree ha) h.tries
  refine runs_invokeBranch_through (fun now' => ?_) (fun now' => hshow (hbegan now'))
    (fun now' => hshow (hended false now')) (fun now' => ok _ (hended true now'))
    fun now' b' hdef _ hatt => error _ b' _ hdef hatt (hended false now') hcall rfl
  exact ⟨h.isOpen.limited, fun ht => absurd ht (not_turned_of_tries h.isOpen.stored h.tries)⟩

/-- A barrier of the trial is given back. -/
structure Released (T : Trial) (id : String) (w w' : World) : Prop where
  txs : w'.txs = w.txs
  calls : T.calls w' = T.calls w
  failures : T.failures w' = T.failures w
  barriers : ∀ id', id' ≠ id → T.key id' ∈ w.barriers → T.key id' ∈ w'.barriers

theorem Released.isOpen (h : T.Released id w w') (ho : T.Open s w) : T.Open s w' := by
  refine ⟨?_, ?_, ?_⟩
  · rw [World.Keyed, h.txs]
    exact ho.keyed
  · rw [Limited, h.calls]
    exact ho.limited
  · rw [h.txs]
    exact ho.stored

theorem runs_trialRelease {k : BranchBarrier} {Q : Unit → World → Prop} (ho : T.Open s w)
    (ht : T.Tries s.status) (hk : k = T.key id)
    (hQ : ∀ w', T.Released id w w' → w'.history = (i, .released k) :: w.history → Q () w') :
    (alone fun _ _ => True).Runs (T.Explained R) i (Store.releaseBarrier k) Q E w := by
  refine runs_releaseBarrier (fun now => explained_of_tries (ho.setClock now) ht) fun now => ?_
  refine hQ _ ⟨rfl, ?_, ?_, fun id' hne hm => ?_⟩ rfl
  · funext id'
    exact callsUnder_quiet rfl
  · funext id'
    exact failuresUnder_quiet rfl
  · have hne' : T.key id' ≠ k := by
      rw [hk, ne_eq, key_inj]
      exact hne
    simpa [InMemory.releaseBarrier, hne'] using hm

end Call

/-! ### The loops -/

section Loops

variable {dtm : Dtm} {tx : Transaction}

/-- A Try that has failed, or that came after its Cancel, was the last that was done; one that has
failed has used up its attempts. -/
def TryFailed (T : Trial) (ids : List String) (w : World) : Prop :=
  ∃ id ∈ ids, (∃ i, w.history.head? = some (i, .decided (T.key id) .skipCancelledTry)) ∨
    ((∃ i c rest, w.history = (i, .released (T.key id)) :: (i, .ended c false) :: rest ∧
      c.barrier = T.key id) ∧ T.failures w id = T.limit)

/-- One attempt more, while there are attempts left. -/
theorem satAdd32_attempts (h : b.attempts < T.limit) : satAdd32 b.attempts 1 = b.attempts + 1 := by
  have := T.bound
  exact Nat.min_eq_left (by omega)

/-- A barrier was decided on. -/
theorem idle_decided {now : Nat} {k : BranchBarrier} {d : BarrierDecision} :
    T.Idle w ((w.setClock now).note i (.decided k d)) where
  calls := funext fun _ => callsUnder_quiet rfl
  failures := funext fun _ => failuresUnder_quiet rfl
  barriers := fun _ h => h

theorem Idle.isOpen (h : T.Idle w w') (htxs : w'.txs = w.txs) (ho : T.Open s w) : T.Open s w' := by
  refine ⟨?_, h.limited ho.limited, ?_⟩
  · rw [World.Keyed, htxs]
    exact ho.keyed
  · rw [htxs]
    exact ho.stored

/-- The record was written between two branches. -/
theorem Between.written (h : T.Between s ids w passed ahead) {s' : Transaction}
    (hidle : T.Idle w w') (ho : T.Open s' w') (ht : T.Tries s'.status) :
    T.Between s' ids w' passed ahead :=
  ⟨ho, ht, h.ids, fun b hb => (h.settled b hb).imp id (hidle.barriers b.id), hidle.counted h.counted⟩

/-- **An abort that a spent branch leads to.** -/
theorem runs_abortSpent {x : Act Transaction}
    (hx : T.Keeps (fun f => ∃ id ∈ ids, f id = T.limit) i x) (hw : T.Inv w)
    (hspent : T.Spent ids w) :
    (alone fun _ _ => True).Runs (T.Explained (T.Spent ids)) i x
      (fun _ w => T.Inv w ∧ T.Explained (T.Spent ids) w)
      (fun _ w => T.Inv w ∧ T.Explained (T.Spent ids) w) w := by
  refine Machine.Ends.imp (Machine.Runs.mono (hx w hw hspent) (fun _ w h => ?_) fun _ w h => ?_)
    fun w h => ?_
  · exact ⟨h.1, h.1.limited, fun _ => h.2⟩
  · exact ⟨h.1, h.1.limited, fun _ => h.2⟩
  · exact ⟨h.1, fun _ => h.2⟩

/-- **The loop of `start_saga`.** -/
theorem runs_startSagaLoop (hk : T.kind = .saga) (hlimit : sagaMaxAttempts T.options = T.limit)
    (hb : T.Between s ids w passed ahead) (hr : T.Record w s) (htx : T.Of tx)
    (hst : tx.status = .succeeding) :
    (alone fun _ _ => True).Runs (T.Explained (T.Spent ids)) i (dtm.startSagaLoop T.gid tx passed ahead)
      (fun _ w => T.Inv w ∧ T.Explained (T.Spent ids) w)
      (fun _ w => T.Inv w ∧ T.Explained (T.Spent ids) w) w := by
  have hop : T.op = "action" := if_pos hk
  have htries : T.Tries .succeeding := Or.inr (if_pos hk).symm
  induction ahead generalizing s tx w passed with
  | nil =>
    refine runs_persistTrial hb.isOpen ⟨htx.change passed .succeeded, fun h => (by cases h),
      fun h => absurd h (not_tries rfl)⟩ (fun now => (hb.setClock now).explained) ?_
    intro now w' _ _ _ ho hr'
    refine ⟨⟨_, ho, hr'⟩, ho.limited, ?_⟩
    rintro ⟨s', hs', hst'⟩
    cases ho.stored.symm.trans hs'
    rcases hst' with h | h <;> cases h
  | cons branch ahead ih =>
    rw [Dtm.startSagaLoop]
    split
    · rename_i hsucc
      exact ih (hb.pass (Or.inl hsucc)) hr htx hst
    · rename_i hsucc
      have hkey : (⟨tx.gid, branch.id, "action"⟩ : BranchBarrier) = T.key branch.id := by
        rw [key, hop, htx.gid]
      refine Machine.runs_bind.mpr (runs_barrier (show "action" ≠ "try" by decide)
        (show "action" ≠ "cancel" by decide) (fun now => (hb.setClock now).explained)
        (fun now hbar => ?_) fun now hfree => ?_)
      · -- another attempt holds the barrier
        simp only [ne_eq, reduceCtorEq, not_false_eq_true, if_true]
        have hidle : T.Idle w ((w.setClock now).note i
            (.decided ⟨tx.gid, branch.id, "action"⟩ .skipDuplicate)) := idle_decided
        have ho := hidle.isOpen rfl hb.isOpen
        have hr' := hidle.record hr
        have hend (now' : Nat) := And.intro (Inv.setClock ⟨s, ho, hr'⟩ now')
          (explained_of_tries (R := T.Spent ids) (ho.setClock now') hb.tries)
        exact runs_loadTransaction (fun now' => (hend now').2) (fun now' _ _ => hend now')
          fun now' _ _ => hend now'
      · simp only [ne_eq, not_true_eq_false, if_false, Machine.runs_bind]
        rw [hkey] at hfree
        obtain ⟨-, hlt⟩ := hb.even hsucc hfree
        refine runs_trialCall hb hsucc hfree hkey rfl (fun w' ha => ?_)
          fun w' b' c hdef hatt ha hc hhist => ?_
        · -- the action has succeeded
          simp only [if_true, Machine.runs_bind]
          have hb' : T.Between s ids w' (passed ++ [{ branch with
              status := .succeeded, attempts := satAdd32 branch.attempts 1,
              nextRetryMillis := none }]) ahead := hb.succeeded hsucc hfree ha rfl rfl
          refine runs_persistTrial hb'.isOpen ⟨htx.change _ tx.status, ?_, fun _ => ?_⟩
            (fun now' => (hb'.setClock now').explained) fun now' w'' hidle _ _ ho' hr' => ?_
          · show tx.status = .submitted → _
            rw [hst]
            intro h
            cases h
          · rw [← List.singleton_append, ← List.append_assoc]
            exact hb'.counted
          · refine ih (hb'.written hidle ho' ?_) hr' ⟨htx.gid, htx.kind, htx.options⟩ hst
            exact hst ▸ htries
        · simp only [Bool.false_eq_true, if_false]
          have hatt : b'.attempts = branch.attempts + 1 := hatt.trans (satAdd32_attempts hlt)
          have ho' := hb.attempted hsucc hfree ha
          split
          · -- it is tried again later
            rename_i hleft
            simp only [Machine.runs_bind]
            refine runs_trialRelease ho' hb.tries hkey fun w'' hrel _ => ?_
            have ho'' := hrel.isOpen ho'
            refine runs_persistTrial ho'' ⟨htx.change _ tx.status, ?_, fun _ => ?_⟩
              (fun now' => explained_of_tries (ho''.setClock now') hb.tries)
              fun now' w₃ _ _ _ ho₃ hr₃ => ?_
            · show tx.status = .submitted → _
              rw [hst]
              intro h
              cases h
            · refine hb.failed hsucc hfree ha hrel.calls hrel.failures hrel.barriers
                (Branch.id_eq hdef) (fun h => by cases h) hatt ?_
              rw [← hlimit, ← htx.options]
              exact hleft
            · exact ⟨⟨_, ho₃, hr₃⟩, explained_of_tries ho₃ (hst ▸ htries)⟩
          · -- it has used up its attempts
            rename_i hleft
            simp only [Machine.runs_bind]
            obtain ⟨hmem, hspent⟩ := hb.spent hsucc hfree ha (by
              rw [← hatt, ← hlimit, ← htx.options]
              exact Nat.not_lt.mp hleft)
            refine runs_persistTrial ho' ⟨htx.change _ .aborting, fun h => (by cases h),
              fun h => absurd h (not_tries rfl)⟩
              (fun now' => explained_of_tries (ho'.setClock now') hb.tries)
              fun now' w'' hidle _ _ ho'' hr'' => ?_
            refine runs_abortSpent keeps_abortSaga ⟨_, ho'', hr''⟩ ⟨branch.id, hmem, ?_⟩
            rw [hidle.failures]
            exact hspent

/-- **The loop of `prepare_tcc`.** -/
theorem runs_prepareTccLoop (hk : T.kind = .tcc) (hlimit : dtm.maxAttempts T.options = T.limit)
    (hb : T.Between s ids w passed ahead) (htx : T.Of tx) (hst : tx.status = .trying) :
    (alone fun _ _ => True).Runs (T.Explained (T.TryFailed ids)) i (dtm.prepareTccLoop tx passed ahead)
      (fun _ w => T.Inv w ∧ T.Explained (T.TryFailed ids) w)
      (fun _ w => T.Inv w ∧ T.Explained (T.TryFailed ids) w) w := by
  have hnot : T.kind ≠ .saga := by
    rw [hk]
    decide
  have hop : T.op = "try" := if_neg hnot
  have htries : T.Tries .trying := Or.inr (if_neg hnot).symm
  induction ahead generalizing w passed with
  | nil =>
    refine runs_persistTrial hb.isOpen ⟨htx.change passed .prepared, fun h => (by cases h),
      fun h => absurd h (not_tries rfl)⟩ (fun now => (hb.setClock now).explained) ?_
    intro now w' _ _ _ ho hr'
    refine ⟨⟨_, ho, hr'⟩, ho.limited, ?_⟩
    rintro ⟨s', hs', hst'⟩
    cases ho.stored.symm.trans hs'
    rcases hst' with h | h <;> cases h
  | cons branch ahead ih =>
    rw [Dtm.prepareTccLoop]
    split
    · rename_i hsucc
      exact ih (hb.pass (Or.inl hsucc))
    · rename_i hsucc
      have hkey : (⟨tx.gid, branch.id, "try"⟩ : BranchBarrier) = T.key branch.id := by
        rw [key, hop, htx.gid]
      have hmem : branch.id ∈ ids := by
        rw [← hb.ids]
        simp
      refine Machine.runs_bind.mpr (runs_barrierNotCancel (show "try" ≠ "cancel" by decide)
        (fun now => (hb.setClock now).explained) (fun now hbar => ?_) (fun _ now => ?_)
        fun now hfree => ?_)
      · -- the Try was made before
        rw [hkey] at hbar
        have hidle : T.Idle w ((w.setClock now).note i
            (.decided ⟨tx.gid, branch.id, "try"⟩ .skipDuplicate)) := idle_decided
        exact ih ((hb.written hidle (hidle.isOpen rfl hb.isOpen) hb.tries).pass (Or.inr hbar))
      · -- the Cancel came before the Try
        have hidle : T.Idle w ((w.setClock now).note i
            (.decided ⟨tx.gid, branch.id, "try"⟩ .skipCancelledTry)) := idle_decided
        have ho := hidle.isOpen rfl hb.isOpen
        refine runs_persistTrial ho ⟨htx.change _ .aborting, fun h => (by cases h),
          fun h => absurd h (not_tries rfl)⟩ (fun now' => explained_of_tries (ho.setClock now') hb.tries)
          fun now' w' _ _ hhist ho' hr' => ⟨⟨_, ho', hr'⟩, ho'.limited, fun _ => ?_⟩
        refine ⟨branch.id, hmem, Or.inl ⟨i, ?_⟩⟩
        rw [hhist, ← hkey]
        rfl
      · simp only [Machine.runs_bind]
        have hfree : T.key branch.id ∉ w.barriers := hkey ▸ hfree
        obtain ⟨-, hlt⟩ := hb.even hsucc hfree
        refine runs_trialCall hb hsucc hfree hkey rfl (fun w' ha => ?_)
          fun w' b' c hdef hatt ha hc hhist => ?_
        · -- the Try has succeeded
          simp only [if_true]
          exact ih (hb.succeeded hsucc hfree ha rfl rfl)
        · -- the Try has failed
          simp only [Bool.false_eq_true, if_false, Machine.runs_bind]
          have hatt : b'.attempts = branch.attempts + 1 := hatt.trans (satAdd32_attempts hlt)
          have ho' := hb.attempted hsucc hfree ha
          refine runs_trialRelease ho' hb.tries hkey fun w'' hrel hhist' => ?_
          have ho'' := hrel.isOpen ho'
          have hshow (now' : Nat) : T.Explained (T.TryFailed ids) (w''.setClock now') :=
            explained_of_tries (ho''.setClock now') hb.tries
          have hmax : dtm.maxAttempts tx.options = T.limit := by rw [htx.options, hlimit]
          rw [hmax]
          split
          · rename_i hleft
            obtain ⟨-, hspent⟩ := hb.spent hsucc hfree ha (hatt ▸ hleft)
            refine runs_persistTrial ho'' ⟨htx.change _ .aborting, fun h => (by cases h),
              fun h => absurd h (not_tries rfl)⟩ hshow
              fun now' w₃ hidle _ hhist₃ ho₃ hr₃ => ⟨⟨_, ho₃, hr₃⟩, ho₃.limited, fun _ => ?_⟩
            obtain ⟨rest, hrest⟩ := List.head?_eq_some_iff.mp hhist
            refine ⟨branch.id, hmem, Or.inr ⟨⟨i, c, rest, ?_, hc⟩, ?_⟩⟩
            · rw [hhist₃, hhist', hrest, hkey]
            · rw [hidle.failures, hrel.failures]
              exact hspent
          · rename_i hleft
            refine runs_persistTrial ho'' ⟨htx.change _ tx.status, ?_, fun _ => ?_⟩ hshow
              fun now' w₃ _ _ _ ho₃ hr₃ => ?_
            · show tx.status = .submitted → _
              rw [hst]
              intro h
              cases h
            · exact hb.failed hsucc hfree ha hrel.calls hrel.failures hrel.barriers
                (Branch.id_eq hdef) (fun h => by cases h) hatt (Nat.not_le.mp hleft)
            · exact ⟨⟨_, ho₃, hr₃⟩, explained_of_tries ho₃ (hst ▸ htries)⟩

end Loops

end Trial

end RozeDtm
