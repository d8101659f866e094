import RozeDtm.Properties.MessageSafety
import RozeDtm.Session.Retention

/-!
# Retention of delayed Messages

A purge counts from the last write of a record, a delivery from its creation.  A Message that
is committed and waits for its delivery is kept when its dispatch time lies within the
retention of what was written at the start (`delayed_message_kept_iff`).
-/

namespace RozeDtm

open Conc

/-- The operations on Messages, and purges under the policy. -/
def Job.ServesMessages (policy : RetentionPolicy) : Job → Prop
  | .operation op => op.DrivesMessage
  | .purge policy' => policy' = policy

theorem follows_servesMessages {dtm : Dtm} {policy : RetentionPolicy} {g : String} {job : Job}
    (h : job.ServesMessages policy) :
    (upkeep policy g).Follows (job.prog dtm) .start (fun _ _ => True) := by
  cases job with
  | operation op => exact upkeep_of_delivery (follows_drivesMessage h)
  | purge policy' =>
    have hpolicy : policy' = policy := h
    subst hpolicy
    have hpurge : (upkeep policy' g).Does (Dtm.purgeExpiredTransactions policy' >>= fun _ =>
        (pure [] : Act (List Transaction))) .start (fun _ _ => True) :=
      Discipline.does_bind.mpr (upkeep_purgeExpiredTransactions.mono fun _ _ _ =>
        Discipline.does_pure.mpr trivial)
    exact hpurge.follows

/-! ### The waiting Message -/

/-- The record of the Message that `s₀` was the first record of, which the clock showed `t₀`
for: a record in Succeeding was written since. -/
structure WaitingInv (s₀ : Transaction) (t₀ : Nat) (w : World) : Prop where
  keyed : w.Keyed
  clock : t₀ ≤ w.clock
  record : ∀ s, w.txs[s₀.gid]? = some s →
    SameMessage s₀ s ∧ (s.status = .succeeding → t₀ ≤ s.updatedAtMillis)

section Steps

variable {policy : RetentionPolicy} {s₀ : Transaction} {t₀ : Nat} {σ : MessageView} {o : Effect}
  {w : World}

/-- **The record of a Message through one step of an operation or a purge.** -/
theorem upkeep_step {g : String} (ho : MessageOwn g σ w)
    (hk : ∀ s, w.txs[g]? = some s → s.kind = .message) (hp : (upkeep policy g).pre σ o) (i : Nat)
    (c : Outcome) :
    ((InMemory.exec i o c w).2.txs[g]? = w.txs[g]? ∧ ∀ tx, o = .updateTransaction tx → tx.gid ≠ g) ∨
    (∃ tx s, o = .updateTransaction tx ∧ tx.gid = g ∧ w.txs[g]? = some s ∧ SameMessage s tx ∧
      (InMemory.exec i o c w).2.txs[g]? = some (bumpTransactionRevision w.clock tx)) ∨
    (∃ tx, o = .deleteTransactionIfUnchanged tx ∧ tx.gid = g ∧ w.txs[g]? = some tx ∧
      transactionExpired tx σ.now policy = true ∧ (InMemory.exec i o c w).2.txs[g]? = none) := by
  by_cases hdelete : ∃ tx, o = .deleteTransactionIfUnchanged tx
  · obtain ⟨tx, rfl⟩ := hdelete
    rcases delete_txs w g tx with h | ⟨hg, hs, h⟩
    · exact Or.inl ⟨h, fun _ h => (nomatch h)⟩
    · exact Or.inr (Or.inr ⟨tx, rfl, hg, hs, hp, h⟩)
  · have hp : (delivery g).pre σ o := by
      cases o with
      | deleteTransactionIfUnchanged tx => exact absurd ⟨tx, rfl⟩ hdelete
      | _ => exact hp
    cases hs : w.txs[g]? with
    | some s =>
      rcases message_step hp hs (hk s hs) i c with ⟨h, hother⟩ | ⟨tx, rfl, hg, h⟩
      · exact Or.inl ⟨h, hother⟩
      · exact Or.inr (Or.inl ⟨tx, s, rfl, hg, rfl, (ho.write hp hg hs).1, h⟩)
    | none =>
      -- nothing is known of a record that is not there, so it is not written
      have hother : ∀ tx, o = .updateTransaction tx → tx.gid ≠ g := by
        rintro tx rfl hg
        obtain ⟨base, hb, -⟩ := hp hg
        obtain ⟨s, hs', -⟩ := ho.snap base hb
        cases hs.symm.trans hs'
      refine Or.inl ⟨?_, hother⟩
      rcases txs_step i c w g (fun tx h => hdelete ⟨tx, h⟩) with h | ⟨tx, htx, hg, -⟩ |
        ⟨tx, rfl, -, -, -⟩ | ⟨s, s', hs', -, -⟩
      · exact h.trans hs
      · exact absurd hg (hother tx htx)
      · exact hp.elim
      · cases hs.symm.trans hs'

theorem WaitingInv.kind (hw : WaitingInv s₀ t₀ w) (hk₀ : s₀.kind = .message) (s : Transaction)
    (hs : w.txs[s₀.gid]? = some s) : s.kind = .message :=
  (hw.record s hs).1.kind.trans hk₀

theorem WaitingInv.exec (hw : WaitingInv s₀ t₀ w) (hk₀ : s₀.kind = .message)
    (ho : MessageOwn s₀.gid σ w) (hp : (upkeep policy s₀.gid).pre σ o) (i : Nat) (c : Outcome) :
    WaitingInv s₀ t₀ (InMemory.exec i o c w).2 := by
  refine ⟨hw.keyed.exec i c, clock_step i o c w ▸ hw.clock, fun s hs => ?_⟩
  rcases upkeep_step ho (hw.kind hk₀) hp i c with ⟨h, -⟩ | ⟨tx, s', -, -, hs', hsame, h⟩ |
    ⟨tx, -, -, -, -, h⟩
  · exact hw.record s (h.symm.trans hs)
  · cases h.symm.trans hs
    have hsame' := (hw.record s' hs').1
    refine ⟨⟨?_, ?_, ?_⟩, fun _ => hw.clock⟩
    · exact hsame.kind.trans hsame'.kind
    · exact hsame.createdAtMillis.trans hsame'.createdAtMillis
    · exact hsame.options.trans hsame'.options
  · cases h.symm.trans hs

theorem MessageOwn.upkeep (ho : MessageOwn s₀.gid σ w) (hw : WaitingInv s₀ t₀ w)
    (hk₀ : s₀.kind = .message) (hp : (upkeep policy s₀.gid).pre σ o) (i : Nat) (c : Outcome) :
    MessageOwn s₀.gid ((RozeDtm.upkeep policy s₀.gid).next σ o (InMemory.exec i o c w).1)
      (InMemory.exec i o c w).2 := by
  rcases upkeep_step ho (hw.kind hk₀) hp i c with ⟨h, hother⟩ | ⟨tx, s, rfl, hg, -, -, -⟩ |
    ⟨tx, rfl, hg, -, -, -⟩
  · have hstay := ho.stay i c h hother
    cases o with
    | deleteTransactionIfUnchanged tx =>
      simp only [RozeDtm.upkeep]
      split
      · exact ⟨fun _ hb => absurd hb (Option.some_ne_none _).symm, hstay.now⟩
      · exact hstay
    | _ => exact hstay
  · exact ho.written hg i c
  · simp only [RozeDtm.upkeep, if_pos hg]
    exact ⟨fun _ hb => absurd hb (Option.some_ne_none _).symm, clock_step i _ c w ▸ ho.now⟩

/-- A purge finds a waiting Message written too late to delete it. -/
theorem not_expired_waiting {tx : Transaction} {now dispatchAt : Nat}
    (hsucceeding : tx.status = .succeeding) (hwritten : t₀ ≤ tx.updatedAtMillis) (h₀ : 0 < t₀)
    (hle : dispatchAt ≤ t₀ + policy.dataExpireMillis) (hnow : now < dispatchAt) :
    transactionExpired tx now policy = false := by
  have hterminal : tx.status.isTerminal = false := by
    rw [hsucceeding]
    rfl
  simp only [transactionExpired, hterminal, Bool.false_eq_true, if_false, decide_eq_false_iff_not]
  omega

end Steps

/-- The outline of the operations on the Message and the purges. -/
def waitingOutline (policy : RetentionPolicy) (s₀ : Transaction) (t₀ : Nat)
    (hk₀ : s₀.kind = .message) : Solo inMemoryOnward (upkeep policy s₀.gid) .start where
  inv := WaitingInv s₀ t₀
  own := MessageOwn s₀.gid
  own_start := fun _ => ⟨fun _ h => (nomatch h), Nat.zero_le _⟩
  sees := fun {w i σ o} c hw _ _ _ => by
    cases o with
    | getTransaction gid =>
      intro tx htx
      refine ⟨hw.keyed gid tx htx, ?_⟩
      rintro rfl
      exact hw.kind hk₀ tx htx
    | listTransactions =>
      intro tx htx hg
      obtain ⟨gid, hgid⟩ := InMemory.mem_listTransactions htx
      rw [← hw.keyed gid tx hgid, hg] at hgid
      exact hw.kind hk₀ tx hgid
    | _ => trivial
  inv_step := fun {_ i _ _} c hw ho hp _ => hw.exec hk₀ ho hp i c
  own_step := fun {_ i _ _} c hw ho hp _ => ho.upkeep hw hk₀ hp i c
  inv_drift := fun hw hd => by
    obtain ⟨now, hle, rfl⟩ := hd
    exact ⟨hw.keyed, Nat.le_trans hw.clock hle, hw.record⟩
  own_drift := fun _ ho hd => by
    obtain ⟨now, hle, rfl⟩ := hd
    exact ⟨ho.snap, Nat.le_trans ho.now hle⟩

/-- Along every run that starts at `t₀` with `s₀` stored, the Message is not deleted while it
is in Succeeding and its dispatch time has not come. -/
def KeptUntilDue (dtm : Dtm) (policy : RetentionPolicy) (s₀ : Transaction) (t₀ : Nat) : Prop :=
  ∀ w : World, w.Keyed → w.txs[s₀.gid]? = some s₀ → w.clock = t₀ → ∀ P Q : System,
    inMemoryOnward.Turns (dtm.Jobs (Job.ServesMessages policy)) (Pool.idle w) P →
    inMemoryOnward.Turn (dtm.Jobs (Job.ServesMessages policy)) P Q →
    P.world.HasStatus s₀.gid .succeeding → messageDispatchDue s₀ P.world.clock = false →
    ∃ s, Q.world.txs[s₀.gid]? = some s

theorem keptUntilDue (dtm : Dtm) {policy : RetentionPolicy} {s₀ : Transaction}
    (hk₀ : s₀.kind = .message) (hst₀ : s₀.status = .submitted) {delay : Nat}
    (hdelay : s₀.options.delayMillis = some delay) {t₀ : Nat} (h₀ : 0 < t₀)
    (hle : satAdd64 s₀.createdAtMillis delay ≤ t₀ + policy.dataExpireMillis) :
    KeptUntilDue dtm policy s₀ t₀ := by
  intro w hw hs₀ hclock P Q hP hPQ hst hdue
  have hstart : ∀ p, dtm.Jobs (Job.ServesMessages policy) p →
      (upkeep policy s₀.gid).Follows p .start (fun _ _ => True) := by
    rintro p ⟨job, hjob, rfl⟩
    exact follows_servesMessages hjob
  have hinv : WaitingInv s₀ t₀ w := by
    refine ⟨hw, hclock.ge, fun s hs => ?_⟩
    cases hs₀.symm.trans hs
    exact ⟨.refl s₀, fun h => by rw [hst₀] at h; cases h⟩
  have hgood : (waitingOutline policy s₀ t₀ hk₀).Good P := (Solo.good_idle hinv).turns hstart hP
  obtain ⟨s, hs, hst⟩ := hst
  have hdispatch : P.world.clock < satAdd64 s₀.createdAtMillis delay := by
    rw [messageDispatchDue, messageDispatchAtMillis, hdelay] at hdue
    simpa using hdue
  cases hPQ with
  | start p hp => exact ⟨s, hs⟩
  | cut i => exact ⟨s, hs⟩
  | drift hd =>
    obtain ⟨now, -, rfl⟩ := hd
    exact ⟨s, hs⟩
  | exec i o k c hi ha =>
    obtain ⟨σ, ho, hp, -⟩ := hgood.pre hi
    have ho : MessageOwn s₀.gid σ _ := ho
    have hinv : WaitingInv s₀ t₀ _ := hgood.1
    rcases upkeep_step ho (hinv.kind hk₀) hp i c with ⟨h, -⟩ | ⟨tx, -, -, -, -, -, h⟩ |
      ⟨tx, -, -, hs', hexpired, -⟩
    · exact ⟨s, h.trans hs⟩
    · exact ⟨_, h⟩
    · cases hs.symm.trans hs'
      have hwritten := (hinv.record s hs).2 hst
      rw [not_expired_waiting hst hwritten h₀ hle (Nat.lt_of_le_of_lt ho.now hdispatch)] at hexpired
      cases hexpired

/-! ### A purge before the delivery -/

/-- The world over one record at a time. -/
def World.holding (tx : Transaction) (now : Nat) : World := { World.initial [tx] with clock := now }

/-- What `schedule_submit` does with a submitted Message. -/
theorem prog_scheduleSubmit (dtm : Dtm) {tx : Transaction} (hk : tx.kind = .message)
    (hst : tx.status = .submitted) : ∃ k k' r,
    (Job.operation (.scheduleSubmit tx.gid)).prog dtm = .step (.getTransaction tx.gid) k ∧
    k (some tx) = .step (.updateTransaction { tx with status := .succeeding }) k' ∧
    k' (.ok ()) = .pure r := by
  obtain ⟨gid, kind, status⟩ := tx
  cases hk
  cases hst
  exact ⟨_, _, _, rfl, rfl, rfl⟩

/-- What a purge does that finds one record, which has expired. -/
theorem prog_purge (dtm : Dtm) {policy : RetentionPolicy} (hpolicy : policy.Valid)
    {tx : Transaction} {now : Nat} (hexpired : transactionExpired tx now policy = true) :
    ∃ k k' k'', (Job.purge policy).prog dtm = .step .currentMillis k ∧
      k now = .step .listTransactions k' ∧
      k' [tx] = .step (.deleteTransactionIfUnchanged tx) k'' := by
  have hvalid : policy.validate = .ok policy := RetentionPolicy.validate_eq_ok.mpr ⟨hpolicy, rfl⟩
  have hlist : (([tx].insertionSort PurgedBefore).filter fun tx =>
      transactionExpired tx now policy).take policy.batchSize = [tx] := by
    obtain ⟨n, hn⟩ := Nat.exists_eq_add_of_le' hpolicy.batchSize.1
    have hsort : [tx].insertionSort PurgedBefore = [tx] := rfl
    rw [hsort, hn]
    simp [hexpired]
  have hprog : (Job.purge policy).prog dtm = .step .currentMillis fun now =>
      .step .listTransactions fun listed =>
        (Dtm.purgeLoop { scanned := (listed.insertionSort PurgedBefore).length }
          (((listed.insertionSort PurgedBefore).filter fun tx =>
            transactionExpired tx now policy).take policy.batchSize) >>= fun _ =>
          (pure [] : Act (List Transaction))).run := by
    simp only [Job.prog, Dtm.purgeExpiredTransactions, hvalid]
    rfl
  obtain ⟨k, hk⟩ : ∃ k, (Dtm.purgeLoop { scanned := ([tx].insertionSort PurgedBefore).length }
      (([tx].insertionSort PurgedBefore).filter (fun tx => transactionExpired tx now policy)
        |>.take policy.batchSize) >>= fun _ => (pure [] : Act (List Transaction))).run =
      .step (.deleteTransactionIfUnchanged tx) k := by
    rw [hlist]
    exact ⟨_, rfl⟩
  exact ⟨_, _, k, hprog, rfl, hk⟩

theorem listTransactions_single {w : World} {tx : Transaction} (hsize : w.txs.size = 1)
    (hs : w.txs[tx.gid]? = some tx) : InMemory.listTransactions w = [tx] := by
  have hlength : w.txs.toList.length = 1 := Std.ExtTreeMap.length_toList.trans hsize
  obtain ⟨p, hp⟩ := List.length_eq_one_iff.mp hlength
  have hmem : (tx.gid, tx) ∈ w.txs.toList := Std.ExtTreeMap.mem_toList_iff_getElem?_eq_some.mpr hs
  rw [hp, List.mem_singleton] at hmem
  rw [InMemory.listTransactions, hp, ← hmem]
  rfl

theorem size_holding (tx : Transaction) (now : Nat) : (World.holding tx now).txs.size = 1 := by
  simp [World.holding, World.initial, Std.ExtTreeMap.size_insert]

theorem stored_holding (tx : Transaction) (now : Nat) :
    (World.holding tx now).txs[tx.gid]? = some tx := by
  simp [World.holding, World.initial]

/-- **A committed Message is purged before its delivery**, when its dispatch time lies after
what the policy retains. -/
theorem purged_before_due (dtm : Dtm) {policy : RetentionPolicy} (hpolicy : policy.Valid)
    (s₀ : Transaction) (hk₀ : s₀.kind = .message) (hst₀ : s₀.status = .submitted) (t₀ now : Nat)
    (hnow : t₀ ≤ now) (hexpired : t₀ ≤ now - policy.dataExpireMillis) :
    ∃ P Q : System,
      inMemoryOnward.Turns (dtm.Jobs (Job.ServesMessages policy))
        (Pool.idle (.holding s₀ t₀)) P ∧
      inMemoryOnward.Turn (dtm.Jobs (Job.ServesMessages policy)) P Q ∧
      P.world.HasStatus s₀.gid .succeeding ∧ P.world.clock = now ∧
      Q.world.txs[s₀.gid]? = none := by
  have hstored := stored_holding s₀ t₀
  -- the commit is stored at `t₀`
  obtain ⟨k, k', r, hprog, hget, hwrite⟩ := prog_scheduleSubmit dtm hk₀ hst₀
  have h0 : inMemoryOnward.Turns (dtm.Jobs (Job.ServesMessages policy))
      (Pool.idle (.holding s₀ t₀)) (Pool.idle (.holding s₀ t₀)) := .refl
  have h1 := h0.start ⟨.operation (.scheduleSubmit s₀.gid), trivial, rfl⟩ fun i p hp => by
    simp [Pool.idle] at hp
  rw [hprog] at h1
  have h2 := Machine.Turns.exec h1 (i := 0) rfl trivial (.ofOk true) (r := some s₀)
    (w := .holding s₀ t₀) (Prod.ext hstored rfl)
  rw [hget] at h2
  let s₁ := bumpTransactionRevision t₀ { s₀ with status := .succeeding }
  have h3 := Machine.Turns.exec h2 (i := 0) rfl trivial (.ofOk true) (r := .ok ())
    (w := (World.holding s₀ t₀).put s₁) rfl
  rw [hwrite] at h3
  -- the purge comes when the retention is over
  let w : World := { (World.holding s₀ t₀).put s₁ with clock := now }
  have h4 := Machine.Turns.drift h3 (w := w) ⟨now, hnow, rfl⟩
  have hs : w.txs[s₀.gid]? = some s₁ := Std.ExtTreeMap.getElem?_insert_self
  have hsize : w.txs.size = 1 := by
    have hmem : s₁.gid ∈ (World.holding s₀ t₀).txs :=
      Std.ExtTreeMap.mem_iff_isSome_getElem?.mpr (by rw [show s₁.gid = s₀.gid from rfl, hstored]; rfl)
    exact Std.ExtTreeMap.size_insert.trans ((if_pos hmem).trans (size_holding s₀ t₀))
  have hlisted : InMemory.listTransactions w = [s₁] := listTransactions_single hsize hs
  have hs₁ : transactionExpired s₁ now policy = true := decide_eq_true hexpired
  obtain ⟨k, k', k'', hprog, htime, hlist⟩ := prog_purge dtm hpolicy hs₁
  have h5 := h4.start ⟨.purge policy, rfl, rfl⟩ fun i p hp => by
    cases i with
    | zero =>
      cases hp
      exact ⟨r, rfl⟩
    | succ i => cases hp
  rw [hprog] at h5
  have h6 := Machine.Turns.exec h5 (i := 1) rfl trivial (.ofOk true) (r := now) (w := w) rfl
  rw [htime] at h6
  have h7 := Machine.Turns.exec h6 (i := 1) rfl trivial (.ofOk true) (r := [s₁]) (w := w)
    (Prod.ext hlisted rfl)
  rw [hlist] at h7
  let ts : List (Option (Prog effects (Except Err (List Transaction)))) :=
    [some (.pure r), some (.step (Effect.deleteTransactionIfUnchanged s₁) k'')]
  have hP : inMemoryOnward.Turns (dtm.Jobs (Job.ServesMessages policy))
      (Pool.idle (.holding s₀ t₀)) ⟨w, ts⟩ := h7
  have hPQ : inMemoryOnward.Turn (dtm.Jobs (Job.ServesMessages policy)) ⟨w, ts⟩ _ :=
    .exec 1 (Effect.deleteTransactionIfUnchanged s₁) k'' (.ofOk true) rfl trivial
  exact ⟨_, _, hP, hPQ, ⟨s₁, hs, rfl⟩, rfl, delete_stored hs⟩

/-- **Exactly when a delayed Message is kept until it is due**: its dispatch time lies within
the retention of what was written at `t₀`, when it was submitted. -/
theorem delayed_message_kept_iff (dtm : Dtm) {policy : RetentionPolicy}
    (hpolicy : policy.validate = .ok policy) {s₀ : Transaction} (hk₀ : s₀.kind = .message)
    (hst₀ : s₀.status = .submitted) {delay : Nat} (hdelay : s₀.options.delayMillis = some delay)
    (hoptions : s₀.options.validate dtm.libs = .ok ()) (t₀ : Nat) :
    KeptUntilDue dtm policy s₀ t₀ ↔
      0 < t₀ ∧ satAdd64 s₀.createdAtMillis delay ≤ t₀ + policy.dataExpireMillis := by
  refine ⟨fun h => ?_, fun ⟨h₀, hle⟩ => keptUntilDue dtm hk₀ hst₀ hdelay h₀ hle⟩
  have hvalid : policy.Valid := (RetentionPolicy.validate_eq_ok.mp hpolicy).1
  -- a purge at `now` finds what was written at `t₀` expired
  have hkept (now : Nat) (hnow : t₀ ≤ now) (hexpired : t₀ ≤ now - policy.dataExpireMillis) :
      satAdd64 s₀.createdAtMillis delay ≤ now := by
    obtain ⟨P, Q, hP, hPQ, hst, hclock, hgone⟩ :=
      purged_before_due dtm hvalid s₀ hk₀ hst₀ t₀ now hnow hexpired
    by_contra hlt
    have hdue : messageDispatchDue s₀ P.world.clock = false := by
      rw [messageDispatchDue, messageDispatchAtMillis, hdelay, hclock]
      simpa using hlt
    have hkeyed : (World.holding s₀ t₀).Keyed := World.keyed_initial [s₀]
    obtain ⟨s, hs⟩ := h _ hkeyed (stored_holding s₀ t₀) rfl P Q hP hPQ hst hdue
    cases hgone.symm.trans hs
  have hpos : 0 < satAdd64 s₀.createdAtMillis delay := by
    have hdelay := (TransactionOptions.delay_of_validate hoptions hdelay).1
    exact Nat.lt_min.mpr ⟨Nat.add_pos_right _ hdelay, by decide⟩
  have h₀ : 0 < t₀ := by
    by_contra hzero
    have ht₀ : t₀ = 0 := Nat.eq_zero_of_not_pos hzero
    have hle := hkept 0 ht₀.le (ht₀.le.trans (Nat.zero_le _))
    omega
  exact ⟨h₀, hkept _ (Nat.le_add_right ..) (Nat.add_sub_cancel ..).ge⟩

/-- Non-terminal records are kept for seven days, the others for one. -/
def weeklyRetention : RetentionPolicy := ⟨604800000, 86400000, 100⟩

/-- A Message that is to be delivered after one day is kept. -/
theorem delayed_message_kept_for_a_day :
    KeptUntilDue .plain weeklyRetention (delayedMessage 1700000000000 "m" 86400000)
      1700000000000 :=
  (delayed_message_kept_iff .plain (by rfl) rfl rfl rfl (by rfl) 1700000000000).mpr
    ⟨by decide, by decide⟩

/-- A Message that is to be delivered after thirty days is committed, and purged after seven. -/
theorem committed_message_purged :
    weeklyRetention.validate = .ok weeklyRetention ∧
    (delayedMessage 1700000000000 "m" 2592000000).options.validate .plain = .ok () ∧
    ∃ P Q : System,
      inMemoryOnward.Turns (Dtm.plain.Jobs (Job.ServesMessages weeklyRetention))
        (Pool.idle (.holding (delayedMessage 1700000000000 "m" 2592000000) 1700000000000)) P ∧
      inMemoryOnward.Turn (Dtm.plain.Jobs (Job.ServesMessages weeklyRetention)) P Q ∧
      P.world.HasStatus "m" .succeeding ∧ P.world.clock = 1700604800000 ∧
      1700604800000 < 1700000000000 + 2592000000 ∧ Q.world.txs["m"]? = none := by
  have hvalid : weeklyRetention.Valid := ⟨by decide, by decide, by decide, by decide⟩
  obtain ⟨P, Q, hP, hPQ, hst, hclock, hgone⟩ :=
    purged_before_due .plain hvalid (delayedMessage 1700000000000 "m" 2592000000) rfl rfl
      1700000000000 1700604800000 (by decide) (by decide)
  exact ⟨by rfl, by rfl, P, Q, hP, hPQ, hst, hclock, by decide, hgone⟩

end RozeDtm
