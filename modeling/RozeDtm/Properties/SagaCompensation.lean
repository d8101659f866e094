import RozeDtm.InMemory.Snapshot

/-!
# Completeness of a Saga's compensation

`start_saga` writes down that a branch succeeded after its action call is back, and
`start_concurrent_saga` writes its branches as Running before their calls.  `abort_saga`
compensates only what is written as Succeeded or Compensating, so an action that succeeded
just before its operation was cut off is left as it is (`saga_action_left`).  In the runs in
which an abort finds no such action, and none is started after it, the compensation is
complete (`saga_compensated`).
-/

namespace RozeDtm

open Conc

/-- The action call under the barrier is in flight or has returned success. -/
def Acted (h : List (Nat × Event)) (b : BranchBarrier) : Bool :=
  match ledger h b with
  | some (_, .calling) | some (_, .done) => true
  | _ => false

/-- No action of `g` is called once it is to be compensated, and a write that decides so leaves
no action behind: each one that is in flight or has succeeded is stored as Succeeded, or
written as something that is compensated. -/
def ActionsRecorded (g : String) (o : Effect) (w : World) : Prop :=
  (∀ c ∈ o.call?, c.gid = g → c.op = "action" →
    ∀ s ∈ w.txs[g]?, s.status.isAbort = false) ∧
  (∀ tx ∈ o.write?, tx.gid = g → tx.status.isAbort = true →
    ∀ s ∈ w.txs[g]?, s.status ≠ .aborting → ∀ p ∈ s.branches.zip tx.branches,
      Acted w.history (p.1.key g "action") = true →
        p.1.status = .succeeded ∨ p.2.status.isOwed = true)

instance (g : String) (o : Effect) (w : World) : Decidable (ActionsRecorded g o w) :=
  inferInstanceAs (Decidable ((∀ c ∈ o.call?, _ → _ → ∀ s ∈ w.txs[g]?, _) ∧
    (∀ tx ∈ o.write?, _ → _ → ∀ s ∈ w.txs[g]?, _ → ∀ p ∈ s.branches.zip tx.branches, _ → _ ∨ _)))

/-- Every action that has succeeded was compensated, if the Saga is Aborted. -/
def SagaCompensated (g : String) (h : List (Nat × Event)) (s : Transaction) : Prop :=
  s.status = .aborted → ∀ b ∈ s.branches,
    Succeeded h (b.key g "action") → Succeeded h (b.key g "compensate")

/-- What the stored record of a Saga says of its actions while it is compensated. -/
structure Owed (g : String) (h : List (Nat × Event)) (s : Transaction) : Prop where
  kind : s.kind = .saga
  compensate : ∀ b ∈ s.branches, b.compensate ≠ none
  owed : s.status.isAbort = true → ∀ b ∈ s.branches,
    Acted h (b.key g "action") = true →
      b.status.isOwed = true ∨ Succeeded h (b.key g "compensate")
  paid : s.status = .aborted → ∀ b ∈ s.branches, b.status.isOwed = false

/-- The stored record under `g` does. -/
def World.Owed (g : String) (w : World) : Prop :=
  ∃ s, w.txs[g]? = some s ∧ RozeDtm.Owed g w.history s

theorem Owed.compensated {g : String} {h : List (Nat × Event)} {s : Transaction} (ho : Owed g h s)
    (hs : Sound h) : SagaCompensated g h s := by
  intro hst b hb hact
  obtain ⟨i, hi⟩ := hs.ledger_eq_done hact
  have hacted : Acted h (b.key g "action") = true := by rw [Acted, hi]
  refine (ho.owed (by rw [hst]; rfl) b hb hacted).resolve_left fun h => ?_
  rw [ho.paid hst b hb] at h
  cases h

section Step

variable {g : String} {σ : Session} {w : World} {o : Effect} {i : Nat}

/-- An action that counts after a step has counted before it, or was called in it. -/
theorem acted_step {c : Outcome} {b : BranchBarrier} (hl : LedgerInv w) (hlo : LedgerOwn i σ w)
    (hp : registering.pre σ o) (h : Acted (InMemory.exec i o c w).2.history b = true) :
    Acted w.history b = true ∨ ∃ call, o = .invokeBegin call ∧ call.barrier = b := by
  have hstep := (ledger_step c hl hlo hp).2.inv.sound
  rcases history_step i o c w with hh | ⟨e, he, hh⟩ <;> rw [hh] at h hstep
  · exact Or.inl h
  rcases ledger_cons_cases i e w.history b with ⟨k, hm, hk⟩ | ⟨-, hk⟩
  · have hf := hstep.1 b k hm
    rw [Acted, hk] at h
    match k with
    | none | some .taken | some .nulled | some .failed => cases h
    | some .calling =>
      obtain ⟨call, rfl, hb⟩ := began_of_mark hm
      exact Or.inr ⟨call, began_ofStep he, hb⟩
    | some .done =>
      left
      rw [Acted, hf]
  · rw [Acted, hk] at h
    exact Or.inl h

theorem forall₂_zip_exists {α β : Type} {R : α → β → Prop} {as : List α} {bs : List β}
    (hf : List.Forall₂ R as bs) {b : β} (hb : b ∈ bs) : ∃ a ∈ as, (a, b) ∈ as.zip bs ∧ R a b := by
  induction hf with
  | nil => cases hb
  | cons hr _ ih =>
    rcases List.mem_cons.mp hb with rfl | hb
    · exact ⟨_, .head _, .head _, hr⟩
    · obtain ⟨a, ha, hm, hr⟩ := ih hb
      exact ⟨a, .tail _ ha, .tail _ hm, hr⟩

/-- **A write leaves no action behind.** -/
theorem Owed.write {s tx : Transaction} (hlo : LedgerOwn i σ w) (hs : w.txs[g]? = some s)
    (hsg : s.gid = g) (ho : Owed g w.history s) (hw : Writes σ s tx)
    (ha : ActionsRecorded g (.updateTransaction tx) w) : Owed g w.history tx := by
  refine ⟨hw.head.kind.trans ho.kind, fun b hb => ?_, fun hst b hb hacted => ?_,
    fun hst b hb => ?_⟩ <;>
    obtain ⟨a, hm, hzip, hbw⟩ := forall₂_zip_exists hw.branches hb
  · rw [Branch.compensate_eq hbw.definition]
    exact ho.compensate a hm
  · have hkey (op : String) : b.key g op = a.key g op := Branch.key_eq hbw.definition g op
    rw [hkey] at hacted ⊢
    have hbs : b.status = .succeeded ∨ b.status = .compensating ↔ b.status.isOwed = true := by
      simp [BranchStatus.isOwed]
    have htarget : tx.status = .aborting ∨ tx.status = .aborted := by
      simpa [TransactionStatus.isAbort] using hst
    -- a branch that was owed stays so until its compensation has succeeded
    have kept (h : a.status = .succeeded ∨ (a.status = .compensating ∧ s.status = .aborting)) :
        b.status.isOwed = true ∨ Succeeded w.history (a.key g "compensate") := by
      rcases hbw.kept ho.kind htarget h with h | h | h | h
      · exact Or.inl (hbs.mp (Or.inl h))
      · exact Or.inl (hbs.mp (Or.inr h))
      · rw [hsg] at h
        exact Or.inr (succeeded_of_ledger (hlo _ _ h))
      · exact absurd h (ho.compensate a hm)
    by_cases hab : s.status = .aborting
    · rcases ho.owed (by rw [hab]; rfl) a hm hacted with h | h
      · rw [BranchStatus.isOwed, Bool.or_eq_true, decide_eq_true_eq, decide_eq_true_eq] at h
        exact kept (h.imp id fun h => ⟨h, hab⟩)
      · exact Or.inr h
    · have hg : tx.gid = g := hw.head.gid.trans hsg
      exact (ha.2 tx rfl hg hst s hs hab (a, b) hzip hacted).elim (fun h => kept (Or.inl h)) Or.inl
  · have := hbw.compensated ho.kind hst
    simp [BranchStatus.isOwed, this]

/-- **The record of a Saga through one step.** -/
theorem World.Owed.exec (c : Outcome) (hw : w.Owed g) (hk : w.Keyed) (hl : LedgerInv w)
    (hlo : LedgerOwn i σ w) (ho : SnapshotOf g σ w) (hp : registering.pre σ o) (hf : Fresh g o w)
    (ha : ActionsRecorded g o w) : (InMemory.exec i o c w).2.Owed g := by
  obtain ⟨s, hs, howed⟩ := hw
  obtain ⟨s', hs', rfl | ⟨tx, rfl, hwr, rfl⟩ | ham⟩ := record_step hf ho hp i c hs
  · refine ⟨s', hs', howed.kind, howed.compensate, fun hst b hb hacted => ?_, howed.paid⟩
    rcases acted_step hl hlo hp hacted with hacted | ⟨call, rfl, hcall⟩
    · exact (howed.owed hst b hb hacted).imp id succeeded_exec
    · have hno := ha.1 call rfl (congrArg BranchBarrier.gid hcall)
        (congrArg BranchBarrier.op hcall) s' hs
      rw [hst] at hno
      cases hno
  · have hwritten := howed.write hlo hs (hk g s hs) hwr ha
    exact ⟨_, hs', hwritten.kind, hwritten.compensate, hwritten.owed, hwritten.paid⟩
  · rcases ham.kinds with h | h | h <;> cases h.symm.trans howed.kind

end Step

/-- **In the runs in which no write of a Saga is stale, an abort finds no action that is not
recorded, and no action is called after it, an Aborted Saga is compensated.** -/
theorem saga_compensated (dtm : Dtm) {g : String} {w : World} (hw : w.Keyed)
    (hh : w.history = []) {s₀ : Transaction} (hs₀ : w.txs[g]? = some s₀) (hk : s₀.kind = .saga)
    (hst : s₀.status ≠ .aborted) (hc : ∀ b ∈ s₀.branches, b.compensate ≠ none) {P : System}
    (hP : ((inMemory.restrict (Fresh g)).restrict (ActionsRecorded g)).Reaches
      (dtm.Programs fun _ => True) w P)
    {s : Transaction} (hs : P.world.txs[g]? = some s) :
    SagaCompensated g P.world.history s := by
  obtain ⟨hinv, hown⟩ := @fresh_start g w hw hh
  have hgood : ((freshOutline g).restrict (ActionsRecorded g)).Good (Pool.idle w : System) :=
    Outline.good_idle hinv hown
  have howed : P.world.Owed g := by
    refine hgood.stays (World.Owed g) (fun _ => starts_registering) ?_ ?_ ?_ hP
    · exact fun c hi ho hp ha hφ => hφ.exec c hi.2 hi.1 ho.1 ho.2 hp ha.1.2 ha.2
    · rintro w w' - ⟨now, rfl⟩ hφ
      exact hφ
    · refine ⟨s₀, hs₀, hk, hc, fun _ b _ h => ?_, fun h => absurd h hst⟩
      have hnil : (Pool.idle w : System).world.history = [] := hh
      rw [hnil] at h
      cases h
  obtain ⟨s', hs', ho⟩ := howed
  cases hs.symm.trans hs'
  exact ho.compensated (hgood.run (fun _ => starts_registering) hP).1.1.sound

/-- A Saga of two branches: the second action fails, and the first one is compensated at the
second attempt. -/
theorem saga_compensated_retried : ∃ (P : System) (s : Transaction),
    ((inMemory.restrict (Fresh "g")).restrict (ActionsRecorded "g")).Reaches
      (Dtm.plain.Programs fun _ => True)
      (.initial [.new 0 "g" .saga [.saga "a" "do" "undo" .null, .saga "b" "do" "undo" .null]]) P ∧
    P.world.txs["g"]? = some s ∧ s.status = .aborted ∧
    Succeeded P.world.history ⟨"g", "a", "action"⟩ ∧ SagaCompensated "g" P.world.history s := by
  obtain ⟨P, hP, hφ⟩ := Dtm.exists_run
    ((inMemory.restrict (Fresh "g")).restrict (ActionsRecorded "g")) .plain (fun _ => True)
    (.initial [.new 0 "g" .saga [.saga "a" "do" "undo" .null, .saga "b" "do" "undo" .null]])
    (.start (.startSaga "g") :: .start (.abortSaga "g") :: steps 0 6 true ++ steps 0 12 false ++
      steps 1 8 true)
    (fun w => w.statusOf "g" = some .aborted && Succeeded w.history ⟨"g", "a", "action"⟩)
    (fun _ _ => trivial) (by decide)
  rw [Bool.and_eq_true, decide_eq_true_eq, decide_eq_true_eq] at hφ
  obtain ⟨s, hs, hst⟩ := World.hasStatus_iff.mpr hφ.1
  exact ⟨P, s, hP, hs, hst, hφ.2, saga_compensated .plain (World.keyed_initial _) rfl rfl rfl
    (by decide) (by decide) hP hs⟩

/-- The action of a branch has returned success, and `start_saga` is cut off before it writes
so; `abort_saga` takes the branch for one that was never started. -/
theorem saga_action_left : ∃ (P : System) (s : Transaction),
    inMemory.Reaches (Dtm.plain.Programs fun _ => True)
      (.initial [.new 0 "g" .saga [.saga "a" "do" "undo" .null]]) P ∧
    P.world.txs["g"]? = some s ∧ ¬ SagaCompensated "g" P.world.history s := by
  obtain ⟨P, hP, hφ⟩ := Dtm.exists_run inMemory .plain (fun _ => True)
    (.initial [.new 0 "g" .saga [.saga "a" "do" "undo" .null]])
    (.start (.startSaga "g") :: .start (.abortSaga "g") :: steps 0 5 true ++ .cut 0 ::
      steps 1 2 true)
    (fun w => (w.txs["g"]?).any fun s => s.status = .aborted && s.branches.any fun b =>
      Succeeded w.history (b.key "g" "action") && !Succeeded w.history (b.key "g" "compensate"))
    (fun _ _ => trivial) (by decide)
  rw [Option.any_eq_true] at hφ
  obtain ⟨s, hs, h⟩ := hφ
  simp only [Bool.and_eq_true, decide_eq_true_eq, List.any_eq_true, Bool.not_eq_true',
    decide_eq_false_iff_not] at h
  obtain ⟨hst, b, hb, hact, hn⟩ := h
  exact ⟨P, s, hP, hs, fun hc => hn (hc hst b hb hact)⟩

end RozeDtm
