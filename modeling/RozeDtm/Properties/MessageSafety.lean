import RozeDtm.Conc.Turns
import RozeDtm.InMemory.Snapshot
import RozeDtm.Session.Delivery

/-!
# Two-phase safety of Messages

A Message is delivered only after its commit was stored as Succeeding and its dispatch time
has come, and never when it is aborted.  The operations take turns and may be cut off
anywhere, the clock does not go back (`message_calls_committed_due`).
-/

namespace RozeDtm

open Conc

/-- The operations that Messages are driven by. -/
def Operation.DrivesMessage : Operation → Prop
  | .prepareMessage _ | .dispatchMessage _ | .abortMessage _ | .scheduleSubmit _
  | .scheduleAbort _ | .resetRetry _ | .recover _ | .tickRecoverOnce => True
  | _ => False

/-- **Each of them keeps the discipline of the Message `g`.** -/
theorem follows_drivesMessage {dtm : Dtm} {g : String} {op : Operation} (hop : op.DrivesMessage) :
    (delivery g).Follows (op.prog dtm) .start (fun _ _ => True) := by
  have one {gid : String} {act : String → Act Transaction}
      (hself : (delivery g).Does (act g) .start (fun _ _ => True))
      (hother : (within gid).Does (act gid) () (fun _ _ => True)) :
      (delivery g).Follows (Operation.act.one (act gid)).run .start (fun _ _ => True) := by
    have hact : (delivery g).Does (act gid) .start (fun _ _ => True) := by
      by_cases hg : gid = g
      · subst hg
        exact hself
      · exact delivery_of_within hg hother .start
    have hone : (delivery g).Does (Operation.act.one (act gid)) .start (fun _ _ => True) :=
      Discipline.does_bind.mpr (hact.mono fun _ _ _ => Discipline.does_pure.mpr trivial)
    exact hone.follows
  cases op with
  | prepareMessage gid => exact one delivery_prepareMessage within_prepareMessage
  | dispatchMessage gid => exact one delivery_dispatchMessage within_dispatchMessage
  | abortMessage gid => exact one delivery_abortMessage within_abortMessage
  | scheduleSubmit gid => exact one delivery_scheduleSubmit within_scheduleSubmit
  | scheduleAbort gid => exact one delivery_scheduleAbort within_scheduleAbort
  | resetRetry gid => exact one delivery_resetRetry within_resetRetry
  | recover gid => exact one delivery_recover within_recover
  | tickRecoverOnce => exact delivery_tickRecoverOnce.follows
  | _ => exact hop.elim

/-! ### The stored Message -/

/-- The record of the Message that `s₀` was the first record of: once a call was issued for it,
it is committed. -/
structure MessageStored (s₀ : Transaction) (h : List (Nat × Event)) (s : Transaction) : Prop where
  same : SameMessage s₀ s
  called : ∀ i c, (i, .began c) ∈ h → c.gid = s₀.gid → s.status = .succeeding ∨ s.status = .succeeded

/-- What holds of the store at every point. -/
structure MessageInv (s₀ : Transaction) (w : World) : Prop where
  keyed : w.Keyed
  record : ∃ s, w.txs[s₀.gid]? = some s ∧ MessageStored s₀ w.history s

/-- What the operation under way has read or written is what is stored, and the time that it has
seen has come. -/
structure MessageOwn (g : String) (σ : MessageView) (w : World) : Prop where
  snap : ∀ base, σ.snap = some base →
    ∃ s, w.txs[g]? = some s ∧ SameMessage base s ∧ s.status = base.status
  now : σ.now ≤ w.clock

section Steps

variable {s₀ : Transaction} {σ : MessageView} {o : Effect} {w : World}

theorem delivery_not_delete {g : String} (hp : (delivery g).pre σ o) (tx : Transaction) :
    o ≠ .deleteTransactionIfUnchanged tx := by
  rintro rfl
  exact hp

/-- A Message is not changed in place. -/
theorem Amends.message {now : Nat} {g : String} {s s' : Transaction} (h : Amends now g s s' o)
    (hk : s.kind = .message) : s' = s := by
  rcases h.amended with rfl | ha
  · rfl
  · rcases ha.kinds with h | h | h <;> cases hk.symm.trans h

/-- **The record of a Message through one step**: it stays, or it is written. -/
theorem message_step {g : String} {s : Transaction} (hp : (delivery g).pre σ o)
    (hs : w.txs[g]? = some s) (hk : s.kind = .message) (i : Nat) (c : Outcome) :
    ((InMemory.exec i o c w).2.txs[g]? = some s ∧ ∀ tx, o = .updateTransaction tx → tx.gid ≠ g) ∨
    ∃ tx, o = .updateTransaction tx ∧ tx.gid = g ∧
      (InMemory.exec i o c w).2.txs[g]? = some (bumpTransactionRevision w.clock tx) := by
  by_cases hwrite : ∃ tx, o = .updateTransaction tx ∧ tx.gid = g
  · obtain ⟨tx, rfl, hg⟩ := hwrite
    refine Or.inr ⟨tx, rfl, hg, ?_⟩
    subst hg
    exact Std.ExtTreeMap.getElem?_insert_self
  · refine Or.inl ⟨?_, fun tx ho hg => hwrite ⟨tx, ho, hg⟩⟩
    rcases txs_step i c w g (delivery_not_delete hp) with h | ⟨tx, ho, hg, -⟩ |
      ⟨tx, rfl, -, -, -⟩ | ⟨s', s'', hs', ha, h⟩
    · exact h.trans hs
    · exact absurd ⟨tx, ho, hg⟩ hwrite
    · exact hp.elim
    · cases hs.symm.trans hs'
      rw [h, ha.message hk]

/-- What a write makes of the stored record. -/
theorem MessageOwn.write {g : String} {tx s : Transaction} (ho : MessageOwn g σ w)
    (hp : (delivery g).pre σ (.updateTransaction tx)) (hg : tx.gid = g)
    (hs : w.txs[g]? = some s) : SameMessage s tx ∧ s.status.isTerminal = false ∧
      (s.status = .succeeding → tx.status = .succeeding ∨ tx.status = .succeeded) := by
  obtain ⟨base, hb, hw⟩ := hp hg
  obtain ⟨s', hs', hsame, hst⟩ := ho.snap base hb
  cases hs.symm.trans hs'
  refine ⟨⟨?_, ?_, ?_⟩, by rw [hst]; exact hw.live, fun h => hw.committed (hst ▸ h)⟩
  · rw [hw.same.kind, hsame.kind]
  · rw [hw.same.createdAtMillis, hsame.createdAtMillis]
  · rw [hw.same.options, hsame.options]

/-- A permitted call finds the commit stored and the dispatch time past. -/
theorem MessageOwn.call {g : String} {call : BranchCall} {s : Transaction}
    (ho : MessageOwn g σ w) (hp : (delivery g).pre σ (.invokeBegin call)) (hg : call.gid = g)
    (hs : w.txs[g]? = some s) :
    s.status = .succeeding ∧ messageDispatchDue s w.clock = true := by
  obtain ⟨base, hb, hbs, hd⟩ := hp hg
  obtain ⟨s', hs', hsame, hst⟩ := ho.snap base hb
  cases hs.symm.trans hs'
  refine ⟨hst.trans hbs, ?_⟩
  rw [hsame.messageDispatchDue]
  exact messageDispatchDue_mono hd ho.now

/-- **One step keeps the store as it should be.** -/
theorem MessageInv.exec (hw : MessageInv s₀ w) (hk₀ : s₀.kind = .message)
    (ho : MessageOwn s₀.gid σ w) (hp : (delivery s₀.gid).pre σ o) (i : Nat) (c : Outcome) :
    MessageInv s₀ (InMemory.exec i o c w).2 := by
  refine ⟨hw.keyed.exec i c, ?_⟩
  obtain ⟨s, hs, hstored⟩ := hw.record
  rcases message_step hp hs (hstored.same.kind.trans hk₀) i c with ⟨h, hother⟩ | ⟨tx, rfl, hg, h⟩
  · refine ⟨s, h, hstored.same, fun j call hm hcall => ?_⟩
    rcases mem_history_step hm with hm | he
    · exact hstored.called j call hm hcall
    · rw [began_ofStep he] at hp
      exact Or.inl (ho.call hp hcall hs).1
  · obtain ⟨hsame, hlive, hcommitted⟩ := ho.write hp hg hs
    refine ⟨_, h, ⟨?_, ?_, ?_⟩, fun j call hm hcall => ?_⟩
    · exact hsame.kind.trans hstored.same.kind
    · exact hsame.createdAtMillis.trans hstored.same.createdAtMillis
    · exact hsame.options.trans hstored.same.options
    · -- a record with a call is Succeeding, since it is not terminal
      rcases hstored.called j call hm hcall with hst | hst
      · exact hcommitted hst
      · rw [hst] at hlive
        cases hlive

/-- What is known of a record that stays. -/
theorem MessageOwn.stay {g : String} (ho : MessageOwn g σ w) (i : Nat) (c : Outcome)
    (h : (InMemory.exec i o c w).2.txs[g]? = w.txs[g]?)
    (hother : ∀ tx, o = .updateTransaction tx → tx.gid ≠ g) :
    MessageOwn g ((delivery g).next σ o (InMemory.exec i o c w).1)
      (InMemory.exec i o c w).2 := by
  have hclock := clock_step i o c w
  have keep {now : Nat} (hnow : now ≤ w.clock) :
      MessageOwn g { σ with now := now } (InMemory.exec i o c w).2 := by
    refine ⟨fun base hb => ?_, hclock.symm ▸ hnow⟩
    rw [h]
    exact ho.snap base hb
  cases o with
  | getTransaction gid =>
    simp only [delivery]
    split
    · rename_i hg
      subst hg
      exact ⟨fun base hb => ⟨base, hb, .refl base, rfl⟩, hclock.symm ▸ ho.now⟩
    · exact keep ho.now
  | updateTransaction tx =>
    simp only [delivery, if_neg (hother tx rfl)]
    exact keep ho.now
  | currentMillis => exact keep (Nat.max_le.mpr ⟨ho.now, Nat.le_refl _⟩)
  | _ => exact keep ho.now

/-- What is known of a record that was written. -/
theorem MessageOwn.written {g : String} {tx : Transaction} (ho : MessageOwn g σ w)
    (hg : tx.gid = g) (i : Nat) (c : Outcome) :
    MessageOwn g ((delivery g).next σ (.updateTransaction tx) (.ok ()))
      (InMemory.exec i (.updateTransaction tx) c w).2 := by
  subst hg
  simp only [delivery, if_pos]
  refine ⟨fun base hb => ⟨_, Std.ExtTreeMap.getElem?_insert_self, ?_⟩, ho.now⟩
  cases hb
  exact ⟨⟨rfl, rfl, rfl⟩, rfl⟩

/-- The session of the operation under way after its step. -/
theorem MessageOwn.exec (hw : MessageInv s₀ w) (hk₀ : s₀.kind = .message)
    (ho : MessageOwn s₀.gid σ w) (hp : (delivery s₀.gid).pre σ o) (i : Nat) (c : Outcome) :
    MessageOwn s₀.gid ((delivery s₀.gid).next σ o (InMemory.exec i o c w).1)
      (InMemory.exec i o c w).2 := by
  obtain ⟨s, hs, hstored⟩ := hw.record
  rcases message_step hp hs (hstored.same.kind.trans hk₀) i c with ⟨h, hother⟩ | ⟨tx, rfl, hg, -⟩
  · exact ho.stay i c (h.trans hs.symm) hother
  · exact ho.written hg i c

/-- The outline of the operations on the Message whose first record was `s₀`. -/
def messageOutline (s₀ : Transaction) (hk₀ : s₀.kind = .message) :
    Solo inMemoryOnward (delivery s₀.gid) .start where
  inv := MessageInv s₀
  own := MessageOwn s₀.gid
  own_start := fun _ => ⟨fun _ h => (nomatch h), Nat.zero_le _⟩
  sees := fun {w i σ o} c hw _ _ _ => by
    obtain ⟨s, hs, hstored⟩ := hw.record
    have hk : s.kind = .message := hstored.same.kind.trans hk₀
    cases o with
    | getTransaction gid =>
      intro tx htx
      refine ⟨hw.keyed gid tx htx, ?_⟩
      rintro rfl
      cases hs.symm.trans htx
      exact hk
    | listTransactions =>
      intro tx htx hg
      obtain ⟨gid, hgid⟩ := InMemory.mem_listTransactions htx
      have hgs : gid = s₀.gid := (hw.keyed gid tx hgid).symm.trans hg
      subst hgs
      cases hs.symm.trans hgid
      exact hk
    | _ => trivial
  inv_step := fun {_ i _ _} c hw ho hp _ => hw.exec hk₀ ho hp i c
  own_step := fun {_ i _ _} c hw ho hp _ => ho.exec hw hk₀ hp i c
  inv_drift := fun hw hd => by
    obtain ⟨now, -, rfl⟩ := hd
    exact ⟨hw.keyed, hw.record⟩
  own_drift := fun _ ho hd => by
    obtain ⟨now, hle, rfl⟩ := hd
    exact ⟨ho.snap, Nat.le_trans ho.now hle⟩

/-- No step takes the Message out of Aborted. -/
theorem aborted_stays (hw : MessageInv s₀ w) (hk₀ : s₀.kind = .message)
    (ho : MessageOwn s₀.gid σ w) (hp : (delivery s₀.gid).pre σ o) (i : Nat) (c : Outcome)
    (ha : w.HasStatus s₀.gid .aborted) : (InMemory.exec i o c w).2.HasStatus s₀.gid .aborted := by
  obtain ⟨s, hs, hst⟩ := ha
  obtain ⟨s', hs', hstored⟩ := hw.record
  cases hs.symm.trans hs'
  rcases message_step hp hs (hstored.same.kind.trans hk₀) i c with ⟨h, -⟩ | ⟨tx, rfl, hg, -⟩
  · exact ⟨s, h, hst⟩
  · have hlive := (ho.write hp hg hs).2.1
    rw [hst] at hlive
    cases hlive

end Steps

/-- **Messages are delivered only when they are committed and due.**  At every point of every
run in which the operations take turns, with the Message of `s₀` stored before it: an endpoint
of the Message is about to be called only when Succeeding is stored and the clock has reached
the creation time plus the delay; and when Aborted is stored, no endpoint was called before,
and none is called later. -/
theorem message_calls_committed_due (dtm : Dtm) {w : World} (hw : w.Keyed) (hh : w.history = [])
    {s₀ : Transaction} (hs₀ : w.txs[s₀.gid]? = some s₀) (hk₀ : s₀.kind = .message) {P : System}
    (hP : inMemoryOnward.Turns (dtm.Programs Operation.DrivesMessage) (Pool.idle w) P) :
    (∀ i c, callAhead P i = some c → c.gid = s₀.gid →
      P.world.HasStatus s₀.gid .succeeding ∧ ∀ delay, s₀.options.delayMillis = some delay →
        satAdd64 s₀.createdAtMillis delay ≤ P.world.clock) ∧
    (P.world.HasStatus s₀.gid .aborted → ∀ Q : System,
      inMemoryOnward.Turns (dtm.Programs Operation.DrivesMessage) P Q →
      ∀ i c, (i, .began c) ∈ Q.world.history → c.gid ≠ s₀.gid) := by
  have hstart : ∀ p, dtm.Programs Operation.DrivesMessage p →
      (delivery s₀.gid).Follows p .start (fun _ _ => True) := by
    rintro p ⟨op, hop, rfl⟩
    exact follows_drivesMessage hop
  have hinv : MessageInv s₀ w := by
    refine ⟨hw, s₀, hs₀, .refl s₀, fun i c hm => ?_⟩
    rw [hh] at hm
    cases hm
  have hgood : (messageOutline s₀ hk₀).Good P := (Solo.good_idle hinv).turns hstart hP
  refine ⟨fun i c hi hc => ?_, fun ha Q hQ i c hm hc => ?_⟩
  · obtain ⟨k, hi⟩ := callAhead_eq_some hi
    obtain ⟨σ, ho, hp, -⟩ := hgood.pre hi
    have ho : MessageOwn s₀.gid σ P.world := ho
    obtain ⟨s, hs, hstored⟩ := MessageInv.record hgood.1
    obtain ⟨hst, hdue⟩ := ho.call hp hc hs
    refine ⟨⟨s, hs, hst⟩, fun delay hdelay => ?_⟩
    rw [hstored.same.messageDispatchDue, messageDispatchDue, messageDispatchAtMillis, hdelay] at hdue
    exact of_decide_eq_true hdue
  · have hstays : Q.world.HasStatus s₀.gid .aborted :=
      hgood.stays (fun w => w.HasStatus s₀.gid .aborted) hstart
        (fun {_ i _ _} c hw ho hp _ h => aborted_stays hw hk₀ ho hp i c h)
        (by rintro w w' - ⟨now, -, rfl⟩ h; exact h) ha hQ
    obtain ⟨s, hs, hstored⟩ := MessageInv.record (hgood.turns hstart hQ).1
    obtain ⟨s', hs', hst⟩ := hstays
    cases hs.symm.trans hs'
    rcases hstored.called i c hm hc with h | h <;> cases hst.symm.trans h

/-- A Message that is to be delivered after `delay`. -/
def delayedMessage (now : Nat) (gid : String) (delay : Nat) : Transaction :=
  { Transaction.new now gid .message [.message "b" "action" .null] with
    options := { TransactionOptions.default with delayMillis := some delay } }

/-- When its time has come, a dispatch is about to deliver it. -/
theorem message_calls_committed_due_delayed : ∃ P : System,
    inMemoryOnward.Turns (Dtm.plain.Programs Operation.DrivesMessage)
      (Pool.idle (.initial [delayedMessage 0 "m" 5])) P ∧
    ((∀ i c, callAhead P i = some c → c.gid = "m" →
        P.world.HasStatus "m" .succeeding ∧ ∀ delay, some 5 = some delay →
          satAdd64 0 delay ≤ P.world.clock) ∧
      (P.world.HasStatus "m" .aborted → ∀ Q : System,
        inMemoryOnward.Turns (Dtm.plain.Programs Operation.DrivesMessage) P Q →
        ∀ i c, (i, .began c) ∈ Q.world.history → c.gid ≠ "m")) ∧
    (callAhead P 0).map BranchCall.gid = some "m" := by
  have hlater : inMemoryOnward.Turns (Dtm.plain.Programs Operation.DrivesMessage)
      (Pool.idle (.initial [delayedMessage 0 "m" 5]))
      (Pool.idle { World.initial [delayedMessage 0 "m" 5] with clock := 5 }) :=
    .single (.drift ⟨5, by decide, rfl⟩)
  have hrun : ((inMemoryOnward.turnAll? (Operation.prog Dtm.plain)
      (Pool.idle { World.initial [delayedMessage 0 "m" 5] with clock := 5 })
      (.start (.dispatchMessage "m") :: steps 0 4 true)).any fun P =>
        (callAhead P 0).map BranchCall.gid = some "m") = true := by decide
  obtain ⟨P, hP, hcall⟩ := (Option.any_eq_true _ _).mp hrun
  have hops : ∀ op, Move.start op ∈ (.start (.dispatchMessage "m") :: steps 0 4 true :
      List SystemMove) → op.DrivesMessage := by
    intro op hop
    simp [steps] at hop
    rw [hop]
    trivial
  have hturns := hlater.trans (Machine.turns_of_turnAll? hops hP)
  refine ⟨P, hturns, ?_, of_decide_eq_true hcall⟩
  have hstored : (World.initial [delayedMessage 0 "m" 5]).txs[(delayedMessage 0 "m" 5).gid]? =
      some (delayedMessage 0 "m" 5) := by simp [World.initial, delayedMessage, Transaction.new]
  exact message_calls_committed_due .plain (World.keyed_initial _) rfl hstored rfl hturns

end RozeDtm
