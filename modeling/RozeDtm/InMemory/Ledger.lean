import RozeDtm.Conc.Outline
import RozeDtm.Session.Operations

/-!
# The ledger of the barriers

The record of a run tells, for each barrier, which operation holds it and how far that
operation has come with it (`ledger`).  A record is `Sound` when every entry is one
that the entries before it allow.  `ledgerOutline` shows that the records of all runs
are sound: the ledger entry of a barrier is what the session of its holder says, so a
barrier is released, called under and settled by its holder only.
-/

namespace RozeDtm

open Conc

/-! ### Records -/

/-- The barrier that an event is about, and how far it has come with the event; `none` in
the second place is a barrier given back. -/
def Event.mark : Event → Option (BranchBarrier × Option Hold)
  | .decided b .execute => some (b, some .taken)
  | .decided b .skipNullCompensation => some (b, some .nulled)
  | .decided _ .skipDuplicate | .decided _ .skipCancelledTry => none
  | .released b => some (b, none)
  | .began c => some (c.barrier, some .calling)
  | .ended c true => some (c.barrier, some .done)
  | .ended c false => some (c.barrier, some .failed)
  | .registered _ _ | .progressed _ _ => none

/-- Who holds a barrier, and how far it has come, by the record `h`, latest first. -/
def ledger : List (Nat × Event) → BranchBarrier → Option (Nat × Hold)
  | [], _ => none
  | (i, e) :: h, b =>
    match e.mark with
    | some (b', k) => if b' = b then k.map fun k => (i, k) else ledger h b
    | none => ledger h b

/-- The ledger entries from which operation `i` may take a barrier to `k`. -/
def Hold.MayFollow (i : Nat) (entry : Option (Nat × Hold)) : Option Hold → Prop
  | some .taken | some .nulled => entry = none
  | some .calling => entry = some (i, .taken) ∨ entry = some (i, .nulled)
  | some .done | some .failed => entry = some (i, .calling)
  | none => entry = some (i, .taken) ∨ entry = some (i, .failed)

/-- Every entry is one that the entries before it allow. -/
def Sound : List (Nat × Event) → Prop
  | [] => True
  | (i, e) :: h => (∀ b k, e.mark = some (b, k) → Hold.MayFollow i (ledger h b) k) ∧ Sound h

section Ledger

variable {h : List (Nat × Event)} {i : Nat} {e : Event} {b b' : BranchBarrier} {k : Option Hold}

theorem ledger_cons_mark (he : e.mark = some (b, k)) :
    ledger ((i, e) :: h) b = k.map fun k => (i, k) := by
  simp only [ledger, he, if_true]

theorem ledger_cons_ne (he : e.mark = some (b', k)) (hb : b' ≠ b) :
    ledger ((i, e) :: h) b = ledger h b := by
  simp only [ledger, he, if_neg hb]

theorem ledger_cons_none (he : e.mark = none) : ledger ((i, e) :: h) b = ledger h b := by
  simp only [ledger, he]

/-- An entry either is about a barrier or leaves it as it was. -/
theorem ledger_cons_cases (i : Nat) (e : Event) (h : List (Nat × Event)) (b : BranchBarrier) :
    (∃ k, e.mark = some (b, k) ∧ ledger ((i, e) :: h) b = k.map fun k => (i, k)) ∨
      ((∀ k, e.mark ≠ some (b, k)) ∧ ledger ((i, e) :: h) b = ledger h b) := by
  cases hm : e.mark with
  | none => exact Or.inr ⟨by simp, ledger_cons_none hm⟩
  | some p =>
    obtain ⟨b', k⟩ := p
    by_cases hb : b' = b
    · subst hb
      exact Or.inl ⟨k, rfl, ledger_cons_mark hm⟩
    · exact Or.inr ⟨by simp [hb], ledger_cons_ne hm hb⟩

/-- A call that an event records the success of. -/
def Event.success? : Event → Option BranchCall
  | .ended c true => some c
  | _ => none

/-- A call under the barrier has returned success. -/
def Succeeded (h : List (Nat × Event)) (b : BranchBarrier) : Prop :=
  ∃ entry ∈ h, ∃ c ∈ entry.2.success?, c.barrier = b

instance (h : List (Nat × Event)) (b : BranchBarrier) : Decidable (Succeeded h b) :=
  inferInstanceAs (Decidable (∃ entry ∈ h, ∃ c ∈ entry.2.success?, _))

theorem succeeded_cons {entry : Nat × Event} :
    Succeeded (entry :: h) b ↔ (∃ c ∈ entry.2.success?, c.barrier = b) ∨ Succeeded h b :=
  List.exists_mem_cons_iff ..

theorem Succeeded.cons {entry : Nat × Event} (hs : Succeeded h b) : Succeeded (entry :: h) b :=
  succeeded_cons.mpr (Or.inr hs)

theorem mark_eq_done (he : e.mark = some (b, some .done)) :
    ∃ c, c.barrier = b ∧ e = .ended c true := by
  cases e with
  | decided b d => cases d <;> simp [Event.mark] at he
  | released b => simp [Event.mark] at he
  | began c => simp [Event.mark] at he
  | ended c ok =>
    cases ok with
    | true =>
      simp only [Event.mark, Option.some.injEq, Prod.mk.injEq, and_true] at he
      exact ⟨c, he, rfl⟩
    | false => simp [Event.mark] at he
  | registered gid branch => simp [Event.mark] at he
  | progressed gid progress => simp [Event.mark] at he

theorem began_of_mark (he : e.mark = some (b, some .calling)) :
    ∃ call, e = .began call ∧ call.barrier = b := by
  rcases e with ⟨_, _ | _ | _ | _⟩ | _ | call | ⟨_, _ | _⟩ | _ | _ <;> simp [Event.mark] at he
  exact ⟨call, rfl, he⟩

theorem mark_of_success {c : BranchCall} (hc : e.success? = some c) (hb : c.barrier = b) :
    e.mark = some (b, some .done) := by
  cases e with
  | ended c' ok =>
    cases ok with
    | true =>
      cases hc
      simp [Event.mark, hb]
    | false => cases hc
  | _ => cases hc

theorem succeeded_of_ledger (hl : ledger h b = some (i, .done)) : Succeeded h b := by
  induction h with
  | nil => cases hl
  | cons p h ih =>
    obtain ⟨j, e⟩ := p
    rcases ledger_cons_cases j e h b with ⟨k, hm, hk⟩ | ⟨-, hk⟩
    · rw [hk, Option.map_eq_some_iff] at hl
      obtain ⟨k, rfl, hki⟩ := hl
      cases hki
      obtain ⟨c, hc, rfl⟩ := mark_eq_done hm
      exact ⟨_, .head _, c, rfl, hc⟩
    · rw [hk] at hl
      exact (ih hl).cons

/-- **A barrier under which a call has returned success is settled for good.** -/
theorem Sound.ledger_eq_done (hs : Sound h) (hb : Succeeded h b) :
    ∃ i, ledger h b = some (i, .done) := by
  induction h with
  | nil =>
    obtain ⟨_, hm, -⟩ := hb
    cases hm
  | cons e h ih =>
    obtain ⟨j, e⟩ := e
    rcases succeeded_cons.mp hb with ⟨c, hc, hb⟩ | hb
    · exact ⟨_, ledger_cons_mark (mark_of_success hc hb)⟩
    · obtain ⟨i', hi'⟩ := ih hs.2 hb
      rcases ledger_cons_cases j e h b with ⟨k, hmark, -⟩ | ⟨-, hk⟩
      · -- no event may follow a settled barrier
        have hf := hs.1 b k hmark
        rw [hi'] at hf
        match k with
        | some .taken | some .nulled | some .done | some .failed => cases hf
        | some .calling | none => rcases hf with hf | hf <;> cases hf
      · exact ⟨i', hk.trans hi'⟩

theorem Sound.tail {h₁ h₂ : List (Nat × Event)} (hs : Sound (h₁ ++ h₂)) : Sound h₂ := by
  induction h₁ with
  | nil => exact hs
  | cons e h₁ ih => exact ih hs.2

end Ledger

/-! ### The outline -/

/-- What the ledger and the barrier table say of each other. -/
structure LedgerInv (w : World) : Prop where
  sound : Sound w.history
  held : ∀ b, ledger w.history b ≠ none → b ∈ w.barriers

/-- The barriers that a session holds are its own by the ledger. -/
def LedgerOwn (i : Nat) (σ : Session) (w : World) : Prop :=
  ∀ b k, σ.hold b = some k → ledger w.history b = some (i, k)

section Outline

variable {i : Nat} {σ : Session} {w w' : World}

theorem ledgerInv_of_nil (hh : w.history = []) : LedgerInv w :=
  ⟨by rw [hh]; trivial, fun b hb => by rw [hh] at hb; exact absurd rfl hb⟩

/-- Between two worlds nothing was recorded about a barrier. -/
def Quiet (w w' : World) : Prop :=
  (w'.history = w.history ∨ ∃ i e, Event.mark e = none ∧ w'.history = (i, e) :: w.history) ∧
    w'.barriers = w.barriers

theorem Quiet.refl (w : World) : Quiet w w := ⟨Or.inl rfl, rfl⟩

theorem Quiet.ledger (hq : Quiet w w') (b : BranchBarrier) :
    ledger w'.history b = ledger w.history b := by
  rcases hq.1 with hh | ⟨j, e, he, hh⟩
  · rw [hh]
  · rw [hh, ledger_cons_none he]

theorem LedgerInv.quiet (hw : LedgerInv w) (hq : Quiet w w') : LedgerInv w' := by
  refine ⟨?_, fun b h => by rw [hq.2]; exact hw.held b (hq.ledger b ▸ h)⟩
  rcases hq.1 with hh | ⟨j, e, he, hh⟩ <;> rw [hh]
  · exact hw.sound
  · exact ⟨fun b k hm => absurd hm (by simp [he]), hw.sound⟩

/-- A step of operation `i` that takes the barrier `b` to `k`. -/
theorem LedgerInv.marked {e : Event} {b : BranchBarrier} {k : Option Hold} (hw : LedgerInv w)
    (he : e.mark = some (b, k)) (hf : Hold.MayFollow i (ledger w.history b) k)
    (hh : w'.history = (i, e) :: w.history)
    (hb : ∀ b', b' ∈ w.barriers ∧ b' ≠ b → b' ∈ w'.barriers) (hk : k ≠ none → b ∈ w'.barriers) :
    LedgerInv w' := by
  refine ⟨?_, fun b' hb' => ?_⟩
  · rw [hh]
    exact ⟨fun b' k' hm => by rw [he] at hm; cases hm; exact hf, hw.sound⟩
  · rw [hh] at hb'
    by_cases hbb : b' = b
    · subst hbb
      rw [ledger_cons_mark he] at hb'
      exact hk fun hk => hb' (by rw [hk]; rfl)
    · rw [ledger_cons_ne he (Ne.symm hbb)] at hb'
      exact hb b' ⟨hw.held b' hb', hbb⟩

theorem LedgerOwn.marked {e : Event} {b : BranchBarrier} {k : Option Hold}
    (ho : LedgerOwn i σ w) (he : e.mark = some (b, k)) (hh : w'.history = (i, e) :: w.history) :
    LedgerOwn i (σ.setHold b k) w' := by
  intro b' k' hk'
  rw [hh]
  by_cases hbb : b' = b
  · subst hbb
    rw [Session.setHold_self] at hk'
    rw [ledger_cons_mark he, hk']
    rfl
  · rw [Session.setHold_ne _ _ hbb] at hk'
    rw [ledger_cons_ne he (Ne.symm hbb)]
    exact ho b' k' hk'

/-- The barriers of other operations are not touched. -/
theorem LedgerOwn.other {e : Event} {b : BranchBarrier} {k : Option Hold} {j : Nat}
    {τ : Session} (hj : LedgerOwn j τ w) (hji : j ≠ i) (he : e.mark = some (b, k))
    (hf : Hold.MayFollow i (ledger w.history b) k) (hh : w'.history = (i, e) :: w.history) :
    LedgerOwn j τ w' := by
  intro b' k' hk'
  have hl := hj b' k' hk'
  rw [hh]
  by_cases hbb : b' = b
  · subst hbb
    rw [hl] at hf
    match k with
    | some .taken | some .nulled => cases hf
    | some .done | some .failed => cases hf; exact absurd rfl hji
    | some .calling | none => rcases hf with hf | hf <;> cases hf <;> exact absurd rfl hji
  · rw [ledger_cons_ne he (Ne.symm hbb)]
    exact hl

/-! ### Each step -/

/-- The barrier method, case by case. -/
theorem barrier_cases (w : World) (b : BranchBarrier) :
    (b ∈ w.barriers ∧ InMemory.barrier w b = (.skipDuplicate, w)) ∨
    (b ∉ w.barriers ∧ b.op = "try" ∧ InMemory.barrier w b = (.skipCancelledTry, w)) ∨
    (b ∉ w.barriers ∧ b.op = "cancel" ∧ (⟨b.gid, b.branchId, "try"⟩ : BranchBarrier) ∉ w.barriers ∧
      InMemory.barrier w b =
        (.skipNullCompensation, { w with barriers := insert b w.barriers })) ∨
    (b ∉ w.barriers ∧
      (b.op = "try" → (⟨b.gid, b.branchId, "cancel"⟩ : BranchBarrier) ∉ w.barriers) ∧
      InMemory.barrier w b = (.execute, { w with barriers := insert b w.barriers })) := by
  simp only [InMemory.barrier]
  by_cases h1 : b ∈ w.barriers
  · exact Or.inl ⟨h1, if_pos h1⟩
  · rw [if_neg h1]
    by_cases h2 : b.op = "try" ∧ (⟨b.gid, b.branchId, "cancel"⟩ : BranchBarrier) ∈ w.barriers
    · exact Or.inr (Or.inl ⟨h1, h2.1, if_pos h2⟩)
    · rw [if_neg h2]
      by_cases h3 : b.op = "cancel" ∧ (⟨b.gid, b.branchId, "try"⟩ : BranchBarrier) ∉ w.barriers
      · refine Or.inr (Or.inr (Or.inl ⟨h1, h3.1, h3.2, ?_⟩))
        rw [if_pos h3, ← h3.1]
      · exact Or.inr (Or.inr (Or.inr ⟨h1, fun h h' => h2 ⟨h, h'⟩, if_neg h3⟩))

/-- The decisions of a barrier, by its operation. -/
def BranchBarrier.mayDecide (b : BranchBarrier) : BarrierDecision → Prop
  | .skipNullCompensation => b.op = "cancel"
  | .skipCancelledTry => b.op = "try"
  | .execute | .skipDuplicate => True

/-- A barrier that is neither a Try's nor a Cancel's is taken or was taken before. -/
theorem BranchBarrier.mayDecide_plain {b : BranchBarrier} {d : BarrierDecision}
    (hc : b.op ≠ "cancel") (ht : b.op ≠ "try") (h : b.mayDecide d) :
    d = .execute ∨ d = .skipDuplicate := by
  cases d with
  | execute => exact Or.inl rfl
  | skipDuplicate => exact Or.inr rfl
  | skipNullCompensation => exact absurd h hc
  | skipCancelledTry => exact absurd h ht

theorem barrier_mayDecide (w : World) (b : BranchBarrier) :
    b.mayDecide (InMemory.barrier w b).1 := by
  rcases barrier_cases w b with ⟨-, h⟩ | ⟨-, hop, h⟩ | ⟨-, hop, -, h⟩ | ⟨-, -, h⟩
  · rw [h]
    trivial
  · rw [h]
    exact hop
  · rw [h]
    exact hop
  · rw [h]
    trivial

theorem barrier_txs (w : World) (b : BranchBarrier) : (InMemory.barrier w b).2.txs = w.txs := by
  rcases barrier_cases w b with ⟨-, h⟩ | ⟨-, -, h⟩ | ⟨-, -, -, h⟩ | ⟨-, -, h⟩ <;> rw [h]

theorem mem_of_skipDuplicate {w : World} {b : BranchBarrier}
    (hd : (InMemory.barrier w b).1 = .skipDuplicate) : b ∈ w.barriers := by
  rcases barrier_cases w b with ⟨hb, -⟩ | ⟨-, -, h⟩ | ⟨-, -, -, h⟩ | ⟨-, -, h⟩
  · exact hb
  all_goals
    rw [h] at hd
    cases hd

theorem quiet_modify (w : World) (gid : String) (f : Transaction → Except Err Transaction) :
    Quiet w (InMemory.modify w gid f).2 := by
  simp only [InMemory.modify]
  split
  · exact Quiet.refl w
  · split <;> exact ⟨Or.inl rfl, rfl⟩

theorem quiet_noteOk {e : Event} (he : e.mark = none) (i : Nat) (w : World) (gid : String)
    (f : Transaction → Except Err Transaction) :
    Quiet w (InMemory.noteOk i e (InMemory.modify w gid f)).2 := by
  simp only [InMemory.noteOk, InMemory.modify]
  cases w.txs[gid]? with
  | none => exact Quiet.refl w
  | some tx =>
    dsimp only
    cases f tx with
    | error _ => exact Quiet.refl w
    | ok tx' => exact ⟨Or.inr ⟨i, e, he, rfl⟩, rfl⟩

theorem quiet_acquireRecoveryLease (w : World) (name owner : String) (ttl : Nat) :
    Quiet w (InMemory.acquireRecoveryLease w name owner ttl).2 := by
  simp only [InMemory.acquireRecoveryLease, InMemory.tryAcquireRecoveryLease]
  split <;> exact ⟨Or.inl rfl, rfl⟩

/-- The steps that do not touch the barriers. -/
theorem barriers_step {o : Effect} (c : Outcome) (hd : ∀ tx, o ≠ .deleteTransactionIfUnchanged tx)
    (hb : ∀ b, o ≠ .barrier b) (hr : ∀ b, o ≠ .releaseBarrier b) :
    (InMemory.exec i o c w).2.barriers = w.barriers := by
  cases o with
  | insertTransaction tx =>
    simp only [InMemory.exec, InMemory.insertTransaction]
    split <;> rfl
  | registerBranch gid branch => exact (quiet_noteOk rfl i w gid _).2
  | recordWorkflowProgress gid progress => exact (quiet_noteOk rfl i w gid _).2
  | finishWorkflow gid status reason result => exact (quiet_modify w gid _).2
  | deferWorkflowRecovery gid delay => exact (quiet_modify w gid _).2
  | deleteTransactionIfUnchanged tx => exact absurd rfl (hd tx)
  | barrier b => exact absurd rfl (hb b)
  | releaseBarrier b => exact absurd rfl (hr b)
  | acquireRecoveryLease name owner ttl => exact (quiet_acquireRecoveryLease w name owner ttl).2
  | _ => rfl

/-- What a step of an operation makes of the ledger. -/
structure LedgerStep (i : Nat) (σ σ' : Session) (w w' : World) : Prop where
  inv : LedgerInv w'
  own : LedgerOwn i σ' w'
  other : ∀ j τ, j ≠ i → LedgerOwn j τ w → LedgerOwn j τ w'

theorem LedgerStep.quiet {σ' : Session} (hw : LedgerInv w) (ho : LedgerOwn i σ w)
    (hq : Quiet w w') (hσ : σ'.hold = σ.hold) : LedgerStep i σ σ' w w' :=
  ⟨hw.quiet hq, fun b k hk => (hq.ledger b).trans (ho b k (hσ ▸ hk)),
    fun _ _ _ hj b k hk => (hq.ledger b).trans (hj b k hk)⟩

theorem LedgerStep.marked {e : Event} {b : BranchBarrier} {k : Option Hold} (hw : LedgerInv w)
    (ho : LedgerOwn i σ w) (he : e.mark = some (b, k))
    (hf : Hold.MayFollow i (ledger w.history b) k) (hh : w'.history = (i, e) :: w.history)
    (hb : ∀ b', b' ∈ w.barriers ∧ b' ≠ b → b' ∈ w'.barriers) (hk : k ≠ none → b ∈ w'.barriers) :
    LedgerStep i σ (σ.setHold b k) w w' :=
  ⟨hw.marked he hf hh hb hk, ho.marked he hh, fun _ _ hji hj => hj.other hji he hf hh⟩

/-- **The ledger through one step.** -/
theorem ledger_step {o : Effect} (c : Outcome) (hw : LedgerInv w) (ho : LedgerOwn i σ w)
    (hp : registering.pre σ o) :
    registering.sees σ o (InMemory.exec i o c w).1 ∧
      LedgerStep i σ (registering.next σ o (InMemory.exec i o c w).1) w
        (InMemory.exec i o c w).2 := by
  cases o with
  | insertTransaction tx =>
    refine ⟨trivial, .quiet hw ho ?_ rfl⟩
    simp only [InMemory.exec, InMemory.insertTransaction]
    split <;> exact ⟨Or.inl rfl, rfl⟩
  | getTransaction gid => exact ⟨trivial, .quiet hw ho (.refl w) rfl⟩
  | updateTransaction tx => exact ⟨trivial, .quiet hw ho ⟨Or.inl rfl, rfl⟩ rfl⟩
  | registerBranch gid branch => exact ⟨trivial, .quiet hw ho (quiet_noteOk rfl i w gid _) rfl⟩
  | recordWorkflowProgress gid progress =>
    exact ⟨trivial, .quiet hw ho (quiet_noteOk rfl i w gid _) rfl⟩
  | finishWorkflow gid status reason result =>
    exact ⟨trivial, .quiet hw ho (quiet_modify w gid _) rfl⟩
  | deferWorkflowRecovery gid delay =>
    exact ⟨trivial, .quiet hw ho (quiet_modify w gid _) rfl⟩
  | listTransactions => exact ⟨trivial, .quiet hw ho (.refl w) rfl⟩
  | deleteTransactionIfUnchanged tx => exact hp.elim
  | getKv category key => exact ⟨trivial, .quiet hw ho (.refl w) rfl⟩
  | barrier b =>
    have hfree (hb : b ∉ w.barriers) : ledger w.history b = none :=
      Classical.byContradiction fun h => hb (hw.held b h)
    have hnone (hb : b ∉ w.barriers) : σ.hold b = none := by
      cases hk : σ.hold b with
      | none => rfl
      | some k =>
        have := (ho b k hk).symm.trans (hfree hb)
        cases this
    simp only [InMemory.exec]
    rcases barrier_cases w b with ⟨-, h⟩ | ⟨-, hop, h⟩ | ⟨hb, hop, -, h⟩ | ⟨hb, -, h⟩ <;> rw [h]
    · exact ⟨trivial, .quiet hw ho ⟨Or.inr ⟨i, _, rfl, rfl⟩, rfl⟩ rfl⟩
    · exact ⟨hop, .quiet hw ho ⟨Or.inr ⟨i, _, rfl, rfl⟩, rfl⟩ rfl⟩
    · exact ⟨⟨hnone hb, hop⟩, .marked hw ho rfl (hfree hb) rfl
        (fun b' hb' => Finset.mem_insert_of_mem hb'.1) fun _ => Finset.mem_insert_self ..⟩
    · exact ⟨hnone hb, .marked hw ho rfl (hfree hb) rfl
        (fun b' hb' => Finset.mem_insert_of_mem hb'.1) fun _ => Finset.mem_insert_self ..⟩
  | releaseBarrier b =>
    refine ⟨trivial, .marked hw ho rfl ?_ rfl
      (fun b' hb' => Finset.mem_erase.mpr ⟨hb'.2, hb'.1⟩) fun h => absurd rfl h⟩
    exact hp.imp (ho b _) (ho b _)
  | acquireRecoveryLease name owner ttl =>
    exact ⟨trivial, .quiet hw ho (quiet_acquireRecoveryLease ..) rfl⟩
  | currentMillis => exact ⟨trivial, .quiet hw ho (.refl w) rfl⟩
  | invokeBegin call =>
    have hf : Hold.MayFollow i (ledger w.history call.barrier) (some .calling) :=
      hp.imp (ho _ _) fun h => ho _ _ h.1
    refine ⟨trivial, .marked hw ho rfl hf rfl (fun _ h => h.1) fun _ => hw.held _ ?_⟩
    rcases hf with hf | hf <;> rw [hf] <;> exact Option.some_ne_none _
  | invokeEnd call =>
    have hf := ho _ _ hp
    have hb : call.barrier ∈ w.barriers := hw.held _ (by rw [hf]; exact Option.some_ne_none _)
    simp only [InMemory.exec]
    cases c.ok
    · exact ⟨trivial, .marked hw ho rfl hf rfl (fun _ h => h.1) fun _ => hb⟩
    · exact ⟨trivial, .marked hw ho rfl hf rfl (fun _ h => h.1) fun _ => hb⟩
  | queryWorkflowCallback request options => exact ⟨trivial, .quiet hw ho (.refl w) rfl⟩
  | joinNext n => exact ⟨trivial, .quiet hw ho (.refl w) rfl⟩

end Outline

/-- **The records of the in-memory store are sound.** -/
def ledgerOutline : Outline inMemory registering Session.start where
  inv := LedgerInv
  own := LedgerOwn
  sees := fun c hw ho hp _ => (ledger_step c hw ho hp).1
  inv_step := fun c hw ho hp _ => (ledger_step c hw ho hp).2.inv
  own_step := fun c hw ho hp _ => (ledger_step c hw ho hp).2.own
  own_other := fun c j τ hw ho hp _ hji hj => (ledger_step c hw ho hp).2.other j τ hji hj
  inv_drift := fun hw hd => by
    obtain ⟨now, rfl⟩ := hd
    exact ⟨hw.sound, hw.held⟩
  own_drift := fun _ ho hd => by
    obtain ⟨now, rfl⟩ := hd
    exact ho

end RozeDtm
