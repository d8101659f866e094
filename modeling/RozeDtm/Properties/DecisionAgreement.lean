import RozeDtm.InMemory.Snapshot

/-!
# Agreement on the decision of a TCC or XA transaction

`confirm_tcc` and `commit_xa` set the status to Succeeding in their local copy of the
record and call the branches before they write it; `cancel_tcc` and `rollback_xa` do the
same with Aborting.  An operation that is cut off in between leaves a record that still
permits the other decision (`decision_mixed`).  Where each call of the second phase is
made under a decision that is stored, the decisions agree (`decisions_agree`).
-/

namespace RozeDtm

open Conc

/-- A call that carries out a commit decision. -/
def BranchCall.isForward (c : BranchCall) : Bool := c.op = "confirm" || c.op = "commit"

/-- A call that carries out a rollback decision. -/
def BranchCall.isBackward (c : BranchCall) : Bool := c.op = "cancel" || c.op = "rollback"

/-- A call of the second phase in `g` is issued only while the stored record has the
decision that it carries out. -/
def Backed (g : String) (o : Effect) (w : World) : Prop :=
  ∀ c ∈ o.call?, c.gid = g →
    (c.isForward = true → w.statusOf g = some .succeeding ∨ w.statusOf g = some .succeeded) ∧
    (c.isBackward = true → w.statusOf g = some .aborting ∨ w.statusOf g = some .aborted)

instance (g : String) (o : Effect) (w : World) : Decidable (Backed g o w) :=
  inferInstanceAs (Decidable (∀ c ∈ o.call?, _ → _ ∧ _))

/-- A call that an event records the issue of. -/
def Event.call? : Event → Option BranchCall
  | .began c => some c
  | _ => none

/-- A call of a kind was issued in `g`. -/
def Called (p : BranchCall → Bool) (g : String) (h : List (Nat × Event)) : Prop :=
  ∃ entry ∈ h, ∃ c ∈ entry.2.call?, c.gid = g ∧ p c = true

instance (p : BranchCall → Bool) (g : String) (h : List (Nat × Event)) :
    Decidable (Called p g h) :=
  inferInstanceAs (Decidable (∃ entry ∈ h, ∃ c ∈ entry.2.call?, _ ∧ _))

theorem called_cons {p : BranchCall → Bool} {g : String} {i : Nat} {e : Event}
    {h : List (Nat × Event)} :
    Called p g ((i, e) :: h) ↔ (∃ c ∈ e.call?, c.gid = g ∧ p c = true) ∨ Called p g h :=
  List.exists_mem_cons_iff ..

theorem not_isBackward {c : BranchCall} (h : c.isForward = true) : c.isBackward = false := by
  rw [BranchCall.isForward, Bool.or_eq_true, decide_eq_true_eq, decide_eq_true_eq] at h
  rw [BranchCall.isBackward]
  rcases h with h | h <;> rw [h] <;> decide

/-- The statuses of a TCC or XA that has been committed to, and what is left of them when it
is stopped. -/
def TransactionStatus.onward : TransactionStatus → Bool
  | .succeeding | .succeeded | .failed => true
  | _ => false

/-- The same for one that is rolled back. -/
def TransactionStatus.back : TransactionStatus → Bool
  | .aborting | .aborted | .failed => true
  | _ => false

theorem moves_onward {kind : TransactionKind} {s t : TransactionStatus}
    (hk : kind = .tcc ∨ kind = .xa) (hm : TransactionStatus.moves kind s t = true)
    (hs : s.onward = true) : t.onward = true := by
  rcases hk with rfl | rfl <;> cases s <;> cases hs <;> cases t <;> first | rfl | cases hm

theorem moves_back {kind : TransactionKind} {s t : TransactionStatus}
    (hm : TransactionStatus.moves kind s t = true) (hs : s.back = true) : t.back = true := by
  cases s <;> cases hs <;> cases t <;> first | rfl | cases hm

/-- The stored record agrees with the calls made so far. -/
structure Agrees (g : String) (h : List (Nat × Event)) (s : Transaction) : Prop where
  kind : s.kind = .tcc ∨ s.kind = .xa
  onward : Called BranchCall.isForward g h → s.status.onward = true
  back : Called BranchCall.isBackward g h → s.status.back = true
  unmixed : ¬ (Called BranchCall.isForward g h ∧ Called BranchCall.isBackward g h)

section Step

variable {g : String} {σ : Session} {w : World} {o : Effect} {h : List (Nat × Event)}

/-- What becomes of the record in a fresh step goes along with the calls. -/
theorem agrees_record_step (hf : Fresh g o w) (ho : SnapshotOf g σ w) (hp : registering.pre σ o)
    (i : Nat) (c : Outcome) {s : Transaction} (hs : w.txs[g]? = some s) (ha : Agrees g h s) :
    ∃ s', (InMemory.exec i o c w).2.txs[g]? = some s' ∧ Agrees g h s' := by
  obtain ⟨s', hs', rfl | ⟨tx, -, hw, rfl⟩ | hm⟩ := record_step hf ho hp i c hs
  · exact ⟨s', hs', ha⟩
  · refine ⟨_, hs', ?_, fun h => moves_onward ha.kind hw.moves (ha.onward h),
      fun h => moves_back hw.moves (ha.back h), ha.unmixed⟩
    have hk : tx.kind = s.kind := hw.head.kind
    exact hk ▸ ha.kind
  · have hst : s'.status = s.status := by
      rcases hm.status with h | h
      · exact h
      · rcases ha.kind with hk | hk <;> cases h.symm.trans hk
    exact ⟨s', hs', hm.kind ▸ ha.kind, hst ▸ ha.onward, hst ▸ ha.back, ha.unmixed⟩

/-- A backed call goes along with the record. -/
theorem Agrees.began {s : Transaction} {call : BranchCall} (ha : Agrees g h s) (i : Nat)
    (hs : w.txs[g]? = some s) (hb : Backed g (.invokeBegin call) w) :
    Agrees g ((i, .began call) :: h) s := by
  have hst {st : TransactionStatus} (hw : w.statusOf g = some st) : s.status = st := by
    rw [World.statusOf, hs, Option.map_some, Option.some.injEq] at hw
    exact hw
  have onward (hg : call.gid = g) (hc : call.isForward = true) :
      s.status = .succeeding ∨ s.status = .succeeded :=
    ((hb call rfl hg).1 hc).imp hst hst
  have back (hg : call.gid = g) (hc : call.isBackward = true) :
      s.status = .aborting ∨ s.status = .aborted :=
    ((hb call rfl hg).2 hc).imp hst hst
  refine ⟨ha.kind, fun hc => ?_, fun hc => ?_, ?_⟩
  · rcases called_cons.mp hc with ⟨c, hc, hg, hp⟩ | hc
    · cases hc
      rcases onward hg hp with h | h <;> rw [h] <;> rfl
    · exact ha.onward hc
  · rcases called_cons.mp hc with ⟨c, hc, hg, hp⟩ | hc
    · cases hc
      rcases back hg hp with h | h <;> rw [h] <;> rfl
    · exact ha.back hc
  · rw [called_cons, called_cons]
    rintro ⟨⟨c, hc, hg, hp⟩ | hf, ⟨c', hc', hg', hp'⟩ | hb⟩
    · cases hc
      cases hc'
      rw [not_isBackward hp] at hp'
      cases hp'
    · cases hc
      have := ha.back hb
      rcases onward hg hp with h | h <;> rw [h] at this <;> cases this
    · cases hc'
      have := ha.onward hf
      rcases back hg' hp' with h | h <;> rw [h] at this <;> cases this
    · exact ha.unmixed ⟨hf, hb⟩

theorem Agrees.cons {s : Transaction} {e : Event} (ha : Agrees g h s) (i : Nat)
    (he : e.call? = none) : Agrees g ((i, e) :: h) s := by
  have hcalled {p : BranchCall → Bool} : Called p g ((i, e) :: h) ↔ Called p g h := by
    rw [called_cons, he]
    exact or_iff_right fun ⟨c, hc, _⟩ => nomatch hc
  exact ⟨ha.kind, fun hc => ha.onward (hcalled.mp hc), fun hc => ha.back (hcalled.mp hc),
    fun hc => ha.unmixed ⟨hcalled.mp hc.1, hcalled.mp hc.2⟩⟩

/-- The record under `g` agrees with the calls. -/
def World.Agreed (g : String) (w : World) : Prop :=
  ∃ s, w.txs[g]? = some s ∧ Agrees g w.history s

theorem World.Agreed.exec (hw : w.Agreed g) (ho : SnapshotOf g σ w) (hp : registering.pre σ o)
    (hf : Fresh g o w) (hb : Backed g o w) (i : Nat) (c : Outcome) :
    (InMemory.exec i o c w).2.Agreed g := by
  obtain ⟨s, hs, ha⟩ := hw
  obtain ⟨s', hs', ha'⟩ := agrees_record_step hf ho hp i c hs ha
  refine ⟨s', hs', ?_⟩
  rcases history_step i o c w with hh | ⟨e, he, hh⟩ <;> rw [hh]
  · exact ha'
  · by_cases hcall : ∃ call, o = .invokeBegin call
    · obtain ⟨call, rfl⟩ := hcall
      cases he
      have hs' : w.txs[g]? = some s' := hs'
      exact ha'.began i hs' hb
    · refine ha'.cons i ?_
      cases o with
      | invokeBegin call => exact absurd ⟨call, rfl⟩ hcall
      | barrier b =>
        obtain ⟨d, rfl⟩ := he
        rfl
      | invokeEnd call =>
        obtain ⟨ok, rfl⟩ := he
        rfl
      | registerBranch gid branch => rw [show e = _ from he]; rfl
      | recordWorkflowProgress gid progress => rw [show e = _ from he]; rfl
      | releaseBarrier b => rw [show e = _ from he]; rfl
      | _ => cases he

end Step

/-- **In the runs in which no write of a TCC or XA transaction is stale and each call of its
second phase is made under a stored decision, it is never both committed and rolled
back.** -/
theorem decisions_agree (dtm : Dtm) {g : String} {w : World} (hw : w.Keyed)
    (hh : w.history = []) {s : Transaction} (hs : w.txs[g]? = some s)
    (hk : s.kind = .tcc ∨ s.kind = .xa) {P : System}
    (hP : ((inMemory.restrict (Fresh g)).restrict (Backed g)).Reaches
      (dtm.Programs fun _ => True) w P) :
    ¬ (Called BranchCall.isForward g P.world.history ∧
      Called BranchCall.isBackward g P.world.history) := by
  obtain ⟨hinv, hown⟩ := @fresh_start g w hw hh
  have hgood : ((freshOutline g).restrict (Backed g)).Good (Pool.idle w : System) :=
    Outline.good_idle hinv hown
  have hnil {p : BranchCall → Bool} : ¬ Called p g w.history := by
    rw [hh]
    rintro ⟨entry, h, -⟩
    cases h
  have hagreed : World.Agreed g P.world := by
    refine hgood.stays (World.Agreed g) (fun _ => starts_registering) ?_ ?_ ?_ hP
    · exact fun c _ ho hp ha hφ => hφ.exec ho.2 hp ha.1.2 ha.2 _ c
    · rintro w w' - ⟨now, rfl⟩ hφ
      exact hφ
    · exact ⟨s, hs, hk, fun h => absurd h hnil, fun h => absurd h hnil, fun h => hnil h.1⟩
  obtain ⟨s', -, ha⟩ := hagreed
  exact ha.unmixed

/-- A TCC whose client runs the Try: prepared, committed to by `schedule_submit`, confirmed by
a recovery while a `schedule_abort` finds the decision taken. -/
theorem decisions_agree_confirmed : ∃ P : System,
    ((inMemory.restrict (Fresh "g")).restrict (Backed "g")).Reaches
      (Dtm.plain.Programs fun _ => True)
      (.initial [{ Transaction.new 0 "g" .tcc [.tccTry "b" "" "confirm" "cancel" .null] with
        status := .prepared }]) P ∧
    P.world.HasStatus "g" .succeeded ∧ Called BranchCall.isForward "g" P.world.history ∧
    ¬ (Called BranchCall.isForward "g" P.world.history ∧
      Called BranchCall.isBackward "g" P.world.history) := by
  obtain ⟨P, hP, hφ⟩ := Dtm.exists_run ((inMemory.restrict (Fresh "g")).restrict (Backed "g"))
    .plain (fun _ => True)
    (.initial [{ Transaction.new 0 "g" .tcc [.tccTry "b" "" "confirm" "cancel" .null] with
      status := .prepared }])
    (.start (.scheduleSubmit "g") :: .start (.recover "g") :: .start (.scheduleAbort "g") ::
      steps 0 2 true ++ steps 1 5 true ++ steps 2 1 true ++ steps 1 2 true)
    (fun w => w.statusOf "g" = some .succeeded && Called BranchCall.isForward "g" w.history)
    (fun _ _ => trivial) (by decide)
  rw [Bool.and_eq_true, decide_eq_true_eq, decide_eq_true_eq] at hφ
  exact ⟨P, hP, World.hasStatus_iff.mpr hφ.1, hφ.2,
    decisions_agree .plain (World.keyed_initial _) rfl rfl (Or.inl rfl) hP⟩

/-- `confirm_tcc` calls the confirm endpoint and is cut off before it writes Succeeding; the
record is still Prepared, and `cancel_tcc` calls the cancel endpoint. -/
theorem decision_mixed : ∃ P : System,
    inMemory.Reaches (Dtm.plain.Programs fun _ => True)
      (.initial [{ Transaction.new 0 "g" .tcc [.tccTry "b" "" "confirm" "cancel" .null] with
        status := .prepared }]) P ∧
    Called BranchCall.isForward "g" P.world.history ∧
      Called BranchCall.isBackward "g" P.world.history := by
  obtain ⟨P, hP, hφ⟩ := Dtm.exists_run inMemory .plain (fun _ => True)
    (.initial [{ Transaction.new 0 "g" .tcc [.tccTry "b" "" "confirm" "cancel" .null] with
      status := .prepared }])
    (.start (.confirmTcc "g") :: .start (.cancelTcc "g") ::
      steps 0 4 true ++ .cut 0 :: steps 1 3 true)
    (fun w => Called BranchCall.isForward "g" w.history &&
      Called BranchCall.isBackward "g" w.history)
    (fun _ _ => trivial) (by decide)
  rw [Bool.and_eq_true, decide_eq_true_eq, decide_eq_true_eq] at hφ
  exact ⟨P, hP, hφ⟩

end RozeDtm
