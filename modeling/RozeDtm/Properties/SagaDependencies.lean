import RozeDtm.Properties.SagaOrder
import RozeDtm.Serial.SagaRounds

/-!
# The dependency graph of a concurrent Saga

`start_concurrent_saga` calls the actions layer by layer, `abort_concurrent_saga` the
compensations against the dependencies.  At every point of every run of its operations one
after another the calls of the Saga are in the order of its graph.  The loops end by
themselves, in one round more than there are branches, and none of the operations on the Saga
finds compensations that wait for each other (`saga_respects_dependencies`).
-/

namespace RozeDtm

open Conc

/-- The record of a concurrent Saga as it is submitted. -/
structure GraphSubmitted (s₀ : Transaction) : Prop extends GraphSaga s₀ where
  status : s₀.status = .submitted
  pending : ∀ b ∈ s₀.branches, b.status = .pending

/-- The Saga before it is started. -/
theorem GraphSubmitted.inv {s₀ : Transaction} {w : World} (hs : GraphSubmitted s₀) (hw : w.Keyed)
    (hh : w.history = []) (hs₀ : w.txs[s₀.gid]? = some s₀) : GraphInv s₀ w := by
  have hcalls : callEvents s₀.gid w.history = [] := by
    rw [hh]
    rfl
  have htold : ∀ b ∈ s₀.branches, NodeForward [] b := by
    intro b hb
    have hst := hs.pending b hb
    refine ⟨⟨fun h => ?_, fun h => nomatch h⟩, by rw [hst]; decide⟩
    rw [hst] at h
    cases h
  refine ⟨s₀, ⟨hw, ?_⟩, hs₀, ⟨rfl, hs.kind, rfl, SameBranches.refl _, fun b hb => ?_, fun _ => ?_⟩⟩
  · rw [World.GraphOrdered, hcalls]
    exact .nil
  · rw [hcalls]
    exact (htold b hb).told
  · rw [hcalls]
    exact ⟨rfl, fun b hb => (htold b hb).notTurned⟩

/-- The error `e` is not from an operation on `g`: the operation is on another gid, or a tick that
stops with what its move on another record has stopped with. -/
def FromElsewhere (dtm : Dtm) (g : String) (w : World) (i : Nat) (e : Err) : Operation → Prop
  | .startSaga gid | .abortSaga gid | .scheduleAbort gid | .recover gid => gid ≠ g
  | .tickRecoverOnce => ∃ (gid : String) (tx : Transaction) (now : Nat) (move : Act Transaction),
      gid ≠ g ∧ w.txs[gid]? = some tx ∧ dtm.tickMove now tx = some move ∧
        ∃ w₁ w₂, inMemory.Goes i move.run w₁ (some (.error e)) w₂
  | _ => False

section Operations

variable {dtm : Dtm} {s₀ : Transaction} {op : Operation} {i : Nat} {w : World}

/-- **One operation keeps the Saga**, and does not find its compensations unresolved. -/
theorem runs_drivesGraph (hop : op.DrivesSaga) (hG : GraphSaga s₀) (hw : GraphInv s₀ w) :
    KeepsOr (fun _ _ => True) (World.GraphOrdered s₀) (GraphInv s₀)
      (fun e => (∃ gid, e = unresolvedCompensation gid) → FromElsewhere dtm s₀.gid w i e op) i
      (op.act dtm) w := by
  have hsteady := steady_graph s₀
  -- an operation on one gid
  have one {gid : String} {x : Act Transaction} {F : Err → Prop}
      (hx : (within gid).Does x () (fun _ _ => True)) (hF : gid ≠ s₀.gid → ∀ e, F e)
      (h : gid = s₀.gid → KeepsOr (fun _ _ => True) (World.GraphOrdered s₀) (GraphInv s₀) F i x w) :
      KeepsOr (fun _ _ => True) (World.GraphOrdered s₀) (GraphInv s₀) F i (Operation.act.one x) w := by
    refine Machine.runs_bind.mpr ?_
    by_cases hg : gid = s₀.gid
    · exact h hg
    · exact (hsteady.other hw hg hx).or fun _ => hF hg _
  have own {w' : World} {x : Act Transaction} {G : Err → Prop} (h : KeepsGraph s₀ i x w') :
      KeepsOr (fun _ _ => True) (World.GraphOrdered s₀) (GraphInv s₀)
        (fun e => (∃ gid, e = unresolvedCompensation gid) → G e) i x w' :=
    Machine.Runs.mono h (fun _ _ => id) fun _ _ he =>
      ⟨he.1, fun ⟨gid, hgid⟩ => absurd hgid (he.2 gid)⟩
  obtain ⟨s, hs⟩ := id hw
  have hrecord : ∀ {tx}, w.txs[s₀.gid]? = some tx → tx.gid = s₀.gid ∧ tx.kind = .saga := by
    intro tx htx
    cases hs.stored.symm.trans htx
    exact ⟨hs.record.gid, hs.record.kind⟩
  have hmove {w' : World} {tx : Transaction} {move : Act Transaction} (hw' : GraphInv s₀ w')
      (htx : w.txs[s₀.gid]? = some tx) (h : dtm.RecoveryMove tx move) : KeepsGraph s₀ i move w' :=
    keeps_recoveryGraph hG hw' (hrecord htx).1 (hrecord htx).2 h
  cases op with
  | startSaga gid =>
    refine one within_startSaga (fun hg _ _ => hg) fun hg => own ?_
    subst hg
    exact keeps_startGraph hG hw
  | abortSaga gid =>
    refine one within_abortSaga (fun hg _ _ => hg) fun hg => own ?_
    subst hg
    exact keeps_abortGraph hG hw
  | scheduleAbort gid =>
    refine one within_scheduleAbort (fun hg _ _ => hg) fun hg => own ?_
    subst hg
    exact keeps_scheduleAbortGraph hw
  | recover gid =>
    refine one within_recover (fun hg _ _ => hg) fun hg => own ?_
    subst hg
    refine hsteady.recoverOr hw (fun tx _ => nonReplayable_ne_unresolved _ _) (fun tx htx hc => ?_)
      (fun hnone => ?_) hmove
    · simp [isCallbackWorkflow, (hrecord htx).2] at hc
    · rw [hs.stored] at hnone
      cases hnone
  | tickRecoverOnce =>
    refine hsteady.tickRecoverOnceOr hw (fun hw' htx h => ?_) fun htx hg h hgoes _ => ?_
    · exact own (hmove hw' htx (Dtm.recoveryMove_of_tickMove h))
    · exact ⟨_, _, _, _, hg, htx, h, _, _, hgoes.ofRestrict⟩
  | _ => exact hop.elim

end Operations

/-- **A concurrent Saga respects its dependency graph.**  At every point of every run of its
operations one after another an action has been called after the actions that it depends on
had succeeded, and a compensation for a branch whose action had succeeded, after those of the
branches that depend on it.  More rounds than one for each branch and one more do not change the
loops.  An operation on the Saga does not find its compensations unresolved. -/
theorem saga_respects_dependencies (dtm : Dtm) {s₀ : Transaction} {w : World} (hw : w.Keyed)
    (hh : w.history = []) (hs₀ : w.txs[s₀.gid]? = some s₀) (hs : GraphSubmitted s₀) :
    (∀ w', inMemory.SerialAt (dtm.Programs Operation.DrivesSaga) w w' →
      IssuedUnder (AfterDependencies s₀.branches "action") (callEvents s₀.gid w'.history) ∧
      IssuedUnder OwnAction (callEvents s₀.gid w'.history) ∧
      IssuedUnder (AfterDependents s₀.branches "action" "compensate")
        (callEvents s₀.gid w'.history)) ∧
    (∀ (tx : Transaction) (k : Nat),
      dtm.startConcurrentSagaLoop (tx.branches.length + 1 + k) tx =
        dtm.startConcurrentSagaLoop (tx.branches.length + 1) tx ∧
      dtm.abortConcurrentSagaLoop (tx.branches.length + 1 + k) tx =
        dtm.abortConcurrentSagaLoop (tx.branches.length + 1) tx) ∧
    ∀ w₁, inMemory.Serial (dtm.Programs Operation.DrivesSaga) w w₁ →
      ∀ (op : Operation) (i : Nat) (e : Err) (w₂ : World), op.DrivesSaga →
        inMemory.Goes i (op.prog dtm) w₁ (some (.error e)) w₂ →
        (∃ gid, e = unresolvedCompensation gid) → FromElsewhere dtm s₀.gid w₁ i e op := by
  have hinv : GraphInv s₀ w := hs.inv hw hh hs₀
  have hdrift (w w' : World) (h : GraphInv s₀ w) (hd : inMemory.drift w w') : GraphInv s₀ w' := by
    obtain ⟨now, rfl⟩ := hd
    exact h.setClock now
  have hends {op : Operation} {i : Nat} {w : World} (hop : op.DrivesSaga) (h : GraphInv s₀ w) :
      inMemory.Ends (World.GraphOrdered s₀) i (op.prog dtm) (fun r w' => GraphInv s₀ w' ∧
        ∀ e, r = .error e → (∃ gid, e = unresolvedCompensation gid) →
          FromElsewhere dtm s₀.gid w i e op) w := by
    refine Machine.Ends.ofRestrict (fun _ _ => trivial) ?_
    refine Machine.Ends.mono (runs_drivesGraph hop hs.toGraphSaga h) fun r w' hr => ?_
    cases r with
    | ok txs => exact ⟨hr, fun e he => nomatch he⟩
    | error e =>
      refine ⟨hr.1, fun e' he => ?_⟩
      cases he
      exact hr.2
  have hstep (i : Nat) (p : Prog effects (Except Err (List Transaction))) (w : World)
      (hp : dtm.Programs Operation.DrivesSaga p) (h : GraphInv s₀ w) :
      inMemory.Ends (World.GraphOrdered s₀) i p (fun _ => GraphInv s₀) w := by
    obtain ⟨op, hop, rfl⟩ := hp
    exact (hends hop h).mono fun _ _ h => h.1
  refine ⟨fun w' hr => ?_, fun tx k => ⟨startConcurrentSagaLoop_rounds k,
    abortConcurrentSagaLoop_rounds k⟩, fun w₁ hr op i e w₂ hop hgoes => ?_⟩
  · have hordered : w'.GraphOrdered s₀ := hr.along hdrift (fun _ => GraphInv.ordered) hstep hinv
    exact ⟨hordered.acts, hordered.own, hordered.undoes⟩
  · have h := (hends hop (hr.stays hdrift hstep hinv)).sound (fun r w w' h hd =>
      ⟨hdrift w w' h.1 hd, h.2⟩) hgoes
    exact h.2 e rfl

/-- Two branches that depend on the one declared last. -/
def fork : Transaction :=
  { Transaction.new 0 "g" .saga
      [{ Branch.saga "c" "do" "undo" .null with dependencies := ["a"] },
        { Branch.saga "b" "do" "undo" .null with dependencies := ["a"] },
        .saga "a" "do" "undo" .null] with
    options := { TransactionOptions.default with concurrent := true } }

/-- The action of `b` fails beside the one of `c`, the first compensation of `c` fails, and
recovery compensates `c` before `a`. -/
theorem saga_respects_dependencies_fork : ∃ w : World,
    inMemory.SerialAt (Dtm.plain.Programs Operation.DrivesSaga) (.initial [fork]) w ∧
    doneIds "compensate" (callEvents "g" w.history) = ["a", "c"] ∧
    IssuedUnder (AfterDependents fork.branches "action" "compensate")
      (callEvents "g" w.history) := by
  obtain ⟨w, hw, hφ⟩ := Dtm.exists_serial inMemory .plain Operation.DrivesSaga (.initial [fork])
    [(.startSaga "g", outcomes 17 true ++ outcomes 30 false), (.recover "g", outcomes 40 true)]
    (fun w => doneIds "compensate" (callEvents "g" w.history) = ["a", "c"])
    (by simp [Operation.DrivesSaga]) (by decide +kernel)
  have hsub : GraphSubmitted fork := by
    refine ⟨⟨rfl, rfl, ?_, ?_⟩, rfl, ?_⟩ <;> decide
  have hat := hw.at ⟨.tickRecoverOnce, trivial, rfl⟩
  have horder := (saga_respects_dependencies .plain (World.keyed_initial _) rfl rfl hsub).1 w hat
  exact ⟨w, hat, of_decide_eq_true hφ, horder.2.2⟩

end RozeDtm
