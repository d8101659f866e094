import RozeDtm.Properties.BranchFit

/-!
# What the compatibility query reports has happened

The query gives a branch one line for each of its operations, and one status field of the branch
decides all of them.  It says "succeed" of the forward operation of phase 2 unless the transaction
is being aborted, and then of the backward one.  A Saga's action, a delivery and an XA commit
alone make a branch Succeeded, but so do the Try of a TCC and its registration by a client; and an
abort that is scheduled, or a compensation that fails, leaves Succeeded branches in a transaction
that is being aborted.  Where no step does this (`SpeaksOfPhase2`), the reports are right
(`query_reports_what_happened`).
-/

namespace RozeDtm

open Conc

/-- The operation of a call whose success the query reports under `op`. -/
def TransactionKind.calledAs (kind : TransactionKind) (op : String) : String :=
  if kind = .message then "message" else op

/-- The forward operation of phase 2, as it is called. -/
def TransactionKind.doneOp : TransactionKind → String
  | .saga => "action"
  | .tcc => "confirm"
  | .message => "message"
  | .workflow => "workflow"
  | .xa => "commit"

/-- The status of a branch speaks of phase 2: no branch is registered as Succeeded, no record of a
TCC takes a Try for a success, and no record of a transaction that is aborted has a Succeeded
branch. -/
def SpeaksOfPhase2 (o : Effect) (w : World) : Prop :=
  match o with
  | .registerBranch gid branch => branch.status = .succeeded → ∀ s, w.txs[gid]? = some s →
      s.kind ≠ .workflow → (appendDynamicBranch w.clock s branch).isOk = false
  | .updateTransaction tx => tx.kind ≠ .workflow → ∀ b ∈ tx.branches, b.status = .succeeded →
      tx.status.isAbort = false ∧ (tx.kind = .tcc → ¬ Succeeded w.history (b.key tx.gid "try"))
  | _ => True

instance (o : Effect) (w : World) : Decidable (SpeaksOfPhase2 o w) :=
  match o with
  | .registerBranch gid branch => inferInstanceAs (Decidable (branch.status = .succeeded →
      ∀ s ∈ w.txs[gid]?, s.kind ≠ .workflow →
        (appendDynamicBranch w.clock s branch).isOk = false))
  | .updateTransaction tx => inferInstanceAs (Decidable (tx.kind ≠ .workflow →
      ∀ b ∈ tx.branches, b.status = .succeeded → tx.status.isAbort = false ∧
        (tx.kind = .tcc → ¬ Succeeded w.history (b.key tx.gid "try"))))
  | .insertTransaction _ | .getTransaction _ | .recordWorkflowProgress _ _
  | .finishWorkflow _ _ _ _ | .deferWorkflowRecovery _ _ | .listTransactions
  | .deleteTransactionIfUnchanged _ | .getKv _ _ | .barrier _ | .releaseBarrier _
  | .acquireRecoveryLease _ _ _ | .currentMillis | .invokeBegin _ | .invokeEnd _
  | .queryWorkflowCallback _ _ | .joinNext _ => isTrue trivial

/-! ### What a Succeeded branch stands for -/

/-- A Succeeded branch has been called forward, with success. -/
def Transaction.Earned (won : Set BranchBarrier) (tx : Transaction) : Prop :=
  tx.kind ≠ .workflow → ∀ b ∈ tx.branches, b.status = .succeeded →
    ∃ op ∈ tx.kind.forwardOps, b.key tx.gid op ∈ won

/-- A Succeeded branch has been called in phase 2, with success, and its transaction is not being
aborted. -/
def Transaction.Reported (won : Set BranchBarrier) (tx : Transaction) : Prop :=
  tx.kind ≠ .workflow → ∀ b ∈ tx.branches, b.status = .succeeded →
    tx.status.isAbort = false ∧ b.key tx.gid tx.kind.doneOp ∈ won

section Records

variable {won won' : Set BranchBarrier} {w : World} {o : Effect} {gid : String} {branch : Branch}
  {tx s s' : Transaction}

theorem lasting_earned : Lasting Transaction.Earned where
  mono := fun hwon h hk b hb hst => by
    obtain ⟨op, hop, hm⟩ := h hk b hb hst
    exact ⟨op, hop, hwon hm⟩
  develops := by
    intro won tx tx' hd h hk b hb hst
    obtain ⟨a, ha, hab⟩ := exists_of_forall₂ hd.branches hb
    rw [hd.kind] at hk ⊢
    rw [hd.gid]
    have hkey (op : String) : b.key tx.gid op = a.key tx.gid op := Branch.key_eq hab.definition _ op
    rcases hab.succeeded hst with ha' | ⟨op, hop, hm⟩
    · obtain ⟨op, hop, hm⟩ := h hk a ha ha'
      exact ⟨op, hop, (hkey op).symm ▸ hm⟩
    · exact ⟨op, hop, (hkey op).symm ▸ hm⟩

theorem Transaction.Reported.mono (h : tx.Reported won) (hwon : won ⊆ won') : tx.Reported won' :=
  fun hk b hb hst => (h hk b hb hst).imp_right fun hm => hwon hm

theorem earned_of_pending (h : ∀ b ∈ tx.branches, b.status = .pending) : tx.Earned won := by
  intro _ b hb hst
  exact nomatch (h b hb).symm.trans hst

theorem reported_of_pending (h : ∀ b ∈ tx.branches, b.status = .pending) : tx.Reported won := by
  intro _ b hb hst
  exact nomatch (h b hb).symm.trans hst

/-- **A registration adds no Succeeded branch.** -/
theorem SpeaksOfPhase2.registered (ha : SpeaksOfPhase2 (.registerBranch gid branch) w)
    (hs : w.txs[gid]? = some s) (h : appendDynamicBranch w.clock s branch = .ok s')
    (hk : s.kind ≠ .workflow) {b : Branch} (hb : b ∈ s'.branches) (hst : b.status = .succeeded) :
    b ∈ s.branches := by
  rcases appendDynamicBranch_ok h with ⟨rfl, -⟩ | ⟨-, -, hbs⟩
  · exact hb
  · rw [hbs] at hb
    rcases List.mem_append.mp hb with hb | hb
    · exact hb
    · rw [List.mem_singleton.mp hb] at hst
      have hrefused := ha hst s hs hk
      rw [h] at hrefused
      cases hrefused

theorem earned_registered (ha : SpeaksOfPhase2 (.registerBranch gid branch) w)
    (hs : w.txs[gid]? = some s) (hearned : s.Earned won)
    (h : appendDynamicBranch w.clock s branch = .ok s') : s'.Earned won := by
  rcases appendDynamicBranch_ok h with ⟨rfl, -⟩ | ⟨hamended, -, -⟩
  · exact hearned
  · intro hk b hb hst
    rw [hamended.kind] at hk ⊢
    rw [hamended.gid]
    exact hearned hk b (ha.registered hs h hk hb hst) hst

theorem reported_registered (ha : SpeaksOfPhase2 (.registerBranch gid branch) w)
    (hs : w.txs[gid]? = some s) (hreported : s.Reported won)
    (h : appendDynamicBranch w.clock s branch = .ok s') : s'.Reported won := by
  rcases appendDynamicBranch_ok h with ⟨rfl, -⟩ | ⟨hamended, hstatus, -⟩
  · exact hreported
  · intro hk b hb hst
    rw [hamended.kind] at hk ⊢
    rw [hamended.gid, hstatus]
    exact hreported hk b (ha.registered hs h hk hb hst) hst

/-- **A record that is written**: what made its branches Succeeded is not a Try. -/
theorem reported_written (ha : SpeaksOfPhase2 (.updateTransaction tx) w)
    (hearned : tx.Earned w.won) : tx.Reported w.won := by
  intro hk b hb hst
  obtain ⟨habort, htry⟩ := ha hk b hb hst
  obtain ⟨op, hop, hm⟩ := hearned hk b hb hst
  refine ⟨habort, ?_⟩
  cases hkind : tx.kind with
  | workflow => exact absurd hkind hk
  | tcc =>
    rw [hkind] at hop
    rcases List.mem_cons.mp hop with rfl | hop
    · exact absurd hm (htry hkind)
    · cases List.mem_singleton.mp hop
      exact hm
  | saga | message | xa =>
    rw [hkind] at hop
    cases List.mem_singleton.mp hop
    exact hm

/-- **The reports through one step.** -/
theorem reported_exec {C : BranchCall → Prop} {σ : Trail} (hreported : w.All Transaction.Reported)
    (ho : TrailOwn Transaction.Earned σ w)
    (hp : (developingAnd C (fun tx => ∀ b ∈ tx.branches, b.status = .pending)
      fun _ _ => True).pre σ o)
    (ha : SpeaksOfPhase2 o w) (i : Nat) (c : Outcome) :
    (InMemory.exec i o c w).2.All Transaction.Reported := by
  intro gid tx' htx'
  have hmono : w.won ⊆ (InMemory.exec i o c w).2.won := won_exec i o c w
  have hd : ∀ tx, o ≠ .deleteTransactionIfUnchanged tx := by
    rintro tx rfl
    exact hp
  rcases txs_step i c w gid hd with h | ⟨tx, rfl, -, h⟩ | ⟨tx, rfl, -, -, h⟩ |
    ⟨s, s', hs, hamends, h⟩
  · exact (hreported gid tx' (h ▸ htx')).mono hmono
  · cases h.symm.trans htx'
    obtain ⟨base, hbase, hdev⟩ : σ.From tx := hp
    have hdev : Develops w.won base tx := hdev.mono ho.won
    exact (reported_written ha (lasting_earned.develops hdev (ho.read base hbase))).mono hmono
  · cases h.symm.trans htx'
    exact reported_of_pending hp
  · cases h.symm.trans htx'
    refine Transaction.Reported.mono ?_ hmono
    by_cases hr : ∃ gid branch, o = .registerBranch gid branch
    · obtain ⟨gid', branch, rfl⟩ := hr
      obtain ⟨rfl, happend⟩ := hamends
      exact reported_registered ha hs (hreported _ s hs) happend
    · have hother : ∀ gid branch, o ≠ .registerBranch gid branch := fun gid branch h =>
        hr ⟨gid, branch, h⟩
      have hdev : Develops w.won s _ := hamends.develops hother
      exact fun hk => absurd (hdev.kind.trans (hamends.workflow hother)) hk

end Records

/-- The outline for the reports. -/
def reportedOutline (C : BranchCall → Prop) :
    Outline (inMemory.restrict SpeaksOfPhase2)
      (developingAnd C (fun tx => ∀ b ∈ tx.branches, b.status = .pending) fun _ _ => True)
      Trail.start :=
  let O : Outline (inMemory.restrict SpeaksOfPhase2)
      (developingAnd C (fun tx => ∀ b ∈ tx.branches, b.status = .pending) fun _ _ => True)
      Trail.start :=
    lastingOutline C lasting_earned (fun _ h => earned_of_pending h) fun _ ha hs hearned h =>
      earned_registered ha hs hearned h
  { inv := fun w => O.inv w ∧ w.All Transaction.Reported
    own := O.own
    sees := fun c hw ho hp ha => O.sees c hw.1 ho hp ha
    inv_step := fun {_ i _ _} c hw ho hp ha =>
      ⟨O.inv_step c hw.1 ho hp ha, reported_exec hw.2 ho hp ha.2 i c⟩
    own_step := fun c hw ho hp ha => O.own_step c hw.1 ho hp ha
    own_other := fun {_ _ _ _} c {_ _} hw ho hp ha hij hj => O.own_other c hw.1 ho hp ha hij hj
    inv_drift := fun {_ _} hw hd => by
      obtain ⟨now, rfl⟩ := hd
      exact hw
    own_drift := fun hw ho hd => O.own_drift hw.1 ho hd }

/-! ### The view -/

/-- Of a transaction that is not being aborted the query says "succeed" of forward operations. -/
theorem forward_of_compatBranchStatus {status : TransactionStatus} {branchStatus : BranchStatus}
    {op : String} (h : compatBranchStatus status branchStatus op = "succeed")
    (habort : status.isAbort = false) : op ∈ ["action", "confirm", "commit"] := by
  have habort : (decide (status = .aborting) || decide (status = .aborted)) = false := habort
  unfold compatBranchStatus at h
  split at h
  · exact absurd h (by decide)
  · dsimp only at h
    rw [habort, if_neg Bool.false_ne_true] at h
    split at h
    · rename_i hsucceed
      rw [Bool.and_eq_true, List.contains_iff_mem] at hsucceed
      exact hsucceed.2
    · exact absurd h (by decide)

/-- It says "succeed" of Succeeded branches only. -/
theorem succeeded_of_compatBranchStatus {status : TransactionStatus} {branchStatus : BranchStatus}
    {op : String} (h : compatBranchStatus status branchStatus op = "succeed") :
    branchStatus = .succeeded := by
  unfold compatBranchStatus at h
  split at h
  · exact absurd h (by decide)
  · dsimp only at h
    by_contra hst
    rw [decide_eq_false hst, Bool.false_and, if_neg Bool.false_ne_true] at h
    exact absurd h (by decide)

/-- The forward operations of a kind in the view are the one of phase 2. -/
theorem calledAs_forward {kind : TransactionKind} {branch : Branch} {op url : String}
    (hop : (op, url) ∈ compatBranchOperations kind branch)
    (hforward : op ∈ ["action", "confirm", "commit"]) : kind.calledAs op = kind.doneOp := by
  cases kind with
  | workflow => cases hop
  | message => rfl
  | saga | tcc | xa =>
    rcases List.mem_cons.mp hop with h | hop
    · cases h
      exact absurd hforward (by decide)
    · cases List.mem_singleton.mp hop
      rfl

/-- **The lines of a transaction that is reported** tell of calls that have succeeded. -/
theorem Transaction.Reported.happened {won : Set BranchBarrier} {tx : Transaction}
    (h : tx.Reported won) (state : ControlState) (hk : tx.kind ≠ .workflow)
    {line : CompatBranchTransaction} (hline : line ∈ state.compatBranchTransactions tx)
    (hstatus : line.status = "succeed") :
    (⟨tx.gid, line.branchId, tx.kind.calledAs line.op⟩ : BranchBarrier) ∈ won := by
  unfold ControlState.compatBranchTransactions at hline
  rw [if_neg hk] at hline
  obtain ⟨b, hb, hline⟩ := List.mem_flatMap.mp hline
  obtain ⟨⟨op, url⟩, hop, rfl⟩ := List.mem_map.mp hline
  have hstatus : compatBranchStatus tx.status b.status op = "succeed" := hstatus
  obtain ⟨habort, hwon⟩ := h hk b hb (succeeded_of_compatBranchStatus hstatus)
  have hcalled := calledAs_forward hop (forward_of_compatBranchStatus hstatus habort)
  show (⟨tx.gid, b.id, tx.kind.calledAs op⟩ : BranchBarrier) ∈ won
  rw [hcalled]
  exact hwon

/-! ### The runs -/

namespace ControlState

variable (state : ControlState)

/-- Whatever the query says has succeeded has been called, with success. -/
def ReportsWhatHappened (w : World) : Prop :=
  ∀ (gid : String) (tx : Transaction), w.txs[gid]? = some tx → tx.kind ≠ .workflow →
    ∀ line ∈ state.compatBranchTransactions tx, line.status = "succeed" →
      Succeeded w.history ⟨tx.gid, line.branchId, tx.kind.calledAs line.op⟩

/-- A line that says "succeed" of an operation that has not been called with success. -/
def misreports (w : World) (gid : String) : Bool :=
  (w.txs[gid]?).any fun tx => tx.kind ≠ .workflow &&
    (state.compatBranchTransactions tx).any fun line => line.status = "succeed" &&
      decide (¬ Succeeded w.history ⟨tx.gid, line.branchId, tx.kind.calledAs line.op⟩)

theorem not_reports_of_misreports {w : World} {gid : String} (h : state.misreports w gid = true) :
    ¬ state.ReportsWhatHappened w := by
  intro hreports
  unfold misreports at h
  rw [Option.any_eq_true] at h
  obtain ⟨tx, htx, h⟩ := h
  rw [Bool.and_eq_true, decide_eq_true_eq, List.any_eq_true] at h
  obtain ⟨hk, line, hline, h⟩ := h
  rw [Bool.and_eq_true, decide_eq_true_eq, decide_eq_true_eq] at h
  exact h.2 (hreports gid tx htx hk line hline h.1)

/-- Operations of the service one after another, computed from the outcomes of their steps. -/
theorem exists_serial (M : Machine effects World Outcome) [∀ o w, Decidable (M.allow o w)]
    (w : World) (runs : List (ServiceOperation × List Outcome)) (φ : World → Bool)
    (h : (M.finishAll? (ServiceOperation.prog state) w runs).any φ = true) :
    ∃ w' : World, M.Serial (state.Programs fun _ => True) w w' ∧ φ w' = true :=
  Machine.exists_of_finishAll? (fun _ _ => trivial) h

end ControlState

/-- **What the query reports has happened**, after every run of operations one after another from
an empty store, as long as the status of a branch speaks of phase 2. -/
theorem query_reports_what_happened (state : ControlState) {w₀ w : World}
    (hempty : ∀ gid : String, w₀.txs[gid]? = none)
    (hrun : (alone SpeaksOfPhase2).Serial (state.Programs fun _ => True) w₀ w) :
    state.ReportsWhatHappened w := by
  have hstart : ∀ p, state.Programs (fun _ => True) p →
      (developingAnd (fun _ => True) (fun tx => ∀ b ∈ tx.branches, b.status = .pending)
        fun _ _ => True).Follows p .start (fun _ _ => True) :=
    developing_programs (fun _ => trivial) (fun _ h _ h' => submits_pending h h') fun _ _ _ => trivial
  have hnone {φ : String → Transaction → Prop} :
      ∀ (gid : String) (tx : Transaction), w₀.txs[gid]? = some tx → φ gid tx := by
    intro gid tx htx
    rw [hempty gid] at htx
    cases htx
  have hinv := (reportedOutline fun _ => True).serial (fun _ w _ => .start w) hstart
    ⟨⟨hnone, hnone⟩, hnone⟩ hrun
  intro gid tx htx hk line hline hstatus
  exact (hinv.2 gid tx htx).happened state hk hline hstatus

/-- A Saga of two branches as a request describes it. -/
def sagaRequest : CompatTransactionRequest :=
  let step := ((∅ : Std.ExtTreeMap String String).insert "action" "http://a/do").insert
    "compensate" "http://a/undo"
  { CompatTransactionRequest.default with
    gid := "g", transType := "saga", steps := [step, step], waitResult := true }

/-- The query says of both actions of a Saga that they have succeeded, and they have. -/
theorem query_reports_saga : ∃ (w : World) (tx : Transaction),
    w.txs["g"]? = some tx ∧
    (ControlState.plain.compatBranchTransactions tx).map (fun line => (line.op, line.status)) =
      [("compensate", "prepared"), ("action", "succeed"), ("compensate", "prepared"),
        ("action", "succeed")] ∧
    ControlState.plain.ReportsWhatHappened w := by
  obtain ⟨w, hw, hφ⟩ := ControlState.plain.exists_serial (alone SpeaksOfPhase2) (.initial [])
    [(.compatApply sagaRequest .submit, outcomes 30 true)]
    (fun w => (w.txs["g"]?).any fun tx =>
      (ControlState.plain.compatBranchTransactions tx).map (fun line => (line.op, line.status)) =
        [("compensate", "prepared"), ("action", "succeed"), ("compensate", "prepared"),
          ("action", "succeed")]) (by decide +kernel)
  rw [Option.any_eq_true] at hφ
  obtain ⟨tx, htx, hφ⟩ := hφ
  refine ⟨w, tx, htx, of_decide_eq_true hφ, ?_⟩
  exact query_reports_what_happened .plain (fun gid => by simp [World.initial]) hw

/-- The registration of a Try that a client has made. -/
def triedBranch : CompatBranchRequest where
  gid := "g"
  transType := "tcc"
  branchId := "b"
  data := none
  op := none
  status := none
  confirm := some "http://a/confirm"
  cancel := some "http://a/cancel"
  url := none
  binaryData := none

/-- **A prepared TCC with a Try, and a Saga whose abort is scheduled**, are reported to have been
confirmed and compensated, and no call has been made for it. -/
theorem query_misreports :
    (∃ w : World, inMemory.Serial (ControlState.plain.Programs fun _ => True) (.initial []) w ∧
      ¬ ControlState.plain.ReportsWhatHappened w) ∧
    ∃ w : World, inMemory.Serial (ControlState.plain.Programs fun _ => True) (.initial []) w ∧
      (w.txs["g"]?).any (fun tx => tx.kind = .saga) = true ∧
      ¬ ControlState.plain.ReportsWhatHappened w := by
  constructor
  · obtain ⟨w, hw, hφ⟩ := ControlState.plain.exists_serial inMemory (.initial [])
      [(.compatApply { CompatTransactionRequest.default with gid := "g", transType := "tcc" }
          .prepare, outcomes 20 true),
        (.registerBranch triedBranch, outcomes 4 true)]
      (ControlState.plain.misreports · "g") (by decide +kernel)
    exact ⟨w, hw, ControlState.plain.not_reports_of_misreports hφ⟩
  · -- the second action fails, and may be called again
    obtain ⟨w, hw, hφ⟩ := ControlState.plain.exists_serial inMemory (.initial [])
      [(.compatApply { sagaRequest with retryLimit := some 1 } .submit,
          outcomes 10 true ++ outcomes 10 false),
        (.coordinator (.scheduleAbort "g") rfl, outcomes 5 true)]
      (fun w => ControlState.plain.misreports w "g" &&
        (w.txs["g"]?).any fun tx => tx.kind = .saga) (by decide +kernel)
    rw [Bool.and_eq_true] at hφ
    exact ⟨w, hw, hφ.2, ControlState.plain.not_reports_of_misreports hφ.1⟩

end RozeDtm
