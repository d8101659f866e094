import RozeDtm.InMemory.Snapshot
import RozeDtm.Session.TryFirst

/-!
# TCC Confirm only after Try

`prepare_tcc` passes over a branch whose Try barrier it finds taken, and `confirm_tcc` looks
at the status of the transaction only.  So a Prepared TCC need not have had a Try that
returned: the barrier is taken before the call, and an operation that was cut off in between
leaves it behind (`confirm_without_try`); and a branch may be registered when the transaction
is Prepared already.  In the runs without these two, Confirm is called after Try
(`confirm_after_try`).
-/

namespace RozeDtm

open Conc

/-- The operations that a TCC is driven by. -/
def Operation.DrivesTcc : Operation → Prop
  | .submit _ | .registerBranch _ _ | .prepareTcc _ | .confirmTcc _ | .cancelTcc _
  | .scheduleSubmit _ | .recover _ | .tickRecoverOnce => True
  | _ => False

/-- **Each of them keeps the discipline of the TCC `g`.** -/
theorem follows_drivesTcc {dtm : Dtm} {g : String} {op : Operation} (hop : op.DrivesTcc) :
    (tryFirst g).Follows (op.prog dtm) .start (fun _ _ => True) := by
  have close {act : Act Transaction} (h : (tryFirst g).Does act .start (fun _ _ => True)) :
      (tryFirst g).Follows (Operation.act.one act).run .start (fun _ _ => True) := by
    have hone : (tryFirst g).Does (Operation.act.one act) .start (fun _ _ => True) :=
      Discipline.does_bind.mpr (h.mono fun _ _ _ => Discipline.does_pure.mpr trivial)
    exact hone.follows
  -- an operation on one gid
  have one {gid : String} {act : String → Act Transaction}
      (hself : (tryFirst g).Does (act g) .start (fun _ _ => True))
      (hother : (within gid).Does (act gid) () (fun _ _ => True)) :
      (tryFirst g).Follows (Operation.act.one (act gid)).run .start (fun _ _ => True) := by
    by_cases hg : gid = g
    · subst hg
      exact close hself
    · exact close (tryFirst_of_within hg hother .start)
  cases op with
  | submit tx => exact close (FreeSteps.submit tryFirst_free)
  | registerBranch gid branch => exact close ⟨trivial, fun _ _ _ _ => trivial⟩
  | prepareTcc gid => exact one tryFirst_prepareTcc within_prepareTcc
  | confirmTcc gid => exact one tryFirst_confirmTcc within_confirmTcc
  | cancelTcc gid => exact one tryFirst_cancelTcc within_cancelTcc
  | scheduleSubmit gid => exact one tryFirst_scheduleSubmit within_scheduleSubmit
  | recover gid => exact one tryFirst_recover within_recover
  | tickRecoverOnce => exact tryFirst_tickRecoverOnce.follows
  | _ => exact hop.elim

/-! ### What was registered, and what was tried -/

/-- The branches that the transaction of `s₀` was submitted with, and those registered later. -/
def registrations (s₀ : Transaction) (h : List (Nat × Event)) : List Branch :=
  s₀.branches ++ h.filterMap fun e => e.2.registration? s₀.gid

/-- A branch of a record is one that was registered. -/
def Known (s₀ : Transaction) (h : List (Nat × Event)) (a : Branch) : Prop :=
  ∃ r ∈ registrations s₀ h, r.definition = a.definition

/-- The branch is executed from outside, or a Try call for it has returned success. -/
def Tried (g : String) (h : List (Nat × Event)) (a : Branch) : Prop :=
  a.action = "" ∨ Succeeded h ⟨g, a.id, "try"⟩

/-- The branches of a record were registered, and those that count as tried were tried. -/
structure TccBacked (s₀ : Transaction) (h : List (Nat × Event)) (settled : String → Prop)
    (tx : Transaction) : Prop where
  kind : tx.kind = .tcc
  branches : ∀ a ∈ tx.branches, Known s₀ h a ∧
    (CountsTried settled tx.status a → Tried s₀.gid h a)

/-- A TCC of which no branch counts as tried, but for those that are executed from outside. -/
structure Untried (s₀ : Transaction) : Prop where
  kind : s₀.kind = .tcc
  branches : ∀ a ∈ s₀.branches, a.action = "" ∨
    (a.status ≠ .succeeded ∧ s₀.status.pastTry = false)

/-- The Try of a branch whose barrier is taken has returned success, or the branch is executed
from outside. -/
def TryReturned (s₀ : Transaction) (w : World) (id : String) : Prop :=
  Succeeded w.history ⟨s₀.gid, id, "try"⟩ ∨
    ∀ r ∈ registrations s₀ w.history, r.id = id → r.action = ""

/-- A branch does not join the record `s` past its Try: it is executed from outside, or there
is one with its id, or `s` is not Prepared, and when it is Submitted the branch is not marked
Succeeded. -/
def JoinsUntried (s : Transaction) (branch : Branch) : Prop :=
  branch.action = "" ∨ (∃ existing ∈ s.branches, existing.id = branch.id) ∨
    (s.status ≠ .prepared ∧ (s.status = .submitted → branch.status ≠ .succeeded))

/-- The steps that pass no branch for tried that was not: a Try barrier of the TCC is found
taken only when its Try has returned, and no branch joins past its Try. -/
def PassesTried (s₀ : Transaction) (o : Effect) (w : World) : Prop :=
  match o with
  | .barrier b => b.gid = s₀.gid → b.op = "try" → b ∈ w.barriers → TryReturned s₀ w b.branchId
  | .registerBranch gid branch => gid = s₀.gid → ∀ s ∈ w.txs[gid]?, JoinsUntried s branch
  | _ => True

instance (s₀ : Transaction) (w : World) (id : String) : Decidable (TryReturned s₀ w id) :=
  inferInstanceAs (Decidable (_ ∨ _))

instance (s : Transaction) (branch : Branch) : Decidable (JoinsUntried s branch) :=
  inferInstanceAs (Decidable (_ ∨ _))

instance (s₀ : Transaction) (o : Effect) (w : World) : Decidable (PassesTried s₀ o w) :=
  match o with
  | .barrier _ => inferInstanceAs (Decidable (_ → _ → _ → TryReturned s₀ w _))
  | .registerBranch gid branch =>
    inferInstanceAs (Decidable (_ → ∀ s ∈ w.txs[gid]?, JoinsUntried s branch))
  | .insertTransaction _ | .getTransaction _ | .updateTransaction _ | .listTransactions
  | .recordWorkflowProgress _ _ | .finishWorkflow _ _ _ _ | .deferWorkflowRecovery _ _
  | .deleteTransactionIfUnchanged _ | .getKv _ _ | .releaseBarrier _ | .currentMillis
  | .acquireRecoveryLease _ _ _ | .invokeBegin _ | .invokeEnd _ | .queryWorkflowCallback _ _
  | .joinNext _ => isTrue trivial

section TccBacked

variable {s₀ : Transaction} {h : List (Nat × Event)} {settled : String → Prop}
  {tx : Transaction} {w : World} {o : Effect}

theorem Known.mono {h' : List (Nat × Event)} {a : Branch} (hk : Known s₀ h a)
    (hsub : ∀ e ∈ h, e ∈ h') : Known s₀ h' a := by
  obtain ⟨r, hr, hd⟩ := hk
  refine ⟨r, ?_, hd⟩
  rcases List.mem_append.mp hr with hr | hr
  · exact List.mem_append_left _ hr
  · obtain ⟨e, he, hreg⟩ := List.mem_filterMap.mp hr
    exact List.mem_append_right _ (List.mem_filterMap.mpr ⟨e, hsub e he, hreg⟩)

/-- What a record shows stays true. -/
theorem TccBacked.exec (hb : TccBacked s₀ w.history settled tx) (i : Nat) (c : Outcome) :
    TccBacked s₀ (InMemory.exec i o c w).2.history settled tx := by
  refine ⟨hb.kind, fun a ha => ?_⟩
  obtain ⟨hk, ht⟩ := hb.branches a ha
  exact ⟨hk.mono fun _ => mem_history_exec, fun hc => (ht hc).imp id succeeded_exec⟩

/-- As a record shows it to an operation that has settled no Try yet. -/
theorem TccBacked.fewer (hb : TccBacked s₀ h settled tx) :
    TccBacked s₀ h (fun _ => False) tx :=
  ⟨hb.kind, fun a ha => ⟨(hb.branches a ha).1, fun hc =>
    (hb.branches a ha).2 (hc.imp id (Or.imp id False.elim))⟩⟩

/-- One more branch counts, and it was tried. -/
theorem TccBacked.settle {σ : TccView} {id : String} (hb : TccBacked s₀ h σ.settled tx)
    (ht : ∀ a ∈ tx.branches, Known s₀ h a → a.id = id → Tried s₀.gid h a) :
    TccBacked s₀ h (σ.settle id).settled tx := by
  refine ⟨hb.kind, fun a ha => ⟨(hb.branches a ha).1, fun hc => ?_⟩⟩
  rcases hc with hc | hc | hid | hc
  · exact (hb.branches a ha).2 (Or.inl hc)
  · exact (hb.branches a ha).2 (Or.inr (Or.inl hc))
  · exact ht a ha (hb.branches a ha).1 hid
  · exact (hb.branches a ha).2 (Or.inr (Or.inr hc))

theorem Tried.of_definition {g : String} {a b : Branch} (hd : b.definition = a.definition)
    (ht : Tried g h a) : Tried g h b := by
  rw [Tried, Branch.action_eq hd, Branch.id_eq hd]
  exact ht

/-- **What is written over a record that is backed is backed.** -/
theorem TccWrite.backed {base : Transaction} (hw : TccWrite settled base tx)
    (hb : TccBacked s₀ h settled base) : TccBacked s₀ h settled tx := by
  refine ⟨hw.kind.trans hb.kind, fun b hbmem => ?_⟩
  obtain ⟨a, ha, hd, hc⟩ := exists_of_forall₂ hw.branches hbmem
  obtain ⟨⟨r, hr, hra⟩, ht⟩ := hb.branches a ha
  refine ⟨⟨r, hr, hra.trans hd.symm⟩, fun hcount => (ht ?_).of_definition hd⟩
  rcases hcount with hcount | hcount | hcount
  · exact hc (Or.inl hcount)
  · exact hc (Or.inr hcount)
  · rw [Branch.id_eq hd] at hcount
    exact Or.inr (Or.inr hcount)

theorem Untried.backed (hs₀ : Untried s₀) : TccBacked s₀ [] (fun _ => False) s₀ := by
  refine ⟨hs₀.kind, fun a ha => ⟨⟨a, List.mem_append_left _ ha, rfl⟩, fun hc => ?_⟩⟩
  rcases hs₀.branches a ha with h | ⟨h1, h2⟩
  · exact Or.inl h
  · rcases hc with hc | hc | hc
    · exact absurd hc h1
    · exact absurd hc (by rw [h2]; exact Bool.false_ne_true)
    · exact hc.elim

end TccBacked

/-! ### Changes in place -/

/-- A registration that the store accepts is recorded. -/
theorem registered_history {w : World} {i : Nat} {c : Outcome} {g : String} {branch : Branch}
    {s s' : Transaction} (hs : w.txs[g]? = some s)
    (hf : appendDynamicBranch w.clock s branch = .ok s') :
    (InMemory.exec i (.registerBranch g branch) c w).2.history =
      (i, .registered g branch) :: w.history := by
  simp only [InMemory.exec, InMemory.registerBranch, InMemory.modify, hs, hf, InMemory.noteOk]
  rfl

/-- **A branch that joins untried leaves the record backed.** -/
theorem TccBacked.join {s₀ s s' : Transaction} {w : World} {i : Nat} {c : Outcome} {branch : Branch}
    (hb : TccBacked s₀ w.history (fun _ => False) s) (hs : w.txs[s₀.gid]? = some s)
    (hjoin : JoinsUntried s branch) (hf : appendDynamicBranch w.clock s branch = .ok s') :
    TccBacked s₀ (InMemory.exec i (.registerBranch s₀.gid branch) c w).2.history
      (fun _ => False) s' := by
  have hb' := hb.exec (o := .registerBranch s₀.gid branch) i c
  rcases appendDynamicBranch_ok hf with ⟨rfl, -⟩ | ⟨ha, hstatus, hbs⟩
  · exact hb'
  · refine ⟨ha.kind.trans hb.kind, fun a hmem => ?_⟩
    rw [hbs] at hmem
    rw [hstatus]
    rcases List.mem_append.mp hmem with hmem | hmem
    · exact hb'.branches a hmem
    · rw [List.mem_singleton] at hmem
      subst hmem
      refine ⟨⟨a, List.mem_append_right _ ?_, rfl⟩, fun hcount => ?_⟩
      · rw [registered_history hs hf]
        simp [Event.registration?]
      · rcases hjoin with hext | hex | ⟨hnot, hsub⟩
        · exact Or.inl hext
        · -- then the record would not have changed
          rw [appendDynamicBranch_existing hf hex] at hbs
          have hlen := congrArg List.length hbs
          simp at hlen
        · have hst := (appendDynamicBranch_accepts hf).resolve_right hnot
          rcases hcount with hc | hc | hc
          · exact absurd hc (hsub hst)
          · rw [hst] at hc
            cases hc
          · exact hc.elim

/-! ### The outline -/

/-- What holds of the store at every point. -/
structure TccInv (s₀ : Transaction) (w : World) : Prop where
  keyed : w.Keyed
  record : ∃ s, w.txs[s₀.gid]? = some s ∧ TccBacked s₀ w.history (fun _ => False) s

/-- What an operation has read or written is backed. -/
def TccOwn (s₀ : Transaction) (σ : TccView) (w : World) : Prop :=
  ∀ base, σ.snap = some base → TccBacked s₀ w.history σ.settled base

section Steps

variable {s₀ : Transaction} {σ : TccView} {o : Effect} {w : World}

theorem tryFirst_not_delete {g : String} (hp : (tryFirst g).pre σ o) (tx : Transaction) :
    o ≠ .deleteTransactionIfUnchanged tx := by
  rintro rfl
  exact hp

/-- A branch whose Try has returned, as its record shows it. -/
theorem TryReturned.tried {id : String} {a : Branch} (h : TryReturned s₀ w id)
    (hk : Known s₀ w.history a) (hid : a.id = id) : Tried s₀.gid w.history a := by
  rcases h with h | h
  · rw [← hid] at h
    exact Or.inr h
  · obtain ⟨r, hr, hd⟩ := hk
    left
    rw [← Branch.action_eq hd]
    exact h r hr ((Branch.id_eq hd).trans hid)

theorem barrier_taken {b : BranchBarrier} {i : Nat} {c : Outcome}
    (h : (InMemory.exec i (.barrier b) c w).1 = BarrierDecision.skipDuplicate) :
    b ∈ w.barriers := by
  have h : (InMemory.barrier w b).1 = .skipDuplicate := h
  rcases barrier_cases w b with ⟨hb, -⟩ | ⟨-, -, he⟩ | ⟨-, -, -, he⟩ | ⟨-, -, he⟩
  · exact hb
  all_goals
    rw [he] at h
    cases h

theorem succeeded_now {call : BranchCall} {i : Nat} {c : Outcome}
    (h : (InMemory.exec i (.invokeEnd call) c w).1 = true) :
    Succeeded (InMemory.exec i (.invokeEnd call) c w).2.history call.barrier := by
  have h : c.ok = true := h
  refine ⟨(i, .ended call true), ?_, call, rfl, rfl⟩
  change (i, Event.ended call true) ∈ (i, .ended call c.ok) :: w.history
  rw [h]
  exact .head _

/-- **One step keeps the store as it should be.** -/
theorem TccInv.exec (hw : TccInv s₀ w) (ho : TccOwn s₀ σ w) (hp : (tryFirst s₀.gid).pre σ o)
    (hallow : PassesTried s₀ o w) (i : Nat) (c : Outcome) :
    TccInv s₀ (InMemory.exec i o c w).2 := by
  refine ⟨hw.keyed.exec i c, ?_⟩
  obtain ⟨s, hs, hb⟩ := hw.record
  rcases txs_step i c w s₀.gid (tryFirst_not_delete hp) with h | ⟨tx, rfl, hg, h⟩ |
    ⟨tx, rfl, hg, hn, h⟩ | ⟨s₁, s', hs₁, ha, h⟩
  · exact ⟨s, h.trans hs, hb.exec i c⟩
  · obtain ⟨base, hbase, hwrite⟩ := hp hg
    have htx := (hwrite.backed (ho base hbase)).fewer
    exact ⟨_, h, ⟨htx.kind, htx.branches⟩⟩
  · cases hs.symm.trans hn
  · cases hs.symm.trans hs₁
    refine ⟨s', h, ?_⟩
    by_cases hreg : ∃ gid branch, o = .registerBranch gid branch
    · obtain ⟨gid, branch, rfl⟩ := hreg
      obtain ⟨rfl, hf⟩ := ha
      exact hb.join hs (hallow rfl s hs) hf
    · have hk := ha.workflow fun gid branch h => hreg ⟨gid, branch, h⟩
      cases hb.kind.symm.trans hk

/-- The session of the operation that takes the step. -/
theorem TccOwn.exec (hw : TccInv s₀ w) (ho : TccOwn s₀ σ w) (hp : (tryFirst s₀.gid).pre σ o)
    (hallow : PassesTried s₀ o w) (i : Nat) (c : Outcome) :
    TccOwn s₀ ((tryFirst s₀.gid).next σ o (InMemory.exec i o c w).1)
      (InMemory.exec i o c w).2 := by
  have stay : TccOwn s₀ σ (InMemory.exec i o c w).2 := fun base hbase => (ho base hbase).exec i c
  cases o with
  | getTransaction gid =>
    simp only [tryFirst]
    split
    · rename_i hg
      subst hg
      intro base hbase
      obtain ⟨s, hs, hb⟩ := hw.record
      cases hs.symm.trans hbase
      exact hb
    · exact stay
  | updateTransaction tx =>
    simp only [tryFirst]
    split
    · rename_i hg
      intro tx' htx
      cases htx
      obtain ⟨base, hbase, hwrite⟩ := hp hg
      exact hwrite.backed (ho base hbase)
    · exact stay
  | barrier b =>
    simp only [tryFirst]
    split
    · rename_i hdup
      split
      · rename_i htry
        obtain ⟨g, id, op⟩ := b
        obtain ⟨rfl, rfl⟩ := htry
        have hreturned : TryReturned s₀ w id := hallow rfl rfl (barrier_taken hdup)
        have settled : TccOwn s₀ (σ.settle id) w := fun base hbase =>
          (ho base hbase).settle fun a _ hk hid => hreturned.tried hk hid
        exact fun base hbase => (settled base hbase).exec i c
      · exact stay
    · exact stay
  | invokeEnd call =>
    simp only [tryFirst]
    split
    · rename_i hok
      split
      · rename_i htry
        have hs := succeeded_now hok
        rw [BranchCall.barrier, htry.1, htry.2] at hs
        refine fun base hbase => (stay base hbase).settle fun a _ _ hid => Or.inr ?_
        rw [hid]
        exact hs
      · exact stay
    · exact stay
  | _ => exact stay

/-- The outline of the operations on the TCC that `s₀` is the first record of. -/
def tccOutline (s₀ : Transaction) :
    Outline (inMemory.restrict (PassesTried s₀)) (tryFirst s₀.gid) .start where
  inv := TccInv s₀
  own := fun _ => TccOwn s₀
  sees := fun {w i σ o} c hw _ _ _ => by
    obtain ⟨s, hs, hb⟩ := hw.record
    cases o with
    | getTransaction gid =>
      intro tx htx
      refine ⟨hw.keyed gid tx htx, ?_⟩
      rintro rfl
      cases hs.symm.trans htx
      exact hb.kind
    | listTransactions =>
      intro tx htx hg
      obtain ⟨gid, hgid⟩ := InMemory.mem_listTransactions htx
      have hgs : gid = s₀.gid := (hw.keyed gid tx hgid).symm.trans hg
      subst hgs
      cases hs.symm.trans hgid
      exact hb.kind
    | _ => trivial
  inv_step := fun {_ i _ _} c hw ho hp ha => hw.exec ho hp ha.2 i c
  own_step := fun {_ i _ _} c hw ho hp ha => ho.exec hw hp ha.2 i c
  own_other := fun {_ i _ _} c _ _ _ _ _ _ _ hj base hbase => (hj base hbase).exec i c
  inv_drift := fun hw hd => by
    obtain ⟨now, rfl⟩ := hd
    exact ⟨hw.keyed, hw.record⟩
  own_drift := fun _ ho hd => by
    obtain ⟨now, rfl⟩ := hd
    exact ho

end Steps

/-- Every confirm endpoint that is about to be called is that of a branch that was registered
with an empty action, or for which a Try call has returned success. -/
def ConfirmsTried (s₀ : Transaction) (P : System) : Prop :=
  ∀ i c, callAhead P i = some c → c.gid = s₀.gid → c.op = "confirm" →
    ∃ r ∈ registrations s₀ P.world.history, r.id = c.branchId ∧
      (r.action = "" ∨ Succeeded P.world.history ⟨s₀.gid, c.branchId, "try"⟩)

/-- **Confirm is called after Try only**, in every run in which no Try barrier is found taken
before its Try has returned, and no branch joins past its Try. -/
theorem confirm_after_try (dtm : Dtm) {w : World} (hw : w.Keyed) (hh : w.history = [])
    {s₀ : Transaction} (hs₀ : w.txs[s₀.gid]? = some s₀) (hu : Untried s₀) {P : System}
    (hP : (inMemory.restrict (PassesTried s₀)).Reaches (dtm.Programs Operation.DrivesTcc) w P) :
    ConfirmsTried s₀ P := by
  have hstart : ∀ p, dtm.Programs Operation.DrivesTcc p →
      (tryFirst s₀.gid).Follows p .start (fun _ _ => True) := by
    rintro p ⟨op, hop, rfl⟩
    exact follows_drivesTcc hop
  have hinv : TccInv s₀ w := ⟨hw, s₀, hs₀, hh ▸ hu.backed⟩
  have hgood : (tccOutline s₀).Good P := (tccOutline s₀).good_of_reaches hinv
    (fun _ _ h => (nomatch h)) hstart hP
  obtain ⟨-, σ, hown, -, hfollows⟩ := hgood
  intro i c hi hg hop
  obtain ⟨k, hk⟩ := callAhead_eq_some hi
  obtain ⟨base, hbase, a, ha, hid, hcount⟩ := (hfollows i _ hk).1 hg hop
  have hb : TccBacked s₀ P.world.history (σ i).settled base := hown i base hbase
  obtain ⟨⟨r, hr, hd⟩, htried⟩ := hb.branches a ha
  refine ⟨r, hr, (Branch.id_eq hd).trans hid, ?_⟩
  rw [Branch.action_eq hd, ← hid]
  exact htried hcount

/-- A TCC with one branch. -/
def oneTry (gid : String) : Transaction :=
  .new 0 gid .tcc [.tccTry "b" "try" "confirm" "cancel" .null]

/-- Try succeeds, and then Confirm is about to be called. -/
theorem confirm_after_try_once : ∃ P : System,
    (inMemory.restrict (PassesTried (oneTry "g"))).Reaches
      (Dtm.plain.Programs Operation.DrivesTcc) (.initial [oneTry "g"]) P ∧
    ConfirmsTried (oneTry "g") P ∧ (callAhead P 1).map BranchCall.op = some "confirm" := by
  have hrun : (((inMemory.restrict (PassesTried (oneTry "g"))).performAll?
      (Operation.prog Dtm.plain) (Pool.idle (.initial [oneTry "g"]))
      (.start (.prepareTcc "g") :: steps 0 5 true ++ .start (.confirmTcc "g") :: steps 1 2 true)).any
      fun P => (callAhead P 1).map BranchCall.op = some "confirm") = true := by decide
  obtain ⟨P, hrun, hcall⟩ := (Option.any_eq_true _ _).mp hrun
  have hops : ∀ op, Move.start op ∈ (.start (.prepareTcc "g") :: steps 0 5 true ++
      .start (.confirmTcc "g") :: steps 1 2 true : List SystemMove) → op.DrivesTcc := by
    intro op hop
    simp [steps] at hop
    rcases hop with rfl | rfl <;> trivial
  have hP := Machine.run_of_performAll? hops hrun
  refine ⟨P, hP, ?_, of_decide_eq_true hcall⟩
  have hstored : (World.initial [oneTry "g"]).txs[(oneTry "g").gid]? = some (oneTry "g") := by
    simp [World.initial, oneTry, Transaction.new]
  have hu : Untried (oneTry "g") := by
    refine ⟨rfl, fun a ha => Or.inr ?_⟩
    rw [List.mem_singleton.mp ha]
    exact ⟨by decide, rfl⟩
  exact confirm_after_try .plain (World.keyed_initial _) rfl hstored hu hP

/-- **An interrupted Try is taken for done**: `prepare_tcc` is cut off between its barrier and
its call, a second one finds the barrier taken and prepares the transaction, and `confirm_tcc`
is about to confirm a branch that was never tried. -/
theorem confirm_without_try : ¬ ∀ (dtm : Dtm) (w : World) (s₀ : Transaction) (P : System),
    w.Keyed → w.history = [] → w.txs[s₀.gid]? = some s₀ → Untried s₀ →
    inMemory.Reaches (dtm.Programs Operation.DrivesTcc) w P → ConfirmsTried s₀ P := by
  intro hall
  have hrun : ((inMemory.performAll? (Operation.prog Dtm.plain)
      (Pool.idle (.initial [oneTry "g"])) (.start (.prepareTcc "g") :: steps 0 2 true ++
        .cut 0 :: .start (.prepareTcc "g") :: steps 1 3 true ++
        .start (.confirmTcc "g") :: steps 2 2 true)).any fun P =>
      ((callAhead P 2).map fun c => (c.gid, c.branchId, c.op)) = some ("g", "b", "confirm") ∧
      (∀ r ∈ registrations (oneTry "g") P.world.history, r.action ≠ "") ∧
      ¬ Succeeded P.world.history ⟨"g", "b", "try"⟩) = true := by decide
  obtain ⟨P, hrun, hφ⟩ := (Option.any_eq_true _ _).mp hrun
  obtain ⟨hcall, haction, hno⟩ := of_decide_eq_true hφ
  have hops : ∀ op, Move.start op ∈ (.start (.prepareTcc "g") :: steps 0 2 true ++
      .cut 0 :: .start (.prepareTcc "g") :: steps 1 3 true ++
      .start (.confirmTcc "g") :: steps 2 2 true : List SystemMove) → op.DrivesTcc := by
    intro op hop
    simp [steps] at hop
    rcases hop with rfl | rfl | rfl <;> trivial
  have hP := Machine.run_of_performAll? hops hrun
  have hstored : (World.initial [oneTry "g"]).txs[(oneTry "g").gid]? = some (oneTry "g") := by
    simp [World.initial, oneTry, Transaction.new]
  have hu : Untried (oneTry "g") := by
    refine ⟨rfl, fun a ha => Or.inr ?_⟩
    rw [List.mem_singleton.mp ha]
    exact ⟨by decide, rfl⟩
  obtain ⟨c, hc, hfields⟩ := Option.map_eq_some_iff.mp hcall
  cases c
  cases hfields
  obtain ⟨r, hr, hid, h | h⟩ := hall .plain _ _ P (World.keyed_initial _) rfl hstored hu hP
    2 _ hc rfl rfl
  · exact haction r hr h
  · exact hno h

end RozeDtm
