import RozeDtm.InMemory.Snapshot
import RozeDtm.Session.Undecided

/-!
# Recovery never guesses a commit

Nobody has asked to commit a TCC, XA or Message that was submitted, prepared, aborted or
reset only.  The recovery tick prepares such a transaction, or aborts it when it is past its
timeout; it does not carry a commit out, at any time and however the operations overlap or
are cut off (`recovery_never_commits`).
-/

namespace RozeDtm

open Conc

/-- The operations that do not ask for a commit; the transactions that are submitted as `g` are
TCC, XA or Message transactions in status Submitted. -/
def Operation.AsksNoCommit (g : String) : Operation → Prop
  | .submit tx => tx.gid = g → tx.status = .submitted ∧
      (tx.kind = .tcc ∨ tx.kind = .xa ∨ tx.kind = .message)
  | .registerBranch _ _ | .prepareTcc _ | .prepareXa _ | .prepareMessage _ | .prepareWorkflow _
  | .cancelTcc _ | .rollbackXa _ | .abortMessage _ | .scheduleAbort _ | .resetRetry _
  | .forceStop _ | .tickRecoverOnce => True
  | _ => False

/-- **Each of them leaves `g` undecided.** -/
theorem follows_asksNoCommit {dtm : Dtm} {g : String} {op : Operation} (hop : op.AsksNoCommit g) :
    (undecided g).Follows (op.prog dtm) () (fun _ _ => True) := by
  have close {act : Act Transaction} (h : (undecided g).Does act () (fun _ _ => True)) :
      (undecided g).Follows (Operation.act.one act).run () (fun _ _ => True) := by
    have hone : (undecided g).Does (Operation.act.one act) () (fun _ _ => True) :=
      Discipline.does_bind.mpr (h.mono fun _ _ _ => Discipline.does_pure.mpr trivial)
    exact hone.follows
  -- an operation on one gid
  have one {gid : String} {act : String → Act Transaction}
      (hself : (undecided g).Does (act g) () (fun _ _ => True))
      (hother : (within gid).Does (act gid) () (fun _ _ => True)) :
      (undecided g).Follows (Operation.act.one (act gid)).run () (fun _ _ => True) := by
    by_cases hg : gid = g
    · subst hg
      exact close hself
    · exact close (hother.le (within_le_undecided hg))
  cases op with
  | submit tx =>
    refine close (undecided_submit fun hg => ?_)
    obtain ⟨hs, hk⟩ := hop hg
    exact ⟨hk, by simp [hs], by simp [hs]⟩
  | registerBranch gid branch => exact close ⟨trivial, fun _ _ _ _ => trivial⟩
  | prepareTcc gid => exact one undecided_prepareTcc within_prepareTcc
  | prepareXa gid => exact one undecided_prepareXa within_prepareXa
  | prepareMessage gid => exact one undecided_prepareMessage within_prepareMessage
  | prepareWorkflow gid =>
    exact one undecided_prepareWorkflow (within_prepareWorkflow.mono fun _ _ _ => trivial)
  | cancelTcc gid => exact one undecided_cancelTcc within_cancelTcc
  | rollbackXa gid => exact one undecided_rollbackXa within_rollbackXa
  | abortMessage gid => exact one undecided_abortMessage within_abortMessage
  | scheduleAbort gid => exact one undecided_scheduleAbort within_scheduleAbort
  | resetRetry gid => exact one undecided_resetRetry within_resetRetry
  | forceStop gid => exact one undecided_forceStop within_forceStop
  | tickRecoverOnce => exact undecided_tickRecoverOnce.follows
  | _ => exact hop.elim

/-- The record under `g` is undecided, and no call has carried a commit of it out. -/
structure NoCommit (g : String) (w : World) : Prop where
  keyed : w.Keyed
  record : ∀ s, w.txs[g]? = some s → Undecided s
  calls : ∀ i c, (i, .began c) ∈ w.history → c.gid = g → c.op ∉ commitOps

theorem Amended.undecided {s s' : Transaction} (h : Amended s s') (hs : Undecided s) :
    Undecided s' := by
  have hstatus : s'.status = s.status := by
    rcases h.status with h | hk
    · exact h
    · rcases hs.kind with h | h | h <;> cases hk.symm.trans h
  exact ⟨by rw [h.kind]; exact hs.kind, by rw [hstatus]; exact hs.succeeding,
    by rw [hstatus]; exact hs.succeeded⟩

theorem undecided_not_delete {g : String} {t : Unit} {o : Effect} (hp : (undecided g).pre t o)
    (tx : Transaction) : o ≠ .deleteTransactionIfUnchanged tx := by
  rintro rfl
  exact hp

/-- **One step.** -/
theorem NoCommit.exec {g : String} {w : World} {t : Unit} {o : Effect} (hw : NoCommit g w)
    (hp : (undecided g).pre t o) (i : Nat) (c : Outcome) :
    NoCommit g (InMemory.exec i o c w).2 where
  keyed := hw.keyed.exec i c
  record := by
    intro s' hs'
    rcases txs_step i c w g (undecided_not_delete hp) with h | ⟨tx, rfl, hg, h⟩ |
      ⟨tx, rfl, hg, -, h⟩ | ⟨s, s'', hs, ha, h⟩ <;> rw [h] at hs'
    · exact hw.record s' hs'
    · cases hs'
      have hu : Undecided tx := hp hg
      exact ⟨hu.kind, hu.succeeding, hu.succeeded⟩
    · cases hs'
      exact hp hg
    · cases hs'
      rcases ha.amended with rfl | ha
      · exact hw.record _ hs
      · exact ha.undecided (hw.record s hs)
  calls := by
    intro j call hm hg
    rcases mem_history_step hm with hm | he
    · exact hw.calls j call hm hg
    · rw [began_ofStep he] at hp
      exact hp hg

/-- The outline of the operations that ask for no commit. -/
def undecidedOutline (g : String) : Outline inMemory (undecided g) () where
  inv := NoCommit g
  own := fun _ _ _ => True
  sees := fun {w i t o} c hw _ hp _ => by
    cases o with
    | getTransaction gid =>
      intro tx htx
      refine ⟨hw.keyed gid tx htx, ?_⟩
      rintro rfl
      exact hw.record tx htx
    | listTransactions =>
      intro tx htx hg
      obtain ⟨gid, hgid⟩ := InMemory.mem_listTransactions htx
      refine hw.record tx ?_
      rw [← hg, hw.keyed gid tx hgid]
      exact hgid
    | _ => trivial
  inv_step := fun {_ i _ _} c hw _ hp _ => hw.exec hp i c
  own_step := fun _ _ _ _ _ => trivial
  own_other := fun _ _ _ _ _ _ _ _ _ => trivial
  inv_drift := fun hw hd => by
    obtain ⟨now, rfl⟩ := hd
    exact ⟨hw.keyed, hw.record, hw.calls⟩
  own_drift := fun _ _ _ => trivial

/-- **A transaction that nobody has asked to commit is not committed**: no Confirm, XA commit or
message endpoint of it is called, and it is neither Succeeding nor Succeeded, at any point of
any run of the operations that ask for no commit. -/
theorem recovery_never_commits (dtm : Dtm) {g : String} {w : World} (hw : w.Keyed)
    (hh : w.history = []) (hg : ∀ s, w.txs[g]? = some s → s.status = .submitted ∧
      (s.kind = .tcc ∨ s.kind = .xa ∨ s.kind = .message)) {P : System}
    (hP : inMemory.Reaches (dtm.Programs (Operation.AsksNoCommit g)) w P) :
    (∀ i c, (i, .began c) ∈ P.world.history → c.gid = g →
      c.op ≠ "confirm" ∧ c.op ≠ "commit" ∧ c.op ≠ "message") ∧
    ∀ s, P.world.txs[g]? = some s → s.status ≠ .succeeding ∧ s.status ≠ .succeeded := by
  have hstart : NoCommit g w := by
    refine ⟨hw, fun s hs => ?_, fun i c hm => ?_⟩
    · obtain ⟨hst, hk⟩ := hg s hs
      exact ⟨hk, by simp [hst], by simp [hst]⟩
    · rw [hh] at hm
      cases hm
  have hgood := (undecidedOutline g).good_of_reaches hstart (fun _ => trivial)
    (by rintro p ⟨op, hop, rfl⟩; exact follows_asksNoCommit hop) hP
  have hend : NoCommit g P.world := hgood.1
  refine ⟨fun i c hm hc => ?_, fun s hs => ?_⟩
  · simpa [commitOps] using hend.calls i c hm hc
  · exact ⟨(hend.record s hs).succeeding, (hend.record s hs).succeeded⟩

/-- A TCC is submitted, a tick runs its Try, and it is left Prepared. -/
theorem recovery_never_commits_tried : ∃ P : System,
    inMemory.Reaches (Dtm.plain.Programs (Operation.AsksNoCommit "g")) (.initial []) P ∧
    ((∀ i c, (i, .began c) ∈ P.world.history → c.gid = "g" →
        c.op ≠ "confirm" ∧ c.op ≠ "commit" ∧ c.op ≠ "message") ∧
      ∀ s, P.world.txs["g"]? = some s → s.status ≠ .succeeding ∧ s.status ≠ .succeeded) ∧
    P.world.statusOf "g" = some .prepared := by
  obtain ⟨P, hP, hφ⟩ := Dtm.exists_run inMemory .plain (Operation.AsksNoCommit "g")
    (.initial [])
    (.start (.submit (.new 0 "g" .tcc [.tccTry "b" "try" "confirm" "cancel" .null])) ::
      steps 0 1 true ++ .start .tickRecoverOnce :: steps 1 7 true)
    (fun w => w.statusOf "g" = some .prepared) (by
      intro op hop
      simp [steps] at hop
      rcases hop with rfl | rfl
      · exact fun _ => ⟨rfl, Or.inl rfl⟩
      · trivial) (by decide)
  exact ⟨P, hP, recovery_never_commits .plain (World.keyed_initial _) rfl
    (fun s h => by simp [World.initial] at h) hP, of_decide_eq_true hφ⟩

end RozeDtm
