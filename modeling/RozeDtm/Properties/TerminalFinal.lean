import RozeDtm.InMemory.Snapshot

/-!
# Terminal statuses

`update_transaction` of the in-memory store, and of the SQL stores, writes a record
whatever lies under its gid.  An operation that has read a record before another one
made it terminal still writes its own version of it afterwards, and the terminal status
is gone (`terminal_status_overwritten`).  When no write is stale a terminal status is
final (`terminal_status_final`).
-/

namespace RozeDtm

open Conc

theorem moves_of_isTerminal {kind : TransactionKind} {s target : TransactionStatus}
    (h : s.isTerminal = true) : TransactionStatus.moves kind s target = false := by
  cases s <;> first | rfl | cases h

/-- No fresh step changes a terminal status. -/
theorem terminal_step {g : String} {st : TransactionStatus} (ht : st.isTerminal = true) {i : Nat}
    {σ : Session} {o : Effect} {w : World} (c : Outcome) (ho : SnapshotOf g σ w)
    (hp : registering.pre σ o) (hf : Fresh g o w) (hw : w.HasStatus g st) :
    (InMemory.exec i o c w).2.HasStatus g st := by
  obtain ⟨s, hs, hst⟩ := hw
  obtain ⟨s', hs', rfl | ⟨tx, -, hwr, -⟩ | ha⟩ := record_step hf ho hp i c hs
  · exact ⟨s', hs', hst⟩
  · -- a write would have to be over the terminal record itself
    have hm := hwr.moves
    rw [moves_of_isTerminal (hst ▸ ht)] at hm
    cases hm
  · have hl := ha.live
    rw [hst, ht] at hl
    cases hl

/-- **In the runs in which no write of a transaction is stale, its terminal status is
final.** -/
theorem terminal_status_final (dtm : Dtm) {g : String} {w : World} (hw : w.Keyed)
    (hh : w.history = []) {P Q : System}
    (hP : (inMemory.restrict (Fresh g)).Reaches (dtm.Programs fun _ => True) w P)
    (hQ : (inMemory.restrict (Fresh g)).Run (dtm.Programs fun _ => True) P Q)
    {st : TransactionStatus} (hs : P.world.HasStatus g st) (ht : st.isTerminal = true) :
    Q.world.HasStatus g st := by
  obtain ⟨hinv, hown⟩ := @fresh_start g w hw hh
  have hgood : (freshOutline g).Good P :=
    (freshOutline g).good_of_reaches hinv hown (fun _ => starts_registering) hP
  refine hgood.stays (fun w => w.HasStatus g st) (fun _ => starts_registering) ?_ ?_ hs hQ
  · exact fun c _ ho hp ha hφ => terminal_step ht c ho.2 hp ha.2 hφ
  · rintro w w' - ⟨now, rfl⟩ hφ
    exact hφ

/-- `schedule_abort` and `force_stop` after each other; a tick and a `reset_retry` follow. -/
theorem terminal_status_final_forced : ∃ P Q : System,
    (inMemory.restrict (Fresh "g")).Reaches (Dtm.plain.Programs fun _ => True)
      (.initial [.new 0 "g" .saga [.saga "b" "do" "undo" .null]]) P ∧
    (inMemory.restrict (Fresh "g")).Run (Dtm.plain.Programs fun _ => True) P Q ∧
    P.world.HasStatus "g" .failed ∧ Q.world.HasStatus "g" .failed := by
  obtain ⟨P, Q, hP, hQ, hφ, -⟩ := Dtm.exists_run_then (inMemory.restrict (Fresh "g")) .plain
    (fun _ => True) (.initial [.new 0 "g" .saga [.saga "b" "do" "undo" .null]])
    (.start (.scheduleAbort "g") :: .start (.forceStop "g") :: steps 0 2 true ++ steps 1 2 true)
    (.start .tickRecoverOnce :: .start (.resetRetry "g") :: steps 2 2 true ++ steps 3 1 true)
    (fun w => w.statusOf "g" = some .failed) (fun _ => true) (fun _ _ => trivial) (by decide)
  have hs : P.world.HasStatus "g" .failed := World.hasStatus_iff.mpr (of_decide_eq_true hφ)
  exact ⟨P, Q, hP, hQ, hs, terminal_status_final .plain (World.keyed_initial _) rfl hP hQ hs rfl⟩

/-- `schedule_abort` has read the record, `force_stop` makes it Failed, and `schedule_abort`
writes it back as Aborting. -/
theorem terminal_status_overwritten : ∃ P Q : System,
    inMemory.Reaches (Dtm.plain.Programs fun _ => True)
      (.initial [.new 0 "g" .saga [.saga "b" "do" "undo" .null]]) P ∧
    inMemory.Run (Dtm.plain.Programs fun _ => True) P Q ∧
    P.world.HasStatus "g" .failed ∧ Q.world.HasStatus "g" .aborting := by
  obtain ⟨P, Q, hP, hQ, hφ, hψ⟩ := Dtm.exists_run_then inMemory .plain
    (fun _ => True) (.initial [.new 0 "g" .saga [.saga "b" "do" "undo" .null]])
    (.start (.scheduleAbort "g") :: .start (.forceStop "g") :: steps 0 1 true ++ steps 1 2 true)
    (steps 0 1 true)
    (fun w => w.statusOf "g" = some .failed) (fun w => w.statusOf "g" = some .aborting)
    (fun _ _ => trivial) (by decide)
  exact ⟨P, Q, hP, hQ, World.hasStatus_iff.mpr (of_decide_eq_true hφ),
    World.hasStatus_iff.mpr (of_decide_eq_true hψ)⟩

end RozeDtm
