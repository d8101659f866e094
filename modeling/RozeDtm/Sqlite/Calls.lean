import RozeDtm.InMemory.Calls
import RozeDtm.InMemory.Versions
import RozeDtm.Sqlite.Database

/-!
# What the calls of the SQLite store do

Each of them is what the in-memory store does, but for three things: a call whose caller keeps
its error may fail, with its change made or not; a listing is by time; and a recovery lease may
be refused although it is free, as when it was granted to the same owner a moment before.
-/

namespace RozeDtm

open Conc

/-- What the outside picks for a call. -/
structure SqliteCallOutcome where
  outcome : Outcome
  /-- The error that a call fails with, and whether its change is made. -/
  fault : Option (Err × Bool)
  order : List String
  refused : Bool

namespace SqliteCalls

/-- The transactions by time. -/
def listTransactions (order : List String) (w : World) : List Transaction :=
  (w.txs.toList.mergeSort fun a b => timeLe order (a.1, millisToColumn a.2.updatedAtMillis)
    (b.1, millisToColumn b.2.updatedAtMillis)).map Prod.snd

/-- What one step of operation `i` does. -/
def exec (i : Nat) : (o : Effect) → SqliteCallOutcome → World → o.Reply × World
  | .finishWorkflow gid status reason result, c, w =>
    InMemory.faulty c.fault (InMemory.finishWorkflow w gid status reason result) w
  | .deferWorkflowRecovery gid delay, c, w =>
    InMemory.faulty c.fault (InMemory.deferRecovery w gid delay) w
  | .listTransactions, c, w => (listTransactions c.order w, w)
  | .acquireRecoveryLease name owner ttlMillis, c, w =>
    if c.refused then (none, w) else InMemory.acquireRecoveryLease w name owner ttlMillis
  | o, c, w => InMemory.exec i o c.outcome w

end SqliteCalls

/-- Coordinator operations over such a store, with a clock that may show anything. -/
def sqliteCalls : Machine effects World SqliteCallOutcome where
  exec := SqliteCalls.exec
  drift := ClockSet
  allow := fun _ _ => True

/-- An outcome without faults. -/
def SqliteCallOutcome.plain : SqliteCallOutcome := ⟨⟨false, .error "", 0⟩, none, [], false⟩

/-- **The runs of these calls are runs over the in-memory store**, but for answers that no
operation goes by. -/
theorem sqliteCalls_within : sqliteCalls.Within inMemory registering where
  allow := fun h => h
  exec := fun i (o : Effect) c w => by
    cases o with
    | finishWorkflow gid status reason result =>
      exact Or.inr ⟨fun _ _ => ⟨trivial, rfl⟩,
        (faulty_world ..).imp id fun h => ⟨c.outcome, h⟩⟩
    | deferWorkflowRecovery gid delay =>
      exact Or.inr ⟨fun _ _ => ⟨trivial, rfl⟩,
        (faulty_world ..).imp id fun h => ⟨c.outcome, h⟩⟩
    | listTransactions => exact Or.inr ⟨fun _ _ => ⟨trivial, rfl⟩, Or.inl rfl⟩
    | acquireRecoveryLease name owner ttlMillis =>
      by_cases hrefused : c.refused = true
      · exact Or.inr ⟨fun _ _ => ⟨trivial, rfl⟩, Or.inl (congrArg Prod.snd (if_pos hrefused))⟩
      · exact Or.inl ⟨c.outcome, if_neg hrefused⟩
    | _ => exact Or.inl ⟨c.outcome, rfl⟩
  drift := id

end RozeDtm
