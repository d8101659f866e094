import RozeDtm.InMemory.Calls
import RozeDtm.InMemory.Versions

/-!
# A store with versions

What a store with compare-and-swap is for: it does what the in-memory store does, but takes a
write of a record only over the version that the record was made from; an operation whose write
is of an older one ends there.  Where a caller keeps the error of a store call the call may
fail, with its change made or not.  A listing is not of one moment and may be anything, and so
may what is said of a lease.

So each write is made from the latest version of its record (`versioned_within`), and
`versioned_step` and `versioned_laterVersion` are what follows for the record.
-/

namespace RozeDtm

open Conc

/-- A fence that passes the check that every function with a fence starts with. -/
def RecoveryLeaseFence.wellFormed (fence : RecoveryLeaseFence) : Bool :=
  !fence.name.isEmpty && fence.name.utf8ByteSize ≤ 128 && !fence.owner.isEmpty &&
    fence.owner.utf8ByteSize ≤ 128 && 0 < fence.epoch

/-- What the outside picks for a step. -/
structure VersionedOutcome where
  outcome : Outcome
  /-- The error that a call fails with, and whether its change is made. -/
  fault : Option (Err × Bool)
  listed : List Transaction
  lease : Option RecoveryLeaseFence

namespace Versioned

/-- What one step of operation `i` does. -/
def exec (i : Nat) : (o : Effect) → VersionedOutcome → World → o.Reply × World
  | .finishWorkflow gid status reason result, c, w =>
    InMemory.faulty c.fault (InMemory.finishWorkflow w gid status reason result) w
  | .deferWorkflowRecovery gid delay, c, w =>
    InMemory.faulty c.fault (InMemory.deferRecovery w gid delay) w
  | .listTransactions, c, w => (c.listed, w)
  | .acquireRecoveryLease _ _ _, c, w => (c.lease.filter RecoveryLeaseFence.wellFormed, w)
  | o, c, w => InMemory.exec i o c.outcome w

end Versioned

/-- Coordinator operations over a store with versions, with a clock that may show anything. -/
def versioned : Machine effects World VersionedOutcome where
  exec := Versioned.exec
  drift := ClockSet
  allow := fun o w => ∀ g, Fresh g o w

/-- **The runs over a store with versions are runs over the in-memory store in which every
write is fresh**, but for answers that no operation goes by. -/
theorem versioned_within (g : String) :
    versioned.Within (inMemory.restrict (Fresh g)) registering where
  allow := fun h => ⟨trivial, h g⟩
  exec := fun i (o : Effect) c w => by
    cases o with
    | finishWorkflow gid status reason result =>
      exact Or.inr ⟨fun _ _ => ⟨trivial, rfl⟩,
        (faulty_world ..).imp id fun h => ⟨c.outcome, h⟩⟩
    | deferWorkflowRecovery gid delay =>
      exact Or.inr ⟨fun _ _ => ⟨trivial, rfl⟩,
        (faulty_world ..).imp id fun h => ⟨c.outcome, h⟩⟩
    | listTransactions => exact Or.inr ⟨fun _ _ => ⟨trivial, rfl⟩, Or.inl rfl⟩
    | acquireRecoveryLease name owner ttlMillis =>
      exact Or.inr ⟨fun _ _ => ⟨trivial, rfl⟩, Or.inl rfl⟩
    | _ => exact Or.inl ⟨c.outcome, rfl⟩
  drift := id

/-- **The outline of the runs over a store with versions.** -/
def versionedOutline (g : String) : Outline versioned registering Session.start :=
  (freshOutline g).within (versioned_within g)

theorem versioned_good {dtm : Dtm} {ops : Operation → Prop} (g : String) {w : World}
    (hw : w.Keyed) (hh : w.history = []) {A : System}
    (hA : versioned.Reaches (dtm.Programs ops) w A) : (versionedOutline g).Good A :=
  withinOutline_good (versioned_within g) hw hh hA

/-! ### Records -/

/-- **What becomes of a stored record in one step**: nothing, or one change. -/
theorem versioned_step {g : String} {i : Nat} {σ : Session} {w : World} {o : Effect}
    (ho : (versionedOutline g).own i σ w) (hp : registering.pre σ o) (ha : versioned.allow o w)
    (c : VersionedOutcome) {s : Transaction} (hs : w.txs[g]? = some s) :
    ∃ s', (versioned.exec i o c w).2.txs[g]? = some s' ∧ (s' = s ∨ ChangedOnce s s') :=
  changedOnce_step (versioned_within g) ho hp ha c hs

/-- **Over a store with versions a record only advances.** -/
theorem versioned_laterVersion {dtm : Dtm} {ops : Operation → Prop} {g : String} {A B : System}
    (hA : (versionedOutline g).Good A) (hB : versioned.Run (dtm.Programs ops) A B)
    {s : Transaction} (hs : A.world.txs[g]? = some s) :
    ∃ s', B.world.txs[g]? = some s' ∧ LaterVersion s s' :=
  laterVersion_run (versioned_within g) hA hB hs

end RozeDtm
