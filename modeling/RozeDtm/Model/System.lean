import RozeDtm.Conc.Alone
import RozeDtm.Model.Coordinator.Recover

/-!
# The coordinator as a system

Any number of operations under way over one store, each at any of its steps.  Runs of
the system start from a world with an empty record.
-/

namespace RozeDtm

open Conc

/-- A world and the coordinator operations under way in it. -/
abbrev System := Pool effects World (Except Err (List Transaction))

/-- The call that operation `i` is about to issue. -/
def callAhead (P : System) (i : Nat) : Option BranchCall :=
  match P.threads[i]? with
  | some (some (.step (.invokeBegin c) _)) => some c
  | _ => none

theorem callAhead_eq_some {P : System} {i : Nat} {c : BranchCall} (h : callAhead P i = some c) :
    P.AboutTo i (.invokeBegin c) := by
  rw [callAhead] at h
  split at h
  · rename_i k hi
    cases h
    exact ⟨k, hi⟩
  · cases h

/-- The programs of the operations in `ops`. -/
def Dtm.Programs (dtm : Dtm) (ops : Operation → Prop) :
    Prog effects (Except Err (List Transaction)) → Prop :=
  fun p => ∃ op, ops op ∧ p = op.prog dtm

/-- Every record lies under its own gid. -/
def World.Keyed (w : World) : Prop := ∀ gid (tx : Transaction), w.txs[gid]? = some tx → tx.gid = gid

theorem World.Keyed.put {w : World} (hw : w.Keyed) (tx : Transaction) : (w.put tx).Keyed := by
  intro gid tx' h
  rw [World.put_txs, Std.ExtTreeMap.getElem?_insert] at h
  split at h
  · rename_i hc
    cases h
    exact Std.compare_eq_iff_eq.mp hc
  · exact hw gid tx' h

/-- The world over some stored transactions, before any step is taken. -/
def World.initial (txs : List Transaction) : World :=
  txs.foldl World.put ⟨∅, fun _ => none, ∅, ∅, 0, []⟩

theorem World.keyed_initial (txs : List Transaction) : (World.initial txs).Keyed :=
  List.foldlRecOn txs World.put (fun _ _ h => by simp at h) fun _ hw tx _ => hw.put tx

theorem World.barriers_initial (txs : List Transaction) : (World.initial txs).barriers = ∅ :=
  @List.foldlRecOn _ _ (fun w : World => w.barriers = ∅) txs World.put _ rfl fun _ hw _ _ => hw

/-- An outcome in which the next call returns `ok`. -/
def Outcome.ofOk (ok : Bool) : Outcome where
  ok := ok
  callback := .error ""
  pick := 0

/-- Library functions for runs on small inputs: every text is a URL without a query. -/
def Libs.plain : Libs where
  url := {
    Url := String
    parse := some
    scheme := fun _ => "http"
    hasHost := fun _ => true
    username := fun _ => ""
    password := fun _ => none
    fragment := fun _ => none
    queryPairs := fun _ => []
    withQueryPairs := fun url pairs =>
      url ++ "?" ++ "&".intercalate (pairs.map fun (name, value) => name ++ "=" ++ value)
    toText := id }
  parseJson := fun _ => .error ""
  decodeBase64 := fun _ => .error ""
  parseSubscribers := fun _ => .error ""
  isHeaderName := fun _ => true
  isHeaderValue := fun _ => true

/-- A coordinator with the default settings over these. -/
def Dtm.plain : Dtm := ⟨.default, .plain⟩

instance (o : Effect) (w : World) : Decidable (inMemory.allow o w) := inferInstanceAs (Decidable True)

instance (o : Effect) (w : World) : Decidable (inMemoryOnward.allow o w) :=
  inferInstanceAs (Decidable True)

/-- Start operations and let numbered operations take steps. -/
abbrev SystemMove := Move Operation Outcome

/-- Operation `i` takes `n` steps; every call that comes back in them returns `ok`. -/
def steps (i n : Nat) (ok : Bool) : List SystemMove := List.replicate n (.exec i (.ofOk ok))

/-- A run of operations in `ops`, computed from its moves. -/
theorem Dtm.exists_run {C : Type} (M : Machine effects World C) [∀ o w, Decidable (M.allow o w)]
    (dtm : Dtm) (ops : Operation → Prop) (w : World) (moves : List (Move Operation C))
    (φ : World → Bool)
    (hops : ∀ op, Move.start op ∈ moves → ops op)
    (h : ((M.performAll? (Operation.prog dtm) (Pool.idle w) moves).any fun P => φ P.world) = true) :
    ∃ P : System, M.Reaches (dtm.Programs ops) w P ∧ φ P.world = true :=
  Machine.exists_of_performAll? hops h

/-- The same for a run in two parts. -/
theorem Dtm.exists_run_then (M : Machine effects World Outcome)
    [∀ o w, Decidable (M.allow o w)] (dtm : Dtm) (ops : Operation → Prop) (w : World)
    (moves moves' : List SystemMove) (φ ψ : World → Bool)
    (hops : ∀ op, Move.start op ∈ moves ++ moves' → ops op)
    (h : ((M.performAll? (Operation.prog dtm) (Pool.idle w) moves).any fun P => φ P.world &&
      (M.performAll? (Operation.prog dtm) P moves').any fun Q => ψ Q.world) = true) :
    ∃ P Q : System, M.Reaches (dtm.Programs ops) w P ∧ M.Run (dtm.Programs ops) P Q ∧
      φ P.world = true ∧ ψ Q.world = true :=
  Machine.exists_later_of_performAll? hops h

/-- Outcomes of `n` steps; every call that comes back in them returns `ok`. -/
def outcomes (n : Nat) (ok : Bool) : List Outcome := List.replicate n (.ofOk ok)

/-- Operations in `ops` one after another, computed from the outcomes of their steps. -/
theorem Dtm.exists_serial (M : Machine effects World Outcome) [∀ o w, Decidable (M.allow o w)]
    (dtm : Dtm) (ops : Operation → Prop) (w : World) (runs : List (Operation × List Outcome))
    (φ : World → Bool) (hops : ∀ r ∈ runs, ops r.1)
    (h : (M.finishAll? (Operation.prog dtm) w runs).any φ = true) :
    ∃ w' : World, M.Serial (dtm.Programs ops) w w' ∧ φ w' = true :=
  Machine.exists_of_finishAll? hops h

/-- The status of the record under a gid. -/
def World.statusOf (w : World) (gid : String) : Option TransactionStatus :=
  (w.txs[gid]?).map Transaction.status

/-- The record under `gid` has the status `st`. -/
def World.HasStatus (w : World) (gid : String) (st : TransactionStatus) : Prop :=
  ∃ s, w.txs[gid]? = some s ∧ s.status = st

theorem World.hasStatus_iff {w : World} {gid : String} {st : TransactionStatus} :
    w.HasStatus gid st ↔ w.statusOf gid = some st := Option.map_eq_some_iff.symm

end RozeDtm
