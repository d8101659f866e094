import RozeDtm.Conc.Linear
import RozeDtm.Properties.BarrierUse
import RozeDtm.Sqlite.Refines

/-!
# Runs over the SQLite store

Any number of operations run over the tables, statements of theirs interleave in any way, fail,
or are done with their answers lost.  Such a run is one over the calls of the in-memory store
(`sqlite_runs_in_memory`), and so at most one call of a branch operation succeeds in it
(`sqlite_at_most_one_success`).

Only runs count in which each record that is written reads back from its text; which ones do,
`Transaction.Typed.ofText_eq` says.
-/

namespace RozeDtm

open Conc

/-- The tables and the coordinator operations under way over them. -/
abbrev SqliteSystem := Pool sqliteSteps SqliteState (Except Err (List Transaction))

/-- The programs of the operations in `ops` over the SQLite store. -/
def Dtm.SqlitePrograms (dtm : Dtm) (floats : String → Option String) (ops : Operation → Prop) :
    Prog sqliteSteps (Except Err (List Transaction)) → Prop :=
  (SqliteStore.handler floats).Programs () (dtm.Programs ops)

/-- An operation over the SQLite store. -/
abbrev Dtm.sqliteProg (dtm : Dtm) (floats : String → Option String) (op : Operation) :
    Prog sqliteSteps (Except Err (List Transaction)) :=
  SqliteStore.prog floats (op.prog dtm)

section Compute

variable {floats : String → Option String} {dtm : Dtm} {ops : Operation → Prop}
  {P Q : SqliteSystem} {N : Machine sqliteSteps SqliteState SqliteOutcome}

theorem Dtm.sqlitePrograms_of {p : Prog sqliteSteps (Except Err (List Transaction))}
    (h : ∃ op, ops op ∧ p = dtm.sqliteProg floats op) : dtm.SqlitePrograms floats ops p := by
  obtain ⟨op, hop, rfl⟩ := h
  exact ⟨op.prog dtm, ⟨op, hop, rfl⟩, rfl⟩

/-- A computed run over the tables is one. -/
theorem Dtm.sqlite_run_of_performAll? [∀ o s, Decidable (N.allow o s)]
    {moves : List (Move Operation SqliteOutcome)}
    (hops : ∀ op, Move.start op ∈ moves → ops op)
    (h : N.performAll? (dtm.sqliteProg floats) P moves = some Q) :
    N.Run (dtm.SqlitePrograms floats ops) P Q :=
  Relation.ReflTransGen.mono (fun _ _ hs => hs.mono fun _ => Dtm.sqlitePrograms_of) _ _
    (Machine.run_of_performAll? hops h)

end Compute

/-! ### Records that count -/

/-- What a record is read back as, without the text in between. -/
def Transaction.readBack (floats : String → Option String) (tx : Transaction) :
    Except Err Transaction :=
  (Codec.JsonText.parse nestingLimit (Json.obj tx.entries).toDoc.chars).elim
    (.error "invalid JSON text") fun d => Transaction.fromValue floats (.ofDoc d)

theorem Transaction.ofText_eq_readBack (floats : String → Option String) (tx : Transaction) :
    Transaction.ofText floats tx.toText = tx.readBack floats := by
  rw [Transaction.ofText, Json.tree, Transaction.toText, Json.text, String.toList_ofList,
    Transaction.readBack]
  cases Codec.JsonText.parse nestingLimit (Json.obj tx.entries).toDoc.chars with
  | none => rfl
  | some d => rfl

instance (floats : String → Option String) (tx : Transaction) :
    Decidable (Transaction.ofText floats tx.toText = .ok tx) :=
  decidable_of_iff (tx.readBack floats = .ok tx) (by rw [tx.ofText_eq_readBack floats])

instance (b : BranchBarrier) : Decidable b.Plain :=
  inferInstanceAs (Decidable (_ ∧ _))

instance SqliteStep.decidableCounts (floats : String → Option String) :
    DecidablePred (SqliteStep.Counts floats)
  | .insertTransaction tx | .upsertTransaction tx | .swapTransaction _ _ tx =>
    inferInstanceAs (Decidable (Transaction.ofText floats tx.toText = .ok tx))
  | .barrier b | .deleteBarrier b => inferInstanceAs (Decidable b.Plain)
  | .renewLease _ _ _ expiresAtMillis | .insertLease _ _ expiresAtMillis =>
    inferInstanceAs (Decidable (expiresAtMillis < 2 ^ 63))
  | .selectTransaction _ | .selectTransactions | .begin | .rollback | .deleteTransaction _ _
  | .selectKv _ _ | .currentMillis | .invokeBegin _ | .invokeEnd _
  | .queryWorkflowCallback _ _ | .joinNext _ => inferInstanceAs (Decidable True)

instance (floats : String → Option String) (o : sqliteSteps.Op) (s : SqliteState) :
    Decidable ((countedSqlite floats).allow o s) :=
  @instDecidableAnd True _ _ (SqliteStep.decidableCounts floats o)

/-! ### Small tables -/

/-- Tables with nothing in them. -/
def SqliteState.empty : SqliteState where
  transactions := ∅
  kv := fun _ => none
  barriers := ∅
  leases := ∅
  clock := 0
  history := []

theorem storedIn_empty (floats : String → Option String) :
    StoredIn floats .empty (.initial []) where
  txs := fun _ => rfl
  barriers := rfl
  plain := fun b hb => absurd hb (Finset.notMem_empty b)
  kv := fun _ => rfl
  leases := fun _ => rfl
  bounded := fun _ _ h => absurd h (by simp [World.initial])
  history := rfl

/-- Tables with one record. -/
theorem storedIn_single {floats : String → Option String} {tx : Transaction}
    (h : Transaction.ofText floats tx.toText = .ok tx) :
    StoredIn floats (SqliteState.empty.put tx.gid tx) (.initial [tx]) :=
  (storedIn_empty floats).put ⟨rfl, rfl, rfl, rfl, rfl⟩ h

/-- A statement that is done, and a call that returns `Ok`. -/
def SqliteOutcome.done : SqliteOutcome := ⟨.done, .ofOk true, []⟩

section Runs

variable {dtm : Dtm} {floats : String → Option String} {ops : Operation → Prop} {s : SqliteState}
  {w : World} {P Q : SqliteSystem}

/-- **Every run over the tables is one over the calls of the in-memory store**: it leads to the
world that the tables hold, and an operation that has returned `Ok` has returned the same
there. -/
theorem sqlite_runs_in_memory (dtm : Dtm) (hs : StoredIn floats s w)
    (hP : (countedSqlite floats).Reaches (dtm.SqlitePrograms floats ops) s P) :
    ∃ A : System, sqliteCalls.Reaches (dtm.Programs ops) w A ∧ StoredIn floats P.world A.world ∧
      ∀ (i : Nat) (txs : List Transaction), P.threads[i]? = some (some (.pure (.ok txs))) →
        A.threads[i]? = some (some (.pure (.ok txs))) := by
  obtain ⟨A, hA, hrel⟩ := Refinement.Related.of_reaches (R := sqliteRefines floats) trivial hs hP
  exact ⟨A, hA, hrel.abs, fun i txs h => hrel.returned h⟩

/-- `submit` is done at its INSERT, whose answer is lost. -/
theorem sqlite_runs_in_memory_submitted : ∃ P,
    (countedSqlite fun _ => none).Reaches (Dtm.plain.SqlitePrograms (fun _ => none) fun _ => True)
      .empty P ∧
    P.world.transactions.contains "g" = true ∧
    ∃ A : System, sqliteCalls.Reaches (Dtm.plain.Programs fun _ => True) (.initial []) A ∧
      StoredIn (fun _ => none) P.world A.world := by
  have h : (((countedSqlite fun _ => none).performAll? (Dtm.plain.sqliteProg fun _ => none)
      (Pool.idle .empty) [.start (.submit (.new 5 "g" .xa [])),
        .exec 0 ⟨.lost, .ofOk true, []⟩]).any fun P =>
          P.world.transactions.contains "g") = true := by decide +kernel
  obtain ⟨P, hP, hstored⟩ := (Option.any_eq_true _ _).mp h
  have hreaches : (countedSqlite fun _ => none).Reaches
      (Dtm.plain.SqlitePrograms (fun _ => none) fun _ => True) .empty P :=
    Dtm.sqlite_run_of_performAll? (fun _ _ => trivial) hP
  obtain ⟨A, hA, habs, -⟩ := sqlite_runs_in_memory .plain (storedIn_empty _) hreaches
  exact ⟨P, hreaches, hstored, A, hA, habs⟩

/-- **What an outline shows of the in-memory store holds of the tables**: of the world that they
hold, at every moment of every run. -/
theorem StoredIn.outlined {T : Type} {t₀ : T} {E : Discipline effects T}
    (O : Outline inMemory E t₀) (hE : sqliteCalls.Within inMemory E) (hinv : O.inv w)
    (hown : ∀ i, O.own i t₀ w)
    (hfollows : ∀ p, dtm.Programs ops p → E.Follows p t₀ fun _ _ => True)
    (hs : StoredIn floats s w)
    (hP : (countedSqlite floats).Reaches (dtm.SqlitePrograms floats ops) s P) :
    ∃ w', StoredIn floats P.world w' ∧ O.inv w' := by
  obtain ⟨A, hA, hrel⟩ := Refinement.Related.of_reaches (R := sqliteRefines floats) trivial hs hP
  have hgood : (O.within hE).Good A := Outline.good_of_reaches _ hinv hown hfollows hA
  exact ⟨A.world, hrel.abs, hgood.1⟩

/-- **At most one success per branch operation over the tables**: when a call is issued, no call
under its barrier has returned success before, and at no time are two calls under one barrier in
flight. -/
theorem sqlite_at_most_one_success (dtm : Dtm) (hs : StoredIn floats s w) (hh : w.history = [])
    (hP : (countedSqlite floats).Reaches (dtm.SqlitePrograms floats ops) s P) :
    (∀ h₁ h₂ i c, P.world.history = h₁ ++ (i, .began c) :: h₂ → ¬ Succeeded h₂ c.barrier) ∧
      ∀ h₁ h₂ b, P.world.history = h₁ ++ h₂ → issued h₂ b ≤ returned h₂ b + 1 := by
  obtain ⟨w', hs', hinv⟩ := hs.outlined ledgerOutline sqliteCalls_within (ledgerInv_of_nil hh)
    (fun i b k (hk : none = some k) => by cases hk) (fun _ => starts_registering) hP
  exact hinv.sound.once_of_filter hs'.history

/-! ### A call that is issued -/

/-- What a program goes on with when it has loaded a record. -/
def loadedWith {α : Type} (tx : Transaction) : Prog effects α → Prog effects α
  | .step (.getTransaction _) k => k (some tx)
  | p => p

/-- The SELECT with which a record is loaded, and what is gone on with after it. -/
theorem sqlite_loads (floats : String → Option String)
    {p : Prog effects (Except Err (List Transaction))} {gid : String}
    (hp : p.next? = some (.getTransaction gid)) :
    ∃ k : Except Err (Option String) → Prog sqliteSteps (Except Err (List Transaction)),
      SqliteStore.prog floats p = .step (.selectTransaction gid) k ∧
      ∀ payload, k (.ok (some payload)) = match Transaction.ofText floats payload with
        | .ok tx => SqliteStore.prog floats (loadedWith tx p)
        | .error e => .pure (.error e) := by
  obtain ⟨k, rfl⟩ := Prog.next?_eq_some hp
  refine ⟨_, rfl, fun payload => ?_⟩
  change ((ExceptT.mk (.pure ((Transaction.ofText floats payload).map some)) :
    SqliteAct (Option Transaction)) >>= fun r => ExceptT.mk ((k r).through _ ())).run = _
  cases Transaction.ofText floats payload with
  | ok tx => rfl
  | error e => rfl

/-- The SELECT of a row that is there. -/
theorem sqlite_selects {N : Machine sqliteSteps SqliteState SqliteOutcome}
    {starts : Prog sqliteSteps (Except Err (List Transaction)) → Prop} {gid payload : String}
    {updatedAtMillis : Int}
    {k : Except Err (Option String) → Prog sqliteSteps (Except Err (List Transaction))}
    (hexec : N.exec = SqliteState.exec) (hallow : N.allow (.selectTransaction gid) s)
    (hrow : s.transactions[gid]? = some ⟨payload, updatedAtMillis⟩) :
    N.Step starts ⟨s, [some (.step (.selectTransaction gid) k)]⟩
      ⟨s, [some (k (.ok (some payload)))]⟩ := by
  have hstep : N.Step starts ⟨s, [some (.step (.selectTransaction gid) k)]⟩ _ :=
    Machine.Step.alone N (SqliteStep.selectTransaction gid) k .done hallow
  have hanswer : N.exec 0 (.selectTransaction gid) .done s =
      ((.ok (some payload) : Except Err (Option String)), s) := by
    rw [hexec]
    change ((.ok ((s.transactions[gid]?).map (·.payload)) : Except Err (Option String)), s) = _
    rw [hrow]
    rfl
  rwa [hanswer] at hstep

/-- An operation that loads a record has started, and its SELECT is done. -/
theorem sqlite_run_loaded {op : Operation} {gid payload : String} {tx : Transaction}
    {updatedAtMillis : Int} (hops : ops op)
    (hop : (op.prog dtm).next? = some (.getTransaction gid))
    (hrow : s.transactions[gid]? = some ⟨payload, updatedAtMillis⟩)
    (htx : Transaction.ofText floats payload = .ok tx) :
    (countedSqlite floats).Reaches (dtm.SqlitePrograms floats ops) s
      ⟨s, [some (SqliteStore.prog floats (loadedWith tx (op.prog dtm)))]⟩ := by
  obtain ⟨k, hfirst, hnext⟩ := sqlite_loads floats hop
  have hload : (countedSqlite floats).Step (dtm.SqlitePrograms floats ops)
      ⟨s, [some (.step (.selectTransaction gid) k)]⟩ ⟨s, [some (k (.ok (some payload)))]⟩ :=
    sqlite_selects (N := countedSqlite floats) rfl ⟨trivial, trivial⟩ hrow
  rw [hnext, htx] at hload
  refine .head ?_ (.single hload)
  rw [← hfirst]
  exact .start _ ⟨op.prog dtm, ⟨op, hops, rfl⟩, rfl⟩

/-- An XA transaction that is prepared, with one branch. -/
def xaToCommit : Transaction :=
  { Transaction.new 5 "g" .xa [.xa "b" "commit" "rollback" .null] with status := .prepared }

/-- `commit_xa` calls its branch, which returns success. -/
theorem sqlite_at_most_one_success_committed : ∃ P,
    (countedSqlite fun _ => none).Reaches (Dtm.plain.SqlitePrograms (fun _ => none) fun _ => True)
      (SqliteState.empty.put "g" xaToCommit) P ∧ P.world.history.length = 2 ∧
    ∀ h₁ h₂ i c, P.world.history = h₁ ++ (i, .began c) :: h₂ → ¬ Succeeded h₂ c.barrier := by
  have hread : Transaction.ofText (fun _ => none) xaToCommit.toText = .ok xaToCommit := by
    decide +kernel
  have hrow : (SqliteState.empty.put "g" xaToCommit).transactions["g"]? =
      some ⟨xaToCommit.toText, 5⟩ := Std.ExtTreeMap.getElem?_insert_self
  have hloaded : (countedSqlite fun _ => none).Reaches
      (Dtm.plain.SqlitePrograms (fun _ => none) fun _ => True)
      (SqliteState.empty.put "g" xaToCommit)
      ⟨_, [some (SqliteStore.prog (fun _ => none)
        (loadedWith xaToCommit ((Operation.commitXa "g").prog Dtm.plain)))]⟩ :=
    sqlite_run_loaded trivial rfl hrow hread
  have h : (((countedSqlite fun _ => none).performAll? (Dtm.plain.sqliteProg fun _ => none)
      ⟨SqliteState.empty.put "g" xaToCommit, [some (SqliteStore.prog (fun _ => none)
        (loadedWith xaToCommit ((Operation.commitXa "g").prog Dtm.plain)))]⟩
      (List.replicate 3 (.exec 0 .done))).any fun P =>
          decide (P.world.history.length = 2)) = true := by decide +kernel
  obtain ⟨P, hP, hcalls⟩ := (Option.any_eq_true _ _).mp h
  have hreaches := hloaded.trans (Dtm.sqlite_run_of_performAll? (fun _ _ => trivial) hP)
  exact ⟨P, hreaches, of_decide_eq_true hcalls,
    (sqlite_at_most_one_success .plain (storedIn_single hread) rfl hreaches).1⟩

end Runs

end RozeDtm
