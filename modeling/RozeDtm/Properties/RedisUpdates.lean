import RozeDtm.Conc.Linear
import RozeDtm.Properties.BarrierUse
import RozeDtm.Redis.Refines

/-!
# No update is lost over Redis

Any number of operations run over the Redis store, commands and scripts of theirs interleave in
any way, fail, or are done with their answers lost, and leases change hands.  As each call takes
effect at one of its commands, what the record under a gid goes through is what it goes through
over a store with versions: `redis_record_changes_once`, `redis_record_later` and
`redis_acknowledged_kept`.

The in-memory store has these properties only in runs without stale writes
(`terminal_status_final`, `registrations_kept`).
-/

namespace RozeDtm

open Conc

/-- The state of the Redis store and the coordinator operations under way over it. -/
abbrev RedisSystem := Pool redisSteps RedisState (Except Err (List Transaction))

/-- The programs of the operations in `ops` over the Redis store. -/
def Dtm.RedisPrograms (dtm : Dtm) (json : RedisJson) (pages : Nat) (ops : Operation → Prop) :
    Prog redisSteps (Except Err (List Transaction)) → Prop :=
  (RedisStore.handler json pages).Programs none (dtm.Programs ops)

/-- An operation over the Redis store. -/
abbrev Dtm.redisProg (dtm : Dtm) (json : RedisJson) (pages : Nat) (op : Operation) :
    Prog redisSteps (Except Err (List Transaction)) :=
  RedisStore.prog json pages (op.prog dtm)

/-- The payload under `g` is the text of a record with `φ`. -/
def RedisState.Holds (json : RedisJson) (s : RedisState) (g : String) (φ : Transaction → Prop) :
    Prop :=
  ∃ payload tx, s.keys.transactions g = some payload ∧ json.decode payload = .ok tx ∧ φ tx

theorem StoredAs.holds {json : RedisJson} {s : RedisState} {w : World} {g : String}
    {φ : Transaction → Prop} {tx : Transaction} (h : StoredAs json s w)
    (htx : w.txs[g]? = some tx) (hφ : φ tx) : s.Holds json g φ := by
  obtain ⟨payload, hp, hd⟩ := h.payload htx
  exact ⟨payload, tx, hp, hd, hφ⟩

/-! ### A small store -/

/-- `serde_json` on some transactions with their texts. -/
def RedisJson.ofTable (table : List (Transaction × String)) : RedisJson where
  encode := fun tx => ((table.find? fun entry => entry.1 = tx).map Prod.snd).elim (.error "") .ok
  decode := fun payload =>
    ((table.find? fun entry => entry.2 = payload).map Prod.fst).elim (.error "") .ok
  decodeKv := fun _ => .error ""

/-- Its texts are those of the transactions in the table. -/
theorem RedisJson.ofTable_encode {table : List (Transaction × String)} {tx : Transaction}
    {payload : String} (h : (ofTable table).encode tx = .ok payload) :
    ∃ entry ∈ table, entry.1 = tx := by
  simp only [ofTable] at h
  cases hfind : table.find? fun entry => entry.1 = tx with
  | none =>
    rw [hfind] at h
    cases h
  | some entry =>
    exact ⟨entry, List.mem_of_find?_eq_some hfind, by simpa using List.find?_some hfind⟩

theorem RedisJson.readsBack_iff {table : List (Transaction × String)} {payload : String} :
    (ofTable table).ReadsBack payload ↔ ∀ entry ∈ table,
      (ofTable table).encode entry.1 = .ok payload →
        (ofTable table).decode payload = .ok entry.1 ∧ entry.1.revision < u64Max := by
  constructor
  · intro h entry _ hencode
    exact h entry.1 hencode
  · intro h tx hencode
    obtain ⟨entry, hm, rfl⟩ := ofTable_encode hencode
    exact h entry hm hencode

instance (table : List (Transaction × String)) :
    DecidablePred (RedisJson.ofTable table).ReadsBack :=
  fun _ => decidable_of_iff _ RedisJson.readsBack_iff.symm

/-- The text of the XA transaction `g`. -/
def xaText (status branches : String) (revision : Nat) : String :=
  "\x7b\"gid\":\"g\",\"kind\":\"Xa\",\"status\":\"" ++ status ++ "\",\"branches\":[" ++
  branches ++ "],\"created_at_millis\":0,\"updated_at_millis\":0,\"revision\":" ++
  toString revision ++ ",\"timeout_millis\":null,\"options\":\x7b\"wait_result\":false," ++
  "\"concurrent\":false,\"delay_millis\":null,\"retry_interval_millis\":null," ++
  "\"request_timeout_millis\":null,\"retry_limit\":null,\"branch_headers\":\x7b\x7d\x7d," ++
  "\"metadata\":\x7b\x7d\x7d"

/-- The text of an XA branch. -/
def xaBranchText : String :=
  "\x7b\"id\":\"b\",\"kind\":\"XaAction\",\"action\":\"\",\"compensate\":null," ++
  "\"confirm\":\"commit\",\"cancel\":\"rollback\",\"payload\":null,\"status\":\"Pending\"," ++
  "\"attempts\":0,\"last_error\":null,\"next_retry_millis\":null,\"dependencies\":[]\x7d"

/-- An XA transaction without a branch, prepared, with a branch registered, and prepared with it. -/
def xaSubmitted : Transaction := .new 0 "g" .xa []

def xaPreparedEmpty : Transaction := { xaSubmitted with status := .prepared, revision := 2 }

def xaRegistered : Transaction :=
  { xaSubmitted with branches := [.xa "b" "commit" "rollback" .null], revision := 2 }

def xaPrepared : Transaction := { xaRegistered with status := .prepared, revision := 3 }

abbrev xaJson : RedisJson :=
  .ofTable [(xaSubmitted, xaText "Submitted" "" 1),
    (xaPreparedEmpty, xaText "Prepared" "" 2), (xaRegistered, xaText "Submitted" xaBranchText 2),
    (xaPrepared, xaText "Prepared" xaBranchText 3)]

/-- The keys of a store that holds only `payload`, under `g`. -/
def xaKeys (payload : String) : RedisState where
  keys := {
    barriers := ∅
    index := fun _ => ∅
    transactions := fun gid => if gid = "g" then some payload else none
    leases := fun _ => ⟨none, 0, 0⟩
    nowMillis := 0 }
  kv := fun _ => none
  clock := 0
  history := []
  granted := []

theorem storedAs_xaKeys {tx : Transaction} {payload : String} (hgid : tx.gid = "g")
    (hdecode : xaJson.decode payload = .ok tx) (hbound : tx.revision < u64Max) :
    StoredAs xaJson (xaKeys payload) (.initial [tx]) := by
  have hstored (gid : String) :
      (World.initial [tx]).txs[gid]? = if gid = "g" then some tx else none := by
    change (Std.ExtTreeMap.insert ∅ tx.gid tx)[gid]? = _
    rw [hgid, Std.ExtTreeMap.getElem?_insert]
    by_cases hg : gid = "g"
    · subst hg
      rfl
    · rw [if_neg hg, if_neg fun h => hg (Std.compare_eq_iff_eq.mp h).symm]
      rfl
  refine ⟨fun gid => ?_, fun gid tx' htx' => ?_, rfl, fun _ _ => rfl, rfl⟩
  · rw [hstored]
    by_cases hg : gid = "g"
    · simp only [xaKeys, if_pos hg, Option.map_some, hdecode]
    · simp only [xaKeys, if_neg hg, Option.map_none]
  · rw [hstored] at htx'
    split at htx'
    · cases htx'
      exact hbound
    · cases htx'

/-- The store with `xaSubmitted`, and the one with `xaPrepared`. -/
def xaStore : RedisState := xaKeys (xaText "Submitted" "" 1)

def xaPreparedStore : RedisState := xaKeys (xaText "Prepared" xaBranchText 3)

theorem storedAs_xaStore : StoredAs xaJson xaStore (.initial [xaSubmitted]) :=
  storedAs_xaKeys rfl (by decide +kernel) (by decide)

theorem storedAs_xaPreparedStore : StoredAs xaJson xaPreparedStore (.initial [xaPrepared]) :=
  storedAs_xaKeys rfl (by decide +kernel) (by decide)

/-- A command or script that is done; a call that returns in it returns `Ok`. -/
def RedisOutcome.done : RedisOutcome := ⟨.done, .ofOk true, 0, ["g"]⟩

section Compute

variable {dtm : Dtm} {json : RedisJson} {pages : Nat} {ops : Operation → Prop} {P Q : RedisSystem}

theorem Dtm.redisPrograms_of {p : Prog redisSteps (Except Err (List Transaction))}
    (h : ∃ op, ops op ∧ p = dtm.redisProg json pages op) : dtm.RedisPrograms json pages ops p := by
  obtain ⟨op, hop, rfl⟩ := h
  exact ⟨op.prog dtm, ⟨op, hop, rfl⟩, rfl⟩

variable [DecidablePred json.ReadsBack]

/-- A computed run over Redis is one. -/
theorem Dtm.redis_run_of_performAll? {moves : List (Move Operation RedisOutcome)}
    (hops : ∀ op, Move.start op ∈ moves → ops op)
    (h : (countedStore json).performAll? (dtm.redisProg json pages) P moves = some Q) :
    (countedStore json).Run (dtm.RedisPrograms json pages ops) P Q :=
  Relation.ReflTransGen.mono (fun _ _ hs => hs.mono fun _ => Dtm.redisPrograms_of) _ _
    (Machine.run_of_performAll? hops h)

theorem Dtm.redis_step_of_perform? {i : Nat} {c : RedisOutcome}
    (h : (countedStore json).perform? (dtm.redisProg json pages) P (.exec i c) = some Q) :
    (countedStore json).Step (dtm.RedisPrograms json pages ops) P Q := by
  have hs : (countedStore json).Step (fun p => ∃ op, ops op ∧ p = dtm.redisProg json pages op)
      P Q := Machine.step_of_perform? (fun _ hm => by cases hm) h
  exact hs.mono fun _ => Dtm.redisPrograms_of

end Compute

/-- `register_branch` of the branch of `xaRegistered`. -/
abbrev xaRegistration : Operation := .registerBranch "g" (.xa "b" "commit" "rollback" .null)

/-- What starts over the small store. -/
abbrev XaStarts : Prog redisSteps (Except Err (List Transaction)) → Prop :=
  Dtm.plain.RedisPrograms xaJson 1 fun _ => True

/-- `register_branch` over the small store, before its compare-and-swap and after it. -/
theorem xa_registers : ∃ P Q : RedisSystem,
    (countedStore xaJson).Run XaStarts ⟨xaStore, [some (Dtm.plain.redisProg xaJson 1
      xaRegistration)]⟩ P ∧
    (countedStore xaJson).Step XaStarts P Q ∧
    P.world.keys.transactions "g" = some (xaText "Submitted" "" 1) ∧
    Q.world.keys.transactions "g" = some (xaText "Submitted" xaBranchText 2) ∧
    Q.Returned 0 (.ok [xaRegistered]) := by
  have h : (((countedStore xaJson).performAll? (Dtm.plain.redisProg xaJson 1)
      ⟨xaStore, [some (Dtm.plain.redisProg xaJson 1 xaRegistration)]⟩
      (List.replicate 2 (.exec 0 .done))).any fun P =>
        decide (P.world.keys.transactions "g" = some (xaText "Submitted" "" 1)) &&
        ((countedStore xaJson).perform? (Dtm.plain.redisProg xaJson 1) P (.exec 0 .done)).any
          fun Q => decide (Q.world.keys.transactions "g" =
            some (xaText "Submitted" xaBranchText 2) ∧ Q.result? 0 = some (.ok [xaRegistered]))) =
      true := by decide +kernel
  obtain ⟨P, hP, h⟩ := Option.any_eq_true _ _ |>.mp h
  rw [Bool.and_eq_true, Option.any_eq_true] at h
  obtain ⟨hbefore, Q, hQ, hafter⟩ := h
  obtain ⟨hstored, hresult⟩ := of_decide_eq_true hafter
  exact ⟨P, Q, Dtm.redis_run_of_performAll? (fun _ _ => trivial) hP, Dtm.redis_step_of_perform? hQ,
    of_decide_eq_true hbefore, hstored, Pool.result?_eq_some.mp hresult⟩

theorem xa_reaches {P : RedisSystem} (h : (countedStore xaJson).Run XaStarts
    ⟨xaStore, [some (Dtm.plain.redisProg xaJson 1 xaRegistration)]⟩ P) :
    (countedStore xaJson).Reaches XaStarts xaStore P := by
  refine .head (.start _ ?_) h
  exact ⟨_, ⟨xaRegistration, trivial, rfl⟩, rfl⟩

section Runs

variable {dtm : Dtm} {json : RedisJson} {pages : Nat} {ops : Operation → Prop} {s : RedisState}
  {w : World} {P Q : RedisSystem}

theorem redisRefines_mode :
    (redisRefines json pages).mode none := fun f hf => by cases hf

/-- **Every run over Redis is one over a store with versions**: it leads to the world that the
keys hold, and an operation that has returned `Ok` has returned the same there. -/
theorem redis_runs_versioned (dtm : Dtm) (pages : Nat)
    (hs : StoredAs json s w)
    (hP : (countedStore json).Reaches (dtm.RedisPrograms json pages ops) s P) :
    ∃ A : System, versioned.Reaches (dtm.Programs ops) w A ∧ StoredAs json P.world A.world ∧
      ∀ (i : Nat) (txs : List Transaction), P.threads[i]? = some (some (.pure (.ok txs))) →
        A.threads[i]? = some (some (.pure (.ok txs))) := by
  obtain ⟨A, hA, hrel⟩ :=
    Refinement.Related.of_reaches (R := redisRefines json pages) redisRefines_mode hs hP
  exact ⟨A, hA, hrel.abs, fun i txs h => hrel.returned h⟩

/-- `register_branch` goes through. -/
theorem redis_runs_versioned_registered : ∃ P, (countedStore xaJson).Reaches XaStarts xaStore P ∧
    P.world.keys.transactions "g" = some (xaText "Submitted" xaBranchText 2) ∧
    ∃ A : System, versioned.Reaches (Dtm.plain.Programs fun _ => True)
      (.initial [xaSubmitted]) A ∧ StoredAs xaJson P.world A.world := by
  obtain ⟨P, Q, hP, hQ, -, hstored, -⟩ := xa_registers
  have hreaches := xa_reaches (hP.tail hQ)
  obtain ⟨A, hA, habs, -⟩ := redis_runs_versioned .plain 1 storedAs_xaStore hreaches
  exact ⟨Q, hreaches, hstored, A, hA, habs⟩

/-- What goes with a run over Redis. -/
theorem redis_matched (hs : StoredAs json s w) (hw : w.Keyed)
    (hh : w.history = [])
    (hP : (countedStore json).Reaches (dtm.RedisPrograms json pages ops) s P) :
    ∃ A : System, (redisRefines json pages).Related P A ∧
      ∀ g, (versionedOutline g).Good A := by
  obtain ⟨A, hA, hrel⟩ :=
    Refinement.Related.of_reaches (R := redisRefines json pages) redisRefines_mode hs hP
  exact ⟨A, hrel, fun g => versioned_good g hw hh hA⟩

/-- What a move of the operations over a store with versions makes of a record. -/
theorem versioned_changes_once {g : String} {A B : System} (hA : (versionedOutline g).Good A)
    (hB : versioned.Step (dtm.Programs ops) A B) {tx : Transaction}
    (htx : A.world.txs[g]? = some tx) :
    ∃ tx', B.world.txs[g]? = some tx' ∧ (tx' = tx ∨ ChangedOnce tx tx') := by
  rcases hB.world with hworld | ⟨now, hworld⟩ | ⟨i, o, c, habout, hallow, hworld⟩ <;> rw [hworld]
  · exact ⟨tx, htx, Or.inl rfl⟩
  · exact ⟨tx, htx, Or.inl rfl⟩
  · obtain ⟨-, σ, hown, hpre⟩ := hA.permitted habout
    exact versioned_step hown hpre hallow c htx

/-- Drifts do not touch the records. -/
theorem txs_of_drifts {w w' : World} (h : Relation.ReflTransGen versioned.drift w w') :
    w'.txs = w.txs := by
  induction h with
  | refl => rfl
  | tail _ hd ih =>
    obtain ⟨now, rfl⟩ := hd
    exact ih

/-- **No update is lost over Redis**: a command, script or failure leaves a record as it is, or
makes one change to the record that is stored at that moment, which has the next revision. -/
theorem redis_record_changes_once (dtm : Dtm) (pages : Nat)
    (hs : StoredAs json s w) (hw : w.Keyed) (hh : w.history = [])
    (hP : (countedStore json).Reaches (dtm.RedisPrograms json pages ops) s P)
    (hQ : (countedStore json).Step (dtm.RedisPrograms json pages ops) P Q) {g : String}
    {tx : Transaction} (htx : P.world.Holds json g (· = tx)) :
    Q.world.Holds json g fun tx' => tx' = tx ∨ ChangedOnce tx tx' := by
  obtain ⟨A, hrel, hgood⟩ := redis_matched hs hw hh hP
  obtain ⟨payload, tx, hp, hd, rfl⟩ := htx
  have hstored := hrel.abs.record hp hd
  obtain ⟨w₁, B, hdrift, hmove, hrel'⟩ := hrel.step redisRefines_mode hQ
  have hstored₁ : w₁.txs[g]? = some tx := by
    rw [txs_of_drifts hdrift]
    exact hstored
  rcases hmove with rfl | hmove
  · exact hrel'.abs.holds hstored₁ (Or.inl rfl)
  · have hrun : versioned.Run (dtm.Programs ops) A ⟨w₁, A.threads⟩ :=
      Refinement.run_drifts hdrift
    have hgood₁ := (hgood g).run (fun _ => starts_registering) hrun
    obtain ⟨tx', htx', hchange⟩ := versioned_changes_once hgood₁ hmove hstored₁
    exact hrel'.abs.holds htx' hchange

/-- The compare-and-swap of `register_branch` makes its change. -/
theorem redis_record_changes_once_swap : ∃ P Q,
    (countedStore xaJson).Reaches XaStarts xaStore P ∧ (countedStore xaJson).Step XaStarts P Q ∧
    P.world.Holds xaJson "g" (· = xaSubmitted) ∧ ¬ Q.world.Holds xaJson "g" (· = xaSubmitted) ∧
    Q.world.Holds xaJson "g" fun tx' => tx' = xaSubmitted ∨ ChangedOnce xaSubmitted tx' := by
  obtain ⟨P, Q, hP, hQ, hbefore, hafter, -⟩ := xa_registers
  have hholds : P.world.Holds xaJson "g" (· = xaSubmitted) :=
    ⟨_, _, hbefore, by decide +kernel, rfl⟩
  refine ⟨P, Q, xa_reaches hP, hQ, hholds, ?_, redis_record_changes_once .plain 1
    storedAs_xaStore (World.keyed_initial _) rfl (xa_reaches hP) hQ hholds⟩
  rintro ⟨payload, tx, hp, hd, rfl⟩
  rw [hafter] at hp
  cases hp
  revert hd
  decide +kernel

/-- **Over Redis a record only advances**: it stays under its gid, nothing is taken out of it,
its revision does not go back, and a terminal status stays. -/
theorem redis_record_later (dtm : Dtm) (pages : Nat)
    (hs : StoredAs json s w) (hw : w.Keyed) (hh : w.history = [])
    (hP : (countedStore json).Reaches (dtm.RedisPrograms json pages ops) s P)
    (hQ : (countedStore json).Run (dtm.RedisPrograms json pages ops) P Q) {g : String}
    {tx : Transaction} (htx : P.world.Holds json g (· = tx)) :
    Q.world.Holds json g (LaterVersion tx) := by
  obtain ⟨A, hrel, hgood⟩ := redis_matched hs hw hh hP
  obtain ⟨payload, tx, hp, hd, rfl⟩ := htx
  obtain ⟨B, hB, hrel'⟩ := hrel.run redisRefines_mode hQ
  obtain ⟨tx', htx', hlater⟩ := versioned_laterVersion (hgood g) hB (hrel.abs.record hp hd)
  exact hrel'.abs.holds htx' hlater

/-- `register_branch` goes through, and the record is a later version. -/
theorem redis_record_later_registered : ∃ Q, (countedStore xaJson).Reaches XaStarts xaStore Q ∧
    Q.world.keys.transactions "g" = some (xaText "Submitted" xaBranchText 2) ∧
    Q.world.Holds xaJson "g" (LaterVersion xaSubmitted) := by
  obtain ⟨P, Q, hP, hQ, -, hafter, -⟩ := xa_registers
  have hreaches := xa_reaches (hP.tail hQ)
  have hholds : xaStore.Holds xaJson "g" (· = xaSubmitted) := ⟨_, _, rfl, by decide +kernel, rfl⟩
  exact ⟨Q, hreaches, hafter, redis_record_later .plain 1 storedAs_xaStore
    (World.keyed_initial _) rfl (Machine.Reaches.refl ..) hreaches hholds⟩

/-! ### What was acknowledged -/

/-- The operations that register something in the record under `g`. -/
def Operation.AddsTo (g : String) : Operation → Prop
  | .registerBranch gid _ | .recordWorkflowProgress gid _ => gid = g
  | _ => False

/-- What they register is in a record. -/
def Operation.AddedTo (tx : Transaction) : Operation → Prop
  | .registerBranch _ branch => branch ∈ tx.branches
  | .recordWorkflowProgress _ progress => progress ∈ tx.workflowProgresses
  | _ => False

/-- The record that a change in place returns is the stored one. -/
theorem modify_returned {gid : String} {f : Transaction → Except Err Transaction} {i : Nat}
    {e : Event} {tx : Transaction}
    (h : (InMemory.noteOk i e (InMemory.modify w gid f)).1 = .ok tx) :
    ∃ before, f before = .ok tx ∧
      (InMemory.noteOk i e (InMemory.modify w gid f)).2.txs[gid]? = some tx := by
  rw [noteOk_txs]
  cases hstored : w.txs[gid]? with
  | none =>
    rw [InMemory.modify, hstored] at h
    cases h
  | some before =>
    rcases modify_cases (f := f) hstored with ⟨tx', hf, hmodify⟩ | ⟨e', -, hmodify⟩
    · rw [hmodify] at h ⊢
      cases h
      exact ⟨before, hf, Std.ExtTreeMap.getElem?_insert_self⟩
    · rw [hmodify] at h
      cases h

/-- A program of one change in place that has returned a record: it has stored the record, which
has only advanced since. -/
theorem versioned_acknowledged {o : Effect}
    {k : o.Reply → Prog effects (Except Err (List Transaction))}
    {A B : System} {i : Nat} {g : String} {txs : List Transaction} {φ : Transaction → Prop}
    (hA : (versionedOutline g).Good A) (hi : A.threads[i]? = some (some (.step o k)))
    (hk : ∀ r, ∃ b, k r = .pure b)
    (ho : ∀ c w, k (versioned.exec i o c w).1 = .pure (.ok txs) → ∃ tx, txs = [tx] ∧ φ tx ∧
      (versioned.exec i o c w).2.txs[g]? = some tx)
    (hB : versioned.Run (dtm.Programs ops) A B)
    (hreturned : B.threads[i]? = some (some (.pure (.ok txs)))) :
    ∃ tx tx', txs = [tx] ∧ φ tx ∧ B.world.txs[g]? = some tx' ∧ LaterVersion tx tx' := by
  obtain ⟨A', B', c, hA', -, -, hstep, hworld, hgo, hB'⟩ := Machine.Run.taken hB hi hk hreturned
  obtain ⟨tx, rfl, hφ, hstored⟩ := ho c A'.world hgo
  rw [← hworld] at hstored
  have hgood := (hA.run (fun _ => starts_registering) hA').step (fun _ => starts_registering) hstep
  obtain ⟨tx', htx', hlater⟩ := versioned_laterVersion hgood hB' hstored
  exact ⟨tx, tx', rfl, hφ, htx', hlater⟩

/-- What `Operation.act` makes of the answer to its only step. -/
abbrev oneAnswer (r : Except Err Transaction) : Prog effects (Except Err (List Transaction)) :=
  ((ExceptT.mk (.pure r) : Act Transaction) >>= fun tx => return [tx]).run

theorem one_returns (r : Except Err Transaction) : ∃ b, oneAnswer r = .pure b := by
  cases r with
  | ok tx => exact ⟨_, rfl⟩
  | error e => exact ⟨_, rfl⟩

theorem one_returned {r : Except Err Transaction} {tx : Transaction}
    (h : oneAnswer r = .pure (.ok [tx])) : r = .ok tx := by
  cases r with
  | ok tx' =>
    cases h
    rfl
  | error e => cases h

/-- **What was acknowledged over Redis stays**: when `register_branch` or
`record_workflow_progress` has returned `Ok` with a record, the branch or progress is in it, and
the stored record is a later version of it ever after. -/
theorem redis_acknowledged_kept (dtm : Dtm) (pages : Nat)
    (hs : StoredAs json s w) (hw : w.Keyed) (hh : w.history = [])
    (hP : (countedStore json).Reaches (dtm.RedisPrograms json pages ops) s P) {op : Operation}
    {g : String} {tx : Transaction} (hop : op.AddsTo g) (hops : ops op)
    (hQ : (countedStore json).Run (dtm.RedisPrograms json pages ops)
      ⟨P.world, P.threads ++ [some (dtm.redisProg json pages op)]⟩ Q)
    (hreturned : Q.threads[P.threads.length]? = some (some (.pure (.ok [tx])))) :
    op.AddedTo tx ∧ Q.world.Holds json g (LaterVersion tx) := by
  obtain ⟨A, hrel, hgood⟩ := redis_matched hs hw hh hP
  obtain ⟨B, hB, hrel'⟩ := (hrel.start redisRefines_mode (op.prog dtm)).run redisRefines_mode hQ
  have hgood₁ : (versionedOutline g).Good ⟨A.world, A.threads ++ [some (op.prog dtm)]⟩ :=
    (hgood g).step (fun _ => starts_registering) (.start (op.prog dtm) ⟨op, hops, rfl⟩)
  have hthread : B.threads[A.threads.length]? = some (some (.pure (.ok [tx]))) := by
    rw [hrel.length]
    exact hrel'.returned hreturned
  have hi : (A.threads ++ [some (op.prog dtm)])[A.threads.length]? = some (some (op.prog dtm)) :=
    List.getElem?_concat_length ..
  suffices hkept : ∃ tx' tx'', [tx] = [tx'] ∧ op.AddedTo tx' ∧
      B.world.txs[g]? = some tx'' ∧ LaterVersion tx' tx'' by
    obtain ⟨tx', tx'', heq, hin, hstored, hlater⟩ := hkept
    cases heq
    exact ⟨hin, hrel'.abs.holds hstored hlater⟩
  cases op with
  | registerBranch gid branch =>
    cases hop
    refine versioned_acknowledged (o := .registerBranch g branch) hgood₁ hi one_returns
      (fun c w' hgo => ?_) hB hthread
    obtain ⟨before, hf, hstored⟩ := modify_returned (one_returned hgo)
    refine ⟨tx, rfl, ?_, hstored⟩
    rcases appendDynamicBranch_ok hf with ⟨rfl, hm⟩ | ⟨-, -, hb⟩
    · exact hm
    · rw [Operation.AddedTo, hb]
      exact List.mem_append_right _ (List.mem_singleton_self _)
  | recordWorkflowProgress gid progress =>
    cases hop
    refine versioned_acknowledged (o := .recordWorkflowProgress g progress) hgood₁ hi
      one_returns
      (fun c w' hgo => ?_) hB hthread
    obtain ⟨before, hf, hstored⟩ := modify_returned (one_returned hgo)
    refine ⟨tx, rfl, ?_, hstored⟩
    rcases appendWorkflowProgress_ok hf with ⟨rfl, hm⟩ | ⟨-, -, hp⟩
    · exact hm
    · rw [Operation.AddedTo, hp]
      exact List.mem_append_right _ (List.mem_singleton_self _)
  | _ => exact hop.elim

/-- `register_branch` returns `Ok`, and the branch is stored. -/
theorem redis_acknowledged_kept_registered : ∃ Q, (countedStore xaJson).Run XaStarts
    ⟨xaStore, [some (Dtm.plain.redisProg xaJson 1 xaRegistration)]⟩ Q ∧
    Q.Returned 0 (.ok [xaRegistered]) ∧ xaRegistration.AddedTo xaRegistered ∧
    Q.world.Holds xaJson "g" (LaterVersion xaRegistered) := by
  obtain ⟨P, Q, hP, hQ, -, -, hreturned⟩ := xa_registers
  have hadds : xaRegistration.AddsTo "g" := rfl
  obtain ⟨hin, hstored⟩ := redis_acknowledged_kept .plain 1 storedAs_xaStore
    (World.keyed_initial _) rfl (Machine.Reaches.refl ..) hadds trivial (hP.tail hQ) hreturned
  exact ⟨Q, hP.tail hQ, hreturned, hin, hstored⟩

/-! ### Branch calls -/

/-- **At most one success per branch operation over Redis**, whatever fails and whoever holds the
recovery leases: when a call is issued, no call under its barrier has returned success before,
and at no time are two calls under one barrier in flight. -/
theorem redis_at_most_one_success (dtm : Dtm) (pages : Nat)
    (hs : StoredAs json s w) (hh : w.history = [])
    (hP : (countedStore json).Reaches (dtm.RedisPrograms json pages ops) s P) :
    (∀ h₁ h₂ i c, P.world.history = h₁ ++ (i, .began c) :: h₂ → ¬ Succeeded h₂ c.barrier) ∧
      ∀ h₁ h₂ b, P.world.history = h₁ ++ h₂ → issued h₂ b ≤ returned h₂ b + 1 := by
  obtain ⟨A, hA, hrel⟩ :=
    Refinement.Related.of_reaches (R := redisRefines json pages) redisRefines_mode hs hP
  -- the ledger does not go by the answers that differ over a store with versions
  have hgood : ((ledgerOutline.restrict (Fresh "")).within (versioned_within "")).Good A :=
    Outline.good_of_reaches _ (ledgerInv_of_nil hh)
      (fun i b k (hk : none = some k) => by cases hk) (fun _ => starts_registering) hA
  exact hgood.1.sound.once_of_filter hrel.abs.history

/-- `commit_xa` calls its branch, which returns success. -/
theorem redis_at_most_one_success_committed : ∃ P,
    (countedStore xaJson).Reaches XaStarts xaPreparedStore P ∧ P.world.history.length = 2 ∧
    ∀ h₁ h₂ i c, P.world.history = h₁ ++ (i, .began c) :: h₂ → ¬ Succeeded h₂ c.barrier := by
  have h : (((countedStore xaJson).performAll? (Dtm.plain.redisProg xaJson 1)
      (Pool.idle xaPreparedStore) (.start (.commitXa "g") ::
        List.replicate 4 (.exec 0 .done))).any fun P =>
          decide (P.world.history.length = 2)) = true := by decide +kernel
  obtain ⟨P, hP, hcalls⟩ := Option.any_eq_true _ _ |>.mp h
  have hreaches : (countedStore xaJson).Reaches XaStarts xaPreparedStore P :=
    Dtm.redis_run_of_performAll? (fun _ _ => trivial) hP
  exact ⟨P, hreaches, of_decide_eq_true hcalls,
    (redis_at_most_one_success .plain 1 storedAs_xaPreparedStore rfl hreaches).1⟩

end Runs

end RozeDtm
