import RozeDtm.Redis.Server
import RozeDtm.Redis.Versioned

/-!
# The world that the Redis store holds

`StoredAs` says which world the keys of the store hold: the payloads are the texts of its
records.  A call that writes takes effect at the compare-and-swap that succeeds: the payload
that it replaces is the one that the call has read, so the record is still the one that it has
checked or changed (`servesLast_updateTransaction`, `servesLast_mutateLoop`).
-/

namespace RozeDtm

open Conc

/-- The keys of the store hold the world `w`, with revisions that can still be counted. -/
structure StoredAs (json : RedisJson) (s : RedisState) (w : World) : Prop where
  txs : ∀ gid : String, (s.keys.transactions gid).map json.decode = (w.txs[gid]?).map .ok
  bounded : ∀ (gid : String) (tx : Transaction), w.txs[gid]? = some tx → tx.revision < u64Max
  barriers : w.barriers = s.keys.barriers
  kv : ∀ category key, w.kv (category, key) =
    (s.kv (kvField category key)).bind fun payload => (json.decodeKv payload).toOption
  history : s.history = w.history.filter fun p => p.2.isBranchCall

/-- Whether a payload reads back as the record that it is written from, with a revision that can
be counted. -/
def RedisJson.ReadsBack (json : RedisJson) (payload : String) : Prop :=
  ∀ tx, json.encode tx = .ok payload → json.decode payload = .ok tx ∧ tx.revision < u64Max

/-- A step that writes a payload only if it reads back; retention does not run. -/
def RedisStep.Counts (json : RedisJson) : RedisStep → Prop
  | .hsetnx _ payload | .casHashField _ _ _ payload => json.ReadsBack payload
  | .command (.deleteTransactionIfUnchanged _ _ _) => False
  | _ => True

instance (json : RedisJson) [DecidablePred json.ReadsBack] (o : redisSteps.Op) :
    Decidable (RedisStep.Counts json o) :=
  match o with
  | .hsetnx _ payload | .casHashField _ _ _ payload =>
    inferInstanceAs (Decidable (json.ReadsBack payload))
  | .command (.deleteTransactionIfUnchanged _ _ _) => inferInstanceAs (Decidable False)
  | .command (.barrierDecision _ _ _ _ _) | .command (.fencedBarrierDecision _ _ _ _ _ _)
  | .command (.hdel _) | .command (.srem _ _) | .command (.fencedDelete _ _ _)
  | .command (.hgetTransaction _) | .hscan _ | .hgetKv _ | .acquireRecoveryLease _ _ _
  | .currentMillis | .invokeBegin _ | .invokeEnd _ | .queryWorkflowCallback _ _ | .joinNext _ =>
    inferInstanceAs (Decidable True)

/-- Operations over the Redis store while payloads read back. -/
def countedStore (json : RedisJson) : Machine redisSteps RedisState RedisOutcome :=
  redisStore.restrict fun o _ => RedisStep.Counts json o

instance (json : RedisJson) [DecidablePred json.ReadsBack] (o : redisSteps.Op) (s : RedisState) :
    Decidable ((countedStore json).allow o s) :=
  inferInstanceAs (Decidable (True ∧ RedisStep.Counts json o))

namespace RedisState

/-- Write a payload. -/
def withPayload (s : RedisState) (gid payload : String) : RedisState :=
  { s with keys := { s.keys with
      transactions := Function.update s.keys.transactions gid (some payload) } }

end RedisState

namespace StoredAs

variable {json : RedisJson} {s s' : RedisState} {w w' : World}

/-- What the abstraction does not see. -/
theorem same (h : StoredAs json s w) (ht : s'.keys.transactions = s.keys.transactions)
    (hb : s'.keys.barriers = s.keys.barriers) (hk : s'.kv = s.kv) (hh : s'.history = s.history) :
    StoredAs json s' w where
  txs := fun gid => ht ▸ h.txs gid
  bounded := h.bounded
  barriers := h.barriers.trans hb.symm
  kv := fun category key => hk ▸ h.kv category key
  history := hh.trans h.history

theorem clock (h : StoredAs json s w) (now : Nat) : StoredAs json s { w with clock := now } :=
  ⟨h.txs, h.bounded, h.barriers, h.kv, h.history⟩

/-- The record that a payload is the text of. -/
theorem record {gid payload : String} {tx : Transaction} (h : StoredAs json s w)
    (hp : s.keys.transactions gid = some payload) (hd : json.decode payload = .ok tx) :
    w.txs[gid]? = some tx := by
  have htxs := h.txs gid
  rw [hp, Option.map_some, hd] at htxs
  obtain ⟨tx', htx', hok⟩ := Option.map_eq_some_iff.mp htxs.symm
  cases hok
  exact htx'

theorem payload {gid : String} {tx : Transaction} (h : StoredAs json s w)
    (htx : w.txs[gid]? = some tx) :
    ∃ payload, s.keys.transactions gid = some payload ∧ json.decode payload = .ok tx := by
  have htxs := h.txs gid
  rw [htx, Option.map_some] at htxs
  exact Option.map_eq_some_iff.mp htxs

theorem absent {gid : String} (h : StoredAs json s w) :
    s.keys.transactions gid = none ↔ w.txs[gid]? = none := by
  have htxs := h.txs gid
  rw [← Option.map_eq_none_iff (f := json.decode), htxs, Option.map_eq_none_iff]

/-- **A record is written**, below as its text. -/
theorem stores {gid payload : String} {tx : Transaction} (h : StoredAs json s w)
    (hw : World.Stores gid tx w w') (hd : json.decode payload = .ok tx)
    (hb : tx.revision < u64Max) : StoredAs json (s.withPayload gid payload) w' where
  txs := fun g => by
    simp only [RedisState.withPayload, hw.txs, Std.ExtTreeMap.getElem?_insert]
    by_cases hg : g = gid
    · subst hg
      rw [Function.update_self, if_pos (by simp), Option.map_some, Option.map_some, hd]
    · rw [Function.update_of_ne hg, if_neg (by simpa using Ne.symm hg)]
      exact h.txs g
  bounded := fun g tx' htx' => by
    rw [hw.txs, Std.ExtTreeMap.getElem?_insert] at htx'
    split at htx'
    · cases htx'
      exact hb
    · exact h.bounded g tx' htx'
  barriers := hw.barriers.trans h.barriers
  kv := fun category key => by
    rw [hw.kv]
    exact h.kv category key
  history := h.history.trans hw.history.symm

/-- A step that writes no record is allowed above. -/
theorem fresh {o : Effect} (h : StoredAs json s w) (ho : o.write? = none) (g : String) :
    Fresh g o w :=
  ⟨fun tx htx => h.bounded g tx htx, fun tx htx => by rw [ho] at htx; cases htx⟩

end StoredAs

/-! ### The steps one by one -/

section Steps

variable {json : RedisJson} {i : Nat}

theorem unseen_of_done {o : RedisStep}
    (h : ∀ c s w, StoredAs json s w → StoredAs json (RedisState.done i c s o).2 w) :
    Unseen (countedStore json) (StoredAs json) i o := by
  intro s w c hs _
  change StoredAs json (RedisState.exec i o c s).2 w
  rcases RedisState.exec_cases i o c s with he | ⟨-, -, -, he | he⟩ <;> rw [he]
  · exact h c s w hs
  · exact hs
  · exact h c s w hs

theorem unseen_hgetTransaction (gid : String) :
    Unseen (countedStore json) (StoredAs json) i (.command (.hgetTransaction gid)) :=
  unseen_of_done fun _ _ _ hs => hs

theorem unseen_srem (gid : String) (field : BranchBarrier) :
    Unseen (countedStore json) (StoredAs json) i (.command (.srem gid field)) :=
  unseen_of_done fun _ _ _ hs => hs.same rfl rfl rfl rfl

theorem unseen_hscan (cursor : Nat) :
    Unseen (countedStore json) (StoredAs json) i (.hscan cursor) :=
  unseen_of_done fun _ _ _ hs => hs

theorem unseen_currentMillis : Unseen (countedStore json) (StoredAs json) i .currentMillis :=
  unseen_of_done fun _ _ _ hs => hs

theorem done_acquireRecoveryLease {c : RedisOutcome} {s : RedisState} {w : World}
    {name owner : String} {ttlMillis : Nat} (hs : StoredAs json s w) :
    StoredAs json (s.done i c (.acquireRecoveryLease name owner ttlMillis)).2 w := by
  simp only [RedisState.done, RedisState.grant, RedisWorld.acquireRecoveryLease]
  split <;> split <;> exact hs.same rfl rfl rfl rfl

/-- What comes of a step that writes a payload when `cond` holds: it changes nothing and is not
answered with 1, or it has written the payload. -/
def Puts (cond : Prop) (gid payload : String) (s : RedisState)
    (done : Except Err Int × RedisState) : Prop :=
  (done.2 = s ∧ done.1 ≠ .ok 1) ∨
  (cond ∧ done.2 = s.withPayload gid payload ∧ (done.1 = .ok 1 ∨ ∃ e, done.1 = .error e))

/-- The same where the answer may be lost. -/
theorem Puts.exec {cond : Prop} {gid payload : String} {s : RedisState} {e : Err}
    {done exec : Except Err Int × RedisState} (h : Puts cond gid payload s done)
    (hexec : exec = done ∨ exec = (.error e, s) ∨ exec = (.error e, done.2)) :
    Puts cond gid payload s exec := by
  rcases hexec with rfl | rfl | rfl
  · exact h
  · exact Or.inl ⟨rfl, fun h => by cases h⟩
  · rcases h with ⟨hs, -⟩ | ⟨hc, hs, -⟩
    · exact Or.inl ⟨hs, fun h => by cases h⟩
    · exact Or.inr ⟨hc, hs, Or.inr ⟨e, rfl⟩⟩

theorem puts_casHashField (fence : Option RecoveryLeaseFence) (gid previous payload : String)
    (c : RedisOutcome) (s : RedisState) :
    Puts (s.keys.PassesFence fence ∧ s.keys.transactions gid = some previous) gid payload s
      (s.exec i (.casHashField fence gid previous payload) c) := by
  have hdone : Puts (s.keys.PassesFence fence ∧ s.keys.transactions gid = some previous)
      gid payload s (s.done i c (.casHashField fence gid previous payload)) := by
    simp only [RedisState.done, RedisWorld.casHashField]
    by_cases hf : s.keys.PassesFence fence
    · rw [if_neg (not_not.mpr hf)]
      cases hc : s.keys.transactions gid with
      | none => exact Or.inl ⟨rfl, fun h => by cases h⟩
      | some current =>
        by_cases hp : current = previous
        · subst hp
          exact Or.inr ⟨⟨hf, rfl⟩, by simp [RedisState.withPayload], Or.inl (by simp)⟩
        · simp only [if_pos hp]
          exact Or.inl ⟨rfl, fun h => by cases h⟩
    · rw [if_pos hf]
      exact Or.inl ⟨rfl, fun h => by cases h⟩
  refine hdone.exec (e := "Redis operation failed") ?_
  rw [RedisState.exec.eq_def]
  cases c.fate with
  | done => exact Or.inl rfl
  | failed => exact Or.inr (Or.inl rfl)
  | lost => exact Or.inr (Or.inr rfl)

theorem puts_hsetnx (gid payload : String) (c : RedisOutcome) (s : RedisState) :
    Puts (s.keys.transactions gid = none) gid payload s (s.exec i (.hsetnx gid payload) c) := by
  have hdone : Puts (s.keys.transactions gid = none) gid payload s
      (s.done i c (.hsetnx gid payload)) := by
    simp only [RedisState.done, RedisWorld.hsetnx]
    cases hc : s.keys.transactions gid with
    | none => exact Or.inr ⟨rfl, rfl, Or.inl rfl⟩
    | some current => exact Or.inl ⟨rfl, fun h => by cases h⟩
  refine hdone.exec (e := "Redis operation failed") ?_
  rw [RedisState.exec.eq_def]
  cases c.fate with
  | done => exact Or.inl rfl
  | failed => exact Or.inr (Or.inl rfl)
  | lost => exact Or.inr (Or.inr rfl)

end Steps

/-! ### Writes -/

section Writes

variable {json : RedisJson} {i : Nat} {α : Type}

theorem reads_ofExcept (e : Except Err α) :
    Reads (countedStore json) (StoredAs json) i (RedisStore.ofExcept e) fun a => e = .ok a :=
  fun _ ha => ha

theorem reads_ask {o : RedisStep} (h : Unseen (countedStore json) (StoredAs json) i o) :
    Reads (countedStore json) (StoredAs json) i (RedisStore.ask o) fun _ => True :=
  Discipline.does_perform.mpr ⟨h, fun _ _ => trivial⟩

theorem reads_transactionPayload (gid : String) :
    Reads (countedStore json) (StoredAs json) i (RedisStore.transactionPayload gid)
      fun _ => True :=
  Discipline.does_bind.mpr ((reads_ask (unseen_hgetTransaction gid)).mono fun _ r _ =>
    (reads_ofExcept r).mono fun _ _ _ => trivial)

theorem reads_storedPayload (gid : String) :
    Reads (countedStore json) (StoredAs json) i (RedisStore.storedPayload gid) fun _ => True :=
  Discipline.does_bind.mpr ((reads_transactionPayload gid).mono fun _ _ _ =>
    (reads_ofExcept _).mono fun _ _ _ => trivial)

variable {o : Effect} {reply : Except Err α → o.Reply}

/-- **A call whose deciding step writes a payload**: if it does, `o` has its effect above. -/
theorem Puts.decides {cond : Prop} {gid payload : String} {s : RedisState} {w : World}
    {done : Except Err Int × RedisState} {k : Except Err Int → RedisAct α}
    (h : Puts cond gid payload s done) (hs : StoredAs json s w)
    (hgo : cond → ∃ now d a w', versioned.allow o { w with clock := now } ∧
        versioned.exec i o d { w with clock := now } = (reply (.ok a), w') ∧
        StoredAs json (s.withPayload gid payload) w' ∧ (k (.ok 1)).run = .pure (.ok a))
    (hrest : ∀ r, r ≠ .ok 1 →
      ServesLast (countedStore json) versioned (StoredAs json) i o reply (k r).run)
    (herror : ∀ e, ∃ e', (k (.error e)).run = .pure (.error e')) :
    (StoredAs json done.2 w ∧
      ServesLast (countedStore json) versioned (StoredAs json) i o reply (k done.1).run) ∨
    ∃ w₁ d a w', Relation.ReflTransGen versioned.drift w w₁ ∧ versioned.allow o w₁ ∧
      versioned.exec i o d w₁ = (reply (.ok a), w') ∧ StoredAs json done.2 w' ∧
      ((k done.1).run = .pure (.ok a) ∨ ∃ e, (k done.1).run = .pure (.error e)) := by
  rcases h with ⟨hsame, hne⟩ | ⟨hcond, hworld, hreply⟩
  · refine Or.inl ⟨?_, hrest _ hne⟩
    rw [hsame]
    exact hs
  · obtain ⟨now, d, a, w', hallow, hexec, habs, hk⟩ := hgo hcond
    refine Or.inr ⟨_, d, a, w', .single ⟨now, rfl⟩, hallow, hexec, ?_, ?_⟩
    · rw [hworld]
      exact habs
    · rcases hreply with hreply | ⟨e, hreply⟩ <;> rw [hreply]
      · exact Or.inl hk
      · exact Or.inr (herror e)

/-- A call whose deciding step is a compare-and-swap. -/
theorem servesLast_swap {fence : Option RecoveryLeaseFence} {gid previous payload : String}
    {k : Except Err Int → RedisAct α}
    (hgo : ∀ s w, StoredAs json s w → s.keys.transactions gid = some previous →
      RedisStep.Counts json (.casHashField fence gid previous payload) →
      ∃ now d a w', versioned.allow o { w with clock := now } ∧
        versioned.exec i o d { w with clock := now } = (reply (.ok a), w') ∧
        StoredAs json (s.withPayload gid payload) w' ∧ (k (.ok 1)).run = .pure (.ok a))
    (hrest : ∀ r, r ≠ .ok 1 →
      ServesLast (countedStore json) versioned (StoredAs json) i o reply (k r).run)
    (herror : ∀ e, ∃ e', (k (.error e)).run = .pure (.error e')) :
    ServesLast (countedStore json) versioned (StoredAs json) i o reply
      (RedisStore.ask (.casHashField fence gid previous payload) >>= k).run :=
  fun s w c hs ha => (puts_casHashField fence gid previous payload c s).decides hs
    (fun hcond => hgo s w hs hcond.2 ha.2) hrest herror

/-- `update_transaction`, with a fence or without. -/
theorem servesLast_updateTransaction (fence : Option RecoveryLeaseFence) (tx : Transaction) :
    ServesLast (countedStore json) versioned (StoredAs json) i (.updateTransaction tx)
      (fun r => r) (RedisStore.updateTransaction json fence tx).run := by
  refine servesLast_reads_bind (reads_ofExcept _) fun _ _ => ?_
  refine servesLast_reads_bind (reads_storedPayload tx.gid) fun previous _ => ?_
  refine servesLast_reads_bind (reads_ofExcept _) fun current hcurrent => ?_
  refine servesLast_reads_bind (reads_ofExcept _) fun _ hrevision => ?_
  refine servesLast_reads_bind (reads_ask unseen_currentMillis) fun now _ => ?_
  refine servesLast_reads_bind (reads_ofExcept _) fun payload hpayload => ?_
  rw [ensure_eq_ok, decide_eq_true_eq] at hrevision
  refine servesLast_swap (fun s w hs hp hcounts => ?_) (fun r hr => ?_) fun e => ⟨e, rfl⟩
  · -- the payload that is replaced is the one that was read
    have hstored := hs.record hp hcurrent
    obtain ⟨hdecode, hbound⟩ := hcounts _ hpayload
    refine ⟨now, ⟨⟨false, .error "", 0⟩, none, [], none⟩, (), _, fun g => ⟨?_, ?_⟩, rfl, ?_, rfl⟩
    · exact fun s' hs' => hs.bounded g s' hs'
    · rintro tx' htx' rfl
      cases htx'
      exact ⟨current, hstored, hrevision⟩
    · exact hs.stores ⟨rfl, rfl, rfl, rfl, rfl⟩ hdecode hbound
  · refine servesLast_reads_bind (reads_ofExcept _) fun changed hchanged => ?_
    rw [if_neg fun h => hr (by rw [hchanged, h])]
    split
    · exact ⟨_, rfl⟩
    · exact ⟨_, rfl⟩

/-- **The loop of the changes in place.**  `f` is the change, and `o` what makes it above. -/
theorem servesLast_mutateLoop {fence : Option RecoveryLeaseFence}
    {gid operation : String} {f : Nat → Transaction → Except Err Transaction}
    {reply : Except Err Transaction → o.Reply} (ho : o.write? = none)
    (hexec : ∀ (w : World) tx tx', w.txs[gid]? = some tx → f w.clock tx = .ok tx' →
      ∃ d w', versioned.exec i o d w = (reply (.ok tx'), w') ∧ World.Stores gid tx' w w')
    (attempts : Nat) :
    ServesLast (countedStore json) versioned (StoredAs json) i o reply
      (RedisStore.mutateLoop json fence gid operation f attempts).run := by
  induction attempts with
  | zero => exact ⟨_, rfl⟩
  | succ attempts ih =>
    refine servesLast_reads_bind (reads_storedPayload gid) fun previous _ => ?_
    refine servesLast_reads_bind (reads_ofExcept _) fun tx htx => ?_
    refine servesLast_reads_bind (reads_ask unseen_currentMillis) fun now _ => ?_
    refine servesLast_reads_bind (reads_ofExcept _) fun tx' htx' => ?_
    refine servesLast_reads_bind (reads_ofExcept _) fun payload hpayload => ?_
    refine servesLast_swap (fun s w hs hp hcounts => ?_) (fun r hr => ?_) fun e => ⟨e, rfl⟩
    · obtain ⟨hdecode, hbound⟩ := hcounts _ hpayload
      obtain ⟨d, w', hd, hstores⟩ := hexec { w with clock := now } tx tx' (hs.record hp htx) htx'
      exact ⟨now, d, tx', w', (hs.clock now).fresh ho, hd, (hs.clock now).stores hstores hdecode
        hbound, rfl⟩
    · refine servesLast_reads_bind (reads_ofExcept _) fun changed hchanged => ?_
      rw [if_neg fun h => hr (by rw [hchanged, h])]
      split
      · exact ih
      · exact ⟨_, rfl⟩

end Writes

end RozeDtm
