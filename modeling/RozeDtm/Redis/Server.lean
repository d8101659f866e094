import RozeDtm.Redis.Store

/-!
# The Redis server under the store

`RedisState` is the keys of the store, with the clock of the coordinator and the record of the
branch calls, and `redisStore` what each step does to it.  A step on the server may fail before
it is done, and it may be done and its answer lost.

The numbers of a script are doubles, which `luaSum` adds.  `RedisState.granted` is not in the
server: it is the record, latest first, of the fences that `ACQUIRE_RECOVERY_LEASE` has granted.
-/

namespace RozeDtm

open Conc

/-! ### Numbers of a script -/

/-- The double next to `n`, of two equally near ones that with the even significand. -/
def toDouble (n : Nat) : Nat :=
  let unit := 2 ^ (n.log2 - 52)
  let low := n / unit
  if 2 * (n % unit) < unit ∨ (2 * (n % unit) = unit ∧ low % 2 = 0) then low * unit
  else (low + 1) * unit

/-- The sum of two numbers. -/
def luaSum (a b : Nat) : Nat := toDouble (a + b)

theorem toDouble_of_le {n : Nat} (h : n < 2 ^ 53) : toDouble n = n := by
  have hlog : n.log2 - 52 = 0 := by
    by_cases hn : n = 0
    · rw [hn]
      rfl
    · have hlt := (Nat.log2_lt hn).mpr h
      omega
  simp only [toDouble, hlog, Nat.pow_zero, Nat.mod_one, Nat.div_one, Nat.mul_one]
  exact if_pos (Or.inl Nat.one_pos)

theorem toDouble_pos {n : Nat} (h : 0 < n) : 0 < toDouble n := by
  have hunit : 0 < 2 ^ (n.log2 - 52) := Nat.pow_pos Nat.two_pos
  have hle : 2 ^ (n.log2 - 52) ≤ n :=
    Nat.le_trans (Nat.pow_le_pow_right Nat.two_pos (Nat.sub_le _ _))
      ((Nat.le_log2 (Nat.ne_of_gt h)).mp (Nat.le_refl _))
  rw [toDouble]
  split
  · exact Nat.mul_pos (Nat.div_pos hle hunit) hunit
  · exact Nat.mul_pos (Nat.succ_pos _) hunit

/-! ### The state -/

/-- The keys of the store, the clock of the coordinator, and what is recorded of a run. -/
structure RedisState where
  keys : RedisWorld
  kv : String → Option String
  clock : Nat
  history : List (Nat × Event)
  granted : List RecoveryLeaseFence

/-- What the outside picks for a step: what becomes of it on the server, the page of an `HSCAN`,
and what the coordinator's calls return. -/
structure RedisOutcome where
  fate : Fate
  outcome : Outcome
  nextCursor : Nat
  page : List String

namespace RedisWorld

variable (w : RedisWorld)

/-- `HSETNX` of a transaction. -/
def hsetnx (gid payload : String) : Int × RedisWorld :=
  if (w.transactions gid).isSome then (0, w)
  else (1, { w with transactions := Function.update w.transactions gid (some payload) })

/-- The check of a fence at the start of a script that has one. -/
def PassesFence (fence : Option RecoveryLeaseFence) : Prop := ∀ f ∈ fence, w.FenceValid f

instance (fence : Option RecoveryLeaseFence) : Decidable (w.PassesFence fence) :=
  inferInstanceAs (Decidable (∀ f ∈ fence, w.FenceValid f))

/-- `CAS_HASH_FIELD` and `FENCED_CAS_HASH_FIELD`. -/
def casHashField (fence : Option RecoveryLeaseFence) (gid previous payload : String) :
    Int × RedisWorld :=
  if ¬ w.PassesFence fence then (-2, w)
  else match w.transactions gid with
  | none => (-1, w)
  | some current =>
    if current ≠ previous then (0, w)
    else (1, { w with transactions := Function.update w.transactions gid (some payload) })

/-- The entries of the transactions hash under some fields. -/
def entries (fields : List String) : List (String × String) :=
  fields.filterMap fun gid => (w.transactions gid).map fun payload => (gid, payload)

/-- `ACQUIRE_RECOVERY_LEASE`. -/
def acquireRecoveryLease (name owner : String) (ttlMillis : Nat) : (Int × Int) × RedisWorld :=
  let lease := w.leases name
  let expiry := luaSum w.nowMillis ttlMillis
  if lease.owner.isSome ∧ w.nowMillis < lease.expiry then
    if lease.owner ≠ some owner then ((0, lease.epoch), w)
    else
      let epoch := max lease.epoch 1
      ((1, epoch), { w with leases := Function.update w.leases name ⟨lease.owner, expiry, epoch⟩ })
  else
    let nextEpoch := luaSum lease.epoch 1
    ((1, nextEpoch),
      { w with leases := Function.update w.leases name ⟨some owner, expiry, nextEpoch⟩ })

/-- A lease is refused, or granted with an epoch that is not 0. -/
theorem acquireRecoveryLease_answer (name owner : String) (ttlMillis : Nat) :
    (w.acquireRecoveryLease name owner ttlMillis).1.1 = 0 ∨
    ∃ epoch : Nat, 0 < epoch ∧
      (w.acquireRecoveryLease name owner ttlMillis).1 = (1, (epoch : Int)) := by
  simp only [acquireRecoveryLease]
  split
  · split
    · exact Or.inl rfl
    · exact Or.inr ⟨_, Nat.lt_of_lt_of_le Nat.one_pos (Nat.le_max_right ..), rfl⟩
  · exact Or.inr ⟨_, toDouble_pos (Nat.succ_pos _), rfl⟩

end RedisWorld

namespace RedisState

/-- Record an event of operation `i`. -/
def note (s : RedisState) (i : Nat) (e : Event) : RedisState :=
  { s with history := (i, e) :: s.history }

/-- Record what `ACQUIRE_RECOVERY_LEASE` has answered. -/
def grant (s : RedisState) (name owner : String) (answer : Int × Int) : RedisState :=
  if answer.1 = 1 then
    { s with granted := { name, owner, epoch := answer.2.toNat } :: s.granted }
  else s

/-- What a step of operation `i` does when it is done. -/
def done (i : Nat) (c : RedisOutcome) (s : RedisState) : (o : RedisStep) → o.Reply × RedisState
  | .command o => ((s.keys.done o).1, { s with keys := (s.keys.done o).2 })
  | .hsetnx gid payload =>
    (.ok (s.keys.hsetnx gid payload).1, { s with keys := (s.keys.hsetnx gid payload).2 })
  | .casHashField fence gid previous payload =>
    (.ok (s.keys.casHashField fence gid previous payload).1,
      { s with keys := (s.keys.casHashField fence gid previous payload).2 })
  | .hscan _ => (.ok (c.nextCursor, s.keys.entries c.page), s)
  | .hgetKv field => (.ok (s.kv field), s)
  | .acquireRecoveryLease name owner ttlMillis =>
    let answer := s.keys.acquireRecoveryLease name owner ttlMillis
    (.ok answer.1, { s with keys := answer.2 }.grant name owner answer.1)
  | .currentMillis => (s.clock, s)
  | .invokeBegin call => ((), s.note i (.began call))
  | .invokeEnd call => (c.outcome.ok, s.note i (.ended call c.outcome.ok))
  | .queryWorkflowCallback _ _ => (c.outcome.callback, s)
  | .joinNext n => (⟨c.outcome.pick % (n + 1), Nat.mod_lt _ n.succ_pos⟩, s)

end RedisState

/-- The answer to a step that was lost; `none` for the steps that do not go to the server. -/
def RedisStep.lost : (o : RedisStep) → Option o.Reply
  | .command o => some o.lost
  | .hsetnx _ _ | .casHashField _ _ _ _ => some (.error "Redis operation failed" : Except Err Int)
  | .hscan _ =>
    some (.error "Redis operation failed" : Except Err (Nat × List (String × String)))
  | .hgetKv _ => some (.error "Redis operation failed" : Except Err (Option String))
  | .acquireRecoveryLease _ _ _ =>
    some (.error "Redis operation failed" : Except Err (Int × Int))
  | _ => none

/-- What a step of operation `i` does. -/
def RedisState.exec (i : Nat) (o : RedisStep) (c : RedisOutcome) (s : RedisState) :
    o.Reply × RedisState :=
  match c.fate, o.lost with
  | .lost, some r => (r, (s.done i c o).2)
  | .failed, some r => (r, s)
  | _, _ => s.done i c o

/-- A step is done, or its answer is lost with its effect or without. -/
theorem RedisState.exec_cases (i : Nat) (o : RedisStep) (c : RedisOutcome) (s : RedisState) :
    s.exec i o c = s.done i c o ∨ ∃ r, o.lost = some r ∧ (s.exec i o c).1 = r ∧
      ((s.exec i o c).2 = s ∨ (s.exec i o c).2 = (s.done i c o).2) := by
  rw [RedisState.exec.eq_def]
  cases hl : o.lost with
  | none => cases c.fate <;> exact Or.inl rfl
  | some r =>
    cases c.fate with
    | done => exact Or.inl rfl
    | failed => exact Or.inr ⟨r, rfl, rfl, Or.inl rfl⟩
    | lost => exact Or.inr ⟨r, rfl, rfl, Or.inr rfl⟩

/-- The clock of the coordinator is set to any value, and the time of the server goes on. -/
def RedisState.TimePasses (s s' : RedisState) : Prop :=
  ∃ clock now, s.keys.nowMillis ≤ now ∧
    s' = { s with clock := clock, keys := { s.keys with nowMillis := now } }

/-- Operations over the Redis store. -/
def redisStore : Machine redisSteps RedisState RedisOutcome where
  exec := RedisState.exec
  drift := RedisState.TimePasses
  allow := fun _ _ => True

instance (o : redisSteps.Op) (s : RedisState) : Decidable (redisStore.allow o s) :=
  inferInstanceAs (Decidable True)

end RozeDtm
