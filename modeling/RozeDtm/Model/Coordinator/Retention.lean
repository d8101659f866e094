import Mathlib.Data.List.Sort
import RozeDtm.Model.System

/-!
# Retention

`purge_expired_transactions` deletes the records that were not written for a time.  It is no
operation on a transaction: a server starts it beside the operations, which is what a `Job`
is.
-/

namespace RozeDtm

open Conc

structure RetentionPolicy where
  dataExpireMillis : Nat
  finishedDataExpireMillis : Nat
  batchSize : Nat
deriving DecidableEq

/-- `RetentionPolicy::validate`. -/
def RetentionPolicy.validate (policy : RetentionPolicy) : Except Err RetentionPolicy := do
  ensure (0 < policy.dataExpireMillis) "data expiry must be positive"
  ensure (0 < policy.finishedDataExpireMillis) "finished data expiry must be positive"
  ensure (policy.finishedDataExpireMillis ≤ policy.dataExpireMillis)
    "finished data expiry must not exceed data expiry"
  ensure (1 ≤ policy.batchSize && policy.batchSize ≤ 10000)
    "retention batch size must be between 1 and 10000"
  return policy

structure RetentionReport where
  scanned : Nat := 0
  eligible : Nat := 0
  deleted : Nat := 0
  conflicts : Nat := 0
deriving DecidableEq

/-- `transaction_expired`. -/
def transactionExpired (transaction : Transaction) (now : Nat) (policy : RetentionPolicy) : Bool :=
  let retention := if transaction.status.isTerminal then policy.finishedDataExpireMillis
    else policy.dataExpireMillis
  transaction.updatedAtMillis ≤ now - retention

/-- The order in which records are purged. -/
def PurgedBefore (left right : Transaction) : Prop :=
  left.updatedAtMillis < right.updatedAtMillis ∨
    (left.updatedAtMillis = right.updatedAtMillis ∧ left.gid ≤ right.gid)

instance : DecidableRel PurgedBefore := fun _ _ => inferInstanceAs (Decidable (_ ∨ _))

namespace Dtm

/-- The loop of `purge_expired_transactions`. -/
def purgeLoop (report : RetentionReport) : List Transaction → Act RetentionReport
  | [] => return report
  | transaction :: rest => do
    let report := { report with eligible := report.eligible + 1 }
    if ← Store.deleteTransactionIfUnchanged transaction then
      purgeLoop { report with deleted := report.deleted + 1 } rest
    else
      purgeLoop { report with conflicts := report.conflicts + 1 } rest

/-- `purge_expired_transactions`. -/
def purgeExpiredTransactions (policy : RetentionPolicy) : Act RetentionReport := do
  let policy ← Act.ofExcept policy.validate
  let now ← currentMillis
  let transactions := (← Store.listTransactions).insertionSort PurgedBefore
  let expired := transactions.filter fun transaction => transactionExpired transaction now policy
  purgeLoop { scanned := transactions.length } (expired.take policy.batchSize)

end Dtm

/-- What a server starts. -/
inductive Job
  | operation (op : Operation)
  | purge (policy : RetentionPolicy)

/-- The program of a job; a purge returns no transactions. -/
def Job.prog (dtm : Dtm) : Job → Prog effects (Except Err (List Transaction))
  | .operation op => op.prog dtm
  | .purge policy =>
    (do let _ ← Dtm.purgeExpiredTransactions policy; return [] : Act (List Transaction)).run

/-- The programs of the jobs in `jobs`. -/
def Dtm.Jobs (dtm : Dtm) (jobs : Job → Prop) :
    Prog effects (Except Err (List Transaction)) → Prop :=
  fun p => ∃ job, jobs job ∧ p = job.prog dtm

/-- A run of jobs in two parts, computed from its moves. -/
theorem Dtm.exists_jobs_then (M : Machine effects World Outcome)
    [∀ o w, Decidable (M.allow o w)] (dtm : Dtm) (jobs : Job → Prop) (w : World)
    (moves moves' : List (Move Job Outcome)) (φ ψ : World → Bool)
    (hjobs : ∀ job, Move.start job ∈ moves ++ moves' → jobs job)
    (h : ((M.performAll? (Job.prog dtm) (Pool.idle w) moves).any fun P => φ P.world &&
      (M.performAll? (Job.prog dtm) P moves').any fun Q => ψ Q.world) = true) :
    ∃ P Q : System, M.Reaches (dtm.Jobs jobs) w P ∧ M.Run (dtm.Jobs jobs) P Q ∧
      φ P.world = true ∧ ψ Q.world = true :=
  Machine.exists_later_of_performAll? hjobs h

/-- The policies that are accepted. -/
structure RetentionPolicy.Valid (policy : RetentionPolicy) : Prop where
  dataExpireMillis : 0 < policy.dataExpireMillis
  finishedDataExpireMillis : 0 < policy.finishedDataExpireMillis
  ordered : policy.finishedDataExpireMillis ≤ policy.dataExpireMillis
  batchSize : 1 ≤ policy.batchSize ∧ policy.batchSize ≤ 10000

theorem RetentionPolicy.validate_eq_ok {policy policy' : RetentionPolicy} :
    policy.validate = .ok policy' ↔ policy.Valid ∧ policy' = policy := by
  have checked {c : Bool} {e : Err} {x : Except Err RetentionPolicy} :
      (ensure c e >>= fun _ => x) = .ok policy' ↔ c = true ∧ x = .ok policy' := by
    cases c
    · exact ⟨nofun, fun h => (nomatch h.1)⟩
    · exact ⟨fun h => ⟨rfl, h⟩, fun h => h.2⟩
  rw [RetentionPolicy.validate, checked, checked, checked, checked]
  simp only [decide_eq_true_eq, Bool.and_eq_true]
  constructor
  · rintro ⟨h1, h2, h3, h4, ⟨⟩⟩
    exact ⟨⟨h1, h2, h3, h4⟩, rfl⟩
  · rintro ⟨⟨h1, h2, h3, h4⟩, rfl⟩
    exact ⟨h1, h2, h3, h4, rfl⟩

/-- A record that has expired stays so. -/
theorem transactionExpired_mono {transaction : Transaction} {now now' : Nat}
    {policy : RetentionPolicy} (h : transactionExpired transaction now policy = true)
    (hle : now ≤ now') : transactionExpired transaction now' policy = true := by
  rw [transactionExpired, decide_eq_true_eq] at h ⊢
  exact Nat.le_trans h (Nat.sub_le_sub_right hle _)

end RozeDtm
