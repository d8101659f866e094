import Mathlib.Algebra.Order.BigOperators.Group.List
import Mathlib.Algebra.Order.Group.Nat
import Mathlib.Algebra.Ring.Nat
import Mathlib.Data.List.Nodup

/-!
# Jobs that are retried

A log records calls, the latest first: the job that was called for and whether the call has
succeeded.  An oracle fixes what the calls of each job return (`Obeys`).  Jobs that are called in
turn, each until it succeeds or has failed `limit` times, leave the same log whoever calls them:
the one that the oracle dictates (`script`).
-/

namespace Conc.Retries

variable {α : Type}

/-- Each call returns what the oracle says of it: `o a n` is what the call of `a` returns that
comes after `n` others. -/
def Obeys [DecidableEq α] (o : α → Nat → Bool) : List (α × Bool) → Prop
  | [] => True
  | (a, ok) :: earlier => ok = o a (earlier.countP fun e => e.1 = a) ∧ Obeys o earlier

/-- The log of jobs that have succeeded, in their order: each with the number of its calls that
failed before. -/
def wonLog (won : List (α × Nat)) : List (α × Bool) :=
  won.reverse.flatMap fun job => (job.1, true) :: List.replicate job.2 (job.1, false)

/-- The job succeeds in one of its first `limit` calls. -/
def Settles (o : α → Nat → Bool) (limit : Nat) (a : α) : Prop := ∃ n < limit, o a n = true

instance (o : α → Nat → Bool) (limit : Nat) (a : α) : Decidable (Settles o limit a) :=
  inferInstanceAs (Decidable (∃ n < limit, _))

/-- The job at the place `k` is the first one that does not succeed in time. -/
def LostAt (o : α → Nat → Bool) (limit : Nat) (ids : List α) (k : Nat) : Prop :=
  (∃ a, ids[k]? = some a ∧ ¬ Settles o limit a) ∧ ∀ a ∈ ids.take k, Settles o limit a

/-- The log that the oracle dictates to jobs that are called in turn. -/
def script (o : α → Nat → Bool) (limit : Nat) : List α → List (α × Bool)
  | [] => []
  | a :: rest =>
    match (List.range limit).find? (o a) with
    | some n => script o limit rest ++ (a, true) :: List.replicate n (a, false)
    | none => List.replicate limit (a, false)

section Logs

variable {o : α → Nat → Bool} {limit n : Nat} {a : α} {l l₁ l₂ : List (α × Bool)}
  {jobs : List (α × Nat)} {ids rest : List α}

theorem wonLog_cons {job : α × Nat} : wonLog (job :: jobs) =
    wonLog jobs ++ (job.1, true) :: List.replicate job.2 (job.1, false) := by
  simp [wonLog]

theorem wonLog_snoc {job : α × Nat} : wonLog (jobs ++ [job]) =
    (job.1, true) :: List.replicate job.2 (job.1, false) ++ wonLog jobs := by
  simp [wonLog]

theorem mem_wonLog {e : α × Bool} (h : e ∈ wonLog jobs) : e.1 ∈ jobs.map Prod.fst := by
  obtain ⟨job, hjob, he⟩ := List.mem_flatMap.mp h
  refine List.mem_map.mpr ⟨job, List.mem_reverse.mp hjob, ?_⟩
  rcases List.mem_cons.mp he with rfl | he
  · rfl
  · rw [(List.mem_replicate.mp he).2]

/-- Each job has failed less often than it may be called. -/
theorem countP_wonLog_le (h : ∀ job ∈ jobs, job.2 < limit) :
    (wonLog jobs).countP (fun e => !e.2) ≤ jobs.length * limit := by
  induction jobs with
  | nil => exact Nat.zero_le _
  | cons job jobs ih =>
    have hrest := ih fun job' hjob => h job' (.tail _ hjob)
    have hjob := h job (.head _)
    rw [wonLog_cons, List.countP_append, List.countP_cons, List.countP_replicate, List.length_cons,
      Nat.succ_mul]
    simp only [Bool.not_true, Bool.false_eq_true, if_false, Bool.not_false, if_true]
    omega

theorem find?_range (hn : n < limit) (ha : o a n = true) (hb : ∀ k < n, o a k = false) :
    (List.range limit).find? (o a) = some n := by
  refine List.find?_range_eq_some.mpr ⟨ha, List.mem_range.mpr hn, fun k hk => ?_⟩
  rw [hb k hk]
  rfl

theorem not_settles (h : ∀ k < limit, o a k = false) : ¬ Settles o limit a := by
  rintro ⟨k, hk, hok⟩
  rw [h k hk] at hok
  cases hok

theorem LostAt.le {k k' : Nat} (h : LostAt o limit ids k) (h' : LostAt o limit ids k') : k' ≤ k := by
  refine Nat.not_lt.mp fun hlt => ?_
  obtain ⟨⟨a, ha, hlost⟩, -⟩ := h
  obtain ⟨hk, rfl⟩ := List.getElem?_eq_some_iff.mp ha
  exact hlost (h'.2 _ (List.mem_take_iff_getElem.mpr ⟨k, by omega, rfl⟩))

/-- There is one such place at most. -/
theorem LostAt.unique {k k' : Nat} (h : LostAt o limit ids k) (h' : LostAt o limit ids k') : k = k' :=
  Nat.le_antisymm (h'.le h) (h.le h')

/-- Where every job succeeds in time there is none. -/
theorem LostAt.not_all {k : Nat} (h : LostAt o limit ids k) : ¬ ∀ a ∈ ids, Settles o limit a := by
  obtain ⟨⟨a, ha, hlost⟩, -⟩ := h
  exact fun hall => hlost (hall a (List.mem_of_getElem? ha))

theorem script_exhausted (h : ¬ Settles o limit a) :
    script o limit (a :: rest) = List.replicate limit (a, false) := by
  have hnone : (List.range limit).find? (o a) = none :=
    List.find?_eq_none.mpr fun k hk hok => h ⟨k, List.mem_range.mp hk, hok⟩
  rw [script, hnone]

variable [DecidableEq α]

/-! ### What an oracle says of a log -/

theorem Obeys.of_append (h : Obeys o (l₁ ++ l₂)) : Obeys o l₂ := by
  induction l₁ with
  | nil => exact h
  | cons e l₁ ih => exact ih h.2

/-- What was called for other jobs does not matter. -/
theorem Obeys.append_left (h : Obeys o (l₁ ++ l₂)) (hne : ∀ e₁ ∈ l₁, ∀ e₂ ∈ l₂, e₂.1 ≠ e₁.1) :
    Obeys o l₁ := by
  induction l₁ with
  | nil => trivial
  | cons e l₁ ih =>
    obtain ⟨a, ok⟩ := e
    have hok : ok = o a ((l₁ ++ l₂).countP fun e => e.1 = a) := h.1
    refine ⟨?_, ih h.2 fun e₁ he₁ => hne e₁ (.tail _ he₁)⟩
    have hzero : l₂.countP (fun e => decide (e.1 = a)) = 0 :=
      List.countP_eq_zero.mpr fun e₂ he₂ h => hne (a, ok) (.head _) e₂ he₂ (of_decide_eq_true h)
    rw [List.countP_append, hzero, Nat.add_zero] at hok
    exact hok

theorem countP_replicate_self {ok : Bool} :
    (List.replicate n (a, ok)).countP (fun e => decide (e.1 = a)) = n := by
  simp [List.countP_replicate]

/-- The calls of a job that have all failed. -/
theorem Obeys.failed (h : Obeys o (List.replicate n (a, false))) : ∀ k < n, o a k = false := by
  induction n with
  | zero => exact fun _ hk => absurd hk (Nat.not_lt_zero _)
  | succ n ih =>
    rw [List.replicate_succ] at h
    obtain ⟨hok, hrest⟩ := h
    rw [countP_replicate_self] at hok
    intro k hk
    rcases Nat.lt_succ_iff_lt_or_eq.mp hk with hk | rfl
    · exact ih hrest k hk
    · exact hok.symm

/-- The calls of a job whose last one has succeeded. -/
theorem Obeys.succeeds (h : Obeys o ((a, true) :: List.replicate n (a, false))) :
    o a n = true ∧ ∀ k < n, o a k = false := by
  obtain ⟨hok, hrest⟩ := h
  rw [countP_replicate_self] at hok
  exact ⟨hok.symm, hrest.failed⟩

/-- **Jobs that have succeeded have run as the oracle dictates.** -/
theorem script_won (hobeys : Obeys o (wonLog jobs)) (hn : (jobs.map Prod.fst).Nodup)
    (hlimit : ∀ job ∈ jobs, job.2 < limit) :
    (∀ a ∈ jobs.map Prod.fst, Settles o limit a) ∧
      script o limit (jobs.map Prod.fst ++ rest) = script o limit rest ++ wonLog jobs := by
  induction jobs with
  | nil => exact ⟨fun _ h => (nomatch h), (List.append_nil _).symm⟩
  | cons job jobs ih =>
    rw [wonLog_cons] at hobeys
    rw [List.map_cons, List.nodup_cons] at hn
    have hwon := hobeys.of_append.succeeds
    have hlt := hlimit job (.head _)
    obtain ⟨hsettles, hscript⟩ := ih (hobeys.append_left fun e₁ he₁ e₂ he₂ => by
      have hid : e₂.1 = job.1 := by
        rcases List.mem_cons.mp he₂ with rfl | he₂
        · rfl
        · rw [(List.mem_replicate.mp he₂).2]
      rw [hid]
      exact fun h => hn.1 (h ▸ mem_wonLog he₁)) hn.2 fun job' h => hlimit job' (.tail _ h)
    refine ⟨List.forall_mem_cons.mpr ⟨⟨job.2, hlt, hwon.1⟩, hsettles⟩, ?_⟩
    rw [List.map_cons, List.cons_append, script, find?_range hlt hwon.1 hwon.2, wonLog_cons]
    dsimp only
    rw [hscript, List.append_assoc]

/-- **A job that has used up its calls** ends the log. -/
theorem script_lost (hobeys : Obeys o (List.replicate limit (a, false) ++ wonLog jobs))
    (hn : (jobs.map Prod.fst ++ [a]).Nodup) (hlimit : ∀ job ∈ jobs, job.2 < limit) :
    (∀ b ∈ jobs.map Prod.fst, Settles o limit b) ∧ ¬ Settles o limit a ∧
      script o limit (jobs.map Prod.fst ++ a :: rest) =
        List.replicate limit (a, false) ++ wonLog jobs := by
  rw [List.nodup_append] at hn
  have hlost : ¬ Settles o limit a := by
    refine not_settles (Obeys.failed (hobeys.append_left fun e₁ he₁ e₂ he₂ => ?_))
    rw [(List.mem_replicate.mp he₁).2]
    exact hn.2.2 _ (mem_wonLog he₂) a (List.mem_singleton_self a)
  have hwon : (∀ b ∈ jobs.map Prod.fst, Settles o limit b) ∧
      script o limit (jobs.map Prod.fst ++ a :: rest) = script o limit (a :: rest) ++ wonLog jobs :=
    script_won hobeys.of_append hn.1 hlimit
  obtain ⟨hsettles, hscript⟩ := hwon
  refine ⟨hsettles, hlost, ?_⟩
  rw [hscript, script_exhausted hlost]

/-! ### How many calls can fail -/

/-- Past a bound, a job no longer fails. -/
theorem Obeys.countP_failed_le {bound : Nat} (hobeys : Obeys o l)
    (hbound : ∀ k, bound ≤ k → o a k = true) : l.countP (fun e => e.1 = a && !e.2) ≤ bound := by
  induction l with
  | nil => exact Nat.zero_le _
  | cons e l ih =>
    obtain ⟨b, ok⟩ := e
    obtain ⟨hok, hrest⟩ := hobeys
    rw [List.countP_cons]
    split
    · rename_i h
      obtain ⟨rfl, hfalse⟩ : b = a ∧ ok = false := by simpa using h
      have hlt : l.countP (fun e => decide (e.1 = b)) < bound := by
        refine Nat.not_le.mp fun hle => ?_
        rw [hfalse, hbound _ hle] at hok
        cases hok
      have hle : l.countP (fun e => e.1 = b && !e.2) ≤ l.countP fun e => decide (e.1 = b) :=
        List.countP_mono_left fun e _ he => (Bool.and_eq_true _ _ ▸ he).1
      omega
    · exact ih hrest

/-- Elements are counted by their keys. -/
theorem countP_le_sum {p : α × Bool → Bool} (h : ∀ e ∈ l, p e = true → e.1 ∈ ids) :
    l.countP p ≤ (ids.map fun a => l.countP fun e => e.1 = a && p e).sum := by
  induction ids generalizing p with
  | nil =>
    have hzero : l.countP p = 0 := List.countP_eq_zero.mpr fun e he hp => nomatch h e he hp
    rw [hzero]
    exact Nat.zero_le _
  | cons a ids ih =>
    have hsplit : l.countP p = l.countP (fun e => e.1 = a && p e) +
        l.countP (fun e => !decide (e.1 = a) && p e) := by
      clear h ih
      induction l with
      | nil => rfl
      | cons e l ih =>
        rw [List.countP_cons, List.countP_cons, List.countP_cons, ih]
        by_cases ha : e.1 = a <;> by_cases hp : p e = true <;> simp [ha, hp] <;> omega
    have hrest := ih (p := fun e => !decide (e.1 = a) && p e) fun e he hp => by
      rw [Bool.and_eq_true, Bool.not_eq_true', decide_eq_false_iff_not] at hp
      exact (List.mem_cons.mp (h e he hp.2)).resolve_left hp.1
    have hmono : (ids.map fun b => l.countP fun e => e.1 = b && (!decide (e.1 = a) && p e)).sum ≤
        (ids.map fun b => l.countP fun e => e.1 = b && p e).sum := by
      refine List.sum_le_sum fun b _ => List.countP_mono_left fun e _ he => ?_
      simp only [Bool.and_eq_true] at he ⊢
      exact ⟨he.1, he.2.2⟩
    rw [List.map_cons, List.sum_cons]
    omega

/-- **An oracle that lets each job fail finitely often bounds the calls that fail.** -/
theorem Obeys.failed_le (hobeys : Obeys o l) (hids : ∀ e ∈ l, e.1 ∈ ids) {bound : α → Nat}
    (hbound : ∀ a k, bound a ≤ k → o a k = true) :
    l.countP (fun e => !e.2) ≤ (ids.map bound).sum := by
  refine (countP_le_sum fun e he _ => hids e he).trans (List.sum_le_sum fun a _ => ?_)
  exact hobeys.countP_failed_le (hbound a)

end Logs

end Conc.Retries
