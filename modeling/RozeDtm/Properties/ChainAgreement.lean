import RozeDtm.Properties.AcceptedGraphs
import RozeDtm.Serial.ChainBatches

/-!
# A concurrent Saga whose dependencies form a chain

The twin of a sequential Saga is the concurrent one in which each branch depends on the one
before it.  Both are run by `start_saga` and then by `recover`, with the same outcomes of their
calls.  They take the same course if and only if no branch is met on the way back that has no
compensation URL (`chain_agrees`): the sequential mode passes such a branch by, and the
concurrent one stops at it for ever (`chain_stuck`).
-/

namespace RozeDtm

open Conc Conc.Retries

/-! ### The twin and the runs -/

/-- The branches, each depending on the one before it. -/
def chainFrom : List String → List Branch → List Branch
  | _, [] => []
  | dependencies, b :: rest => { b with dependencies := dependencies } :: chainFrom [b.id] rest

/-- The concurrent Saga in which each branch depends on the one before it. -/
def Transaction.chained (s : Transaction) : Transaction :=
  { s with options := { s.options with concurrent := true }, branches := chainFrom [] s.branches }

/-- A sequential Saga as it is submitted, none of its branches called. -/
structure Transaction.SubmittedSaga (s : Transaction) : Prop where
  kind : s.kind = .saga
  status : s.status = .submitted
  sequential : s.options.concurrent = false
  ids : (s.branches.map Branch.id).Nodup
  uncalled : ∀ b ∈ s.branches, b.status = .pending ∧ b.attempts = 0

/-- The recovery does not find the Saga past its timeout. -/
def Unexpired (s : Transaction) (o : Effect) (w : World) : Prop :=
  o = .currentMillis → isExpired s w.clock = false

/-- The worlds of a run: `start_saga` runs from the first to the second, and `recover` from each
one on to the next.  `o op id` says what the calls of the branch `id` for `op` return, by their
number. -/
structure Dtm.SagaRun (dtm : Dtm) (o : String → String → Nat → Bool) (s : Transaction)
    (W : Nat → World) : Prop where
  stored : (W 0).txs[s.gid]? = some s
  uncalled : ∀ op, (W 0).returns s.gid op = []
  free : ∀ op id, barrierOf s.gid op id ∉ (W 0).barriers
  start : ∃ i r, (alone (Unexpired s)).Goes i (dtm.startSaga s.gid).run (W 0) (some r) (W 1)
  recover : ∀ n, ∃ i r,
    (alone (Unexpired s)).Goes i (dtm.recover s.gid).run (W (n + 1)) (some r) (W (n + 2))
  oracle : ∀ n op, Obeys (o op) ((W n).returns s.gid op)

/-- The branches whose action has succeeded and that were compensated, the latest first. -/
def World.undone (w : World) (g : String) : List String :=
  (succeededIds (w.returns g "compensate")).filter fun id =>
    id ∈ succeededIds (w.returns g "action")

/-- Both runs come to an end, and have the same status, calls of actions and compensations
there. -/
structure SameCourse (g : String) (W V : Nat → World) : Prop where
  ends : ∃ n st, st.isTerminal = true ∧ (W n).HasStatus g st
  twinEnds : ∃ n st, st.isTerminal = true ∧ (V n).HasStatus g st
  agrees : ∀ n m st st', st.isTerminal = true → (W n).HasStatus g st → st'.isTerminal = true →
    (V m).HasStatus g st' → st' = st ∧ (V m).returns g "action" = (W n).returns g "action" ∧
      (V m).undone g = (W n).undone g

/-- The branches before the first one whose action does not succeed can all be compensated. -/
def Transaction.Undoable (s : Transaction) (o : String → String → Nat → Bool) : Prop :=
  ∀ k, LostAt (o "action") (sagaMaxAttempts s.options) (s.branches.map Branch.id) k →
    ∀ b ∈ s.branches.take k, b.compensate ≠ none

/-! ### The twin -/

section Twin

variable {s : Transaction} {bs before after : List Branch} {b : Branch} {ds : List String}

theorem chainFrom_forall₂ : List.Forall₂ (fun a b => b.id = a.id ∧ b.compensate = a.compensate ∧
    b.status = a.status ∧ b.attempts = a.attempts) bs (chainFrom ds bs) := by
  induction bs generalizing ds with
  | nil => exact .nil
  | cons b bs ih => exact .cons ⟨rfl, rfl, rfl, rfl⟩ ih

theorem chainFrom_ids : (chainFrom ds bs).map Branch.id = bs.map Branch.id :=
  map_eq_of_forall₂ (fun _ _ h => h.1) chainFrom_forall₂

theorem dependencies_chainFrom (h : chainFrom ds bs = before ++ b :: after) :
    b.dependencies = (before.getLast?.map fun a => [a.id]).getD ds := by
  induction bs generalizing ds before with
  | nil => cases before <;> cases h
  | cons a bs ih =>
    cases before with
    | nil =>
      rw [chainFrom, List.nil_append, List.cons.injEq] at h
      rw [← h.1]
      rfl
    | cons a' before =>
      rw [chainFrom, List.cons_append, List.cons.injEq] at h
      rw [ih h.2, List.getLast?_cons]
      cases hlast : before.getLast? with
      | none => rw [← h.1]; rfl
      | some p => rfl

theorem inChain_chained (s : Transaction) : InChain s.chained.branches := by
  intro before b after h
  rw [dependencies_chainFrom h]
  cases before.getLast? <;> rfl

/-- **A chain is accepted.** -/
theorem acyclic_chain (h : InChain bs) (hn : (bs.map Branch.id).Nodup) : Acyclic bs := by
  have hmem {before after : List Branch} {b : Branch} (hsplit : bs = before ++ b :: after) :
      ∀ d ∈ b.dependencies, d ∈ before.map Branch.id := fun d hd => InChain.mem (hsplit ▸ h) hd
  refine ⟨hn, fun b hb d hd => ?_, fun b hb => ?_, bs, .refl _, fun _ _ _ => hmem⟩
  · obtain ⟨before, after, hsplit⟩ := List.mem_iff_append.mp hb
    have hd' := hmem hsplit d hd
    rw [hsplit, List.map_append, List.map_cons, List.nodup_append] at hn
    refine ⟨fun heq => hn.2.2 d hd' b.id (.head _) heq, ?_⟩
    rw [hsplit, List.map_append]
    exact List.mem_append_left _ hd'
  · obtain ⟨before, after, hsplit⟩ := List.mem_iff_append.mp hb
    rw [h before b after hsplit]
    cases before.getLast? with
    | none => exact List.nodup_nil
    | some p => exact List.nodup_singleton _

theorem chained_saga (hs : s.SubmittedSaga) : ChainedSaga s.chained where
  kind := hs.kind
  concurrent := rfl
  ids := by
    rw [Transaction.chained, chainFrom_ids]
    exact hs.ids
  valid := by
    have hn : (s.chained.branches.map Branch.id).Nodup := by
      rw [Transaction.chained, chainFrom_ids]
      exact hs.ids
    have hgraph : validateDependencyGraph s.chained "concurrent Saga" = .ok () :=
      validateDependencyGraph_of_acyclic (acyclic_chain (inChain_chained s) hn)
    have hkind : s.chained.kind = .saga := hs.kind
    rw [validateTransactionDependencies, if_neg (by rw [hkind]; decide)]
    exact hgraph
  chain := inChain_chained s

end Twin

/-! ### A run comes to its end -/

/-- `start_saga` and `abort_saga` take the Saga on. -/
structure Dtm.TakesOn (dtm : Dtm) (s₀ : Transaction) : Prop where
  start : ∀ {i n : Nat} {s : Transaction} {w : World}, ChainAt s₀ s w →
    s.status = .submitted ∨ s.status = .succeeding → n ≤ w.failedReturns s₀.gid →
    (alone (Unexpired s₀)).Runs (fun _ => True) i (dtm.startSaga s₀.gid)
      (fun _ => ChainDone s₀ n) (fun _ => ChainDone s₀ n) w
  abort : ∀ {i n : Nat} {s : Transaction} {w : World}, ChainAt s₀ s w → s.status = .aborting →
    n ≤ w.failedReturns s₀.gid →
    (alone (Unexpired s₀)).Runs (fun _ => True) i (dtm.abortSaga s₀.gid)
      (fun _ => ChainDone s₀ n) (fun _ => ChainDone s₀ n) w

section Runs

variable {dtm : Dtm} {s₀ s : Transaction} {w w' : World} {i n : Nat} {W : Nat → World}
  {o : String → String → Nat → Bool}

theorem ChainDone.setClock (h : ChainDone s₀ n w) (now : Nat) : ChainDone s₀ n (w.setClock now) := by
  have hr : (w.setClock now).ReturnsSame s₀.gid w := returnsSame_of_history rfl
  obtain ⟨s, hs, hdone⟩ := h
  refine ⟨s, hs.same rfl hr rfl, hdone.imp id (Or.imp id (Or.imp (fun h => ?_) fun h => ?_))⟩
  · rw [hr.failedReturns]
    exact h
  · obtain ⟨hconc, k, hgiven, hnone⟩ := h
    exact ⟨hconc, k, hgiven.same (hr _), hnone⟩

/-- What an operation ends with, whether it returns a record or an error. -/
theorem ChainDone.of_goes {α : Type} {x : Act α} {r : Except Err α} {allow : Effect → World → Prop}
    (h : (alone allow).Runs (fun _ => True) i x (fun _ => ChainDone s₀ n) (fun _ => ChainDone s₀ n) w)
    (hg : (alone allow).Goes i x.run w (some r) w') : ChainDone s₀ n w' := by
  have hends : (alone allow).Ends (fun _ => True) i x.run (fun _ => ChainDone s₀ n) w := by
    refine Machine.Ends.mono h fun r w hr => ?_
    cases r with
    | ok _ => exact hr
    | error _ => exact hr
  have hclock (r : Except Err α) (w w' : World) (h : ChainDone s₀ n w) (hd : ClockSet w w') :
      ChainDone s₀ n w' := by
    obtain ⟨now, rfl⟩ := hd
    exact h.setClock now
  have hdone := hends.sound hclock hg
  exact hdone

/-- `recover`. -/
theorem runs_recoverChain (hgo : dtm.TakesOn s₀) (hw : ChainAt s₀ s w) :
    (alone (Unexpired s₀)).Runs (fun _ => True) i (dtm.recover s₀.gid)
      (fun _ => ChainDone s₀ (w.failedReturns s₀.gid))
      (fun _ => ChainDone s₀ (w.failedReturns s₀.gid)) w := by
  refine Machine.runs_bind.mpr (runs_loadChain hw fun now hw' => ?_)
  have hr := hw'.record
  have hkind : s.kind = .saga := hr.kind
  have hmessage : ¬ (s.kind = .message ∧ s.status = .succeeding) := by
    rw [hkind]
    exact fun h => absurd h.1 (by decide)
  have hcallback : ¬ isCallbackWorkflow s = true := by simp [isCallbackWorkflow, hkind]
  split
  · -- the Saga is at its end
    rename_i hterminal
    refine ⟨s, hw', ?_⟩
    cases hr.phase with
    | forward _ _ hst => rcases hst with hst | hst <;> rw [hst] at hterminal <;> cases hterminal
    | succeeded hst => exact Or.inl hst
    | backward _ hst => rw [hst] at hterminal; cases hterminal
    | aborted _ hst => exact Or.inr (Or.inl hst)
  · rename_i hterminal
    simp only [Machine.runs_bind, Machine.runs_pure, Bool.false_eq_true, if_false]
    refine runs_call (fun _ => trivial) fun now' c hallow => ?_
    have hexpired : isExpired s now' = false := by
      rw [isExpired, hr.timeoutMillis, hr.createdAtMillis]
      exact hallow rfl
    have hw'' : ChainAt s₀ s ((w.setClock now).setClock now') :=
      hw'.same rfl (returnsSame_of_history rfl) rfl
    split
    · rename_i h
      exact absurd (hexpired.symm.trans h) (by decide)
    rw [hkind]
    cases hr.phase with
    | forward acted rest hst =>
      rcases hst with h | h
      · rw [h]
        exact hgo.start hw'' (Or.inl h) (Nat.le_refl _)
      · rw [h]
        exact hgo.start hw'' (Or.inr h) (Nat.le_refl _)
    | succeeded hst =>
      rw [hst] at hterminal
      exact absurd rfl hterminal
    | backward k hst =>
      rw [hst]
      exact hgo.abort hw'' hst (Nat.le_refl _)
    | aborted k hst =>
      rw [hst] at hterminal
      exact absurd rfl hterminal

/-- The record at the beginning of a run. -/
theorem Dtm.SagaRun.first (hW : dtm.SagaRun o s W) (hkind : s.kind = .saga)
    (hst : s.status = .submitted) (huncalled : ∀ b ∈ s.branches, b.status = .pending ∧ b.attempts = 0) :
    ChainAt s s (W 0) where
  stored := hW.stored
  record := by
    refine ⟨⟨rfl, hkind, rfl, rfl, rfl⟩, SameBranches.refl _, .forward [] s.branches (Or.inl hst) rfl ?_⟩
    refine ⟨fun _ h => (nomatch h), fun b hb => ?_, fun b hb => ?_, ?_, hW.uncalled _,
      fun b _ => hW.free _ _, fun _ => hW.free _ _⟩
    · rw [(huncalled b hb).2]
      exact ⟨Or.inl (huncalled b hb).1, one_le_sagaMaxAttempts _⟩
    · exact (huncalled b (List.mem_of_mem_tail hb)).2
    · rw [hW.uncalled]
      cases hbs : s.branches with
      | nil => rfl
      | cons b rest =>
        rw [failedNext, (huncalled b (by rw [hbs]; exact .head _)).2]
        rfl

/-- **What each operation of a run ends with.** -/
theorem Dtm.SagaRun.done (hW : dtm.SagaRun o s W) (hgo : dtm.TakesOn s) (hfirst : ChainAt s s (W 0))
    (hst : s.status = .submitted) (n : Nat) :
    ChainDone s ((W n).failedReturns s.gid) (W (n + 1)) := by
  induction n with
  | zero =>
    obtain ⟨i, r, hgoes⟩ := hW.start
    exact ChainDone.of_goes (hgo.start hfirst (Or.inl hst) (Nat.le_refl _)) hgoes
  | succ n ih =>
    obtain ⟨s', hs', -⟩ := ih
    obtain ⟨i, r, hgoes⟩ := hW.recover n
    exact ChainDone.of_goes (runs_recoverChain hgo hs') hgoes

/-- The Saga is at its end. -/
def Transaction.AtEnd (s : Transaction) : Prop := s.status = .succeeded ∨ s.status = .aborted

theorem GivenUp.failed_le {k : Nat} (h : GivenUp s₀ k w) :
    (w.returns s₀.gid "action").countP (fun e => !e.2) ≤
      (s₀.branches.length + 1) * sagaMaxAttempts s₀.options := by
  obtain ⟨jobs, id, -, hprefix, hlt, hlog⟩ := h
  have hlength : jobs.length ≤ s₀.branches.length := by
    have hle := hprefix.length_le
    rw [List.length_append, List.length_map, List.length_map] at hle
    omega
  have hjobs := countP_wonLog_le hlt
  have hmul := Nat.mul_le_mul_right (sagaMaxAttempts s₀.options) hlength
  rw [hlog, List.countP_append, List.countP_replicate, Nat.succ_mul]
  simp only [Bool.not_false, if_true]
  omega

/-- **Until the Saga is at its end only so many of its calls can fail.** -/
theorem ChainAt.failed_le {s : Transaction} (hw : ChainAt s₀ s w) (hend : ¬ s.AtEnd)
    (hobeys : Obeys (o "compensate") (w.returns s₀.gid "compensate")) {bound : String → Nat}
    (hbound : ∀ id k, bound id ≤ k → o "compensate" id k = true) :
    w.failedReturns s₀.gid ≤ (s₀.branches.length + 1) * sagaMaxAttempts s₀.options +
      ((s₀.branches.map Branch.id).map bound).sum := by
  rw [World.failedReturns]
  cases hw.record.phase with
  | forward acted rest _ hbs hf =>
    have hjobs := countP_wonLog_le (job_lt hf.won)
    rw [List.length_map] at hjobs
    have hlength : acted.length ≤ s₀.branches.length := by
      have hsame := hw.record.same.length_eq
      rw [hbs, List.length_append] at hsame
      omega
    have hmul := Nat.mul_le_mul_right (sagaMaxAttempts s₀.options) hlength
    have hnext : (failedNext rest).countP (fun e => !e.2) ≤ sagaMaxAttempts s₀.options := by
      cases rest with
      | nil => exact Nat.zero_le _
      | cons b rest =>
        refine List.countP_le_length.trans ?_
        rw [failedNext, List.length_replicate]
        exact (hf.left b (.head _)).2.le
    rw [hf.actions, hf.undone, List.countP_append, List.countP_nil, Nat.succ_mul]
    omega
  | succeeded hst => exact absurd (Or.inl hst) hend
  | backward k _ hb =>
    exact Nat.add_le_add hb.givenUp.failed_le (hobeys.failed_le hb.ids hbound)
  | aborted k hst => exact absurd (Or.inr hst) hend

/-- **A run comes to its end**, unless its abort stops at a branch. -/
theorem Dtm.SagaRun.ends (hW : dtm.SagaRun o s W) (hgo : dtm.TakesOn s) (hfirst : ChainAt s s (W 0))
    (hst : s.status = .submitted) (hundo : ∀ id, ∃ n, ∀ k, n ≤ k → o "compensate" id k = true)
    (hblocked : ∀ n, s.options.concurrent = true → ¬ Blocked s (W n)) :
    ∃ n s', ChainAt s s' (W n) ∧ s'.AtEnd := by
  choose bound hbound using hundo
  refine Classical.by_contradiction fun hnever => ?_
  have hmore (n : Nat) : n ≤ (W n).failedReturns s.gid := by
    induction n with
    | zero => exact Nat.zero_le _
    | succ n ih =>
      obtain ⟨s', hs', hdone⟩ := hW.done hgo hfirst hst n
      rcases hdone with hend | hend | hlt | ⟨hconc, hb⟩
      · exact absurd ⟨n + 1, s', hs', Or.inl hend⟩ hnever
      · exact absurd ⟨n + 1, s', hs', Or.inr hend⟩ hnever
      · omega
      · exact absurd hb (hblocked (n + 1) hconc)
  set total := (s.branches.length + 1) * sagaMaxAttempts s.options +
    ((s.branches.map Branch.id).map bound).sum with htotal
  obtain ⟨s', hs', -⟩ := hW.done hgo hfirst hst total
  have hle := hs'.failed_le (fun hend => hnever ⟨_, s', hs', hend⟩) (hW.oracle _ _) hbound
  have hlt := hmore (total + 1)
  omega

/-! ### What a run has done at its end -/

theorem succeededIds_append (l₁ l₂ : List (String × Bool)) :
    succeededIds (l₁ ++ l₂) = succeededIds l₁ ++ succeededIds l₂ := by
  rw [succeededIds, List.filter_append, List.map_append, succeededIds, succeededIds]

theorem succeededIds_failed (m : Nat) (id : String) :
    succeededIds (List.replicate m (id, false)) = [] := by
  simp [succeededIds]

theorem succeededIds_wonLog (jobs : List (String × Nat)) :
    succeededIds (wonLog jobs) = (jobs.map Prod.fst).reverse := by
  induction jobs with
  | nil => rfl
  | cons job jobs ih =>
    have hcall : succeededIds ((job.1, true) :: List.replicate job.2 (job.1, false)) = [job.1] :=
      congrArg (List.cons job.1) (succeededIds_failed job.2 job.1)
    rw [wonLog_cons, succeededIds_append, ih, hcall, List.map_cons, List.reverse_cons]

/-- **What the calls of actions were** when a branch was given up. -/
theorem GivenUp.course {k : Nat} (h : GivenUp s₀ k w) (hn : (s₀.branches.map Branch.id).Nodup)
    (hobeys : Obeys (o "action") (w.returns s₀.gid "action")) :
    LostAt (o "action") (sagaMaxAttempts s₀.options) (s₀.branches.map Branch.id) k ∧
      w.returns s₀.gid "action" =
        script (o "action") (sagaMaxAttempts s₀.options) (s₀.branches.map Branch.id) ∧
      succeededIds (w.returns s₀.gid "action") = ((s₀.branches.map Branch.id).take k).reverse := by
  obtain ⟨jobs, id, hk, ⟨rest, hids⟩, hlt, hlog⟩ := h
  rw [List.append_assoc, List.singleton_append] at hids
  have hk' : (jobs.map Prod.fst).length = k := by rw [List.length_map, hk]
  rw [← hids] at hn ⊢
  rw [hlog] at hobeys ⊢
  have hn' : (jobs.map Prod.fst ++ [id]).Nodup :=
    hn.sublist (List.Sublist.append_left (List.singleton_sublist.mpr (.head _)) _)
  obtain ⟨hwon, hlost, hscript⟩ := @script_lost _ _ _ _ _ rest _ hobeys hn' hlt
  rw [← hk', List.take_left, hscript, succeededIds_append, succeededIds_failed, succeededIds_wonLog]
  refine ⟨⟨⟨id, ?_, hlost⟩, ?_⟩, rfl, rfl⟩
  · rw [List.getElem?_append_right (Nat.le_refl _), Nat.sub_self]
    rfl
  · rw [List.take_left]
    exact hwon

/-- The branches that an abort calls, but for the one that was given up. -/
theorem filter_dueBack (hn : (s₀.branches.map Branch.id).Nodup) (k : Nat) :
    (dueBack s₀ k).filter (fun id => id ∈ ((s₀.branches.map Branch.id).take k).reverse) =
      ((s₀.branches.take k).filter fun b => b.compensate.isSome).map Branch.id := by
  have hkeep {l : List Branch} (hl : ∀ b ∈ l, b ∈ s₀.branches.take k) :
      (l.map Branch.id).filter (fun id => id ∈ ((s₀.branches.map Branch.id).take k).reverse) =
        l.map Branch.id := by
    refine List.filter_eq_self.mpr fun id hid => decide_eq_true ?_
    obtain ⟨b, hb, rfl⟩ := List.mem_map.mp hid
    rw [List.mem_reverse, ← List.map_take]
    exact List.mem_map_of_mem (hl b hb)
  rw [dueBack]
  split
  · exact hkeep fun b hb => List.mem_of_mem_filter hb
  · rw [List.take_add_one, List.filter_append, List.map_append, List.filter_append,
      hkeep fun b hb => List.mem_of_mem_filter hb]
    refine List.append_right_eq_self.mpr (List.filter_eq_nil_iff.mpr fun id hid => ?_)
    -- the branch at the place `k` is not among those before it
    obtain ⟨b, hb, rfl⟩ := List.mem_map.mp hid
    have hget : s₀.branches[k]? = some b := Option.mem_toList.mp (List.mem_of_mem_filter hb)
    rw [decide_eq_true_eq, List.mem_reverse]
    intro hmem
    obtain ⟨j, hj, hget'⟩ := List.mem_take_iff_getElem.mp hmem
    obtain ⟨hk, hbk⟩ := List.getElem?_eq_some_iff.mp
      (show (s₀.branches.map Branch.id)[k]? = some b.id by rw [List.getElem?_map, hget]; rfl)
    have heq := (List.Nodup.getElem_inj_iff hn).mp (hget'.trans hbk.symm)
    omega

/-- What the calls of a Saga at its end were. -/
structure CourseAt (o : String → String → Nat → Bool) (s₀ s : Transaction) (w : World) : Prop where
  actions : w.returns s₀.gid "action" =
    script (o "action") (sagaMaxAttempts s₀.options) (s₀.branches.map Branch.id)
  succeeded : s.status = .succeeded →
    (∀ id ∈ s₀.branches.map Branch.id, Settles (o "action") (sagaMaxAttempts s₀.options) id) ∧
      w.undone s₀.gid = []
  aborted : s.status = .aborted → ∃ k,
    LostAt (o "action") (sagaMaxAttempts s₀.options) (s₀.branches.map Branch.id) k ∧
      w.undone s₀.gid =
        ((s₀.branches.take k).filter fun b => b.compensate.isSome).map Branch.id

theorem ChainAt.course {s : Transaction} (hw : ChainAt s₀ s w) (hend : s.AtEnd)
    (hn : (s₀.branches.map Branch.id).Nodup)
    (hobeys : Obeys (o "action") (w.returns s₀.gid "action")) : CourseAt o s₀ s w := by
  cases hw.record.phase with
  | forward _ _ hst =>
    rcases hst with hst | hst <;> rcases hend with hend | hend <;>
      exact absurd (hst.symm.trans hend) (by decide)
  | succeeded hst hc =>
    obtain ⟨jobs, hids, hlt, hlog, hundone⟩ := hc
    rw [hlog] at hobeys
    have hwon : (∀ a ∈ jobs.map Prod.fst, Settles (o "action") (sagaMaxAttempts s₀.options) a) ∧
        script (o "action") (sagaMaxAttempts s₀.options) (jobs.map Prod.fst ++ []) =
          script (o "action") (sagaMaxAttempts s₀.options) [] ++ wonLog jobs :=
      script_won hobeys (hids ▸ hn) hlt
    rw [List.append_nil, hids] at hwon
    refine ⟨hlog.trans hwon.2.symm, fun _ => ⟨hwon.1, ?_⟩, fun h => ?_⟩
    · rw [World.undone, hundone]
      rfl
    · exact absurd (hst.symm.trans h) (by decide)
  | backward k hst => rcases hend with hend | hend <;> exact absurd (hst.symm.trans hend) (by decide)
  | aborted k hst hb ho =>
    obtain ⟨hlost, hactions, hacted⟩ := hb.givenUp.course hn hobeys
    refine ⟨hactions, fun h => absurd (hst.symm.trans h) (by decide), fun _ => ⟨k, hlost, ?_⟩⟩
    have howes := hb.owes
    rw [ho, List.nil_append] at howes
    rw [World.undone, howes, hacted]
    exact filter_dueBack hn k

theorem ChainAt.atEnd {s : Transaction} {st : TransactionStatus} (hw : ChainAt s₀ s w)
    (hst : st.isTerminal = true) (h : w.HasStatus s₀.gid st) : s.status = st ∧ s.AtEnd := by
  obtain ⟨s', hs', rfl⟩ := h
  cases hw.stored.symm.trans hs'
  refine ⟨rfl, ?_⟩
  cases hw.record.phase with
  | forward _ _ h => rcases h with h | h <;> rw [h] at hst <;> cases hst
  | succeeded h => exact Or.inl h
  | backward _ h => rw [h] at hst; cases hst
  | aborted _ h => exact Or.inr h

theorem ChainAt.hasStatus {s : Transaction} (hw : ChainAt s₀ s w) (hend : s.AtEnd) :
    ∃ st : TransactionStatus, st.isTerminal = true ∧ w.HasStatus s₀.gid st := by
  refine ⟨s.status, ?_, s, hw.stored, rfl⟩
  rcases hend with h | h <;> rw [h] <;> rfl

end Runs

/-! ### Runs for an oracle -/

section Oracle

variable {dtm : Dtm} {s : Transaction} {o : String → String → Nat → Bool} {w : World}

/-- The outcomes that an oracle picks for the calls of the transaction `g`. -/
def oracleOutcome (o : String → String → Nat → Bool) (g : String) : Effect → World → Outcome
  | .invokeEnd c, w =>
    .ofOk (o c.op c.branchId ((w.returns g c.op).countP fun e => e.1 = c.branchId))
  | _, _ => .ofOk true

/-- Only a call that comes back returns something. -/
theorem returned?_of_ofStep {e : Event} {x : Effect} {g op : String} (he : e.OfStep x)
    (hx : ∀ c, x ≠ .invokeEnd c) : e.returned? g op = none := by
  cases x with
  | barrier b =>
    obtain ⟨d, rfl⟩ := he
    rfl
  | registerBranch gid branch | recordWorkflowProgress gid progress =>
    cases he
    rfl
  | releaseBarrier b | invokeBegin c =>
    cases he
    rfl
  | invokeEnd c => exact absurd rfl (hx c)
  | _ => exact he.elim

/-- A step whose outcome the oracle picks. -/
theorem obeys_exec {g : String} {i : Nat} (x : Effect) (h : ∀ op, Obeys (o op) (w.returns g op)) :
    ∀ op, Obeys (o op) ((InMemory.exec i x (oracleOutcome o g x w) w).2.returns g op) := by
  intro op
  by_cases hx : ∃ c, x = .invokeEnd c
  · obtain ⟨c, rfl⟩ := hx
    by_cases hc : c.gid = g ∧ c.op = op
    · obtain ⟨hg, rfl⟩ := hc
      have hended := @returns_ended w (InMemory.exec i (.invokeEnd c) (oracleOutcome o g
        (.invokeEnd c) w) w).2 g c.op c.branchId i c _ hg rfl rfl rfl
      rw [hended]
      exact ⟨rfl, h c.op⟩
    · have hquiet : (Event.ended c (oracleOutcome o g (.invokeEnd c) w).ok).returned? g op = none :=
        if_neg hc
      have hsame : (InMemory.exec i (.invokeEnd c) (oracleOutcome o g (.invokeEnd c) w) w).2.returns
          g op = w.returns g op := returns_quiet hquiet rfl
      rw [hsame]
      exact h op
  · rcases history_step i x (oracleOutcome o g x w) w with hh | ⟨e, he, hh⟩
    · rw [returnsSame_of_history hh]
      exact h op
    · rw [returns_quiet (returned?_of_ofStep he fun c hc => hx ⟨c, hc⟩) hh]
      exact h op

/-- The worlds of the run that an oracle makes. -/
def oracleRun (dtm : Dtm) (o : String → String → Nat → Bool) (s : Transaction) : Nat → World
  | 0 => .initial [s]
  | 1 => ((alone (Unexpired s)).outcome (oracleOutcome o s.gid) 0 (dtm.startSaga s.gid).run
      (.initial [s])).2
  | n + 2 => ((alone (Unexpired s)).outcome (oracleOutcome o s.gid) 0 (dtm.recover s.gid).run
      (oracleRun dtm o s (n + 1))).2

/-- **A Saga without a timeout has a run for each oracle.** -/
theorem sagaRun_oracle (dtm : Dtm) (o : String → String → Nat → Bool) {s : Transaction}
    (htimeout : s.timeoutMillis = none) : dtm.SagaRun o s (oracleRun dtm o s) := by
  have hallow : ∀ (e : Effect) (w : World), (alone (Unexpired s)).allow e w := fun e w =>
    ⟨trivial, fun _ => by rw [isExpired, htimeout]; rfl⟩
  have hreturns (op : String) : (World.initial [s]).returns s.gid op = [] := rfl
  refine ⟨?_, hreturns, fun op id => ?_, ⟨0, _, Machine.goes_outcome hallow _ _⟩,
    fun n => ⟨0, _, Machine.goes_outcome hallow _ _⟩, fun n => ?_⟩
  · exact Std.ExtTreeMap.getElem?_insert_self
  · rw [oracleRun, World.barriers_initial]
    exact Finset.notMem_empty _
  · have hinitial : ∀ op, Obeys (o op) ((World.initial [s]).returns s.gid op) := fun _ => trivial
    have hkeeps {p : Prog effects (Except Err Transaction)} {w : World}
        (hw : ∀ op, Obeys (o op) (w.returns s.gid op)) : ∀ op, Obeys (o op)
          (((alone (Unexpired s)).outcome (oracleOutcome o s.gid) 0 p w).2.returns s.gid op) :=
      @Machine.outcome_keeps _ _ _ _ (alone (Unexpired s)) 0 (oracleOutcome o s.gid)
        (fun w => ∀ op, Obeys (o op) (w.returns s.gid op)) (fun e w hw => obeys_exec e hw) p w hw
    induction n with
    | zero => exact hinitial
    | succ n ih =>
      cases n with
      | zero => exact hkeeps hinitial
      | succ n => exact hkeeps ih

end Oracle

/-! ### The sequential Saga and its twin -/

section Agreement

variable {dtm : Dtm} {s : Transaction} {W V : Nat → World} {o : String → String → Nat → Bool}

theorem takesOn_sequenced (hS : Sequenced s) : dtm.TakesOn s where
  start := fun hw hst hle => runs_startChain hS hw hst hle
  abort := fun hw hst hle => runs_abortChain hS hw hst hle

theorem takesOn_chained (hS : ChainedSaga s) : dtm.TakesOn s where
  start := fun hw hst hle => runs_startChained hS hw hst hle
  abort := fun hw hst hle => runs_abortChainedSaga hS hw hst hle

theorem Transaction.SubmittedSaga.sequenced (hs : s.SubmittedSaga) : Sequenced s :=
  ⟨hs.sequential, hs.ids⟩

theorem Transaction.SubmittedSaga.chainedUncalled (hs : s.SubmittedSaga) :
    ∀ b ∈ s.chained.branches, b.status = .pending ∧ b.attempts = 0 := by
  intro b hb
  obtain ⟨a, ha, -, -, hst, hatt⟩ := exists_of_forall₂ chainFrom_forall₂ hb
  rw [hst, hatt]
  exact hs.uncalled a ha

/-- The stored record all along the run of the sequential Saga. -/
theorem Dtm.SagaRun.chainAt (hs : s.SubmittedSaga) (hW : dtm.SagaRun o s W) (n : Nat) :
    ∃ s', ChainAt s s' (W n) := by
  have hfirst := hW.first hs.kind hs.status hs.uncalled
  cases n with
  | zero => exact ⟨s, hfirst⟩
  | succ n =>
    obtain ⟨s', hs', -⟩ := hW.done (takesOn_sequenced hs.sequenced) hfirst hs.status n
    exact ⟨s', hs'⟩

/-- The stored record all along the run of the twin. -/
theorem Dtm.SagaRun.chainAt_chained (hs : s.SubmittedSaga) (hV : dtm.SagaRun o s.chained V) (n : Nat) :
    ∃ s', ChainAt s.chained s' (V n) := by
  have hfirst := hV.first (chained_saga hs).kind hs.status hs.chainedUncalled
  cases n with
  | zero => exact ⟨s.chained, hfirst⟩
  | succ n =>
    obtain ⟨s', hs', -⟩ := hV.done (takesOn_chained (chained_saga hs)) hfirst hs.status n
    exact ⟨s', hs'⟩

/-- The branches that are compensated are the same in both modes. -/
theorem undone_chained (k : Nat) :
    ((s.chained.branches.take k).filter fun b => b.compensate.isSome).map Branch.id =
      ((s.branches.take k).filter fun b => b.compensate.isSome).map Branch.id := by
  have htake := List.forall₂_take k (@chainFrom_forall₂ s.branches [])
  refine filter_map_eq_of_forall₂ (fun a b h => ?_) (fun a b h => h.1) htake
  rw [h.2.1]

/-- **If the twin comes to its end, each branch that it has to compensate has a URL.** -/
theorem undoable_of_ends (hs : s.SubmittedSaga) (hV : dtm.SagaRun o s.chained V)
    (hend : ∃ n st, st.isTerminal = true ∧ (V n).HasStatus s.gid st) : s.Undoable o := by
  obtain ⟨n, st, hst, hstatus⟩ := hend
  obtain ⟨s', hs'⟩ := hV.chainAt_chained hs n
  obtain ⟨-, hatEnd⟩ := hs'.atEnd hst hstatus
  have hcourse := hs'.course hatEnd (chained_saga hs).ids (hV.oracle n "action")
  have hids : s.chained.branches.map Branch.id = s.branches.map Branch.id := chainFrom_ids
  intro k hlost b hb
  rcases hatEnd with hend | hend
  · have hall := (hcourse.succeeded hend).1
    rw [hids] at hall
    exact absurd hall hlost.not_all
  · cases hs'.record.phase with
    | forward _ _ h => rcases h with h | h <;> exact absurd (h.symm.trans hend) (by decide)
    | succeeded h => exact absurd (h.symm.trans hend) (by decide)
    | backward _ h => exact absurd (h.symm.trans hend) (by decide)
    | aborted k' _ hback _ hd =>
      obtain ⟨hlost', -, -⟩ := hback.givenUp.course (chained_saga hs).ids (hV.oracle n "action")
      rw [hids] at hlost'
      obtain rfl : k = k' := hlost.unique hlost'
      obtain ⟨passed, hd⟩ := hd rfl
      have hcalled : ∀ b ∈ s'.branches.take k, b.compensate ≠ none := by
        have h := hd.called
        rwa [← List.nil_append passed, ← hd.split] at h
      -- the same branch of the twin and of its record
      obtain ⟨c, hc, -, hcomp, -⟩ := exists_of_forall₂_left
        (List.forall₂_take k (@chainFrom_forall₂ s.branches [])) hb
      obtain ⟨d, hd, hdef⟩ := exists_of_forall₂_left (List.forall₂_take k hs'.record.same) hc
      rw [← hcomp, ← Branch.compensate_eq hdef]
      exact hcalled d hd

/-- **If each branch that it has to compensate has a URL, the twin comes to its end.** -/
theorem ends_of_undoable (hs : s.SubmittedSaga) (hV : dtm.SagaRun o s.chained V)
    (hundo : ∀ id, ∃ n, ∀ k, n ≤ k → o "compensate" id k = true) (h : s.Undoable o) :
    ∃ n st, st.isTerminal = true ∧ (V n).HasStatus s.gid st := by
  have hS := chained_saga hs
  obtain ⟨n, s', hs', hend⟩ := hV.ends (takesOn_chained hS)
    (hV.first hS.kind hs.status hs.chainedUncalled) hs.status hundo fun n _ hblocked => by
      obtain ⟨k, hgiven, b, hb, hnone⟩ := hblocked
      obtain ⟨hlost, -, -⟩ := hgiven.course hS.ids (hV.oracle n "action")
      have hids : s.chained.branches.map Branch.id = s.branches.map Branch.id := chainFrom_ids
      rw [hids] at hlost
      obtain ⟨a, ha, -, hcomp, -⟩ := exists_of_forall₂
        (List.forall₂_take k (@chainFrom_forall₂ s.branches [])) hb
      exact h k hlost a ha (hcomp.symm.trans hnone)
  exact ⟨n, hs'.hasStatus hend⟩

/-- **Where both come to their end they agree.** -/
theorem agrees_atEnd (hs : s.SubmittedSaga) (hW : dtm.SagaRun o s W) (hV : dtm.SagaRun o s.chained V)
    {n m : Nat} {st st' : TransactionStatus} (hst : st.isTerminal = true)
    (hn : (W n).HasStatus s.gid st) (hst' : st'.isTerminal = true) (hm : (V m).HasStatus s.gid st') :
    st' = st ∧ (V m).returns s.gid "action" = (W n).returns s.gid "action" ∧
      (V m).undone s.gid = (W n).undone s.gid := by
  have hids : s.chained.branches.map Branch.id = s.branches.map Branch.id := chainFrom_ids
  obtain ⟨t, ht⟩ := hW.chainAt hs n
  obtain ⟨t', ht'⟩ := hV.chainAt_chained hs m
  obtain ⟨rfl, hend⟩ := ht.atEnd hst hn
  obtain ⟨rfl, hend'⟩ := ht'.atEnd hst' hm
  have hcourse := ht.course hend hs.ids (hW.oracle n "action")
  have hcourse' := ht'.course hend' (chained_saga hs).ids (hV.oracle m "action")
  have hactions : (V m).returns s.gid "action" = (W n).returns s.gid "action" := by
    have h := hcourse'.actions
    rw [hids] at h
    exact h.trans hcourse.actions.symm
  rcases hend with h | h <;> rcases hend' with h' | h'
  · refine ⟨h'.trans h.symm, hactions, ?_⟩
    exact (hcourse'.succeeded h').2.trans (hcourse.succeeded h).2.symm
  · obtain ⟨k, hlost, -⟩ := hcourse'.aborted h'
    rw [hids] at hlost
    exact absurd (hcourse.succeeded h).1 hlost.not_all
  · obtain ⟨k, hlost, -⟩ := hcourse.aborted h
    have hall := (hcourse'.succeeded h').1
    rw [hids] at hall
    exact absurd hall hlost.not_all
  · obtain ⟨k, hlost, hundone⟩ := hcourse.aborted h
    obtain ⟨k', hlost', hundone'⟩ := hcourse'.aborted h'
    rw [hids] at hlost'
    obtain rfl : k = k' := hlost.unique hlost'
    refine ⟨h'.trans h.symm, hactions, ?_⟩
    exact hundone'.trans ((undone_chained k).trans hundone.symm)

/-- **The twin takes the course of the sequential Saga exactly when each branch that has to be
compensated has a URL for it.** -/
theorem chain_agrees (dtm : Dtm) (o : String → String → Nat → Bool)
    (hundo : ∀ id, ∃ n, ∀ k, n ≤ k → o "compensate" id k = true) {s : Transaction}
    (hs : s.SubmittedSaga) {W V : Nat → World} (hW : dtm.SagaRun o s W)
    (hV : dtm.SagaRun o s.chained V) : SameCourse s.gid W V ↔ s.Undoable o := by
  constructor
  · exact fun h => undoable_of_ends hs hV h.twinEnds
  · intro h
    have hfirst := hW.first hs.kind hs.status hs.uncalled
    obtain ⟨n, s', hs', hend⟩ := hW.ends (takesOn_sequenced hs.sequenced) hfirst hs.status hundo
      fun _ hconc => absurd (hs.sequential.symm.trans hconc) (by decide)
    exact ⟨⟨n, hs'.hasStatus hend⟩, ends_of_undoable hs hV hundo h,
      fun _ _ _ _ hst hn hst' hm => agrees_atEnd hs hW hV hst hn hst' hm⟩

end Agreement

/-- The first action succeeds, the second one does not, and every compensation succeeds. -/
def secondFails (op id : String) (_ : Nat) : Bool := op = "compensate" || id = "a"

/-- Two branches that can be compensated: the Saga and its twin are Aborted, and `a` is
compensated. -/
theorem chain_agrees_aborted : ∃ W V : Nat → World,
    Dtm.plain.SagaRun secondFails
      (.new 0 "g" .saga [.saga "a" "do" "undo" .null, .saga "b" "do" "undo" .null]) W ∧
    Dtm.plain.SagaRun secondFails (Transaction.chained
      (.new 0 "g" .saga [.saga "a" "do" "undo" .null, .saga "b" "do" "undo" .null])) V ∧
    SameCourse "g" W V := by
  have hs : (Transaction.new 0 "g" .saga
      [.saga "a" "do" "undo" .null, .saga "b" "do" "undo" .null]).SubmittedSaga :=
    ⟨rfl, rfl, rfl, by decide, by decide⟩
  have hundo (id : String) : ∃ n, ∀ k, n ≤ k → secondFails "compensate" id k = true :=
    ⟨0, fun _ _ => rfl⟩
  have hW := @sagaRun_oracle .plain secondFails _ (show (Transaction.new 0 "g" .saga
      [.saga "a" "do" "undo" .null, .saga "b" "do" "undo" .null]).timeoutMillis = none from rfl)
  have hV := @sagaRun_oracle .plain secondFails _ (show (Transaction.chained (.new 0 "g" .saga
      [.saga "a" "do" "undo" .null, .saga "b" "do" "undo" .null])).timeoutMillis = none from rfl)
  refine ⟨_, _, hW, hV, (chain_agrees .plain secondFails hundo hs hW hV).mpr fun k _ b hb => ?_⟩
  have hall : ∀ b ∈ [Branch.saga "a" "do" "undo" .null, .saga "b" "do" "undo" .null],
      b.compensate ≠ none := by decide
  exact hall b (List.mem_of_mem_take hb)

/-- The branch `a` has no compensation URL: the twin does not come to its end. -/
theorem chain_stuck : ∃ W V : Nat → World,
    Dtm.plain.SagaRun secondFails (.new 0 "g" .saga
      [{ Branch.saga "a" "do" "" .null with compensate := none }, .saga "b" "do" "undo" .null]) W ∧
    Dtm.plain.SagaRun secondFails (Transaction.chained (.new 0 "g" .saga
      [{ Branch.saga "a" "do" "" .null with compensate := none }, .saga "b" "do" "undo" .null])) V ∧
    ¬ SameCourse "g" W V := by
  have hs : (Transaction.new 0 "g" .saga [{ Branch.saga "a" "do" "" .null with compensate := none },
      .saga "b" "do" "undo" .null]).SubmittedSaga := ⟨rfl, rfl, rfl, by decide, by decide⟩
  have hW := @sagaRun_oracle .plain secondFails _ (show (Transaction.new 0 "g" .saga
      [{ Branch.saga "a" "do" "" .null with compensate := none },
        .saga "b" "do" "undo" .null]).timeoutMillis = none from rfl)
  have hV := @sagaRun_oracle .plain secondFails _ (show (Transaction.chained (.new 0 "g" .saga
      [{ Branch.saga "a" "do" "" .null with compensate := none },
        .saga "b" "do" "undo" .null])).timeoutMillis = none from rfl)
  refine ⟨_, _, hW, hV, fun h => ?_⟩
  have hlost : LostAt (secondFails "action") 1 ["a", "b"] 1 := by
    refine ⟨⟨"b", rfl, by decide⟩, ?_⟩
    intro id hid
    rw [List.mem_singleton.mp hid]
    decide
  exact undoable_of_ends hs hV h.twinEnds 1 hlost _ (.head _) rfl

end RozeDtm
