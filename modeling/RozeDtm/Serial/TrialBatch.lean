import RozeDtm.Serial.SagaGraph
import RozeDtm.Serial.Trying

/-!
# The trial of a batch of branches

`start_concurrent_saga` calls the branches of a batch at the same time.  A task that is not joined
is one call ahead of what its branch has failed (`TaskStage.Tried`), the branches that are not
called or were joined have counted their calls (`Trial.Batch`), and an event of one task leaves
the others alone (`Trial.Apart`).
-/

namespace RozeDtm

open Conc

/-- How far the call of a task has come; the branch has counted it already. -/
def TaskStage.Tried (T : Trial) (w : World) (branch : Branch) : TaskStage → Prop
  | .spawned => T.key branch.id ∈ w.barriers ∧ T.calls w branch.id + 1 = branch.attempts ∧
      T.failures w branch.id + 1 = branch.attempts
  | .calling => T.key branch.id ∈ w.barriers ∧ T.calls w branch.id = branch.attempts ∧
      T.failures w branch.id + 1 = branch.attempts
  | .returned b true => T.key branch.id ∈ w.barriers ∧ b.id = branch.id ∧ b.status = .succeeded
  | .returned b false => b.id = branch.id ∧ b.attempts = branch.attempts ∧ T.Even w b

namespace Trial

/-- Nothing but the calls of the branch `id` and its barrier has changed. -/
structure Apart (T : Trial) (id : String) (w w' : World) : Prop where
  calls : ∀ id', id' ≠ id → T.calls w' id' = T.calls w id'
  failures : ∀ id', id' ≠ id → T.failures w' id' = T.failures w id'
  barriers : ∀ id', id' ≠ id → (T.key id' ∈ w'.barriers ↔ T.key id' ∈ w.barriers)

/-- A batch under way; `bs` are the branches of the local record, and the calls of those in
`failed` have failed. -/
structure Batch (T : Trial) (w : World) (tasks : List (BatchTask × TaskStage))
    (bs failed : List Branch) : Prop where
  places : ∀ t ∈ tasks, bs[t.1.index]? = some t.1.branch
  barriers : ∀ t ∈ tasks, t.1.call.barrier = T.key t.1.branch.id
  stages : ∀ t ∈ tasks, t.2.Tried T w t.1.branch
  limits : ∀ t ∈ tasks, t.1.branch.attempts ≤ T.limit
  indices : (tasks.map fun t => t.1.index).Nodup
  ids : (bs.map Branch.id).Nodup
  landed : ∀ (j : Nat) b, bs[j]? = some b → (∀ t ∈ tasks, t.1.index ≠ j) → b.status ≠ .succeeded →
    T.key b.id ∉ w.barriers → T.Even w b ∧ (b.attempts < T.limit ∨ b ∈ failed)
  failures : ∀ b ∈ failed, T.Even w b ∧ b.attempts ≤ T.limit ∧ b.id ∈ bs.map Branch.id ∧
    ∀ t ∈ tasks, t.1.branch.id ≠ b.id

section Batch

variable {T : Trial} {w w' : World} {id : String} {b : Branch} {bs failed : List Branch}
  {l₁ l₂ : List (BatchTask × TaskStage)} {task : BatchTask} {stage stage' : TaskStage}

theorem Apart.even (h : T.Apart id w w') (hid : b.id ≠ id) (hb : T.Even w b) : T.Even w' b :=
  ⟨(h.calls _ hid).trans hb.calls, (h.failures _ hid).trans hb.failures⟩

theorem Apart.tried (h : T.Apart id w w') (hid : b.id ≠ id) (hs : stage.Tried T w b) :
    stage.Tried T w' b := by
  match stage with
  | .spawned =>
    obtain ⟨hk, hc, hf⟩ := hs
    exact ⟨(h.barriers _ hid).mpr hk, (h.calls _ hid).symm ▸ hc, (h.failures _ hid).symm ▸ hf⟩
  | .calling =>
    obtain ⟨hk, hc, hf⟩ := hs
    exact ⟨(h.barriers _ hid).mpr hk, (h.calls _ hid).trans hc, (h.failures _ hid).symm ▸ hf⟩
  | .returned _ true => exact ⟨(h.barriers _ hid).mpr hs.1, hs.2⟩
  | .returned _ false => exact ⟨hs.1, hs.2.1, h.even (hs.1.trans_ne hid) hs.2.2⟩

/-- A branch of the batch at another place has another id. -/
theorem Batch.id_ne (hb : T.Batch w (l₁ ++ (task, stage) :: l₂) bs failed) {j : Nat}
    (hj : bs[j]? = some b) (hne : task.index ≠ j) : b.id ≠ task.branch.id := by
  have hplace := hb.places (task, stage) (by simp)
  obtain ⟨hlt, -⟩ := List.getElem?_eq_some_iff.mp hplace
  have hlt' : task.index < (bs.map Branch.id).length := by rwa [List.length_map]
  intro hid
  refine hne ((List.getElem?_inj hlt' hb.ids).mp ?_)
  rw [List.getElem?_map, List.getElem?_map, hplace, hj, Option.map_some, Option.map_some, hid]

/-- The other tasks are at other places. -/
theorem Batch.index_ne (hb : T.Batch w (l₁ ++ (task, stage) :: l₂) bs failed)
    {t : BatchTask × TaskStage} (ht : t ∈ l₁ ++ l₂) : task.index ≠ t.1.index := by
  have hindices := hb.indices
  simp only [List.map_append, List.map_cons, List.nodup_middle, List.nodup_cons] at hindices
  rw [← List.map_append] at hindices
  exact fun h => hindices.1 (h ▸ List.mem_map_of_mem ht)

/-- **One task goes on.** -/
theorem Batch.advance (hb : T.Batch w (l₁ ++ (task, stage) :: l₂) bs failed)
    (hapart : T.Apart task.branch.id w w') (hstage : stage'.Tried T w' task.branch) :
    T.Batch w' (l₁ ++ (task, stage') :: l₂) bs failed := by
  have hall {P : BatchTask → Prop} (hP : ∀ t ∈ l₁ ++ (task, stage) :: l₂, P t.1) :
      ∀ t ∈ l₁ ++ (task, stage') :: l₂, P t.1 := by
    intro t ht
    rcases InBatch.cases_around ht with rfl | ht
    · exact hP (task, stage) (by simp)
    · exact hP t (InBatch.mem_around ht)
  have hnone {j : Nat} (h : ∀ t ∈ l₁ ++ (task, stage') :: l₂, t.1.index ≠ j) :
      ∀ t ∈ l₁ ++ (task, stage) :: l₂, t.1.index ≠ j := by
    intro t ht
    rcases InBatch.cases_around ht with rfl | ht
    · exact h (task, stage') (by simp)
    · exact h t (InBatch.mem_around ht)
  refine ⟨@hall (fun t => bs[t.index]? = some t.branch) hb.places,
    @hall (fun t => t.call.barrier = T.key t.branch.id) hb.barriers, fun t ht => ?_,
    @hall (fun t => t.branch.attempts ≤ T.limit) hb.limits, ?_, hb.ids,
    fun j b hj hj' hst hfree => ?_, fun b hf => ?_⟩
  · rcases InBatch.cases_around ht with rfl | ht
    · exact hstage
    · have hmem := (InBatch.mem_around ht : t ∈ l₁ ++ (task, stage) :: l₂)
      exact hapart.tried (hb.id_ne (hb.places t hmem) (hb.index_ne ht)) (hb.stages t hmem)
  · simpa using hb.indices
  · have hid := hb.id_ne hj (hj' (task, stage') (by simp))
    obtain ⟨heven, h⟩ := hb.landed j b hj (hnone hj') hst
      fun hm => hfree ((hapart.barriers _ hid).mpr hm)
    exact ⟨hapart.even hid heven, h⟩
  · obtain ⟨heven, hle, hmem, hids⟩ := hb.failures b hf
    exact ⟨hapart.even (hids (task, stage) (by simp)).symm heven, hle, hmem,
      @hall (fun t => t.branch.id ≠ b.id) hids⟩

/-- The ids of the branches stay when one is written back. -/
theorem Batch.map_set (hb : T.Batch w (l₁ ++ (task, stage) :: l₂) bs failed)
    (hid : b.id = task.branch.id) : (bs.set task.index b).map Branch.id = bs.map Branch.id := by
  have hplace := hb.places (task, stage) (by simp)
  obtain ⟨hlt, hget⟩ := List.getElem?_eq_some_iff.mp hplace
  have hlt' : task.index < (bs.map Branch.id).length := by rwa [List.length_map]
  have hself : (bs.map Branch.id)[task.index] = b.id := by
    rw [List.getElem_map, hget, hid]
  rw [List.map_set, ← hself, List.set_getElem_self]

/-- **A task is joined.** -/
theorem Batch.join {failed' : List Branch}
    (hb : T.Batch w (l₁ ++ (task, stage) :: l₂) bs failed) (hid : b.id = task.branch.id)
    (hapart : T.Apart task.branch.id w w') (hsub : ∀ a ∈ failed, a ∈ failed')
    (hlanded : b.status ≠ .succeeded → T.key b.id ∉ w'.barriers →
      T.Even w' b ∧ (b.attempts < T.limit ∨ b ∈ failed'))
    (hfailed : ∀ a ∈ failed', a ∈ failed ∨ (a = b ∧ T.Even w' b ∧ b.attempts ≤ T.limit)) :
    T.Batch w' (l₁ ++ l₂) (bs.set task.index b) failed' := by
  have hmap := hb.map_set hid
  have hplace := hb.places (task, stage) (by simp)
  obtain ⟨hlt, -⟩ := List.getElem?_eq_some_iff.mp hplace
  have hother {t : BatchTask × TaskStage} (ht : t ∈ l₁ ++ l₂) :
      t ∈ l₁ ++ (task, stage) :: l₂ := InBatch.mem_around ht
  have hne {t : BatchTask × TaskStage} (ht : t ∈ l₁ ++ l₂) : t.1.branch.id ≠ task.branch.id :=
    hb.id_ne (hb.places t (hother ht)) (hb.index_ne ht)
  have hindices := hb.indices
  simp only [List.map_append, List.map_cons, List.nodup_middle, List.nodup_cons] at hindices
  rw [← List.map_append] at hindices
  refine ⟨fun t ht => ?_, fun t ht => hb.barriers t (hother ht),
    fun t ht => hapart.tried (hne ht) (hb.stages t (hother ht)),
    fun t ht => hb.limits t (hother ht), hindices.2, hmap ▸ hb.ids, fun j a hj hnone hst hfree => ?_,
    fun a ha => ?_⟩
  · rw [List.getElem?_set_ne (hb.index_ne ht)]
    exact hb.places t (hother ht)
  · by_cases hj' : task.index = j
    · subst hj'
      rw [List.getElem?_set_self hlt] at hj
      cases hj
      exact hlanded hst hfree
    · rw [List.getElem?_set_ne hj'] at hj
      have haid := hb.id_ne hj hj'
      obtain ⟨heven, h⟩ := hb.landed j a hj (fun t ht => by
        rcases InBatch.cases_around ht with rfl | ht
        · exact hj'
        · exact hnone t ht) hst fun hm => hfree ((hapart.barriers _ haid).mpr hm)
      exact ⟨hapart.even haid heven, h.imp id (hsub a)⟩
  · rw [hmap]
    rcases hfailed a ha with ha | ⟨rfl, heven, hle⟩
    · obtain ⟨heven, hle, hmem, hids⟩ := hb.failures a ha
      exact ⟨hapart.even (hids (task, stage) (by simp)).symm heven, hle, hmem,
        fun t ht => hids t (hother ht)⟩
    · refine ⟨heven, hle, ?_, fun t ht => ?_⟩
      · rw [hid]
        exact List.mem_map_of_mem (List.mem_of_getElem? hplace)
      · rw [hid]
        exact hne ht

end Batch

/-! ### Claiming the barriers -/

section Claim

variable {T : Trial} {w₀ w : World} {s : Transaction} {i : Nat} {R : World → Prop}
  {E : Err → World → Prop} {claimed : List BranchBarrier} {ids : List String}

theorem Idle.trans {w' : World} (h : T.Idle w₀ w) (h' : T.Idle w w') : T.Idle w₀ w' :=
  ⟨h'.calls.trans h.calls, h'.failures.trans h.failures,
    fun id hb => h'.barriers id (h.barriers id hb)⟩

/-- Giving back barriers that were taken since. -/
theorem runs_releaseTrial {Q : Unit → World → Prop} (ho : T.Open s w₀) (ht : T.Tries s.status)
    (hidle : T.Idle w₀ w) (htxs : w.txs = w₀.txs) (hnew : ∀ b ∈ claimed, b ∉ w₀.barriers)
    (hQ : ∀ w', T.Idle w₀ w' → w'.txs = w₀.txs → Q () w') :
    (alone fun _ _ => True).Runs (T.Explained R) i (claimBatch.releaseAll claimed) Q E w := by
  induction claimed generalizing w with
  | nil => exact hQ w hidle htxs
  | cons b rest ih =>
    obtain ⟨hb, hrest⟩ := List.forall_mem_cons.mp hnew
    rw [claimBatch.releaseAll]
    refine Machine.runs_bind.mpr (runs_releaseBarrier
      (fun now => explained_of_tries ((hidle.isOpen htxs ho).setClock now) ht) fun now => ?_)
    refine ih ⟨?_, ?_, fun id hid => ?_⟩ htxs hrest
    · rw [← hidle.calls]
      exact funext fun id => callsUnder_quiet rfl
    · rw [← hidle.failures]
      exact funext fun id => failuresUnder_quiet rfl
    · have hne : T.key id ≠ b := fun h => hb (h ▸ hid)
      simpa [InMemory.releaseBarrier, hne] using hidle.barriers id hid

/-- **Claiming the barriers of a batch.** -/
theorem runs_claimTrial {Q : Bool → World → Prop} (hk : T.kind = .saga) (ho : T.Open s w₀)
    (ht : T.Tries s.status) (hidle : T.Idle w₀ w) (htxs : w.txs = w₀.txs)
    (hnew : ∀ b ∈ claimed, b ∉ w₀.barriers ∧ b ∈ w.barriers)
    (taken : ∀ w', T.Idle w₀ w' → w'.txs = w₀.txs → Q false w')
    (free : ∀ w', T.Idle w₀ w' → w'.txs = w₀.txs →
      (∀ b ∈ claimed ++ ids.map T.key, b ∉ w₀.barriers ∧ b ∈ w'.barriers) → Q true w') :
    (alone fun _ _ => True).Runs (T.Explained R) i (claimBatch T.gid "action" claimed ids) Q E w := by
  induction ids generalizing w claimed with
  | nil => exact free w hidle htxs (by simpa using hnew)
  | cons id ids ih =>
    have hkey : (⟨T.gid, id, "action"⟩ : BranchBarrier) = T.key id := by
      rw [key, op, if_pos hk]
    rw [claimBatch]
    refine Machine.runs_bind.mpr (runs_barrier (show "action" ≠ "try" by decide)
      (show "action" ≠ "cancel" by decide)
      (fun now => explained_of_tries ((hidle.isOpen htxs ho).setClock now) ht)
      (fun now hb => ?_) fun now hb => ?_)
    · simp only [ne_eq, reduceCtorEq, not_false_eq_true, if_true]
      refine Machine.runs_bind.mpr (runs_releaseTrial ho ht (hidle.trans idle_decided) htxs
        (fun b hb' => (hnew b hb').1) taken)
    · simp only [ne_eq, not_true_eq_false, if_false]
      rw [hkey] at hb ⊢
      have hstep : T.Idle w ((w.setClock now).claimed i (T.key id)) :=
        ⟨funext fun _ => callsUnder_quiet rfl, funext fun _ => failuresUnder_quiet rfl,
          fun _ h => Finset.mem_insert_of_mem h⟩
      refine ih (hidle.trans hstep) htxs (fun b hb' => ?_) fun w' hidle' htxs' hall => ?_
      · rcases List.mem_append.mp hb' with hb' | hb'
        · exact ⟨(hnew b hb').1, Finset.mem_insert_of_mem (hnew b hb').2⟩
        · rw [List.mem_singleton.mp hb']
          exact ⟨fun h => hb (hidle.barriers id h), Finset.mem_insert_self _ _⟩
      · refine free w' hidle' htxs' ?_
        rw [List.map_cons, ← List.singleton_append, ← List.append_assoc]
        exact hall

end Claim

/-! ### Joining the tasks -/

section Join

variable {T : Trial} {w w' : World} {s : Transaction} {id : String} {i : Nat} {c : BranchCall}
  {R : World → Prop} {E : Err → World → Prop} {dtm : Dtm}

/-- The call of a task is issued. -/
theorem apart_began (hc : c.barrier = T.key id) (hb : w'.barriers = w.barriers)
    (hh : w'.history = (i, .began c) :: w.history) :
    T.Apart id w w' ∧ T.calls w' id = T.calls w id + 1 ∧ T.failures w' = T.failures w := by
  have hf : T.failures w' = T.failures w := by
    funext id'
    rw [failures, hh, failuresUnder_quiet rfl, failures]
  refine ⟨⟨fun id' hne => ?_, fun id' _ => congrFun hf id', fun id' _ => by rw [hb]⟩, ?_, hf⟩
  · have hne' : c.barrier ≠ T.key id' := by
      rw [hc, ne_eq, key_inj]
      exact hne.symm
    rw [calls, hh, callsUnder_quiet (by simp [Event.beginsUnder, hne']), calls]
  · rw [calls, hh, callsUnder_began hc, calls]

/-- The call of a task has returned. -/
theorem apart_ended {ok : Bool} (hc : c.barrier = T.key id) (hb : w'.barriers = w.barriers)
    (hh : w'.history = (i, .ended c ok) :: w.history) :
    T.Apart id w w' ∧ T.calls w' = T.calls w ∧
      T.failures w' id = T.failures w id + if ok then 0 else 1 := by
  have hcalls : T.calls w' = T.calls w := by
    funext id'
    rw [calls, hh, callsUnder_quiet rfl, calls]
  refine ⟨⟨fun id' _ => congrFun hcalls id', fun id' hne => ?_, fun id' _ => by rw [hb]⟩, hcalls, ?_⟩
  · have hne' : c.barrier ≠ T.key id' := by
      rw [hc, ne_eq, key_inj]
      exact hne.symm
    rw [failures, hh, failuresUnder_quiet (by cases ok <;> simp [Event.failsUnder, hne']), failures]
  · cases ok with
    | true => rw [failures, hh, failuresUnder_quiet rfl, failures, if_pos rfl, Nat.add_zero]
    | false => rw [failures, hh, failuresUnder_failed hc, failures, if_neg (by decide)]

/-- The barrier of a task is given back. -/
theorem apart_released (hb : w'.barriers = w.barriers.erase (T.key id))
    (hh : w'.history = (i, .released (T.key id)) :: w.history) :
    T.Apart id w w' ∧ T.calls w' = T.calls w ∧ T.failures w' = T.failures w := by
  have hcalls : T.calls w' = T.calls w := by
    funext id'
    rw [calls, hh, callsUnder_quiet rfl, calls]
  have hf : T.failures w' = T.failures w := by
    funext id'
    rw [failures, hh, failuresUnder_quiet rfl, failures]
  refine ⟨⟨fun id' _ => congrFun hcalls id', fun id' _ => congrFun hf id', fun id' hne => ?_⟩,
    hcalls, hf⟩
  have hne' : T.key id' ≠ T.key id := by
    rw [ne_eq, key_inj]
    exact hne
  rw [hb, Finset.mem_erase]
  exact and_iff_right hne'

/-- Calls of one branch stay within the limit. -/
theorem Apart.limited (h : T.Apart id w w') (hw : T.Limited w) (hid : T.calls w' id ≤ T.limit) :
    T.Limited w' := by
  intro id'
  by_cases hne : id' = id
  · rw [hne]
    exact hid
  · rw [h.calls id' hne]
    exact hw id'

/-- **Joining a batch**, in any order of its events. -/
theorem runs_joinTrial {fuel : Nat} {options : TransactionOptions} {tx : Transaction}
    {tasks : List (BatchTask × TaskStage)} {bs failed : List Branch} {ids : List String}
    {Q : Transaction × List Branch → World → Prop} (ho : T.Open s w) (ht : T.Tries s.status)
    (hfuel : remaining tasks ≤ fuel) (hb : T.Batch w tasks bs failed)
    (hids : bs.map Branch.id = ids)
    (hQ : ∀ w' bs failed, T.Open s w' → T.Batch w' [] bs failed → bs.map Branch.id = ids →
      Q ({ tx with branches := bs }, failed) w') :
    (alone fun _ _ => True).Runs (T.Explained R) i
      (dtm.joinBatch options .succeeded .failed fuel tasks { tx with branches := bs } failed)
      Q E w := by
  induction fuel generalizing w tasks bs failed with
  | zero =>
    cases tasks with
    | nil => exact hQ w bs failed ho hb hids
    | cons t ts => cases hstage : t.2 <;> simp [remaining, TaskStage.remaining, hstage] at hfuel
  | succ fuel ih =>
    cases tasks with
    | nil => exact hQ w bs failed ho hb hids
    | cons t ts =>
      simp only [Dtm.joinBatch]
      refine Machine.runs_bind.mpr (runs_call
        (fun now => explained_of_tries (ho.setClock now) ht) fun now c _ => ?_)
      dsimp only [InMemory.exec]
      generalize Fin.ofNat (ts.length + 1) c.pick = k
      obtain ⟨l₁, l₂, haround, herase, hset⟩ := exists_around (t :: ts) k
      generalize (t :: ts).get k = event at haround
      obtain ⟨task, stage⟩ := event
      rw [haround] at hb hfuel
      have hmem : (task, stage) ∈ l₁ ++ (task, stage) :: l₂ := by simp
      have hkey : task.call.barrier = T.key task.branch.id := hb.barriers _ hmem
      have hstage : stage.Tried T w task.branch := hb.stages _ hmem
      have hlimit : task.branch.attempts ≤ T.limit := hb.limits _ hmem
      -- what the loop does after a step of the task
      have advance {w' : World} {stage' : TaskStage} (h : stage'.remaining + 1 = stage.remaining)
          (htxs : w'.txs = w.txs) (hapart : T.Apart task.branch.id w w')
          (hcalls : T.calls w' task.branch.id ≤ T.limit)
          (hstage' : stage'.Tried T w' task.branch) :
          (alone fun _ _ => True).Runs (T.Explained R) i (dtm.joinBatch options .succeeded .failed
            fuel ((t :: ts).set k (task, stage')) { tx with branches := bs } failed) Q E w' := by
        rw [hset]
        refine ih ⟨?_, hapart.limited ho.limited hcalls, ?_⟩ ?_ (hb.advance hapart hstage') hids
        · rw [World.Keyed, htxs]
          exact ho.keyed
        · rw [htxs]
          exact ho.stored
        · simp only [remaining, List.map_append, List.map_cons, List.sum_append, List.sum_cons]
            at hfuel ⊢
          omega
      cases stage with
      | spawned =>
        -- the call is issued
        simp only [Dtm.advanceTask]
        refine Machine.runs_bind.mpr (Machine.runs_bind.mpr (runs_call
          (fun now' => explained_of_tries ((ho.setClock now).setClock now') ht) fun now' c' _ => ?_))
        obtain ⟨hheld, hc, hf⟩ := hstage
        obtain ⟨hapart, hc', hf'⟩ := @apart_began T w
          (((w.setClock now).setClock now').note i (.began task.call)) _ i _ hkey rfl rfl
        have hcalls := hc'.trans hc
        refine advance rfl rfl hapart (hcalls.le.trans hlimit) ⟨hheld, hcalls, ?_⟩
        exact (congrArg (· + 1) (congrFun hf' _)).trans hf
      | calling =>
        simp only [Dtm.advanceTask]
        refine Machine.runs_bind.mpr (Machine.runs_bind.mpr (runs_invokeEnd
          (fun now' => explained_of_tries ((ho.setClock now).setClock now') ht) fun now' ok => ?_))
        obtain ⟨hheld, hc, hf⟩ := hstage
        obtain ⟨hapart, hc', hf'⟩ := @apart_ended T w
          (((w.setClock now).setClock now').note i (.ended task.call ok)) _ i _ ok hkey rfl rfl
        have hle := ((congrFun hc' _).trans hc).le.trans hlimit
        refine Machine.runs_bind.mpr ?_
        cases ok with
        | true => exact advance rfl rfl hapart hle ⟨hheld, rfl, rfl⟩
        | false =>
          simp only [Dtm.settleTask, Bool.false_eq_true, if_false]
          have ho' : T.Open s (((w.setClock now).setClock now').note i (.ended task.call false)) :=
            ⟨ho.keyed, hapart.limited ho.limited hle, ho.stored⟩
          refine Machine.runs_bind.mpr (runs_call
            (fun now'' => explained_of_tries (ho'.setClock now'') ht) fun now'' c' _ => ?_)
          refine advance rfl rfl ⟨hapart.calls, hapart.failures, hapart.barriers⟩ hle ?_
          refine ⟨rfl, rfl, ?_, ?_⟩
          · exact (congrFun hc' _).trans hc
          · exact hf'.trans hf
      | returned b succeeded =>
        have hrest : remaining (l₁ ++ l₂) ≤ fuel := by
          simp only [remaining, List.map_append, List.map_cons, List.sum_append, List.sum_cons,
            TaskStage.remaining] at hfuel ⊢
          omega
        cases succeeded with
        | true =>
          simp only [if_true]
          rw [herase]
          obtain ⟨-, hid, hst⟩ := hstage
          have hapart : T.Apart task.branch.id w (w.setClock now) :=
            ⟨fun _ _ => rfl, fun _ _ => rfl, fun _ _ => Iff.rfl⟩
          refine ih (ho.setClock now) hrest (hb.join hid hapart (fun _ h => h)
            (fun h => absurd hst h) fun a ha => Or.inl ha) ?_
          rw [hb.map_set hid]
          exact hids
        | false =>
          simp only [Bool.false_eq_true, if_false]
          rw [herase]
          obtain ⟨hid, hatt, heven⟩ := hstage
          refine Machine.runs_bind.mpr (runs_releaseBarrier
            (fun now' => explained_of_tries ((ho.setClock now).setClock now') ht) fun now' => ?_)
          rw [hkey]
          obtain ⟨hapart, hc, hf⟩ := @apart_released T w
            ((InMemory.releaseBarrier ((w.setClock now).setClock now')
              (T.key task.branch.id)).note i (.released (T.key task.branch.id))) _ i rfl rfl
          have heven' := Even.mk ((congrFun hc _).trans heven.calls)
            ((congrFun hf _).trans heven.failures)
          have hle : b.attempts ≤ T.limit := hatt ▸ hlimit
          refine ih ⟨ho.keyed, hapart.limited ho.limited ?_, ho.stored⟩ hrest (hb.join hid hapart
            (fun _ h => List.mem_append_left _ h) (fun _ _ => ⟨heven', Or.inr (by simp)⟩)
            fun a ha => ?_) ?_
          · rw [hc]
            exact ho.limited _
          · rcases List.mem_append.mp ha with ha | ha
            · exact Or.inl ha
            · exact Or.inr ⟨List.mem_singleton.mp ha, heven', hle⟩
          · rw [hb.map_set hid]
            exact hids

end Join

/-! ### The rounds -/

/-- The local record at the start of a round; `ids` are those of its branches. -/
structure Round (T : Trial) (s : Transaction) (ids : List String) (w : World) (tx : Transaction) :
    Prop extends T.Of tx where
  isOpen : T.Open s w
  record : T.Record w s
  tries : T.Tries s.status
  status : tx.status = .succeeding
  nodup : (tx.branches.map Branch.id).Nodup
  ids : tx.branches.map Branch.id = ids
  counted : T.Counted w tx.branches

section Rounds

variable {T : Trial} {w w' : World} {s tx : Transaction} {ids : List String} {i : Nat} {b : Branch}
  {bs failed : List Branch} {dtm : Dtm} {options : TransactionOptions} {f : Branch → Branch}
  {url : Branch → String}

theorem counted_of_branches (h : ∀ b ∈ bs, b.status ≠ .succeeded → T.key b.id ∉ w.barriers →
    T.Even w b ∧ b.attempts < T.limit) : T.Counted w bs := by
  intro id b hdue hfree
  obtain ⟨hmem, rfl, hst⟩ := due_eq_some hdue
  exact h b hmem hst hfree

/-- Where no two branches have the same id, each is the one that is due. -/
theorem Counted.branch (h : T.Counted w bs) (hn : (bs.map Branch.id).Nodup) (hb : b ∈ bs)
    (hst : b.status ≠ .succeeded) (hfree : T.key b.id ∉ w.barriers) :
    T.Even w b ∧ b.attempts < T.limit := by
  refine h b.id b ?_ hfree
  have hsome : (due b.id bs).isSome := by
    rw [due, List.find?_isSome]
    exact ⟨b, hb, by simp [hst]⟩
  obtain ⟨a, ha⟩ := Option.isSome_iff_exists.mp hsome
  obtain ⟨hmem, hid, -⟩ := due_eq_some ha
  rw [ha, List.inj_on_of_nodup_map hn hmem hb hid]

theorem Batch.counted (h : T.Batch w [] bs failed) (hlt : ∀ b ∈ failed, b.attempts < T.limit) :
    T.Counted w bs := by
  refine counted_of_branches fun b hb hst hfree => ?_
  obtain ⟨j, hj⟩ := List.mem_iff_getElem?.mp hb
  obtain ⟨heven, h⟩ := h.landed j b hj (fun t ht => nomatch ht) hst hfree
  exact ⟨heven, h.elim id (hlt b)⟩

/-- **A batch from its spawn to its last join**; its barriers are taken, and its branches have
counted their calls. -/
theorem runs_runTrial (url : Branch → String) (ready : List Nat) {R : World → Prop}
    {E : Err → World → Prop} {Q : Transaction × List Branch → World → Prop} (hk : T.kind = .saga)
    (hg : tx.gid = T.gid) (ho : T.Open s w) (ht : T.Tries s.status)
    (hready : ∀ j ∈ ready, ∃ b, tx.branches[j]? = some b) (hnodup : ready.Nodup)
    (hn : (tx.branches.map Branch.id).Nodup) (hids : tx.branches.map Branch.id = ids)
    (htried : ∀ j ∈ ready, ∀ b, tx.branches[j]? = some b →
      T.key b.id ∈ w.barriers ∧ T.calls w b.id + 1 = b.attempts ∧
        T.failures w b.id + 1 = b.attempts ∧ b.attempts ≤ T.limit)
    (hrest : ∀ (j : Nat) b, tx.branches[j]? = some b → j ∉ ready → b.status ≠ .succeeded →
      T.key b.id ∉ w.barriers → T.Even w b ∧ b.attempts < T.limit)
    (hQ : ∀ w' bs failed, T.Open s w' → T.Batch w' [] bs failed → bs.map Branch.id = ids →
      Q ({ tx with branches := bs }, failed) w') :
    (alone fun _ _ => True).Runs (T.Explained R) i (dtm.runBatch options .succeeded .failed
      (spawnAll options tx.gid "action" url (tx.branchesAt ready)) tx) Q E w := by
  have hmem {t : BatchTask × TaskStage}
      (ht : t ∈ (spawnAll options tx.gid "action" url (tx.branchesAt ready)).map fun task =>
        (task, TaskStage.spawned)) : ∃ p ∈ tx.branchesAt ready,
      ((⟨p.1, p.2, Dtm.branchCall options tx.gid p.2 (url p.2) "action"⟩ : BatchTask),
        TaskStage.spawned) = t := by
    obtain ⟨task, htask, rfl⟩ := List.mem_map.mp ht
    obtain ⟨p, hp, rfl⟩ := List.mem_map.mp htask
    exact ⟨p, hp, rfl⟩
  refine runs_joinTrial ho ht ?_ ?_ hids hQ
  · simp [remaining, TaskStage.remaining, Function.comp_def, Nat.mul_comm]
  · refine ⟨fun t ht => ?_, fun t ht => ?_, fun t ht => ?_, fun t ht => ?_, ?_, hn,
      fun j b hj hnone hst hfree => (hrest j b hj (fun hj' => ?_) hst hfree).imp id Or.inl,
      fun _ h => by cases h⟩
    · obtain ⟨p, hp, rfl⟩ := hmem ht
      exact branchesAt_getElem? hp
    · obtain ⟨p, hp, rfl⟩ := hmem ht
      rw [key, op, if_pos hk, ← hg]
      rfl
    · obtain ⟨p, hp, rfl⟩ := hmem ht
      obtain ⟨hj, hb⟩ := mem_branchesAt.mp hp
      obtain ⟨hheld, hc, hf, -⟩ := htried p.1 hj p.2 hb
      exact ⟨hheld, hc, hf⟩
    · obtain ⟨p, hp, rfl⟩ := hmem ht
      obtain ⟨hj, hb⟩ := mem_branchesAt.mp hp
      exact (htried p.1 hj p.2 hb).2.2.2
    · simpa [spawnAll, Function.comp_def, branchesAt_map_fst hready] using hnodup
    · have hp : (j, b) ∈ tx.branchesAt ready := mem_branchesAt.mpr ⟨hj', hj⟩
      exact hnone _ (List.mem_map_of_mem (List.mem_map_of_mem hp)) rfl

/-- The branches whose barriers a round has taken; `w` is the world before. -/
def Taken (T : Trial) (tx : Transaction) (w w' : World) : Prop :=
  ∀ j ∈ tx.readyBranches, ∀ a, tx.branches[j]? = some a →
    T.key a.id ∉ w.barriers ∧ T.key a.id ∈ w'.barriers

/-- What a round makes of the branches that it calls. -/
theorem mapped_place {ready : List Nat} (hid : ∀ b, (f b).id = b.id) {j : Nat}
    (hb : (tx.mapBranchesAt ready f).branches[j]? = some b) :
    ∃ a, tx.branches[j]? = some a ∧ b.id = a.id ∧ (j ∈ ready → b = f a) ∧ (j ∉ ready → b = a) := by
  obtain ⟨a, ha, rfl⟩ := Option.map_eq_some_iff.mp (getElem?_mapBranchesAt.symm.trans hb)
  refine ⟨a, ha, ?_⟩
  split
  · rename_i hj
    exact ⟨hid a, fun _ => rfl, fun h => absurd hj h⟩
  · rename_i hj
    exact ⟨rfl, fun h => absurd h hj, fun _ => rfl⟩

theorem map_id_mapBranchesAt {ready : List Nat} (hid : ∀ b, (f b).id = b.id) :
    (tx.mapBranchesAt ready f).branches.map Branch.id = tx.branches.map Branch.id := by
  refine List.ext_getElem? fun j => ?_
  rw [List.getElem?_map, List.getElem?_map, getElem?_mapBranchesAt, Option.map_map]
  refine congrArg (fun g => Option.map g tx.branches[j]?) (funext fun b => ?_)
  simp only [Function.comp_apply]
  split
  · exact hid b
  · rfl

/-- The branches that are called have counted their calls. -/
theorem Round.tried (h : T.Round s ids w tx) (hid : ∀ b, (f b).id = b.id)
    (hatt : ∀ b, (f b).attempts = satAdd32 b.attempts 1) (hidle : T.Idle w w')
    (htaken : T.Taken tx w w') {j : Nat} (hj : j ∈ tx.readyBranches)
    (hb : (tx.mapBranchesAt tx.readyBranches f).branches[j]? = some b) :
    T.key b.id ∈ w'.barriers ∧ T.calls w' b.id + 1 = b.attempts ∧
      T.failures w' b.id + 1 = b.attempts ∧ b.attempts ≤ T.limit := by
  obtain ⟨a, ha, hba, hin, -⟩ := mapped_place hid hb
  obtain ⟨hfree, hheld⟩ := htaken j hj a ha
  obtain ⟨_, ha', hsta, -⟩ := mem_readyBranches_iff.mp hj
  cases ha.symm.trans ha'
  have hnot : a.status ≠ .succeeded := by rcases hsta with h | h <;> rw [h] <;> decide
  obtain ⟨heven, hlt⟩ := h.counted.branch h.nodup (List.mem_of_getElem? ha) hnot hfree
  have heven' := hidle.even heven
  have hattempts : b.attempts = a.attempts + 1 := by
    rw [hin hj, hatt]
    exact satAdd32_attempts hlt
  rw [hba, hattempts]
  refine ⟨hheld, ?_, ?_, hlt⟩
  · rw [heven'.calls]
  · rw [heven'.failures]

/-- The others are as they were. -/
theorem Round.rest (h : T.Round s ids w tx) (hid : ∀ b, (f b).id = b.id) (hidle : T.Idle w w')
    {j : Nat} (hb : (tx.mapBranchesAt tx.readyBranches f).branches[j]? = some b)
    (hj : j ∉ tx.readyBranches) (hst : b.status ≠ .succeeded) (hfree : T.key b.id ∉ w'.barriers) :
    T.Even w' b ∧ b.attempts < T.limit := by
  obtain ⟨a, ha, -, -, hout⟩ := mapped_place hid hb
  cases hout hj
  exact (h.counted.branch h.nodup (List.mem_of_getElem? ha) hst fun hm =>
    hfree (hidle.barriers _ hm)).imp hidle.even id

theorem Round.counted_mapped (h : T.Round s ids w tx) (hid : ∀ b, (f b).id = b.id)
    (hidle : T.Idle w w') (htaken : T.Taken tx w w') :
    T.Counted w' (tx.mapBranchesAt tx.readyBranches f).branches := by
  refine counted_of_branches fun b hmem hst hfree => ?_
  obtain ⟨j, hb⟩ := List.mem_iff_getElem?.mp hmem
  by_cases hj : j ∈ tx.readyBranches
  · obtain ⟨a, ha, hba, -⟩ := mapped_place hid hb
    exact absurd (htaken j hj a ha).2 (hba ▸ hfree)
  · exact h.rest hid hidle hb hj hst hfree

/-- **The loop of `start_concurrent_saga`.** -/
theorem runs_startConcurrentSagaLoop {fuel : Nat} (hk : T.kind = .saga)
    (hlimit : sagaMaxAttempts T.options = T.limit) (hround : T.Round s ids w tx) :
    (alone fun _ _ => True).Runs (T.Explained (T.Spent ids)) i (dtm.startConcurrentSagaLoop fuel tx)
      (fun _ w => T.Inv w ∧ T.Explained (T.Spent ids) w)
      (fun _ w => T.Inv w ∧ T.Explained (T.Spent ids) w) w := by
  have hend {w : World} {s : Transaction} (ho : T.Open s w) (hr : T.Record w s)
      (ht : T.Tries s.status) (now : Nat) :
      T.Inv (w.setClock now) ∧ T.Explained (T.Spent ids) (w.setClock now) :=
    ⟨Inv.setClock ⟨s, ho, hr⟩ now, explained_of_tries (ho.setClock now) ht⟩
  have htries : T.Tries .succeeding := Or.inr (if_pos hk).symm
  induction fuel generalizing s tx w with
  | zero => exact hend hround.isOpen hround.record hround.tries w.clock
  | succ fuel ih =>
    have hshow (now : Nat) := (hend hround.isOpen hround.record hround.tries now).2
    rw [Dtm.startConcurrentSagaLoop]
    split
    · refine runs_persistTrial hround.isOpen
        ⟨hround.toOf.change _ .succeeded, fun h => (by cases h),
        fun h => absurd h (not_tries rfl)⟩ hshow fun now w' _ _ _ ho hr => ?_
      refine ⟨⟨_, ho, hr⟩, ho.limited, ?_⟩
      rintro ⟨s', hs', hst'⟩
      cases ho.stored.symm.trans hs'
      rcases hst' with h | h <;> cases h
    dsimp only
    split
    · exact hend hround.isOpen hround.record hround.tries w.clock
    rw [hround.gid]
    refine Machine.runs_bind.mpr (runs_claimTrial hk hround.isOpen hround.tries
      ⟨rfl, rfl, fun _ h => h⟩ rfl (fun _ h => by cases h) (fun w₁ hidle₁ htxs₁ => ?_)
      fun w₁ hidle₁ htxs₁ hheld => ?_)
    · -- another attempt holds a barrier
      have hdone := hend (hidle₁.isOpen htxs₁ hround.isOpen) (hidle₁.record hround.record) hround.tries
      simp only [Bool.false_eq_true, if_false]
      exact runs_loadTransaction (fun now => (hdone now).2) (fun now _ _ => hdone now)
        fun now _ _ => hdone now
    · simp only [if_true]
      generalize hf : (fun branch : Branch =>
        { branch with status := .running, attempts := satAdd32 branch.attempts 1 }) = f
      have hid : ∀ b, (f b).id = b.id := fun b => by rw [← hf]
      have hatt : ∀ b, (f b).attempts = satAdd32 b.attempts 1 := fun b => by rw [← hf]
      have hids := @map_id_mapBranchesAt tx f tx.readyBranches hid
      have ho₁ := hidle₁.isOpen htxs₁ hround.isOpen
      have ht₁ : T.Tries tx.status := hround.status ▸ htries
      have htaken : T.Taken tx w w₁ := by
        intro j hj a ha
        refine hheld (T.key a.id) ?_
        rw [List.nil_append, List.map_map]
        exact List.mem_map.mpr ⟨(j, a), mem_branchesAt.mpr ⟨hj, ha⟩, rfl⟩
      -- the branches are written as Running
      refine Machine.runs_bind.mpr (runs_persistTrial ho₁ ⟨hround.toOf.change _ _, ?_,
        fun _ => hround.counted_mapped hid hidle₁ htaken⟩
        (fun now => explained_of_tries (ho₁.setClock now) hround.tries)
        fun now₂ w₂ hidle₂ hbar₂ _ ho₂ hr₂ => ?_)
      · show tx.status = .submitted → _
        rw [hround.status]
        intro h
        cases h
      have htaken₂ : T.Taken tx w w₂ := by
        rw [Taken, hbar₂]
        exact htaken
      refine Machine.runs_bind.mpr (runs_runTrial Branch.action tx.readyBranches hk hround.gid ho₂ ht₁
        (fun j hj => ?_) (nodup_indices ..) (hids ▸ hround.nodup) (hids.trans hround.ids)
        (fun j hj b hb => hround.tried hid hatt (hidle₁.trans hidle₂) htaken₂ hj hb)
        (fun j b hb hj => hround.rest hid (hidle₁.trans hidle₂) hb hj)
        fun w₃ bs failed ho₃ hb₃ hids₃ => ?_)
      · obtain ⟨b, hb⟩ := mem_readyBranches hj
        exact ⟨_, getElem?_mapBranchesAt.trans (by rw [hb]; rfl)⟩
      dsimp only
      have hmax : sagaMaxAttempts tx.options = T.limit := by rw [hround.options, hlimit]
      split
      · -- a branch has used up its attempts
        rename_i hspent
        obtain ⟨b, hb, hle⟩ := List.any_eq_true.mp hspent
        obtain ⟨heven, hle', hmem, -⟩ := hb₃.failures b hb
        have hle : T.limit ≤ b.attempts := hmax ▸ of_decide_eq_true hle
        refine Machine.runs_bind.mpr (runs_persistTrial ho₃
          ⟨⟨hround.gid, hround.kind, hround.options⟩, fun h => (by cases h),
            fun h => absurd h (not_tries rfl)⟩
          (fun now => explained_of_tries (ho₃.setClock now) ht₁) fun now w₄ hidle₄ _ _ ho₄ hr₄ => ?_)
        refine runs_abortSpent (keeps_abortConcurrentSaga
          ⟨hround.gid, hround.kind, hround.options⟩) ⟨_, ho₄, hr₄⟩ ⟨b.id, hids₃ ▸ hmem, ?_⟩
        rw [hidle₄.failures, heven.failures]
        omega
      · -- every branch that has failed may be called again
        rename_i hleft
        have hlt : ∀ b ∈ failed, b.attempts < T.limit := by
          intro b hb
          refine Nat.not_le.mp fun hle => hleft (List.any_eq_true.mpr ⟨b, hb, decide_eq_true ?_⟩)
          show sagaMaxAttempts tx.options ≤ b.attempts
          rw [hmax]
          exact hle
        have hcounted := hb₃.counted hlt
        refine Machine.runs_bind.mpr (runs_persistTrial ho₃
          ⟨⟨hround.gid, hround.kind, hround.options⟩, ?_, fun _ => hcounted⟩ (fun now => explained_of_tries (ho₃.setClock now) ht₁)
          fun now w₄ hidle₄ _ _ ho₄ hr₄ => ?_)
        · show tx.status = .submitted → _
          rw [hround.status]
          intro h
          cases h
        split
        · refine ih ⟨?_, ho₄, hr₄, ht₁, hround.status, hb₃.ids, hids₃, hidle₄.counted hcounted⟩
          exact ⟨hround.gid, hround.kind, hround.options⟩
        · exact hend ho₄ hr₄ ht₁ w₄.clock

end Rounds

end Trial

end RozeDtm
