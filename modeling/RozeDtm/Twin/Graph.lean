import RozeDtm.Serial.SagaGraph
import RozeDtm.Twin.Batch

/-!
# Concurrent Messages and Sagas under two gids

The rounds of the concurrent modes.  The dependencies of a Saga are checked alike, and since a
rank falls along the ones that are accepted, no round finds its compensations unresolved, the
one error that names the gid.
-/

namespace RozeDtm

open Conc

/-! ### Errors of the dependency check -/

/-- What can be said of the error of a check. -/
def Errs (P : Err → Prop) {α : Type} (x : Except Err α) : Prop := ∀ e, x = .error e → P e

section Errs

variable {P : Err → Prop} {α β σ : Type}

theorem errs_ok (a : α) : Errs P (.ok a) := fun _ h => nomatch h

theorem errs_ensure {c : Bool} {e : Err} (h : P e) : Errs P (ensure c e) := by
  intro e' he
  unfold ensure at he
  split at he
  · cases he
  · cases he
    exact h

theorem Errs.bind {x : Except Err α} {f : α → Except Err β} (hx : Errs P x)
    (hf : ∀ a, Errs P (f a)) : Errs P (x >>= f) := by
  intro e he
  cases x with
  | error e' =>
    cases he
    exact hx e rfl
  | ok a => exact hf a e he

theorem errs_foldlM {f : σ → α → Except Err σ} {xs : List α} (hf : ∀ s, ∀ x ∈ xs, Errs P (f s x))
    (s : σ) : Errs P (xs.foldlM f s) := by
  induction xs generalizing s with
  | nil => exact errs_ok s
  | cons x xs ih =>
    rw [List.foldlM_cons]
    exact (hf s x (.head _)).bind fun s => ih (fun s y hy => hf s y (.tail _ hy)) s

theorem errs_forIn {f : α → σ → Except Err (ForInStep σ)} {xs : List α}
    (hf : ∀ x ∈ xs, ∀ s, Errs P (f x s)) (s : σ) : Errs P (forIn xs s f) := by
  induction xs generalizing s with
  | nil => exact errs_ok s
  | cons x xs ih =>
    rw [List.forIn_cons]
    refine (hf x (.head _) s).bind fun step => ?_
    cases step with
    | done s => exact errs_ok s
    | yield s => exact ih (fun y hy => hf y (.tail _ hy)) s

end Errs

theorem errs_visit {P : Err → Prop} {branches : List Branch} {positions : Std.ExtTreeMap String Nat}
    {name : String} (h : P s!"{name} dependencies contain a cycle") (fuel index : Nat)
    (state : Finset Nat × Finset Nat) :
    Errs P (visit branches positions name fuel index state) := by
  have hcycle : ∀ e, (Except.error s!"{name} dependencies contain a cycle" :
      Except Err (Finset Nat × Finset Nat)) = .error e → P e := by
    intro e he
    cases he
    exact h
  induction fuel generalizing index state with
  | zero =>
    rw [visit]
    split_ifs
    · exact errs_ok _
    · exact hcycle
    · exact hcycle
  | succ fuel ih =>
    rw [visit]
    split_ifs
    · exact errs_ok _
    · exact hcycle
    · exact (errs_foldlM (fun state d _ => ih _ state) _).bind fun state => errs_ok _

/-- The errors of `validate_dependency_graph` name branches and their dependencies. -/
theorem plain_validateDependencyGraph {tx : Transaction}
    (h : ∀ b ∈ tx.branches, ¬ Marked b.id ∧ ∀ dependency ∈ b.dependencies, ¬ Marked dependency) :
    Errs Plain (validateDependencyGraph tx "concurrent Saga") := by
  have hother : Otherwise ("concurrent Saga" ++ " branch ") := by decide
  have hbehind : Behind ("concurrent Saga" ++ " branch ") := by decide
  refine (errs_ensure (by unfold Plain; decide)).bind fun _ => ?_
  refine (errs_forIn (fun b hb s => ?_) _).bind fun _ => ?_
  · obtain ⟨hid, hdeps⟩ := h b hb
    refine (errs_foldlM (fun unique d hd => ?_) _).bind fun _ => errs_ok _
    have hd := hdeps d hd
    refine (errs_ensure ?_).bind fun _ => (errs_ensure ?_).bind fun _ =>
      (errs_ensure ?_).bind fun _ => errs_ok _
    · exact (plain_between _ " cannot depend on itself" hbehind hother (by decide)).mpr hid
    · exact (plain_two _ " has unknown dependency " hbehind hother (by decide) (by decide)
        (by decide)).mpr ⟨hid, hd⟩
    · exact (plain_two _ " repeats dependency " hbehind hother (by decide) (by decide)
        (by decide)).mpr ⟨hid, hd⟩
  · exact (errs_foldlM (fun state index _ => errs_visit (by unfold Plain; decide) _ _ _) _).bind
      fun _ => errs_ok _
theorem plain_validateTransactionDependencies {tx : Transaction} (hk : tx.kind = .saga)
    (h : ∀ b ∈ tx.branches, ¬ Marked b.id ∧ ∀ dependency ∈ b.dependencies, ¬ Marked dependency) :
    Errs Plain (validateTransactionDependencies tx) := by
  unfold validateTransactionDependencies
  rw [if_neg (not_not_intro hk)]
  split
  · exact errs_ensure (by unfold Plain; decide)
  · exact plain_validateDependencyGraph h

variable {fails : (String → Err) → Prop} {gid gid' : String} {dtm : Dtm} {tx r : Transaction}
  {w w' : World}

/-! ### Batches that are spawned -/

/-- The tasks of a batch for two gids. -/
theorem taskTwin_spawnAll {options : TransactionOptions} {op : String} {url : Branch → String}
    {base : List Branch} {ps : List (Nat × Branch)} (h : ∀ p ∈ ps, base[p.1]? = some p.2) :
    List.Forall₂ (TaskTwin gid gid' base)
      ((spawnAll options gid op url ps).map fun task => (task, .spawned))
      ((spawnAll options gid' op url ps).map fun task => (task, .spawned)) := by
  induction ps with
  | nil => exact .nil
  | cons p ps ih =>
    refine .cons ?_ (ih fun q hq => h q (.tail _ hq))
    exact ⟨rfl, rfl, rfl, ⟨p.2.id, op, rfl, rfl⟩, ⟨p.2, h p (.head _), rfl⟩,
      fun _ _ hr => nomatch hr⟩

theorem getElem?_of_mem_branchesAt {indices : List Nat} {p : Nat × Branch}
    (hp : p ∈ tx.branchesAt indices) : tx.branches[p.1]? = some p.2 := by
  obtain ⟨i, -, hi⟩ := List.mem_filterMap.mp hp
  obtain ⟨b, hb, rfl⟩ := Option.map_eq_some_iff.mp hi
  exact hb

/-- **A batch from its spawn to its last join.** -/
theorem twin_runBatch {options : TransactionOptions} {onOk onErr : BranchStatus}
    (tx : Transaction) (op : String) (url : Branch → String) (ps : List (Nat × Branch))
    {E : Err → Err → Prop}
    {Q : Transaction × List Branch → Transaction × List Branch → World → World → Prop}
    (hps : ∀ p ∈ ps, tx.branches[p.1]? = some p.2) (h : Held gid gid' r w w')
    (hQ : ∀ bs failed u u', SameBranches tx.branches bs → Held gid gid' r u u' →
      Q (({ tx with branches := bs } : Transaction).named gid, failed)
        (({ tx with branches := bs } : Transaction).named gid', failed) u u') :
    Twin fails gid gid'
      (dtm.runBatch options onOk onErr (spawnAll options gid op url ps) (tx.named gid))
      (dtm.runBatch options onOk onErr (spawnAll options gid' op url ps) (tx.named gid')) Q E
      w w' := by
  unfold Dtm.runBatch
  have hlength (g : String) : (spawnAll options g op url ps).length = ps.length := List.length_map _
  rw [hlength, hlength]
  exact twin_joinBatch tx.branches (taskTwin_spawnAll hps) (.refl _) h hQ

theorem sameBranches_mapBranchesAt (tx : Transaction) (indices : List Nat) {f : Branch → Branch}
    (hf : ∀ b, (f b).definition = b.definition) :
    SameBranches tx.branches (tx.mapBranchesAt indices f).branches := by
  refine forall₂_of_getElem? (by simp [Transaction.mapBranchesAt]) fun i a b ha hb => ?_
  rw [Transaction.mapBranchesAt, List.getElem?_mapIdx, ha, Option.map_some] at hb
  cases hb
  split
  · exact hf a
  · rfl

/-! ### Messages -/

theorem twin_dispatchMessageConcurrent (h : Held gid gid' r w w') :
    Twin fails gid gid' (dtm.dispatchMessageConcurrent (tx.named gid))
      (dtm.dispatchMessageConcurrent (tx.named gid')) (fun _ _ => Alive gid gid') BothPlain
      w w' := by
  unfold Dtm.dispatchMessageConcurrent
  refine twin_ite Iff.rfl (fun _ => ?_) fun _ => ?_
  · exact twin_persist_end (s := { tx with status := .succeeded }) h
  · refine Twin.bind (twin_claimBatch [] h fun ok u u' hu => ?_)
    cases ok with
    | false => exact twin_load_end hu
    | true =>
      set s : Transaction := tx.mapBranchesAt tx.undelivered fun branch =>
        { branch with status := .running, attempts := satAdd32 branch.attempts 1 } with hs
      refine Twin.bind (twin_persist (r := s) hu fun now u u' hu => ?_)
      refine Twin.bind (twin_runBatch s.written "message" Branch.action
        (s.written.branchesAt tx.undelivered) (fun p => getElem?_of_mem_branchesAt) hu
        fun bs failed u u' _ hu => ?_)
      exact twin_persist_end (s := { s.written with
        branches := bs, status := if failed.isEmpty then .succeeded else .succeeding }) hu

/-! ### Concurrent Sagas -/

/-- No branch without a compensation URL has a marked id. -/
def Nameable (bs : List Branch) : Prop := ∀ b ∈ bs, b.compensate = none → ¬ Marked b.id

theorem Nameable.of_same {as bs : List Branch} (h : Nameable as) (hsame : SameBranches as bs) :
    Nameable bs := by
  intro b hb hc
  obtain ⟨a, ha, hab⟩ := exists_of_forall₂ hsame hb
  rw [Branch.id_eq hab]
  exact h a ha ((Branch.compensate_eq hab).symm.trans hc)

/-- What the compensation of an accepted Saga keeps in every round: a rank that falls along the
dependencies, too. -/
def Compensable (bs : List Branch) : Prop :=
  Nameable bs ∧ ∃ rank : String → Nat, ∀ m d, DependsOn bs m d → rank d < rank m

theorem Compensable.of_same {as bs : List Branch} (h : Compensable as) (hsame : SameBranches as bs) :
    Compensable bs := by
  obtain ⟨hplain, rank, hrank⟩ := h
  refine ⟨hplain.of_same hsame, rank, fun m d => ?_⟩
  rintro ⟨b, hb, rfl, hd⟩
  obtain ⟨a, ha, hab⟩ := exists_of_forall₂ hsame hb
  refine hrank b.id d ⟨a, ha, (Branch.id_eq hab).symm, ?_⟩
  rwa [← Branch.dependencies_eq hab]

theorem sameBranches_map {f : Branch → Branch} (hf : ∀ b, (f b).definition = b.definition)
    (bs : List Branch) : SameBranches bs (bs.map f) :=
  List.forall₂_map_right_iff.mpr (List.forall₂_same.mpr fun b _ => hf b)

/-- The tasks of a compensation batch, and the branch that has no URL. -/
theorem compensationTasks_twin (tx : Transaction) (ps : List (Nat × Branch))
    (hps : ∀ p ∈ ps, tx.branches[p.1]? = some p.2) (hplain : Nameable tx.branches) :
    ∃ qs : List (Nat × Branch), (∀ p ∈ qs, tx.branches[p.1]? = some p.2) ∧
      ∃ missing, (∀ e ∈ missing, Plain e) ∧ ∀ g, Dtm.compensationTasks (tx.named g) ps =
        (spawnAll tx.options g "compensate" (fun b => b.compensate.getD "") qs, missing) := by
  induction ps with
  | nil => exact ⟨[], fun _ hq => absurd hq List.not_mem_nil, none, nofun, fun _ => rfl⟩
  | cons p ps ih =>
    obtain ⟨index, branch⟩ := p
    cases hc : branch.compensate with
    | none =>
      have hid := hplain branch (List.mem_of_getElem? (hps (index, branch) (.head _))) hc
      refine ⟨[], fun _ hq => absurd hq List.not_mem_nil,
        some ("missing Saga compensation URL for " ++ branch.id), ?_, fun g => ?_⟩
      · intro e he
        rw [Option.mem_some] at he
        rw [← he]
        exact (plain_behind "missing Saga compensation URL for " (by decide) (by decide)).mpr hid
      · rw [Dtm.compensationTasks, hc]
        rfl
    | some url =>
      obtain ⟨qs, hqs, missing, hmissing, htasks⟩ := ih fun q hq => hps q (.tail _ hq)
      refine ⟨(index, branch) :: qs, ?_, missing, hmissing, fun g => ?_⟩
      · rintro q (_ | ⟨_, hq⟩)
        · exact hps _ (.head _)
        · exact hqs q hq
      · rw [Dtm.compensationTasks, hc]
        dsimp only
        rw [htasks g]
        simp only [spawnAll, List.map_cons, hc, Option.getD_some]
        rfl

theorem twin_abortConcurrentSagaLoop {fuel : Nat} (hcomp : Compensable tx.branches)
    (h : Held gid gid' r w w') :
    Twin fails gid gid' (dtm.abortConcurrentSagaLoop fuel (tx.named gid))
      (dtm.abortConcurrentSagaLoop fuel (tx.named gid')) (fun _ _ => Alive gid gid') BothPlain
      w w' := by
  induction fuel generalizing tx r w w' with
  | zero => exact h.alive
  | succ fuel ih =>
    unfold Dtm.abortConcurrentSagaLoop
    refine twin_ite Iff.rfl (fun _ => ?_) fun hsome => ?_
    · exact twin_persist_end (s := { tx with status := .aborted }) h
    · refine twin_ite Iff.rfl (fun hnone => ?_) fun _ => ?_
      · -- among the branches that are Compensating there is one of the highest rank
        obtain ⟨b, hb, hst⟩ : ∃ b ∈ tx.branches, b.status = .compensating := by
          by_contra hall
          refine hsome (List.all_eq_true.mpr fun b hb => decide_eq_true fun hst => ?_)
          exact hall ⟨b, hb, hst⟩
        obtain ⟨rank, hrank⟩ := hcomp.2
        exact absurd (List.isEmpty_iff.mp hnone) (readyCompensations_ne_nil hrank hb hst)
      · refine Twin.bind (twin_claimBatch [] h fun ok u u' hu => ?_)
        cases ok with
        | false => exact twin_load_end hu
        | true =>
          set s : Transaction := tx.mapBranchesAt tx.readyCompensations fun branch =>
            { branch with attempts := satAdd32 branch.attempts 1 } with hs
          have hround : Compensable s.branches :=
            hcomp.of_same (sameBranches_mapBranchesAt _ _ fun _ => rfl)
          refine Twin.bind (twin_persist (r := s) hu fun now u u' hu => ?_)
          obtain ⟨qs, hqs, missing, hmissing, htasks⟩ :=
            compensationTasks_twin s.written (s.written.branchesAt tx.readyCompensations)
              (fun p => getElem?_of_mem_branchesAt) hround.1
          have htasks' (g : String) : Dtm.compensationTasks (s.written.named g)
              ((s.written.named g).branchesAt (tx.named g).readyCompensations) = _ := htasks g
          rw [htasks' gid, htasks' gid']
          have hlength (g : String) : (spawnAll s.written.options g "compensate"
              (fun b => b.compensate.getD "") qs).length = qs.length := List.length_map _
          cases missing with
          | some e =>
            dsimp only
            rw [hlength, hlength]
            refine Twin.bind (twin_abandonBatch (taskTwin_spawnAll hqs) hu fun u u' hu => ?_)
            exact BothPlain.same (hmissing e rfl)
          | none =>
            refine Twin.bind (twin_runBatch s.written _ _ _ hqs hu fun bs failed u u' hbs hu => ?_)
            refine Twin.bind (twin_persist (r := { s.written with branches := bs }) hu
              fun now u u' hu => ?_)
            refine twin_ite Iff.rfl (fun _ => ?_) fun _ => hu.alive
            exact ih (hround.of_same hbs) hu

theorem compensable_of_validate (hk : tx.kind = .saga) (hconc : tx.options.concurrent = true)
    (hplain : Nameable tx.branches) (h : validateTransactionDependencies tx = .ok ()) :
    Compensable tx.branches := by
  obtain ⟨name, hgraph⟩ := validateDependencyGraph_of_validate (Or.inr ⟨hk, hconc⟩) h
  exact ⟨hplain, exists_rank_of_validateDependencyGraph hgraph⟩

theorem twin_abortConcurrentSaga (tx : Transaction) (hk : tx.kind = .saga)
    (hconc : tx.options.concurrent = true)
    (hchecked : Errs Plain (validateTransactionDependencies tx)) (hplain : Nameable tx.branches)
    (h : Held gid gid' r w w') :
    Twin fails gid gid' (dtm.abortConcurrentSaga (tx.named gid))
      (dtm.abortConcurrentSaga (tx.named gid')) (fun _ _ => Alive gid gid') BothPlain w w' := by
  refine twin_check (r := validateTransactionDependencies tx) rfl (fun e he => ?_) fun hvalid => ?_
  · exact BothPlain.same (hchecked e he)
  · refine Twin.bind (twin_persist
      (r := { tx with status := .aborting, branches := tx.branches.map Branch.aborted }) h
      fun now u u' hu => ?_)
    refine twin_abortConcurrentSagaLoop ?_ hu
    refine (compensable_of_validate hk hconc hplain hvalid).of_same (sameBranches_map (fun b => ?_) _)
    unfold Branch.aborted
    cases b.status <;> rfl

theorem twin_startConcurrentSagaLoop {fuel : Nat} (tx : Transaction) (hk : tx.kind = .saga)
    (hconc : tx.options.concurrent = true)
    (hvalid : validateTransactionDependencies tx = .ok ()) (hplain : Nameable tx.branches)
    (h : Held gid gid' r w w') :
    Twin fails gid gid' (dtm.startConcurrentSagaLoop fuel (tx.named gid))
      (dtm.startConcurrentSagaLoop fuel (tx.named gid')) (fun _ _ => Alive gid gid') BothPlain
      w w' := by
  induction fuel generalizing tx r w w' with
  | zero => exact h.alive
  | succ fuel ih =>
    unfold Dtm.startConcurrentSagaLoop
    refine twin_ite Iff.rfl (fun _ => ?_) fun _ => ?_
    · exact twin_persist_end (s := { tx with status := .succeeded }) h
    · refine twin_ite Iff.rfl (fun _ => h.alive) fun _ => ?_
      refine Twin.bind (twin_claimBatch [] h fun ok u u' hu => ?_)
      cases ok with
      | false => exact twin_load_end hu
      | true =>
        set s : Transaction := tx.mapBranchesAt tx.readyBranches fun branch =>
          { branch with status := .running, attempts := satAdd32 branch.attempts 1 } with hs
        have hround : SameBranches tx.branches s.branches :=
          sameBranches_mapBranchesAt _ _ fun _ => rfl
        refine Twin.bind (twin_persist (r := s) hu fun now u u' hu => ?_)
        refine Twin.bind (twin_runBatch s.written "action" Branch.action
          (s.written.branchesAt tx.readyBranches) (fun p => getElem?_of_mem_branchesAt) hu
          fun bs failed u u' hbs hu => ?_)
        have hnext : SameBranches tx.branches bs :=
          forall₂_trans (fun _ _ _ h h' => h'.trans h) hround hbs
        have haccepted (s' : Transaction) (hk' : s'.kind = tx.kind) (ho : s'.options = tx.options)
            (hbs' : SameBranches tx.branches s'.branches) :
            validateTransactionDependencies s' = .ok () := by
          rw [validateTransactionDependencies_congr hk' ho hbs'.sameNode]
          exact hvalid
        refine twin_ite Iff.rfl (fun _ => ?_) fun _ => ?_
        · -- the retries are used up
          set f : Branch → Branch := fun branch =>
            if branch.status = .succeeded then { branch with status := .compensating }
            else { branch with status := .skipped, nextRetryMillis := none } with hf
          refine Twin.bind (twin_persist
            (r := { s.written with status := .aborting, branches := bs.map f }) hu
            fun now u u' hu => ?_)
          have hturned : SameBranches tx.branches (bs.map f) := by
            refine forall₂_trans (fun _ _ _ h h' => h'.trans h) hnext
              (sameBranches_map (fun b => ?_) _)
            rw [hf]
            dsimp only
            split <;> rfl
          set s' : Transaction := Transaction.written
            { s.written with status := .aborting, branches := bs.map f }
          refine twin_abortConcurrentSaga s' hk hconc ?_ (hplain.of_same hturned) hu
          rw [haccepted s' rfl rfl hturned]
          exact errs_ok ()
        · refine Twin.bind (twin_persist (r := { s.written with branches := bs }) hu
            fun now u u' hu => ?_)
          refine twin_ite Iff.rfl (fun _ => ?_) fun _ => hu.alive
          exact ih (Transaction.written { s.written with branches := bs }) hk hconc
            (haccepted _ rfl rfl hnext) (hplain.of_same hnext) hu

theorem twin_startConcurrentSaga (hk : tx.kind = .saga) (hconc : tx.options.concurrent = true)
    (hchecked : Errs Plain (validateTransactionDependencies tx)) (hplain : Nameable tx.branches)
    (h : Held gid gid' r w w') :
    Twin fails gid gid' (dtm.startConcurrentSaga (tx.named gid))
      (dtm.startConcurrentSaga (tx.named gid')) (fun _ _ => Alive gid gid') BothPlain w w' := by
  refine twin_check (r := validateTransactionDependencies tx) rfl (fun e he => ?_) fun hvalid => ?_
  · exact BothPlain.same (hchecked e he)
  · refine Twin.bind (twin_persist (r := { tx with status := .succeeding }) h fun now u u' hu => ?_)
    exact twin_startConcurrentSagaLoop (Transaction.written { tx with status := .succeeding }) hk
      hconc hvalid hplain hu

end RozeDtm
