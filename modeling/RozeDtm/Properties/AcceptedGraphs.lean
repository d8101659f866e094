import RozeDtm.Model.Dependencies

/-!
# The accepted dependency graphs

`validate_dependency_graph` comes to an end on every list of branches, and accepts it exactly
when the ids are distinct, every dependency is another branch of the list, no branch repeats
one, and the branches can be put in an order in which each comes after what it depends on.

* `VisitsAll`: the calls of `visit` as they come to an end, without a bound on their depth.
* `visitsAll_search`: the search over a graph comes to an end.
* `visit_of_rank`: it finds no cycle where a rank falls along the dependencies.
-/

namespace RozeDtm

/-! ### What is accepted -/

/-- The branches are in an order in which each comes after all its dependencies. -/
def InOrder (order : List Branch) : Prop :=
  ∀ before branch after, order = before ++ branch :: after →
    ∀ d ∈ branch.dependencies, d ∈ before.map Branch.id

/-- The graphs that can be executed. -/
structure Acyclic (branches : List Branch) : Prop where
  distinct : (branches.map Branch.id).Nodup
  known : ∀ branch ∈ branches, ∀ d ∈ branch.dependencies,
    d ≠ branch.id ∧ d ∈ branches.map Branch.id
  unrepeated : ∀ branch ∈ branches, branch.dependencies.Nodup
  ordered : ∃ order, order.Perm branches ∧ InOrder order

/-! ### The search comes to an end -/

section Search

variable (branches : List Branch) (positions : Std.ExtTreeMap String Nat) (name : String)

mutual

/-- A call of `visit` that comes to an end, and what it returns. -/
inductive Visits : Nat → Finset Nat × Finset Nat → Except Err (Finset Nat × Finset Nat) → Prop
  | known {index : Nat} {visiting visited : Finset Nat} (hvisited : index ∈ visited) :
      Visits index (visiting, visited) (.ok (visiting, visited))
  | cycle {index : Nat} {visiting visited : Finset Nat} (hvisited : index ∉ visited)
      (hvisiting : index ∈ visiting) :
      Visits index (visiting, visited) (.error s!"{name} dependencies contain a cycle")
  | enter {index : Nat} {visiting visited : Finset Nat} (hvisited : index ∉ visited)
      (hvisiting : index ∉ visiting) {result : Except Err (Finset Nat × Finset Nat)}
      (hdependencies : VisitsAll
        (((branches[index]?.map Branch.dependencies).getD []).map fun d => (positions[d]?).getD 0)
        (insert index visiting, visited) result) :
      Visits index (visiting, visited)
        (result.map fun state => (state.1.erase index, insert index state.2))

/-- Calls of `visit` one after another, up to the first that fails. -/
inductive VisitsAll :
    List Nat → Finset Nat × Finset Nat → Except Err (Finset Nat × Finset Nat) → Prop
  | done {state : Finset Nat × Finset Nat} : VisitsAll [] state (.ok state)
  | failed {index : Nat} {rest : List Nat} {state : Finset Nat × Finset Nat} {e : Err}
      (h : Visits index state (.error e)) : VisitsAll (index :: rest) state (.error e)
  | next {index : Nat} {rest : List Nat} {state mid : Finset Nat × Finset Nat}
      {result : Except Err (Finset Nat × Finset Nat)} (h : Visits index state (.ok mid))
      (hrest : VisitsAll rest mid result) : VisitsAll (index :: rest) state result

end

end Search

section Terminates

variable {branches : List Branch} {positions : Std.ExtTreeMap String Nat} {name : String}

/-- The calls that the dependencies of a branch ask for, once each of them comes to an end. -/
theorem visitsAll_foldlM {α : Type} (place : α → Nat) {visiting : Finset Nat}
    {f : Finset Nat × Finset Nat → α → Except Err (Finset Nat × Finset Nat)} {ds : List α}
    (hf : ∀ d ∈ ds, ∀ visited, Visits branches positions name (place d) (visiting, visited)
        (f (visiting, visited) d) ∧ ∀ state, f (visiting, visited) d = .ok state → state.1 = visiting)
    (visited : Finset Nat) :
    VisitsAll branches positions name (ds.map place) (visiting, visited)
        (ds.foldlM f (visiting, visited)) ∧
      ∀ state, ds.foldlM f (visiting, visited) = .ok state → state.1 = visiting := by
  induction ds generalizing visited with
  | nil =>
    refine ⟨.done, fun state h => ?_⟩
    cases h
    rfl
  | cons d ds ih =>
    obtain ⟨hd, hsame⟩ := hf d List.mem_cons_self visited
    rw [List.foldlM_cons, List.map_cons]
    cases hmid : f (visiting, visited) d with
    | error e =>
      rw [hmid] at hd
      exact ⟨.failed hd, fun state h => nomatch h⟩
    | ok mid =>
      obtain ⟨visiting', visited'⟩ := mid
      obtain rfl : visiting' = visiting := hsame _ hmid
      rw [hmid] at hd
      obtain ⟨hrest, hsame'⟩ := ih (fun d' hd' => hf d' (List.mem_cons_of_mem d hd')) visited'
      exact ⟨.next hd hrest, hsame'⟩

theorem exists_of_map_eq_ok {α β : Type} {f : α → β} {x : Except Err α} {b : β}
    (h : x.map f = .ok b) : ∃ a, x = .ok a ∧ f a = b := by
  cases x with
  | error e => cases h
  | ok a =>
    cases h
    exact ⟨a, rfl, rfl⟩

/-- A call of `visit` for a branch that was not met before. -/
theorem visit_enter {fuel index : Nat} {visiting visited : Finset Nat} (hvisited : index ∉ visited)
    (hvisiting : index ∉ visiting) :
    visit branches positions name (fuel + 1) index (visiting, visited) =
      (((branches[index]?.map Branch.dependencies).getD []).foldlM
        (fun state d => visit branches positions name fuel ((positions[d]?).getD 0) state)
        (insert index visiting, visited)).map
          fun state => (state.1.erase index, insert index state.2) := by
  rw [visit, if_neg hvisited, if_neg hvisiting]
  show Except.bind _ _ = _
  cases ((branches[index]?.map Branch.dependencies).getD []).foldlM
      (fun state d => visit branches positions name fuel ((positions[d]?).getD 0) state)
      (insert index visiting, visited) with
  | error e => rfl
  | ok state => rfl

/-- **A call of `visit` comes to an end**: every call under way has its own branch. -/
theorem visits_visit (hplace : ∀ branch ∈ branches, ∀ d ∈ branch.dependencies,
      (positions[d]?).getD 0 < branches.length)
    {fuel index : Nat} {visiting visited : Finset Nat} (hindex : index < branches.length)
    (hvisiting : visiting ⊆ Finset.range branches.length)
    (hfuel : branches.length < fuel + visiting.card) :
    Visits branches positions name index (visiting, visited)
        (visit branches positions name fuel index (visiting, visited)) ∧
      ∀ state, visit branches positions name fuel index (visiting, visited) = .ok state →
        state.1 = visiting := by
  induction fuel generalizing index visiting visited with
  | zero =>
    have hcard : visiting.card ≤ (Finset.range branches.length).card := Finset.card_le_card hvisiting
    rw [Finset.card_range] at hcard
    omega
  | succ fuel ih =>
    by_cases hknown : index ∈ visited
    · rw [visit, if_pos hknown]
      refine ⟨.known hknown, fun state h => ?_⟩
      cases h
      rfl
    by_cases hcycle : index ∈ visiting
    · rw [visit, if_neg hknown, if_pos hcycle]
      exact ⟨.cycle hknown hcycle, fun state h => by cases h⟩
    have hinside : insert index visiting ⊆ Finset.range branches.length :=
      Finset.insert_subset (Finset.mem_range.mpr hindex) hvisiting
    have hcard : (insert index visiting).card = visiting.card + 1 := Finset.card_insert_of_notMem hcycle
    have hdependencies : ∀ d ∈ (branches[index]?.map Branch.dependencies).getD [],
        (positions[d]?).getD 0 < branches.length := by
      rw [List.getElem?_eq_getElem hindex]
      exact hplace _ (List.getElem_mem hindex)
    obtain ⟨hall, hsame⟩ := visitsAll_foldlM (fun d => (positions[d]?).getD 0)
      (f := fun state d => visit branches positions name fuel ((positions[d]?).getD 0) state)
      (fun d hd visited => ih (hdependencies d hd) hinside (by omega)) visited
    rw [visit_enter hknown hcycle]
    refine ⟨.enter hknown hcycle hall, fun state h => ?_⟩
    obtain ⟨mid, hmid, rfl⟩ := exists_of_map_eq_ok h
    show mid.1.erase index = visiting
    rw [hsame mid hmid]
    exact Finset.erase_insert hcycle

/-- **Where a rank falls along the dependencies, no cycle is found.** -/
theorem visit_of_rank {rank : Nat → Nat} (hrank : ∀ i j, Points branches positions i j → rank j < rank i)
    {fuel index : Nat} {visiting : Finset Nat} (visited : Finset Nat) (hfuel : rank index < fuel)
    (hvisiting : ∀ i ∈ visiting, rank index < rank i) :
    ∃ visited', visit branches positions name fuel index (visiting, visited) =
      .ok (visiting, visited') := by
  induction fuel generalizing index visiting visited with
  | zero => omega
  | succ fuel ih =>
    by_cases hknown : index ∈ visited
    · rw [visit, if_pos hknown]
      exact ⟨visited, rfl⟩
    have hnot : index ∉ visiting := fun hmem => Nat.lt_irrefl _ (hvisiting index hmem)
    rw [visit_enter hknown hnot]
    have hfold : ∀ ds : List String, (∀ d ∈ ds, d ∈ (branches[index]?.map Branch.dependencies).getD []) →
        ∀ visited, ∃ visited', ds.foldlM
          (fun state d => visit branches positions name fuel ((positions[d]?).getD 0) state)
          (insert index visiting, visited) = .ok (insert index visiting, visited') := by
      intro ds hds
      induction ds with
      | nil => exact fun visited => ⟨visited, rfl⟩
      | cons d ds ihds =>
        intro visited
        have hlower : rank ((positions[d]?).getD 0) < rank index :=
          hrank index _ ⟨d, hds d List.mem_cons_self, rfl⟩
        have habove : ∀ i ∈ insert index visiting, rank ((positions[d]?).getD 0) < rank i := by
          intro i hi
          rcases Finset.mem_insert.mp hi with rfl | hi
          · exact hlower
          · exact hlower.trans (hvisiting i hi)
        have hfuel' : rank ((positions[d]?).getD 0) < fuel := by omega
        obtain ⟨mid, hmid⟩ := ih visited hfuel' habove
        obtain ⟨visited', hrest⟩ := ihds (fun d' hd' => hds d' (List.mem_cons_of_mem d hd')) mid
        refine ⟨visited', ?_⟩
        rw [List.foldlM_cons, hmid]
        exact hrest
    obtain ⟨visited', hvisited'⟩ := hfold _ (fun d hd => hd) visited
    rw [hvisited']
    refine ⟨insert index visited', ?_⟩
    show Except.ok ((insert index visiting).erase index, insert index visited') = _
    rw [Finset.erase_insert hnot]

end Terminates

/-! ### The checks before the search -/

/-- What is checked of a dependency of the branch `id`, after the ones in `unique`. -/
def checkDependency (positions : Std.ExtTreeMap String Nat) (graphName id : String)
    (unique : List String) (dependency : String) : Except Err (List String) := do
  ensure (dependency ≠ id) s!"{graphName} branch {id} cannot depend on itself"
  ensure (positions.contains dependency)
    s!"{graphName} branch {id} has unknown dependency {dependency}"
  ensure (!unique.contains dependency) s!"{graphName} branch {id} repeats dependency {dependency}"
  return dependency :: unique

/-- What `validate_dependency_graph` checks before it searches for a cycle. -/
def dependencyChecks (transaction : Transaction) (graphName : String) : Except Err Unit := do
  let branches := transaction.branches
  let positions := branchPositions branches
  ensure (positions.size = branches.length) s!"{graphName} branch ids must be unique"
  for branch in branches do
    let _ ← branch.dependencies.foldlM (checkDependency positions graphName branch.id) []

/-- Its search, from every branch in turn. -/
def dependencySearch (branches : List Branch) (graphName : String) :
    Except Err (Finset Nat × Finset Nat) :=
  let positions := branchPositions branches
  (List.range branches.length).foldlM
    (fun state index => visit branches positions graphName (branches.length + 1) index state)
    (∅, ∅)

theorem validateDependencyGraph_eq (tx : Transaction) (name : String) :
    validateDependencyGraph tx name = (do
      dependencyChecks tx name
      let _ ← dependencySearch tx.branches name) := by
  rw [validateDependencyGraph, dependencyChecks]
  simp only [bind_assoc]
  rfl

theorem forIn_eq_ok {α : Type} {as : List α} {f : α → Unit → Except Err (ForInStep Unit)}
    (h : ∀ a ∈ as, f a () = .ok (.yield ())) : forIn as () f = .ok () := by
  induction as with
  | nil => rfl
  | cons a rest ih =>
    rw [List.forIn_cons, h a List.mem_cons_self]
    exact ih fun b hb => h b (List.mem_cons_of_mem a hb)

/-- The loop over the dependencies of one branch. -/
theorem foldlM_checkDependency {positions : Std.ExtTreeMap String Nat} {name id : String}
    {ds unique : List String} :
    (∃ u, ds.foldlM (checkDependency positions name id) unique = .ok u) ↔
      (∀ d ∈ ds, d ≠ id ∧ positions.contains d = true ∧ d ∉ unique) ∧ ds.Nodup := by
  induction ds generalizing unique with
  | nil => exact ⟨fun _ => ⟨fun d hd => (nomatch hd), List.nodup_nil⟩, fun _ => ⟨unique, rfl⟩⟩
  | cons d ds ih =>
    rw [List.foldlM_cons]
    constructor
    · rintro ⟨u, h⟩
      obtain ⟨mid, hmid, h⟩ := bind_eq_ok h
      obtain ⟨_, hown, hmid⟩ := bind_eq_ok hmid
      obtain ⟨_, hknown, hmid⟩ := bind_eq_ok hmid
      obtain ⟨_, hnew, hmid⟩ := bind_eq_ok hmid
      cases hmid
      obtain ⟨hrest, hnodup⟩ := ih.mp ⟨u, h⟩
      rw [ensure_eq_ok] at hown hknown hnew
      have hd : d ∉ unique := by simpa using hnew
      refine ⟨List.forall_mem_cons.mpr ⟨⟨of_decide_eq_true hown, hknown, hd⟩, fun d' hd' => ?_⟩, ?_⟩
      · obtain ⟨hne, hk, hnot⟩ := hrest d' hd'
        exact ⟨hne, hk, fun hmem => hnot (List.mem_cons_of_mem d hmem)⟩
      · exact List.nodup_cons.mpr ⟨fun hmem => (hrest d hmem).2.2 List.mem_cons_self, hnodup⟩
    · rintro ⟨hall, hnodup⟩
      obtain ⟨⟨hown, hknown, hnew⟩, hrest⟩ := List.forall_mem_cons.mp hall
      obtain ⟨hnot, hnodup⟩ := List.nodup_cons.mp hnodup
      obtain ⟨u, hu⟩ := ih.mpr ⟨fun d' hd' => ⟨(hrest d' hd').1, (hrest d' hd').2.1, fun hmem => by
        rcases List.mem_cons.mp hmem with rfl | hmem
        · exact hnot hd'
        · exact (hrest d' hd').2.2 hmem⟩, hnodup⟩
      have hcontains : unique.contains d = false := by simpa using hnew
      refine ⟨u, ?_⟩
      rw [checkDependency, hknown, hcontains, decide_eq_true hown]
      exact hu

/-- **The checks pass** when the ids are distinct and the dependencies are other branches, none
twice. -/
theorem dependencyChecks_eq_ok {tx : Transaction} {name : String} :
    dependencyChecks tx name = .ok () ↔ (tx.branches.map Branch.id).Nodup ∧
      ∀ branch ∈ tx.branches, (∀ d ∈ branch.dependencies,
        d ≠ branch.id ∧ d ∈ tx.branches.map Branch.id) ∧ branch.dependencies.Nodup := by
  rw [dependencyChecks]
  set positions : Std.ExtTreeMap String Nat := branchPositions tx.branches
  have hbranch (branch : Branch) :
      (∃ u, branch.dependencies.foldlM (checkDependency positions name branch.id) [] = .ok u) ↔
        (∀ d ∈ branch.dependencies, d ≠ branch.id ∧ d ∈ tx.branches.map Branch.id) ∧
          branch.dependencies.Nodup := by
    rw [foldlM_checkDependency]
    simp only [positions, contains_branchPositions, List.not_mem_nil, not_false_eq_true, and_true]
  constructor
  · intro h
    obtain ⟨_, hsize, h⟩ := bind_eq_ok h
    obtain ⟨_, hloop, -⟩ := bind_eq_ok h
    rw [ensure_eq_ok, decide_eq_true_eq] at hsize
    refine ⟨nodup_of_size hsize, fun branch hmem => (hbranch branch).mp ?_⟩
    have hstep := forIn_ok (fun a s hs => by
      obtain ⟨_, -, hs⟩ := bind_eq_ok hs
      cases hs
      rfl) hloop branch hmem
    obtain ⟨u, hu, -⟩ := bind_eq_ok hstep
    exact ⟨u, hu⟩
  · rintro ⟨hnodup, hall⟩
    have hsize : positions.size = tx.branches.length := size_of_nodup hnodup
    rw [ensure, if_pos (decide_eq_true hsize)]
    have hloop : (forIn tx.branches () fun branch _ => do
        let _ ← branch.dependencies.foldlM (checkDependency positions name branch.id) []
        return ForInStep.yield ()) = Except.ok () := by
      refine forIn_eq_ok fun branch hmem => ?_
      obtain ⟨u, hu⟩ := (hbranch branch).mpr (hall branch hmem)
      rw [hu]
      rfl
    show (do
      forIn tx.branches () fun branch _ => do
        let _ ← branch.dependencies.foldlM (checkDependency positions name branch.id) []
        return ForInStep.yield ()
      return ()) = Except.ok ()
    rw [hloop]
    rfl

/-! ### The graphs that are accepted -/

/-- In such an order the place of a branch is above that of its dependencies. -/
theorem idxOf_lt_of_inOrder {order : List Branch} (hnodup : (order.map Branch.id).Nodup)
    (h : InOrder order) {branch : Branch} (hbranch : branch ∈ order) {d : String}
    (hd : d ∈ branch.dependencies) :
    (order.map Branch.id).idxOf d < (order.map Branch.id).idxOf branch.id := by
  obtain ⟨before, after, rfl⟩ := List.append_of_mem hbranch
  have hbefore : d ∈ before.map Branch.id := h before branch after rfl d hd
  rw [List.map_append, List.map_cons] at hnodup ⊢
  have hnot : branch.id ∉ before.map Branch.id := fun hmem =>
    (List.disjoint_of_nodup_append hnodup) hmem List.mem_cons_self
  rw [List.idxOf_append_of_mem hbefore, List.idxOf_append_of_notMem hnot, List.idxOf_cons_self]
  have hlt := List.idxOf_lt_length_of_mem hbefore
  omega

/-- Branches that are sorted by a rank which falls along the dependencies. -/
theorem inOrder_of_rank {order : List Branch} (rank : String → Nat)
    (hsorted : order.Pairwise fun a b => rank a.id ≤ rank b.id)
    (hfalls : ∀ branch ∈ order, ∀ d ∈ branch.dependencies,
      d ∈ order.map Branch.id ∧ rank d < rank branch.id) : InOrder order := by
  rintro before branch after rfl d hd
  obtain ⟨hknown, hlt⟩ := hfalls branch (List.mem_append_right before List.mem_cons_self) d hd
  obtain ⟨a, ha, rfl⟩ := List.mem_map.mp hknown
  rw [List.pairwise_append, List.pairwise_cons] at hsorted
  rcases List.mem_append.mp ha with ha | ha
  · exact List.mem_map_of_mem ha
  rcases List.mem_cons.mp ha with rfl | ha
  · omega
  · have hle := hsorted.2.1.1 a ha
    omega

/-- The place of every dependency of a graph that passes the checks. -/
theorem place_of_checks {tx : Transaction} {name : String}
    (h : dependencyChecks tx name = .ok ()) {branch : Branch} (hbranch : branch ∈ tx.branches)
    {d : String} (hd : d ∈ branch.dependencies) :
    ∃ j a, tx.branches[j]? = some a ∧ a.id = d ∧ ((branchPositions tx.branches)[d]?).getD 0 = j := by
  obtain ⟨hnodup, hall⟩ := dependencyChecks_eq_ok.mp h
  obtain ⟨a, ha, rfl⟩ := List.mem_map.mp ((hall branch hbranch).1 d hd).2
  obtain ⟨j, hj⟩ := List.mem_iff_getElem?.mp ha
  refine ⟨j, a, hj, rfl, ?_⟩
  rw [position_of_getElem? hnodup hj]
  rfl

/-- **The search over a graph that passes the checks comes to an end.** -/
theorem visitsAll_search {tx : Transaction} {name : String} (h : dependencyChecks tx name = .ok ()) :
    VisitsAll tx.branches (branchPositions tx.branches) name
      (List.range tx.branches.length) (∅, ∅) (dependencySearch tx.branches name) := by
  have hplace : ∀ branch ∈ tx.branches, ∀ d ∈ branch.dependencies,
      ((branchPositions tx.branches)[d]?).getD 0 < tx.branches.length := by
    intro branch hbranch d hd
    obtain ⟨j, a, hj, -, hplace⟩ := place_of_checks h hbranch hd
    rw [hplace]
    exact (List.getElem?_eq_some_iff.mp hj).1
  rw [← List.map_id (List.range tx.branches.length)]
  refine (visitsAll_foldlM id (fun index hindex visited => ?_) ∅).1
  exact visits_visit hplace (List.mem_range.mp hindex) (Finset.empty_subset _) (by omega)

/-- **Where the branches can be put in order, the search finds no cycle.** -/
theorem dependencySearch_of_inOrder {tx : Transaction} {name : String}
    (h : dependencyChecks tx name = .ok ()) {order : List Branch} (hperm : order.Perm tx.branches)
    (horder : InOrder order) : ∃ state, dependencySearch tx.branches name = .ok state := by
  have hnodup : (order.map Branch.id).Nodup :=
    (hperm.map Branch.id).nodup_iff.mpr (dependencyChecks_eq_ok.mp h).1
  let rank (i : Nat) : Nat := (tx.branches[i]?.map fun branch =>
    (order.map Branch.id).idxOf branch.id).getD 0
  have hfalls : ∀ i j, Points tx.branches (branchPositions tx.branches) i j → rank j < rank i := by
    rintro i j ⟨d, hd, rfl⟩
    cases hi : tx.branches[i]? with
    | none =>
      rw [hi] at hd
      cases hd
    | some branch =>
      rw [hi] at hd
      have hbranch : branch ∈ tx.branches := List.mem_of_getElem? hi
      obtain ⟨j, a, hj, rfl, hplace⟩ := place_of_checks h hbranch hd
      rw [hplace]
      show (tx.branches[j]?.map _).getD 0 < (tx.branches[i]?.map _).getD 0
      rw [hi, hj]
      exact idxOf_lt_of_inOrder hnodup horder (hperm.mem_iff.mpr hbranch) hd
  have hbound (i : Nat) : rank i < tx.branches.length + 1 := by
    show (tx.branches[i]?.map _).getD 0 < _
    cases hi : tx.branches[i]? with
    | none => exact Nat.succ_pos _
    | some branch =>
      have hmem : branch.id ∈ order.map Branch.id :=
        List.mem_map_of_mem (hperm.mem_iff.mpr (List.mem_of_getElem? hi))
      have hlt := List.idxOf_lt_length_of_mem hmem
      rw [List.length_map, hperm.length_eq] at hlt
      exact Nat.lt_succ_of_lt hlt
  have hsearch : ∀ indices : List Nat, ∀ visited, ∃ state, indices.foldlM
      (fun state index => visit tx.branches (branchPositions tx.branches) name
        (tx.branches.length + 1) index state) (∅, visited) = .ok state := by
    intro indices
    induction indices with
    | nil => exact fun visited => ⟨_, rfl⟩
    | cons index indices ih =>
      intro visited
      obtain ⟨mid, hmid⟩ : ∃ mid, visit tx.branches (branchPositions tx.branches) name
          (tx.branches.length + 1) index (∅, visited) = .ok (∅, mid) :=
        visit_of_rank hfalls visited (hbound index) fun i hi => absurd hi (Finset.notMem_empty i)
      obtain ⟨state, hstate⟩ := ih mid
      refine ⟨state, ?_⟩
      rw [List.foldlM_cons, hmid]
      exact hstate
  exact hsearch _ ∅

/-- The run of `validate_dependency_graph`, without a bound on the depth of its search. -/
inductive ValidationReturns (tx : Transaction) (name : String) : Except Err Unit → Prop
  | refused {e : Err} (h : dependencyChecks tx name = .error e) : ValidationReturns tx name (.error e)
  | searched {result : Except Err (Finset Nat × Finset Nat)}
      (h : dependencyChecks tx name = .ok ())
      (hsearch : VisitsAll tx.branches (branchPositions tx.branches) name
        (List.range tx.branches.length) (∅, ∅) result) :
      ValidationReturns tx name (result.map fun _ => ())

/-- **The validator returns** on every graph. -/
theorem validationReturns (tx : Transaction) (name : String) :
    ValidationReturns tx name (validateDependencyGraph tx name) := by
  rw [validateDependencyGraph_eq]
  cases h : dependencyChecks tx name with
  | error e => exact .refused h
  | ok u =>
    have hreturns := ValidationReturns.searched h (visitsAll_search h)
    show ValidationReturns tx name ((dependencySearch tx.branches name).bind fun _ => .ok ())
    cases hsearch : dependencySearch tx.branches name with
    | error e =>
      rw [hsearch] at hreturns
      exact hreturns
    | ok state =>
      rw [hsearch] at hreturns
      exact hreturns

/-- **What an accepted graph satisfies.** -/
theorem acyclic_of_validateDependencyGraph {tx : Transaction} {name : String}
    (h : validateDependencyGraph tx name = .ok ()) : Acyclic tx.branches := by
  obtain ⟨rank, hrank⟩ := exists_rank_of_validateDependencyGraph h
  rw [validateDependencyGraph_eq] at h
  obtain ⟨_, hchecks, -⟩ := bind_eq_ok h
  obtain ⟨hnodup, hall⟩ := dependencyChecks_eq_ok.mp hchecks
  refine ⟨hnodup, fun branch hbranch => (hall branch hbranch).1,
    fun branch hbranch => (hall branch hbranch).2, ?_⟩
  let below (a b : Branch) : Bool := rank a.id ≤ rank b.id
  have hperm : (tx.branches.mergeSort below).Perm tx.branches := List.mergeSort_perm ..
  refine ⟨tx.branches.mergeSort below, hperm, inOrder_of_rank rank ?_ ?_⟩
  · have hsorted : (tx.branches.mergeSort below).Pairwise fun a b => below a b = true := by
      refine List.pairwise_mergeSort (fun a b c hab hbc => ?_) (fun a b => ?_) tx.branches
      · simp only [below, decide_eq_true_eq] at hab hbc ⊢
        omega
      · simp only [below, Bool.or_eq_true, decide_eq_true_eq]
        omega
    exact hsorted.imp fun {a b} (hle : below a b = true) =>
      (of_decide_eq_true hle : rank a.id ≤ rank b.id)
  · intro branch hbranch d hd
    have hbranch : branch ∈ tx.branches := hperm.mem_iff.mp hbranch
    exact ⟨(hperm.map Branch.id).mem_iff.mpr ((hall branch hbranch).1 d hd).2,
      hrank branch.id d ⟨branch, hbranch, rfl, hd⟩⟩

/-- **A graph that can be executed is accepted.** -/
theorem validateDependencyGraph_of_acyclic {tx : Transaction} {name : String}
    (h : Acyclic tx.branches) : validateDependencyGraph tx name = .ok () := by
  obtain ⟨hnodup, hknown, hunrepeated, order, hperm, horder⟩ := h
  have hchecks : dependencyChecks tx name = .ok () := dependencyChecks_eq_ok.mpr
    ⟨hnodup, fun branch hbranch => ⟨hknown branch hbranch, hunrepeated branch hbranch⟩⟩
  obtain ⟨state, hstate⟩ := dependencySearch_of_inOrder hchecks hperm horder
  rw [validateDependencyGraph_eq, hchecks, hstate]
  rfl

/-- **The dependency validator accepts exactly the acyclic graphs**: it returns for every list of
branches, with success if and only if the graph is one. -/
theorem validator_accepts_acyclic (tx : Transaction) (name : String) :
    ValidationReturns tx name (validateDependencyGraph tx name) ∧
      (validateDependencyGraph tx name = .ok () ↔ Acyclic tx.branches) := by
  exact ⟨validationReturns tx name, acyclic_of_validateDependencyGraph,
    validateDependencyGraph_of_acyclic⟩

end RozeDtm
