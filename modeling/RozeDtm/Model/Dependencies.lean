import Mathlib.Data.Finset.Lattice.Fold
import Mathlib.Data.List.Perm.Subperm
import RozeDtm.Model.Transaction

/-!
# Accepted dependency graphs

What a transaction that `validate_transaction_dependencies` accepts is known to satisfy: the
ids of its branches are distinct, and there is a rank that falls along the dependencies.
-/

namespace RozeDtm

theorem nodup_of_size_ofList {α : Type} {l : List (String × α)}
    (h : (Std.ExtTreeMap.ofList l compare).size = l.length) : (l.map Prod.fst).Nodup := by
  set m : Std.ExtTreeMap String α := .ofList l compare
  have hsub : m.keys ⊆ l.map Prod.fst := by
    intro k hk
    have hmem := Std.ExtTreeMap.mem_ofList.mp (Std.ExtTreeMap.mem_keys.mp hk)
    simpa using hmem
  have hlen : (l.map Prod.fst).length ≤ m.keys.length := by
    rw [Std.ExtTreeMap.length_keys, h, List.length_map]
  have hperm := (Std.ExtTreeMap.nodup_keys.subperm hsub).perm_of_length_le hlen
  exact hperm.nodup_iff.mp Std.ExtTreeMap.nodup_keys

/-- The places of the branches, as `validate_dependency_graph` looks them up. -/
def branchPositions (branches : List Branch) : Std.ExtTreeMap String Nat :=
  .ofList (branches.mapIdx fun index branch => (branch.id, index))

theorem map_fst_positions (bs : List Branch) :
    (bs.mapIdx fun index branch => (branch.id, index)).map Prod.fst = bs.map Branch.id := by
  apply List.ext_getElem <;> simp

theorem position_of_getElem? {bs : List Branch} (hnodup : (bs.map Branch.id).Nodup) {i : Nat}
    {b : Branch} (hb : bs[i]? = some b) :
    (branchPositions bs)[b.id]? = some i := by
  refine Std.ExtTreeMap.getElem?_ofList_of_mem Std.ReflCmp.compare_self ?_ ?_
  · rw [← map_fst_positions] at hnodup
    refine (List.pairwise_map.mp hnodup).imp fun hne heq => hne ?_
    exact Std.LawfulEqCmp.eq_of_compare heq
  · refine List.mem_iff_getElem?.mpr ⟨i, ?_⟩
    rw [List.getElem?_mapIdx, hb]
    rfl

theorem contains_branchPositions {bs : List Branch} {d : String} :
    (branchPositions bs).contains d = true ↔ d ∈ bs.map Branch.id := by
  rw [branchPositions, Std.ExtTreeMap.contains_ofList, map_fst_positions, List.contains_iff_mem]

theorem nodup_of_size {bs : List Branch} (hsize : (branchPositions bs).size = bs.length) :
    (bs.map Branch.id).Nodup := by
  have hlen : (bs.mapIdx fun index branch => (branch.id, index)).length = bs.length :=
    List.length_mapIdx
  rw [← map_fst_positions]
  exact nodup_of_size_ofList (hsize.trans hlen.symm)

theorem size_of_nodup {bs : List Branch} (hnodup : (bs.map Branch.id).Nodup) :
    (branchPositions bs).size = bs.length := by
  rw [branchPositions, Std.ExtTreeMap.size_ofList, List.length_mapIdx]
  rw [← map_fst_positions] at hnodup
  refine (List.pairwise_map.mp hnodup).imp fun hne heq => hne ?_
  exact Std.LawfulEqCmp.eq_of_compare heq

/-- **The branch ids of an accepted graph are distinct.** -/
theorem nodup_of_validateDependencyGraph {tx : Transaction} {name : String}
    (h : validateDependencyGraph tx name = .ok ()) : (tx.branches.map Branch.id).Nodup := by
  obtain ⟨_, hsize, -⟩ := bind_eq_ok h
  rw [ensure_eq_ok, decide_eq_true_eq] at hsize
  exact nodup_of_size hsize

/-- The transactions whose branches may depend on each other. -/
theorem validateDependencyGraph_of_validate {tx : Transaction}
    (hk : tx.kind = .workflow ∨ tx.kind = .saga ∧ tx.options.concurrent = true)
    (h : validateTransactionDependencies tx = .ok ()) :
    ∃ name, validateDependencyGraph tx name = .ok () := by
  rw [validateTransactionDependencies] at h
  rcases hk with hk | ⟨hk, hconc⟩
  · rw [hk, if_pos (by decide)] at h
    obtain ⟨_, -, h⟩ := bind_eq_ok h
    exact ⟨_, h⟩
  · rw [hk, hconc] at h
    exact ⟨_, h⟩

/-- The branch ids of an accepted Workflow are distinct. -/
theorem nodup_of_validateWorkflow {tx : Transaction} (hk : tx.kind = .workflow)
    (h : validateTransactionDependencies tx = .ok ()) : (tx.branches.map Branch.id).Nodup := by
  obtain ⟨name, h⟩ := validateDependencyGraph_of_validate (Or.inl hk) h
  exact nodup_of_validateDependencyGraph h

/-! ### What decides it -/

/-- Two branches at the same place of two graphs that are the same. -/
def SameNode (a b : Branch) : Prop := b.id = a.id ∧ b.dependencies = a.dependencies

theorem forIn_congr {β : Type} {R : Branch → Branch → Prop} {as bs : List Branch}
    {f : Branch → β → Except Err (ForInStep β)} {init : β} (h : List.Forall₂ R as bs)
    (hf : ∀ {a b}, R a b → f b = f a) : forIn bs init f = forIn as init f := by
  induction h generalizing init with
  | nil => rfl
  | cons hab _ ih => simp only [List.forIn_cons, hf hab, ih]

theorem visit_congr {as bs : List Branch} {positions : Std.ExtTreeMap String Nat} {name : String}
    (h : ∀ i : Nat, bs[i]?.map Branch.dependencies = as[i]?.map Branch.dependencies) (fuel index : Nat)
    (state : Finset Nat × Finset Nat) :
    visit bs positions name fuel index state = visit as positions name fuel index state := by
  induction fuel generalizing index state with
  | zero => rw [visit, visit]
  | succ fuel ih => simp only [visit, h, ih]

/-- **Whether a graph is accepted** is decided by its ids and dependencies. -/
theorem validateDependencyGraph_congr {tx tx' : Transaction} {name : String}
    (h : List.Forall₂ SameNode tx.branches tx'.branches) :
    validateDependencyGraph tx' name = validateDependencyGraph tx name := by
  have hplace (i : Nat) : ∀ {as bs : List Branch}, List.Forall₂ SameNode as bs →
      bs[i]?.map Branch.id = as[i]?.map Branch.id ∧
      bs[i]?.map Branch.dependencies = as[i]?.map Branch.dependencies := by
    intro as bs h
    induction h generalizing i with
    | nil => exact ⟨rfl, rfl⟩
    | cons hab _ ih =>
      cases i with
      | zero => exact ⟨congrArg some hab.1, congrArg some hab.2⟩
      | succ i => exact ih i
  have hlength : tx'.branches.length = tx.branches.length := h.length_eq.symm
  have hpositions : (tx'.branches.mapIdx fun index branch => (branch.id, index)) =
      tx.branches.mapIdx fun index branch => (branch.id, index) := by
    apply List.ext_getElem?
    intro i
    rw [List.getElem?_mapIdx, List.getElem?_mapIdx]
    have hid := (hplace i h).1
    cases ha : tx.branches[i]? <;> cases hb : tx'.branches[i]? <;> simp_all
  simp only [validateDependencyGraph, hlength, hpositions, visit_congr fun i => (hplace i h).2]
  rw [forIn_congr h]
  rintro a b ⟨hid, hdeps⟩
  rw [hid, hdeps]

/-- **Whether a transaction's dependencies are accepted** is decided by its kind, its options and
the ids and dependencies of its branches. -/
theorem validateTransactionDependencies_congr {tx tx' : Transaction} (hk : tx'.kind = tx.kind)
    (ho : tx'.options = tx.options) (h : List.Forall₂ SameNode tx.branches tx'.branches) :
    validateTransactionDependencies tx' = validateTransactionDependencies tx := by
  have hempty : ∀ {as bs : List Branch}, List.Forall₂ SameNode as bs →
      (bs.all fun branch => branch.dependencies.isEmpty) =
        as.all fun branch => branch.dependencies.isEmpty := by
    intro as bs h
    induction h with
    | nil => rfl
    | cons hab _ ih => rw [List.all_cons, List.all_cons, hab.2, ih]
  simp only [validateTransactionDependencies, hk, ho, hempty h, validateDependencyGraph_congr h]


/-! ### No cycles -/

/-- Sets that are built up by adding what only points into them. -/
inductive Layered (edge : Nat → Nat → Prop) : Finset Nat → Prop
  | empty : Layered edge ∅
  | insert {D : Finset Nat} {i : Nat} (hD : Layered edge D) (hi : i ∉ D)
      (hedges : ∀ j, edge i j → j ∈ D) : Layered edge (insert i D)

/-- **Along the edges of such a set a rank falls.** -/
theorem Layered.exists_rank {edge : Nat → Nat → Prop} {D : Finset Nat} (h : Layered edge D) :
    ∃ rank : Nat → Nat, ∀ i ∈ D, ∀ j, edge i j → j ∈ D ∧ rank j < rank i := by
  induction h with
  | empty => exact ⟨fun _ => 0, fun i hi => absurd hi (Finset.notMem_empty i)⟩
  | @insert D i _ hi hedges ih =>
    obtain ⟨rank, hrank⟩ := ih
    have hne {j : Nat} (hj : j ∈ D) : j ≠ i := fun h => hi (h ▸ hj)
    refine ⟨Function.update rank i (D.sup rank + 1), fun k hk j hkj => ?_⟩
    rcases Finset.mem_insert.mp hk with rfl | hk
    · have hj : j ∈ D := hedges j hkj
      refine ⟨Finset.mem_insert_of_mem hj, ?_⟩
      rw [Function.update_self, Function.update_of_ne (hne hj)]
      exact Nat.lt_succ_of_le (Finset.le_sup hj)
    · obtain ⟨hj, hlt⟩ := hrank k hk j hkj
      refine ⟨Finset.mem_insert_of_mem hj, ?_⟩
      rw [Function.update_of_ne (hne hk), Function.update_of_ne (hne hj)]
      exact hlt

section Visit

variable {branches : List Branch} {positions : Std.ExtTreeMap String Nat} {name : String}

/-- The branch at `i` depends on the one at `j`. -/
def Points (branches : List Branch) (positions : Std.ExtTreeMap String Nat) (i j : Nat) : Prop :=
  ∃ d ∈ (branches[i]?.map Branch.dependencies).getD [], j = (positions[d]?).getD 0

/-- What a visit that has found no cycle leaves of `(visiting, visited)`. -/
structure Visited (branches : List Branch) (positions : Std.ExtTreeMap String Nat)
    (state state' : Finset Nat × Finset Nat) : Prop where
  visiting : state'.1 = state.1
  grows : state.2 ⊆ state'.2
  layered : Layered (Points branches positions) state'.2
  disjoint : Disjoint state'.1 state'.2

/-- Visits one after another. -/
theorem visited_foldlM {α : Type} {f : Finset Nat × Finset Nat → α → Except Err (Finset Nat × Finset Nat)}
    (place : α → Nat)
    (hf : ∀ {d state state'}, Layered (Points branches positions) state.2 →
      Disjoint state.1 state.2 → f state d = .ok state' →
      Visited branches positions state state' ∧ place d ∈ state'.2)
    {ds : List α} {state state' : Finset Nat × Finset Nat}
    (hl : Layered (Points branches positions) state.2) (hd : Disjoint state.1 state.2)
    (h : ds.foldlM f state = .ok state') :
    Visited branches positions state state' ∧ ∀ d ∈ ds, place d ∈ state'.2 := by
  induction ds generalizing state with
  | nil =>
    cases h
    exact ⟨⟨rfl, subset_rfl, hl, hd⟩, fun d hd => (nomatch hd)⟩
  | cons d ds ih =>
    obtain ⟨mid, hmid, h⟩ := bind_eq_ok h
    obtain ⟨hv, hat⟩ := hf hl hd hmid
    obtain ⟨hv', hats⟩ := ih hv.layered hv.disjoint h
    refine ⟨⟨hv'.visiting.trans hv.visiting, hv.grows.trans hv'.grows, hv'.layered, hv'.disjoint⟩,
      fun d' hd' => ?_⟩
    rcases List.mem_cons.mp hd' with rfl | hd'
    · exact hv'.grows hat
    · exact hats d' hd'

/-- **A visit adds its branch on top of what it points to.** -/
theorem visited_visit {fuel index : Nat} {state state' : Finset Nat × Finset Nat}
    (hl : Layered (Points branches positions) state.2) (hd : Disjoint state.1 state.2)
    (h : visit branches positions name fuel index state = .ok state') :
    Visited branches positions state state' ∧ index ∈ state'.2 := by
  induction fuel generalizing index state state' with
  | zero =>
    obtain ⟨visiting, visited⟩ := state
    rw [visit] at h
    split at h
    · rename_i hmem
      cases h
      exact ⟨⟨rfl, subset_rfl, hl, hd⟩, hmem⟩
    · split at h <;> cases h
  | succ fuel ih =>
    obtain ⟨visiting, visited⟩ := state
    rw [visit] at h
    split at h
    · rename_i hmem
      cases h
      exact ⟨⟨rfl, subset_rfl, hl, hd⟩, hmem⟩
    rename_i hvisited
    split at h
    · cases h
    rename_i hvisiting
    obtain ⟨⟨visiting', visited'⟩, hfold, h⟩ := bind_eq_ok h
    cases h
    have hdisjoint : Disjoint (insert index visiting) visited :=
      Finset.disjoint_insert_left.mpr ⟨hvisited, hd⟩
    obtain ⟨hv, hats⟩ := visited_foldlM (fun d => (positions[d]?).getD 0)
      (fun hl hd h => ih hl hd h) (by exact hl) (by exact hdisjoint) hfold
    have hindex : index ∉ visited' := by
      have hmem : index ∈ visiting' := by
        rw [show visiting' = insert index visiting from hv.visiting]
        exact Finset.mem_insert_self ..
      exact Finset.disjoint_left.mp hv.disjoint hmem
    have herase : visiting'.erase index = visiting := by
      rw [show visiting' = insert index visiting from hv.visiting]
      exact Finset.erase_insert hvisiting
    have hnot : index ∉ visiting'.erase index := Finset.notMem_erase index visiting'
    refine ⟨⟨herase, hv.grows.trans (Finset.subset_insert ..), ?_, ?_⟩, Finset.mem_insert_self ..⟩
    · refine .insert hv.layered hindex ?_
      rintro j ⟨d, hd, rfl⟩
      exact hats d hd
    · exact Finset.disjoint_insert_right.mpr
        ⟨hnot, hv.disjoint.mono_left (Finset.erase_subset ..)⟩

end Visit

/-- The branch `a` depends on the branch `b`. -/
def DependsOn (bs : List Branch) (a b : String) : Prop :=
  ∃ branch ∈ bs, branch.id = a ∧ b ∈ branch.dependencies

/-- **Along the dependencies of an accepted graph a rank falls.** -/
theorem exists_rank_of_validateDependencyGraph {tx : Transaction} {name : String}
    (h : validateDependencyGraph tx name = .ok ()) :
    ∃ rank : String → Nat, ∀ m d, DependsOn tx.branches m d → rank d < rank m := by
  have hnodup := nodup_of_validateDependencyGraph h
  obtain ⟨_, -, h⟩ := bind_eq_ok h
  obtain ⟨_, -, h⟩ := bind_eq_ok h
  obtain ⟨final, hfold, -⟩ := bind_eq_ok h
  set positions : Std.ExtTreeMap String Nat := branchPositions tx.branches
  have hposition {i : Nat} {b : Branch} (hb : tx.branches[i]? = some b) :
      positions[b.id]? = some i := position_of_getElem? hnodup hb
  obtain ⟨hv, hats⟩ := visited_foldlM id (fun hl hd h => visited_visit hl hd h) .empty
    (Finset.disjoint_empty_left _) hfold
  obtain ⟨rank, hrank⟩ := hv.layered.exists_rank
  refine ⟨fun id => rank ((positions[id]?).getD 0), ?_⟩
  rintro m d ⟨b, hb, rfl, hd⟩
  obtain ⟨i, hi⟩ := List.mem_iff_getElem?.mp hb
  show rank ((positions[d]?).getD 0) < rank ((positions[b.id]?).getD 0)
  rw [hposition hi]
  have hmem : i ∈ final.2 := hats i (by
    rw [List.mem_range]
    exact (List.getElem?_eq_some_iff.mp hi).1)
  refine (hrank i hmem _ ⟨d, ?_, rfl⟩).2
  rw [hi]
  exact hd

/-! ### Known dependencies -/

/-- Every step of a loop that comes to its end was taken. -/
theorem forIn_ok {α : Type} {as : List α} {f : α → Unit → Except Err (ForInStep Unit)} {u : Unit}
    (hyield : ∀ a s, f a () = .ok s → s = .yield ())
    (h : forIn as () f = .ok u) : ∀ a ∈ as, f a () = .ok (.yield ()) := by
  induction as with
  | nil => exact fun a ha => absurd ha List.not_mem_nil
  | cons a rest ih =>
    rw [List.forIn_cons] at h
    obtain ⟨s, hs, h⟩ := bind_eq_ok h
    cases hyield a s hs
    exact List.forall_mem_cons.mpr ⟨hs, ih h⟩

theorem foldlM_ok {α β : Type} {f : β → α → Except Err β} {as : List α} {b b' : β}
    (h : as.foldlM f b = .ok b') : ∀ a ∈ as, ∃ c c', f c a = .ok c' := by
  induction as generalizing b with
  | nil => exact fun a ha => absurd ha List.not_mem_nil
  | cons a rest ih =>
    rw [List.foldlM_cons] at h
    obtain ⟨c, hc, h⟩ := bind_eq_ok h
    exact List.forall_mem_cons.mpr ⟨⟨b, c, hc⟩, ih h⟩

/-- **What a branch of an accepted graph depends on is a branch of it.** -/
theorem exists_of_validateDependencyGraph {tx : Transaction} {name : String}
    (h : validateDependencyGraph tx name = .ok ()) {b : Branch} (hb : b ∈ tx.branches) {d : String}
    (hd : d ∈ b.dependencies) : ∃ a ∈ tx.branches, a.id = d := by
  obtain ⟨_, -, h⟩ := bind_eq_ok h
  obtain ⟨_, hloop, -⟩ := bind_eq_ok h
  have hstep := forIn_ok (fun a s hs => by
    obtain ⟨_, -, hs⟩ := bind_eq_ok hs
    cases hs
    rfl) hloop b hb
  obtain ⟨_, hfold, -⟩ := bind_eq_ok hstep
  obtain ⟨_, _, hdep⟩ := foldlM_ok hfold d hd
  obtain ⟨_, -, hdep⟩ := bind_eq_ok hdep
  obtain ⟨_, hknown, -⟩ := bind_eq_ok hdep
  rw [ensure_eq_ok] at hknown
  obtain ⟨a, ha, rfl⟩ := List.mem_map.mp (contains_branchPositions.mp hknown)
  exact ⟨a, ha, rfl⟩

end RozeDtm
