import RozeDtm.Model.System
import RozeDtm.Relational.XaDecisions

/-!
# What an XA resource id identifies

A resource id is a gid and a branch id with a hyphen between them, and both may have hyphens of
their own.  Two branches have the same one exactly when they are equal or clash: when the
hyphen that ends one gid lies inside the other.  Where no two clash, the resource id is as good
as the pair, for `resolve` and for the reconciliation report.
-/

namespace RozeDtm

/-! ### Clashes -/

/-- A branch by its gid and its branch id. -/
def XaBranchDescriptor.key (branch : XaBranchDescriptor) : String × String :=
  (branch.gid, branch.branchId)

/-- The branch that a decision is about. -/
def XaHeuristicRecord.key (record : XaHeuristicRecord) : String × String :=
  (record.gid, record.branchId)

/-- The hyphen that ends the gid of `l` lies inside the gid of `k`. -/
def ClashAt (k l : String × String) : Prop :=
  ∃ x, k.1 = l.1 ++ "-" ++ x ∧ l.2 = x ++ "-" ++ k.2

/-- Two branches that are cut apart at different hyphens. -/
def Clash (k l : String × String) : Prop := ClashAt k l ∨ ClashAt l k

theorem Clash.symm {k l : String × String} (h : Clash k l) : Clash l k := Or.symm h

theorem ClashAt.joined {k l : String × String} (h : ClashAt k l) :
    k.1 ++ "-" ++ k.2 = l.1 ++ "-" ++ l.2 := by
  obtain ⟨x, hgid, hid⟩ := h
  rw [hgid, hid]
  simp only [String.append_assoc]

theorem ClashAt.ne {k l : String × String} (h : ClashAt k l) : k ≠ l := by
  rintro rfl
  obtain ⟨x, hgid, -⟩ := h
  have hlength := congrArg String.length hgid
  rw [String.length_append, String.length_append] at hlength
  have hone : "-".length = 1 := rfl
  omega

/-- A gid that goes on behind the other one goes on with a hyphen. -/
theorem eq_or_clashAt {k l : String × String} {x : List Char}
    (hgid : l.1.toList = k.1.toList ++ x)
    (hrest : '-' :: k.2.toList = x ++ '-' :: l.2.toList) : k = l ∨ ClashAt l k := by
  cases x with
  | nil =>
    rw [List.append_nil] at hgid
    obtain ⟨-, hid⟩ := List.cons.inj hrest
    exact Or.inl (Prod.ext (String.toList_injective hgid).symm (String.toList_injective hid))
  | cons c x =>
    obtain ⟨rfl, hid⟩ := List.cons.inj hrest
    refine Or.inr ⟨String.ofList x, ?_, ?_⟩
    · apply String.toList_injective
      simp only [String.toList_append, String.toList_ofList, List.append_assoc]
      exact hgid
    · apply String.toList_injective
      simp only [String.toList_append, String.toList_ofList, List.append_assoc]
      exact hid

/-- **Two branches have one resource id** exactly when they are equal or clash. -/
theorem joined_eq_iff {k l : String × String} :
    k.1 ++ "-" ++ k.2 = l.1 ++ "-" ++ l.2 ↔ k = l ∨ Clash k l := by
  constructor
  · intro h
    have hlist := congrArg String.toList h
    simp only [String.toList_append, List.append_assoc] at hlist
    rcases List.append_eq_append_iff.mp hlist with ⟨x, hl, hk⟩ | ⟨x, hk, hl⟩
    · exact (eq_or_clashAt hl hk).imp id Or.inr
    · exact (eq_or_clashAt hk hl).imp Eq.symm Or.inl
  · rintro (rfl | h | h)
    · rfl
    · exact h.joined
    · exact h.joined.symm

theorem Clash.ne {k l : String × String} (h : Clash k l) : k ≠ l :=
  h.elim ClashAt.ne fun h => h.ne.symm

theorem resourceId_eq_iff {b c : XaBranchDescriptor} :
    b.resourceId = c.resourceId ↔ b.key = c.key ∨ Clash b.key c.key :=
  joined_eq_iff (k := b.key) (l := c.key)

theorem XaHeuristicRecord.resourceId_eq_iff {record : XaHeuristicRecord} {b : XaBranchDescriptor} :
    record.resourceId = b.resourceId ↔ record.key = b.key ∨ Clash record.key b.key :=
  joined_eq_iff (k := record.key) (l := b.key)

/-! ### `resolve` -/

/-- `resolve` for `b` leaves what `c` has prepared. -/
def LeavesPrepared (lib : UrlLib) (d : XaDialect) (b c : XaBranchDescriptor) : Prop :=
  ∀ phase fate resources, (resources c.resourceId).state = .prepared →
    (d.resolveIn lib b phase fate resources).2 c.resourceId = resources c.resourceId

/-- A `resolve` that is carried out on a prepared resource resolves it. -/
theorem resolve_commits {lib : UrlLib} {d : XaDialect} {b : XaBranchDescriptor} {r : XaResource}
    (hcheck : d.check lib b = .ok ()) (hr : r.state = .prepared) :
    (d.resolve lib b .commit .done r).2 = ⟨.committed, true⟩ := by
  rw [XaDialect.resolve, hcheck]
  simp only [XaResource.phase2, if_pos hr]
  rfl

/-- **What the `resolve` of one branch does to another's resource.** -/
theorem leavesPrepared_iff {lib : UrlLib} {d : XaDialect} {b c : XaBranchDescriptor}
    (hne : b.key ≠ c.key) :
    LeavesPrepared lib d b c ↔ ¬ (Clash b.key c.key ∧ d.check lib b = .ok ()) := by
  constructor
  · rintro h ⟨hclash, hcheck⟩
    have hid : b.resourceId = c.resourceId := resourceId_eq_iff.mpr (Or.inr hclash)
    have hleft := h .commit .done (fun _ => ⟨.prepared, true⟩) rfl
    simp only [XaDialect.resolveIn, ← hid, Function.update_self] at hleft
    rw [resolve_commits hcheck rfl] at hleft
    cases hleft
  · intro h phase fate resources hprepared
    by_cases hid : b.resourceId = c.resourceId
    · have hclash : Clash b.key c.key := (resourceId_eq_iff.mp hid).resolve_left hne
      simp only [XaDialect.resolveIn, ← hid, Function.update_self]
      rw [XaDialect.resolve]
      cases hcheck : d.check lib b with
      | error e => rfl
      | ok u => exact absurd ⟨hclash, hcheck⟩ h
    · exact Function.update_of_ne (Ne.symm hid) _ _

/-! ### The report -/

section Report

variable (prepared : List XaBranchDescriptor) (decisions : List XaHeuristicRecord)

/-- The branch has a pending decision of its own. -/
def HasPending (key : String × String) : Prop :=
  ∃ record ∈ decisions, record.pending = true ∧ record.key = key

/-- The prepared branches without a pending decision of their own are what the report lists. -/
def ReportsPrepared : Prop :=
  ∀ b ∈ prepared, b.resourceId ∈ (buildReconciliationReport
    (prepared.map XaBranchDescriptor.resourceId) decisions).preparedWithoutDecision ↔
      ¬ HasPending decisions b.key

variable {prepared decisions}

/-- What the report lists: the prepared ids that are no pending decision's. -/
theorem mem_preparedWithoutDecision {ids : List String} {id : String} :
    id ∈ (buildReconciliationReport ids decisions).preparedWithoutDecision ↔
      id ∈ ids ∧ ∀ record ∈ decisions, record.pending = true → record.resourceId ≠ id := by
  simp only [buildReconciliationReport, List.mem_filter, mem_sortedSet, Bool.not_eq_true',
    List.contains_eq_mem, decide_eq_false_iff_not, List.mem_map, not_exists, not_and, and_imp]

/-- **What is reported of a prepared branch.** -/
theorem listed_iff {b : XaBranchDescriptor} (hb : b ∈ prepared) :
    b.resourceId ∈ (buildReconciliationReport
        (prepared.map XaBranchDescriptor.resourceId) decisions).preparedWithoutDecision ↔
      ¬ HasPending decisions b.key ∧
        ∀ record ∈ decisions, record.pending = true → ¬ Clash record.key b.key := by
  rw [mem_preparedWithoutDecision]
  constructor
  · rintro ⟨-, h⟩
    refine ⟨?_, fun record hrecord hpending hclash => ?_⟩
    · rintro ⟨record, hrecord, hpending, hkey⟩
      exact h record hrecord hpending (XaHeuristicRecord.resourceId_eq_iff.mpr (Or.inl hkey))
    · exact h record hrecord hpending (XaHeuristicRecord.resourceId_eq_iff.mpr (Or.inr hclash))
  · rintro ⟨hown, hclash⟩
    refine ⟨List.mem_map_of_mem hb, fun record hrecord hpending hid => ?_⟩
    rcases XaHeuristicRecord.resourceId_eq_iff.mp hid with hkey | h
    · exact hown ⟨record, hrecord, hpending, hkey⟩
    · exact hclash record hrecord hpending h

/-- **When the report is right**: no prepared branch without a pending decision clashes with
one that is pending. -/
theorem reportsPrepared_iff : ReportsPrepared prepared decisions ↔
    ∀ b ∈ prepared, ¬ HasPending decisions b.key →
      ∀ record ∈ decisions, record.pending = true → ¬ Clash record.key b.key := by
  constructor
  · intro h b hb hnone
    exact ((listed_iff hb).mp ((h b hb).mpr hnone)).2
  · intro h b hb
    rw [listed_iff hb]
    exact ⟨And.left, fun hnone => ⟨hnone, h b hb hnone⟩⟩

/-- Nothing else is listed than prepared branches. -/
theorem exists_of_listed {id : String} (h : id ∈ (buildReconciliationReport
    (prepared.map XaBranchDescriptor.resourceId) decisions).preparedWithoutDecision) :
    ∃ b ∈ prepared, b.resourceId = id :=
  List.mem_map.mp (mem_preparedWithoutDecision.mp h).1

end Report

/-! ### Resource ids and branches -/

/-- **What a resource id identifies.**  For two branches it tells them apart, and `resolve` for
the one leaves what the other has prepared, exactly when they do not clash; the report of any
prepared branches and any decisions lists only prepared branches, and exactly the right ones
when no prepared branch without a pending decision of its own clashes with a pending one. -/
theorem resource_id_identifies_iff (lib : UrlLib) :
    (∀ b c : XaBranchDescriptor, b.key ≠ c.key →
      (b.resourceId ≠ c.resourceId ↔ ¬ Clash b.key c.key) ∧
      ∀ d : XaDialect, LeavesPrepared lib d b c ↔
        ¬ (Clash b.key c.key ∧ d.check lib b = .ok ())) ∧
    ∀ (prepared : List XaBranchDescriptor) (decisions : List XaHeuristicRecord),
      (∀ id ∈ (buildReconciliationReport (prepared.map XaBranchDescriptor.resourceId)
        decisions).preparedWithoutDecision, ∃ b ∈ prepared, b.resourceId = id) ∧
      (ReportsPrepared prepared decisions ↔
        ∀ b ∈ prepared, ¬ HasPending decisions b.key →
          ∀ record ∈ decisions, record.pending = true → ¬ Clash record.key b.key) := by
  refine ⟨fun b c hne => ⟨?_, fun d => leavesPrepared_iff hne⟩,
    fun prepared decisions => ⟨fun id => exists_of_listed, reportsPrepared_iff⟩⟩
  rw [ne_eq, resourceId_eq_iff, not_or]
  exact and_iff_right hne

/-- The branches `c` of the gid `a-b` and `b-c` of the gid `a`: both are valid and have one
resource id, the `resolve` of the one commits the other, and the decision about the one hides the
other from the report. -/
theorem resource_id_shared :
    let b : XaBranchDescriptor := ⟨"a-b", "c", "http://rm/phase2"⟩
    let c : XaBranchDescriptor := ⟨"a", "b-c", "http://rm/phase2"⟩
    let decision : XaHeuristicRecord :=
      ⟨"d", "a", "b-c", .rollback, "operator", .requested, 0, none⟩
    b.validate Libs.plain.url = .ok () ∧ c.validate Libs.plain.url = .ok () ∧ b.key ≠ c.key ∧
      b.resourceId = c.resourceId ∧ ¬ LeavesPrepared Libs.plain.url .mySql b c ∧
      ¬ ReportsPrepared [b] [decision] := by
  intro b c decision
  have hclash : Clash b.key c.key := Or.inl ⟨"b", by decide, by decide⟩
  have hne : b.key ≠ c.key := by decide
  have hcheck : XaDialect.mySql.check Libs.plain.url b = .ok () := by decide +kernel
  refine ⟨by decide +kernel, by decide +kernel, hne, by decide, fun h => ?_, fun h => ?_⟩
  · exact (leavesPrepared_iff hne).mp h ⟨hclash, hcheck⟩
  · refine reportsPrepared_iff.mp h b List.mem_cons_self ?_ decision List.mem_cons_self rfl
      hclash.symm
    rintro ⟨record, hrecord, -, hkey⟩
    rw [List.mem_singleton.mp hrecord] at hkey
    exact hne hkey.symm

end RozeDtm
