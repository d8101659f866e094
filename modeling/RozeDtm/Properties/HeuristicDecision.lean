import Mathlib.Data.List.Pairwise
import RozeDtm.Conc.Outline
import RozeDtm.Model.System
import RozeDtm.Relational.XaDecisions

/-!
# One heuristic decision for each resource

Any number of `resolve_heuristically` calls over one table of decisions, interleaved statement
by statement and cut off anywhere.  Every phase-2 command they issue is the one that the table
holds for its branch.

* `decides`: a call issues only what it has read in a row.
* `decisionOutline`: what was read in a row stays in the table.
-/

namespace RozeDtm

open Conc

/-! ### What a call has read -/

/-- The command that a row asks for. -/
def RawXaHeuristicRecord.command? (row : RawXaHeuristicRecord) : Option XaCommand :=
  match parseXaPhase row.decision with
  | .ok phase => some ⟨row.gid, row.branchId, phase⟩
  | .error _ => none

theorem RawXaHeuristicRecord.command?_eq_some {row : RawXaHeuristicRecord} {c : XaCommand} :
    row.command? = some c ↔
      row.gid = c.gid ∧ row.branchId = c.branchId ∧ parseXaPhase row.decision = .ok c.phase := by
  unfold RawXaHeuristicRecord.command?
  constructor
  · intro h
    split at h
    · rename_i phase hphase
      cases h
      exact ⟨rfl, rfl, hphase⟩
    · cases h
  · rintro ⟨hgid, hid, hphase⟩
    rw [hphase, hgid, hid]

/-- A call may issue the command that the row it has selected asks for.  A session is that
command. -/
def decides : Discipline decisionStatements (Option XaCommand) where
  pre := fun t o =>
    match o with
    | .phase2 gid branchId phase => t = some ⟨gid, branchId, phase⟩
    | _ => True
  sees := fun _ _ _ => True
  next := fun t o =>
    match o with
    | .select _ _ _ => fun r =>
      match (r : Except Err RawXaHeuristicRecord) with
      | .ok row => row.command?
      | .error _ => t
    | _ => fun _ => t

section Walk

variable {α : Type} {t : Option XaCommand}

theorem decides_ask {o : DecisionStatement} {Q : Option XaCommand → o.Reply → Prop} :
    decides.Does (DecisionProc.ask o) t Q ↔ decides.pre t o ∧ ∀ r, Q (decides.next t o r) r := by
  refine Discipline.does_perform.trans (and_congr_right fun _ => ?_)
  exact forall_congr' fun r => ⟨fun h => h trivial, fun h _ => h⟩

theorem decides_ofExcept {e : Except Err α} {Q : Option XaCommand → α → Prop}
    (h : ∀ a, e = .ok a → Q t a) : decides.Does (DecisionProc.ofExcept e) t Q := h

theorem decides_context {x : DecisionProc α} {text : Err} {Q : Option XaCommand → α → Prop}
    (h : decides.Does x t Q) : decides.Does (DecisionProc.context x text) t Q := by
  refine Discipline.follows_bind.mpr (Discipline.Follows.mono h fun t r hr a ha => ?_)
  cases r with
  | ok b =>
    cases ha
    exact hr _ rfl
  | error e => cases ha

/-- **What `record_heuristic_intent` returns was read in a row** for this branch and with this
decision. -/
theorem decides_recordHeuristicIntent {branch : XaBranchDescriptor} {request : XaHeuristicRequest} :
    decides.Does (DecisionProc.recordHeuristicIntent branch request) t
      (fun t _ => t = some ⟨branch.gid, branch.branchId, request.decision⟩) := by
  simp only [DecisionProc.recordHeuristicIntent, Discipline.does_bind]
  refine decides_ask.mpr ⟨trivial, fun now => decides_ask.mpr ⟨trivial, fun inserted => ?_⟩⟩
  refine decides_ofExcept fun _ _ => decides_ask.mpr ⟨trivial, fun selected => ?_⟩
  refine decides_ofExcept fun row hrow => decides_ofExcept fun record hrecord => ?_
  refine decides_ofExcept fun _ hmatches => Discipline.does_pure.mpr ?_
  cases hrow
  show row.command? = _
  obtain ⟨phase, hphase, h⟩ := bind_eq_ok hrecord
  obtain ⟨status, -, h⟩ := bind_eq_ok h
  obtain ⟨requested, -, h⟩ := bind_eq_ok h
  obtain ⟨finished, -, h⟩ := bind_eq_ok h
  cases h
  rw [ensureHeuristicRequestMatches, ensure_eq_ok] at hmatches
  simp only [Bool.and_eq_true, decide_eq_true_eq] at hmatches
  obtain ⟨⟨⟨⟨-, hgid⟩, hid⟩, hdecision⟩, -⟩ := hmatches
  rw [RawXaHeuristicRecord.command?, hphase, ← hgid, ← hid, ← hdecision]

theorem decides_finishHeuristicDecision {decisionId : String} {status : XaHeuristicStatus} :
    decides.Does (DecisionProc.finishHeuristicDecision decisionId status) t (fun _ _ => True) := by
  simp only [DecisionProc.finishHeuristicDecision, Discipline.does_bind]
  refine decides_ask.mpr ⟨trivial, fun now => decides_ask.mpr ⟨trivial, fun changed => ?_⟩⟩
  refine decides_ofExcept fun _ _ => decides_ofExcept fun _ _ => ?_
  refine decides_ask.mpr ⟨trivial, fun row => decides_ofExcept fun _ _ => ?_⟩
  exact decides_ofExcept fun _ _ => trivial

theorem decides_resolve {lib : UrlLib} {d : XaDialect} {branch : XaBranchDescriptor}
    {phase : XaPhase2} (ht : t = some ⟨branch.gid, branch.branchId, phase⟩) :
    decides.Does (DecisionProc.resolve lib d branch phase) t (fun _ _ => True) := by
  rw [DecisionProc.resolve]
  cases d.check lib branch with
  | error e => exact Discipline.does_pure.mpr trivial
  | ok _ =>
    rw [Discipline.does_bind]
    refine decides_ask.mpr ⟨ht, fun r => ?_⟩
    match (r : Except XaDbError Unit) with
    | .ok _ => exact Discipline.does_pure.mpr trivial
    | .error .unknownId => exact Discipline.does_pure.mpr trivial
    | .error .other => exact Discipline.does_pure.mpr trivial

/-- **A call issues only the command that it has read in a row.** -/
theorem decides_resolveHeuristically {lib : UrlLib} {d : XaDialect} {branch : XaBranchDescriptor}
    {request : XaHeuristicRequest} :
    decides.Does (DecisionProc.resolveHeuristically lib d branch request) t
      (fun _ _ => True) := by
  simp only [DecisionProc.resolveHeuristically, Discipline.does_bind]
  refine decides_ofExcept fun _ _ => decides_ofExcept fun _ _ => ?_
  refine decides_recordHeuristicIntent.mono fun t record ht => ?_
  cases completedHeuristicOutcome record.status with
  | some outcome => exact Discipline.does_pure.mpr trivial
  | none =>
    dsimp only
    rw [Discipline.does_bind]
    refine (decides_resolve ht).mono fun t result _ => ?_
    cases result with
    | ok outcome =>
      dsimp only
      rw [Discipline.does_bind]
      exact decides_finishHeuristicDecision.mono fun _ _ _ => Discipline.does_pure.mpr trivial
    | error e =>
      dsimp only
      rw [Discipline.does_bind]
      exact decides_context (decides_finishHeuristicDecision.mono fun _ _ _ =>
        Discipline.does_throw)

end Walk

/-! ### What stays in the table -/

/-- The table holds this command. -/
def DecisionWorld.Holds (w : DecisionWorld) (c : XaCommand) : Prop :=
  ∃ row ∈ w.rows, row.command? = some c

namespace DecisionDb

variable {db : DecisionDb} {rows : List RawXaHeuristicRecord} {row : RawXaHeuristicRecord}

/-- What an INSERT makes of the table. -/
theorem insert_cases (db : DecisionDb) (row : RawXaHeuristicRecord)
    (rows : List RawXaHeuristicRecord) : (db.insert row rows).2 = rows ∨
      (db.insert row rows).2 = rows ++ [row] ∧
        ∀ old ∈ rows, ¬ db.SameId old row ∧ ¬ db.SameResource old row := by
  rw [DecisionDb.insert]
  split
  · exact Or.inl rfl
  rename_i hid
  split
  · exact Or.inl rfl
  rename_i hresource
  refine Or.inr ⟨rfl, fun old hold => ⟨fun h => hid ?_, fun h => hresource ?_⟩⟩
  · exact List.any_eq_true.mpr ⟨old, hold, decide_eq_true h⟩
  · exact List.any_eq_true.mpr ⟨old, hold, decide_eq_true h⟩

theorem unique_insert (h : db.Unique rows) : db.Unique (db.insert row rows).2 := by
  rcases db.insert_cases row rows with heq | ⟨heq, hnew⟩
  · rwa [heq]
  · rw [heq]
    exact List.pairwise_append.mpr ⟨h, List.pairwise_singleton _ _, fun old hold new hnew' => by
      rw [List.mem_singleton.mp hnew']
      exact hnew old hold⟩

theorem mem_insert {old : RawXaHeuristicRecord} (h : old ∈ rows) : old ∈ (db.insert row rows).2 := by
  rcases db.insert_cases row rows with heq | ⟨heq, -⟩
  · rwa [heq]
  · rw [heq]
    exact List.mem_append_left _ h

/-- An UPDATE keeps the keys and the decision of a row. -/
theorem updated_eq (db : DecisionDb) (decisionId status : String) (millis : Int)
    (row : RawXaHeuristicRecord) : ∃ status' finished,
      db.updated decisionId status millis row =
        { row with status := status', finishedAtMillis := finished } := by
  unfold DecisionDb.updated
  split
  · exact ⟨_, _, rfl⟩
  · exact ⟨row.status, row.finishedAtMillis, rfl⟩

theorem command?_updated {decisionId status : String} {millis : Int} :
    (db.updated decisionId status millis row).command? = row.command? := by
  obtain ⟨_, _, heq⟩ := db.updated_eq decisionId status millis row
  rw [heq]
  rfl

theorem unique_updated {decisionId status : String} {millis : Int} (h : db.Unique rows) :
    db.Unique (rows.map (db.updated decisionId status millis)) := by
  refine List.pairwise_map.mpr (h.imp fun {a b} hab => ?_)
  obtain ⟨_, _, ha⟩ := db.updated_eq decisionId status millis a
  obtain ⟨_, _, hb⟩ := db.updated_eq decisionId status millis b
  rw [ha, hb]
  exact hab

/-- In a table with its keys a resource has one row. -/
theorem Unique.eq_of_resource (h : db.Unique rows) {row row' : RawXaHeuristicRecord}
    (hrow : row ∈ rows) (hrow' : row' ∈ rows) (hgid : row.gid = row'.gid)
    (hid : row.branchId = row'.branchId) : row = row' := by
  by_contra hne
  have hsymm : Std.Symm fun row row' => ¬ db.SameId row row' ∧ ¬ db.SameResource row row' :=
    ⟨fun a b hab => ⟨fun h => hab.1 h.symm, fun h => hab.2 ⟨h.1.symm, h.2.symm⟩⟩⟩
  exact (List.Pairwise.forall h hrow hrow' hne).2
    ⟨congrArg db.collation hgid, congrArg db.collation hid⟩

/-- The row that a SELECT returns is one of the table. -/
theorem mem_of_fetchOne {pick : Nat} {found : List RawXaHeuristicRecord}
    (h : fetchOne pick found = .ok row) : row ∈ found := by
  unfold fetchOne at h
  cases hget : found[pick % found.length]? with
  | none =>
    rw [hget] at h
    cases h
  | some row' =>
    rw [hget] at h
    cases h
    exact List.mem_of_getElem? hget

/-! ### Runs -/

/-- **A statement keeps the keys of the table and the commands that it holds.** -/
theorem exec_keeps (db : DecisionDb) {i : Nat} {o : DecisionStatement} (c : DecisionOutcome)
    {w : DecisionWorld} (h : db.Unique w.rows) : db.Unique (db.exec i o c w).2.rows ∧
      ∀ command, w.Holds command → (db.exec i o c w).2.Holds command := by
  cases o with
  | insert row =>
    have hkeeps : db.Unique (db.insert row w.rows).2 ∧ ∀ command, w.Holds command →
        ∃ old ∈ (db.insert row w.rows).2, old.command? = some command :=
      ⟨unique_insert h, fun command ⟨old, hold, hcommand⟩ => ⟨old, mem_insert hold, hcommand⟩⟩
    simp only [DecisionDb.exec]
    cases c.fate with
    | failed => exact ⟨h, fun _ h => h⟩
    | done | lost => exact hkeeps
  | update decisionId status millis =>
    have hkeeps : db.Unique (w.rows.map (db.updated decisionId status millis)) ∧
        ∀ command, w.Holds command →
          ∃ row ∈ w.rows.map (db.updated decisionId status millis), row.command? = some command := by
      refine ⟨unique_updated h, fun command ⟨row, hrow, hcommand⟩ => ?_⟩
      exact ⟨_, List.mem_map_of_mem hrow, command?_updated.trans hcommand⟩
    simp only [DecisionDb.exec]
    cases c.fate with
    | failed => exact ⟨h, fun _ h => h⟩
    | done | lost => exact hkeeps
  | currentMillis | select _ _ _ | phase2 _ _ _ | selectId _ => exact ⟨h, fun _ h => h⟩

/-- Only a phase-2 command is recorded as one. -/
theorem exec_issued (db : DecisionDb) {i : Nat} {o : DecisionStatement} (c : DecisionOutcome)
    {w : DecisionWorld} : (db.exec i o c w).2.issued = w.issued ∨
      ∃ gid branchId phase, o = .phase2 gid branchId phase ∧
        (db.exec i o c w).2.issued = ⟨gid, branchId, phase⟩ :: w.issued := by
  cases o with
  | insert row | update _ _ _ =>
    refine Or.inl ?_
    simp only [DecisionDb.exec]
    cases c.fate <;> rfl
  | phase2 gid branchId phase => exact Or.inr ⟨gid, branchId, phase, rfl, rfl⟩
  | currentMillis | select _ _ _ | selectId _ => exact Or.inl rfl

/-- What a SELECT by the two keys returns is a row of the table. -/
theorem mem_of_select {i : Nat} {decisionId gid branchId : String} {c : DecisionOutcome}
    {w : DecisionWorld} (h : (db.exec i (.select decisionId gid branchId) c w).1 = .ok row) :
    row ∈ w.rows := by
  change (if c.fate = .done then _ else _) = Except.ok row at h
  split at h
  · exact List.mem_of_mem_filter (mem_of_fetchOne h)
  · cases h

end DecisionDb

/-- **What a call has read in a row stays in the table**, and so does what was issued. -/
def decisionOutline (db : DecisionDb) : Outline db.machine decides none where
  inv := fun w => db.Unique w.rows ∧ ∀ c ∈ w.issued, w.Holds c
  own := fun _ t w => ∀ c, t = some c → w.Holds c
  sees := fun _ _ _ _ _ => trivial
  inv_step := fun {w i t o} c hinv hown hpre _ => by
    obtain ⟨hunique, hholds⟩ := db.exec_keeps (i := i) (o := o) c hinv.1
    refine ⟨hunique, fun command hcommand => ?_⟩
    rcases db.exec_issued (i := i) (o := o) c with heq | ⟨gid, branchId, phase, rfl, heq⟩
    · exact hholds command (hinv.2 command (heq ▸ hcommand))
    · rcases List.mem_cons.mp (heq ▸ hcommand) with rfl | hcommand
      · exact hholds _ (hown _ hpre)
      · exact hholds command (hinv.2 command hcommand)
  own_step := fun {w i t o} c hinv hown _ _ => by
    have hholds := (db.exec_keeps (i := i) (o := o) c hinv.1).2
    intro command hcommand
    cases o with
    | select decisionId gid branchId =>
      change (match (db.exec i (.select decisionId gid branchId) c w).1 with
        | .ok row => row.command?
        | .error _ => t) = some command at hcommand
      split at hcommand
      · rename_i row hrow
        exact ⟨row, DecisionDb.mem_of_select hrow, hcommand⟩
      · exact hown command hcommand
    | currentMillis | insert _ | phase2 _ _ _ | update _ _ _ | selectId _ =>
      exact hholds command (hown command hcommand)
  own_other := fun {w i t o} c _ _ hinv _ _ _ _ hother command hcommand =>
    (db.exec_keeps (i := i) (o := o) c hinv.1).2 command (hother command hcommand)
  inv_drift := fun _ hd => hd.elim
  own_drift := fun _ _ hd => hd.elim

/-- The calls keep to the discipline. -/
theorem decides_calls {db : DecisionDb} {lib : UrlLib}
    {p : Prog decisionStatements (Except Err XaHeuristicResolution)} (hp : db.Calls lib p) :
    decides.Follows p none (fun _ _ => True) := by
  obtain ⟨branch, request, rfl⟩ := hp
  exact decides_resolveHeuristically.follows

/-- **A heuristic decision is unique for its resource.**  Over any table that its keys allow, in
any interleaving of any calls: a phase-2 command that is about to be issued is the one that the
table holds, the table still holds every one that was issued, and no two of them decide
differently about one branch. -/
theorem heuristic_decision_unique (lib : UrlLib) (db : DecisionDb)
    {rows : List RawXaHeuristicRecord} (hrows : db.Unique rows)
    {P : Pool decisionStatements DecisionWorld (Except Err XaHeuristicResolution)}
    (h : db.machine.Reaches (db.Calls lib) (.initial rows) P) :
    (∀ i gid branchId phase, P.AboutTo i (.phase2 gid branchId phase) →
        P.world.Holds ⟨gid, branchId, phase⟩) ∧
      (∀ c ∈ P.world.issued, P.world.Holds c) ∧
      ∀ c ∈ P.world.issued, ∀ c' ∈ P.world.issued, c.gid = c'.gid → c.branchId = c'.branchId →
        c.phase = c'.phase := by
  have hinitial : (decisionOutline db).inv (.initial rows) := ⟨hrows, fun c hc => (nomatch hc)⟩
  have hgood := Outline.good_of_reaches (decisionOutline db) hinitial
    (fun i c hc => nomatch hc) (fun p => decides_calls) h
  obtain ⟨⟨hunique, hissued⟩, s, hown, -, hfollows⟩ := hgood
  refine ⟨fun i gid branchId phase habout => ?_, hissued, fun c hc c' hc' hgid hid => ?_⟩
  · obtain ⟨k, hk⟩ := habout
    exact hown i _ (hfollows i _ hk).1
  · obtain ⟨row, hrow, hcommand⟩ := hissued c hc
    obtain ⟨row', hrow', hcommand'⟩ := hissued c' hc'
    obtain ⟨hgid₁, hid₁, hphase₁⟩ := RawXaHeuristicRecord.command?_eq_some.mp hcommand
    obtain ⟨hgid₂, hid₂, hphase₂⟩ := RawXaHeuristicRecord.command?_eq_some.mp hcommand'
    have hsame : row = row' := hunique.eq_of_resource hrow hrow'
      (hgid₁.trans (hgid.trans hgid₂.symm)) (hid₁.trans (hid.trans hid₂.symm))
    rw [hsame, hphase₂] at hphase₁
    exact (Except.ok.inj hphase₁).symm

/-- The outcome of a statement that is done, of a SELECT that returns its first row. -/
def DecisionOutcome.plain : DecisionOutcome := ⟨.done, 0, .ok (), 0⟩

/-- Two operators decide differently about one branch, and only the first decision is carried
out. -/
theorem heuristic_decision_unique_run :
    ∃ P : Pool decisionStatements DecisionWorld (Except Err XaHeuristicResolution),
      P.world.issued = [⟨"g", "b", .commit⟩] ∧
      (∀ i gid branchId phase, P.AboutTo i (.phase2 gid branchId phase) →
        P.world.Holds ⟨gid, branchId, phase⟩) ∧
      (∀ c ∈ P.world.issued, P.world.Holds c) ∧
      ∀ c ∈ P.world.issued, ∀ c' ∈ P.world.issued, c.gid = c'.gid → c.branchId = c'.branchId →
        c.phase = c'.phase := by
  obtain ⟨P, hreach, hissued⟩ := DecisionDb.exists_run ⟨.mySql, id⟩ Libs.plain.url []
    [.start (⟨"g", "b", "http://rm/phase2"⟩, ⟨"d1", .commit, "operator"⟩),
      .start (⟨"g", "b", "http://rm/phase2"⟩, ⟨"d2", .rollback, "operator"⟩),
      .exec 0 .plain, .exec 0 .plain, .exec 1 .plain, .exec 1 .plain, .exec 1 .plain,
      .exec 0 .plain, .exec 0 .plain]
    (fun w => w.issued = [⟨"g", "b", .commit⟩]) (by decide +kernel)
  exact ⟨P, of_decide_eq_true hissued,
    heuristic_decision_unique Libs.plain.url ⟨.mySql, id⟩ List.Pairwise.nil hreach⟩

end RozeDtm
