import RozeDtm.Conc.Pool
import RozeDtm.Model.Service.Request
import RozeDtm.Relational.Xa

/-!
# Heuristic decisions and reconciliation

`resolve_heuristically` and `reconcile` of the XA resource managers.  The decisions are rows of
`roze_xa_decisions`, whose primary key is `decision_id` and whose other key is
`(gid, branch_id)`.  Every statement is a transaction of its own, so a row that an INSERT has
left is committed.  `DecisionDb.collation` is what the database compares texts by: MySQL's
default collation does not tell apart all texts that are different.
-/

namespace RozeDtm

open Conc

/-! ### Requests and records -/

/-- `XaHeuristicStatus`. -/
inductive XaHeuristicStatus
  | requested
  | applied
  | alreadyResolved
  | failed
  deriving DecidableEq

/-- `XaHeuristicRequest`. -/
structure XaHeuristicRequest where
  decisionId : String
  decision : XaPhase2
  reason : String
  deriving DecidableEq

/-- `XaHeuristicRequest::validate`. -/
def XaHeuristicRequest.validate (request : XaHeuristicRequest) : Except Err Unit := do
  ensure (!request.decisionId.isEmpty && request.decisionId.utf8ByteSize ≤ 64 &&
      request.decisionId.toList.all fun c => c.isAlphanum || c = '-' || c = '_' || c = '.' || c = ':')
    "XA heuristic decision id must contain 1 to 64 safe ASCII bytes"
  ensure (!(trim request.reason).isEmpty && request.reason.utf8ByteSize ≤ 512)
    "XA heuristic reason must contain 1 to 512 bytes"

/-- `XaHeuristicRecord`. -/
structure XaHeuristicRecord where
  decisionId : String
  gid : String
  branchId : String
  decision : XaPhase2
  reason : String
  status : XaHeuristicStatus
  requestedAtMillis : Nat
  finishedAtMillis : Option Nat
  deriving DecidableEq

/-- `XaHeuristicRecord::resource_id`. -/
def XaHeuristicRecord.resourceId (record : XaHeuristicRecord) : String :=
  record.gid ++ "-" ++ record.branchId

/-- `XaHeuristicResolution`. -/
structure XaHeuristicResolution where
  outcome : XaPhase2Outcome
  record : XaHeuristicRecord
  deriving DecidableEq

/-- `xa_phase_name`. -/
def xaPhaseName : XaPhase2 → String
  | .commit => "commit"
  | .rollback => "rollback"

/-- `parse_xa_phase`. -/
def parseXaPhase (value : String) : Except Err XaPhase2 := XaPhase2.parse value

theorem parseXaPhase_xaPhaseName (phase : XaPhase2) :
    parseXaPhase (xaPhaseName phase) = .ok phase := by
  cases phase <;> decide

/-- `heuristic_status_name`. -/
def heuristicStatusName : XaHeuristicStatus → String
  | .requested => "requested"
  | .applied => "applied"
  | .alreadyResolved => "already_resolved"
  | .failed => "failed"

/-- `parse_heuristic_status`. -/
def parseHeuristicStatus (value : String) : Except Err XaHeuristicStatus :=
  if value = "requested" then .ok .requested
  else if value = "applied" then .ok .applied
  else if value = "already_resolved" then .ok .alreadyResolved
  else if value = "failed" then .ok .failed
  else .error "invalid XA heuristic status"

/-- `heuristic_status_for_outcome`. -/
def heuristicStatusForOutcome : XaPhase2Outcome → XaHeuristicStatus
  | .applied => .applied
  | .alreadyResolved => .alreadyResolved

/-- `completed_heuristic_outcome`. -/
def completedHeuristicOutcome : XaHeuristicStatus → Option XaPhase2Outcome
  | .applied => some .applied
  | .alreadyResolved => some .alreadyResolved
  | .requested | .failed => none

/-- `ensure_heuristic_request_matches`. -/
def ensureHeuristicRequestMatches (record : XaHeuristicRecord) (branch : XaBranchDescriptor)
    (request : XaHeuristicRequest) : Except Err Unit :=
  ensure (record.decisionId = request.decisionId && record.gid = branch.gid &&
      record.branchId = branch.branchId && record.decision = request.decision &&
      record.reason = request.reason)
    "XA heuristic request conflicts with an existing decision or resource"

/-- `RawXaHeuristicRecord`: a row of `roze_xa_decisions`. -/
structure RawXaHeuristicRecord where
  decisionId : String
  gid : String
  branchId : String
  decision : String
  reason : String
  status : String
  requestedAtMillis : Int
  finishedAtMillis : Option Int
  deriving DecidableEq

/-- `u64::try_from` of an `i64`. -/
def millisFromColumn (value : Int) (text : Err) : Except Err Nat :=
  if 0 ≤ value then .ok value.toNat else .error text

/-- A `u64` as an `i64`. -/
def millisToColumn (value : Nat) : Int :=
  if value < 2 ^ 63 then value else (value : Int) - 2 ^ 64

/-- `heuristic_record_from_values`. -/
def heuristicRecordFromValues (raw : RawXaHeuristicRecord) : Except Err XaHeuristicRecord := do
  let decision ← parseXaPhase raw.decision
  let status ← parseHeuristicStatus raw.status
  let requestedAtMillis ←
    millisFromColumn raw.requestedAtMillis "invalid XA heuristic request timestamp"
  let finishedAtMillis ← raw.finishedAtMillis.mapM fun value =>
    millisFromColumn value "invalid XA heuristic completion timestamp"
  return {
    decisionId := raw.decisionId
    gid := raw.gid
    branchId := raw.branchId
    decision
    reason := raw.reason
    status
    requestedAtMillis
    finishedAtMillis }

/-! ### Reconciliation -/

/-- `XaReconciliationReport`. -/
structure XaReconciliationReport where
  preparedResourceIds : List String
  pendingDecisions : List XaHeuristicRecord
  preparedWithoutDecision : List String
  decisionsWithoutPrepared : List String
  deriving DecidableEq

/-- A decision that was not carried out yet. -/
def XaHeuristicRecord.pending (record : XaHeuristicRecord) : Bool :=
  record.status = .requested || record.status = .failed

/-- The elements of a `BTreeSet`, in order. -/
def sortedSet (ids : List String) : List String :=
  (ids.mergeSort fun a b => decide (a ≤ b)).dedup

@[simp] theorem mem_sortedSet {ids : List String} {id : String} : id ∈ sortedSet ids ↔ id ∈ ids := by
  rw [sortedSet, List.mem_dedup, List.mem_mergeSort]

/-- `build_reconciliation_report`. -/
def buildReconciliationReport (preparedResourceIds : List String)
    (decisions : List XaHeuristicRecord) : XaReconciliationReport :=
  let prepared := sortedSet preparedResourceIds
  let pendingDecisions := decisions.filter XaHeuristicRecord.pending
  let decidedResources := sortedSet (pendingDecisions.map XaHeuristicRecord.resourceId)
  { preparedResourceIds := prepared
    pendingDecisions
    preparedWithoutDecision := prepared.filter fun id => !decidedResources.contains id
    decisionsWithoutPrepared := decidedResources.filter fun id => !prepared.contains id }

/-! ### Statements -/

/-- What a `resolve_heuristically` does, one after another.  A phase-2 command is for the
resource id of the branch that it names. -/
inductive DecisionStatement
  | currentMillis
  | insert (row : RawXaHeuristicRecord)
  | select (decisionId gid branchId : String)
  | phase2 (gid branchId : String) (phase : XaPhase2)
  | update (decisionId status : String) (finishedAtMillis : Int)
  | selectId (decisionId : String)

/-- What they are answered with: a SELECT with one row, an UPDATE with their number. -/
def DecisionStatement.Reply : DecisionStatement → Type
  | .currentMillis => Nat
  | .insert _ => Except Err Unit
  | .select _ _ _ | .selectId _ => Except Err RawXaHeuristicRecord
  | .phase2 _ _ _ => Except XaDbError Unit
  | .update _ _ _ => Except Err Nat

def decisionStatements : Sig := ⟨DecisionStatement, DecisionStatement.Reply⟩

/-! ### `resolve_heuristically` -/

/-- An `async fn` of a resource manager about heuristic decisions. -/
abbrev DecisionProc (α : Type) := Proc decisionStatements Err α

namespace DecisionProc

variable {α : Type}

/-- One statement, without `?`. -/
def ask (o : DecisionStatement) : DecisionProc o.Reply :=
  @Proc.perform decisionStatements Err o

/-- `?` on a result that is already there. -/
def ofExcept (e : Except Err α) : DecisionProc α := ExceptT.mk (.pure e)

/-- `.context(..)`. -/
def context (x : DecisionProc α) (text : Err) : DecisionProc α :=
  ExceptT.mk (x.run.bind fun r => .pure (r.mapError fun _ => text))

/-- `record_heuristic_intent`. -/
def recordHeuristicIntent (branch : XaBranchDescriptor) (request : XaHeuristicRequest) :
    DecisionProc XaHeuristicRecord := do
  let requestedAtMillis ← ask .currentMillis
  ofExcept (← ask (.insert {
    decisionId := request.decisionId
    gid := branch.gid
    branchId := branch.branchId
    decision := xaPhaseName request.decision
    reason := request.reason
    status := heuristicStatusName .requested
    requestedAtMillis := millisToColumn requestedAtMillis
    finishedAtMillis := none }))
  let row ← ofExcept (← ask (.select request.decisionId branch.gid branch.branchId))
  let record ← ofExcept (heuristicRecordFromValues row)
  ofExcept (ensureHeuristicRequestMatches record branch request)
  return record

/-- `finish_heuristic_decision`. -/
def finishHeuristicDecision (decisionId : String) (status : XaHeuristicStatus) :
    DecisionProc XaHeuristicRecord := do
  let finishedAtMillis ← ask .currentMillis
  let changed ← ofExcept
    (← ask (.update decisionId (heuristicStatusName status) (millisToColumn finishedAtMillis)))
  ofExcept (ensure (changed = 1) "XA heuristic decision record not found")
  let row ← ofExcept (← ask (.selectId decisionId))
  ofExcept (heuristicRecordFromValues row)

/-- `resolve`, with its result as a value. -/
def resolve (lib : UrlLib) (d : XaDialect) (branch : XaBranchDescriptor) (phase : XaPhase2) :
    DecisionProc (Except Err XaPhase2Outcome) := do
  match d.check lib branch with
  | .error e => return .error e
  | .ok _ =>
    match ← ask (.phase2 branch.gid branch.branchId phase) with
    | .ok _ => return .ok .applied
    | .error .unknownId => return .ok .alreadyResolved
    | .error .other => return .error "XA phase 2 failed"

/-- `resolve_heuristically`. -/
def resolveHeuristically (lib : UrlLib) (d : XaDialect) (branch : XaBranchDescriptor)
    (request : XaHeuristicRequest) : DecisionProc XaHeuristicResolution := do
  ofExcept (branch.validate lib)
  ofExcept request.validate
  let record ← recordHeuristicIntent branch request
  match completedHeuristicOutcome record.status with
  | some outcome => return ⟨outcome, record⟩
  | none =>
    match ← resolve lib d branch request.decision with
    | .ok outcome => do
      let record ← finishHeuristicDecision request.decisionId (heuristicStatusForOutcome outcome)
      return ⟨outcome, record⟩
    | .error _ => do
      let _ ← context (finishHeuristicDecision request.decisionId .failed)
        "failed to persist failed XA heuristic outcome"
      throw "XA heuristic phase-2 failed"

end DecisionProc

/-! ### The table -/

/-- A database with the table of decisions, and what it compares texts by. -/
structure DecisionDb where
  dialect : XaDialect
  collation : String → String

/-- A phase-2 command that was issued. -/
structure XaCommand where
  gid : String
  branchId : String
  phase : XaPhase2
  deriving DecidableEq

/-- The committed rows of `roze_xa_decisions`, and the phase-2 commands issued so far, the
latest first. -/
structure DecisionWorld where
  rows : List RawXaHeuristicRecord
  issued : List XaCommand

/-- What the outside decides about a statement: what becomes of it, which of several rows a
SELECT returns, what a phase-2 command is answered with, and the time. -/
structure DecisionOutcome where
  fate : Fate
  pick : Nat
  phase2 : Except XaDbError Unit
  millis : Nat

namespace DecisionDb

variable (db : DecisionDb)

/-- Two rows with the same `decision_id`. -/
def SameId (row row' : RawXaHeuristicRecord) : Prop :=
  db.collation row.decisionId = db.collation row'.decisionId

/-- Two rows with the same `(gid, branch_id)`. -/
def SameResource (row row' : RawXaHeuristicRecord) : Prop :=
  db.collation row.gid = db.collation row'.gid ∧
    db.collation row.branchId = db.collation row'.branchId

instance (row row' : RawXaHeuristicRecord) : Decidable (db.SameId row row') :=
  inferInstanceAs (Decidable (_ = _))

instance (row row' : RawXaHeuristicRecord) : Decidable (db.SameResource row row') :=
  inferInstanceAs (Decidable (_ ∧ _))

/-- What the keys of the table forbid. -/
def Unique (rows : List RawXaHeuristicRecord) : Prop :=
  rows.Pairwise fun row row' => ¬ db.SameId row row' ∧ ¬ db.SameResource row row'

/-- `INSERT IGNORE`, which ignores a row that either key forbids, and
`INSERT .. ON CONFLICT (decision_id) DO NOTHING`, which fails on one that only the other key
forbids. -/
def insert (row : RawXaHeuristicRecord) (rows : List RawXaHeuristicRecord) :
    Except Err Unit × List RawXaHeuristicRecord :=
  if rows.any fun old => db.SameId old row then (.ok (), rows)
  else if rows.any fun old => db.SameResource old row then
    (match db.dialect with
      | .mySql => .ok ()
      | .postgres => .error "duplicate key value violates unique constraint", rows)
  else (.ok (), rows ++ [row])

/-- The row that `fetch_one` returns. -/
def fetchOne (pick : Nat) (found : List RawXaHeuristicRecord) : Except Err RawXaHeuristicRecord :=
  (found[pick % found.length]?).elim (.error "no rows returned") .ok

/-- The rows that an UPDATE by `decision_id` is about. -/
def updated (decisionId status : String) (finishedAtMillis : Int)
    (row : RawXaHeuristicRecord) : RawXaHeuristicRecord :=
  if db.collation row.decisionId = db.collation decisionId then
    { row with status := status, finishedAtMillis := some finishedAtMillis }
  else row

/-- A statement, with what the outside decides about it. -/
def exec (_ : Nat) : (o : DecisionStatement) → DecisionOutcome → DecisionWorld →
    o.Reply × DecisionWorld
  | .currentMillis, c, w => (c.millis, w)
  | .insert row, c, w =>
    match c.fate with
    | .failed => (.error "statement failed", w)
    | .done => ((db.insert row w.rows).1, { w with rows := (db.insert row w.rows).2 })
    | .lost => (.error "statement failed", { w with rows := (db.insert row w.rows).2 })
  | .select decisionId gid branchId, c, w =>
    (if c.fate = .done then
      fetchOne c.pick (w.rows.filter fun row =>
        db.collation row.decisionId = db.collation decisionId ||
          (db.collation row.gid = db.collation gid &&
            db.collation row.branchId = db.collation branchId))
      else .error "statement failed", w)
  | .phase2 gid branchId phase, c, w =>
    (c.phase2, { w with issued := ⟨gid, branchId, phase⟩ :: w.issued })
  | .update decisionId status finishedAtMillis, c, w =>
    match c.fate with
    | .failed => (.error "statement failed", w)
    | .done =>
      (.ok (w.rows.countP fun row => db.collation row.decisionId = db.collation decisionId),
        { w with rows := w.rows.map (db.updated decisionId status finishedAtMillis) })
    | .lost =>
      (.error "statement failed",
        { w with rows := w.rows.map (db.updated decisionId status finishedAtMillis) })
  | .selectId decisionId, c, w =>
    (if c.fate = .done then
      fetchOne c.pick (w.rows.filter fun row =>
        db.collation row.decisionId = db.collation decisionId)
      else .error "statement failed", w)

/-- The database under the statements of any number of calls. -/
def machine : Machine decisionStatements DecisionWorld DecisionOutcome where
  exec := db.exec
  drift := fun _ _ => False
  allow := fun _ _ => True

/-- The calls of `resolve_heuristically`, for any branches and any requests. -/
def Calls (lib : UrlLib) (p : Prog decisionStatements (Except Err XaHeuristicResolution)) : Prop :=
  ∃ branch request, p = (DecisionProc.resolveHeuristically lib db.dialect branch request).run

instance (o : decisionStatements.Op) (w : DecisionWorld) : Decidable (db.machine.allow o w) :=
  inferInstanceAs (Decidable True)

end DecisionDb

/-- A table before any call. -/
def DecisionWorld.initial (rows : List RawXaHeuristicRecord) : DecisionWorld := ⟨rows, []⟩

/-- A run of calls, computed from its moves. -/
theorem DecisionDb.exists_run (db : DecisionDb) (lib : UrlLib) (rows : List RawXaHeuristicRecord)
    (moves : List (Move (XaBranchDescriptor × XaHeuristicRequest) DecisionOutcome))
    (φ : DecisionWorld → Bool)
    (h : ((db.machine.performAll? (fun a => (DecisionProc.resolveHeuristically lib db.dialect
      a.1 a.2).run) (Pool.idle (.initial rows)) moves).any fun P => φ P.world) = true) :
    ∃ P, db.machine.Reaches (db.Calls lib) (.initial rows) P ∧ φ P.world = true := by
  have hany : ∀ a, Move.start a ∈ moves → True := fun _ _ => trivial
  obtain ⟨P, hreach, hφ⟩ := Machine.exists_of_performAll? hany h
  refine ⟨P, hreach.mono fun p hp => ?_, hφ⟩
  obtain ⟨a, -, rfl⟩ := hp
  exact ⟨a.1, a.2, rfl⟩

/-! ### The table and the resources of one database -/

/-- A row whose decision was carried out, as `completed_heuristic_outcome` sees it. -/
def RawXaHeuristicRecord.completed (row : RawXaHeuristicRecord) : Bool :=
  match parseHeuristicStatus row.status with
  | .ok status => (completedHeuristicOutcome status).isSome
  | .error _ => false

/-- The table of decisions, and the resources of the database by their ids. -/
structure ResolvingWorld where
  table : DecisionWorld
  resources : String → XaResource

/-- A resource id that is neither prepared nor will be. -/
def XaResource.Resolved (r : XaResource) : Prop := r.state = .committed ∨ r.state = .rolledBack

namespace DecisionDb

variable (db : DecisionDb)

/-- A phase-2 command is answered by the resource: a prepared id is resolved at most once, any
other one is unknown, and every command may fail for another reason. -/
def answered (o : DecisionStatement) (c : DecisionOutcome) (w : ResolvingWorld) :
    DecisionOutcome :=
  match o with
  | .phase2 gid branchId phase =>
    { c with phase2 := ((w.resources (gid ++ "-" ++ branchId)).phase2 phase c.fate).1 }
  | _ => c

/-- What a statement makes of the resources. -/
def resolved (o : DecisionStatement) (c : DecisionOutcome) (w : ResolvingWorld) :
    String → XaResource :=
  match o with
  | .phase2 gid branchId phase =>
    Function.update w.resources (gid ++ "-" ++ branchId)
      ((w.resources (gid ++ "-" ++ branchId)).phase2 phase c.fate).2
  | _ => w.resources

/-- The database under the statements of any number of calls.  Others prepare and resolve
resource ids meanwhile. -/
def resolving : Machine decisionStatements ResolvingWorld DecisionOutcome where
  exec := fun i o c w =>
    ((db.exec i o (answered o c w) w.table).1,
      ⟨(db.exec i o (answered o c w) w.table).2, resolved o c w⟩)
  drift := fun w w' => w'.table = w.table ∧
    ∀ id, (w.resources id).Resolved → w'.resources id = w.resources id
  allow := fun _ _ => True

/-- The calls of `resolve_heuristically` for one branch with one request. -/
def CallsOf (lib : UrlLib) (branch : XaBranchDescriptor) (request : XaHeuristicRequest)
    (p : Prog decisionStatements (Except Err XaHeuristicResolution)) : Prop :=
  p = (DecisionProc.resolveHeuristically lib db.dialect branch request).run

instance (o : decisionStatements.Op) (w : ResolvingWorld) :
    Decidable (db.resolving.allow o w) := inferInstanceAs (Decidable True)

end DecisionDb

/-! ### `resolve` in a database of many resources -/

/-- `resolve` where the resources of a database are known by their ids. -/
def XaDialect.resolveIn (lib : UrlLib) (branch : XaBranchDescriptor) (d : XaDialect)
    (phase : XaPhase2) (fate : Fate) (resources : String → XaResource) :
    Except Err XaPhase2Outcome × (String → XaResource) :=
  let (result, resource) := d.resolve lib branch phase fate (resources branch.resourceId)
  (result, Function.update resources branch.resourceId resource)

end RozeDtm
