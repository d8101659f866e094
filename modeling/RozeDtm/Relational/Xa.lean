import RozeDtm.Model.Transaction
import RozeDtm.Relational.Statements

/-!
# The XA resource managers

`prepare_branch` and `resolve` of the MySQL and the PostgreSQL resource manager.  A
`prepare_branch` is a program of statements on its own connection, with one request to the
coordinator among them; what a statement does to the resource id of the branch is
`XaDialect.exec`.  The database of a branch knows one resource id and one row of
`roze_xa_barriers` for it.
-/

namespace RozeDtm

open Conc

/-! ### Branches and outcomes -/

/-- `XaPhase2`. -/
inductive XaPhase2
  | commit
  | rollback
  deriving DecidableEq

/-- `XaPhase2::parse`. -/
def XaPhase2.parse (value : String) : Except Err XaPhase2 :=
  if value = "commit" then .ok .commit
  else if value = "rollback" ∨ value = "abort" then .ok .rollback
  else .error "XA phase must be commit or rollback"

/-- `XaLocalOutcome`. -/
inductive XaLocalOutcome (T : Type)
  | prepared (value : T)
  | duplicate
  deriving DecidableEq

/-- `XaPhase2Outcome`. -/
inductive XaPhase2Outcome
  | applied
  | alreadyResolved
  deriving DecidableEq

/-- `XaBranchDescriptor`. -/
structure XaBranchDescriptor where
  gid : String
  branchId : String
  phase2Url : String

/-- `validate_xid_part`. -/
def validateXidPart (name value : String) : Except Err Unit :=
  ensure (!value.isEmpty && value.utf8ByteSize ≤ 128 &&
      value.toList.all fun c => c.isAlphanum || c = '-' || c = '_' || c = '.' || c = ':')
    s!"XA {name} must contain 1 to 128 safe ASCII bytes"

namespace XaBranchDescriptor

/-- `validate`. -/
def validate (lib : UrlLib) (branch : XaBranchDescriptor) : Except Err Unit := do
  validateXidPart "gid" branch.gid
  validateXidPart "branch id" branch.branchId
  ensure (branch.gid.utf8ByteSize + branch.branchId.utf8ByteSize + 1 ≤ 128)
    "XA resource id exceeds 128 bytes"
  match lib.parse branch.phase2Url with
  | none => .error "invalid XA phase-2 URL"
  | some url =>
    ensure ((lib.scheme url = "http" || lib.scheme url = "https") && lib.hasHost url &&
        (lib.username url).isEmpty && (lib.password url).isNone && (lib.fragment url).isNone)
      "XA phase-2 URL must be an HTTP(S) origin URL without credentials or fragment"

/-- `resource_id`. -/
def resourceId (branch : XaBranchDescriptor) : String := branch.gid ++ "-" ++ branch.branchId

end XaBranchDescriptor

/-! ### Statements -/

/-- The statements that control a transaction: `XA START` and `BEGIN`, `XA END`, `XA PREPARE`
and `PREPARE TRANSACTION`, `XA ROLLBACK` and `ROLLBACK`. -/
inductive XaControl
  | start
  | xaEnd
  | prepare
  | rollback

/-- What a `prepare_branch` does, one after another. -/
inductive XaStatement
  | acquire
  | control (c : XaControl)
  | insertBarrier
  | work
  | register
  | close

/-- What they are answered with: the number of rows for the barrier, the value of the business
closure for the work. -/
def XaStatement.Reply (T : Type) : XaStatement → Type
  | .insertBarrier => Except Err Nat
  | .work => Except Err T
  | .acquire | .control _ | .register | .close => Except Err Unit

def xaStatements (T : Type) : Sig := ⟨XaStatement, XaStatement.Reply T⟩

/-! ### `prepare_branch` -/

/-- An `async fn` of a resource manager. -/
abbrev XaProc (T α : Type) := Proc (xaStatements T) Err α

namespace XaProc

variable {T α : Type}

/-- One statement, without `?`. -/
def ask (o : XaStatement) : XaProc T (o.Reply T) := @Proc.perform (xaStatements T) Err o

/-- A statement whose answer says only whether it was done, with `?`. -/
def require (p : Prog (xaStatements T) (Except Err Unit)) : XaProc T Unit := ExceptT.mk p

/-- `?` on a result that is already there. -/
def ofExcept (e : Except Err α) : XaProc T α := ExceptT.mk (.pure e)

/-- `.context(..)`. -/
def context (x : XaProc T α) (text : Err) : XaProc T α :=
  ExceptT.mk (x.run.bind fun r => .pure (r.mapError fun _ => text))

/-- `rollback_mysql_active` and `cleanup_mysql`. -/
def cleanupMySql : XaProc T Unit := do
  let _ ← ask (.control .xaEnd)
  match ← ask (.control .rollback) with
  | .ok _ => return ()
  | .error e => do
    let _ ← ask .close
    throw e

/-- `cleanup_postgres`. -/
def cleanupPostgres : XaProc T Unit := do
  match ← ask (.control .rollback) with
  | .ok _ => return ()
  | .error e => do
    let _ ← ask .close
    throw e

/-- Clean up after a failed step; `text` is the error when that fails too. -/
def giveUp (cleanup : XaProc T Unit) (text error : Err) : XaProc T α := do
  context cleanup text
  throw error

/-- The control statements that end a branch, each with the error of a failed clean-up and its
own. -/
def finish (cleanup : XaProc T Unit) : List (XaControl × Err × Err) → XaProc T Unit
  | [] => return ()
  | (c, text, error) :: rest => do
    match ← ask (.control c) with
    | .ok _ => finish cleanup rest
    | .error _ => giveUp cleanup text error

/-- What the two `prepare_branch` have in common, from the start of the transaction. -/
def prepareWith (cleanup : XaProc T Unit) (last : List (XaControl × Err × Err)) :
    XaProc T (XaLocalOutcome T) := do
  require (@Prog.perform (xaStatements T) (.control .start))
  match ← ask .insertBarrier with
  | .error _ =>
    giveUp cleanup "failed to clean up XA branch after barrier error"
      "failed to insert XA branch barrier"
  | .ok inserted =>
    if inserted = 0 then
      cleanup
      return .duplicate
    else
      match ← ask .work with
      | .error _ =>
        giveUp cleanup "failed to roll back XA branch after business error"
          "XA business operation failed"
      | .ok value =>
        match ← ask .register with
        | .error _ =>
          giveUp cleanup "failed to roll back XA branch after registration error"
            "failed to register XA branch"
        | .ok _ =>
          finish cleanup last
          return .prepared value

end XaProc

/-- The two databases. -/
inductive XaDialect
  | mySql
  | postgres
  deriving DecidableEq

namespace XaDialect

/-- The checks that `prepare_branch` and `resolve` start with. -/
def check (lib : UrlLib) (branch : XaBranchDescriptor) : XaDialect → Except Err Unit
  | .mySql => do
    branch.validate lib
    ensure (branch.resourceId.utf8ByteSize ≤ 64) "MySQL XA resource id exceeds 64 bytes"
  | .postgres => branch.validate lib

/-- `prepare_branch`. -/
def prepareBranch {T : Type} (lib : UrlLib) (branch : XaBranchDescriptor) (d : XaDialect) :
    XaProc T (XaLocalOutcome T) := do
  XaProc.ofExcept (d.check lib branch)
  XaProc.require (@Prog.perform (xaStatements T) .acquire)
  match d with
  | .mySql =>
    XaProc.prepareWith XaProc.cleanupMySql
      [(.xaEnd, "failed to roll back XA branch after XA END error", "failed to end XA branch"),
        (.prepare, "failed to roll back XA branch after prepare error",
          "failed to prepare XA branch")]
  | .postgres =>
    XaProc.prepareWith XaProc.cleanupPostgres
      [(.prepare, "failed to roll back XA branch after prepare error",
        "failed to prepare XA branch")]

end XaDialect

/-! ### The database -/

/-- What has become of a resource id.  The work of the branch and its row of
`roze_xa_barriers` share its fate. -/
inductive XaState
  | unknown
  | active
  | idle
  | prepared
  | committed
  | rolledBack
  deriving DecidableEq

/-- The resource id of a branch, and whether a committed row of `roze_xa_barriers` has its
key. -/
structure XaResource where
  state : XaState
  row : Bool
  deriving DecidableEq

namespace XaDialect

/-- The state after a control statement on the connection of the branch; `none` when the
database refuses it.  PostgreSQL only warns about a ROLLBACK without a transaction. -/
def after : XaDialect → XaControl → XaState → Option XaState
  | _, .start, .unknown => some .active
  | .mySql, .xaEnd, .active => some .idle
  | .mySql, .prepare, .idle => some .prepared
  | .postgres, .prepare, .active => some .prepared
  | .mySql, .rollback, .idle | .mySql, .rollback, .prepared => some .rolledBack
  | .postgres, .rollback, .active => some .rolledBack
  | .postgres, .rollback, s => some s
  | _, _, _ => none

/-- A statement of a `prepare_branch`, with what becomes of it and the value of the business
closure.  An open transaction ends with its connection.  The request to the coordinator is not
the database's. -/
def exec {T : Type} (d : XaDialect) (fate : Fate) (value : T) :
    (o : XaStatement) → XaResource → o.Reply T × XaResource
  | .acquire, r => (if fate = .done then .ok () else .error "no connection", r)
  | .control c, r =>
    match d.after c r.state, fate with
    | some s, .done => (.ok (), { r with state := s })
    | some s, .lost => (.error "statement failed", { r with state := s })
    | _, _ => (.error "statement failed", r)
  | .insertBarrier, r =>
    (if fate = .done ∧ r.state = .active then .ok (if r.row then 0 else 1)
      else .error "statement failed", r)
  | .work, r =>
    (if fate = .done ∧ r.state = .active then .ok value else .error "statement failed", r)
  | .register, r => (.error "not a statement", r)
  | .close, r =>
    (if fate = .done then .ok () else .error "connection lost",
      if r.state = .active ∨ r.state = .idle then { r with state := .rolledBack } else r)

end XaDialect

/-! ### `resolve` -/

/-- The errors of a COMMIT or ROLLBACK of a resource id: that it is unknown (1397 and XAE04 in
MySQL, 42704 in PostgreSQL), and any other. -/
inductive XaDbError
  | unknownId
  | other

/-- What a COMMIT or ROLLBACK makes of a prepared resource id. -/
def XaPhase2.applied : XaPhase2 → XaResource → XaResource
  | .commit, _ => ⟨.committed, true⟩
  | .rollback, r => ⟨.rolledBack, r.row⟩

/-- The COMMIT or ROLLBACK of a resource id. -/
def XaResource.phase2 (phase : XaPhase2) (fate : Fate) (r : XaResource) :
    Except XaDbError Unit × XaResource :=
  if r.state = .prepared then
    match fate with
    | .done => (.ok (), phase.applied r)
    | .lost => (.error .other, phase.applied r)
    | .failed => (.error .other, r)
  else if fate = .done then (.error .unknownId, r)
  else (.error .other, r)

/-- `resolve`, with what becomes of its statement. -/
def XaDialect.resolve (lib : UrlLib) (branch : XaBranchDescriptor) (d : XaDialect)
    (phase : XaPhase2) (fate : Fate) (r : XaResource) : Except Err XaPhase2Outcome × XaResource :=
  match d.check lib branch with
  | .error e => (.error e, r)
  | .ok _ =>
    match r.phase2 phase fate with
    | (.ok _, r) => (.ok .applied, r)
    | (.error .unknownId, r) => (.ok .alreadyResolved, r)
    | (.error .other, r) => (.error "XA phase 2 failed", r)

end RozeDtm
