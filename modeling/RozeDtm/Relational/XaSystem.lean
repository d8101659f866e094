import RozeDtm.Model.System
import RozeDtm.Relational.Xa

/-!
# An XA transaction and its databases

The coordinator's operations on one XA transaction, the `prepare_branch` calls of its
branches, one for each, and the phase-2 endpoints that `resolve` them.  The request that a
`prepare_branch` makes is a registration in the coordinator's store; a phase-2 request that
the coordinator has issued can arrive at any time after, any number of times, and its call
comes back with success only when it was answered so.
-/

namespace RozeDtm

open Conc

/-- The XA transaction `gid` and its branches `ids`, each with its endpoint and its database. -/
structure XaSite where
  dtm : Dtm
  gid : String
  ids : List String
  url : String → String
  dialect : String → XaDialect

/-- What is to be known of a branch: its resource id in its database, and what is left of its
`prepare_branch`, once that was called. -/
structure XaLocal (T : Type) where
  resource : XaResource
  call : Option (Prog (xaStatements T) (Except Err (XaLocalOutcome T)))

/-- The coordinator, the branches, and the calls that an endpoint has answered with success. -/
structure XaSystem (T : Type) where
  pool : System
  locals : String → XaLocal T
  answered : List BranchCall

namespace XaLocal

variable {T : Type}

/-- The `prepare_branch` of the branch has finished. -/
def finished (l : XaLocal T) : Bool :=
  match l.call with
  | some (.pure _) => true
  | _ => false

/-- It has returned `Prepared`. -/
def isPrepared (l : XaLocal T) : Bool :=
  match l.call with
  | some (.pure (.ok (.prepared _))) => true
  | _ => false

end XaLocal

/-- What an answer of success to a phase-2 request for a resource id that is not prepared
says: a branch to be committed was committed, and one to be rolled back is resolved, or its
`prepare_branch` has finished without it. -/
def XaLocal.Resolved {T : Type} (l : XaLocal T) : XaPhase2 → Prop
  | .commit => l.resource.state = .committed
  | .rollback => l.resource.state = .committed ∨ l.resource.state = .rolledBack ∨
      (l.finished = true ∧ l.resource.state ≠ .prepared)

instance {T : Type} (l : XaLocal T) (phase : XaPhase2) : Decidable (l.Resolved phase) := by
  cases phase
  · exact inferInstanceAs (Decidable (_ = _))
  · exact inferInstanceAs (Decidable (_ ∨ _ ∨ _))

namespace XaSystem

variable {T : Type} (S : XaSystem T)

def setLocal (id : String) (l : XaLocal T) : XaSystem T :=
  { S with locals := Function.update S.locals id l }

/-- The operations begin with no branch called; `row` says which rows of `roze_xa_barriers` are
there. -/
def initial (w : World) (row : String → Bool) : XaSystem T :=
  ⟨Pool.idle w, fun id => ⟨⟨.unknown, row id⟩, none⟩, []⟩

/-- A move of the system, as data. -/
inductive Move (T : Type)
  | start (op : Operation)
  | exec (i : Nat) (c : Outcome)
  | cut (i : Nat)
  | drift (now : Nat)
  | call (id : String)
  | statement (id : String) (fate : Fate) (value : T)
  | register (id : String) (answered : Bool)
  | deliver (c : BranchCall) (fate : Fate)

end XaSystem

namespace XaSite

variable {T : Type} (site : XaSite)

/-- The descriptor of a branch. -/
def descriptor (id : String) : XaBranchDescriptor := ⟨site.gid, id, site.url id⟩

/-- The branch that `registerXaBranch` registers for it. -/
def registered (id : String) : Branch := .xa id (site.url id) (site.url id) .null

/-- The operations that may be started: `commit_xa` once every `prepare_branch` has returned
`Prepared`. -/
def Asks (S : XaSystem T) : Operation → Prop
  | .prepareXa gid | .rollbackXa gid | .scheduleAbort gid => gid = site.gid
  | .tickRecoverOnce => True
  | .commitXa gid => gid = site.gid ∧ ∀ id ∈ site.ids, (S.locals id).isPrepared = true
  | _ => False

/-- A call of the transaction comes back with success only when it was answered so. -/
def ComesBack (S : XaSystem T) : Effect → Outcome → Prop
  | .invokeEnd call, c => call.gid = site.gid → c.ok = true → call ∈ S.answered
  | _, _ => True

/-- The moves that can be made, when the steps of the coordinator are to meet `allow` and the
phase-2 requests that arrive `safe`. -/
def Allowed (allow : Effect → World → Prop) (safe : XaSystem T → BranchCall → Prop)
    (S : XaSystem T) : XaSystem.Move T → Prop
  | .start op => site.Asks S op
  | .exec i c =>
    match S.pool.threads[i]? with
    | some (some (.step o _)) => allow o S.pool.world ∧ site.ComesBack S o c
    | _ => False
  | .call id => id ∈ site.ids
  | .register id _ => allow (.registerBranch site.gid (site.registered id)) S.pool.world
  | .deliver c _ => (∃ entry ∈ S.pool.world.history, entry.2 = .began c) ∧ c.gid = site.gid ∧
      safe S c
  | .cut _ | .drift _ | .statement _ _ _ => True

/-- What is left of a registration when the store has answered. -/
def registrationEnd (r : Except Err Transaction) :
    Prog effects (Except Err (List Transaction)) := .pure (r.map fun tx => [tx])

/-- The system after a move.  The request of a `prepare_branch` that does not arrive is the
statement `register` that fails. -/
def next? (S : XaSystem T) : XaSystem.Move T → Option (XaSystem T)
  | .start op =>
    some { S with pool := ⟨S.pool.world, S.pool.threads ++ [some (op.prog site.dtm)]⟩ }
  | .exec i c =>
    match S.pool.threads[i]? with
    | some (some (.step o k)) =>
      some { S with pool := ⟨(InMemory.exec i o c S.pool.world).2,
        S.pool.threads.set i (some (k (InMemory.exec i o c S.pool.world).1))⟩ }
    | _ => none
  | .cut i => some { S with pool := ⟨S.pool.world, S.pool.threads.set i none⟩ }
  | .drift now => some { S with pool := ⟨{ S.pool.world with clock := now }, S.pool.threads⟩ }
  | .call id =>
    match (S.locals id).call with
    | some _ => none
    | none => some (S.setLocal id ⟨(S.locals id).resource,
        some ((site.dialect id).prepareBranch site.dtm.libs.url (site.descriptor id)).run⟩)
  | .statement id fate value =>
    match (S.locals id).call with
    | some (.step o k) =>
      let r := (site.dialect id).exec fate value o (S.locals id).resource
      some (S.setLocal id ⟨r.2, some (k r.1)⟩)
    | _ => none
  | .register id answered =>
    match (S.locals id).call with
    | some (.step .register k) =>
      let i := S.pool.threads.length
      let r := InMemory.exec i (.registerBranch site.gid (site.registered id)) (.ofOk true)
        S.pool.world
      let reply : Except Err Unit := if answered then (r.1 : Except Err Transaction).map fun _ => ()
        else .error "no answer"
      some { S.setLocal id ⟨(S.locals id).resource, some (k reply)⟩ with
        pool := ⟨r.2, S.pool.threads ++ [some (registrationEnd r.1)]⟩ }
    | _ => none
  | .deliver c fate =>
    match XaPhase2.parse c.op with
    | .error _ => none
    | .ok phase =>
      let l := S.locals c.branchId
      let r := (site.dialect c.branchId).resolve site.dtm.libs.url (site.descriptor c.branchId) phase
        fate l.resource
      some { S.setLocal c.branchId ⟨r.2, l.call⟩ with
        answered := if r.1.toBool then c :: S.answered else S.answered }

/-- One move. -/
def Step (allow : Effect → World → Prop) (safe : XaSystem T → BranchCall → Prop)
    (S S' : XaSystem T) : Prop :=
  ∃ m, site.Allowed allow safe S m ∧ site.next? S m = some S'

/-- What any number of moves reach. -/
def Reaches (allow : Effect → World → Prop) (safe : XaSystem T → BranchCall → Prop) :
    XaSystem T → XaSystem T → Prop :=
  Relation.ReflTransGen (site.Step allow safe)

/-! ### Computed runs -/

section Run

variable {allow : Effect → World → Prop} {safe : XaSystem T → BranchCall → Prop}

instance (S : XaSystem T) (op : Operation) : Decidable (site.Asks S op) := by
  cases op with
  | prepareXa gid | rollbackXa gid | scheduleAbort gid => exact inferInstanceAs (Decidable (_ = _))
  | tickRecoverOnce => exact isTrue trivial
  | commitXa gid => exact inferInstanceAs (Decidable (_ ∧ ∀ id ∈ site.ids, _))
  | _ => exact isFalse id

instance (S : XaSystem T) (o : Effect) (c : Outcome) : Decidable (site.ComesBack S o c) := by
  cases o with
  | invokeEnd call => exact inferInstanceAs (Decidable (_ → _ → _))
  | _ => exact isTrue trivial

instance [∀ o w, Decidable (allow o w)] [∀ S c, Decidable (safe S c)] (S : XaSystem T)
    (m : XaSystem.Move T) : Decidable (site.Allowed allow safe S m) := by
  cases m with
  | start op => exact inferInstanceAs (Decidable (site.Asks S op))
  | exec i c =>
    rw [Allowed]
    split
    · exact inferInstanceAs (Decidable (_ ∧ _))
    · exact isFalse id
  | call id => exact inferInstanceAs (Decidable (id ∈ site.ids))
  | register id answered => exact inferInstanceAs (Decidable (allow _ _))
  | deliver c fate => exact inferInstanceAs (Decidable ((∃ entry ∈ _, _) ∧ _ ∧ _))
  | _ => exact isTrue trivial

/-- Moves one after another; `none` when one of them cannot be made. -/
def nextAll? (allow : Effect → World → Prop) (safe : XaSystem T → BranchCall → Prop)
    [∀ o w, Decidable (allow o w)] [∀ S c, Decidable (safe S c)] :
    XaSystem T → List (XaSystem.Move T) → Option (XaSystem T)
  | S, [] => some S
  | S, m :: moves =>
    if site.Allowed allow safe S m then
      (site.next? S m).bind fun S' => nextAll? allow safe S' moves
    else none

variable [∀ o w, Decidable (allow o w)] [∀ S c, Decidable (safe S c)]

theorem reaches_of_nextAll? {S S' : XaSystem T} {moves : List (XaSystem.Move T)}
    (h : site.nextAll? allow safe S moves = some S') : site.Reaches allow safe S S' := by
  induction moves generalizing S with
  | nil =>
    cases h
    exact .refl
  | cons m moves ih =>
    rw [nextAll?] at h
    split at h
    · rename_i hm
      obtain ⟨S₁, hS₁, h⟩ := Option.bind_eq_some_iff.mp h
      exact .head ⟨m, hm, hS₁⟩ (ih h)
    · cases h

/-- A run computed from its moves. -/
theorem exists_of_nextAll? {S : XaSystem T} {moves : List (XaSystem.Move T)}
    {φ : XaSystem T → Bool} (h : (site.nextAll? allow safe S moves).any φ = true) :
    ∃ S', site.Reaches allow safe S S' ∧ φ S' = true := by
  rw [Option.any_eq_true] at h
  obtain ⟨S', hS', hφ⟩ := h
  exact ⟨S', site.reaches_of_nextAll? hS', hφ⟩

end Run

end XaSite

/-- Statement after statement of one `prepare_branch`, each done. -/
def XaSystem.statements (id : String) (n : Nat) : List (XaSystem.Move Unit) :=
  List.replicate n (.statement id .done ())

/-- Operation `i` takes `n` steps; a call that comes back in them returns `ok`. -/
def XaSystem.execs (i n : Nat) (ok : Bool) : List (XaSystem.Move Unit) :=
  List.replicate n (.exec i (.ofOk ok))

/-- A transaction `g` with one branch `b` in MySQL, over the library functions of `Libs.plain`. -/
def XaSite.plain : XaSite := ⟨.plain, "g", ["b"], fun _ => "xa", fun _ => .mySql⟩

/-- It is submitted, and its branch is not called yet. -/
def XaSystem.submitted : XaSystem Unit :=
  .initial (.initial [.new 0 "g" .xa []]) fun _ => false

/-- The `prepare_branch` of `b` until the coordinator has registered it. -/
def XaSystem.registers : List (XaSystem.Move Unit) :=
  .call "b" :: XaSystem.statements "b" 4 ++ [.register "b" true]

/-- A call of the second phase of `b`. -/
def XaSystem.phase2 (op : String) : BranchCall where
  gid := "g"
  branchId := "b"
  op := op
  url := "xa?gid=g&trans_type=xa&branch_id=b&op=" ++ op
  payload := .null
  options := (Transaction.new 0 "g" .xa []).options

end RozeDtm
