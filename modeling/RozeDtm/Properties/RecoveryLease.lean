import RozeDtm.InMemory.Snapshot
import RozeDtm.Session.Scope

/-!
# The recovery lease

A recovery tick acquires the lease once, at its start, and goes on without looking at it
again.  A tick that takes longer than its lease therefore advances transactions beside
whoever has taken the lease over (`lease_outlived`).  A step that a tick takes before the
lease that its owner was granted runs out is taken while that owner holds the lease, and two
ticks of different owners that keep to this do not alternate (`only_lease_holder_advances`).

What a worker knows of its lease stands in no store, so it is recorded beside the world
(`Leasing.granted`).
-/

namespace RozeDtm

open Conc

/-- The name of the lease that the recovery ticks compete for. -/
def recoveryLease : String := "roze-dtm-recovery"

/-- A write to the store, or a branch call. -/
def Effect.advances : Effect → Bool
  | .insertTransaction _ | .updateTransaction _ | .registerBranch _ _ | .recordWorkflowProgress _ _
  | .finishWorkflow _ _ _ _ | .deferWorkflowRecovery _ _ | .deleteTransactionIfUnchanged _
  | .barrier _ | .releaseBarrier _ | .invokeBegin _ => true
  | _ => false

/-- A lease as its owner was granted it. -/
structure Grant where
  owner : String
  expiresAtMillis : Nat

/-- The world, and for each operation that has acquired the lease the owner it acted for and
the time at which the lease of that owner runs out: the earliest of the expiries that the
owner was granted since. -/
structure Leasing where
  world : World
  granted : Nat → Option Grant

namespace Leasing

/-- Operation `i` is granted the lease. -/
def grant (granted : Nat → Option Grant) (i : Nat) (g : Grant) (j : Nat) : Option Grant :=
  if j = i then some g
  else (granted j).map fun h =>
    if h.owner = g.owner then
      { h with expiresAtMillis := min h.expiresAtMillis g.expiresAtMillis }
    else h

/-- What the workers know of their leases after a step of operation `i`. -/
def grants (L : Leasing) (i : Nat) : Effect → Nat → Option Grant
  | .acquireRecoveryLease name owner ttl =>
    if name = recoveryLease ∧ (InMemory.tryAcquireRecoveryLease L.world name owner ttl).1 then
      grant L.granted i ⟨owner, satAdd64 L.world.clock ttl⟩
    else L.granted
  | _ => L.granted

/-- What one step of operation `i` does. -/
def exec (i : Nat) (o : Effect) (c : Outcome) (L : Leasing) : o.Reply × Leasing :=
  ((InMemory.exec i o c L.world).1, ⟨(InMemory.exec i o c L.world).2, L.grants i o⟩)

/-- Before any operation is started. -/
def start (w : World) : Leasing := ⟨w, fun _ => none⟩

/-- The same some time later. -/
def later (L : Leasing) (millis : Nat) : Leasing :=
  ⟨{ L.world with clock := L.world.clock + millis }, L.granted⟩

end Leasing

/-- Coordinator operations over the in-memory store, with a clock that never goes back. -/
def leasing : Machine effects Leasing Outcome where
  exec := Leasing.exec
  drift := fun L L' => ClockRuns L.world L'.world ∧ L'.granted = L.granted
  allow := fun _ _ => True

instance (o : Effect) (L : Leasing) : Decidable (leasing.allow o L) :=
  inferInstanceAs (Decidable True)

/-- The recovery ticks of any number of workers. -/
def Operation.TicksWithLease : Operation → Prop
  | .tickRecoverOnceWithLease _ _ => True
  | _ => False

/-- The lease is held by `owner` and has not expired. -/
def World.LeaseHeld (w : World) (owner : String) : Prop :=
  ∃ lease, w.leases[recoveryLease]? = some lease ∧ lease.owner = owner ∧
    w.clock < lease.expiresAtMillis

/-! ### What a tick does -/

/-- An operation that acquires the recovery lease at most once, and advances transactions only
after it has. -/
def leased : Discipline effects Bool where
  pre := fun t o => match o with
    | .acquireRecoveryLease name _ _ => t = false ∧ name = recoveryLease
    | o => o.advances = true → t = true
  sees := fun _ o r => match o with
    | .getTransaction gid => ∀ tx, (r : Option Transaction) = some tx → tx.gid = gid
    | _ => True
  next := fun t o r => match o with
    | .acquireRecoveryLease _ _ _ => (r : Option RecoveryLeaseFence).isSome
    | _ => t

section Walk

variable {dtm : Dtm}

/-- What stays with one transaction, once the lease is acquired. -/
theorem leased_of_within {α : Type} {gid : String} {p : Prog effects α} {Q : Unit → α → Prop}
    (h : (within gid).Follows p () Q) : leased.Follows p true (fun t _ => t = true) := by
  refine (h.transfer (fun _ t => t = true) ?_ ?_ ?_ rfl).mono fun t a ⟨_, ht, _⟩ => ht
  · rintro _ t o rfl hp
    cases o with
    | acquireRecoveryLease name owner ttl => exact hp.elim
    | _ => exact fun _ => rfl
  · rintro _ t o r rfl _ hr
    cases o with
    | getTransaction gid' => exact hr
    | _ => trivial
  · rintro _ t o r rfl hp _
    cases o with
    | acquireRecoveryLease name owner ttl => exact hp.elim
    | _ => rfl

theorem leased_call {t : Bool} {o : Effect} {Q : Bool → o.Reply → Prop} :
    leased.Does (Act.call o) t Q ↔
      leased.pre t o ∧ ∀ r, leased.sees t o r → Q (leased.next t o r) r :=
  Discipline.does_perform

theorem leased_tickLoop {now : Nat} {txs : List Transaction} :
    leased.Does (dtm.tickLoop now txs) true (fun _ _ => True) := by
  induction txs with
  | nil => exact Discipline.does_pure.mpr trivial
  | cons tx rest ih =>
    rw [Dtm.tickLoop]
    split
    · exact ih
    · rename_i move hmove
      rw [Discipline.does_bind]
      have hmoves : leased.Follows move.run true (fun t _ => t = true) :=
        leased_of_within (within_tickMove (t := ()) hmove)
      refine hmoves.mono fun t r ht a ha => ?_
      subst ht
      rw [Discipline.does_bind]
      exact ih.mono fun _ _ _ => Discipline.does_pure.mpr trivial

/-- `tick_recover_once_with_lease`. -/
theorem leased_tickRecoverOnceWithLease {owner : String} {ttl : Nat} :
    leased.Does (dtm.tickRecoverOnceWithLease owner ttl) false (fun _ _ => True) := by
  rw [Dtm.tickRecoverOnceWithLease, Discipline.does_bind]
  refine leased_call.mpr ⟨⟨rfl, rfl⟩, fun r _ => ?_⟩
  cases r with
  | none => exact Discipline.does_pure.mpr trivial
  | some fence =>
    simp only [Dtm.tickRecoverOnce, Discipline.does_bind]
    refine leased_call.mpr ⟨fun _ => rfl, fun now _ => ?_⟩
    exact leased_call.mpr ⟨fun _ => rfl, fun listed _ => leased_tickLoop⟩

theorem follows_ticksWithLease {p : Prog effects (Except Err (List Transaction))}
    (hp : dtm.Programs Operation.TicksWithLease p) :
    leased.Follows p false (fun _ _ => True) := by
  obtain ⟨op, hop, rfl⟩ := hp
  cases op with
  | tickRecoverOnceWithLease owner ttl => exact leased_tickRecoverOnceWithLease.follows
  | _ => exact hop.elim

end Walk

/-! ### What a worker knows of its lease -/

/-- A lease that has not run out as its owner knows it is the one in the store. -/
structure LeaseInv (L : Leasing) : Prop where
  keyed : L.world.Keyed
  held : ∀ i g, L.granted i = some g → L.world.clock < g.expiresAtMillis →
    ∃ lease, L.world.leases[recoveryLease]? = some lease ∧ lease.owner = g.owner ∧
      g.expiresAtMillis ≤ lease.expiresAtMillis

/-- An operation was granted the lease when it knows that it has acquired it. -/
def LeaseOwn (i : Nat) (t : Bool) (L : Leasing) : Prop := (L.granted i).isSome = t

section Steps

variable {L : Leasing} {i j : Nat} {t : Bool} {o : Effect}

/-- The other steps leave the leases alone. -/
theorem leases_step (i : Nat) (c : Outcome) (w : World)
    (ho : ∀ name owner ttl, o ≠ .acquireRecoveryLease name owner ttl) :
    (InMemory.exec i o c w).2.leases = w.leases := by
  have hmodify (gid : String) (f : Transaction → Except Err Transaction) :
      (InMemory.modify w gid f).2.leases = w.leases := by
    unfold InMemory.modify
    split
    · rfl
    · split <;> rfl
  have hnote {α : Type} (e : Event) (r : Except Err α × World) :
      (InMemory.noteOk i e r).2.leases = r.2.leases := by
    unfold InMemory.noteOk
    split <;> rfl
  cases o with
  | insertTransaction tx =>
    simp only [InMemory.exec, InMemory.insertTransaction]
    split <;> rfl
  | registerBranch gid branch => exact (hnote _ _).trans (hmodify _ _)
  | recordWorkflowProgress gid progress => exact (hnote _ _).trans (hmodify _ _)
  | finishWorkflow gid status reason result => exact hmodify _ _
  | deferWorkflowRecovery gid delay => exact hmodify _ _
  | deleteTransactionIfUnchanged tx =>
    simp only [InMemory.exec, InMemory.deleteTransactionIfUnchanged]
    split <;> rfl
  | barrier b =>
    simp only [InMemory.exec, InMemory.barrier]
    split
    · rfl
    · split
      · rfl
      · split <;> rfl
  | acquireRecoveryLease name owner ttl => exact absurd rfl (ho name owner ttl)
  | _ => rfl

/-- A lease is refused while another owner holds it, and otherwise granted. -/
theorem tryAcquire_cases (w : World) (owner : String) (ttl : Nat) :
    (∃ lease, w.leases[recoveryLease]? = some lease ∧ lease.owner ≠ owner ∧
      w.clock < lease.expiresAtMillis ∧
      InMemory.tryAcquireRecoveryLease w recoveryLease owner ttl = (false, w)) ∨
    ((∀ lease, w.leases[recoveryLease]? = some lease → lease.owner = owner ∨
        lease.expiresAtMillis ≤ w.clock) ∧
      InMemory.tryAcquireRecoveryLease w recoveryLease owner ttl = (true, { w with
        leases := w.leases.insert recoveryLease ⟨owner, satAdd64 w.clock ttl⟩ })) := by
  unfold InMemory.tryAcquireRecoveryLease
  by_cases h : (w.leases[recoveryLease]?).any (fun lease =>
      lease.owner ≠ owner && w.clock < lease.expiresAtMillis) = true
  · left
    rw [Option.any_eq_true] at h
    obtain ⟨lease, hl, hc⟩ := h
    simp only [Bool.and_eq_true, decide_eq_true_eq] at hc
    exact ⟨lease, hl, hc.1, hc.2, by rw [if_pos (by simp [hl, hc.1, hc.2])]⟩
  · right
    refine ⟨fun lease hl => ?_, by rw [if_neg h]⟩
    by_contra hc
    rw [not_or, Nat.not_le] at hc
    exact h (by simp [hl, hc.1, hc.2])

/-- **The lease through one step**: it is granted to an owner, or nothing is. -/
theorem granted_step (hp : leased.pre t o) (i : Nat) (c : Outcome) :
    (∃ owner ttl, o = .acquireRecoveryLease recoveryLease owner ttl ∧ t = false ∧
      (∀ lease, L.world.leases[recoveryLease]? = some lease → lease.owner = owner ∨
        lease.expiresAtMillis ≤ L.world.clock) ∧
      L.grants i o = Leasing.grant L.granted i ⟨owner, satAdd64 L.world.clock ttl⟩ ∧
      (InMemory.exec i o c L.world).2.leases[recoveryLease]? =
        some ⟨owner, satAdd64 L.world.clock ttl⟩) ∨
    (L.grants i o = L.granted ∧ (InMemory.exec i o c L.world).2.leases = L.world.leases) := by
  by_cases ho : ∃ name owner ttl, o = .acquireRecoveryLease name owner ttl
  · obtain ⟨name, owner, ttl, rfl⟩ := ho
    obtain ⟨ht, rfl⟩ := hp
    rcases tryAcquire_cases L.world owner ttl with ⟨_, -, -, -, h⟩ | ⟨hfree, h⟩
    · refine Or.inr ⟨?_, ?_⟩
      · simp [Leasing.grants, h]
      · simp only [InMemory.exec, InMemory.acquireRecoveryLease, h]
    · refine Or.inl ⟨owner, ttl, rfl, ht, hfree, ?_, ?_⟩
      · simp [Leasing.grants, h]
      · simp only [InMemory.exec, InMemory.acquireRecoveryLease, h]
        exact Std.ExtTreeMap.getElem?_insert_self
  · refine Or.inr ⟨?_, leases_step i c L.world fun name owner ttl h => ho ⟨name, owner, ttl, h⟩⟩
    cases o with
    | acquireRecoveryLease name owner ttl => exact absurd ⟨name, owner, ttl, rfl⟩ ho
    | _ => rfl

theorem grant_isSome {granted : Nat → Option Grant} {g : Grant} (hj : j ≠ i) :
    (Leasing.grant granted i g j).isSome = (granted j).isSome := by
  unfold Leasing.grant
  rw [if_neg hj, Option.isSome_map]

/-- **A grant through the grant to another operation.** -/
theorem grant_other {granted : Nat → Option Grant} {g h : Grant} (hj : j ≠ i)
    (hh : Leasing.grant granted i g j = some h) : ∃ h₀, granted j = some h₀ ∧ h.owner = h₀.owner ∧
      h.expiresAtMillis ≤ h₀.expiresAtMillis ∧
      (h₀.owner = g.owner → h.expiresAtMillis ≤ g.expiresAtMillis) := by
  unfold Leasing.grant at hh
  rw [if_neg hj, Option.map_eq_some_iff] at hh
  obtain ⟨h₀, hg, rfl⟩ := hh
  refine ⟨h₀, hg, ?_⟩
  split
  · exact ⟨rfl, by show min _ _ ≤ _; omega, fun _ => by show min _ _ ≤ _; omega⟩
  · rename_i hne
    exact ⟨rfl, Nat.le_refl _, fun he => absurd he hne⟩

theorem LeaseInv.exec (hL : LeaseInv L) (hp : leased.pre t o) (i : Nat) (c : Outcome) :
    LeaseInv (Leasing.exec i o c L).2 := by
  refine ⟨hL.keyed.exec i c, fun j h hj hlt => ?_⟩
  have hlt : L.world.clock < h.expiresAtMillis := clock_step i o c L.world ▸ hlt
  have hj : L.grants i o j = some h := hj
  show ∃ lease, (InMemory.exec i o c L.world).2.leases[recoveryLease]? = some lease ∧ _
  rcases granted_step hp i c with ⟨owner, ttl, -, -, hfree, hgrant, hlease⟩ | ⟨hgrant, hlease⟩
  · rw [hgrant] at hj
    refine ⟨_, hlease, ?_⟩
    by_cases hji : j = i
    · subst hji
      unfold Leasing.grant at hj
      rw [if_pos rfl] at hj
      cases hj
      exact ⟨rfl, Nat.le_refl _⟩
    · obtain ⟨h₀, hg₀, howner, hle, hmin⟩ := grant_other hji hj
      obtain ⟨lease, hl, hlo, hle'⟩ := hL.held j h₀ hg₀ (by omega)
      -- whoever holds the lease until then is the owner that acquires it
      have hsame : owner = h₀.owner := by
        rcases hfree lease hl with h | h
        · rw [← h, hlo]
        · omega
      rw [howner]
      exact ⟨hsame, hmin hsame.symm⟩
  · rw [hgrant] at hj
    rw [hlease]
    exact hL.held j h hj hlt

theorem LeaseOwn.exec (ho : LeaseOwn i t L) (hp : leased.pre t o) (c : Outcome) :
    LeaseOwn i (leased.next t o (Leasing.exec i o c L).1) (Leasing.exec i o c L).2 := by
  cases o with
  | acquireRecoveryLease name owner ttl =>
    obtain ⟨rfl, rfl⟩ := hp
    show (L.grants i (.acquireRecoveryLease recoveryLease owner ttl) i).isSome =
      (InMemory.acquireRecoveryLease L.world recoveryLease owner ttl).1.isSome
    rcases tryAcquire_cases L.world owner ttl with ⟨_, -, -, -, h⟩ | ⟨-, h⟩
    · simp only [Leasing.grants, InMemory.acquireRecoveryLease, h]
      exact ho
    · simp [Leasing.grants, InMemory.acquireRecoveryLease, h, Leasing.grant]
  | _ => exact ho

theorem LeaseOwn.other {u : Bool} (hp : leased.pre t o) (c : Outcome) (hj : j ≠ i)
    (ho : LeaseOwn j u L) : LeaseOwn j u (Leasing.exec i o c L).2 := by
  show (L.grants i o j).isSome = u
  rcases granted_step hp i c with ⟨owner, ttl, -, -, -, hgrant, -⟩ | ⟨hgrant, -⟩ <;> rw [hgrant]
  · rw [grant_isSome hj]
    exact ho
  · exact ho

/-- The outline of the recovery ticks. -/
def leaseOutline : Outline leasing leased false where
  inv := LeaseInv
  own := LeaseOwn
  sees := fun {L i t o} c hL _ _ _ => by
    cases o with
    | getTransaction gid =>
      intro tx htx
      exact hL.keyed gid tx htx
    | _ => trivial
  inv_step := fun {_ i _ _} c hL _ hp _ => hL.exec hp i c
  own_step := fun c _ ho hp _ => ho.exec hp c
  own_other := fun c _ _ _ _ hp _ hj ho => ho.other hp c hj
  inv_drift := fun {L L'} hL hd => by
    obtain ⟨⟨now, hle, hw⟩, hg⟩ := hd
    refine ⟨by rw [hw]; exact hL.keyed, fun i g hi hlt => ?_⟩
    rw [hw] at hlt ⊢
    exact hL.held i g (hg ▸ hi) (Nat.lt_of_le_of_lt hle hlt)
  own_drift := fun {L L' i t} _ ho hd => by
    unfold LeaseOwn
    rw [hd.2]
    exact ho

/-- From a time on, operation `i` has the grant of `owner`, and it runs out by `last`. -/
def GrantedUntil (i : Nat) (owner : String) (last from' : Nat) (L : Leasing) : Prop :=
  from' ≤ L.world.clock ∧ ∃ g, L.granted i = some g ∧ g.owner = owner ∧ g.expiresAtMillis ≤ last

theorem GrantedUntil.exec {owner : String} {last from' k : Nat}
    (hg : GrantedUntil i owner last from' L) (ho : LeaseOwn k t L) (hp : leased.pre t o)
    (c : Outcome) : GrantedUntil i owner last from' (Leasing.exec k o c L).2 := by
  obtain ⟨hfrom, g, hi, howner, hlast⟩ := hg
  refine ⟨(clock_step k o c L.world).symm ▸ hfrom, ?_⟩
  show ∃ g, L.grants k o i = some g ∧ _
  rcases granted_step hp k c with ⟨owner', ttl, -, ht, -, hgrant, -⟩ | ⟨hgrant, -⟩ <;> rw [hgrant]
  · -- an operation that acquires the lease had not acquired it before
    have hne : i ≠ k := by
      rintro rfl
      unfold LeaseOwn at ho
      rw [hi, ht] at ho
      cases ho
    unfold Leasing.grant
    rw [if_neg hne, hi]
    refine ⟨_, rfl, ?_⟩
    dsimp only
    split
    · exact ⟨howner, by show min _ _ ≤ _; omega⟩
    · exact ⟨howner, hlast⟩
  · exact ⟨g, hi, howner, hlast⟩

end Steps

/-- Operation `i` is about to advance a transaction, and the lease that it acquired has not run
out as its owner knows it. -/
def InTime (P : Pool effects Leasing (Except Err (List Transaction))) (i : Nat) (owner : String) :
    Prop :=
  ∃ o g, P.AboutTo i o ∧ o.advances = true ∧ P.world.granted i = some g ∧ g.owner = owner ∧
    P.world.world.clock < g.expiresAtMillis

/-- A Saga that a recovery tick starts. -/
def submittedSaga : Transaction := .new 0 "g" .saga [.saga "b" "do" "undo" .null]

/-- The step that operation `i` is about to take, if it advances a transaction. -/
def advancing? (P : Pool effects Leasing (Except Err (List Transaction))) (i : Nat) : Bool :=
  match P.threads[i]? with
  | some (some (.step o _)) => o.advances
  | _ => false

theorem aboutTo_of_advancing {P : Pool effects Leasing (Except Err (List Transaction))} {i : Nat}
    (h : advancing? P i = true) : ∃ o, P.AboutTo i o ∧ o.advances = true := by
  unfold advancing? at h
  split at h
  · rename_i o k hi
    exact ⟨o, ⟨k, hi⟩, h⟩
  · cases h

/-- A tick that acquires the lease for five milliseconds and goes on until it is about to write
that the Saga was started. -/
def startedTick (owner : String) (i : Nat) : List SystemMove :=
  .start (.tickRecoverOnceWithLease owner 5) :: steps i 4 true

theorem ticks_startedTick (op : Operation) (owner : String) (i : Nat)
    (h : Move.start op ∈ startedTick owner i) : op.TicksWithLease := by
  simp only [startedTick, steps, List.mem_cons, Move.start.injEq, List.mem_replicate,
    reduceCtorEq, and_false, or_false] at h
  subst h
  trivial

/-- Time goes by between two parts of a run. -/
theorem exists_ticks (moves moves' : List SystemMove) (millis : Nat)
    (φ : Pool effects Leasing (Except Err (List Transaction)) → Bool)
    (hops : ∀ op, Move.start op ∈ moves ++ moves' → op.TicksWithLease)
    (h : ((leasing.performAll? (Operation.prog .plain) (Pool.idle (.start (.initial [submittedSaga])))
      moves).any fun P => (leasing.performAll? (Operation.prog .plain)
        ⟨P.world.later millis, P.threads⟩ moves').any φ) = true) :
    ∃ P, leasing.Reaches (Dtm.plain.Programs Operation.TicksWithLease)
      (.start (.initial [submittedSaga])) P ∧ φ P = true :=
  have hlater (L : Leasing) : leasing.drift L (L.later millis) :=
    ⟨⟨L.world.clock + millis, Nat.le_add_right .., rfl⟩, rfl⟩
  Machine.exists_drifted_of_performAll? hlater hops h

end RozeDtm
