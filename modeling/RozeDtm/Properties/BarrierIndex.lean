import RozeDtm.Conc.Outline
import RozeDtm.Redis.Barriers

/-!
# The Redis barrier index

Retention finds the barriers of a transaction by the index of its gid.  `release_barrier` takes
a barrier out of the hash with one command and out of the index with the next, so a barrier that
is taken again between the two loses its place in the index.  In every run where that does not
happen the index is complete at all times.

* `indexes`: a barrier is decided under the index of its own gid.
* `IndexComplete.done`: every command but such an SREM keeps the index complete.
-/

namespace RozeDtm

open Conc

/-- Every barrier in the hash is in the index of its gid. -/
def RedisWorld.IndexComplete (w : RedisWorld) : Prop := ∀ b ∈ w.barriers, b ∈ w.index b.gid

instance (w : RedisWorld) : Decidable w.IndexComplete :=
  inferInstanceAs (Decidable (∀ b ∈ w.barriers, b ∈ w.index b.gid))

/-- The SREM of a release comes while its barrier is still free: no call has taken it since the
HDEL. -/
def ReleasesFree (o : redisCommands.Op) (w : RedisWorld) : Prop :=
  match (o : RedisCommand) with
  | .srem _ field => field ∉ w.barriers
  | _ => True

instance (o : redisCommands.Op) (w : RedisWorld) : Decidable (ReleasesFree o w) :=
  match (o : RedisCommand) with
  | .srem _ field => inferInstanceAs (Decidable (field ∉ w.barriers))
  | .barrierDecision _ _ _ _ _ | .fencedBarrierDecision _ _ _ _ _ _ | .hdel _
  | .fencedDelete _ _ _ | .hgetTransaction _ | .deleteTransactionIfUnchanged _ _ _ =>
    .isTrue trivial

/-! ### What the calls send -/

/-- A barrier is decided under the index of its own gid. -/
def indexes : Discipline redisCommands Unit where
  pre := fun _ o =>
    match o with
    | .barrierDecision gid field _ _ _ | .fencedBarrierDecision gid field _ _ _ _ => field.gid = gid
    | _ => True
  sees := fun _ _ _ => True
  next := fun _ _ _ => ()

section Walk

variable {α : Type}

theorem indexes_ask {o : RedisCommand} {Q : Unit → o.Reply → Prop} :
    indexes.Does (RedisProc.ask o) () Q ↔ indexes.pre () o ∧ ∀ r, Q () r := by
  refine Discipline.does_perform.trans (and_congr_right fun _ => ?_)
  exact forall_congr' fun r => ⟨fun h => h trivial, fun h _ => h⟩

theorem indexes_ofExcept {e : Except Err α} {Q : Unit → α → Prop} (h : ∀ a, Q () a) :
    indexes.Does (RedisProc.ofExcept e) () Q := fun a _ => h a

theorem indexes_barrier {b : BranchBarrier} :
    indexes.Does (RedisProc.barrier b) () (fun _ _ => True) := by
  simp only [RedisProc.barrier, Discipline.does_bind]
  refine indexes_ask.mpr ⟨rfl, fun r => indexes_ofExcept fun decision => ?_⟩
  exact indexes_ofExcept fun _ => trivial

theorem indexes_barrierFenced {b : BranchBarrier} {fence : RecoveryLeaseFence} :
    indexes.Does (RedisProc.barrierFenced b fence) () (fun _ _ => True) := by
  simp only [RedisProc.barrierFenced, Discipline.does_bind]
  refine indexes_ofExcept fun _ => indexes_ask.mpr ⟨rfl, fun r => indexes_ofExcept fun decision => ?_⟩
  split
  · exact Discipline.does_throw
  · exact indexes_ofExcept fun _ => trivial

theorem indexes_releaseBarrier {b : BranchBarrier} :
    indexes.Does (RedisProc.releaseBarrier b) () (fun _ _ => True) := by
  simp only [RedisProc.releaseBarrier, Discipline.does_bind]
  refine indexes_ask.mpr ⟨trivial, fun r => indexes_ofExcept fun deleted => ?_⟩
  refine indexes_ask.mpr ⟨trivial, fun r => indexes_ofExcept fun removed => ?_⟩
  exact Discipline.does_pure.mpr trivial

theorem indexes_releaseBarrierFenced {b : BranchBarrier} {fence : RecoveryLeaseFence} :
    indexes.Does (RedisProc.releaseBarrierFenced b fence) () (fun _ _ => True) := by
  simp only [RedisProc.releaseBarrierFenced, Discipline.does_bind]
  refine indexes_ofExcept fun _ => indexes_ask.mpr ⟨trivial, fun r => indexes_ofExcept fun deleted => ?_⟩
  split
  · exact Discipline.does_pure.mpr trivial
  split
  · exact Discipline.does_throw
  · exact Discipline.does_throw

theorem indexes_deleteTransactionIfUnchanged {decode : String → Except Err Transaction}
    {tx : Transaction} :
    indexes.Does (RedisProc.deleteTransactionIfUnchanged decode tx) () (fun _ _ => True) := by
  simp only [RedisProc.deleteTransactionIfUnchanged, Discipline.does_bind]
  refine indexes_ask.mpr ⟨trivial, fun r => indexes_ofExcept fun payload? => ?_⟩
  cases payload? with
  | none => exact Discipline.does_pure.mpr trivial
  | some payload =>
    dsimp only
    rw [Discipline.does_bind]
    refine indexes_ofExcept fun current => ?_
    split
    · exact Discipline.does_pure.mpr trivial
    simp only [Discipline.does_bind]
    refine indexes_ask.mpr ⟨trivial, fun r => indexes_ofExcept fun deleted => ?_⟩
    split
    · exact Discipline.does_pure.mpr trivial
    split
    · exact Discipline.does_pure.mpr trivial
    · exact Discipline.does_throw

/-- **Every call decides a barrier under the index of its gid.** -/
theorem indexes_call {decode : String → Except Err Transaction} (call : RedisCall) :
    indexes.Follows (call.prog decode) () (fun _ _ => True) := by
  have hdrop : ∀ {β : Type} {x : RedisProc β}, indexes.Does x () (fun _ _ => True) →
      indexes.Follows ((do let _ ← x : RedisProc Unit).run) () (fun _ _ => True) := by
    intro β x hx
    refine Discipline.Does.follows (Q := fun _ _ => True) ?_
    rw [Discipline.does_bind]
    exact hx.mono fun _ _ _ => Discipline.does_pure.mpr trivial
  cases call with
  | barrier b => exact hdrop indexes_barrier
  | barrierFenced b fence => exact hdrop indexes_barrierFenced
  | releaseBarrier b => exact indexes_releaseBarrier.follows
  | releaseBarrierFenced b fence => exact indexes_releaseBarrierFenced.follows
  | deleteTransactionIfUnchanged tx => exact hdrop indexes_deleteTransactionIfUnchanged

end Walk

/-! ### Every command -/

namespace RedisWorld

variable {w : RedisWorld}

theorem IndexComplete.take (h : w.IndexComplete) {gid : String} {field : BranchBarrier}
    (hfield : field.gid = gid) : (w.take gid field).IndexComplete := by
  subst hfield
  intro b hb
  show b ∈ Function.update w.index field.gid (insert field (w.index field.gid)) b.gid
  rcases Finset.mem_insert.mp hb with rfl | hb
  · rw [Function.update_self]
    exact Finset.mem_insert_self ..
  · by_cases hgid : b.gid = field.gid
    · rw [hgid, Function.update_self]
      exact Finset.mem_insert_of_mem (hgid ▸ h b hb)
    · rw [Function.update_of_ne hgid]
      exact h b hb

theorem IndexComplete.barrierDecision (h : w.IndexComplete) {gid : String}
    {field cancelField tryField : BranchBarrier} {op : String} (hfield : field.gid = gid) :
    (w.barrierDecision gid field cancelField tryField op).2.IndexComplete := by
  unfold RedisWorld.barrierDecision
  split
  · exact h
  split
  · exact h
  split
  · exact h.take hfield
  · exact h.take hfield

/-- An index that loses only what is not in the hash. -/
theorem IndexComplete.erase (h : w.IndexComplete) {barriers : Finset BranchBarrier} {gid : String}
    {field : BranchBarrier} (hsub : barriers ⊆ w.barriers) (hfree : field ∉ barriers) :
    IndexComplete { w with
      barriers := barriers
      index := Function.update w.index gid ((w.index gid).erase field) } := by
  intro b hb
  show b ∈ Function.update w.index gid ((w.index gid).erase field) b.gid
  have hne : b ≠ field := fun heq => hfree (heq ▸ hb)
  have hmem : b ∈ w.index b.gid := h b (hsub hb)
  by_cases hgid : b.gid = gid
  · rw [hgid, Function.update_self]
    exact Finset.mem_erase.mpr ⟨hne, hgid ▸ hmem⟩
  · rw [Function.update_of_ne hgid]
    exact hmem

/-- Retention finds every barrier of the gid, so that an empty index is complete after it. -/
theorem IndexComplete.deleteTransaction (h : w.IndexComplete) {gid payload : String}
    {fields : List BranchBarrier} : (w.deleteTransaction gid payload fields).2.IndexComplete := by
  unfold RedisWorld.deleteTransaction
  cases w.transactions gid with
  | none => exact h
  | some current =>
    dsimp only
    split
    · exact h
    intro b hb
    obtain ⟨hleft, -⟩ := Finset.mem_sdiff.mp hb
    obtain ⟨hb, hnot⟩ := Finset.mem_sdiff.mp hleft
    have hgid : b.gid ≠ gid := fun heq => hnot (heq ▸ h b hb)
    show b ∈ Function.update w.index gid ∅ b.gid
    rw [Function.update_of_ne hgid]
    exact h b hb

/-- **A command keeps the index complete**, an SREM when its barrier is still free. -/
theorem IndexComplete.done (h : w.IndexComplete) {o : RedisCommand} (hpre : indexes.pre () o)
    (hfree : ReleasesFree o w) : (w.done o).2.IndexComplete := by
  cases o with
  | barrierDecision gid field cancelField tryField op => exact h.barrierDecision hpre
  | fencedBarrierDecision gid field cancelField tryField op fence =>
    rw [RedisWorld.done]
    split
    · exact h.barrierDecision hpre
    · exact h
  | hdel field => exact fun b hb => h b (Finset.mem_of_mem_erase hb)
  | srem gid field => exact h.erase subset_rfl hfree
  | fencedDelete gid field fence =>
    rw [RedisWorld.done]
    split
    · exact h.erase (Finset.erase_subset ..) (Finset.notMem_erase _ _)
    · exact h
  | hgetTransaction gid => exact h
  | deleteTransactionIfUnchanged gid payload fields => exact h.deleteTransaction

end RedisWorld

/-- The index is complete at all times. -/
def indexOutline : Outline (redis.restrict ReleasesFree) indexes () where
  inv := RedisWorld.IndexComplete
  own := fun _ _ _ => True
  sees := fun _ _ _ _ _ => trivial
  inv_step := fun {w i t o} c hinv _ hpre hallow => by
    have hdone : (w.done o).2.IndexComplete := hinv.done hpre hallow.2
    cases c with
    | done => exact hdone
    | lost => exact hdone
    | failed => exact hinv
  own_step := fun _ _ _ _ _ => trivial
  own_other := fun _ _ _ _ _ _ _ _ _ => trivial
  inv_drift := fun {w w'} hinv hd b hb => by
    rw [hd.2]
    exact hinv b (hd.1 ▸ hb)
  own_drift := fun _ _ _ => trivial

/-- **The barrier index is complete**: in every run from empty keys in which no barrier is taken
again between the two commands of its release, every barrier in the hash is in the index of its
gid. -/
theorem barrier_index_complete (decode : String → Except Err Transaction)
    {transactions : String → Option String} {leases : String → RedisLease} {nowMillis : Nat}
    {P : Pool redisCommands RedisWorld (Except Err Unit)}
    (h : (redis.restrict ReleasesFree).Reaches (RedisCall.Programs decode)
      (.empty transactions leases nowMillis) P) : P.world.IndexComplete := by
  refine (Outline.good_of_reaches indexOutline (fun b hb => absurd hb (Finset.notMem_empty b))
    (fun _ => trivial) (fun p hp => ?_) h).1
  obtain ⟨call, -, rfl⟩ := hp
  exact indexes_call call

/-- A barrier is taken, released and taken again. -/
theorem barrier_index_complete_run : ∃ P : Pool redisCommands RedisWorld (Except Err Unit),
    P.world.barriers = {⟨"g", "b", "action"⟩} ∧ P.world.IndexComplete := by
  obtain ⟨P, hreach, hbarriers⟩ := RedisCall.exists_run (redis.restrict ReleasesFree)
    (fun _ => .error "") (.empty (fun _ => none) (fun _ => ⟨none, 0, 0⟩) 0)
    [.start (.barrier ⟨"g", "b", "action"⟩), .exec 0 .done,
      .start (.releaseBarrier ⟨"g", "b", "action"⟩), .exec 1 .done, .exec 1 .done,
      .start (.barrier ⟨"g", "b", "action"⟩), .exec 2 .done]
    (fun w => w.barriers = {⟨"g", "b", "action"⟩}) (by decide +kernel)
  exact ⟨P, of_decide_eq_true hbarriers, barrier_index_complete _ hreach⟩

/-- A barrier is taken again between the HDEL and the SREM of its release. -/
theorem barrier_missing_from_index : ∃ P : Pool redisCommands RedisWorld (Except Err Unit),
    redis.Reaches (RedisCall.Programs fun _ => .error "")
      (.empty (fun _ => none) (fun _ => ⟨none, 0, 0⟩) 0) P ∧ ¬ P.world.IndexComplete := by
  obtain ⟨P, hreach, hmissing⟩ := RedisCall.exists_run redis
    (fun _ => .error "") (.empty (fun _ => none) (fun _ => ⟨none, 0, 0⟩) 0)
    [.start (.barrier ⟨"g", "b", "action"⟩), .exec 0 .done,
      .start (.releaseBarrier ⟨"g", "b", "action"⟩), .exec 1 .done,
      .start (.barrier ⟨"g", "b", "action"⟩), .exec 2 .done, .exec 1 .done]
    (fun w => ¬ w.IndexComplete) (by decide +kernel)
  exact ⟨P, hreach, of_decide_eq_true hmissing⟩

end RozeDtm
