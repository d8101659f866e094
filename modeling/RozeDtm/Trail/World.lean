import RozeDtm.InMemory.Ledger
import RozeDtm.InMemory.Snapshot
import RozeDtm.Trail.Operations

/-!
# What lasts while records develop

A property of a record and of the calls that have succeeded is `Lasting` when it is kept by
every record that develops from one that has it.  It then holds of every stored record
(`lastingOutline`), if it holds of what is inserted and the registrations keep it.
-/

namespace RozeDtm

open Conc

/-- The barriers under which a call has succeeded. -/
def World.won (w : World) : Set BranchBarrier := {b | Succeeded w.history b}

/-- Kept while a record develops. -/
structure Lasting (P : Set BranchBarrier → Transaction → Prop) : Prop where
  mono : ∀ {won won' : Set BranchBarrier} {tx}, won ⊆ won' → P won tx → P won' tx
  develops : ∀ {won : Set BranchBarrier} {tx tx'}, Develops won tx tx' → P won tx → P won tx'

/-- Every stored record has the property. -/
def World.All (P : Set BranchBarrier → Transaction → Prop) (w : World) : Prop :=
  ∀ (gid : String) (tx : Transaction), w.txs[gid]? = some tx → P w.won tx

section Steps

variable {P : Set BranchBarrier → Transaction → Prop} {C : BranchCall → Prop}
  {I : Transaction → Prop} {R : String → Branch → Prop} {σ : Trail} {w : World} {o : Effect}
  {i : Nat}

theorem won_exec (i : Nat) (o : Effect) (c : Outcome) (w : World) :
    w.won ⊆ (InMemory.exec i o c w).2.won := fun _ hb => succeeded_exec hb

theorem won_ended {c : Outcome} {call : BranchCall} (hok : c.ok = true) :
    call.barrier ∈ (InMemory.exec i (.invokeEnd call) c w).2.won := by
  refine succeeded_cons.mpr (Or.inl ⟨call, ?_, rfl⟩)
  rw [hok]
  rfl

theorem develops_bump {won : Set BranchBarrier} (now : Nat) (tx : Transaction) :
    Develops won tx (bumpTransactionRevision now tx) :=
  ⟨rfl, rfl, rfl, rfl, List.forall₂_same.mpr fun b _ => .refl b⟩

/-! ### Changes in place -/

theorem appendWorkflowProgress_same {now : Nat} {s s' : Transaction}
    {progress : WorkflowProgress} (h : appendWorkflowProgress now s progress = .ok s') :
    s'.metadata = s.metadata ∧ s'.branches = s.branches := by
  rw [appendWorkflowProgress] at h
  obtain ⟨_, -, h⟩ := bind_eq_ok h
  obtain ⟨_, -, h⟩ := bind_eq_ok h
  obtain ⟨_, -, h⟩ := bind_eq_ok h
  split at h
  · obtain ⟨_, -, h⟩ := bind_eq_ok h
    cases h
    exact ⟨rfl, rfl⟩
  · obtain ⟨_, -, h⟩ := bind_eq_ok h
    obtain ⟨_, -, h⟩ := bind_eq_ok h
    obtain ⟨_, -, h⟩ := bind_eq_ok h
    cases h
    exact ⟨rfl, rfl⟩

theorem applyWorkflowCompletion_callback {now : Nat} {s s' : Transaction}
    {status : TransactionStatus} {reason result : Option String}
    (h : applyWorkflowCompletion now s status reason result = .ok s') :
    s'.metadata["dtm.query_prepared"]? = s.metadata["dtm.query_prepared"]? := by
  rw [applyWorkflowCompletion] at h
  obtain ⟨_, -, h⟩ := bind_eq_ok h
  obtain ⟨_, -, h⟩ := bind_eq_ok h
  obtain ⟨_, -, h⟩ := bind_eq_ok h
  obtain ⟨_, -, h⟩ := bind_eq_ok h
  split at h
  · obtain ⟨_, -, h⟩ := bind_eq_ok h
    cases h
    rfl
  · obtain ⟨_, -, h⟩ := bind_eq_ok h
    cases h
    exact (getElem?_putOrRemove (by decide)).trans (getElem?_putOrRemove (by decide))

theorem deferWorkflowRecovery_callback {now : Nat} {s s' : Transaction}
    {delay : WorkflowRecoveryDelay} (h : deferWorkflowRecovery now s delay = .ok s') :
    s'.metadata["dtm.query_prepared"]? = s.metadata["dtm.query_prepared"]? := by
  rw [deferWorkflowRecovery] at h
  obtain ⟨_, -, h⟩ := bind_eq_ok h
  obtain ⟨_, -, h⟩ := bind_eq_ok h
  obtain ⟨_, -, h⟩ := bind_eq_ok h
  cases h
  simp [bumpTransactionRevision, Std.ExtTreeMap.getElem?_insert]

theorem Amended.develops {won : Set BranchBarrier} {s s' : Transaction} (h : Amended s s')
    (hcallback : s'.metadata["dtm.query_prepared"]? = s.metadata["dtm.query_prepared"]?)
    (hbranches : s'.branches = s.branches) : Develops won s s' := by
  refine ⟨h.gid, h.kind, h.options, hcallback, ?_⟩
  rw [hbranches]
  exact List.forall₂_same.mpr fun b _ => .refl b

/-- **What a store changes in place has developed**, apart from a registration. -/
theorem Amends.develops {won : Set BranchBarrier} {now : Nat} {g : String} {s s' : Transaction}
    (h : Amends now g s s' o) (hr : ∀ gid branch, o ≠ .registerBranch gid branch) :
    Develops won s s' := by
  cases o with
  | registerBranch gid branch => exact absurd rfl (hr gid branch)
  | recordWorkflowProgress gid progress =>
    obtain ⟨hmetadata, hbranches⟩ := appendWorkflowProgress_same h.2
    rcases h.amended with rfl | ha
    · exact .refl s'
    · exact ha.develops (by rw [hmetadata]) hbranches
  | finishWorkflow gid status reason result =>
    rcases applyWorkflowCompletion_ok h.2 with rfl | ⟨ha, hbranches⟩
    · exact .refl s'
    · exact ha.develops (applyWorkflowCompletion_callback h.2) hbranches
  | deferWorkflowRecovery gid delay =>
    obtain ⟨ha, hbranches⟩ := deferWorkflowRecovery_ok h.2
    exact ha.develops (deferWorkflowRecovery_callback h.2) hbranches
  | _ => exact h.elim

/-! ### The outline -/

/-- **The stored records through one step.** -/
theorem Lasting.exec (hP : Lasting P) (hI : ∀ tx, I tx → P ∅ tx)
    (hR : ∀ {gid branch s s'}, o = .registerBranch gid branch → w.txs[gid]? = some s →
      P w.won s → appendDynamicBranch w.clock s branch = .ok s' → P w.won s')
    (hall : w.All P) (hread : ∀ tx ∈ σ.read, P w.won tx) (hwon : σ.won ⊆ w.won)
    (hp : (developingAnd C I R).pre σ o) (i : Nat) (c : Outcome) :
    (InMemory.exec i o c w).2.All P := by
  intro gid tx' htx'
  have hmono : w.won ⊆ (InMemory.exec i o c w).2.won := won_exec i o c w
  have hd : ∀ tx, o ≠ .deleteTransactionIfUnchanged tx := by
    rintro tx rfl
    exact hp
  rcases txs_step i c w gid hd with h | ⟨tx, ho, -, h⟩ | ⟨tx, ho, -, -, h⟩ |
    ⟨s, s', hs, ha, h⟩
  · exact hP.mono hmono (hall gid tx' (h ▸ htx'))
  · subst ho
    cases h.symm.trans htx'
    obtain ⟨base, hbase, hdev⟩ : σ.From tx := hp
    refine hP.mono hmono (hP.develops ?_ (hread base hbase))
    exact (hdev.mono hwon).trans (develops_bump w.clock tx)
  · subst ho
    cases h.symm.trans htx'
    exact hP.mono (Set.empty_subset _) (hI _ hp)
  · cases h.symm.trans htx'
    refine hP.mono hmono ?_
    by_cases hr : ∃ gid branch, o = .registerBranch gid branch
    · obtain ⟨gid', branch, rfl⟩ := hr
      obtain ⟨rfl, ha⟩ := ha
      exact hR rfl hs (hall _ s hs) ha
    · have hdev : Develops w.won s _ := ha.develops fun gid branch h => hr ⟨gid, branch, h⟩
      exact hP.develops hdev (hall gid s hs)

/-- What an operation has read and won holds in the world that it is in. -/
structure TrailOwn (P : Set BranchBarrier → Transaction → Prop) (σ : Trail) (w : World) : Prop where
  read : ∀ tx ∈ σ.read, P w.won tx
  won : σ.won ⊆ w.won

theorem TrailOwn.start (w : World) : TrailOwn P .start w :=
  ⟨fun _ h => absurd h (Set.notMem_empty _), Set.empty_subset _⟩

theorem TrailOwn.mono {w' : World} (ho : TrailOwn P σ w) (hP : Lasting P) (h : w.won ⊆ w'.won) :
    TrailOwn P σ w' := ⟨fun tx htx => hP.mono h (ho.read tx htx), ho.won.trans h⟩

theorem TrailOwn.exec (hP : Lasting P) (ho : TrailOwn P σ w) (hall : w.All P) (i : Nat)
    (o : Effect) (c : Outcome) :
    TrailOwn P (σ.next o (InMemory.exec i o c w).1) (InMemory.exec i o c w).2 := by
  have ho' : TrailOwn P σ (InMemory.exec i o c w).2 := ho.mono hP (won_exec i o c w)
  cases o with
  | getTransaction gid =>
    simp only [InMemory.exec, InMemory.getTransaction, Trail.next]
    split
    · rename_i tx htx
      refine ⟨fun tx' h => ?_, ho.won⟩
      rcases Set.mem_insert_iff.mp h with rfl | h
      · exact hall gid _ htx
      · exact ho.read tx' h
    · exact ho
  | invokeEnd call =>
    cases hok : c.ok with
    | false =>
      have hnext : σ.next (.invokeEnd call) (InMemory.exec i (.invokeEnd call) c w).1 = σ := by
        simp only [InMemory.exec, hok, Trail.next]
      rw [hnext]
      exact ho'
    | true =>
      have hnext : σ.next (.invokeEnd call) (InMemory.exec i (.invokeEnd call) c w).1 =
          σ.addWon call.barrier := by
        simp only [InMemory.exec, hok, Trail.next]
      rw [hnext]
      exact ⟨ho'.read, Set.insert_subset (won_ended hok) ho'.won⟩
  | _ => exact ho'

end Steps

/-- **A lasting property holds of every stored record.** -/
def lastingOutline {P : Set BranchBarrier → Transaction → Prop} (C : BranchCall → Prop)
    {I : Transaction → Prop} {R : String → Branch → Prop} {allow : Effect → World → Prop}
    (hP : Lasting P) (hI : ∀ tx, I tx → P ∅ tx)
    (hR : ∀ {w : World} {gid branch s s'}, R gid branch → allow (.registerBranch gid branch) w →
      w.txs[gid]? = some s → P w.won s → appendDynamicBranch w.clock s branch = .ok s' →
      P w.won s') :
    Outline (inMemory.restrict allow) (developingAnd C I R) Trail.start where
  inv := fun w => w.Keyed ∧ w.All P
  own := fun _ σ w => TrailOwn P σ w
  sees := fun _ _ _ _ _ => trivial
  inv_step := fun {_ i _ _} c hw ho hp ha =>
    ⟨hw.1.exec i c, hP.exec hI (fun ho' => by subst ho'; exact hR hp ha.2) hw.2 ho.read ho.won hp
      i c⟩
  own_step := fun {_ i _ o} c hw ho _ _ => ho.exec hP hw.2 i o c
  own_other := fun {w i _ o} c {_ _} _ _ _ _ _ hj => hj.mono hP (won_exec i o c w)
  inv_drift := fun hw hd => by
    obtain ⟨now, rfl⟩ := hd
    exact hw
  own_drift := fun _ ho hd => by
    obtain ⟨now, rfl⟩ := hd
    exact ⟨ho.read, ho.won⟩

section Serial

variable {P : Set BranchBarrier → Transaction → Prop} {I : Transaction → Prop}
  {R : String → Branch → Prop} {allow : Effect → World → Prop}

/-- **A lasting property, over operations one after another.** -/
theorem Lasting.serial {dtm : Dtm} {ops : Operation → Prop} {w w' : World} (hP : Lasting P)
    (hI : ∀ tx, I tx → P ∅ tx)
    (hR : ∀ {w : World} {gid branch s s'}, R gid branch → allow (.registerBranch gid branch) w →
      w.txs[gid]? = some s → P w.won s → appendDynamicBranch w.clock s branch = .ok s' →
      P w.won s')
    (hops : ∀ op, ops op → op.Brings I R) (hw : w.Keyed) (hall : w.All P)
    (h : (alone allow).Serial (dtm.Programs ops) w w') : w'.Keyed ∧ w'.All P := by
  have hstart (p) (hp : dtm.Programs ops p) :
      (developingAnd (fun _ => True) I R).Follows p .start (fun _ _ => True) := by
    obtain ⟨op, hop, rfl⟩ := hp
    exact developing_prog (fun _ => trivial) (hops op hop)
  exact (lastingOutline _ hP hI hR).serial (fun _ w _ => .start w) hstart ⟨hw, hall⟩ h

end Serial

end RozeDtm
