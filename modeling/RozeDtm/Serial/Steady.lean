import RozeDtm.Serial.Frame

/-!
# Operations of a coordinator, one after another

An invariant about one transaction that runs alone are to keep is `Steady` when what is done to
the others keeps it.  Then only the operations on that transaction are left to show
(`Keeps`): an operation on another gid keeps it, and a recovery tick does when its move on the
transaction itself does.
-/

namespace RozeDtm

open Conc

/-- What a recovery runs for the record `tx`. -/
inductive Dtm.RecoveryMove (dtm : Dtm) (tx : Transaction) : Act Transaction → Prop
  | expire : dtm.RecoveryMove tx (dtm.expire tx)
  | prepareCallback (hc : isCallbackWorkflow tx = true) :
      dtm.RecoveryMove tx (Dtm.prepareWorkflow tx.gid)
  | callback (hc : isCallbackWorkflow tx = true) :
      dtm.RecoveryMove tx (dtm.recoverCallbackWorkflow tx.gid)
  | confirm (hk : tx.kind = .tcc) : dtm.RecoveryMove tx (dtm.confirmTcc tx.gid)
  | dispatch (hk : tx.kind = .message) : dtm.RecoveryMove tx (dtm.dispatchMessage tx.gid)
  | commit (hk : tx.kind = .xa) : dtm.RecoveryMove tx (dtm.commitXa tx.gid)
  | resume {move : Act Transaction} (hc : ¬ isCallbackWorkflow tx = true)
      (h : dtm.resume tx.gid tx.kind tx.status = some move) : dtm.RecoveryMove tx move

/-- What the recovery tick runs is a recovery move. -/
theorem Dtm.recoveryMove_of_tickMove {dtm : Dtm} {now : Nat} {tx : Transaction}
    {move : Act Transaction} (h : dtm.tickMove now tx = some move) : dtm.RecoveryMove tx move := by
  rw [Dtm.tickMove] at h
  split at h
  · cases h
  split at h
  · cases h
  split at h
  · cases h
    exact .expire
  split at h
  · rename_i hc
    split at h
    · cases h
      exact .prepareCallback hc
    · split at h
      · cases h
        exact .callback hc
      · cases h
    · cases h
  · rename_i hc
    split at h
    · cases h
    · exact .resume hc h

/-- So is what `recover` runs, unless it has nothing to run. -/
theorem Dtm.recoverMove_cases {dtm : Dtm} {tx : Transaction} (hc : ¬ isCallbackWorkflow tx = true) :
    dtm.RecoveryMove tx (dtm.recoverMove tx.gid tx.kind tx.status) ∨
      dtm.recoverMove tx.gid tx.kind tx.status =
        throw s!"transaction {tx.gid} is in non-replayable state {tx.status.debug}" := by
  rw [Dtm.recoverMove.eq_def]
  split
  · rename_i hk _
    exact Or.inl (.confirm hk)
  · rename_i hk _
    exact Or.inl (.dispatch hk)
  · rename_i hk _
    exact Or.inl (.commit hk)
  · cases h : dtm.resume tx.gid tx.kind tx.status with
    | none => exact Or.inr rfl
    | some move => exact Or.inl (.resume hc h)

/-- What the invariant `inv` about `g` owes to the other transactions: nothing.  It shows `φ`. -/
structure Steady (g : String) (φ inv : World → Prop) : Prop where
  keyed : ∀ {w : World}, inv w → w.Keyed
  clock : ∀ {w : World} (now : Nat), inv w → inv (w.setClock now)
  same : ∀ {w w' : World}, inv w → w'.Keyed → SameOf g w w' → inv w'
  shows : ∀ {w : World}, inv w → φ w

/-- An operation keeps the invariant, however it ends, and `φ` all along. -/
def Keeps {α : Type} (allow : Effect → World → Prop) (φ inv : World → Prop) (i : Nat) (x : Act α)
    (w : World) : Prop :=
  (alone allow).Runs φ i x (fun _ => inv) (fun _ => inv) w

/-- The same, with what is known of an error that it stops with. -/
def KeepsOr {α : Type} (allow : Effect → World → Prop) (φ inv : World → Prop) (F : Err → Prop)
    (i : Nat) (x : Act α) (w : World) : Prop :=
  (alone allow).Runs φ i x (fun _ => inv) (fun e w => inv w ∧ F e) w

theorem KeepsOr.keeps {α : Type} {allow : Effect → World → Prop} {φ inv : World → Prop}
    {F : Err → Prop} {i : Nat} {x : Act α} {w : World} (h : KeepsOr allow φ inv F i x w) :
    Keeps allow φ inv i x w := Machine.Runs.mono h (fun _ _ => id) fun _ _ h => h.1

theorem Keeps.or {α : Type} {allow : Effect → World → Prop} {φ inv : World → Prop}
    {F : Err → Prop} {i : Nat} {x : Act α} {w : World} (h : Keeps allow φ inv i x w)
    (hF : ∀ {e w'}, (alone allow).Goes i x.run w (some (.error e)) w' → F e) :
    KeepsOr allow φ inv F i x w := by
  refine (Machine.Ends.goes h).mono fun r w' hr => ?_
  cases r with
  | ok a => exact hr.1
  | error e => exact ⟨hr.1, hF hr.2⟩

namespace Steady

variable {g : String} {allow : Effect → World → Prop} {φ inv : World → Prop} {i : Nat} {w : World}
  {dtm : Dtm} (hs : Steady g φ inv)

include hs

/-- An operation on another transaction. -/
theorem other {α : Type} {gid : String} {x : Act α} {Q : Unit → α → Prop} (hw : inv w)
    (hg : gid ≠ g) (hx : (within gid).Does x () Q) : Keeps allow φ inv i x w := by
  have hframe : (alone allow).Ends φ i x.run (fun _ w' => w'.Keyed ∧ SameOf g w w') w :=
    ends_frame hg (hs.keyed hw) (fun w' h => hs.shows (hs.same hw h.1 h.2)) hx i
  refine hframe.mono fun r w' h => ?_
  cases r <;> exact hs.same hw h.1 h.2

/-- An operation on one gid that gives back one transaction. -/
theorem one {gid : String} {x : Act Transaction} (hw : inv w)
    (hx : (within gid).Does x () (fun _ _ => True)) (h : gid = g → Keeps allow φ inv i x w) :
    Keeps allow φ inv i (Operation.act.one x) w := by
  refine Machine.runs_bind.mpr ?_
  by_cases hg : gid = g
  · exact h hg
  · exact hs.other hw hg hx

/-- `recover`, once it has found that the record need not wait. -/
theorem recoverNowOr {F : Err → Prop} {tx : Transaction} (hw : inv w) (hg : tx.gid = g)
    (hF : F s!"transaction {g} is in non-replayable state {tx.status.debug}")
    (hFc : isCallbackWorkflow tx = true →
      F s!"callback workflow {g} is in non-replayable state {tx.status.debug}")
    (hmove : ∀ {w' : World} {move : Act Transaction}, inv w' → dtm.RecoveryMove tx move →
      KeepsOr allow φ inv F i move w') : KeepsOr allow φ inv F i (dtm.recoverNow g tx) w := by
  subst hg
  refine Machine.runs_bind.mpr (runs_call (fun now => hs.shows (hs.clock now hw)) fun now c _ => ?_)
  have hw' : inv (w.setClock now) := hs.clock now hw
  split
  · exact hmove hw' .expire
  split
  · rename_i hc
    split
    · exact hmove hw' (.prepareCallback hc)
    · exact hmove hw' (.callback hc)
    · exact ⟨hw', hFc hc⟩
  · rename_i hc
    rcases @Dtm.recoverMove_cases dtm tx hc with h | h
    · exact hmove hw' h
    · rw [h]
      exact ⟨hw', hF⟩

/-- **`recover`**, when what it runs for the stored record of `g` keeps the invariant. -/
theorem recoverOr {F : Err → Prop} (hw : inv w)
    (hF : ∀ tx, w.txs[g]? = some tx →
      F s!"transaction {g} is in non-replayable state {tx.status.debug}")
    (hFc : ∀ tx, w.txs[g]? = some tx → isCallbackWorkflow tx = true →
      F s!"callback workflow {g} is in non-replayable state {tx.status.debug}")
    (hFn : w.txs[g]? = none → ∀ e, F e)
    (hmove : ∀ {w' : World} {tx : Transaction} {move : Act Transaction}, inv w' →
      w.txs[g]? = some tx → dtm.RecoveryMove tx move → KeepsOr allow φ inv F i move w') :
    KeepsOr allow φ inv F i (dtm.recover g) w := by
  rw [Dtm.recover_eq]
  refine Machine.runs_bind.mpr (runs_loadTransaction (fun now => hs.shows (hs.clock now hw))
    (fun now tx htx => ?_) fun now e hnone => ⟨hs.clock now hw, hFn hnone e⟩)
  have hw' : inv (w.setClock now) := hs.clock now hw
  have hg : tx.gid = g := hs.keyed hw g tx htx
  have hnow {w' : World} (hw' : inv w') : KeepsOr allow φ inv F i (dtm.recoverNow g tx) w' :=
    hs.recoverNowOr hw' hg (hF tx htx) (hFc tx htx) fun hw h => hmove hw htx h
  split
  · exact hw'
  split
  · refine Machine.runs_bind.mpr (runs_call (fun now' => hs.shows (hs.clock now' hw'))
      fun now' c _ => ?_)
    split
    · exact hs.clock now' hw'
    · exact hnow (hs.clock now' hw')
  · exact hnow hw'

/-- The same without the errors. -/
theorem recover (hw : inv w)
    (hmove : ∀ {w' : World} {tx : Transaction} {move : Act Transaction}, inv w' →
      w.txs[g]? = some tx → dtm.RecoveryMove tx move → Keeps allow φ inv i move w') :
    Keeps allow φ inv i (dtm.recover g) w :=
  KeepsOr.keeps (hs.recoverOr hw (fun _ _ => trivial) (fun _ _ _ => trivial) (fun _ _ => trivial)
    fun hw' htx h => (hmove hw' htx h).or fun _ => trivial)

/-- **The loop of `tick_recover_once`**, with the errors that it stops with. -/
theorem tickLoopOr {F : Err → Prop} {now : Nat} {listed : List Transaction} (hw : inv w)
    (hmove : ∀ {w : World} {tx : Transaction} {move : Act Transaction}, inv w → tx ∈ listed →
      tx.gid = g → dtm.tickMove now tx = some move → KeepsOr allow φ inv F i move w)
    (hF : ∀ {tx : Transaction} {move : Act Transaction} {e w w'}, tx ∈ listed → tx.gid ≠ g →
      dtm.tickMove now tx = some move → (alone allow).Goes i move.run w (some (.error e)) w' → F e) :
    KeepsOr allow φ inv F i (dtm.tickLoop now listed) w := by
  induction listed generalizing w with
  | nil => exact hw
  | cons tx rest ih =>
    have ih {w : World} (hw : inv w) : KeepsOr allow φ inv F i (dtm.tickLoop now rest) w :=
      ih hw (fun hw h => hmove hw (.tail _ h)) fun h => hF (.tail _ h)
    rw [Dtm.tickLoop]
    split
    · exact ih hw
    · rename_i move htx
      have hkeeps : KeepsOr allow φ inv F i move w := by
        by_cases hg : tx.gid = g
        · exact hmove hw (.head _) hg htx
        · exact (hs.other hw hg (within_tickMove htx)).or (hF (.head _) hg htx)
      refine Machine.runs_bind.mpr (Machine.Runs.mono hkeeps (fun _ w' hw' => ?_) fun _ _ => id)
      exact Machine.runs_bind.mpr (Machine.Runs.mono (ih hw') (fun _ _ => id) fun _ _ => id)

/-- **`tick_recover_once`**, when its move on the stored record of `g` keeps the invariant; an
error comes from that move, or from the move on another stored record. -/
theorem tickRecoverOnceOr {F : Err → Prop} (hw : inv w)
    (hmove : ∀ {w' : World} {now : Nat} {tx : Transaction} {move : Act Transaction}, inv w' →
      w.txs[g]? = some tx → dtm.tickMove now tx = some move → KeepsOr allow φ inv F i move w')
    (hF : ∀ {gid : String} {tx : Transaction} {now : Nat} {move : Act Transaction} {e w₁ w₂},
      w.txs[gid]? = some tx → gid ≠ g → dtm.tickMove now tx = some move →
      (alone allow).Goes i move.run w₁ (some (.error e)) w₂ → F e) :
    KeepsOr allow φ inv F i dtm.tickRecoverOnce w := by
  refine Machine.runs_bind.mpr (runs_call (fun now => hs.shows (hs.clock now hw)) fun now c _ => ?_)
  have hw₁ : inv (w.setClock now) := hs.clock now hw
  have hlisted : ∀ {tx : Transaction}, tx ∈ InMemory.listTransactions (w.setClock now) →
      w.txs[tx.gid]? = some tx := fun {tx} htx => by
    -- the list has one record for each gid
    obtain ⟨gid, hgid⟩ : ∃ gid : String, w.txs[gid]? = some tx := InMemory.mem_listTransactions htx
    have hkey := hs.keyed hw gid tx hgid
    rw [hkey]
    exact hgid
  refine Machine.runs_bind.mpr (runs_call (fun now' => hs.shows (hs.clock now' hw₁))
    fun now' c' _ => hs.tickLoopOr (hs.clock now' hw₁) (fun {w' tx move} hw' htx hg h => ?_)
      fun {tx move e w₁ w₂} htx hg h hgoes => ?_)
  · exact hmove hw' (hg ▸ hlisted htx) h
  · exact hF (hlisted htx) hg h hgoes

/-- The same without the errors. -/
theorem tickRecoverOnce (hw : inv w)
    (hmove : ∀ {w' : World} {now : Nat} {tx : Transaction} {move : Act Transaction}, inv w' →
      w.txs[g]? = some tx → dtm.tickMove now tx = some move → Keeps allow φ inv i move w') :
    Keeps allow φ inv i dtm.tickRecoverOnce w :=
  KeepsOr.keeps (hs.tickRecoverOnceOr hw
    (fun hw' htx h => (hmove hw' htx h).or fun _ => trivial) fun _ _ _ _ => trivial)

end Steady

end RozeDtm
