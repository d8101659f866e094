import RozeDtm.Conc.Among
import RozeDtm.Serial.Rules
import RozeDtm.Session.Awaiting

/-!
# A recovery that no completion comes before

The recovery of a callback Workflow while others may do anything between its steps, except that
the record goes on waiting for its completion.

* `undisturbed_recover`: what the recovery does then, up to the deferral or the completion.
-/

namespace RozeDtm

open Conc

/-- The record of a callback Workflow that waits for its completion. -/
structure WaitingRecord (gid : String) (keeps : Transaction → Prop) (s : Transaction) : Prop where
  gid : s.gid = gid
  prepared : s.status = .prepared
  callback : isCallbackWorkflow s = true
  keeps : keeps s

/-- Such a record is stored, and the clock shows a time that it may show. -/
structure Waits (gid : String) (keeps : Transaction → Prop) (shows : Nat → Prop) (w : World) :
    Prop where
  stored : ∃ s, w.txs[gid]? = some s ∧ WaitingRecord gid keeps s
  clock : shows w.clock

/-- Anything may happen between two steps, as long as the record waits. -/
def undisturbed (gid : String) (keeps : Transaction → Prop) (shows : Nat → Prop)
    (p : Outcome → Prop) : Machine effects World {c : Outcome // p c} :=
  { inMemory.picking p with drift := fun _ w => Waits gid keeps shows w }

section Undisturbed

variable {gid : String} {keeps : Transaction → Prop} {shows : Nat → Prop} {p : Outcome → Prop}
  {i : Nat} {w : World} {s : Transaction} {α : Type} {E : Err → World → Prop} {dtm : Dtm}

theorem WaitingRecord.live (h : WaitingRecord gid keeps s) : s.status.isTerminal = false := by
  rw [h.prepared]
  rfl

theorem WaitingRecord.kind (h : WaitingRecord gid keeps s) : s.kind = .workflow := by
  have hc := h.callback
  simp only [isCallbackWorkflow, Bool.and_eq_true, decide_eq_true_eq] at hc
  exact hc.1.1

theorem WaitingRecord.ensure (h : WaitingRecord gid keeps s) :
    ensureCallbackWorkflow s = .ok () := by
  rw [ensureCallbackWorkflow, h.kind, h.callback]
  rfl

theorem WaitingRecord.ensureStatus (h : WaitingRecord gid keeps s) :
    RozeDtm.ensureStatus s [.prepared] = .ok () := by
  rw [ensureStatus_eq_ok, h.prepared]
  exact List.mem_singleton_self _

theorem WaitingRecord.ensureKind (h : WaitingRecord gid keeps s) :
    RozeDtm.ensureKind s .workflow = .ok () := ensureKind_eq_ok.mpr h.kind

theorem Waits.drifts {w' : World} (hw : Waits gid keeps shows w)
    (hd : (undisturbed gid keeps shows p).Drifts w w') : Waits gid keeps shows w' := by
  induction hd with
  | refl => exact hw
  | tail _ hstep _ => exact hstep

/-- **One step of the recovery.** -/
theorem undisturbed_call {o : Effect} {f : o.Reply → Act α} {Q : α → World → Prop}
    (hw : Waits gid keeps shows w)
    (h : ∀ (w₁ : World) (c : Outcome), Waits gid keeps shows w₁ → p c →
      (undisturbed gid keeps shows p).Runs (fun _ => True) i (f (InMemory.exec i o c w₁).1) Q E
        (InMemory.exec i o c w₁).2) :
    (undisturbed gid keeps shows p).Runs (fun _ => True) i (Act.call o >>= f) Q E w :=
  Machine.runs_bind.mpr (Machine.runs_perform.mpr fun w₁ hd =>
    ⟨trivial, fun _ c => h w₁ c.1 (hw.drifts hd) c.2⟩)

/-- Loading the record. -/
theorem undisturbed_load {f : Transaction → Act α} {Q : α → World → Prop}
    (hw : Waits gid keeps shows w)
    (h : ∀ w₁ s, Waits gid keeps shows w₁ → WaitingRecord gid keeps s →
      (undisturbed gid keeps shows p).Runs (fun _ => True) i (f s) Q E w₁) :
    (undisturbed gid keeps shows p).Runs (fun _ => True) i (loadTransaction gid >>= f) Q E w := by
  refine Machine.runs_bind.mpr (undisturbed_call hw fun w₁ c hw₁ _ => ?_)
  obtain ⟨s, hs, hrecord⟩ := hw₁.stored
  rw [show (InMemory.exec i (.getTransaction gid) c w₁).1 = some s from hs]
  exact h w₁ s hw₁ hrecord

/-- What the recovery does with the answer of the callback. -/
def Dtm.answerWith (dtm : Dtm) (gid : String) (latest : Transaction) (attemptedAtMillis : Nat) :
    Except Err WorkflowCallbackResult → Act Transaction
  | .ok (.failed reason) =>
    finishOrTerminal gid (reason.or (some "workflow callback reported failure"))
  | .ok .ongoing => dtm.deferCallbackWorkflow latest attemptedAtMillis false "ongoing"
  | .ok .completed =>
    dtm.deferCallbackWorkflow latest attemptedAtMillis true "completed_without_terminal"
  | .error _ => dtm.deferCallbackWorkflow latest attemptedAtMillis true "transport_error"

/-- **What the recovery comes to**: a deferral when there is no callback to ask, and else the
answer. -/
theorem undisturbed_recover {Q : Transaction → World → Prop} (hw : Waits gid keeps shows w)
    (hinvalid : ∀ w₁ s attempted e, Waits gid keeps shows w₁ → WaitingRecord gid keeps s →
      shows attempted → workflowCallbackRequest dtm.libs s = .error e →
      (undisturbed gid keeps shows p).Runs (fun _ => True) i
        (dtm.deferCallbackWorkflow s attempted true "invalid_callback") Q E w₁)
    (hanswer : ∀ w₁ latest attempted c, Waits gid keeps shows w₁ →
      WaitingRecord gid keeps latest → shows attempted → p c →
      (undisturbed gid keeps shows p).Runs (fun _ => True) i
        (dtm.answerWith gid latest attempted c.callback) Q E w₁) :
    (undisturbed gid keeps shows p).Runs (fun _ => True) i (dtm.recoverCallbackWorkflow gid) Q E
      w := by
  unfold Dtm.recoverCallbackWorkflow transactionOfKind
  refine Machine.runs_bind.mpr (undisturbed_load hw fun w₁ s hw₁ hs => ?_)
  rw [Machine.runs_bind, hs.ensureKind, runs_ofExcept]
  show (undisturbed gid keeps shows p).Runs (fun _ => True) i _ Q E w₁
  rw [if_neg (by rw [hs.live]; decide), Machine.runs_bind, runs_ofExcept, hs.ensure]
  dsimp only
  rw [Machine.runs_bind, runs_ofExcept, hs.ensureStatus]
  refine undisturbed_call hw₁ fun w₂ c hw₂ _ => ?_
  have hclock : shows w₂.clock := hw₂.clock
  cases hcallback : workflowCallbackRequest dtm.libs s with
  | error e => exact hinvalid w₂ s w₂.clock e hw₂ hs hclock hcallback
  | ok callback =>
    refine undisturbed_call hw₂ fun w₃ c hw₃ hc => ?_
    refine undisturbed_load hw₃ fun w₄ latest hw₄ hlatest => ?_
    rw [if_neg (by rw [hlatest.live]; decide), Machine.runs_bind, runs_ofExcept, hlatest.ensure]
    dsimp only
    rw [Machine.runs_bind, runs_ofExcept, hlatest.ensureStatus]
    have hend := hanswer w₄ latest w₂.clock c hw₄ hlatest hclock hc
    unfold Dtm.answerWith at hend
    exact hend

end Undisturbed

end RozeDtm
