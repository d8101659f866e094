import RozeDtm.Model.Coordinator.Retention
import RozeDtm.Session.LoadsFirst

/-!
# Reading before writing

`rereads g` is the discipline of a program that writes the transaction `g`, or calls one of its
branches, only after it has read it: the session says whether it has.  `purges` is the one of
a program that deletes only what it was listed.  Every job keeps both, and one that deletes
has read nothing.
-/

namespace RozeDtm

open Conc

/-- What a program does that has read `g`, or has not. -/
def rereads (g : String) : Discipline effects Bool where
  pre := fun σ o => match o with
    | .updateTransaction tx => tx.gid = g → σ = true
    | .invokeBegin c => c.gid = g → σ = true
    | .deleteTransactionIfUnchanged _ => σ = false
    | _ => True
  sees := fun σ o r => match o with
    | .getTransaction gid => (∀ tx, (r : Option Transaction) = some tx → tx.gid = gid) ∧
      (gid = g → σ = true → r.isSome = true)
    | _ => True
  next := fun σ o r => match o with
    | .getTransaction gid => if gid = g then (r : Option Transaction).isSome else σ
    | _ => σ

/-- What a program does that was listed some transactions last. -/
def purges : Discipline effects (List Transaction) where
  pre := fun listed o => match o with
    | .deleteTransactionIfUnchanged tx => tx ∈ listed
    | _ => True
  sees := fun _ o r => match o with
    | .getTransaction gid => ∀ tx, (r : Option Transaction) = some tx → tx.gid = gid
    | _ => True
  next := fun listed o r => match o with
    | .listTransactions => r
    | _ => listed

section Rereads

variable {g gid : String} {σ : Bool}

/-- What stays with one transaction, when that is another one or was read. -/
theorem rereads_of_within {α : Type} {x : Act α} {Q : Unit → α → Prop}
    (h : (within gid).Does x () Q) (hσ : gid = g → σ = true) :
    (rereads g).Does x σ (fun _ _ => True) := by
  have hx := Discipline.Follows.transfer (fun _ σ => gid = g → σ = true) (E := rereads g) (u := σ)
    ?_ ?_ ?_ h hσ
  · exact hx.mono fun _ _ _ _ _ => trivial
  · rintro _ σ o hσ hp
    cases o with
    | updateTransaction tx => exact fun hg => hσ ((hp : tx.gid = gid).symm.trans hg)
    | invokeBegin c => exact fun hg => hσ ((hp : c.gid = gid).symm.trans hg)
    | deleteTransactionIfUnchanged => exact hp.elim
    | _ => trivial
  · rintro _ σ o r - - hr
    cases o with
    | getTransaction gid' => exact hr.1
    | _ => trivial
  · rintro _ σ o r hσ - hr hg
    cases o with
    | getTransaction gid' =>
      simp only [rereads]
      split
      · rename_i hg'
        exact hr.2 hg' (hσ hg)
      · exact hσ hg
    | _ => exact hσ hg

theorem rereads_loadTransaction {Q : Bool → Transaction → Prop}
    (h : ∀ σ tx, (gid = g → σ = true) → tx.gid = gid → Q σ tx) :
    (rereads g).Does (loadTransaction gid) σ Q := by
  simp only [loadTransaction, Discipline.does_bind, does_ofOption]
  refine Discipline.does_perform.mpr ⟨trivial, fun r hr tx htx => ?_⟩
  refine h _ tx (fun hg => ?_) (hr.1 tx htx)
  have hnext : (rereads g).next σ (.getTransaction gid) r = r.isSome := if_pos hg
  rw [hnext, htx]
  rfl

/-- Having loaded a record is having read it. -/
theorem loadsFirst_rereads (g : String) : LoadsFirst (rereads g) where
  load := fun {gid f Q σ} h => by
    rw [Discipline.does_bind, within_loadTransaction] at h
    rw [Discipline.does_bind]
    exact rereads_loadTransaction fun σ tx hσ hg => rereads_of_within (h tx hg) hσ
  ofKind := fun {gid kind f Q σ} h => by
    rw [Discipline.does_bind, within_transactionOfKind] at h
    simp only [transactionOfKind, Discipline.does_bind, does_ofExcept, ensureKind_eq_ok,
      Discipline.does_pure]
    exact rereads_loadTransaction fun σ tx hσ hg _ hk => rereads_of_within (h tx hg hk) hσ
  free := fun {o _} ho => by cases o <;> trivial

theorem rereads_purgeLoop (report : RetentionReport) (txs : List Transaction) :
    (rereads g).Does (Dtm.purgeLoop report txs) false (fun _ _ => True) := by
  induction txs generalizing report with
  | nil => exact Discipline.does_pure.mpr trivial
  | cons tx rest ih =>
    rw [Dtm.purgeLoop, Discipline.does_bind]
    refine Discipline.does_perform.mpr ⟨rfl, fun deleted _ => ?_⟩
    split
    · exact ih _
    · exact ih _

/-- **Every job reads `g` before it writes it or calls one of its branches.** -/
theorem rereads_job (dtm : Dtm) (g : String) (job : Job) :
    (rereads g).Follows (job.prog dtm) false (fun _ _ => True) := by
  have hD := loadsFirst_rereads g
  cases job with
  | operation op => exact (hD.act op).follows
  | purge policy =>
    have hpurge : (rereads g).Does (Dtm.purgeExpiredTransactions policy >>= fun _ =>
        (pure [] : Act (List Transaction))) false (fun _ _ => True) := by
      simp only [Dtm.purgeExpiredTransactions, Discipline.does_bind, does_ofExcept,
        Discipline.does_pure]
      exact fun _ _ => Discipline.does_perform.mpr ⟨trivial, fun _ _ =>
        Discipline.does_perform.mpr ⟨trivial, fun _ _ => rereads_purgeLoop _ _⟩⟩
    exact hpurge.follows

end Rereads

section Purges

variable {listed : List Transaction}

theorem purges_of_within {gid : String} {α : Type} {x : Act α} {Q : Unit → α → Prop}
    (h : (within gid).Does x () Q) : purges.Does x listed (fun _ _ => True) := by
  have hx := Discipline.Follows.transfer (fun _ _ => True) (E := purges) (u := listed)
    ?_ ?_ (fun _ _ _ => trivial) h trivial
  · exact hx.mono fun _ _ _ _ _ => trivial
  · rintro _ listed o - hp
    cases o with
    | deleteTransactionIfUnchanged => exact hp.elim
    | _ => trivial
  · rintro _ listed o r - - hr
    cases o with
    | getTransaction gid' => exact hr
    | _ => trivial

/-- No operation deletes anything. -/
theorem loadsFirst_purges : LoadsFirst purges where
  load := purges_of_within
  ofKind := purges_of_within
  free := fun {o _} ho => by cases o <;> trivial

theorem purges_purgeLoop (report : RetentionReport) {txs : List Transaction}
    (h : ∀ tx ∈ txs, tx ∈ listed) :
    purges.Does (Dtm.purgeLoop report txs) listed (fun _ _ => True) := by
  induction txs generalizing report with
  | nil => exact Discipline.does_pure.mpr trivial
  | cons tx rest ih =>
    have ih (report : RetentionReport) := ih report fun tx' htx' => h tx' (.tail _ htx')
    rw [Dtm.purgeLoop, Discipline.does_bind]
    refine Discipline.does_perform.mpr ⟨h tx (.head _), fun deleted _ => ?_⟩
    split
    · exact ih _
    · exact ih _

/-- **Every job deletes only what it was listed.** -/
theorem purges_job (dtm : Dtm) (job : Job) :
    purges.Follows (job.prog dtm) [] (fun _ _ => True) := by
  cases job with
  | operation op => exact (loadsFirst_purges.act op).follows
  | purge policy =>
    have hpurge : purges.Does (Dtm.purgeExpiredTransactions policy >>= fun _ =>
        (pure [] : Act (List Transaction))) [] (fun _ _ => True) := by
      simp only [Dtm.purgeExpiredTransactions, Discipline.does_bind, does_ofExcept,
        Discipline.does_pure]
      refine fun policy _ => Discipline.does_perform.mpr ⟨trivial, fun now _ =>
        Discipline.does_perform.mpr ⟨trivial, fun txs _ => ?_⟩⟩
      refine purges_purgeLoop _ fun tx htx => ?_
      have hsorted := (List.mem_filter.mp (List.mem_of_mem_take htx)).1
      exact (List.mem_insertionSort _).mp hsorted
    exact hpurge.follows

end Purges

end RozeDtm
