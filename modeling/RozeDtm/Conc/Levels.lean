import RozeDtm.Conc.Among
import RozeDtm.Conc.Comes
import RozeDtm.Conc.Outline

/-!
# Programs over a lower level

A step of one signature may itself be a program of steps of another: a call of a store is a
handful of commands sent to a server.  A `Handler` says how, and `Prog.through` is a program
with its steps carried out that way.  The handler may go on in another mode after a step, as
when a program goes on with another store.

A `Refinement` connects a machine below with one above.  Each handled step takes effect at one
of the steps below, its deciding step; the others change nothing that is seen above.
`Related.run` is what follows for runs: whatever programs that go through the handler do
among each other below, the programs themselves can do above.

`Outline.within` is about one level: what an outline shows of a machine, it shows of one that
differs in answers that nobody goes by.
-/

namespace Conc

variable {S U : Sig} {ε J α : Type}

/-- How the steps of `S` are carried out by programs over `U` that may fail with `ε`. -/
structure Handler (S U : Sig) (ε J : Type) where
  run : J → (o : S.Op) → Proc U ε (S.Reply o)
  next : J → (o : S.Op) → S.Reply o → J

/-- Program `p` with its steps carried out by `H`.  A step that fails ends it. -/
def Prog.through (H : Handler S U ε J) : J → Prog S (Except ε α) → Prog U (Except ε α)
  | _, .pure a => .pure a
  | j, .step o k => (H.run j o >>= fun r => ExceptT.mk ((k r).through H (H.next j o r))).run

/-- The programs in `starts`, with their steps carried out by `H` from mode `j` on. -/
def Handler.Programs (H : Handler S U ε J) (j : J) (starts : Prog S (Except ε α) → Prop)
    (q : Prog U (Except ε α)) : Prop :=
  ∃ p, starts p ∧ q = p.through H j

/-- A program that may fail, with its steps carried out by `H`. -/
def Proc.through (H : Handler S U ε J) (j : J) (x : Proc S ε α) : Proc U ε α :=
  ExceptT.mk (x.run.through H j)

/-! ### Disciplines through a handler -/

section Through

variable {T T' : Type} {D : Discipline S T} {E : Discipline U T'} {H : Handler S U ε J}

/-- **A program that keeps to a discipline above keeps to one below**, when what each permitted
step is carried out by does, and it returns what it returns above. -/
theorem Discipline.Follows.through_returns (R : T → J → T' → Prop)
    (hrun : ∀ {t j t'} (o : S.Op), R t j t' → D.pre t o →
      E.Does (H.run j o) t' fun u r => D.sees t o r ∧ R (D.next t o r) (H.next j o r) u)
    {p : Prog S (Except ε α)} {t : T} {j : J} {t' : T'} {Q : T → Except ε α → Prop}
    (h : D.Follows p t Q) (hR : R t j t') :
    E.Does (ExceptT.mk (p.through H j)) t' fun _ a => ∃ t, Q t (.ok a) := by
  induction p generalizing t j t' with
  | pure r =>
    intro a ha
    cases ha
    exact ⟨t, h⟩
  | step o k ih =>
    have hbind : E.Does (H.run j o >>= fun r => ExceptT.mk ((k r).through H (H.next j o r))) t'
        fun _ a => ∃ t, Q t (.ok a) := by
      refine Discipline.does_bind.mpr ((hrun o hR h.1).mono fun u r hr => ?_)
      exact ih r (h.2 r hr.1) hr.2
    exact hbind

theorem Discipline.Follows.through (R : T → J → T' → Prop)
    (hrun : ∀ {t j t'} (o : S.Op), R t j t' → D.pre t o →
      E.Does (H.run j o) t' fun u r => D.sees t o r ∧ R (D.next t o r) (H.next j o r) u)
    {p : Prog S (Except ε α)} {t : T} {j : J} {t' : T'} {Q : T → Except ε α → Prop}
    (h : D.Follows p t Q) (hR : R t j t') : E.Follows (p.through H j) t' fun _ _ => True :=
  (h.through_returns R hrun hR).follows

end Through

section Refinement

variable {W V C D : Type}

/-- What is left of a handled step after its deciding step: it comes back with `r` or fails,
and nothing more is seen of it above. -/
def Settled (N : Machine U V D) (abs : V → W → Prop) (i : Nat) {R : Type} (r : R) :
    Prog U (Except ε R) → Prop
  | .pure x => ∀ a, x = .ok a → a = r
  | .step u k => ∀ v w c, abs v w → N.allow u v →
    abs (N.exec i u c v).2 w ∧ Settled N abs i r (k (N.exec i u c v).1)

/-- A program that carries out the step `o`: one of its steps has the effect that `o` has
above, perhaps after a drift, and the steps before it none.  It may fail before that. -/
def Serves (N : Machine U V D) (M : Machine S W C) (abs : V → W → Prop) (i : Nat) (o : S.Op) :
    Prog U (Except ε (S.Reply o)) → Prop
  | .pure x => ∃ e, x = .error e
  | .step u k => ∀ v w c, abs v w → N.allow u v →
    (abs (N.exec i u c v).2 w ∧ Serves N M abs i o (k (N.exec i u c v).1)) ∨
    ∃ w₁ d, Relation.ReflTransGen M.drift w w₁ ∧ M.allow o w₁ ∧
      abs (N.exec i u c v).2 (M.exec i o d w₁).2 ∧
      Settled N abs i (M.exec i o d w₁).1 (k (N.exec i u c v).1)

/-! ### Rules for handled steps -/

section Rules

variable {N : Machine U V D} {M : Machine S W C} {abs : V → W → Prop} {i : Nat} {o : S.Op}
  {R : Type}

/-- The step `u` is not seen above. -/
def Unseen (N : Machine U V D) (abs : V → W → Prop) (i : Nat) (u : U.Op) : Prop :=
  ∀ v w c, abs v w → N.allow u v → abs (N.exec i u c v).2 w

/-- None of the steps of `x` is seen above, and what it returns satisfies `P`. -/
abbrev Reads (N : Machine U V D) (abs : V → W → Prop) (i : Nat) (x : Proc U ε α) (P : α → Prop) :
    Prop :=
  (Discipline.permitting (fun _ _ => True) (Unseen N abs i)).Does x () fun _ a => P a

/-- What is read before the deciding step. -/
theorem serves_reads_bind {x : Proc U ε α} {P : α → Prop} {f : α → Proc U ε (S.Reply o)}
    (hx : Reads N abs i x P) (hf : ∀ a, P a → Serves N M abs i o (f a).run) :
    Serves N M abs i o (x >>= f).run := by
  have hrun : ∀ p : Prog U (Except ε α),
      (Discipline.permitting (fun _ _ => True) (Unseen N abs i)).Follows p ()
        (fun _ r => ∀ a, r = .ok a → P a) →
      Serves N M abs i o (p.bind (ExceptT.bindCont f)) := by
    intro p
    induction p with
    | pure r =>
      intro hr
      cases r with
      | ok a => exact hf a (hr a rfl)
      | error e => exact ⟨e, rfl⟩
    | step u k ih => exact fun hk v w c hv ha => Or.inl ⟨hk.1 v w c hv ha, ih _ (hk.2 _ trivial)⟩
  exact hrun x.run hx

theorem settled_pure {r : R} : Settled N abs i r (Pure.pure r : Proc U ε R).run :=
  fun _ ha => by cases ha; rfl

theorem settled_throw {e : ε} {r : R} : Settled N abs i r (throw e : Proc U ε R).run :=
  fun _ ha => by cases ha

/-- What is read after the deciding step. -/
theorem settled_of_reads {r : R} {x : Proc U ε R} (hx : Reads N abs i x fun a => a = r) :
    Settled N abs i r x.run := by
  rw [Reads, Discipline.Does] at hx
  generalize x.run = p at hx
  induction p with
  | pure r' => exact hx
  | step u k ih => exact fun v w c hv ha => ⟨hx.1 v w c hv ha, ih _ (hx.2 _ trivial)⟩

/-- A program of which no step is seen above carries out a step that can be answered with what
it returns. -/
theorem serves_of_reads {P : S.Reply o → Prop} {x : Proc U ε (S.Reply o)}
    (hx : Reads N abs i x P) (hfirst : ∀ a, x.run ≠ .pure (.ok a))
    (hM : ∀ {v w u} (r : S.Reply o), abs v w → N.allow u v → P r →
      M.allow o w ∧ ∃ d, M.exec i o d w = (r, w)) : Serves N M abs i o x.run := by
  rw [Reads, Discipline.Does] at hx
  generalize x.run = p at hx hfirst
  induction p with
  | pure r =>
    cases r with
    | ok a => exact absurd rfl (hfirst a)
    | error e => exact ⟨e, rfl⟩
  | step u k ih =>
    intro v w c hv ha
    have habs := hx.1 v w c hv ha
    have hrest := hx.2 (N.exec i u c v).1 trivial
    by_cases hlast : ∃ a, k (N.exec i u c v).1 = .pure (.ok a)
    · -- the last step answers
      obtain ⟨a, hk⟩ := hlast
      rw [hk] at hrest
      obtain ⟨hallow, d, hd⟩ := hM a hv ha (hrest a rfl)
      refine Or.inr ⟨w, d, .refl, hallow, by rw [hd]; exact habs, ?_⟩
      rw [hk, hd]
      exact settled_pure
    · exact Or.inl ⟨habs, ih _ hrest fun a hk => hlast ⟨a, hk⟩⟩

/-- A program whose last step is the deciding one of `o`, where `reply` makes its value the
answer to `o`. -/
def ServesLast (N : Machine U V D) (M : Machine S W C) (abs : V → W → Prop) (i : Nat) (o : S.Op)
    (reply : Except ε R → S.Reply o) : Prog U (Except ε R) → Prop
  | .pure x => ∃ e, x = .error e
  | .step u k => ∀ v w c, abs v w → N.allow u v →
    (abs (N.exec i u c v).2 w ∧ ServesLast N M abs i o reply (k (N.exec i u c v).1)) ∨
    ∃ w₁ d a w', Relation.ReflTransGen M.drift w w₁ ∧ M.allow o w₁ ∧
      M.exec i o d w₁ = (reply (.ok a), w') ∧ abs (N.exec i u c v).2 w' ∧
      (k (N.exec i u c v).1 = .pure (.ok a) ∨ ∃ e, k (N.exec i u c v).1 = .pure (.error e))

variable {reply : Except ε R → S.Reply o}

theorem servesLast_reads_bind {x : Proc U ε α} {P : α → Prop} {f : α → Proc U ε R}
    (hx : Reads N abs i x P) (hf : ∀ a, P a → ServesLast N M abs i o reply (f a).run) :
    ServesLast N M abs i o reply (x >>= f).run := by
  have hrun : ∀ p : Prog U (Except ε α),
      (Discipline.permitting (fun _ _ => True) (Unseen N abs i)).Follows p ()
        (fun _ r => ∀ a, r = .ok a → P a) →
      ServesLast N M abs i o reply (p.bind (ExceptT.bindCont f)) := by
    intro p
    induction p with
    | pure r =>
      intro hr
      cases r with
      | ok a => exact hf a (hr a rfl)
      | error e => exact ⟨e, rfl⟩
    | step u k ih => exact fun hk v w c hv ha => Or.inl ⟨hk.1 v w c hv ha, ih _ (hk.2 _ trivial)⟩
  exact hrun x.run hx

/-- When its caller goes on with what it returns. -/
theorem ServesLast.required {x : Proc U ε R} (h : ServesLast N M abs i o reply x.run) :
    Serves N M abs i o (do let a ← x; return reply (.ok a) : Proc U ε (S.Reply o)).run := by
  have hrun : ∀ p : Prog U (Except ε R), ServesLast N M abs i o reply p →
      Serves N M abs i o
        (p.bind (ExceptT.bindCont fun a => (return reply (.ok a) : Proc U ε (S.Reply o)))) := by
    intro p
    induction p with
    | pure r =>
      rintro ⟨e, rfl⟩
      exact ⟨e, rfl⟩
    | step u k ih =>
      intro hp v w c hv ha
      rcases hp v w c hv ha with ⟨habs, hrest⟩ | ⟨w₁, d, a, w', hd, hallow, hexec, habs, hk⟩
      · exact Or.inl ⟨habs, ih _ hrest⟩
      · refine Or.inr ⟨w₁, d, hd, hallow, by rw [hexec]; exact habs, ?_⟩
        rw [hexec]
        rcases hk with hk | ⟨e, hk⟩ <;> simp only [hk, Prog.pure_bind]
        · exact settled_pure
        · exact settled_throw
  exact hrun x.run h

/-- When its caller keeps the error, if `o` can be answered with any error. -/
theorem ServesLast.kept {x : Proc U ε R} (h : ServesLast N M abs i o reply x.run)
    (hfirst : ∀ e, x.run ≠ .pure (.error e))
    (hrefuse : ∀ {v w u} (e : ε), abs v w → N.allow u v →
      M.allow o w ∧ ∃ d, M.exec i o d w = (reply (.error e), w))
    (hlose : ∀ {w d a w'} (e : ε), M.exec i o d w = (reply (.ok a), w') →
      ∃ d', M.exec i o d' w = (reply (.error e), w')) :
    Serves N M abs i o (x.run.bind fun r => (.pure (.ok (reply r)) : Prog U (Except ε _))) := by
  generalize x.run = p at h hfirst
  induction p with
  | pure r =>
    obtain ⟨e, rfl⟩ := h
    exact absurd rfl (hfirst e)
  | step u k ih =>
    intro v w c hv ha
    rcases h v w c hv ha with ⟨habs, hrest⟩ | ⟨w₁, d, a, w', hd, hallow, hexec, habs, hk⟩
    · by_cases hlast : ∃ e, k (N.exec i u c v).1 = .pure (.error e)
      · -- an error that is known now is the answer
        obtain ⟨e, hk⟩ := hlast
        obtain ⟨hallow, d, hexec⟩ := hrefuse e hv ha
        refine Or.inr ⟨w, d, .refl, hallow, by rw [hexec]; exact habs, ?_⟩
        rw [hexec]
        simp only [hk, Prog.pure_bind]
        exact settled_pure
      · exact Or.inl ⟨habs, ih _ hrest fun e hk => hlast ⟨e, hk⟩⟩
    · rcases hk with hk | ⟨e, hk⟩
      · refine Or.inr ⟨w₁, d, hd, hallow, by rw [hexec]; exact habs, ?_⟩
        rw [hexec]
        simp only [hk, Prog.pure_bind]
        exact settled_pure
      · obtain ⟨d', hexec'⟩ := hlose e hexec
        refine Or.inr ⟨w₁, d', hd, hallow, by rw [hexec']; exact habs, ?_⟩
        rw [hexec']
        simp only [hk, Prog.pure_bind]
        exact settled_pure

/-! ### Steps that may be lost -/

/-- What is asked of a step of a program that carries out `o`: `after` is its answer and the
world after it, `k` what the program goes on with. -/
def Answers (N : Machine U V D) (M : Machine S W C) (abs : V → W → Prop) (i : Nat) (o : S.Op)
    (w : W) {T : Type} (k : T → Proc U ε (S.Reply o)) (after : T × V) : Prop :=
  (abs after.2 w ∧ Serves N M abs i o (k after.1).run) ∨
  ∃ w₁ d, Relation.ReflTransGen M.drift w w₁ ∧ M.allow o w₁ ∧ abs after.2 (M.exec i o d w₁).2 ∧
    Settled N abs i (M.exec i o d w₁).1 (k after.1).run

/-- The same of a step of a program of which the last step is the deciding one. -/
def AnswersLast (N : Machine U V D) (M : Machine S W C) (abs : V → W → Prop) (i : Nat) (o : S.Op)
    (reply : Except ε R → S.Reply o) (w : W) {T : Type} (k : T → Proc U ε R) (after : T × V) :
    Prop :=
  (abs after.2 w ∧ ServesLast N M abs i o reply (k after.1).run) ∨
  ∃ w₁ d a w', Relation.ReflTransGen M.drift w w₁ ∧ M.allow o w₁ ∧
    M.exec i o d w₁ = (reply (.ok a), w') ∧ abs after.2 w' ∧
    ((k after.1).run = .pure (.ok a) ∨ ∃ e, (k after.1).run = .pure (.error e))

/-- The step does what `done` says, or it is answered as `lost` says, with its effect or
without. -/
def Lossy {T : Type} (exec : D → V → T × V) (done : D → V → T × V) (lost : T → Prop) : Prop :=
  ∀ c v, exec c v = done c v ∨
    (lost (exec c v).1 ∧ ((exec c v).2 = v ∨ (exec c v).2 = (done c v).2))

variable {u : U.Op} {done : D → V → U.Reply u × V} {lost : U.Reply u → Prop}

/-- A step with which the program fails when it is lost. -/
theorem serves_lossy {k : U.Reply u → Proc U ε (S.Reply o)}
    (hexec : Lossy (N.exec i u) done lost)
    (hdone : ∀ c v w, abs v w → N.allow u v → Answers N M abs i o w k (done c v))
    (hlost : ∀ r, lost r → ∃ e, (k r).run = .pure (.error e)) :
    Serves N M abs i o (@Proc.perform U ε u >>= k).run := by
  intro v w c hv ha
  change Answers N M abs i o w k (N.exec i u c v)
  rcases hexec c v with he | ⟨hr, he⟩
  · rw [he]
    exact hdone c v w hv ha
  · obtain ⟨e, hk⟩ := hlost _ hr
    rw [Answers, hk]
    rcases he with he | he <;> rw [he]
    · exact Or.inl ⟨hv, e, rfl⟩
    · rcases hdone c v w hv ha with ⟨habs, -⟩ | ⟨w₁, d, hd, hallow, habs, -⟩
      · exact Or.inl ⟨habs, e, rfl⟩
      · exact Or.inr ⟨w₁, d, hd, hallow, habs, settled_throw⟩

theorem servesLast_lossy {k : U.Reply u → Proc U ε R}
    (hexec : Lossy (N.exec i u) done lost)
    (hdone : ∀ c v w, abs v w → N.allow u v → AnswersLast N M abs i o reply w k (done c v))
    (hlost : ∀ r, lost r → ∃ e, (k r).run = .pure (.error e)) :
    ServesLast N M abs i o reply (@Proc.perform U ε u >>= k).run := by
  intro v w c hv ha
  change AnswersLast N M abs i o reply w k (N.exec i u c v)
  rcases hexec c v with he | ⟨hr, he⟩
  · rw [he]
    exact hdone c v w hv ha
  · obtain ⟨e, hk⟩ := hlost _ hr
    rw [AnswersLast, hk]
    rcases he with he | he <;> rw [he]
    · exact Or.inl ⟨hv, e, rfl⟩
    · rcases hdone c v w hv ha with ⟨habs, -⟩ | ⟨w₁, d, a, w', hd, hallow, hM, habs, -⟩
      · exact Or.inl ⟨habs, e, rfl⟩
      · exact Or.inr ⟨w₁, d, a, w', hd, hallow, hM, habs, Or.inr ⟨e, rfl⟩⟩

/-- A program of one step, which is the deciding one. -/
theorem serves_step {k : U.Reply u → S.Reply o}
    (h : ∀ c v w, abs v w → N.allow u v → ∃ w₁ d, Relation.ReflTransGen M.drift w w₁ ∧
      M.allow o w₁ ∧ abs (N.exec i u c v).2 (M.exec i o d w₁).2 ∧
      k (N.exec i u c v).1 = (M.exec i o d w₁).1) :
    Serves N M abs i o (.step u fun r => .pure (.ok (k r)) : Prog U (Except ε (S.Reply o))) := by
  intro v w c hv ha
  obtain ⟨w₁, d, hdrift, hallow, habs, hk⟩ := h c v w hv ha
  refine Or.inr ⟨w₁, d, hdrift, hallow, habs, ?_⟩
  rw [← hk]
  exact settled_pure

/-- The step is the deciding one, after a drift. -/
theorem answers_after {T : Type} {k : T → Proc U ε (S.Reply o)} {after : T × V} {w w₁ w' : W}
    {r : S.Reply o} (d : C) (hdrift : Relation.ReflTransGen M.drift w w₁) (hallow : M.allow o w₁)
    (hexec : M.exec i o d w₁ = (r, w')) (habs : abs after.2 w')
    (hk : Reads N abs i (k after.1) fun a => a = r) : Answers N M abs i o w k after := by
  refine Or.inr ⟨w₁, d, hdrift, hallow, ?_, ?_⟩ <;> rw [hexec]
  · exact habs
  · exact settled_of_reads hk

end Rules

/-- The machine `N` with programs that go through `H` does what the machine `M` can do. -/
structure Refinement (N : Machine U V D) (M : Machine S W C) (H : Handler S U ε J) where
  /-- What a world below is seen as above. -/
  abs : V → W → Prop
  /-- The modes that programs come into. -/
  mode : J → Prop
  mode_next : ∀ {j} (i : Nat) (o : S.Op) (d : C) (w : W), mode j →
    mode (H.next j o (M.exec i o d w).1)
  drift : ∀ {v v' w}, abs v w → N.drift v v' →
    ∃ w', Relation.ReflTransGen M.drift w w' ∧ abs v' w'
  serves : ∀ (i : Nat) {j : J} (o : S.Op), mode j → Serves N M abs i o (H.run j o).run

namespace Refinement

variable {N : Machine U V D} {M : Machine S W C} {H : Handler S U ε J} (R : Refinement N M H)

/-- A program above and what is under way of it below: it is between two of its steps, in one
of them before or after the deciding step, or it has failed. -/
inductive Under (i : Nat) : Prog S (Except ε α) → Prog U (Except ε α) → Prop
  | between {j : J} (p : Prog S (Except ε α)) (hj : R.mode j) : Under i p (p.through H j)
  | serving {o : S.Op} {k : S.Reply o → Prog S (Except ε α)} {x : Prog U (Except ε (S.Reply o))}
      {f : Except ε (S.Reply o) → Prog U (Except ε α)} (h : Serves N M R.abs i o x)
      (hok : ∀ d w, ∃ j, R.mode j ∧
        f (.ok (M.exec i o d w).1) = (k (M.exec i o d w).1).through H j)
      (herror : ∀ e, f (.error e) = .pure (.error e)) : Under i (.step o k) (x.bind f)
  | settled {T : Type} {r : T} {p : Prog S (Except ε α)} {x : Prog U (Except ε T)}
      {f : Except ε T → Prog U (Except ε α)} (h : Settled N R.abs i r x)
      (hok : ∃ j, R.mode j ∧ f (.ok r) = p.through H j)
      (herror : ∀ e, f (.error e) = .pure (.error e)) : Under i p (x.bind f)
  | failed (p : Prog S (Except ε α)) (e : ε) : Under i p (.pure (.error e))

/-- A pool below and a pool above: the worlds go together, and so does each program that is
under way. -/
structure Related (P : Pool U V (Except ε α)) (A : Pool S W (Except ε α)) : Prop where
  abs : R.abs P.world A.world
  length : A.threads.length = P.threads.length
  thread : ∀ (i : Nat) (q : Prog U (Except ε α)), P.threads[i]? = some (some q) →
    ∃ p, A.threads[i]? = some (some p) ∧ R.Under i p q

variable {R} {P Q : Pool U V (Except ε α)} {A : Pool S W (Except ε α)}
  {starts : Prog S (Except ε α) → Prop} {i : Nat} {p : Prog S (Except ε α)}

theorem related_idle {v : V} {w : W} (h : R.abs v w) :
    R.Related (Pool.idle v : Pool U V (Except ε α)) (Pool.idle w) :=
  ⟨h, rfl, fun i q hq => by cases hq⟩

/-- A program that has a step ahead of it is in a handled step, before or after its deciding
step. -/
theorem Under.inStep {u : U.Op} {k : U.Reply u → Prog U (Except ε α)}
    (h : R.Under i p (.step u k)) :
    (∃ (o : S.Op) (ka : S.Reply o → Prog S (Except ε α)) (kx : U.Reply u → _) (f : _),
      p = .step o ka ∧ Serves N M R.abs i o (.step u kx) ∧
      (∀ d w, ∃ j, R.mode j ∧
        f (.ok (M.exec i o d w).1) = (ka (M.exec i o d w).1).through H j) ∧
      (∀ e, f (.error e) = .pure (.error e)) ∧ k = fun r => (kx r).bind f) ∨
    ∃ (T : Type) (r : T) (kx : U.Reply u → Prog U (Except ε T))
      (f : Except ε T → Prog U (Except ε α)), Settled N R.abs i r (.step u kx) ∧
      (∃ j, R.mode j ∧ f (.ok r) = p.through H j) ∧
      (∀ e, f (.error e) = .pure (.error e)) ∧ k = fun r => (kx r).bind f := by
  -- a program between two steps is about to begin the next one
  have hbetween {j : J} {p : Prog S (Except ε α)} (hj : R.mode j)
      (hp : p.through H j = .step u k) :
      ∃ (o : S.Op) (ka : S.Reply o → Prog S (Except ε α)) (kx : U.Reply u → _) (f : _),
        p = .step o ka ∧ Serves N M R.abs i o (.step u kx) ∧
        (∀ d w, ∃ j, R.mode j ∧
          f (.ok (M.exec i o d w).1) = (ka (M.exec i o d w).1).through H j) ∧
        (∀ e, f (.error e) = .pure (.error e)) ∧ k = fun r => (kx r).bind f := by
    cases p with
    | pure a => cases hp
    | step o ka =>
      have hserves := R.serves i o hj
      change (H.run j o).run.bind _ = _ at hp
      generalize (H.run j o).run = x at hp hserves
      cases x with
      | pure r =>
        obtain ⟨e, rfl⟩ := hserves
        cases hp
      | step u' kx =>
        cases hp
        exact ⟨o, ka, kx, _, rfl, hserves, fun d w => ⟨_, R.mode_next i o d w hj, rfl⟩,
          fun _ => rfl, rfl⟩
  generalize hq : Prog.step u k = q at h
  cases h with
  | between p hj => exact Or.inl (hbetween hj hq.symm)
  | @serving o ka x f h hok herror =>
    cases x with
    | pure r =>
      obtain ⟨e, rfl⟩ := h
      rw [Prog.pure_bind, herror] at hq
      cases hq
    | step u' kx =>
      cases hq
      exact Or.inl ⟨o, ka, kx, f, rfl, h, hok, herror, rfl⟩
  | @settled T r p x f h hok herror =>
    cases x with
    | pure r' =>
      cases r' with
      | ok a =>
        cases h a rfl
        obtain ⟨j, hj, hgo⟩ := hok
        rw [Prog.pure_bind, hgo] at hq
        exact Or.inl (hbetween hj hq.symm)
      | error e =>
        rw [Prog.pure_bind, herror] at hq
        cases hq
    | step u' kx =>
      cases hq
      exact Or.inr ⟨T, r, kx, f, h, hok, herror, rfl⟩
  | failed p e => cases hq

/-- **A step below is one above or is not seen there**: it is the deciding step of a step above,
perhaps after a drift, or nothing has happened. -/
theorem Under.exec {v : V} {w : W} {u : U.Op} {k : U.Reply u → Prog U (Except ε α)}
    (h : R.Under i p (.step u k)) (habs : R.abs v w) (ha : N.allow u v) (c : D) :
    (R.abs (N.exec i u c v).2 w ∧ R.Under i p (k (N.exec i u c v).1)) ∨
    ∃ (o : S.Op) (ka : S.Reply o → Prog S (Except ε α)) (w₁ : W) (d : C), p = .step o ka ∧
      Relation.ReflTransGen M.drift w w₁ ∧ M.allow o w₁ ∧
      R.abs (N.exec i u c v).2 (M.exec i o d w₁).2 ∧
      R.Under i (ka (M.exec i o d w₁).1) (k (N.exec i u c v).1) := by
  rcases h.inStep with ⟨o, ka, kx, f, rfl, hserves, hok, herror, rfl⟩ |
    ⟨T, r, kx, f, hsettled, hok, herror, rfl⟩
  · rcases hserves v w c habs ha with ⟨habs', hrest⟩ | ⟨w₁, d, hd, hallow, habs', hrest⟩
    · exact Or.inl ⟨habs', .serving hrest hok herror⟩
    · exact Or.inr ⟨o, ka, w₁, d, rfl, hd, hallow, habs', .settled hrest (hok d w₁) herror⟩
  · obtain ⟨habs', hrest⟩ := hsettled v w c habs ha
    exact Or.inl ⟨habs', .settled hrest hok herror⟩

/-- A program that has nothing more to do below has returned. -/
theorem of_through_eq_pure {j : J} (hj : R.mode j) {a : α}
    (hp : p.through H j = .pure (.ok a)) : p = .pure (.ok a) := by
  cases p with
  | pure r => exact congrArg Prog.pure (Prog.pure.inj hp)
  | step o k =>
    have hserves := R.serves 0 o hj
    change (H.run j o).run.bind _ = _ at hp
    generalize (H.run j o).run = x at hp hserves
    cases x with
    | pure r =>
      obtain ⟨e, rfl⟩ := hserves
      cases hp
    | step u kx => cases hp

/-- What a program returns below, it returns above. -/
theorem Under.returned {a : α} (h : R.Under i p (.pure (.ok a))) : p = .pure (.ok a) := by
  generalize hq : (Prog.pure (.ok a) : Prog U (Except ε α)) = q at h
  cases h with
  | between p hj => exact of_through_eq_pure hj hq.symm
  | @serving o k x f hserves hok herror =>
    cases x with
    | pure r =>
      obtain ⟨e, rfl⟩ := hserves
      rw [Prog.pure_bind, herror] at hq
      cases hq
    | step u kx => cases hq
  | @settled T r p x f hsettled hok herror =>
    cases x with
    | pure r' =>
      cases r' with
      | ok b =>
        cases hsettled b rfl
        obtain ⟨j, hj, hgo⟩ := hok
        rw [Prog.pure_bind, hgo] at hq
        exact of_through_eq_pure hj hq.symm
      | error e =>
        rw [Prog.pure_bind, herror] at hq
        cases hq
    | step u kx => cases hq
  | failed p e => cases hq

/-- A thread in the place of another one of its number. -/
theorem Related.set {v : V} {w : W} {q : Prog U (Except ε α)} (h : R.Related P A)
    (hi : i < P.threads.length) (habs : R.abs v w) (hq : R.Under i p q) :
    R.Related ⟨v, P.threads.set i (some q)⟩ ⟨w, A.threads.set i (some p)⟩ := by
  refine ⟨habs, ?_, fun j q' hj => ?_⟩
  · rw [List.length_set, List.length_set]
    exact h.length
  · by_cases hji : j = i
    · subst hji
      rw [List.getElem?_set_self hi] at hj
      cases hj
      exact ⟨p, List.getElem?_set_self (h.length ▸ hi), hq⟩
    · rw [List.getElem?_set_ne (Ne.symm hji)] at hj ⊢
      exact h.thread j q' hj

/-- The same for pools: only the thread that takes the step moves above, if any does. -/
theorem Related.exec {u : U.Op} {k : U.Reply u → Prog U (Except ε α)} (h : R.Related P A)
    (hi : P.threads[i]? = some (some (.step u k))) (ha : N.allow u P.world) (c : D) :
    R.Related ⟨(N.exec i u c P.world).2, P.threads.set i (some (k (N.exec i u c P.world).1))⟩ A ∨
    ∃ (o : S.Op) (ka : S.Reply o → Prog S (Except ε α)) (w : W) (d : C),
      A.threads[i]? = some (some (.step o ka)) ∧ Relation.ReflTransGen M.drift A.world w ∧
      M.allow o w ∧
      R.Related ⟨(N.exec i u c P.world).2, P.threads.set i (some (k (N.exec i u c P.world).1))⟩
        ⟨(M.exec i o d w).2, A.threads.set i (some (ka (M.exec i o d w).1))⟩ := by
  have hlt : i < P.threads.length := (List.getElem?_eq_some_iff.mp hi).1
  obtain ⟨p, hp, hunder⟩ := h.thread i _ hi
  have hself : A.threads.set i (some p) = A.threads := by
    obtain ⟨hia, hp⟩ := List.getElem?_eq_some_iff.mp hp
    rw [← hp]
    exact List.set_getElem_self hia
  rcases hunder.exec h.abs ha c with ⟨habs, hrest⟩ | ⟨o, ka, w, d, rfl, hd, hallow, habs, hrest⟩
  · have hset := h.set hlt habs hrest
    rw [hself] at hset
    exact Or.inl hset
  · exact Or.inr ⟨o, ka, w, d, hp, hd, hallow, h.set hlt habs hrest⟩

theorem run_drifts {w : W} {ts : List (Option (Prog S (Except ε α)))} {w' : W}
    (h : Relation.ReflTransGen M.drift w w') : M.Run starts ⟨w, ts⟩ ⟨w', ts⟩ := by
  induction h with
  | refl => exact .refl
  | tail _ hd ih => exact ih.tail (.drift hd)

/-- A program is started on both sides. -/
theorem Related.start {j : J} (hj : R.mode j) (h : R.Related P A)
    (p : Prog S (Except ε α)) : R.Related ⟨P.world, P.threads ++ [some (p.through H j)]⟩
      ⟨A.world, A.threads ++ [some p]⟩ := by
  refine ⟨h.abs, ?_, fun i q hq => ?_⟩
  · rw [List.length_append, List.length_append, h.length]
    rfl
  · rcases Nat.lt_trichotomy i P.threads.length with hlt | rfl | hgt
    · rw [List.getElem?_append_left hlt] at hq
      rw [List.getElem?_append_left (h.length ▸ hlt)]
      exact h.thread i q hq
    · rw [List.getElem?_concat_length] at hq
      cases hq
      refine ⟨p, ?_, .between p hj⟩
      rw [← h.length]
      exact List.getElem?_concat_length ..
    · rw [List.getElem?_eq_none] at hq
      · cases hq
      · rw [List.length_append]
        exact hgt

/-- **One move below is at most one move above**, perhaps after a drift. -/
theorem Related.step {j : J} (hj : R.mode j) (h : R.Related P A)
    (hs : N.Step (Handler.Programs H j starts) P Q) :
    ∃ w B, Relation.ReflTransGen M.drift A.world w ∧
      (B = ⟨w, A.threads⟩ ∨ M.Step starts ⟨w, A.threads⟩ B) ∧ R.Related Q B := by
  cases hs with
  | @start v ts q hq =>
    obtain ⟨p, hp, rfl⟩ := hq
    exact ⟨A.world, _, .refl, Or.inr (.start p hp), h.start hj p⟩
  | @exec v ts i u k c hi ha =>
    rcases h.exec hi ha c with hrel | ⟨o, ka, w, d, hia, hd, hallow, hrel⟩
    · exact ⟨A.world, A, .refl, Or.inl rfl, hrel⟩
    · exact ⟨w, _, hd, Or.inr (.exec i o ka d hia hallow), hrel⟩
  | @cut v ts i =>
    refine ⟨A.world, A, .refl, Or.inl rfl, h.abs, by rw [List.length_set]; exact h.length,
      fun i' q hq => ?_⟩
    by_cases hi : i' = i
    · subst hi
      rw [List.getElem?_set] at hq
      simp only [if_true] at hq
      split at hq <;> cases hq
    · rw [List.getElem?_set_ne (Ne.symm hi)] at hq
      exact h.thread i' q hq
  | @drift v v' ts hd =>
    obtain ⟨w', hdrift, habs⟩ := R.drift h.abs hd
    exact ⟨w', ⟨w', A.threads⟩, hdrift, Or.inl rfl, habs, h.length, h.thread⟩

/-- **What programs do below, they can do above.** -/
theorem Related.run {j : J} (hj : R.mode j) (h : R.Related P A)
    (hr : N.Run (Handler.Programs H j starts) P Q) : ∃ B, M.Run starts A B ∧ R.Related Q B := by
  induction hr with
  | refl => exact ⟨A, .refl, h⟩
  | tail _ hs ih =>
    obtain ⟨B, hrun, hrel⟩ := ih
    obtain ⟨w, C, hdrift, hmove, hrel'⟩ := hrel.step hj hs
    refine ⟨C, hrun.trans ((run_drifts hdrift).trans ?_), hrel'⟩
    rcases hmove with rfl | hmove
    · exact .refl
    · exact .single hmove

theorem Related.of_reaches {j : J} {v : V} {w : W} (hj : R.mode j) (h : R.abs v w)
    (hr : N.Reaches (Handler.Programs H j starts) v P) :
    ∃ A, M.Reaches starts w A ∧ R.Related P A :=
  (related_idle h).run hj hr

/-- What a program has returned below, it has returned above. -/
theorem Related.returned {a : α} (h : R.Related P A)
    (ha : P.threads[i]? = some (some (.pure (.ok a)))) :
    A.threads[i]? = some (some (.pure (.ok a))) := by
  obtain ⟨p, hp, hunder⟩ := h.thread i _ ha
  rw [hp, hunder.returned]

end Refinement

end Refinement

section Threads

variable {W C : Type} {M : Machine S W C} {starts : Prog S α → Prop} {P Q : Pool S W α} {i : Nat}

/-- What a move makes of a thread: it is cut off, it is as before, or it has taken its step. -/
theorem Machine.Step.onward (hs : M.Step starts P Q) {x : Option (Prog S α)}
    (hx : P.threads[i]? = some x) :
    Q.threads[i]? = some none ∨ Q.threads[i]? = some x ∨
    ∃ o k c, x = some (.step o k) ∧ M.allow o P.world ∧ Q.world = (M.exec i o c P.world).2 ∧
      Q.threads[i]? = some (some (k (M.exec i o c P.world).1)) := by
  have hlt : i < P.threads.length := (List.getElem?_eq_some_iff.mp hx).1
  cases hs with
  | start p hp =>
    rw [List.getElem?_append_left hlt]
    exact Or.inr (Or.inl hx)
  | exec j o k c hj ha =>
    by_cases hij : i = j
    · subst hij
      rw [hj] at hx
      cases hx
      exact Or.inr (Or.inr ⟨o, k, c, rfl, ha, rfl, List.getElem?_set_self hlt⟩)
    · rw [List.getElem?_set_ne (Ne.symm hij)]
      exact Or.inr (Or.inl hx)
  | cut j =>
    by_cases hij : i = j
    · subst hij
      exact Or.inl (List.getElem?_set_self hlt)
    · rw [List.getElem?_set_ne (Ne.symm hij)]
      exact Or.inr (Or.inl hx)
  | drift hd => exact Or.inr (Or.inl hx)

/-- **What becomes of one thread**: it is cut off, or what is left of it keeps to a discipline
whose expectations the invariant of the pool meets. -/
theorem Outline.Good.thread {T U : Type} {D : Discipline S T} {t₀ : T} {O : Outline M D t₀}
    {E : Discipline S U}
    (hsees : ∀ {w o u} (c : C), O.inv w → E.pre u o → M.allow o w → E.sees u o (M.exec i o c w).1)
    (hstart : ∀ p, starts p → D.Follows p t₀ fun _ _ => True) (hP : O.Good P) {p : Prog S α}
    (hi : P.threads[i]? = some (some p)) {u : U} {φ : U → α → Prop} (hp : E.Follows p u φ)
    (hr : M.Run starts P Q) :
    Q.threads[i]? = some none ∨ ∃ q u', Q.threads[i]? = some (some q) ∧ E.Follows q u' φ := by
  induction hr with
  | refl => exact Or.inr ⟨p, u, hi, hp⟩
  | @tail Q R hr hs ih =>
    rcases ih with hcut | ⟨q, u', hq, hfollows⟩
    · rcases hs.onward hcut with h | h | ⟨o, k, c, hx, -⟩
      · exact Or.inl h
      · exact Or.inl h
      · cases hx
    · rcases hs.onward hq with h | h | ⟨o, k, c, hx, hallow, -, h⟩
      · exact Or.inl h
      · exact Or.inr ⟨q, u', h, hfollows⟩
      · cases hx
        have hinv := (hP.run hstart hr).1
        exact Or.inr ⟨_, _, h, hfollows.2 _ (hsees c hinv hfollows.1 hallow)⟩

/-- The next step of a program that is alone in its pool. -/
theorem Machine.Step.alone (M : Machine S W C) {w : W} (o : S.Op) (k : S.Reply o → Prog S α)
    (c : C) (ha : M.allow o w) :
    M.Step starts ⟨w, [some (.step o k)]⟩
      ⟨(M.exec 0 o c w).2, [some (k (M.exec 0 o c w).1)]⟩ :=
  .exec 0 o k c rfl ha

/-- What comes of a program that takes steps alone, as the outcomes in a list say. -/
def Machine.advance? (M : Machine S W C) [∀ o w, Decidable (M.allow o w)] (i : Nat) :
    Prog S α → W → List C → Option (Prog S α × W)
  | p, w, [] => some (p, w)
  | .pure _, _, _ :: _ => none
  | .step o k, w, c :: cs =>
    if M.allow o w then advance? M i (k (M.exec i o c w).1) (M.exec i o c w).2 cs else none

theorem Machine.comes_of_advance? [∀ o w, Decidable (M.allow o w)] {p q : Prog S α} {w w' : W}
    {cs : List C} (h : M.advance? i p w cs = some (q, w')) : M.Comes i p w q w' := by
  induction cs generalizing p w with
  | nil =>
    cases p <;> cases h <;> exact .refl _ _
  | cons c cs ih =>
    cases p with
    | pure a => cases h
    | step o k =>
      rw [Machine.advance?] at h
      split at h
      · exact .step c ‹_› (ih h)
      · cases h

/-- The next step of a program. -/
def Prog.next? : Prog S α → Option S.Op
  | .pure _ => none
  | .step o _ => some o

theorem Prog.next?_eq_some {p : Prog S α} {o : S.Op} (h : p.next? = some o) :
    ∃ k, p = .step o k := by
  cases p with
  | pure a => cases h
  | step o' k =>
    cases h
    exact ⟨k, rfl⟩

/-- **A program of one step that has returned has taken it**, at some moment of the run. -/
theorem Machine.Run.taken (hr : M.Run starts P Q) {o : S.Op} {k : S.Reply o → Prog S α}
    (hi : P.threads[i]? = some (some (.step o k))) (hk : ∀ r, ∃ b, k r = .pure b) {a : α}
    (ha : Q.threads[i]? = some (some (.pure a))) :
    ∃ P' Q' c, M.Run starts P P' ∧ P'.AboutTo i o ∧ M.allow o P'.world ∧ M.Step starts P' Q' ∧
      Q'.world = (M.exec i o c P'.world).2 ∧ k (M.exec i o c P'.world).1 = .pure a ∧
      M.Run starts Q' Q := by
  suffices hthread : Q.threads[i]? = some none ∨ Q.threads[i]? = some (some (.step o k)) ∨
      ∃ P' Q' c, M.Run starts P P' ∧ P'.AboutTo i o ∧ M.allow o P'.world ∧
        M.Step starts P' Q' ∧ Q'.world = (M.exec i o c P'.world).2 ∧
        Q.threads[i]? = some (some (k (M.exec i o c P'.world).1)) ∧ M.Run starts Q' Q by
    rw [ha] at hthread
    rcases hthread with h | h | ⟨P', Q', c, hP', habout, hallow, hstep, hworld, h, hQ'⟩
    · cases h
    · cases h
    · have hgo := Option.some.inj (Option.some.inj h)
      exact ⟨P', Q', c, hP', habout, hallow, hstep, hworld, hgo.symm, hQ'⟩
  clear ha a
  induction hr with
  | refl => exact Or.inr (Or.inl hi)
  | @tail Q R hr hs ih =>
    rcases ih with h | h | ⟨P', Q', c, hP', habout, hallow, hstep, hworld, h, hQ'⟩
    · rcases hs.onward h with h' | h' | ⟨o', k', c, hx, -⟩
      · exact Or.inl h'
      · exact Or.inl h'
      · cases hx
    · rcases hs.onward h with h' | h' | ⟨o', k', c, hx, hallow, hworld, h'⟩
      · exact Or.inl h'
      · exact Or.inr (Or.inl h')
      · cases hx
        exact Or.inr (Or.inr ⟨Q, R, c, hr, ⟨k, h⟩, hallow, hs, hworld, h', .refl⟩)
    · rcases hs.onward h with h' | h' | ⟨o', k', c', hx, -⟩
      · exact Or.inl h'
      · exact Or.inr (Or.inr
          ⟨P', Q', c, hP', habout, hallow, hstep, hworld, h', hQ'.tail hs⟩)
      · obtain ⟨b, hb⟩ := hk (M.exec i o c P'.world).1
        rw [hb] at hx
        cases hx

end Threads

namespace Machine.Comes

variable {β W C : Type} {M : Machine S W C} {p q : Prog S β} {i : Nat} {w w' : W}

/-- What is left of a program comes to no step that the whole does not come to. -/
theorem permitted {φ : S.Op → Prop} (hc : M.Comes i p w q w')
    (h : ∀ o, p.Comes (fun _ _ => True) o → φ o) : ∀ o, q.Comes (fun _ _ => True) o → φ o := by
  induction hc with
  | refl => exact h
  | step c ha _ ih => exact ih fun o ho => h o (.later trivial ho)
  | drift hd _ ih => exact ih h

/-- What the steps with `φ` and the drifts keep, a program keeps that comes to no others. -/
theorem keeps {φ : S.Op → Prop} {ψ : W → Prop} (hc : M.Comes i p w q w')
    (h : ∀ o, p.Comes (fun _ _ => True) o → φ o)
    (hstep : ∀ {w o} (c : C), φ o → M.allow o w → ψ w → ψ (M.exec i o c w).2)
    (hdrift : ∀ {w w'}, M.drift w w' → ψ w → ψ w') (hψ : ψ w) : ψ w' := by
  induction hc with
  | refl => exact hψ
  | step c ha _ ih =>
    exact ih (fun o ho => h o (.later trivial ho)) (hstep c (h _ (.here _ _)) ha hψ)
  | drift hd _ ih => exact ih h (hdrift hd hψ)

end Machine.Comes

/-- The step that a program of a good pool is about to take is permitted. -/
theorem Outline.Good.permitted {T W C : Type} {M : Machine S W C} {D : Discipline S T} {t₀ : T}
    {O : Outline M D t₀} {P : Pool S W α} (hP : O.Good P) {i : Nat} {o : S.Op}
    (h : P.AboutTo i o) : O.inv P.world ∧ ∃ t, O.own i t P.world ∧ D.pre t o := by
  obtain ⟨hinv, s, hown, -, hfollows⟩ := hP
  obtain ⟨k, hk⟩ := h
  exact ⟨hinv, s i, hown i, (hfollows i _ hk).1⟩

/-! ### Machines that differ in what is not heard -/

section Unheard

variable {T W C D : Type}

/-- The answer to a step does not matter to the discipline. -/
def Discipline.Unheard (E : Discipline S T) (o : S.Op) : Prop :=
  ∀ t r, E.sees t o r ∧ E.next t o r = t

/-- Machine `N` does what `M` does, but for answers that do not matter and steps that are not
taken. -/
structure Machine.Within (N : Machine S W D) (M : Machine S W C) (E : Discipline S T) : Prop where
  allow : ∀ {o w}, N.allow o w → M.allow o w
  exec : ∀ i o c w, (∃ d, N.exec i o c w = M.exec i o d w) ∨
    (E.Unheard o ∧ ((N.exec i o c w).2 = w ∨ ∃ d, (N.exec i o c w).2 = (M.exec i o d w).2))
  drift : ∀ {w w'}, N.drift w w' → M.drift w w'

variable {N : Machine S W D} {M : Machine S W C} {E : Discipline S T} {t₀ : T}

/-- The same outline for a machine that does no more. -/
def Outline.within (O : Outline M E t₀) (h : N.Within M E) : Outline N E t₀ where
  inv := O.inv
  own := O.own
  sees := fun {w i t o} c hi ho hp ha => by
    rcases h.exec i o c w with ⟨d, he⟩ | ⟨hu, -⟩
    · rw [he]
      exact O.sees d hi ho hp (h.allow ha)
    · exact (hu t _).1
  inv_step := fun {w i t o} c hi ho hp ha => by
    rcases h.exec i o c w with ⟨d, he⟩ | ⟨-, he | ⟨d, he⟩⟩
    · rw [he]
      exact O.inv_step d hi ho hp (h.allow ha)
    · rw [he]
      exact hi
    · rw [he]
      exact O.inv_step d hi ho hp (h.allow ha)
  own_step := fun {w i t o} c hi ho hp ha => by
    rcases h.exec i o c w with ⟨d, he⟩ | ⟨hu, he | ⟨d, he⟩⟩
    · rw [he]
      exact O.own_step d hi ho hp (h.allow ha)
    · rw [he, (hu t _).2]
      exact ho
    · rw [he, (hu t _).2]
      have hown := O.own_step d hi ho hp (h.allow ha)
      rw [(hu t _).2] at hown
      exact hown
  own_other := fun {w i t o} c j u hi ho hp ha hji hj => by
    rcases h.exec i o c w with ⟨d, he⟩ | ⟨-, he | ⟨d, he⟩⟩
    · rw [he]
      exact O.own_other d hi ho hp (h.allow ha) hji hj
    · rw [he]
      exact hj
    · rw [he]
      exact O.own_other d hi ho hp (h.allow ha) hji hj
  inv_drift := fun hi hd => O.inv_drift hi (h.drift hd)
  own_drift := fun hi ho hd => O.own_drift hi ho (h.drift hd)

end Unheard

end Conc
