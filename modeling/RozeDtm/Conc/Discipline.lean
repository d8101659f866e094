import RozeDtm.Conc.Prog

/-!
# Disciplines

What a program may do next depends on what it has done and seen so far.  A
`Discipline` writes this down as a state machine of its own: a session `T`, the
steps that are permitted in a session (`pre`), the answers that the world can give
there (`sees`), and the session after a step and its answer (`next`).  `Follows`
says that a program keeps to the discipline whatever the answers are.  It is a
statement about one program with nothing else in the world, and it is proved by
walking through the program once.

`Does` is `Follows` for a program that may stop with an error, with one rule for
each way of putting such programs together, and `Yields` for one that does not.
-/

namespace Conc

variable {S : Sig} {T α β ε : Type}

/-- The steps that are permitted after what a program has done and seen so far. -/
structure Discipline (S : Sig) (T : Type) where
  pre : T → S.Op → Prop
  sees : T → (o : S.Op) → S.Reply o → Prop
  next : T → (o : S.Op) → S.Reply o → T

namespace Discipline

variable (D : Discipline S T)

/-- Program `p`, from session `t`, takes only permitted steps, and ends in a
session and with a value that satisfy `Q`. -/
def Follows : Prog S α → T → (T → α → Prop) → Prop
  | .pure a, t, Q => Q t a
  | .step o k, t, Q => D.pre t o ∧ ∀ r, D.sees t o r → Follows (k r) (D.next t o r) Q

variable {D}

theorem Follows.mono {p : Prog S α} {t : T} {Q R : T → α → Prop} (h : D.Follows p t Q)
    (hQ : ∀ t a, Q t a → R t a) : D.Follows p t R := by
  induction p generalizing t with
  | pure a => exact hQ _ _ h
  | step o k ih => exact ⟨h.1, fun r hr => ih r (h.2 r hr)⟩

theorem follows_bind {p : Prog S α} {f : α → Prog S β} {t : T} {Q : T → β → Prop} :
    D.Follows (p.bind f) t Q ↔ D.Follows p t (fun t a => D.Follows (f a) t Q) := by
  induction p generalizing t with
  | pure a => exact Iff.rfl
  | step o k ih =>
    simp only [Prog.step_bind, Follows]
    exact and_congr_right fun _ => forall₂_congr fun r _ => ih r

/-- A discipline that permits more and goes through the same sessions. -/
structure Le (D E : Discipline S T) : Prop where
  pre : ∀ {t o}, D.pre t o → E.pre t o
  sees : ∀ {t o r}, E.sees t o r → D.sees t o r
  next : E.next = D.next

theorem Follows.le {E : Discipline S T} (hle : Le D E) {p : Prog S α} {t : T}
    {Q : T → α → Prop} (h : D.Follows p t Q) : E.Follows p t Q := by
  induction p generalizing t with
  | pure a => exact h
  | step o k ih =>
    refine ⟨hle.pre h.1, fun r hr => ?_⟩
    rw [hle.next]
    exact ih r (h.2 r (hle.sees hr))

/-- **From one discipline to another**, when sessions that are related permit the same and stay
related. -/
theorem Follows.transfer {U : Type} {E : Discipline S U} (R : T → U → Prop)
    (hpre : ∀ {t u o}, R t u → D.pre t o → E.pre u o)
    (hsees : ∀ {t u o r}, R t u → D.pre t o → E.sees u o r → D.sees t o r)
    (hnext : ∀ {t u o r}, R t u → D.pre t o → E.sees u o r → R (D.next t o r) (E.next u o r))
    {p : Prog S α} {t : T} {u : U} {Q : T → α → Prop} (h : D.Follows p t Q) (hR : R t u) :
    E.Follows p u (fun u a => ∃ t, R t u ∧ Q t a) := by
  induction p generalizing t u with
  | pure a => exact ⟨t, hR, h⟩
  | step o k ih =>
    refine ⟨hpre hR h.1, fun r hr => ?_⟩
    exact ih r (h.2 r (hsees hR h.1 hr)) (hnext hR h.1 hr)

variable (D)

/-- `Follows` for a program that may stop with an error: `Q` is about the value,
nothing is asked of the session it stops in with an error. -/
def Does (x : Proc S ε α) (t : T) (Q : T → α → Prop) : Prop :=
  D.Follows x.run t (fun t r => ∀ a, r = .ok a → Q t a)

variable {D}

theorem Does.mono {x : Proc S ε α} {t : T} {Q R : T → α → Prop} (h : D.Does x t Q)
    (hQ : ∀ t a, Q t a → R t a) : D.Does x t R :=
  Follows.mono h fun t _ hr a ha => hQ t a (hr a ha)

theorem Does.le {E : Discipline S T} (hle : Le D E) {x : Proc S ε α} {t : T}
    {Q : T → α → Prop} (h : D.Does x t Q) : E.Does x t Q := Follows.le hle h

theorem Does.follows {x : Proc S ε α} {t : T} {Q : T → α → Prop} (h : D.Does x t Q) :
    D.Follows x.run t (fun _ _ => True) := Follows.mono h fun _ _ _ => trivial

@[simp] theorem does_pure {a : α} {t : T} {Q : T → α → Prop} :
    D.Does (Pure.pure a : Proc S ε α) t Q ↔ Q t a :=
  ⟨fun h => h a rfl, fun h b hb => by cases hb; exact h⟩

@[simp] theorem does_throw {e : ε} {t : T} {Q : T → α → Prop} :
    D.Does (throw e : Proc S ε α) t Q :=
  fun _ ha => nomatch ha

@[simp] theorem does_bind {x : Proc S ε α} {f : α → Proc S ε β} {t : T} {Q : T → β → Prop} :
    D.Does (x >>= f) t Q ↔ D.Does x t (fun t a => D.Does (f a) t Q) := by
  refine follows_bind.trans ⟨fun h => Follows.mono h ?_, fun h => Follows.mono h ?_⟩
  · rintro t r hr a rfl
    exact hr
  · intro t r hr
    cases r with
    | ok a => exact hr a rfl
    | error e => exact fun _ ha => nomatch ha

@[simp] theorem does_perform {o : S.Op} {t : T} {Q : T → S.Reply o → Prop} :
    D.Does (Proc.perform o : Proc S ε (S.Reply o)) t Q ↔
      D.pre t o ∧ ∀ r, D.sees t o r → Q (D.next t o r) r :=
  and_congr_right fun _ => forall₂_congr fun _ _ =>
    ⟨fun h => h _ rfl, fun h a ha => by cases ha; exact h⟩

/-! ### Programs that do not stop with an error -/

variable (D)

/-- `Does` for a program that does not stop with an error, whatever the answers are. -/
def Yields (x : Proc S ε α) (t : T) (Q : T → α → Prop) : Prop :=
  D.Follows x.run t (fun t r => ∃ a, r = .ok a ∧ Q t a)

variable {D}

theorem Yields.mono {x : Proc S ε α} {t : T} {Q R : T → α → Prop} (h : D.Yields x t Q)
    (hQ : ∀ t a, Q t a → R t a) : D.Yields x t R :=
  Follows.mono h fun t _ ⟨a, ha, hr⟩ => ⟨a, ha, hQ t a hr⟩

@[simp] theorem yields_pure {a : α} {t : T} {Q : T → α → Prop} :
    D.Yields (Pure.pure a : Proc S ε α) t Q ↔ Q t a :=
  ⟨fun ⟨_, hb, h⟩ => by cases hb; exact h, fun h => ⟨a, rfl, h⟩⟩

@[simp] theorem yields_bind {x : Proc S ε α} {f : α → Proc S ε β} {t : T} {Q : T → β → Prop} :
    D.Yields (x >>= f) t Q ↔ D.Yields x t (fun t a => D.Yields (f a) t Q) := by
  refine follows_bind.trans ⟨fun h => Follows.mono h ?_, fun h => Follows.mono h ?_⟩
  · intro t r hr
    cases r with
    | ok a => exact ⟨a, rfl, hr⟩
    | error e =>
      obtain ⟨b, hb, -⟩ := hr
      cases hb
  · rintro t r ⟨a, rfl, hr⟩
    exact hr

@[simp] theorem yields_perform {o : S.Op} {t : T} {Q : T → S.Reply o → Prop} :
    D.Yields (Proc.perform o : Proc S ε (S.Reply o)) t Q ↔
      D.pre t o ∧ ∀ r, D.sees t o r → Q (D.next t o r) r :=
  and_congr_right fun _ => forall₂_congr fun r _ =>
    ⟨fun ⟨_, hb, h⟩ => by cases hb; exact h, fun h => ⟨r, rfl, h⟩⟩

/-! ### Programs whose errors matter -/

variable (D)

/-- `Follows` for a program that may stop with an error, where `Q` is about both. -/
def Ends (x : Proc S ε α) (t : T) (Q : T → Except ε α → Prop) : Prop := D.Follows x.run t Q

variable {D}

theorem Ends.mono {x : Proc S ε α} {t : T} {Q R : T → Except ε α → Prop} (h : D.Ends x t Q)
    (hQ : ∀ t r, Q t r → R t r) : D.Ends x t R := Follows.mono h hQ

@[simp] theorem ends_pure {a : α} {t : T} {Q : T → Except ε α → Prop} :
    D.Ends (Pure.pure a : Proc S ε α) t Q ↔ Q t (.ok a) := Iff.rfl

@[simp] theorem ends_throw {e : ε} {t : T} {Q : T → Except ε α → Prop} :
    D.Ends (throw e : Proc S ε α) t Q ↔ Q t (.error e) := Iff.rfl

theorem ends_bind {x : Proc S ε α} {f : α → Proc S ε β} {t : T} {Q : T → Except ε β → Prop} :
    D.Ends (x >>= f) t Q ↔ D.Ends x t (fun t r =>
      (∀ a, r = .ok a → D.Ends (f a) t Q) ∧ ∀ e, r = .error e → Q t (.error e)) := by
  refine follows_bind.trans ⟨fun h => Follows.mono h ?_, fun h => Follows.mono h ?_⟩
  · intro t r hr
    cases r with
    | ok a => exact ⟨fun b hb => by cases hb; exact hr, fun _ he => (nomatch he)⟩
    | error e => exact ⟨fun _ ha => (nomatch ha), fun e' he => by cases he; exact hr⟩
  · intro t r hr
    cases r with
    | ok a => exact hr.1 a rfl
    | error e => exact hr.2 e rfl

/-- A step that does not fail, and what comes after it. -/
@[simp] theorem ends_perform_bind {o : S.Op} {f : S.Reply o → Proc S ε β} {t : T}
    {Q : T → Except ε β → Prop} :
    D.Ends ((Proc.perform o : Proc S ε (S.Reply o)) >>= f) t Q ↔
      D.pre t o ∧ ∀ r, D.sees t o r → D.Ends (f r) (D.next t o r) Q := Iff.rfl

/-! ### Programs that keep to a discipline from every session -/

variable (D)

/-- Program `x` takes only permitted steps, whatever was done and seen before. -/
def Always (x : Proc S ε α) : Prop := ∀ t, D.Does x t fun _ _ => True

variable {D}

theorem always_pure (a : α) : D.Always (Pure.pure a : Proc S ε α) :=
  fun _ => does_pure.mpr trivial

theorem always_throw (e : ε) : D.Always (throw e : Proc S ε α) := fun _ => does_throw

theorem Always.bind {x : Proc S ε α} {f : α → Proc S ε β} (hx : D.Always x)
    (hf : ∀ a, D.Always (f a)) : D.Always (x >>= f) :=
  fun t => does_bind.mpr ((hx t).mono fun t' a _ => hf a t')

/-! ### Two disciplines at once -/

section Both

variable {U : Type} {E : Discipline S U}

/-- The steps that two disciplines permit. -/
def both (D : Discipline S T) (E : Discipline S U) : Discipline S (T × U) where
  pre := fun t o => D.pre t.1 o ∧ E.pre t.2 o
  sees := fun t o r => D.sees t.1 o r ∧ E.sees t.2 o r
  next := fun t o r => (D.next t.1 o r, E.next t.2 o r)

theorem Follows.both {p : Prog S α} {t : T} {u : U} {Q : T → α → Prop} {R : U → α → Prop}
    (h : D.Follows p t Q) (h' : E.Follows p u R) :
    (D.both E).Follows p (t, u) fun s a => Q s.1 a ∧ R s.2 a := by
  induction p generalizing t u with
  | pure a => exact ⟨h, h'⟩
  | step o k ih => exact ⟨⟨h.1, h'.1⟩, fun r hr => ih r (h.2 r hr.1) (h'.2 r hr.2)⟩

end Both

/-! ### One more thing to keep to -/

/-- The same discipline, with another condition on the steps. -/
def also (D : Discipline S T) (φ : T → S.Op → Prop) : Discipline S T :=
  { D with pre := fun t o => D.pre t o ∧ φ t o }

theorem also_le {φ : T → S.Op → Prop} : Le (D.also φ) D where
  pre := And.left
  sees := id
  next := rfl

/-- The condition is what a discipline with the same sessions asks for. -/
theorem Follows.also {E : Discipline S T} {φ : T → S.Op → Prop} {p : Prog S α} {t : T}
    {Q R : T → α → Prop} (h : D.Follows p t Q) (h' : E.Follows p t R)
    (hpre : ∀ {t o}, E.pre t o → φ t o) (hsees : ∀ {t o r}, D.sees t o r → E.sees t o r)
    (hnext : E.next = D.next) : (D.also φ).Follows p t Q := by
  induction p generalizing t with
  | pure a => exact h
  | step o k ih =>
    refine ⟨⟨h.1, hpre h'.1⟩, fun r hr => ih r (h.2 r hr) ?_⟩
    have hrest := h'.2 r (hsees hr)
    rw [hnext] at hrest
    exact hrest

/-! ### Any answer -/

/-- The discipline that permits every step and knows nothing of the answers. -/
def anything (S : Sig) : Discipline S Unit where
  pre := fun _ _ => True
  sees := fun _ _ _ => True
  next := fun _ _ _ => ()

/-- What a program returns whatever it is answered, it returns under a discipline. -/
theorem Follows.whatever {p : Prog S α} {t : T} {Q : T → α → Prop} {R : Unit → α → Prop}
    (h : D.Follows p t Q) (h' : (anything S).Follows p () R) :
    D.Follows p t fun t a => Q t a ∧ R () a := by
  induction p generalizing t with
  | pure a => exact ⟨h, h'⟩
  | step o k ih => exact ⟨h.1, fun r hr => ih r (h.2 r hr) (h'.2 r trivial)⟩

theorem Does.whatever {x : Proc S ε α} {t : T} {Q : T → α → Prop} {R : Unit → α → Prop}
    (h : D.Does x t Q) (h' : (anything S).Does x () R) :
    D.Does x t fun t a => Q t a ∧ R () a :=
  (Follows.whatever h h').mono fun _ _ h a ha => ⟨h.1 a ha, h.2 a ha⟩

/-- Two programs that go on in the same way from whatever a first one may return are equal. -/
theorem bind_congr {x : Proc S ε α} {f g : α → Proc S ε β}
    (h : (anything S).Does x () fun _ a => f a = g a) : x >>= f = x >>= g := by
  have hrun : ∀ p : Prog S (Except ε α),
      (anything S).Follows p () (fun _ r => ∀ a, r = .ok a → f a = g a) →
      p.bind (ExceptT.bindCont f) = p.bind (ExceptT.bindCont g) := by
    intro p
    induction p with
    | pure r =>
      intro hr
      cases r with
      | ok a => exact hr a rfl
      | error e => rfl
    | step o k ih =>
      intro hk
      exact congrArg (Prog.step o) (funext fun r => ih r (hk.2 r trivial))
  exact hrun x h

end Discipline

end Conc
