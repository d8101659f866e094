import Mathlib.Logic.Relation

/-!
# Programs of atomic steps

A program that talks to a shared world does it one atomic step at a time: a read
of a store, a write, a remote call.  `Prog S α` is such a program as a tree.  A
node asks for one step `o` of the signature `S` and goes on with the answer, a
leaf returns a value.  Between two nodes a program keeps only what its
continuation has bound, so a program that is dropped there loses its local state
and nothing else.

`Proc S ε α` is a program that may also stop with an error `ε`.  Everything a
sequential language does with `?` and early returns is `Proc`'s `do`.
-/

namespace Conc

/-- The atomic steps a program can ask for, and what each is answered with. -/
structure Sig where
  Op : Type
  Reply : Op → Type

/-- A program over the steps of `S`. -/
inductive Prog (S : Sig) (α : Type) : Type
  | pure (a : α) : Prog S α
  | step (o : S.Op) (k : S.Reply o → Prog S α) : Prog S α

namespace Prog

variable {S : Sig} {α β γ : Type}

/-- Run a program, then go on with its value. -/
def bind : Prog S α → (α → Prog S β) → Prog S β
  | .pure a, f => f a
  | .step o k, f => .step o (fun r => (k r).bind f)

instance : Monad (Prog S) where
  pure := .pure
  bind := bind

/-- The program that asks for one step and returns the answer. -/
def perform (o : S.Op) : Prog S (S.Reply o) := .step o .pure

@[simp] theorem pure_eq (a : α) : (Pure.pure a : Prog S α) = .pure a := rfl

@[simp] theorem bind_eq (p : Prog S α) (f : α → Prog S β) : p >>= f = p.bind f := rfl

@[simp] theorem pure_bind (a : α) (f : α → Prog S β) : (Prog.pure a).bind f = f a := rfl

@[simp] theorem step_bind (o : S.Op) (k : S.Reply o → Prog S α) (f : α → Prog S β) :
    (Prog.step o k).bind f = .step o (fun r => (k r).bind f) := rfl

@[simp] theorem perform_bind (o : S.Op) (f : S.Reply o → Prog S β) :
    (perform o).bind f = .step o f := rfl

@[simp] theorem bind_pure (p : Prog S α) : p.bind .pure = p := by
  induction p with
  | pure a => rfl
  | step o k ih => simp only [step_bind, ih]

theorem bind_assoc (p : Prog S α) (f : α → Prog S β) (g : β → Prog S γ) :
    (p.bind f).bind g = p.bind (fun a => (f a).bind g) := by
  induction p with
  | pure a => rfl
  | step o k ih => simp only [step_bind, ih]

end Prog

/-- A program that may stop with an error. -/
abbrev Proc (S : Sig) (ε α : Type) := ExceptT ε (Prog S) α

namespace Proc

variable {S : Sig} {ε : Type}

/-- One step of a program that may stop with an error. -/
def perform (o : S.Op) : Proc S ε (S.Reply o) := ExceptT.lift (Prog.perform o)

end Proc

end Conc
