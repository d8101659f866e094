import Mathlib.Logic.Function.Basic
import RozeDtm.Codec.Digits
import RozeDtm.Conc.Pool

/-!
# Generated gids

`generate_gid` reads the clock and then counts itself in a static counter of the process.  These
are two atomic steps: between them any number of other calls may read the clock or count
themselves.
-/

namespace RozeDtm

open Conc Codec

/-- `SystemTime::now` and `SEQUENCE.fetch_add`. -/
inductive GidStep
  | now
  | fetchAdd
  deriving DecidableEq

/-- The clock answers with the milliseconds since 1970, or that it stands before them. -/
def GidStep.Reply : GidStep → Type
  | .now => Option Nat
  | .fetchAdd => Nat

def gidSteps : Sig := ⟨GidStep, GidStep.Reply⟩

/-- `duration_since(UNIX_EPOCH).map_or(0, |duration| duration.as_millis() as u64)`. -/
def gidMillis (sinceEpoch : Option Nat) : Nat :=
  sinceEpoch.elim 0 fun millis => millis % 2 ^ 64

/-- `{millis:x}{sequence:08x}`. -/
def gidText (millis sequence : Nat) : String :=
  String.ofList (Digits.padded 16 0 millis ++ Digits.padded 16 8 sequence)

/-- `generate_gid`. -/
def generateGid : Prog gidSteps String := do
  let sinceEpoch ← Prog.perform (S := gidSteps) .now
  let millis := gidMillis sinceEpoch
  let sequence ← Prog.perform (S := gidSteps) .fetchAdd
  return gidText millis sequence

/-- A process: its `SEQUENCE` and, for the record, what each call has read from the clock and the
calls in the order in which they counted themselves. -/
structure GidProcess where
  sequence : Nat
  readings : Nat → Nat
  counted : List Nat

/-- A process that has just started. -/
def GidProcess.start : GidProcess := ⟨0, fun _ => 0, []⟩

/-- What the steps of call `i` do to the process. -/
def GidProcess.exec (i : Nat) :
    (o : GidStep) → Option Nat → GidProcess → o.Reply × GidProcess
  | .now, sinceEpoch, w =>
    (sinceEpoch, { w with readings := Function.update w.readings i (gidMillis sinceEpoch) })
  | .fetchAdd, _, w =>
    (w.sequence, { w with
      sequence := (w.sequence + 1) % 2 ^ 64
      counted := w.counted ++ [i] })

/-- The calls of one process; the clock may answer anything. -/
def gidMachine : Machine gidSteps GidProcess (Option Nat) where
  exec := GidProcess.exec
  drift := fun _ _ => False
  allow := fun _ _ => True

end RozeDtm
