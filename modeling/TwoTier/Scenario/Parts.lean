import TwoTier.Local.Entry
import TwoTier.Sketch
import TwoTier.Stats.Snapshot

/-!
Scenarios on the parts of a tier alone: an entry, a pair of counters, a sketch.

Each scenario is a list of steps, and each step ends with a reading of the part.
-/

set_option autoImplicit false
set_option relaxedAutoImplicit false

namespace TwoTier.Scenario

/-! ### An entry -/

/-- A step on an entry. -/
inductive EntryStep where
  /-- Lets time pass. -/
  | advance (span : Nat)
  /-- Reads the entry. -/
  | touch
  /-- Sets the number of its reads. -/
  | setFrequency (n : Nat)
  /-- Goes on with a copy of the entry. -/
  | copy
  deriving DecidableEq, Repr

/-- What is read off an entry. -/
structure EntryReading where
  /-- The entry. -/
  entry : Entry
  /-- Whether it has expired. -/
  expired : Bool
  /-- Whether it has expired at the moment asked for. -/
  expiredAtProbe : Bool
  /-- The time left, where it ever expires. -/
  remaining : Option Nat
  deriving DecidableEq, Repr

/-- Runs steps on an entry that was created at the start of the clock, each with the moment about
which it asks. There is no answer where the clock would leave its range. -/
def entryReadings : List (EntryStep × Nat) → Nat → Entry → Option (List EntryReading)
  | [], _, _ => some []
  | (step, probe) :: rest, now, e =>
    let later := match step with
      | .advance span => now + span
      | _ => now
    let next := match step with
      | .touch => e.touch now
      | .setFrequency n => { e with frequency := n }
      | _ => e
    if later < Clock.limit ∧ probe < Clock.limit then
      (entryReadings rest later next).map fun readings ↦
        ⟨next, next.expired later, next.expired probe, next.expiry.remaining later⟩ :: readings
    else none

/-! ### Counters -/

/-- A step on counters and a saved copy of them. -/
inductive CountersStep where
  /-- Counts an event. -/
  | record (e : Event)
  /-- Sets all counters to zero. -/
  | reset
  /-- Saves a copy. -/
  | save
  /-- Exchanges the counters and the saved copy. -/
  | exchange
  /-- Shows the counters as measurements. -/
  | measure
  deriving DecidableEq, Repr

/-- What is read off counters. -/
inductive CountersReading where
  /-- All of them. -/
  | counters (c : Counters)
  /-- The measurements of a tier with these counters. -/
  | snapshot (s : Snapshot)

/-- The counters and the saved copy after a step. -/
def CountersStep.apply (step : CountersStep) (s : Counters × Counters) : Counters × Counters :=
  match step with
  | record e => (s.1.record e, s.2)
  | reset => (.zero, s.2)
  | save => (s.1, s.1)
  | exchange => (s.2, s.1)
  | measure => s

/-- A function applied a number of times. -/
def repeatedly {α : Type} (f : α → α) : Nat → α → α
  | 0, a => a
  | n + 1, a => repeatedly f n (f a)

/-- Runs steps on counters, each a number of times. -/
def countersReadings : List (CountersStep × Nat) → Counters × Counters → List CountersReading
  | [], _ => []
  | (step, times) :: rest, s =>
    let next := repeatedly step.apply times s
    (if step = .measure then .snapshot (Snapshot.empty.extend next.1) else .counters next.1) ::
      countersReadings rest next

/-! ### A sketch -/

/-- A step on a sketch. -/
inductive SketchStep where
  /-- Counts a key a number of times. -/
  | increment (key : String) (times : Nat)
  /-- Sets all counters to zero. -/
  | clear
  /-- Changes nothing. -/
  | look
  deriving DecidableEq, Repr

/-- The sketch after a step. -/
def SketchStep.apply (step : SketchStep) (s : Sketch) : Sketch :=
  match step with
  | increment key times => repeatedly (Sketch.increment · key) times s
  | clear => s.clear
  | look => s

/-- Runs steps on a sketch. Each reading has the estimates of the keys watched. -/
def sketchReadings (watched : List String) : List SketchStep → Sketch → List (List Nat)
  | [], _ => []
  | step :: rest, s =>
    let next := step.apply s
    watched.map next.estimate :: sketchReadings watched rest next

end TwoTier.Scenario
