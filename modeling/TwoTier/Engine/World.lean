import TwoTier.Engine.Call
import TwoTier.Engine.Holding

/-!
A single-threaded scheduler with a virtual clock.

A world holds the heap and the threads on it: tasks, fills and receive loops. `World.runTask`,
`World.runFill` and `World.runLoop` let one thread take one step, which ends at its next wait. The
clock stands still meanwhile; `World.advanceTo` moves it. Any thread that is ready may be the next:
`World.step` takes the one that has waited longest.

A thread holds what its call is about until it ends. What nobody holds any more is given up in the
very step in which its last holder ends (`World.letGo`).
-/

set_option autoImplicit false
set_option relaxedAutoImplicit false

namespace TwoTier

/-- A task: a call that somebody made and whose result may be asked for. -/
structure Task (ρ : Type) where
  /-- The number of its thread. -/
  id : Nat
  /-- What it holds until it ends. -/
  held : List Held
  /-- What it has yet to do. -/
  code : Call ρ
  /-- When it last began to wait, in the order of the scheduler. -/
  since : Nat

/-- The heap and the threads on it. -/
structure World (ρ : Type) where
  /-- What the threads share. -/
  heap : Heap
  /-- The tasks that have not ended. -/
  tasks : List (Task ρ)
  /-- The fills that have not ended. -/
  fills : List Fill
  /-- How tasks have ended, by their number. -/
  conclusions : Dict Nat (Conclusion ρ)
  /-- What fills have ended with, by their number. -/
  outcomes : Dict Nat (Answer String)
  /-- The number of steps taken. -/
  turn : Nat
  /-- What is held for as long as it has a name. -/
  named : List Held
  /-- What the fills of a guard hold. -/
  guarded : List (Nat × List Held)

/-- The name of a thread. -/
inductive Thread where
  /-- A task, by its number. -/
  | task (id : Nat)
  /-- A fill, by its number. -/
  | fill (id : Nat)
  /-- A receive loop, by its number. -/
  | loop (id : Nat)
  deriving DecidableEq, Repr

namespace World

variable {ρ : Type}

/-- A world in which nothing has been made. -/
def initial : World ρ := ⟨.initial, [], [], ∅, ∅, 0, [], []⟩

/-- The moment. -/
def now (w : World ρ) : Nat := w.heap.now

/-- What a call whose wait is over does next; another call stays as it is. -/
def resume {α : Type} (w : World ρ) : Call α → Call α
  | .pause k => k
  | .await i k =>
    match w.outcomes[i]? with
    | some o => k o
    | none => .await i k
  | c => c

/-- Whether the call of a thread can go on. A call with nothing left to do can: its thread has yet
to take the step in which it ends. -/
def ready {α : Type} (w : World ρ) (me : Nat) : Call α → Bool
  | .sleep wake _ => Call.due wake w.now
  | .pop s _ deadline seen _ =>
    seen ≠ some (w.heap.tiers.store s).pushes || Call.due deadline w.now
  | .await i _ => w.outcomes.contains i
  | .acquire m _ =>
    (w.heap.waiting m).head? = some me || me ∉ w.heap.waiting m
  | .loopEnd r deadline _ => (w.heap.tiers.loop r).ended || Call.due deadline w.now
  | _ => true

/-- The world after a thread took a step: the heap and the fills that the step left behind. -/
def absorb {α : Type} (w : World ρ) (me : Nat) (p : Progress α) : World ρ :=
  { w with
    heap := if p.rest.conclusion?.isSome then p.heap.leaveAll me else p.heap
    fills := w.fills ++ p.fills.map fun f ↦ { f with since := w.turn }
    turn := w.turn + 1 }

/-- What a fill holds. -/
def heldBy (w : World ρ) (f : Fill) : List Held :=
  (w.guarded.filter fun g ↦ g.1 = f.guard).flatMap Prod.snd

/-- All that somebody holds: what has a name, and what belongs to the threads that have not
ended. -/
def held (w : World ρ) : List Held :=
  w.named ++ w.tasks.flatMap Task.held ++ w.fills.flatMap w.heldBy

/-- Gives up what nobody holds any more. -/
def release (w : World ρ) : World ρ :=
  { w with heap := { w.heap with tiers := w.heap.tiers.release w.held } }

/-- The world after a thread has ended that held something; one that held nothing leaves nothing to
give up. -/
def letGo (w : World ρ) (held : List Held) : World ρ := if held = [] then w else w.release

/-- The world without a task among those that have not ended. -/
def withoutTask (w : World ρ) (i : Nat) : World ρ :=
  { w with tasks := w.tasks.filter fun t ↦ t.id ≠ i }

/-- The world without a fill among those that have not ended. -/
def withoutFill (w : World ρ) (i : Nat) : World ρ :=
  { w with fills := w.fills.filter fun f ↦ f.id ≠ i }

/-- A task takes a step. Where it ends, it gives up what it held in the same step. -/
def runTask (w : World ρ) (t : Task ρ) : World ρ :=
  let p := (w.resume t.code).exec t.id w.heap []
  let w' := w.absorb t.id p
  match p.rest.conclusion? with
  | some c =>
    { w'.withoutTask t.id with conclusions := w'.conclusions.insert t.id c }.letGo t.held
  | none =>
    { w' with tasks := w'.tasks.map fun u ↦
        if u.id = t.id then { u with code := p.rest, since := w.turn } else u }

/-- A fill takes a step. Where it ends, its record leaves the table of its guard in the same
step. -/
def runFill (w : World ρ) (f : Fill) : World ρ :=
  let p := (w.resume f.code).exec f.id w.heap []
  let w' := w.absorb f.id p
  match p.rest.conclusion? with
  | some c =>
    { w'.withoutFill f.id with
      heap := w'.heap.setGuard f.guard ((w'.heap.guard f.guard).finish f.key)
      outcomes := w'.outcomes.insert f.id c.outcome }.letGo (w'.heldBy f)
  | none =>
    { w' with fills := w'.fills.map fun u ↦
        if u.id = f.id then { u with code := p.rest, since := w.turn } else u }

/-- A receive loop takes a step. -/
def runLoop (w : World ρ) (r : Nat) : World ρ :=
  let tiers := w.heap.tiers.stepLoop r
  { w with
    heap := { w.heap with tiers := tiers.setLoop r { tiers.loop r with since := w.turn } }
    turn := w.turn + 1 }

/-- A thread takes a step; an unknown thread takes none. -/
def run (w : World ρ) : Thread → World ρ
  | .task i =>
    match w.tasks.find? fun t ↦ t.id = i with
    | some t => w.runTask t
    | none => w
  | .fill i =>
    match w.fills.find? fun f ↦ f.id = i with
    | some f => w.runFill f
    | none => w
  | .loop r => w.runLoop r

/-- The threads that can go on, each with the turn since which it has waited. -/
def candidates (w : World ρ) : List (Nat × Thread) :=
  (w.tasks.filterMap fun t ↦
      if w.ready t.id t.code then some (t.since, Thread.task t.id) else none) ++
    (w.fills.filterMap fun f ↦
      if w.ready f.id f.code then some (f.since, Thread.fill f.id) else none) ++
    (w.heap.tiers.loops.keys.filterMap fun r ↦
      if w.heap.tiers.loopReady r then some ((w.heap.tiers.loop r).since, Thread.loop r) else none)

/-- The candidate that has waited longest, `best` being one before them. -/
def longest : Option (Nat × Thread) → List (Nat × Thread) → Option Thread
  | best, [] => best.map Prod.snd
  | none, x :: rest => longest (some x) rest
  | some b, x :: rest => longest (if x.1 < b.1 then some x else some b) rest

/-- The thread that takes the next step, if one can go on. -/
def next? (w : World ρ) : Option Thread := longest none w.candidates

/-- The world after the next step, if a thread can go on. -/
def step (w : World ρ) : Option (World ρ) := w.next?.map w.run

/-- Lets threads take steps, at most `bound` of them, until each waits. -/
def settle : Nat → World ρ → World ρ
  | 0, w => w
  | bound + 1, w =>
    match w.step with
    | some w' => settle bound w'
    | none => w

/-- The earlier of two moments. -/
def earlier (a b : Option Nat) : Option Nat :=
  match a, b with
  | some x, some y => some (min x y)
  | some x, none => some x
  | none, y => y

/-- The next moment for which a thread waits. -/
def nextWake (w : World ρ) : Option Nat :=
  let later (t : Option Nat) : Option Nat := t.filter (w.now < ·)
  (w.tasks.map fun t ↦ later t.code.wake?).foldl earlier
    ((w.fills.map fun f ↦ later f.code.wake?).foldl earlier none)

/-- The world at a later moment. -/
def advanceTo (w : World ρ) (t : Nat) : World ρ := { w with heap := { w.heap with now := t } }

/-- The world with a new task, which holds something until it ends. The answer is its number. -/
def spawn (w : World ρ) (held : List Held) (code : Call ρ) : Nat × World ρ :=
  let i := w.heap.nextThread
  (i, { w with
    heap := { w.heap with nextThread := i + 1 }
    tasks := w.tasks ++ [⟨i, held, code, w.turn⟩]
    turn := w.turn + 1 })

/-- The world without a task, which is cancelled where it waits. -/
def abort (w : World ρ) (i : Nat) : World ρ :=
  { w.withoutTask i with heap := w.heap.leaveAll i }

/-- Whether a task has ended, or was never there. -/
def isDone (w : World ρ) (i : Nat) : Bool := w.tasks.all fun t ↦ t.id ≠ i

/-- How a task has ended, and the world after that was told. -/
def takeConclusion (w : World ρ) (i : Nat) : Option (Conclusion ρ) × World ρ :=
  (w.conclusions[i]?, { w with conclusions := w.conclusions.erase i })

/-- Lets threads take steps until a task has ended, moving the clock to the next moment for which a
thread waits whenever all of them wait; at most `bound` steps and moves. -/
def drive (i : Nat) : Nat → World ρ → World ρ
  | 0, w => w
  | bound + 1, w =>
    if w.isDone i then w
    else
      match w.step with
      | some w' => drive i bound w'
      | none =>
        match w.nextWake with
        | some t => drive i bound (w.advanceTo t)
        | none => w

/-- More steps than any script of calls takes between two of its own. -/
def patience : Nat := 10000000

/-- Makes a call, lets it end, and lets all threads run until each waits. There is no conclusion
where the call waits for ever; it is cancelled then. -/
def perform (w : World ρ) (code : Call ρ) : Option (Conclusion ρ) × World ρ :=
  let (i, w) := w.spawn [] code
  let (conclusion, w) := (drive i patience (w.run (.task i))).takeConclusion i
  (conclusion, settle patience (w.abort i))

end World

end TwoTier
