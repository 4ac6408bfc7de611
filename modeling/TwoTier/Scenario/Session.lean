import TwoTier.Engine.World
import TwoTier.Scenario.Holding
import TwoTier.Scenario.Making

/-!
Running a scenario.

A session knows the objects, tasks and subscriptions that have names. A step makes its call, and
time moves only while the step waits; afterwards every task runs until it waits. What a name was the
last to hold is given up at the end of the step that takes the name away (`Session.tidy`).
-/

set_option autoImplicit false
set_option relaxedAutoImplicit false

namespace TwoTier.Scenario

/-- The state of a running scenario. -/
structure Session where
  /-- The heap and the tasks on it. -/
  world : World Answered
  /-- The objects by name. -/
  objects : Dict String Object
  /-- The tasks by name. -/
  tasks : Dict String Nat
  /-- The subscriptions by name, each with its store. -/
  subscriptions : Dict String (Nat × Nat)
  /-- What local tiers take from chance. -/
  chance : Chance
  /-- What answers at the address of a store. -/
  network : Network

namespace Session

/-- A scenario before its first step. -/
def initial (chance : Chance) (network : Network) : Session :=
  ⟨.initial, ∅, ∅, ∅, chance, network⟩

/-- The object of a name. -/
def find (s : Session) (name : String) : Option Object := s.objects[name]?

/-- The session with its tiers changed. -/
def mapTiers (s : Session) (f : Tiers → Tiers) : Session :=
  { s with world := { s.world with heap :=
      { s.world.heap with tiers := f s.world.heap.tiers } } }

/-- The session after every task ran until it waits. -/
def settle (s : Session) : Session := { s with world := s.world.settle World.patience }

/-- What is told of a call that was waited for. One that has not ended was cancelled. -/
def answer : Option (Conclusion Answered) → Answered
  | some (.answer a) => a
  | some .crash => { verdict := .crashed }
  | none => { verdict := .aborted }

/-- Makes a call and waits for its end. -/
def perform (s : Session) (call : Call Answered) : Answered × Session :=
  let (conclusion, world) := s.world.perform call
  (answer conclusion, { s with world := world })

/-- The session with other names for objects. -/
def withObjects (s : Session) (objects : Dict String Object) : Session :=
  { s with
    objects := objects
    world := { s.world with named := objects.values.flatMap Object.held } }

/-- The session with a name given to an object. -/
def name (s : Session) (name : String) (o : Object) : Session :=
  { s with world := { s.world with guarded := o.guards ++ s.world.guarded } }.withObjects
    (s.objects.insert name o)

/-- Gives up what nobody holds any more. -/
def tidy (s : Session) : Session := { s with world := s.world.release }.settle

/-- The call that an action on an object stands for. Every repetition runs to its end, also where
the one before it could not go on. -/
def callOn (s : Session) (o : Object) (a : Action) : Call Answered :=
  match o.call s.find a.operation with
  | some call =>
    Call.times (call.attempt.bind fun x ↦ .done (x.getD { verdict := .crashed })) a.times
  | none => .done .unknown

/-- What an action on an object holds while its call runs. -/
def heldOn (s : Session) (o : Object) (a : Action) : List Held :=
  match a.operation with
  | .startInvalidator store => o.held ++ ((s.find store).map Object.held).getD []
  | _ => o.held

/-- Takes a step on the object of a name, if there is one. -/
def withObject (s : Session) (name : String) (f : Object → Answered × Session) :
    Answered × Session :=
  match s.find name with
  | some o => f o
  | none => (.unknown, s)

/-- Makes a call on an object. -/
def act (s : Session) (a : Action) : Answered × Session :=
  s.withObject a.target fun o ↦ s.perform (s.callOn o a)

/-- Makes an object and gives it a name. -/
def make (s : Session) (name : String) (making : Making) : Answered × Session :=
  let (a, s) := s.perform (making.call s.chance s.network s.find)
  (a, match a.made with
    | some o => s.name name o
    | none => s)

/-- Starts a task that makes a call on an object after a span. -/
def spawn (s : Session) (name : String) (after : Nat) (a : Action) : Answered × Session :=
  s.withObject a.target fun o ↦
    let (id, world) := s.world.spawn (s.heldOn o a)
      ((Call.delay after).bind fun _ ↦ s.callOn o a)
    (.found .nothing, { s with world := world, tasks := s.tasks.insert name id }.settle)

/-- What is said of a task, if there is one of the name. -/
def withTask (s : Session) (name : String) (f : Nat → Answered × Session) : Answered × Session :=
  match s.tasks[name]? with
  | some id => f id
  | none => (.unknown, s)

/-- Cancels a task where it waits. One that has ended stays as it is. -/
def abort (s : Session) (name : String) : Answered × Session :=
  s.withTask name fun id ↦
    (.found .nothing,
      if s.world.isDone id then s else { s with world := (s.world.abort id).release }.settle)

/-- Waits for a task and answers what it has answered. -/
def join (s : Session) (name : String) : Answered × Session :=
  s.withTask name fun id ↦
    let (conclusion, world) := (World.drive id World.patience s.world).takeConclusion id
    (answer conclusion, { s with world := world.abort id, tasks := s.tasks.erase name }.settle)

/-- Ends the subscription of a name. -/
def unsubscribe (s : Session) (name : String) : Session :=
  match s.subscriptions[name]? with
  | some (store, id) =>
    { s with subscriptions := s.subscriptions.erase name }.mapTiers fun t ↦
      t.unsubscribe (.store store) id
  | none => s

/-- Gives up a handle or a subscription. -/
def drop (s : Session) (name : String) : Answered × Session :=
  let existed := s.objects.contains name || s.subscriptions.contains name
  (.found (.truth existed), (s.unsubscribe name).withObjects (s.objects.erase name))

/-- Subscribes to a channel of a store. -/
def subscribe (s : Session) (name store channel : String) : Answered × Session :=
  match (s.find store).bind Object.store? with
  | none => (.unknown, s)
  | some x =>
    match (s.world.heap.tiers.store x.store).subscribe channel with
    | (.ok id, after) =>
      let s := (s.mapTiers fun t ↦ t.setStore x.store after).unsubscribe name
      (.found .nothing, { s with subscriptions := s.subscriptions.insert name (x.store, id) })
    | (.fault f, _) => ({ verdict := .failed f }, s)
    | (.overflow, _) => ({ verdict := .crashed }, s)

/-- Receives a number of times; where nothing is there, that is received. -/
def receive (store id : Nat) : Nat → Tiers → List Delivery × Tiers
  | 0, t => ([], t)
  | count + 1, t =>
    let (d, x) := (t.store store).receive id
    let (rest, t) := receive store id count (t.setStore store x)
    (d :: rest, t)

/-- Receives a number of times from a subscription. -/
def next (s : Session) (name : String) (count : Nat) : Answered × Session :=
  match s.subscriptions[name]? with
  | none => (.unknown, s)
  | some (store, id) =>
    let (items, tiers) := receive store id count s.world.heap.tiers
    (.found (.deliveries items), s.mapTiers fun _ ↦ tiers)

/-- Takes a step. -/
def step (s : Session) : Step → Answered × Session
  | .make name making => s.make name making
  | .act a => s.act a
  | .advance span => s.perform do
    Call.delay span
    return .found .nothing
  | .drop name => s.drop name
  | .spawn name after a => s.spawn name after a
  | .done name => s.withTask name fun id ↦ (.found (.truth (s.world.isDone id)), s)
  | .abort name => s.abort name
  | .join name => s.join name
  | .subscribe name store channel => s.subscribe name store channel
  | .next name count => s.next name count
  | .unknown => (.unknown, s)

/-- The state of the object of a name, where there is one. -/
def state (s : Session) (name : String) : Option Finding × Session :=
  match s.find name with
  | none => (none, s)
  | some o =>
    match s.perform o.state with
    | (⟨.found f, _, _⟩, s) => (some f, s)
    | (_, s) => (none, s)

/-- The states of the objects of several names. -/
def states : List String → Session → List (String × Option Finding) × Session
  | [], s => ([], s)
  | name :: rest, s =>
    let (f, s) := s.state name
    let (found, s) := states rest s
    ((name, f) :: found, s)

/-- Takes a step and reports on it. -/
def report (s : Session) (watched : List String) (step : Step) : Report × Session :=
  let (a, s) := s.step step
  let s := s.tidy
  let moment := s.world.now / Clock.millis 1
  let (found, s) := states watched s
  (⟨moment, a, found⟩, s)

/-- Takes steps and reports on each. -/
def run (s : Session) (watched : List String) : List Step → List Report
  | [] => []
  | step :: rest =>
    let (r, s) := s.report watched step
    r :: run s watched rest

end Session

end TwoTier.Scenario
