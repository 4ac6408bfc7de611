import TwoTier.Settings.Document
import TwoTier.Tier.Cache

/-!
Scenarios: what somebody does with caches, step by step, and what they find.

A scenario gives names to things (`Object`), makes calls on them (`Action`), lets other tasks make
calls meanwhile, and moves the clock. Each step ends with a verdict (`Verdict`): what was found, the
fault of the call, or the reason for which there is no answer.
-/

set_option autoImplicit false
set_option relaxedAutoImplicit false

namespace TwoTier.Scenario

/-- A thing that a scenario has a name for. -/
inductive Object where
  /-- A cache. -/
  | cache (c : Cache)
  /-- A cache that knows its mode. -/
  | assembled (c : Assembled)
  /-- A guard, by its number. -/
  | guard (g : Nat)
  /-- A listener, by its number. -/
  | listener (l : Nat)
  deriving DecidableEq, Repr

/-- How a fetch ends. -/
inductive Ending where
  /-- It yields a value. -/
  | value (s : String)
  /-- It fails. -/
  | error (message : String)
  /-- It does not come to an end of its own. -/
  | crash
  deriving DecidableEq, Repr

/-- A fetch: how it ends, and after which span. -/
structure Plan where
  /-- The span before its end. -/
  delay : Nat
  /-- Its end. -/
  ending : Ending
  deriving DecidableEq, Repr

/-- A call on an object. -/
inductive Operation where
  /-- Reads the text of a key. -/
  | get (key : String)
  /-- Reads the text of a key; a miss is no failure. -/
  | getOpt (key : String)
  /-- Whether a key holds a value. -/
  | contains (key : String)
  /-- Puts a text under a key. -/
  | set (key value : String) (ttl : Nat)
  /-- Removes a key. -/
  | del (key : String)
  /-- Counts the number of a key up by one. -/
  | incr (key : String)
  /-- Appends values to a list. -/
  | rpush (key : String) (values : List String)
  /-- Takes the head of a list. -/
  | blpop (timeout : Nat) (keys : List String)
  /-- Keeps a range of a list. -/
  | ltrim (key : String) (start stop : Int)
  /-- Runs a script. -/
  | eval (script : String) (keys args : List String)
  /-- Adds members to a set. -/
  | sadd (key : String) (members : List String)
  /-- Whether a text is a member of a set. -/
  | sismember (key member : String)
  /-- Reads the text of a key, or fetches it. -/
  | getOrSet (key : String) (ttl : Nat) (fetch : Plan)
  /-- Measures the object. -/
  | stats
  /-- Closes the cache. -/
  | close
  /-- Looks a key of a local tier up. -/
  | lookup (key : String)
  /-- Whether a local tier holds a key. -/
  | holds (key : String)
  /-- Inserts or replaces a key of a local tier. -/
  | insert (key value : String) (ttl : Nat)
  /-- Removes a key from a local tier. -/
  | remove (key : String)
  /-- Removes the expired entries of a local tier. -/
  | purgeExpired
  /-- Removes all entries of a local tier. -/
  | clear
  /-- The number of keys. -/
  | size
  /-- The settings. -/
  | settings
  /-- The counters of a local tier. -/
  | counters
  /-- The fills in flight, and whether a key has one. -/
  | fills (key : Option String)
  /-- Inserts several keys and counts those accepted. -/
  | insertAll (keys : List String) (value : String) (ttl : Nat)
  /-- Looks several keys up and counts those found. -/
  | lookupAll (keys : List String)
  /-- Counts those of several keys that are held. -/
  | holdsAll (keys : List String)
  /-- Removes several keys and counts those that were resident. -/
  | removeAll (keys : List String)
  /-- Cuts the connection to a store, or restores it. -/
  | setOffline (offline : Bool)
  /-- The number of subscribers to a channel. -/
  | subscriberCount (channel : String)
  /-- Drops the subscribers to a channel. -/
  | disconnect (channel : String)
  /-- Publishes a payload, such as the key of an invalidation notice. -/
  | publish (channel payload : String)
  /-- Publishes payloads. -/
  | publishMany (channel : String) (payloads : List String)
  /-- Listens for notices that are published at a store. -/
  | startInvalidator (store : String)
  /-- Stops to listen for notices. -/
  | stopInvalidator
  /-- The stage of the listener of a hybrid tier. -/
  | invalidatorState
  /-- The mode of an assembled cache. -/
  | variant
  /-- Runs a fill through a guard. -/
  | run (key : String) (fetch : Plan)
  /-- Starts a listener. -/
  | start
  /-- Stops a listener. -/
  | stop
  /-- The stage of a listener, and its channel. -/
  | state
  /-- What a listener has counted. -/
  | totals
  /-- A call that no object knows. -/
  | unknown
  deriving DecidableEq, Repr

/-- A call on a named object, made a number of times. -/
structure Action where
  /-- The name of the object. -/
  target : String
  /-- How often the call is made. -/
  times : Nat
  /-- The call. -/
  operation : Operation
  deriving DecidableEq, Repr

/-- A thing to be made; settings are documents. -/
inductive Making where
  /-- A local tier. -/
  | localTier (settings : String)
  /-- A local tier with the settings that nobody has to choose. -/
  | localDefault
  /-- A store. -/
  | store
  /-- A guard. -/
  | guard
  /-- A second handle. -/
  | clone (of : String)
  /-- A local tier in front of another cache. -/
  | hybrid (near remote settings : String)
  /-- The local tier of a hybrid one. -/
  | localOf (of : String)
  /-- The cache behind the local tier of a hybrid one. -/
  | remoteOf (of : String)
  /-- The hybrid tier of an assembled cache. -/
  | hybridOf (of : String)
  /-- An assembled cache. -/
  | tiered (of : String)
  /-- A cache behind a handle that hides what it is made of. -/
  | hidden (of : String)
  /-- A listener. -/
  | listener (near store channel : String) (patience : Nat)
  /-- A cache assembled over a store. -/
  | assemble (store settings : String)
  /-- A cache connected and assembled. -/
  | build (settings : String)
  deriving DecidableEq, Repr

/-- A step of a scenario. -/
inductive Step where
  /-- Makes a thing and names it. -/
  | make (name : String) (making : Making)
  /-- Makes a call. -/
  | act (action : Action)
  /-- Lets time pass. -/
  | advance (span : Nat)
  /-- Gives up a handle or a subscription. -/
  | drop (name : String)
  /-- Starts a task that makes a call after a span. -/
  | spawn (name : String) (after : Nat) (action : Action)
  /-- Whether a task has ended. -/
  | done (name : String)
  /-- Cancels a task where it waits. -/
  | abort (name : String)
  /-- Waits for a task. -/
  | join (name : String)
  /-- Subscribes to a channel of a store. -/
  | subscribe (name store channel : String)
  /-- Receives a number of times from a subscription. -/
  | next (name : String) (count : Nat)
  /-- A step that nobody can take. -/
  | unknown
  deriving DecidableEq, Repr

/-- What a call found. -/
inductive Finding where
  /-- Nothing to tell. -/
  | nothing
  /-- A truth value. -/
  | truth (b : Bool)
  /-- A number. -/
  | number (n : Int)
  /-- A text. -/
  | text (s : String)
  /-- A text, or none. -/
  | optional (s : Option String)
  /-- Several texts. -/
  | texts (l : List String)
  /-- The value of a script. -/
  | script (v : ScriptValue)
  /-- Measurements. -/
  | snapshot (s : Snapshot)
  /-- A number of keys. -/
  | size (n : Nat)
  /-- The settings of a local tier. -/
  | settings (maxKeys : Nat) (policy : Policy) (closed : Bool)
  /-- Counters. -/
  | counters (c : Counters)
  /-- The fills of a guard, and whether a key has one in flight. -/
  | fills (started coalesced inFlight : Nat) (key : Option Bool)
  /-- The stage of a listener, and its channel. -/
  | stage (state : ListenerState) (channel : String)
  /-- The stage of a listener, and its measurements. -/
  | listening (state : ListenerState) (s : Snapshot)
  /-- What a listener has counted. -/
  | totals (received applied ignored failed : Nat)
  /-- The mode of a cache, its diagnostic text, and whether it is a hybrid one. -/
  | variant (name shown : String) (isHybrid : Bool)
  /-- What a subscription received. -/
  | deliveries (l : List Delivery)

/-- How a step ends. -/
inductive Verdict where
  /-- It found something. -/
  | found (f : Finding)
  /-- Its call failed. -/
  | failed (f : Fault)
  /-- Its settings were not accepted. -/
  | refused (r : Document.Refusal)
  /-- Its call could not go on. -/
  | crashed
  /-- The task was cancelled. -/
  | aborted
  /-- It names no object, or a call that the object does not know. -/
  | unknown

/-- The answer of a call: how it ended, whether the fetch that it was given has begun, and the
object that it made. -/
structure Answered where
  /-- How the call ended. -/
  verdict : Verdict
  /-- Whether its own fetch began. -/
  fetched : Option Bool := none
  /-- What it made. -/
  made : Option Object := none

/-- What is reported of a step. -/
structure Report where
  /-- The moment after it, in whole milliseconds. -/
  moment : Nat
  /-- Its answer. -/
  answer : Answered
  /-- The state of the objects watched, where there is an object of the name. -/
  states : List (String × Option Finding)

end TwoTier.Scenario
