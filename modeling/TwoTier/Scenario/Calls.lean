import TwoTier.Scenario.Basic

/-!
The calls of a scenario on its objects.

`Object.call` turns an operation into the call that it stands for, where the object knows the
operation. A fetch leaves a mark when it begins, so that a call can tell whether its own fetch did.
-/

set_option autoImplicit false
set_option relaxedAutoImplicit false

namespace TwoTier.Scenario

namespace Answered

/-- The answer of a call that found something. -/
def found (f : Finding) : Answered := { verdict := .found f }

/-- The answer of a call that nobody can make. -/
def unknown : Answered := { verdict := .unknown }

/-- The answer of a call whose settings were not accepted. -/
def refused (r : Document.Refusal) : Answered := { verdict := .refused r }

/-- The answer of a call that made an object. -/
def making (o : Object) : Answered := { found .nothing with made := some o }

/-- The answer of a cache, told as a finding. -/
def ofAnswer {α : Type} (tell : α → Finding) : Answer α → Answered
  | .ok a => found (tell a)
  | .error f => { verdict := .failed f }

end Answered

/-- The fetch that a plan stands for, after a mark was left. -/
def Plan.fetch (p : Plan) (mark : Call Unit) : Fetch := do
  mark
  Call.delay p.delay
  match p.ending with
  | .value s => return .ok s
  | .error message => return .error message
  | .crash => Call.crash

/-- Counts for how many texts a call answers yes, after `n` others. -/
def countYes (call : String → Call Bool) (n : Nat) : List String → Call Nat
  | [] => return n
  | x :: rest => do
    let yes ← call x
    countYes call (if yes then n + 1 else n) rest

/-- What is told of the fills of a guard. -/
def tellFills (g : Guard) (key : Option String) : Finding :=
  .fills g.started g.coalesced g.inFlight.size (key.map g.inFlight.contains)

/-- The fills of a guard, and whether a key has one in flight. -/
def lookFills (g : Nat) (key : Option String) : Call Answered :=
  Call.look fun h ↦ .found (tellFills (h.guard g) key)

/-- Reads the text of a key, or fetches it according to a plan. -/
def getOrSet (t : Tier) (key : String) (ttl : Nat) (plan : Plan) : Call Answered := do
  let mark ← Call.allocate fun _ t ↦ t
  let answer ← t.getOrSet key ttl
    (plan.fetch (Call.modify fun t ↦ { t with begun := mark :: t.begun }))
  let begun ← Call.look fun h ↦ h.tiers.begun.contains mark
  return { Answered.ofAnswer .text answer with fetched := some begun }

/-- A call on any cache. -/
def callCache (t : Tier) : Operation → Option (Call Answered)
  | .get key => some do return .ofAnswer .text (← t.get key)
  | .getOpt key => some do return .ofAnswer .optional (← t.getOpt key)
  | .contains key => some do return .ofAnswer .truth (← t.contains key)
  | .set key value ttl => some do return .ofAnswer (fun _ ↦ .nothing) (← t.set key value ttl)
  | .del key => some do return .ofAnswer (fun _ ↦ .nothing) (← t.del key)
  | .incr key => some do return .ofAnswer .number (← t.incr key)
  | .rpush key values => some do return .ofAnswer (fun _ ↦ .nothing) (← t.rpush key values)
  | .blpop timeout keys => some do return .ofAnswer .texts (← t.blpop timeout keys)
  | .ltrim key start stop => some do
    return .ofAnswer (fun _ ↦ .nothing) (← t.ltrim key start stop)
  | .eval script keys args => some do return .ofAnswer .script (← t.eval script keys args)
  | .sadd key members => some do return .ofAnswer (fun _ ↦ .nothing) (← t.sadd key members)
  | .sismember key member => some do return .ofAnswer .truth (← t.sismember key member)
  | .getOrSet key ttl plan => some (getOrSet t key ttl plan)
  | .stats => some do return .found (.snapshot (← t.stats))
  | .close => some do return .ofAnswer (fun _ ↦ .nothing) (← t.close)
  | _ => none

/-- A call on a local tier. -/
def callLocal (l : LocalHandle) : Operation → Option (Call Answered)
  | .lookup key => some do return .found (.optional (← l.lookup key))
  | .holds key => some do return .found (.truth (← l.contains key))
  | .insert key value ttl => some do return .found (.truth (← l.insert key value ttl))
  | .remove key => some do return .found (.truth (← l.remove key))
  | .purgeExpired => some do return .found (.number (← l.purgeExpired))
  | .clear => some do
    l.clear
    return .found .nothing
  | .size => some (Call.look fun h ↦ .found (.size (h.tiers.localTier l.cache).size))
  | .settings => some (Call.look fun h ↦
    let c := h.tiers.localTier l.cache
    .found (.settings c.maxKeys c.policy c.closed))
  | .counters => some (Call.look fun h ↦ .found (.counters (h.tiers.localTier l.cache).counters))
  | .fills key => some (lookFills l.guard key)
  | .insertAll keys value ttl => some do
    return .found (.number (← countYes (fun key ↦ l.insert key value ttl) 0 keys))
  | .lookupAll keys => some do
    return .found (.number (← countYes (fun key ↦ return (← l.lookup key).isSome) 0 keys))
  | .holdsAll keys => some do return .found (.number (← countYes l.contains 0 keys))
  | .removeAll keys => some do return .found (.number (← countYes l.remove 0 keys))
  | op => callCache l.tier op

/-- Changes a store in one step. -/
def changeStore (s : StoreHandle) (f : Store → Store) : Call Answered := do
  Call.modify fun t ↦ t.setStore s.store (f (t.store s.store))
  return .found .nothing

/-- A call on a store. -/
def callStore (s : StoreHandle) : Operation → Option (Call Answered)
  | .size => some (Call.look fun h ↦ .found (.size ((h.tiers.store s.store).size h.now)))
  | .setOffline b => some (changeStore s fun x ↦ { x with offline := b })
  | .subscriberCount channel => some (Call.look fun h ↦
    .found (.number ((h.tiers.store s.store).subscribers.countOn channel)))
  | .disconnect channel => some (changeStore s fun x ↦ x.disconnect channel)
  | .publish channel payload => some do
    return .ofAnswer (fun _ ↦ .nothing)
      (← Call.onStore s.store fun _ ↦ Store.publish channel payload)
  | .publishMany channel payloads => some do
    return .ofAnswer (fun _ ↦ .nothing)
      (← Call.onStore s.store fun _ ↦ Store.publishMany channel payloads)
  | op => callCache s.tier op

/-- The source of the notices that are published at an object. -/
def Object.source? : Object → Option Source
  | .cache (.store s) => some (.store s.store)
  | _ => none

/-- A call on a hybrid tier; `find` finds objects by their names. -/
def callHybrid (find : String → Option Object) (c : Hybrid) : Operation → Option (Call Answered)
  | .startInvalidator store => ((find store).bind Object.source?).map fun source ↦ do
    return .ofAnswer (fun _ ↦ .nothing) (← c.startInvalidator source)
  | .stopInvalidator => some do
    c.stopInvalidator
    return .found .nothing
  | .invalidatorState => some do return .found (.text (← c.invalidatorState).title)
  | .settings => some (return .found (.text c.settings.render))
  | op => callCache c.tier op

/-- A call on a guard. -/
def callGuard (g : Nat) : Operation → Option (Call Answered)
  | .run key plan => some do
    return .ofAnswer .text (← Call.fillOnce g key (Call.fetched (plan.fetch (.done ()))))
  | .fills key => some (lookFills g key)
  | _ => none

/-- A call on a listener. -/
def callListener (l : Nat) : Operation → Option (Call Answered)
  | .start => some do return .ofAnswer (fun _ ↦ .nothing) (← Listener.start l)
  | .stop => some do
    Listener.stop l
    return .found .nothing
  | .state => some (Call.look fun h ↦
    let x := h.tiers.listener l
    .found (.stage x.state x.channel))
  | .stats => some (Call.look fun h ↦ .found (.snapshot (h.tiers.listener l).stats))
  | .totals => some (Call.look fun h ↦
    let x := h.tiers.listener l
    .found (.totals x.received x.applied x.ignored x.failed))
  | _ => none

/-- The call that an operation on an object stands for, where the object knows it. -/
def Object.call (find : String → Option Object) : Object → Operation → Option (Call Answered)
  | .cache (.localTier l), op => callLocal l op
  | .cache (.store s), op => callStore s op
  | .cache (.server s), op => callCache s.tier op
  | .cache (.hybrid front behind), op => callHybrid find ⟨front, behind.tier⟩ op
  | .assembled c, .variant => some (return .found (.variant c.variant c.render c.isHybrid))
  | .assembled c, op => callCache c.cache.tier op
  | .guard g, op => callGuard g op
  | .listener l, op => callListener l op

/-- The call that finds the state of an object. -/
def Object.state : Object → Call Answered
  | .cache c => do return .found (.snapshot (← c.tier.stats))
  | .assembled c => do return .found (.snapshot (← c.cache.tier.stats))
  | .guard g => lookFills g none
  | .listener l => Call.look fun h ↦
    let x := h.tiers.listener l
    .found (.listening x.state x.stats)

end TwoTier.Scenario
