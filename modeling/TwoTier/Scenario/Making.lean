import TwoTier.Scenario.Calls

/-!
The calls by which a scenario makes its objects.

Settings are read before anything is made. An object that cannot be made leaves nothing behind.
-/

set_option autoImplicit false
set_option relaxedAutoImplicit false

namespace TwoTier.Scenario

namespace Object

/-- The cache that an object is. -/
def cache? : Object → Option Cache
  | cache c => some c
  | assembled c => some c.cache
  | _ => none

/-- The local tier that an object is. -/
def local? : Object → Option LocalHandle
  | cache (.localTier l) => some l
  | _ => none

/-- The two sides of the hybrid tier that an object is. -/
def hybrid? : Object → Option (Front × Cache)
  | cache (.hybrid front behind) => some (front, behind)
  | _ => none

/-- The store of this process that an object is. -/
def store? : Object → Option StoreHandle
  | cache (.store s) => some s
  | _ => none

/-- An object as an assembled cache: a local or hybrid tier is one of that mode, any other cache is
used as it is. -/
def tiered? : Object → Option Assembled
  | cache (.localTier l) => some (.localOnly l)
  | cache (.hybrid front behind) => some (.hybrid front behind)
  | o => o.cache?.map .remoteOnly

end Object

/-- Makes what settings describe, unless they are not accepted. -/
def withSettings {α : Type} (reader : Document.Reader α) (doc : String)
    (make : α → Call Answered) : Call Answered :=
  match Document.read reader doc with
  | .ok a => make a
  | .error r => return .refused r

/-- The answer that makes an object, if there is one. -/
def making? (o : Option Object) : Call Answered :=
  match o with
  | some o => return .making o
  | none => return .unknown

/-- The answer of an assembly. -/
def ofAssembly : Answer Assembled → Answered
  | .ok c => .making (.assembled c)
  | .error f => { verdict := .failed f }

/-- The call that makes an object; `find` finds objects by their names. -/
def Making.call (chance : Chance) (network : Network) (find : String → Option Object) :
    Making → Call Answered
  | .localTier settings => withSettings LocalSettings.reader settings fun s ↦ do
    return .making (.cache (.localTier (← LocalHandle.create chance s)))
  | .localDefault => do
    return .making (.cache (.localTier (← LocalHandle.create chance default)))
  | .store => do return .making (.cache (.store (← StoreHandle.create)))
  | .guard => do return .making (.guard (← Guard.create))
  | .clone of => making? (find of)
  | .hybrid near remote settings => withSettings HybridSettings.reader settings fun s ↦
    match (find near).bind Object.local?, (find remote).bind Object.cache? with
    | some near, some behind => do
      return .making (.cache (.hybrid (← Front.create near s) behind))
    | _, _ => return .unknown
  | .localOf of =>
    making? (((find of).bind Object.hybrid?).map fun x ↦ .cache (.localTier x.1.near))
  | .remoteOf of =>
    making? (((find of).bind Object.hybrid?).map fun x ↦ .assembled (.remoteOnly x.2))
  | .hybridOf of =>
    match find of with
    | some (.assembled (.hybrid front behind)) => return .making (.cache (.hybrid front behind))
    | some (.assembled _) => return .found .nothing
    | _ => return .unknown
  | .tiered of => making? (((find of).bind Object.tiered?).map .assembled)
  | .hidden of =>
    making? (((find of).bind Object.cache?).map fun c ↦ .assembled (.remoteOnly c))
  | .listener near origin channel patience =>
    match (find near).bind Object.local?, (find origin).bind Object.source? with
    | some near, some source => do
      return .making (.listener (← Listener.create (.idle near.cache source channel patience)))
    | _, _ => return .unknown
  | .assemble origin settings => withSettings Settings.reader settings fun s ↦
    match (find origin).bind Object.store? with
    | some shared => do
      return ofAssembly (← Assembled.assemble chance s (.store shared) (.store shared.store))
    | none => return .unknown
  | .build settings => withSettings Settings.reader settings fun s ↦ do
    return ofAssembly (← Assembled.build chance network s)

end TwoTier.Scenario
