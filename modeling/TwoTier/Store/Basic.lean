import Std.Data.ExtTreeSet
import TwoTier.Dict
import TwoTier.Fault
import TwoTier.Stats.Snapshot
import TwoTier.Store.Channel
import TwoTier.Text.Numeral
import TwoTier.Time

/-!
The shared store: texts that expire, lists, sets and channels.

Every operation runs at a moment on a store and answers together with the store after it. A key
whose deadline has been reached reads as absent. While the store is offline every operation fails
with the same fault and changes nothing. `Store.live?` is the view of a key at a moment.
-/

set_option autoImplicit false
set_option relaxedAutoImplicit false

namespace TwoTier

/-- What a key of the store holds. -/
inductive Datum where
  /-- A text. -/
  | text (s : String)
  /-- A list, its head first. -/
  | list (items : List String)
  /-- A set. -/
  | set (members : Std.ExtTreeSet String)
  deriving DecidableEq, Repr, Inhabited

/-- What is stored under a key. -/
structure Stored where
  /-- The value. -/
  datum : Datum
  /-- When it stops being observable. -/
  expiry : Expiry
  deriving DecidableEq, Repr, Inhabited

/-- The shared store. -/
structure Store where
  /-- The values by key, those included that have expired and were not yet removed. -/
  data : Dict String Stored
  /-- The subscriptions to its channels. -/
  subscribers : Subscribers
  /-- The number of the next subscription. -/
  nextSubscriber : Nat
  /-- How often something was pushed to a list: those who wait for an element wait for this number
  to change. -/
  pushes : Nat
  /-- Reads that found a text. -/
  hits : Nat
  /-- Reads that found no live value. -/
  misses : Nat
  /-- Payloads published. -/
  published : Nat
  /-- Whether the connection is down. -/
  offline : Bool

namespace Store

/-- The store that holds nothing. -/
def empty : Store := ⟨∅, [], 0, 0, 0, 0, 0, false⟩

instance : Inhabited Store := ⟨empty⟩

/-- What a key holds at a moment, with its expiry. -/
def live? (s : Store) (now : Nat) (key : String) : Option Stored :=
  (s.data[key]?).filter fun x ↦ x.expiry.live now

/-- The store with a value put under a key. -/
def put (s : Store) (key : String) (x : Stored) : Store := { s with data := s.data.insert key x }

/-- The store without a key. -/
def drop (s : Store) (key : String) : Store := { s with data := s.data.erase key }

/-- The store without a key that has expired. -/
def settle (s : Store) (now : Nat) (key : String) : Store :=
  match s.data[key]? with
  | some x => if x.expiry.live now then s else s.drop key
  | none => s

/-- The number of keys that hold a value at a moment. -/
def size (s : Store) (now : Nat) : Nat := (s.data.filter fun _ x ↦ x.expiry.live now).size

/-- Runs an operation on a store that is online. -/
def whenOnline {α : Type} (op : Store → Outcome α × Store) (s : Store) : Outcome α × Store :=
  if s.offline then (.fault .refused, s) else op s

/-! ### Texts -/

/-- Reads the text of a key and counts a hit or a miss. -/
def get (now : Nat) (key : String) : Store → Outcome String × Store :=
  whenOnline fun s ↦
    let s := s.settle now key
    match s.data[key]? with
    | some ⟨.text value, _⟩ => (.ok value, { s with hits := s.hits + 1 })
    | some _ => (.fault (.wrongKind key), s)
    | none => (.fault .notFound, { s with misses := s.misses + 1 })

/-- Whether a key holds a value of any kind. -/
def contains (now : Nat) (key : String) : Store → Outcome Bool × Store :=
  whenOnline fun s ↦
    let s := s.settle now key
    (.ok (s.data[key]?).isSome, s)

/-- Puts a text under a key, whatever it held, to expire after `ttl`. -/
def set (now : Nat) (key value : String) (ttl : Nat) : Store → Outcome Unit × Store :=
  whenOnline fun s ↦
    match Expiry.after now ttl with
    | some e => (.ok (), s.put key ⟨.text value, e⟩)
    | none => (.overflow, s)

/-- Removes a key. -/
def del (key : String) : Store → Outcome Unit × Store :=
  whenOnline fun s ↦ (.ok (), s.drop key)

/-- Counts the decimal text of a key up by one; an absent key counts from zero. The deadline
stays. -/
def incr (now : Nat) (key : String) : Store → Outcome Int × Store :=
  whenOnline fun s ↦
    let s := s.settle now key
    match s.data[key]? with
    | none => (.ok 1, s.put key ⟨.text "1", .never⟩)
    | some ⟨.text value, e⟩ =>
      match (Text.Numeral.readInt64 value).bind Text.Numeral.succ? with
      | some n => (.ok n, s.put key ⟨.text (Text.Numeral.decimal n), e⟩)
      | none => (.fault .notAnInteger, s)
    | some _ => (.fault (.wrongKind key), s)

/-! ### Lists -/

/-- Appends values to the list of a key and wakes whoever waits for an element. An absent key
becomes a list. -/
def rpush (now : Nat) (key : String) (values : List String) : Store → Outcome Unit × Store :=
  whenOnline fun s ↦
    let s := s.settle now key
    match s.data[key]? with
    | none => (.ok (), { s.put key ⟨.list values, .never⟩ with pushes := s.pushes + 1 })
    | some ⟨.list items, e⟩ =>
      (.ok (), { s.put key ⟨.list (items ++ values), e⟩ with pushes := s.pushes + 1 })
    | some _ => (.fault (.wrongKind key), s)

/-- Takes the head of the first non-empty list among some keys. The answer is the key and the
element; there is none where all lists are empty. -/
def tryPop (now : Nat) : List String → Store → Outcome (Option (String × String)) × Store
  | [], s => (.ok none, s)
  | key :: rest, s =>
    let s := s.settle now key
    match s.data[key]? with
    | none => tryPop now rest s
    | some ⟨.list [], _⟩ => tryPop now rest s
    | some ⟨.list [value], _⟩ => (.ok (some (key, value)), s.drop key)
    | some ⟨.list (value :: items), e⟩ =>
      (.ok (some (key, value)), s.put key ⟨.list items, e⟩)
    | some _ => (.fault (.wrongKind key), s)

/-- The positions that two inclusive bounds name in a list of a length; a negative bound counts from
the end. There are none where the bounds cross or the first lies behind the list. -/
def resolveRange (length : Nat) (start stop : Int) : Option (Nat × Nat) :=
  let n : Int := length
  let first := if start < 0 then max (n + start) 0 else start
  let last := if stop < 0 then n + stop else min stop (n - 1)
  if last < first ∨ n ≤ first then none else some (first.toNat, last.toNat)

/-- Keeps the elements of a list between two inclusive bounds; the key is removed where none is
kept. -/
def ltrim (now : Nat) (key : String) (start stop : Int) : Store → Outcome Unit × Store :=
  whenOnline fun s ↦
    let s := s.settle now key
    match s.data[key]? with
    | none => (.ok (), s)
    | some ⟨.list items, e⟩ =>
      match resolveRange items.length start stop with
      | some (first, last) =>
        (.ok (), s.put key ⟨.list ((items.take (last + 1)).drop first), e⟩)
      | none => (.ok (), s.drop key)
    | some _ => (.fault (.wrongKind key), s)

/-! ### Sets -/

/-- Adds members to the set of a key. An absent key becomes a set. -/
def sadd (now : Nat) (key : String) (new : List String) : Store → Outcome Unit × Store :=
  whenOnline fun s ↦
    let s := s.settle now key
    match s.data[key]? with
    | none => (.ok (), s.put key ⟨.set (.ofList new), .never⟩)
    | some ⟨.set members, e⟩ => (.ok (), s.put key ⟨.set (members.insertMany new), e⟩)
    | some _ => (.fault (.wrongKind key), s)

/-- Whether a text is a member of the set of a key. -/
def sismember (now : Nat) (key member : String) : Store → Outcome Bool × Store :=
  whenOnline fun s ↦
    let s := s.settle now key
    match s.data[key]? with
    | none => (.ok false, s)
    | some ⟨.set members, _⟩ => (.ok (members.contains member), s)
    | some _ => (.fault (.wrongKind key), s)

/-- Runs a script, which the store does not offer. -/
def eval {α : Type} (s : Store) : Outcome α × Store := (.fault (.unsupported "eval" "memory"), s)

/-! ### Channels -/

/-- Publishes a payload on a channel. Nobody need listen. -/
def publish (channel payload : String) : Store → Outcome Unit × Store :=
  whenOnline fun s ↦
    (.ok (), { s with
      published := s.published + 1
      subscribers := s.subscribers.publish channel payload })

/-- Publishes payloads on a channel, one after the other. -/
def publishMany (channel : String) : List String → Store → Outcome Unit × Store
  | [], s => (.ok (), s)
  | payload :: rest, s =>
    match publish channel payload s with
    | (.ok _, s) => publishMany channel rest s
    | failed => failed

/-- Subscribes to a channel. The answer is the number of the subscription. -/
def subscribe (channel : String) : Store → Outcome Nat × Store :=
  whenOnline fun s ↦
    (.ok s.nextSubscriber, { s with
      nextSubscriber := s.nextSubscriber + 1
      subscribers := s.subscribers ++ [⟨s.nextSubscriber, channel, true, [], 0⟩] })

/-- What a subscription receives next. -/
def receive (id : Nat) (s : Store) : Delivery × Store :=
  let (d, subscribers) := s.subscribers.receive id
  (d, { s with subscribers := subscribers })

/-- Ends a subscription. -/
def unsubscribe (id : Nat) (s : Store) : Store :=
  { s with subscribers := s.subscribers.remove id }

/-- Drops every subscription to a channel, as a lost connection does. -/
def disconnect (channel : String) (s : Store) : Store :=
  { s with subscribers := s.subscribers.disconnect channel }

end Store

end TwoTier
