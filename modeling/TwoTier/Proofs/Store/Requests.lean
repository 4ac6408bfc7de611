import Mathlib.Tactic.Common
import TwoTier.Proofs.Local.View
import TwoTier.Proofs.Store.Lists
import TwoTier.Server.Reply

/-!
# Requests about the data of a store

A `Store.Request` is one of the operations on data, and `Store.Request.apply` runs it. What a store
shows at a moment is `Store.live?`. Two stores that show the same and agree in everything but their
data are alike (`Store.Alike`), and no request can tell them apart: it answers the same on both and
leaves them alike (`Store.Request.uniform`).
-/

set_option autoImplicit false
set_option relaxedAutoImplicit false

namespace TwoTier

namespace Store

/-! ### What a change shows -/

theorem live?_put (s : Store) {now : Nat} (key j : String) {x : Stored}
    (hlive : x.expiry.live now = true) :
    (s.put key x).live? now j = if j = key then some x else s.live? now j := by
  unfold live? put
  simp only [Dict.getElem?_insert]
  split_ifs with hj
  · simp only [Option.filter_some, hlive, if_true]
  · rfl

theorem live?_drop (s : Store) (now : Nat) (key j : String) :
    (s.drop key).live? now j = if j = key then none else s.live? now j := by
  unfold live? drop
  simp only [Dict.getElem?_erase]
  split_ifs <;> rfl

/-- What a store shows at a moment it showed before, unless something was done to it. -/
theorem live?_of_le (s : Store) {now later : Nat} (hle : now ≤ later) (key : String) :
    s.live? later key = (s.live? now key).filter fun x ↦ x.expiry.live later := by
  unfold live?
  rw [Option.filter_filter]
  congr 1
  funext x
  rw [Bool.eq_iff_iff, Bool.and_eq_true]
  exact ⟨fun h ↦ ⟨Expiry.live_of_le hle h, h⟩, And.right⟩

/-- What is shown has not expired. -/
theorem live_of_live? {s : Store} {now : Nat} {key : String} {x : Stored}
    (h : s.live? now key = some x) : x.expiry.live now = true :=
  (Option.filter_eq_some_iff.mp h).2

/-- A settled key holds what it shows. -/
theorem getElem?_settle_self (s : Store) (now : Nat) (key : String) :
    (s.settle now key).data[key]? = s.live? now key :=
  (getElem?_settle s now key key).trans (if_pos rfl)

/-! ### Stores that nobody can tell apart -/

/-- Everything of a store but its data. -/
def frame (s : Store) : Store := { s with data := ∅ }

/-- At a moment, two stores show the same under every key, and they agree in everything but their
data. -/
structure Alike (now : Nat) (s s' : Store) : Prop where
  /-- The values and the deadlines that they show. -/
  live : s'.live? now = s.live? now
  /-- The counters, the channels and the connection. -/
  frame : s'.frame = s.frame

/-- The store without anything that has expired. -/
def purge (s : Store) (now : Nat) : Store :=
  { s with data := s.data.filter fun _ x ↦ x.expiry.live now }

theorem frame_settle (s : Store) (now : Nat) (key : String) :
    (s.settle now key).frame = s.frame := by
  unfold settle
  split
  · split <;> rfl
  · rfl

namespace Alike

variable {now : Nat} {s s' : Store}

theorem refl (now : Nat) (s : Store) : Alike now s s := ⟨rfl, rfl⟩

variable (h : Alike now s s')

include h

theorem offline : s'.offline = s.offline := by
  have hframe := congrArg Store.offline h.frame
  exact hframe

theorem pushes : s'.pushes = s.pushes := by
  have hframe := congrArg Store.pushes h.frame
  exact hframe

/-- Only what they show can be found in them, once a key is settled. -/
theorem getElem?_settle (key : String) :
    (s'.settle now key).data[key]? = (s.settle now key).data[key]? := by
  rw [getElem?_settle_self, getElem?_settle_self, h.live]

theorem settle (key : String) : Alike now (s.settle now key) (s'.settle now key) where
  live := by
    funext j
    rw [live?_settle, live?_settle, h.live]
  frame := by rw [frame_settle, frame_settle, h.frame]

theorem put (key : String) {x : Stored} (hlive : x.expiry.live now = true) :
    Alike now (s.put key x) (s'.put key x) where
  live := by
    funext j
    rw [live?_put _ _ _ hlive, live?_put _ _ _ hlive, h.live]
  frame := h.frame

theorem drop (key : String) : Alike now (s.drop key) (s'.drop key) where
  live := by
    funext j
    rw [live?_drop, live?_drop, h.live]
  frame := h.frame

/-- They stay alike where something is done to both that does not depend on their data. -/
theorem map (f : Store → Store) (hdata : ∀ a, (f a).data = a.data)
    (hframe : ∀ a, (f a).frame = f a.frame) : Alike now (f s) (f s') where
  live := by
    have hlive := h.live
    unfold live? at hlive ⊢
    rw [hdata, hdata]
    exact hlive
  frame := by rw [hframe, hframe, h.frame]

/-- They stay alike as time passes. -/
theorem later {later : Nat} (hle : now ≤ later) : Alike later s s' where
  live := by
    funext j
    rw [live?_of_le s hle, live?_of_le s' hle, h.live]
  frame := h.frame

/-- They hold the same number of keys. -/
theorem size : s'.size now = s.size now := by
  have hfilter : s'.data.filter (fun _ x ↦ x.expiry.live now) =
      s.data.filter fun _ x ↦ x.expiry.live now := by
    refine Std.ExtTreeMap.ext_getElem? fun {key} ↦ ?_
    rw [Std.ExtTreeMap.getElem?_filter', Std.ExtTreeMap.getElem?_filter']
    exact congrFun h.live key
  exact congrArg Std.ExtTreeMap.size hfilter

end Alike

/-- To remove what has expired changes nothing that can be seen. -/
theorem alike_purge (s : Store) (now : Nat) : Alike now s (s.purge now) where
  live := by
    funext key
    unfold live? purge
    rw [Std.ExtTreeMap.getElem?_filter', Option.filter_filter]
    simp only [Bool.and_self]
  frame := rfl

/-! ### Requests -/

/-- A request about the data of a store. -/
inductive Request where
  /-- To read the text of a key. -/
  | get (key : String)
  /-- To be told whether a key holds a value. -/
  | contains (key : String)
  /-- To put a text under a key, to expire after a span. -/
  | set (key value : String) (ttl : Nat)
  /-- To remove a key. -/
  | del (key : String)
  /-- To count the number of a key up by one. -/
  | incr (key : String)
  /-- To append values to the list of a key. -/
  | rpush (key : String) (values : List String)
  /-- To take, once, the head of the first non-empty list among some keys. -/
  | pop (keys : List String)
  /-- To keep the elements of a list between two bounds. -/
  | ltrim (key : String) (start stop : Int)
  /-- To add members to the set of a key. -/
  | sadd (key : String) (members : List String)
  /-- To be told whether a text is a member of the set of a key. -/
  | sismember (key member : String)
  /-- To run a script. -/
  | eval
  deriving DecidableEq

namespace Request

/-- What a request is answered with. -/
def Reply : Request → Type
  | get _ => String
  | contains _ => Bool
  | set .. => Unit
  | del _ => Unit
  | incr _ => Int
  | rpush .. => Unit
  | pop _ => Option (String × String)
  | ltrim .. => Unit
  | sadd .. => Unit
  | sismember .. => Bool
  | eval => ScriptValue

/-- Runs a request. -/
def apply (now : Nat) : (r : Request) → Store → Outcome r.Reply × Store
  | get key => Store.get now key
  | contains key => Store.contains now key
  | set key value ttl => Store.set now key value ttl
  | del key => Store.del key
  | incr key => Store.incr now key
  | rpush key values => Store.rpush now key values
  | pop keys => Store.tryPop now keys
  | ltrim key start stop => Store.ltrim now key start stop
  | sadd key members => Store.sadd now key members
  | sismember key member => Store.sismember now key member
  | eval => Store.eval

end Request

/-! ### No request tells alike stores apart -/

/-- An operation that answers the same on alike stores, and leaves them alike. -/
def Uniform {α : Type} (now : Nat) (op : Store → Outcome α × Store) : Prop :=
  ∀ {s s' : Store}, Alike now s s' → (op s').1 = (op s).1 ∧ Alike now (op s).2 (op s').2

section Uniform

variable {α : Type} (now : Nat) (key : String)

theorem uniform_whenOnline {op : Store → Outcome α × Store} (hop : Uniform now op) :
    Uniform now (whenOnline op) := by
  intro s s' h
  unfold whenOnline
  rw [h.offline]
  split_ifs
  · exact ⟨rfl, h⟩
  · exact hop h

theorem uniform_get : Uniform now (get now key) := by
  refine uniform_whenOnline now fun {s s'} h ↦ ?_
  have hsettle := h.settle key
  simp only [h.getElem?_settle, getElem?_settle_self]
  rcases s.live? now key with _ | ⟨_ | _ | _, e⟩
  · exact ⟨rfl, hsettle.map (fun a ↦ { a with misses := a.misses + 1 }) (fun _ ↦ rfl) fun _ ↦ rfl⟩
  · exact ⟨rfl, hsettle.map (fun a ↦ { a with hits := a.hits + 1 }) (fun _ ↦ rfl) fun _ ↦ rfl⟩
  · exact ⟨rfl, hsettle⟩
  · exact ⟨rfl, hsettle⟩

theorem uniform_contains : Uniform now (contains now key) := by
  refine uniform_whenOnline now fun h ↦ ?_
  have hkey := h.getElem?_settle key
  exact ⟨congrArg (fun x ↦ Outcome.ok x.isSome) hkey, h.settle key⟩

theorem uniform_set (value : String) (ttl : Nat) : Uniform now (set now key value ttl) := by
  refine uniform_whenOnline now fun h ↦ ?_
  cases hafter : Expiry.after now ttl with
  | none => exact ⟨rfl, h⟩
  | some e => exact ⟨rfl, h.put key (Expiry.live_of_after hafter)⟩

theorem uniform_del : Uniform now (del key) :=
  uniform_whenOnline now fun h ↦ ⟨rfl, h.drop key⟩

theorem uniform_incr : Uniform now (incr now key) := by
  refine uniform_whenOnline now fun {s s'} h ↦ ?_
  have hsettle := h.settle key
  simp only [h.getElem?_settle, getElem?_settle_self]
  rcases hlive : s.live? now key with _ | ⟨value | _ | _, e⟩
  · exact ⟨rfl, hsettle.put key (Expiry.live_never now)⟩
  · have he : e.live now = true := live_of_live? hlive
    dsimp only
    cases (Text.Numeral.readInt64 value).bind Text.Numeral.succ? with
    | none => exact ⟨rfl, hsettle⟩
    | some n => exact ⟨rfl, hsettle.put key he⟩
  · exact ⟨rfl, hsettle⟩
  · exact ⟨rfl, hsettle⟩

theorem uniform_rpush (values : List String) : Uniform now (rpush now key values) := by
  refine uniform_whenOnline now fun {s s'} h ↦ ?_
  have hsettle := h.settle key
  simp only [h.getElem?_settle, getElem?_settle_self]
  have hpush {a b : Store} (hab : Alike now a b) :
      Alike now { a with pushes := a.pushes + 1 } { b with pushes := b.pushes + 1 } :=
    hab.map (fun a ↦ { a with pushes := a.pushes + 1 }) (fun _ ↦ rfl) fun _ ↦ rfl
  rcases hlive : s.live? now key with _ | ⟨_ | items | _, e⟩
  · exact ⟨rfl, hpush (hsettle.put key (Expiry.live_never now))⟩
  · exact ⟨rfl, hsettle⟩
  · have he : e.live now = true := live_of_live? hlive
    exact ⟨rfl, hpush (hsettle.put key he)⟩
  · exact ⟨rfl, hsettle⟩

theorem uniform_tryPop (keys : List String) : Uniform now (tryPop now keys) := by
  intro s s' h
  induction keys generalizing s s' with
  | nil => exact ⟨rfl, h⟩
  | cons key rest ih =>
    have hsettle := h.settle key
    simp only [tryPop, h.getElem?_settle, getElem?_settle_self]
    rcases hlive : s.live? now key with _ | ⟨_ | _ | _, e⟩
    · exact ih hsettle
    · exact ⟨rfl, hsettle⟩
    · rename_i items
      have he : e.live now = true := live_of_live? hlive
      rcases items with _ | ⟨value, _ | ⟨next, items⟩⟩
      · exact ih hsettle
      · exact ⟨rfl, hsettle.drop key⟩
      · exact ⟨rfl, hsettle.put key he⟩
    · exact ⟨rfl, hsettle⟩

theorem uniform_ltrim (start stop : Int) : Uniform now (ltrim now key start stop) := by
  refine uniform_whenOnline now fun {s s'} h ↦ ?_
  have hsettle := h.settle key
  simp only [h.getElem?_settle, getElem?_settle_self]
  rcases hlive : s.live? now key with _ | ⟨_ | items | _, e⟩
  · exact ⟨rfl, hsettle⟩
  · exact ⟨rfl, hsettle⟩
  · have he : e.live now = true := live_of_live? hlive
    dsimp only
    cases resolveRange items.length start stop with
    | none => exact ⟨rfl, hsettle.drop key⟩
    | some range => exact ⟨rfl, hsettle.put key he⟩
  · exact ⟨rfl, hsettle⟩

theorem uniform_sadd (new : List String) : Uniform now (sadd now key new) := by
  refine uniform_whenOnline now fun {s s'} h ↦ ?_
  have hsettle := h.settle key
  simp only [h.getElem?_settle, getElem?_settle_self]
  rcases hlive : s.live? now key with _ | ⟨_ | _ | members, e⟩
  · exact ⟨rfl, hsettle.put key (Expiry.live_never now)⟩
  · exact ⟨rfl, hsettle⟩
  · exact ⟨rfl, hsettle⟩
  · have he : e.live now = true := live_of_live? hlive
    exact ⟨rfl, hsettle.put key he⟩

theorem uniform_sismember (member : String) : Uniform now (sismember now key member) := by
  refine uniform_whenOnline now fun {s s'} h ↦ ?_
  have hsettle := h.settle key
  simp only [h.getElem?_settle, getElem?_settle_self]
  rcases s.live? now key with _ | ⟨_ | _ | _, e⟩ <;> exact ⟨rfl, hsettle⟩

end Uniform

/-- No request can tell alike stores apart, nor does it make them differ. -/
theorem Request.uniform (r : Request) (now : Nat) : Uniform now (r.apply now) := by
  cases r with
  | get key => exact uniform_get now key
  | contains key => exact uniform_contains now key
  | set key value ttl => exact uniform_set now key value ttl
  | del key => exact uniform_del now key
  | incr key => exact uniform_incr now key
  | rpush key values => exact uniform_rpush now key values
  | pop keys => exact uniform_tryPop now keys
  | ltrim key start stop => exact uniform_ltrim now key start stop
  | sadd key members => exact uniform_sadd now key members
  | sismember key member => exact uniform_sismember now key member
  | eval => exact fun h ↦ ⟨rfl, h⟩

end Store

end TwoTier
