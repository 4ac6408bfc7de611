import TwoTier.Proofs.Store.Requests

/-!
# Requests that fail

A request that fails may have removed what had expired, and has done nothing else: the store shows
the same under every key as before, with the same deadlines, and its channels and counters are as
they were (`Store.Refusing`). The one exception is a read that finds no live value, which counts a
miss (`Store.spared_get`). Every request about data is one of these (`Store.Request.spared`), and so
is what is said to channels.
-/

set_option autoImplicit false
set_option relaxedAutoImplicit false

namespace TwoTier

/-- An operation has failed, or has no outcome. -/
def Outcome.Failed {α : Type} : Outcome α → Prop
  | ok _ => False
  | fault _ => True
  | overflow => True

namespace Store

/-- At a moment, a store shows what another showed, and agrees with it in everything but its data
and its count of misses, which has grown by `n`. -/
structure Spared (now n : Nat) (s s' : Store) : Prop where
  /-- The values and the deadlines that they show. -/
  live : s'.live? now = s.live? now
  /-- The counters, the channels and the connection. -/
  frame : s'.frame = { s.frame with misses := s.misses + n }

/-- An operation that leaves a store, where it fails, such that nobody can tell. -/
def Refusing {α : Type} (now : Nat) (op : Store → Outcome α × Store) : Prop :=
  ∀ s, (op s).1.Failed → Alike now s (op s).2

/-- A read of the key finds no live value. -/
def Misses (s : Store) (now : Nat) (key : String) : Prop :=
  s.offline = false ∧ s.live? now key = none

instance (s : Store) (now : Nat) (key : String) : Decidable (s.Misses now key) :=
  inferInstanceAs (Decidable (_ ∧ _))

variable {α : Type} (now : Nat)

theorem Alike.trans {now : Nat} {s s' s'' : Store} (h : Alike now s s') (h' : Alike now s' s'') :
    Alike now s s'' :=
  ⟨h'.live.trans h.live, h'.frame.trans h.frame⟩

theorem Alike.spared {s s' : Store} (h : Alike now s s') : Spared now 0 s s' := ⟨h.live, h.frame⟩

/-- Nobody can tell whether a key was settled. -/
theorem alike_settle (s : Store) (key : String) : Alike now s (s.settle now key) where
  live := funext fun j ↦ live?_settle s now key j
  frame := frame_settle s now key

/-- An operation that is refused while the store is offline. -/
theorem refusing_whenOnline {op : Store → Outcome α × Store} (hop : Refusing now op) :
    Refusing now (whenOnline op) := by
  intro s hfailed
  unfold whenOnline at hfailed ⊢
  split_ifs at hfailed ⊢
  · exact Alike.refl now s
  · exact hop s hfailed

theorem refusing_contains (key : String) : Refusing now (contains now key) :=
  refusing_whenOnline now fun _ hfailed ↦ hfailed.elim

theorem set_of_overflow {now : Nat} {key value : String} {ttl : Nat} {s : Store}
    (h : (set now key value ttl s).1 = .overflow) : (set now key value ttl s).2 = s := by
  cases hoffline : s.offline with
  | true => simp only [set, whenOnline, hoffline, if_true]
  | false =>
    rw [set_eq hoffline] at h ⊢
    cases hafter : Expiry.after now ttl with
    | none => rfl
    | some e =>
      rw [hafter] at h
      cases h

theorem refusing_set (key value : String) (ttl : Nat) : Refusing now (set now key value ttl) := by
  refine refusing_whenOnline now fun s ↦ ?_
  cases Expiry.after now ttl with
  | none => exact fun _ ↦ Alike.refl now s
  | some e => exact False.elim

theorem refusing_del (key : String) : Refusing now (del key) :=
  refusing_whenOnline now fun _ hfailed ↦ hfailed.elim

theorem refusing_incr (key : String) : Refusing now (incr now key) := by
  refine refusing_whenOnline now fun s ↦ ?_
  have hsettle := alike_settle now s key
  simp only [getElem?_settle_self]
  rcases s.live? now key with _ | ⟨value | _ | _, e⟩
  · exact False.elim
  · dsimp only
    cases (Text.Numeral.readInt64 value).bind Text.Numeral.succ? with
    | none => exact fun _ ↦ hsettle
    | some n => exact False.elim
  · exact fun _ ↦ hsettle
  · exact fun _ ↦ hsettle

theorem refusing_rpush (key : String) (values : List String) :
    Refusing now (rpush now key values) := by
  refine refusing_whenOnline now fun s ↦ ?_
  have hsettle := alike_settle now s key
  simp only [getElem?_settle_self]
  rcases s.live? now key with _ | ⟨_ | _ | _, e⟩
  · exact False.elim
  · exact fun _ ↦ hsettle
  · exact False.elim
  · exact fun _ ↦ hsettle

/-- A try that takes no element was seen by nobody: all keys that it looked at were settled. -/
theorem alike_tryPop (keys : List String) {s : Store} :
    (∀ x, (tryPop now keys s).1 ≠ .ok (some x)) → Alike now s (tryPop now keys s).2 := by
  induction keys generalizing s with
  | nil => exact fun _ ↦ Alike.refl now s
  | cons key rest ih =>
    have hsettle := alike_settle now s key
    have hnext (hrest : ∀ x, (tryPop now rest (s.settle now key)).1 ≠ .ok (some x)) :
        Alike now s (tryPop now rest (s.settle now key)).2 :=
      hsettle.trans (ih hrest)
    simp only [tryPop, getElem?_settle_self]
    rcases s.live? now key with _ | ⟨_ | items | _, e⟩
    · exact hnext
    · exact fun _ ↦ hsettle
    · rcases items with _ | ⟨value, _ | ⟨next, items⟩⟩
      · exact hnext
      · exact fun hnone ↦ absurd rfl (hnone _)
      · exact fun hnone ↦ absurd rfl (hnone _)
    · exact fun _ ↦ hsettle

theorem refusing_tryPop (keys : List String) : Refusing now (tryPop now keys) := by
  intro s hfailed
  refine alike_tryPop now keys fun x hx ↦ ?_
  rw [hx] at hfailed
  exact hfailed

theorem refusing_ltrim (key : String) (start stop : Int) :
    Refusing now (ltrim now key start stop) := by
  refine refusing_whenOnline now fun s ↦ ?_
  have hsettle := alike_settle now s key
  simp only [getElem?_settle_self]
  rcases s.live? now key with _ | ⟨_ | items | _, e⟩
  · exact False.elim
  · exact fun _ ↦ hsettle
  · dsimp only
    cases resolveRange items.length start stop with
    | none => exact False.elim
    | some range => exact False.elim
  · exact fun _ ↦ hsettle

theorem refusing_sadd (key : String) (new : List String) : Refusing now (sadd now key new) := by
  refine refusing_whenOnline now fun s ↦ ?_
  have hsettle := alike_settle now s key
  simp only [getElem?_settle_self]
  rcases s.live? now key with _ | ⟨_ | _ | _, e⟩
  · exact False.elim
  · exact fun _ ↦ hsettle
  · exact fun _ ↦ hsettle
  · exact False.elim

theorem refusing_sismember (key member : String) : Refusing now (sismember now key member) := by
  refine refusing_whenOnline now fun s ↦ ?_
  have hsettle := alike_settle now s key
  simp only [getElem?_settle_self]
  rcases s.live? now key with _ | ⟨_ | _ | _, e⟩
  · exact False.elim
  · exact fun _ ↦ hsettle
  · exact fun _ ↦ hsettle
  · exact False.elim

theorem refusing_eval : Refusing now (eval : Store → Outcome α × Store) :=
  fun s _ ↦ Alike.refl now s

theorem refusing_publish (channel payload : String) : Refusing now (publish channel payload) :=
  refusing_whenOnline now fun _ hfailed ↦ hfailed.elim

theorem refusing_subscribe (channel : String) : Refusing now (subscribe channel) :=
  refusing_whenOnline now fun _ hfailed ↦ hfailed.elim

theorem publishMany_of_offline {s : Store} (hoffline : s.offline = true) {channel : String}
    (payloads : List String) : (publishMany channel payloads s).2 = s := by
  cases payloads with
  | nil => rfl
  | cons payload rest => simp only [publishMany, publish, whenOnline, hoffline, if_true]

theorem not_failed_publishMany (channel : String) (payloads : List String) {s : Store}
    (honline : s.offline = false) : ¬ (publishMany channel payloads s).1.Failed := by
  induction payloads generalizing s with
  | nil => exact not_false
  | cons payload rest ih =>
    simp only [publishMany, publish, whenOnline, honline, Bool.false_eq_true, if_false]
    exact ih rfl

/-- To publish does not change the connection: where one of several payloads is refused, the first
of them is, and none is published. -/
theorem refusing_publishMany (channel : String) (payloads : List String) :
    Refusing now (publishMany channel payloads) := by
  intro s hfailed
  cases hoffline : s.offline with
  | true =>
    rw [publishMany_of_offline hoffline]
    exact Alike.refl now s
  | false => exact absurd hfailed (not_failed_publishMany channel payloads hoffline)

/-- A read that fails counts a miss where it has found no live value, and does nothing else. -/
theorem spared_get (key : String) {s : Store} :
    (get now key s).1.Failed →
      Spared now (if s.Misses now key then 1 else 0) s (get now key s).2 := by
  cases hoffline : s.offline with
  | true =>
    have hfound : ¬ s.Misses now key := fun hmisses ↦ by
      rw [Misses, hoffline] at hmisses
      exact Bool.noConfusion hmisses.1
    rw [if_neg hfound]
    simp only [get, whenOnline, hoffline, if_true]
    exact fun _ ↦ (Alike.refl now s).spared
  | false =>
    have hsettle := (alike_settle now s key).spared
    simp only [get, whenOnline, hoffline, Bool.false_eq_true, if_false, getElem?_settle_self,
      Misses, true_and]
    rcases s.live? now key with _ | ⟨_ | _ | _, e⟩
    · exact fun _ ↦
        ⟨hsettle.live, congrArg (fun f ↦ { f with misses := f.misses + 1 }) hsettle.frame⟩
    · exact False.elim
    · exact fun _ ↦ hsettle
    · exact fun _ ↦ hsettle

/-- The misses that a request counts where it fails. -/
def Request.missed (now : Nat) (s : Store) : Request → Nat
  | .get key => if s.Misses now key then 1 else 0
  | _ => 0

/-- A request that fails does nothing, except that a read that finds no live value counts a miss. -/
theorem Request.spared (r : Request) {s : Store} (hfailed : (r.apply now s).1.Failed) :
    Spared now (r.missed now s) s (r.apply now s).2 := by
  cases r with
  | get key => exact spared_get now key hfailed
  | contains key => exact (refusing_contains now key s hfailed).spared
  | set key value ttl => exact (refusing_set now key value ttl s hfailed).spared
  | del key => exact (refusing_del now key s hfailed).spared
  | incr key => exact (refusing_incr now key s hfailed).spared
  | rpush key values => exact (refusing_rpush now key values s hfailed).spared
  | pop keys => exact (refusing_tryPop now keys s hfailed).spared
  | ltrim key start stop => exact (refusing_ltrim now key start stop s hfailed).spared
  | sadd key members => exact (refusing_sadd now key members s hfailed).spared
  | sismember key member => exact (refusing_sismember now key member s hfailed).spared
  | eval => exact (refusing_eval now s hfailed).spared

end Store

end TwoTier
