import TwoTier.Proofs.Store.Refusal

/-!
# Independent requests commute

What a request answers and what it does depends on nothing but what the keys that it names show, and
on whether the store is online. Whatever the store is otherwise, it puts the same values under some
of these keys, removes the same of them, and counts the same (`Store.Confined`). So it changes
nothing of a key that it does not name, and of two requests that name no key in common each finds
what it would have found without the other: they can be made in either order
(`Store.Request.commute`).
-/

set_option autoImplicit false
set_option relaxedAutoImplicit false

namespace TwoTier

namespace Store

/-- The keys that a request names. -/
def Request.keys : Request → List String
  | get key => [key]
  | contains key => [key]
  | set key _ _ => [key]
  | del key => [key]
  | incr key => [key]
  | rpush key _ => [key]
  | pop keys => keys
  | ltrim key _ _ => [key]
  | sadd key _ => [key]
  | sismember key _ => [key]
  | eval => []

/-! ### Effects -/

/-- What is done to a store, as far as it can be seen. -/
structure Effect where
  /-- What a key shows afterwards, where this is changed. -/
  write : String → Option (Option Stored)
  /-- The hits that are counted. -/
  hits : Nat
  /-- The misses that are counted. -/
  misses : Nat
  /-- The pushes that are counted. -/
  pushes : Nat

namespace Effect

/-- Nothing is done. -/
def idle : Effect := ⟨fun _ ↦ none, 0, 0, 0⟩

/-- One key shows something else. -/
def change (key : String) (x : Option Stored) : Effect :=
  ⟨fun j ↦ if j = key then some x else none, 0, 0, 0⟩

/-- A store in which the same was counted besides. -/
def count (f : Effect) (s : Store) : Store :=
  { s with hits := s.hits + f.hits, misses := s.misses + f.misses, pushes := s.pushes + f.pushes }

/-- No keys but some are changed. -/
def Within (keys : List String) (f : Effect) : Prop := ∀ j, j ∉ keys → f.write j = none

theorem within_idle (keys : List String) : idle.Within keys := fun _ _ ↦ rfl

theorem within_change {key : String} {keys : List String} (hkey : key ∈ keys) (x : Option Stored) :
    (change key x).Within keys :=
  fun _ hj ↦ if_neg fun hsame ↦ hj (by rw [hsame]; exact hkey)

end Effect

/-- At a moment, the second store is what an effect has made of the first. -/
structure Changed (now : Nat) (f : Effect) (s s' : Store) : Prop where
  /-- What the keys show. -/
  live : ∀ j, s'.live? now j = (f.write j).getD (s.live? now j)
  /-- What was counted, and that all else is the same. -/
  frame : s'.frame = f.count s.frame

namespace Changed

variable {now : Nat} {f : Effect} {s s' : Store}

theorem idle (now : Nat) (s : Store) : Changed now .idle s s := ⟨fun _ ↦ rfl, rfl⟩

/-- Nobody can tell whether a key was settled before. -/
theorem of_settle {key : String} (h : Changed now f (s.settle now key) s') :
    Changed now f s s' where
  live j := by rw [h.live, live?_settle]
  frame := by rw [h.frame, frame_settle]

theorem settle (now : Nat) (key : String) (s : Store) : Changed now .idle s (s.settle now key) :=
  of_settle (idle now (s.settle now key))

theorem put (key : String) {x : Stored} (s : Store) (hlive : x.expiry.live now = true) :
    Changed now (.change key (some x)) s (s.put key x) where
  live j := by
    rw [live?_put _ _ _ hlive]
    dsimp only [Effect.change]
    split_ifs <;> rfl
  frame := rfl

theorem drop (now : Nat) (key : String) (s : Store) :
    Changed now (.change key none) s (s.drop key) where
  live j := by
    rw [live?_drop]
    dsimp only [Effect.change]
    split_ifs <;> rfl
  frame := rfl

/-- Something is counted besides. -/
theorem count (h : Changed now f s s') (hits misses pushes : Nat) :
    Changed now { f with
      hits := f.hits + hits, misses := f.misses + misses, pushes := f.pushes + pushes } s
      { s' with
        hits := s'.hits + hits, misses := s'.misses + misses, pushes := s'.pushes + pushes } where
  live := h.live
  frame := by
    have hhits : s'.hits = s.hits + f.hits := congrArg Store.hits h.frame
    have hmisses : s'.misses = s.misses + f.misses := congrArg Store.misses h.frame
    have hpushes : s'.pushes = s.pushes + f.pushes := congrArg Store.pushes h.frame
    have hframe := congrArg (Effect.count ⟨fun _ ↦ none, hits, misses, pushes⟩) h.frame
    unfold Effect.count at hframe ⊢
    simp only [Nat.add_assoc] at hframe ⊢
    exact hframe

theorem offline_eq (h : Changed now f s s') : s'.offline = s.offline := by
  have hoffline := congrArg Store.offline h.frame
  exact hoffline

/-- A key that an effect leaves out shows the same. -/
theorem live_of_within {keys : List String} (h : Changed now f s s') (hf : f.Within keys)
    {j : String} (hj : j ∉ keys) : s'.live? now j = s.live? now j := by
  rw [h.live, hf j hj]
  rfl

end Changed

/-! ### What depends on some keys only -/

/-- An operation that looks at no keys but some and changes no others: on all stores that show the
same under these keys, and are all online or all offline, it answers the same and does the same. -/
def Confined {α : Type} (now : Nat) (keys : List String) (op : Store → Outcome α × Store) : Prop :=
  ∀ s : Store, ∃ a f, Effect.Within keys f ∧ ∀ s' : Store, s'.offline = s.offline →
    (∀ j ∈ keys, s'.live? now j = s.live? now j) → (op s').1 = a ∧ Changed now f s' (op s').2

/-- On all stores where a key shows `x`, an operation answers the same and does the same, to this
key only. -/
def FixedAt {α : Type} (now : Nat) (key : String) (op : Store → Outcome α × Store)
    (x : Option Stored) : Prop :=
  ∃ a f, Effect.Within [key] f ∧
    ∀ s : Store, s.live? now key = x → (op s).1 = a ∧ Changed now f s (op s).2

namespace FixedAt

variable {α : Type} {now : Nat} {key : String} {op : Store → Outcome α × Store} {x : Option Stored}

/-- It does nothing but settle the key, and may count something. -/
theorem counted (a : Outcome α) (hits misses : Nat) (h : ∀ s : Store, s.live? now key = x →
    op s = (a, { s.settle now key with
      hits := (s.settle now key).hits + hits, misses := (s.settle now key).misses + misses })) :
    FixedAt now key op x := by
  refine ⟨a, ⟨fun _ ↦ none, hits, misses, 0⟩, fun _ _ ↦ rfl, fun s hs ↦ ?_⟩
  have hcount := (Changed.settle now key s).count hits misses 0
  rw [h s hs]
  simp only [Effect.idle, Nat.zero_add, Nat.add_zero] at hcount
  exact ⟨rfl, hcount⟩

theorem kept (a : Outcome α) (h : ∀ s : Store, s.live? now key = x → op s = (a, s.settle now key)) :
    FixedAt now key op x := counted a 0 0 h

/-- It puts a value under the key, and may count a push. -/
theorem pushed (a : Outcome α) (pushes : Nat) (y : Stored) (hy : y.expiry.live now = true)
    (h : ∀ s : Store, s.live? now key = x → op s = (a, { (s.settle now key).put key y with
      pushes := (s.settle now key).pushes + pushes })) : FixedAt now key op x := by
  refine ⟨a, { Effect.change key (some y) with pushes := pushes },
    Effect.within_change List.mem_cons_self _, fun s hs ↦ ?_⟩
  have hput : Changed now (.change key (some y)) s ((s.settle now key).put key y) :=
    (Changed.put key _ hy).of_settle
  have hcount := hput.count 0 0 pushes
  rw [h s hs]
  simp only [Effect.change, Nat.zero_add] at hcount
  exact ⟨rfl, hcount⟩

theorem put (a : Outcome α) (y : Stored) (hy : y.expiry.live now = true)
    (h : ∀ s : Store, s.live? now key = x → op s = (a, (s.settle now key).put key y)) :
    FixedAt now key op x := pushed a 0 y hy h

/-- It removes the key. -/
theorem dropped (a : Outcome α)
    (h : ∀ s : Store, s.live? now key = x → op s = (a, (s.settle now key).drop key)) :
    FixedAt now key op x := by
  refine ⟨a, .change key none, Effect.within_change List.mem_cons_self _, fun s hs ↦ ?_⟩
  rw [h s hs]
  exact ⟨rfl, (Changed.drop now key _).of_settle⟩

end FixedAt

section Confined

variable {α : Type} (now : Nat) (key : String)

/-- An operation on a store that is online and of which it matters what one key shows. -/
theorem confined_of_live {op : Store → Outcome α × Store}
    (hop : ∀ x : Option Stored, (∀ y, x = some y → y.expiry.live now = true) →
      FixedAt now key op x) : Confined now [key] (whenOnline op) := by
  intro s
  cases hoffline : s.offline with
  | true =>
    refine ⟨.fault .refused, .idle, Effect.within_idle _, fun s' hs' _ ↦ ?_⟩
    rw [whenOnline, if_pos hs']
    exact ⟨rfl, .idle now s'⟩
  | false =>
    obtain ⟨a, f, hf, hrun⟩ := hop (s.live? now key) fun _ ↦ live_of_live?
    refine ⟨a, f, hf, fun s' hs' hlive ↦ ?_⟩
    rw [whenOnline, if_neg (by rw [hs']; exact Bool.false_ne_true)]
    exact hrun s' (hlive key (List.mem_singleton_self key))

theorem confined_get : Confined now [key] (get now key) := by
  refine confined_of_live now key fun x _ ↦ ?_
  rcases x with _ | ⟨value | _ | _, e⟩
  · exact .counted (.fault .notFound) 0 1 fun s hs ↦ by
      simp only [getElem?_settle_self, hs, Nat.add_zero]
  · exact .counted (.ok value) 1 0 fun s hs ↦ by
      simp only [getElem?_settle_self, hs, Nat.add_zero]
  all_goals
    exact .kept (.fault (.wrongKind key)) fun s hs ↦ by simp only [getElem?_settle_self, hs]

theorem confined_contains : Confined now [key] (contains now key) :=
  confined_of_live now key fun x _ ↦ .kept (.ok x.isSome) fun s hs ↦ by
    simp only [getElem?_settle_self, hs]

theorem confined_set (value : String) (ttl : Nat) :
    Confined now [key] (set now key value ttl) := by
  refine confined_of_live now key fun _ _ ↦ ?_
  cases hafter : Expiry.after now ttl with
  | none => exact ⟨.overflow, .idle, Effect.within_idle _, fun s _ ↦ ⟨rfl, .idle now s⟩⟩
  | some e =>
    refine ⟨.ok (), .change key (some ⟨.text value, e⟩), Effect.within_change List.mem_cons_self _,
      fun s _ ↦ ⟨rfl, ?_⟩⟩
    exact .put key s (Expiry.live_of_after hafter)

theorem confined_del : Confined now [key] (del key) :=
  confined_of_live now key fun _ _ ↦ ⟨.ok (), .change key none,
    Effect.within_change List.mem_cons_self _, fun s _ ↦ ⟨rfl, .drop now key s⟩⟩

theorem confined_incr : Confined now [key] (incr now key) := by
  refine confined_of_live now key fun x hx ↦ ?_
  rcases x with _ | ⟨value | _ | _, e⟩
  · exact .put (.ok 1) ⟨.text "1", .never⟩ (Expiry.live_never now) fun s hs ↦ by
      simp only [getElem?_settle_self, hs]
  · cases hnumber : (Text.Numeral.readInt64 value).bind Text.Numeral.succ? with
    | none =>
      exact .kept (.fault .notAnInteger) fun s hs ↦ by
        simp only [getElem?_settle_self, hs, hnumber]
    | some n =>
      have he : e.live now = true := hx _ rfl
      exact .put (.ok n) ⟨.text (Text.Numeral.decimal n), e⟩ he fun s hs ↦ by
        simp only [getElem?_settle_self, hs, hnumber]
  all_goals
    exact .kept (.fault (.wrongKind key)) fun s hs ↦ by simp only [getElem?_settle_self, hs]

theorem confined_rpush (values : List String) : Confined now [key] (rpush now key values) := by
  refine confined_of_live now key fun x hx ↦ ?_
  rcases x with _ | ⟨_ | items | _, e⟩
  · exact .pushed (.ok ()) 1 ⟨.list values, .never⟩ (Expiry.live_never now) fun s hs ↦ by
      simp only [getElem?_settle_self, hs]
  rotate_left
  · have he : e.live now = true := hx _ rfl
    exact .pushed (.ok ()) 1 ⟨.list (items ++ values), e⟩ he fun s hs ↦ by
      simp only [getElem?_settle_self, hs]
  all_goals
    exact .kept (.fault (.wrongKind key)) fun s hs ↦ by simp only [getElem?_settle_self, hs]

/-- An attempt to pop looks at its keys in turn; those that it passes over are only settled. -/
theorem confined_tryPop (keys : List String) : Confined now keys (tryPop now keys) := by
  induction keys with
  | nil => exact fun _ ↦ ⟨.ok none, .idle, Effect.within_idle _, fun s' _ _ ↦ ⟨rfl, .idle now s'⟩⟩
  | cons key rest ih =>
    intro s
    have hpassed (hpass : ∀ s' : Store, s'.live? now key = s.live? now key →
        tryPop now (key :: rest) s' = tryPop now rest (s'.settle now key)) :
        ∃ a f, Effect.Within (key :: rest) f ∧ ∀ s' : Store, s'.offline = s.offline →
          (∀ j ∈ key :: rest, s'.live? now j = s.live? now j) →
          (tryPop now (key :: rest) s').1 = a ∧
            Changed now f s' (tryPop now (key :: rest) s').2 := by
      obtain ⟨a, f, hf, hrun⟩ := ih s
      refine ⟨a, f, fun j hj ↦ hf j fun hmem ↦ hj (List.mem_cons_of_mem key hmem),
        fun s' hoffline hlive ↦ ?_⟩
      obtain ⟨hkey, hrest⟩ := List.forall_mem_cons.mp hlive
      rw [hpass s' hkey]
      obtain ⟨ha, hchanged⟩ := hrun (s'.settle now key) ((offline_settle ..).trans hoffline)
        fun j hj ↦ (live?_settle ..).trans (hrest j hj)
      exact ⟨ha, hchanged.of_settle⟩
    rcases hlive : s.live? now key with _ | ⟨_ | items | _, e⟩
    · exact hpassed fun s' hs' ↦ by simp only [tryPop, getElem?_settle_self, hs', hlive]
    · refine ⟨.fault (.wrongKind key), .idle, Effect.within_idle _, fun s' _ hsame ↦ ?_⟩
      have hs' := (hsame key List.mem_cons_self).trans hlive
      simp only [tryPop, getElem?_settle_self, hs', true_and]
      exact Changed.settle now key s'
    · have he : e.live now = true := live_of_live? hlive
      rcases items with _ | ⟨value, _ | ⟨next, items⟩⟩
      · exact hpassed fun s' hs' ↦ by simp only [tryPop, getElem?_settle_self, hs', hlive]
      · refine ⟨.ok (some (key, value)), .change key none,
          Effect.within_change List.mem_cons_self _, fun s' _ hsame ↦ ?_⟩
        have hs' := (hsame key List.mem_cons_self).trans hlive
        simp only [tryPop, getElem?_settle_self, hs', true_and]
        exact (Changed.drop now key _).of_settle
      · refine ⟨.ok (some (key, value)), .change key (some ⟨.list (next :: items), e⟩),
          Effect.within_change List.mem_cons_self _, fun s' _ hsame ↦ ?_⟩
        have hs' := (hsame key List.mem_cons_self).trans hlive
        simp only [tryPop, getElem?_settle_self, hs', true_and]
        exact (Changed.put key _ he).of_settle
    · refine ⟨.fault (.wrongKind key), .idle, Effect.within_idle _, fun s' _ hsame ↦ ?_⟩
      have hs' := (hsame key List.mem_cons_self).trans hlive
      simp only [tryPop, getElem?_settle_self, hs', true_and]
      exact Changed.settle now key s'

theorem confined_ltrim (start stop : Int) : Confined now [key] (ltrim now key start stop) := by
  refine confined_of_live now key fun x hx ↦ ?_
  rcases x with _ | ⟨_ | items | _, e⟩
  · exact .kept (.ok ()) fun s hs ↦ by simp only [getElem?_settle_self, hs]
  rotate_left
  · cases hrange : resolveRange items.length start stop with
    | none =>
      exact .dropped (.ok ()) fun s hs ↦ by simp only [getElem?_settle_self, hs, hrange]
    | some range =>
      have he : e.live now = true := hx _ rfl
      exact .put (.ok ()) ⟨.list ((items.take (range.2 + 1)).drop range.1), e⟩ he fun s hs ↦ by
        simp only [getElem?_settle_self, hs, hrange]
  all_goals
    exact .kept (.fault (.wrongKind key)) fun s hs ↦ by simp only [getElem?_settle_self, hs]

theorem confined_sadd (new : List String) : Confined now [key] (sadd now key new) := by
  refine confined_of_live now key fun x hx ↦ ?_
  rcases x with _ | ⟨_ | _ | members, e⟩
  · exact .put (.ok ()) ⟨.set (.ofList new), .never⟩ (Expiry.live_never now) fun s hs ↦ by
      simp only [getElem?_settle_self, hs]
  rotate_left 2
  · have he : e.live now = true := hx _ rfl
    exact .put (.ok ()) ⟨.set (members.insertMany new), e⟩ he fun s hs ↦ by
      simp only [getElem?_settle_self, hs]
  all_goals
    exact .kept (.fault (.wrongKind key)) fun s hs ↦ by simp only [getElem?_settle_self, hs]

theorem confined_sismember (member : String) :
    Confined now [key] (sismember now key member) := by
  refine confined_of_live now key fun x _ ↦ ?_
  rcases x with _ | ⟨_ | _ | members, e⟩
  · exact .kept (.ok false) fun s hs ↦ by simp only [getElem?_settle_self, hs]
  rotate_left 2
  · exact .kept (.ok (members.contains member)) fun s hs ↦ by
      simp only [getElem?_settle_self, hs]
  all_goals
    exact .kept (.fault (.wrongKind key)) fun s hs ↦ by simp only [getElem?_settle_self, hs]

end Confined

/-- Every request is confined to the keys that it names. -/
theorem Request.confined (r : Request) (now : Nat) : Confined now r.keys (r.apply now) := by
  cases r with
  | get key => exact confined_get now key
  | contains key => exact confined_contains now key
  | set key value ttl => exact confined_set now key value ttl
  | del key => exact confined_del now key
  | incr key => exact confined_incr now key
  | rpush key values => exact confined_rpush now key values
  | pop keys => exact confined_tryPop now keys
  | ltrim key start stop => exact confined_ltrim now key start stop
  | sadd key members => exact confined_sadd now key members
  | sismember key member => exact confined_sismember now key member
  | eval =>
    exact fun _ ↦ ⟨.fault (.unsupported "eval" "memory"), .idle, Effect.within_idle _,
      fun s _ _ ↦ ⟨rfl, .idle now s⟩⟩

namespace Confined

variable {α β : Type} {now : Nat} {keys others : List String} {op : Store → Outcome α × Store}
  {other : Store → Outcome β × Store}

/-- An operation changes nothing of a key to which it is not confined, and neither takes a store
offline nor brings it back. -/
theorem spares (h : Confined now keys op) (s : Store) :
    (∀ j, j ∉ keys → (op s).2.live? now j = s.live? now j) ∧ (op s).2.offline = s.offline := by
  obtain ⟨a, f, hf, hrun⟩ := h s
  obtain ⟨-, hchanged⟩ := hrun s rfl fun _ _ ↦ rfl
  exact ⟨fun j hj ↦ hchanged.live_of_within hf hj, hchanged.offline_eq⟩

/-- Operations that are confined to different keys can be run in either order. -/
theorem reorder (h : Confined now keys op) (hother : Confined now others other)
    (hdisjoint : keys.Disjoint others) (s : Store) :
    (op (other s).2).1 = (op s).1 ∧ (other (op s).2).1 = (other s).1 ∧
      Alike now (op (other s).2).2 (other (op s).2).2 := by
  obtain ⟨hspared, honline⟩ := h.spares s
  obtain ⟨hspared', honline'⟩ := hother.spares s
  obtain ⟨a, f, hf, hrun⟩ := h s
  obtain ⟨b, g, hg, hrun'⟩ := hother s
  obtain ⟨ha, hchanged⟩ := hrun s rfl fun _ _ ↦ rfl
  obtain ⟨hb, hchanged'⟩ := hrun' s rfl fun _ _ ↦ rfl
  -- each finds its keys as they were without the other
  obtain ⟨ha', hlast⟩ := hrun (other s).2 honline' fun j hj ↦ hspared' j (hdisjoint hj)
  obtain ⟨hb', hlast'⟩ := hrun' (op s).2 honline fun j hj ↦ hspared j fun hj' ↦ hdisjoint hj' hj
  refine ⟨ha'.trans ha.symm, hb'.trans hb.symm, funext fun j ↦ ?_, ?_⟩
  · rw [hlast'.live, hchanged.live, hlast.live, hchanged'.live]
    by_cases hj : j ∈ keys
    · rw [hg j (hdisjoint hj)]
      rfl
    · rw [hf j hj]
      rfl
  · rw [hlast'.frame, hchanged.frame, hlast.frame, hchanged'.frame]
    unfold Effect.count
    dsimp only
    rw [Nat.add_right_comm _ f.hits, Nat.add_right_comm _ f.misses, Nat.add_right_comm _ f.pushes]

end Confined

/-- Two requests that name no key in common can be made in either order, at any moment and in any
store: both are answered the same, also where they fail, and what the store shows afterwards, with
the deadlines, is the same under every key, and so is all that it counts. What a request does not
name it does not change. -/
theorem Request.commute (r q : Request) (hdisjoint : r.keys.Disjoint q.keys) (now : Nat)
    (s : Store) :
    ((r.apply now (q.apply now s).2).1 = (r.apply now s).1 ∧
      (q.apply now (r.apply now s).2).1 = (q.apply now s).1 ∧
      Alike now (r.apply now (q.apply now s).2).2 (q.apply now (r.apply now s).2).2) ∧
    ∀ key, key ∉ r.keys → (r.apply now s).2.live? now key = s.live? now key :=
  ⟨(r.confined now).reorder (q.confined now) hdisjoint s, ((r.confined now).spares s).1⟩

/-- An attempt to pop passes over a key that has expired and takes the only element of a list, while
another key is counted. -/
theorem Request.commute_of_pop_and_incr :
    let r : Request := .pop ["a", "b"]
    let q : Request := .incr "c"
    let s := ((Store.empty.put "a" ⟨.text "x", .due 5⟩).put "b" ⟨.list ["y"], .never⟩).put "c"
      ⟨.text "+7", .due 20⟩
    r.keys.Disjoint q.keys ∧
      (Store.tryPop 9 ["a", "b"] (Store.incr 9 "c" s).2).1 = .ok (some ("b", "y")) ∧
      (Store.incr 9 "c" (Store.tryPop 9 ["a", "b"] s).2).1 = .ok 8 ∧
      Alike 9 (Store.tryPop 9 ["a", "b"] (Store.incr 9 "c" s).2).2
        (Store.incr 9 "c" (Store.tryPop 9 ["a", "b"] s).2).2 := by
  intro r q s
  have hdisjoint : r.keys.Disjoint q.keys := by
    intro j hr hq
    obtain rfl := List.mem_singleton.mp hq
    exact absurd hr (by decide)
  obtain ⟨⟨hr, hq, halike⟩, -⟩ := Request.commute r q hdisjoint 9 s
  have hpopped : (Store.tryPop 9 ["a", "b"] s).1 = .ok (some ("b", "y")) := by decide +kernel
  have hcounted : (Store.incr 9 "c" s).1 = .ok 8 := by decide +kernel
  exact ⟨hdisjoint, hr.trans hpopped, hq.trans hcounted, halike⟩

end Store

end TwoTier
