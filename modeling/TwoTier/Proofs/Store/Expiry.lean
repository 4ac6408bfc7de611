import TwoTier.Proofs.Store.Fate
import TwoTier.Tier.Store

/-!
# Expiry cannot be observed

Nothing tells a store that still holds what has expired from one that does not
(`Store.Reached.expiry_unseen`): a request is answered the same on both and leaves both alike, and
so does a call that waits for an element or that reads a value to be fetched, up to its first wait.

Only texts ever carry a deadline, and a deadline that is shown was set for that text: since then the
key has shown a text with it at every request (`Store.Dated`). Neither a key that has expired nor
one whose list was emptied hands its deadline down.
-/

set_option autoImplicit false
set_option relaxedAutoImplicit false

namespace TwoTier

/-! ### Calls on alike stores -/

/-- Two heaps that agree in everything but one store, and there show the same. -/
structure Heap.Alike (s : Nat) (h h' : Heap) : Prop where
  /-- The stores are alike. -/
  store : Store.Alike h.now (h.tiers.store s) (h'.tiers.store s)
  /-- With the same store in its place, the heaps are the same. -/
  rest : ∀ x, { h' with tiers := h'.tiers.setStore s x } = { h with tiers := h.tiers.setStore s x }

/-- The heap with nothing in a store that has expired. -/
def Heap.purge (h : Heap) (s : Nat) : Heap :=
  { h with tiers := h.tiers.setStore s ((h.tiers.store s).purge h.now) }

theorem Tiers.setStore_setStore (t : Tiers) (s : Nat) (x y : Store) :
    (t.setStore s x).setStore s y = t.setStore s y := by
  have hstores : (t.stores.insert s x).insert s y = t.stores.insert s y := by
    refine Std.ExtTreeMap.ext_getElem? fun {i} ↦ ?_
    rw [Dict.getElem?_insert, Dict.getElem?_insert, Dict.getElem?_insert]
    split_ifs <;> rfl
  exact congrArg (fun stores ↦ { t with stores := stores }) hstores

namespace Heap.Alike

variable {s : Nat} {h h' : Heap}

theorem purge (h : Heap) (s : Nat) : Alike s h (h.purge s) where
  store := by
    unfold Heap.purge
    rw [Tiers.store_setStore, if_pos rfl]
    exact Store.alike_purge _ _
  rest x := by
    unfold Heap.purge
    rw [Tiers.setStore_setStore]

variable (hsame : Alike s h h')

include hsame

/-- Only the tiers differ. -/
theorem exists_tiers : ∃ t, h' = { h with tiers := t } := by
  have hnow := congrArg Heap.now (hsame.rest default)
  have hguards := congrArg Heap.guards (hsame.rest default)
  have hlocks := congrArg Heap.locks (hsame.rest default)
  have hthread := congrArg Heap.nextThread (hsame.rest default)
  obtain ⟨now, tiers, guards, locks, nextThread⟩ := h'
  exact ⟨tiers, Heap.mk.injEq .. |>.mpr ⟨hnow, rfl, hguards, hlocks, hthread⟩⟩

/-- Alike stores are put in the place of alike stores. -/
theorem setStore {x x' : Store} (hx : Store.Alike h.now x x') :
    Alike s { h with tiers := h.tiers.setStore s x }
      { h' with tiers := h'.tiers.setStore s x' } where
  store := by
    dsimp only
    rw [Tiers.store_setStore, Tiers.store_setStore, if_pos rfl, if_pos rfl]
    exact hx
  rest y := by
    dsimp only
    rw [Tiers.setStore_setStore, Tiers.setStore_setStore]
    exact hsame.rest y

theorem setGuard (g : Nat) (x : Guard) : Alike s (h.setGuard g x) (h'.setGuard g x) where
  store := hsame.store
  rest y := by
    have hrest := congrArg (fun a : Heap ↦ a.setGuard g x) (hsame.rest y)
    exact hrest

theorem withNextThread (n : Nat) :
    Alike s { h with nextThread := n } { h' with nextThread := n } where
  store := hsame.store
  rest y := by
    have hrest := congrArg (fun a : Heap ↦ { a with nextThread := n }) (hsame.rest y)
    exact hrest

end Heap.Alike

/-- Two calls have come equally far: the same fills were started, the same is left to do, and the
heaps are alike. -/
structure Progress.Alike {α : Type} (s : Nat) (p p' : Progress α) : Prop where
  /-- What is left to do. -/
  rest : p'.rest = p.rest
  /-- The fills. -/
  fills : p'.fills = p.fills
  /-- The heaps. -/
  heap : Heap.Alike s p.heap p'.heap

namespace Call

variable {α β : Type} {s : Nat}

/-- A call whose first step leads to the same on heaps that are alike. -/
def Uniform (s : Nat) (c : Call α) : Prop :=
  ∀ (me : Nat) {h h' : Heap} (fills : List Fill), Heap.Alike s h h' →
    Progress.Alike s (c.exec me h fills) (c.exec me h' fills)

namespace Uniform

theorem done (a : α) : Uniform s (done a) := fun _ _ _ _ hsame ↦ ⟨rfl, rfl, hsame⟩

/-- A call that asks a store something goes on with the same answer. -/
theorem onStore {op : Nat → Store → Outcome α × Store} (hop : ∀ now, Store.Uniform now (op now))
    {k : Answer α → Call β} (hk : ∀ a, Uniform s (k a)) : Uniform s (Call.onStore s op >>= k) := by
  intro me h h' fills hsame
  obtain ⟨t, rfl⟩ := hsame.exists_tiers
  obtain ⟨hanswer, hstores⟩ := hop h.now hsame.store
  have hnext := hsame.setStore hstores
  simp only [Bind.bind, Call.onStore, Call.bind, exec, hanswer]
  cases (op h.now (h.tiers.store s)).1 with
  | ok a => exact hk (.ok a) me fills hnext
  | fault f => exact hk (.error f) me fills hnext
  | overflow => exact ⟨rfl, rfl, hnext⟩

/-- The wait for a fill is begun in the same way. -/
theorem join (g : Nat) (key : String) (fill : Call (Answer String)) (k : Answer String → Call α) :
    Uniform s (join g key fill k) := by
  intro me h h' fills hsame
  obtain ⟨t, rfl⟩ := hsame.exists_tiers
  have hguard : ({ h with tiers := t } : Heap).guard g = h.guard g := rfl
  simp only [exec, hguard]
  cases (h.guard g).inFlight[key]? with
  | some i => exact ⟨rfl, rfl, hsame.setGuard g _⟩
  | none => exact ⟨rfl, rfl, (hsame.setGuard g _).withNextThread _⟩

/-- An attempt to pop finds the same, and waits or goes on in the same way. -/
theorem pop {keys : List String} {deadline seen : Option Nat}
    {k : Answer (Option (String × String)) → Call α} (hk : ∀ a, Uniform s (k a)) :
    Uniform s (pop s keys deadline seen k) := by
  intro me h h' fills hsame
  obtain ⟨t, rfl⟩ := hsame.exists_tiers
  obtain ⟨hanswer, hstores⟩ := Store.uniform_tryPop h.now keys hsame.store
  have hpushes := hsame.store.pushes
  have hnext := hsame.setStore hstores
  dsimp only at hanswer hpushes
  simp only [exec, hpushes, hanswer]
  split_ifs
  · exact hk (.ok none) me fills hsame
  · exact ⟨rfl, rfl, hsame⟩
  · cases (Store.tryPop h.now keys (h.tiers.store s)).1 with
    | ok a =>
      cases a with
      | some x => exact hk (.ok (some x)) me fills hnext
      | none => exact hk (.ok none) me fills hnext
    | fault f => exact hk (.error f) me fills hnext
    | overflow => exact hk (.ok none) me fills hnext
  · cases (Store.tryPop h.now keys (h.tiers.store s)).1 with
    | ok a =>
      cases a with
      | some x => exact hk (.ok (some x)) me fills hnext
      | none => exact ⟨rfl, rfl, hnext⟩
    | fault f => exact hk (.error f) me fills hnext
    | overflow => exact ⟨rfl, rfl, hnext⟩

end Uniform

end Call

/-- A call to read or fetch a value goes the same way on alike stores, up to its fill. -/
theorem StoreHandle.uniform_getOrSet (x : StoreHandle) (key : String) (ttl : Nat) (fetch : Fetch) :
    Call.Uniform x.store (x.tier.getOrSet key ttl fetch) := by
  refine Call.Uniform.onStore (fun now ↦ Store.uniform_get now key) fun answer ↦ ?_
  rcases answer with f | v
  · cases f <;> first | exact Call.Uniform.join _ _ _ _ | exact Call.Uniform.done _
  · exact Call.Uniform.done _

/-- A call that waits for an element goes the same way on alike stores. -/
theorem StoreHandle.uniform_blpop (x : StoreHandle) (timeout : Nat) (keys : List String) :
    Call.Uniform x.store (x.tier.blpop timeout keys) := by
  intro me h h' fills hsame
  obtain ⟨t, rfl⟩ := hsame.exists_tiers
  have hoffline := hsame.store.offline
  dsimp only at hoffline
  simp only [StoreHandle.tier, StoreHandle.blpop, Call.exec, hoffline]
  split_ifs
  · exact ⟨rfl, rfl, hsame⟩
  all_goals
    refine Call.Uniform.pop (fun answer ↦ ?_) me fills hsame
    rcases answer with f | _ | ⟨key, value⟩ <;> exact Call.Uniform.done _

namespace Store

/-! ### Where deadlines come from -/

/-- A request that gave a text this expiry. -/
def Event.Sets (event : Event) (key : String) (e : Expiry) : Prop :=
  ∃ value ttl, event.request = .set key value ttl ∧ Expiry.after event.now ttl = some e

/-- An expiry was given to a text of the key, and since then every request has found the key with a
text that has it. -/
def Dated (history : List Event) (key : String) (e : Expiry) : Prop :=
  ∃ newer event older, history = newer ++ event :: older ∧ event.Sets key e ∧
    ∀ later ∈ newer, ∃ value, later.before.live? later.now key = some ⟨.text value, e⟩

/-- A text that has been shown and is still shown is as old as it was. -/
theorem Dated.cons {history : List Event} {key : String} {e : Expiry} (h : Dated history key e)
    {event : Event} {value : String}
    (hshown : event.before.live? event.now key = some ⟨.text value, e⟩) :
    Dated (event :: history) key e := by
  obtain ⟨newer, set, older, rfl, hset, hnewer⟩ := h
  exact ⟨event :: newer, set, older, rfl, hset,
    List.forall_mem_cons.mpr ⟨⟨value, hshown⟩, hnewer⟩⟩

/-- What is shown never expires, or is a text that was given its deadline. -/
def Sourced (history : List Event) (key : String) (x : Stored) : Prop :=
  x.expiry = .never ∨ (∃ value, x.datum = .text value) ∧ Dated history key x.expiry

/-- A value of a list or a set never expires. -/
theorem Sourced.eq_never {history : List Event} {key : String} {x : Stored}
    (h : Sourced history key x) (hkind : ∀ value, x.datum ≠ .text value) : x.expiry = .never := by
  rcases h with hnever | ⟨⟨value, htext⟩, -⟩
  · exact hnever
  · exact absurd htext (hkind value)

/-- What a request leaves of a key has its deadline from where the key had it before, or from the
request. -/
theorem Fate.sourced {history : List Event} {now : Nat} {s : Store} {r : Request} {key : String}
    {x : Stored} (hfate : Fate now key r (s.live? now key) (some x))
    (hbefore : ∀ y, s.live? now key = some y → Sourced history key y) :
    Sourced (⟨now, s, r⟩ :: history) key x := by
  generalize hlive : s.live? now key = before at hfate
  cases hfate with
  | kept =>
    rcases hbefore x hlive with hnever | ⟨⟨value, htext⟩, hdated⟩
    · exact .inl hnever
    · obtain ⟨datum, expiry⟩ := x
      obtain rfl : datum = .text value := htext
      exact .inr ⟨⟨value, rfl⟩, hdated.cons hlive⟩
  | written hafter => exact .inr ⟨⟨_, rfl⟩, [], _, history, rfl, ⟨_, _, rfl, hafter⟩, nofun⟩
  | counted _ =>
    rcases hbefore _ hlive with hnever | ⟨-, hdated⟩
    · exact .inl hnever
    · exact .inr ⟨⟨_, rfl⟩, hdated.cons hlive⟩
  | begun => exact .inl rfl
  | listed => exact .inl rfl
  | gathered => exact .inl rfl
  | appended => exact .inl ((hbefore _ hlive).eq_never nofun)
  | popped _ _ => exact .inl ((hbefore _ hlive).eq_never nofun)
  | trimmed _ => exact .inl ((hbefore _ hlive).eq_never nofun)
  | joined => exact .inl ((hbefore _ hlive).eq_never nofun)

/-- In a store reached by requests, every deadline that is shown was given to the text that has
it. -/
theorem Reached.sourced {history : List Event} {now : Nat} {s : Store} (h : Reached history now s)
    {key : String} {x : Stored} (hx : s.live? now key = some x) : Sourced history key x := by
  induction h generalizing x with
  | start => exact absurd hx nofun
  | wait _ hle ih => exact ih (live?_of_later hle hx)
  | @request _ now s _ r ih =>
    have hfate := r.fate now s key
    rw [hx] at hfate
    exact hfate.sourced fun y hy ↦ ih hy
  | aside _ hdata ih =>
    rw [live?_congr hdata] at hx
    exact ih hx

/-- A key that showed nothing gets a deadline only from the request that sets it. -/
theorem Fate.fresh {now : Nat} {s : Store} {r : Request} {key : String} {x : Stored}
    (hfate : Fate now key r none (some x)) :
    x.expiry = .never ∨ (Event.mk now s r).Sets key x.expiry := by
  cases hfate with
  | written hafter => exact .inr ⟨_, _, rfl, hafter⟩
  | begun => exact .inl rfl
  | listed => exact .inl rfl
  | gathered => exact .inl rfl

/-- A list that had elements is not left without any. -/
theorem Fate.ne_nil {now : Nat} {r : Request} {key : String} {items : List String} {e e' : Expiry}
    (hitems : items ≠ []) :
    ¬ Fate now key r (some ⟨.list items, e⟩) (some ⟨.list [], e'⟩) := by
  intro hfate
  generalize hleft : ([] : List String) = left at hfate
  cases hfate with
  | kept => exact hitems hleft.symm
  | appended => exact hitems (List.append_eq_nil_iff.mp hleft.symm).1
  | popped _ hrest => exact hrest hleft.symm
  | trimmed hrange => exact drop_take_ne_nil hrange hleft.symm

/-! ### What can be seen of expiry -/

/-- The answers to requests that are made one after the other, each after a span of time. -/
def answers (now : Nat) : List (Nat × Request) → Store → List (Σ r : Request, Outcome r.Reply)
  | [], _ => []
  | (span, r) :: rest, s =>
    ⟨r, (r.apply (now + span) s).1⟩ :: answers (now + span) rest (r.apply (now + span) s).2

/-- No sequence of requests ever tells alike stores apart. -/
theorem Alike.answers_eq {now : Nat} {s s' : Store} (h : Alike now s s')
    (requests : List (Nat × Request)) : answers now requests s' = answers now requests s := by
  induction requests generalizing now s s' with
  | nil => rfl
  | cons request rest ih =>
    obtain ⟨span, r⟩ := request
    obtain ⟨hanswer, halike⟩ := r.uniform (now + span) (h.later (Nat.le_add_right now span))
    simp only [answers, hanswer, ih halike]

/-- What has expired cannot be told from what was never there, and no deadline is handed down. -/
structure ExpiryUnseen (history : List Event) (now : Nat) (s : Store) : Prop where
  /-- A request is answered as if all that has expired had been removed before. -/
  answer : ∀ r : Request, (r.apply now (s.purge now)).1 = (r.apply now s).1
  /-- It counts the same and leaves the same values, with the same deadlines. -/
  alike : ∀ r : Request, Alike now (r.apply now s).2 (r.apply now (s.purge now)).2
  /-- The number of keys is the same. -/
  size : (s.purge now).size now = s.size now
  /-- Nor do all later answers show whether it was removed. -/
  forever : ∀ requests, answers now requests (s.purge now) = answers now requests s
  /-- A call to read or fetch a value comes equally far, up to its fill. -/
  getOrSet : ∀ (x : StoreHandle) (h : Heap), h.now = now → h.tiers.store x.store = s →
    ∀ key ttl fetch me fills, Progress.Alike x.store
      ((x.tier.getOrSet key ttl fetch).exec me h fills)
      ((x.tier.getOrSet key ttl fetch).exec me (h.purge x.store) fills)
  /-- So does a call that waits for an element, up to its wait. -/
  blpop : ∀ (x : StoreHandle) (h : Heap), h.now = now → h.tiers.store x.store = s →
    ∀ timeout keys me fills, Progress.Alike x.store
      ((x.tier.blpop timeout keys).exec me h fills)
      ((x.tier.blpop timeout keys).exec me (h.purge x.store) fills)
  /-- Only a text has a deadline. -/
  text : ∀ key x, s.live? now key = some x → x.expiry ≠ .never → ∃ value, x.datum = .text value
  /-- It was set with the text, which has been there ever since. -/
  dated : ∀ key x, s.live? now key = some x → x.expiry ≠ .never → Dated history key x.expiry
  /-- A key that holds nothing, or nothing any more, has the deadline that it is set with, or
  none. -/
  fresh : ∀ (r : Request) key x, s.live? now key = none → (r.apply now s).2.live? now key = some x →
    x.expiry = .never ∨ (Event.mk now s r).Sets key x.expiry
  /-- A key whose list has been emptied holds nothing. -/
  emptied : ∀ (r : Request) key items e, s.live? now key = some ⟨.list items, e⟩ → items ≠ [] →
    ∀ e', (r.apply now s).2.live? now key ≠ some ⟨.list [], e'⟩

/-- In every store that requests have led to, expiry cannot be observed. -/
theorem Reached.expiry_unseen {history : List Event} {now : Nat} {s : Store}
    (h : Reached history now s) : ExpiryUnseen history now s where
  answer r := (r.uniform now (alike_purge s now)).1
  alike r := (r.uniform now (alike_purge s now)).2
  size := (alike_purge s now).size
  forever requests := (alike_purge s now).answers_eq requests
  getOrSet x h _ _ key ttl fetch me fills :=
    x.uniform_getOrSet key ttl fetch me fills (Heap.Alike.purge h x.store)
  blpop x h _ _ timeout keys me fills :=
    x.uniform_blpop timeout keys me fills (Heap.Alike.purge h x.store)
  text key x hx hdue := by
    rcases h.sourced hx with hnever | ⟨htext, -⟩
    · exact absurd hnever hdue
    · exact htext
  dated key x hx hdue := by
    rcases h.sourced hx with hnever | ⟨-, hdated⟩
    · exact absurd hnever hdue
    · exact hdated
  fresh r key x hnone hx := by
    have hfate := r.fate now s key
    rw [hnone, hx] at hfate
    exact hfate.fresh
  emptied r key items e hlist hitems e' hleft := by
    have hfate := r.fate now s key
    rw [hlist, hleft] at hfate
    exact hfate.ne_nil hitems

/-- A text that has expired is still stored when its key becomes a list. -/
theorem expiry_unseen_of_expired_text :
    Reached [⟨0, .empty, .set "k" "v" 5⟩] 10 (set 0 "k" "v" 5 .empty).2 ∧
      (set 0 "k" "v" 5 .empty).2.data["k"]? = some ⟨.text "v", .due 5⟩ ∧
      ExpiryUnseen [⟨0, .empty, .set "k" "v" 5⟩] 10 (set 0 "k" "v" 5 .empty).2 := by
  have hreached : Reached [⟨0, .empty, .set "k" "v" 5⟩] 10 (set 0 "k" "v" 5 .empty).2 :=
    ((Reached.start 0).request (.set "k" "v" 5)).wait (by decide)
  exact ⟨hreached, by decide, hreached.expiry_unseen⟩

end Store

end TwoTier
