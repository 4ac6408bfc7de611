import TwoTier.Proofs.Store.Requests

/-!
# The fate of a key

`Store.Fate` says once what a request can do to what one key shows, and every request does one of
these things to every key (`Store.Request.fate`).

A store is reached by the requests made so far, each at its moment, with changes in between that
leave the data alone (`Store.Reached`). A request is remembered with the store that it found
(`Store.Event`).
-/

set_option autoImplicit false
set_option relaxedAutoImplicit false

namespace TwoTier

namespace Store

/-! ### What a request does to a key -/

/-- What a request can do to a key: what the key showed before, and what it shows afterwards. -/
inductive Fate (now : Nat) (key : String) : Request → Option Stored → Option Stored → Prop
  /-- It is left as it is. -/
  | kept {r : Request} {x : Option Stored} : Fate now key r x x
  /-- Its text is set, and its deadline. -/
  | written {value : String} {ttl : Nat} {e : Expiry} {x : Option Stored}
      (hafter : Expiry.after now ttl = some e) :
      Fate now key (.set key value ttl) x (some ⟨.text value, e⟩)
  /-- It is removed. -/
  | removed {x : Option Stored} : Fate now key (.del key) x none
  /-- It is counted for the first time. -/
  | begun : Fate now key (.incr key) none (some ⟨.text "1", .never⟩)
  /-- It is counted up. -/
  | counted {value : String} {n : Int} {e : Expiry}
      (hnumber : (Text.Numeral.readInt64 value).bind Text.Numeral.succ? = some n) :
      Fate now key (.incr key) (some ⟨.text value, e⟩)
        (some ⟨.text (Text.Numeral.decimal n), e⟩)
  /-- It becomes a list. -/
  | listed {values : List String} :
      Fate now key (.rpush key values) none (some ⟨.list values, .never⟩)
  /-- Its list grows. -/
  | appended {items values : List String} {e : Expiry} :
      Fate now key (.rpush key values) (some ⟨.list items, e⟩)
        (some ⟨.list (items ++ values), e⟩)
  /-- Its list loses its head, and others stay. -/
  | popped {keys items : List String} {value : String} {e : Expiry} (hkey : key ∈ keys)
      (hitems : items ≠ []) :
      Fate now key (.pop keys) (some ⟨.list (value :: items), e⟩) (some ⟨.list items, e⟩)
  /-- Its list loses its only element, and is removed. -/
  | emptied {keys : List String} {value : String} {e : Expiry} (hkey : key ∈ keys) :
      Fate now key (.pop keys) (some ⟨.list [value], e⟩) none
  /-- Its list is cut, and some of it is kept. -/
  | trimmed {items : List String} {start stop : Int} {first last : Nat} {e : Expiry}
      (hrange : resolveRange items.length start stop = some (first, last)) :
      Fate now key (.ltrim key start stop) (some ⟨.list items, e⟩)
        (some ⟨.list ((items.take (last + 1)).drop first), e⟩)
  /-- Nothing of its list is kept, and it is removed. -/
  | cleared {items : List String} {start stop : Int} {e : Expiry}
      (hrange : resolveRange items.length start stop = none) :
      Fate now key (.ltrim key start stop) (some ⟨.list items, e⟩) none
  /-- It becomes a set. -/
  | gathered {new : List String} :
      Fate now key (.sadd key new) none (some ⟨.set (.ofList new), .never⟩)
  /-- Its set grows. -/
  | joined {members : Std.ExtTreeSet String} {new : List String} {e : Expiry} :
      Fate now key (.sadd key new) (some ⟨.set members, e⟩)
        (some ⟨.set (members.insertMany new), e⟩)

/-- The bounds that name positions in a list cross nowhere and end before the list does. -/
theorem resolveRange_eq_some {length first last : Nat} {start stop : Int}
    (h : resolveRange length start stop = some (first, last)) :
    first ≤ last ∧ first < length := by
  unfold resolveRange at h
  dsimp only at h
  split_ifs at h with hempty
  all_goals
    obtain ⟨rfl, rfl⟩ := Prod.mk.inj (Option.some.inj h)
    omega

/-- What is kept of a list is not empty. -/
theorem drop_take_ne_nil {items : List String} {first last : Nat} {start stop : Int}
    (h : resolveRange items.length start stop = some (first, last)) :
    (items.take (last + 1)).drop first ≠ [] := by
  obtain ⟨hle, hlt⟩ := resolveRange_eq_some h
  intro hnil
  have hlength := congrArg List.length hnil
  rw [List.length_drop, List.length_take, List.length_nil] at hlength
  omega

theorem fate_settle (now : Nat) (s : Store) (r : Request) (j key : String) :
    Fate now j r (s.live? now j) ((s.settle now key).live? now j) := by
  rw [live?_settle]
  exact .kept

section Fate

variable {now : Nat} {s : Store} {r : Request} (j : String)

/-- A key is put after it was settled, and no other one is touched. -/
theorem Fate.put {key : String} {x : Stored} (hkey : Fate now key r (s.live? now key) (some x))
    (hlive : x.expiry.live now = true) :
    Fate now j r (s.live? now j) (((s.settle now key).put key x).live? now j) := by
  rw [live?_put _ _ _ hlive, live?_settle]
  split_ifs with hj
  · rw [hj]
    exact hkey
  · exact .kept

/-- A key is dropped after it was settled, and no other one is touched. -/
theorem Fate.drop {key : String} (hkey : Fate now key r (s.live? now key) none) :
    Fate now j r (s.live? now j) (((s.settle now key).drop key).live? now j) := by
  rw [live?_drop, live?_settle]
  split_ifs with hj
  · rw [hj]
    exact hkey
  · exact .kept

theorem Fate.whenOnline {α : Type} {op : Store → Outcome α × Store}
    (hop : Fate now j r (s.live? now j) ((op s).2.live? now j)) :
    Fate now j r (s.live? now j) ((whenOnline op s).2.live? now j) := by
  unfold Store.whenOnline
  split_ifs
  · exact .kept
  · exact hop

theorem fate_get (key : String) :
    Fate now j (.get key) (s.live? now j) ((get now key s).2.live? now j) := by
  refine Fate.whenOnline j ?_
  have hsettle := fate_settle now s (.get key) j key
  simp only [getElem?_settle_self]
  rcases s.live? now key with _ | ⟨_ | _ | _, e⟩ <;> exact hsettle

theorem fate_set (key value : String) (ttl : Nat) :
    Fate now j (.set key value ttl) (s.live? now j) ((set now key value ttl s).2.live? now j) := by
  refine Fate.whenOnline j ?_
  cases hafter : Expiry.after now ttl with
  | none => exact .kept
  | some e =>
    dsimp only
    rw [live?_put _ _ _ (Expiry.live_of_after hafter)]
    split_ifs with hj
    · rw [hj]
      exact .written hafter
    · exact .kept

theorem fate_del (key : String) :
    Fate now j (.del key) (s.live? now j) ((del key s).2.live? now j) := by
  refine Fate.whenOnline j ?_
  dsimp only
  rw [live?_drop]
  split_ifs with hj
  · rw [hj]
    exact .removed
  · exact .kept

theorem fate_incr (key : String) :
    Fate now j (.incr key) (s.live? now j) ((incr now key s).2.live? now j) := by
  refine Fate.whenOnline j ?_
  have hsettle := fate_settle now s (.incr key) j key
  simp only [getElem?_settle_self]
  rcases hlive : s.live? now key with _ | ⟨value | _ | _, e⟩
  · refine Fate.put j ?_ (Expiry.live_never now)
    rw [hlive]
    exact .begun
  · have he : e.live now = true := live_of_live? hlive
    dsimp only
    cases hnumber : (Text.Numeral.readInt64 value).bind Text.Numeral.succ? with
    | none => exact hsettle
    | some n =>
      refine Fate.put j ?_ he
      rw [hlive]
      exact .counted hnumber
  · exact hsettle
  · exact hsettle

theorem fate_rpush (key : String) (values : List String) :
    Fate now j (.rpush key values) (s.live? now j) ((rpush now key values s).2.live? now j) := by
  refine Fate.whenOnline j ?_
  have hsettle := fate_settle now s (.rpush key values) j key
  simp only [getElem?_settle_self]
  rcases hlive : s.live? now key with _ | ⟨_ | items | _, e⟩
  · refine Fate.put j ?_ (Expiry.live_never now)
    rw [hlive]
    exact .listed
  · exact hsettle
  · have he : e.live now = true := live_of_live? hlive
    refine Fate.put j ?_ he
    rw [hlive]
    exact .appended
  · exact hsettle

theorem fate_tryPop {keys rest : List String} (hrest : ∀ key ∈ rest, key ∈ keys) :
    Fate now j (.pop keys) (s.live? now j) ((tryPop now rest s).2.live? now j) := by
  induction rest generalizing s with
  | nil => exact .kept
  | cons key rest ih =>
    obtain ⟨hkey, hrest⟩ := List.forall_mem_cons.mp hrest
    have hsettle := fate_settle now s (.pop keys) j key
    -- a key that is passed over was settled, which nobody can see
    have hnext : Fate now j (.pop keys) _ ((tryPop now rest (s.settle now key)).2.live? now j) :=
      ih hrest
    rw [live?_settle] at hnext
    simp only [tryPop, getElem?_settle_self]
    rcases hlive : s.live? now key with _ | ⟨_ | items | _, e⟩
    · exact hnext
    · exact hsettle
    · have he : e.live now = true := live_of_live? hlive
      rcases items with _ | ⟨value, _ | ⟨next, items⟩⟩
      · exact hnext
      · refine Fate.drop j ?_
        rw [hlive]
        exact .emptied hkey
      · refine Fate.put j ?_ he
        rw [hlive]
        exact .popped hkey (List.cons_ne_nil next items)
    · exact hsettle

theorem fate_ltrim (key : String) (start stop : Int) :
    Fate now j (.ltrim key start stop) (s.live? now j)
      ((ltrim now key start stop s).2.live? now j) := by
  refine Fate.whenOnline j ?_
  have hsettle := fate_settle now s (.ltrim key start stop) j key
  simp only [getElem?_settle_self]
  rcases hlive : s.live? now key with _ | ⟨_ | items | _, e⟩
  · exact hsettle
  · exact hsettle
  · have he : e.live now = true := live_of_live? hlive
    dsimp only
    cases hrange : resolveRange items.length start stop with
    | none =>
      refine Fate.drop j ?_
      rw [hlive]
      exact .cleared hrange
    | some range =>
      refine Fate.put j ?_ he
      rw [hlive]
      exact .trimmed hrange
  · exact hsettle

theorem fate_sadd (key : String) (new : List String) :
    Fate now j (.sadd key new) (s.live? now j) ((sadd now key new s).2.live? now j) := by
  refine Fate.whenOnline j ?_
  have hsettle := fate_settle now s (.sadd key new) j key
  simp only [getElem?_settle_self]
  rcases hlive : s.live? now key with _ | ⟨_ | _ | members, e⟩
  · refine Fate.put j ?_ (Expiry.live_never now)
    rw [hlive]
    exact .gathered
  · exact hsettle
  · exact hsettle
  · have he : e.live now = true := live_of_live? hlive
    refine Fate.put j ?_ he
    rw [hlive]
    exact .joined

theorem fate_sismember (key member : String) :
    Fate now j (.sismember key member) (s.live? now j)
      ((sismember now key member s).2.live? now j) := by
  refine Fate.whenOnline j ?_
  have hsettle := fate_settle now s (.sismember key member) j key
  simp only [getElem?_settle_self]
  rcases s.live? now key with _ | ⟨_ | _ | _, e⟩ <;> exact hsettle

end Fate

/-- Every request does one of these things to every key. -/
theorem Request.fate (r : Request) (now : Nat) (s : Store) (key : String) :
    Fate now key r (s.live? now key) ((r.apply now s).2.live? now key) := by
  cases r with
  | get k => exact fate_get key k
  | contains k =>
    refine Fate.whenOnline key ?_
    exact fate_settle now s (.contains k) key k
  | set k value ttl => exact fate_set key k value ttl
  | del k => exact fate_del key k
  | incr k => exact fate_incr key k
  | rpush k values => exact fate_rpush key k values
  | pop keys => exact fate_tryPop key fun _ hk ↦ hk
  | ltrim k start stop => exact fate_ltrim key k start stop
  | sadd k members => exact fate_sadd key k members
  | sismember k member => exact fate_sismember key k member
  | eval => exact .kept

/-! ### Stores reached by requests -/

/-- A request that was made. -/
structure Event where
  /-- When it was made. -/
  now : Nat
  /-- The store that it found. -/
  before : Store
  /-- The request. -/
  request : Request

/-- A store that the requests made so far have led to, the newest first. A call to read or fetch a
value is a request to read it and later, once it was fetched, one to set it; a call that waits for
an element is one request to pop for each of its attempts. -/
inductive Reached : List Event → Nat → Store → Prop
  /-- The store was empty at first. -/
  | start (now : Nat) : Reached [] now Store.empty
  /-- Time passes. -/
  | wait {history : List Event} {now later : Nat} {s : Store} (h : Reached history now s)
      (hle : now ≤ later) : Reached history later s
  /-- A request is made. -/
  | request {history : List Event} {now : Nat} {s : Store} (h : Reached history now s)
      (r : Request) : Reached (⟨now, s, r⟩ :: history) now (r.apply now s).2
  /-- A message is published, a subscription changes, or the connection does. -/
  | aside {history : List Event} {now : Nat} {s s' : Store} (h : Reached history now s)
      (hdata : s'.data = s.data) : Reached history now s'

theorem live?_congr {s s' : Store} (hdata : s'.data = s.data) (now : Nat) (key : String) :
    s'.live? now key = s.live? now key := by
  unfold live?
  rw [hdata]

/-- What is shown later was shown before. -/
theorem live?_of_later {s : Store} {now later : Nat} {key : String} {x : Stored}
    (hle : now ≤ later) (h : s.live? later key = some x) : s.live? now key = some x := by
  rw [live?_of_le s hle] at h
  exact (Option.filter_eq_some_iff.mp h).1

end Store

end TwoTier
