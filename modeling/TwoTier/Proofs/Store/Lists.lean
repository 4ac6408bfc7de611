import TwoTier.Proofs.Store.Contents

/-!
# What the operations on lists leave in the store

The list that a key shows is what was pushed to it (`Store.rpush_eq`), from which an attempt to pop
takes the head of the first list that is not empty (`Store.tryPop_tried`). In a store that holds
nothing but lists that never expire (`Store.ListsOnly`), a list does not change by itself
(`Store.ListsOnly.items_eq`).
-/

set_option autoImplicit false
set_option relaxedAutoImplicit false

namespace TwoTier

namespace Store

/-- The list that a key shows at a moment; it is empty where the key holds none. -/
def items (s : Store) (now : Nat) (key : String) : List String :=
  match s.live? now key with
  | some ⟨.list items, _⟩ => items
  | _ => []

/-- A store that holds only lists that never expire. -/
def ListsOnly (s : Store) : Prop :=
  ∀ (key : String) (x : Stored), s.data[key]? = some x → ∃ items, x = ⟨.list items, .never⟩

theorem items_congr {s s' : Store} {now : Nat} {key : String}
    (h : s'.live? now key = s.live? now key) : s'.items now key = s.items now key := by
  rw [items, items, h]

/-- What has expired shows nothing, so that it can be removed unseen. -/
theorem live?_settle (s : Store) (now : Nat) (key j : String) :
    (s.settle now key).live? now j = s.live? now j := by
  unfold live?
  rw [getElem?_settle]
  split_ifs with hj
  · rw [hj, live?, Option.filter_filter]
    simp only [Bool.and_self]
  · rfl

theorem items_settle (s : Store) (now : Nat) (key j : String) :
    (s.settle now key).items now j = s.items now j :=
  items_congr (live?_settle s now key j)

theorem items_put (s : Store) (now : Nat) (key j : String) {items : List String} {x : Expiry}
    (hlive : x.live now = true) :
    (s.put key ⟨.list items, x⟩).items now j = if j = key then items else s.items now j := by
  unfold Store.items live? put
  simp only [Dict.getElem?_insert]
  split_ifs with hj
  · simp only [Option.filter_some, hlive, if_true]
  · rfl

theorem items_drop (s : Store) (now : Nat) (key j : String) :
    (s.drop key).items now j = if j = key then [] else s.items now j := by
  unfold Store.items live? drop
  simp only [Dict.getElem?_erase]
  split_ifs with hj <;> rfl

/-! ### Taking the first head -/

/-- What an attempt to pop comes to: the head of the first list among the keys that is not empty is
taken; or all of them are empty; or a key that comes before holds no list. -/
inductive Tried (now : Nat) (keys : List String) (s s' : Store) :
    Outcome (Option (String × String)) → Prop
  | head {before after rest : List String} {key value : String}
      (hkeys : keys = before ++ key :: after) (hbefore : ∀ j ∈ before, s.items now j = [])
      (hitems : s.items now key = value :: rest)
      (hafter : ∀ j, s'.items now j = if j = key then rest else s.items now j) :
      Tried now keys s s' (.ok (some (key, value)))
  | none (hempty : ∀ j ∈ keys, s.items now j = []) (hafter : ∀ j, s'.items now j = s.items now j) :
      Tried now keys s s' (.ok none)
  | fault (f : Fault) (hafter : ∀ j, s'.items now j = s.items now j) :
      Tried now keys s s' (.fault f)

/-- A key that shows the empty list is passed over. -/
theorem Tried.cons {now : Nat} {keys : List String} {s s₁ s' : Store} {key : String}
    {outcome : Outcome (Option (String × String))} (h : Tried now keys s₁ s' outcome)
    (hsame : ∀ j, s₁.items now j = s.items now j) (hkey : s.items now key = []) :
    Tried now (key :: keys) s s' outcome := by
  cases h with
  | @head before after rest k value hkeys hbefore hitems hafter =>
    have hkeys' : key :: keys = (key :: before) ++ k :: after := congrArg (key :: ·) hkeys
    have hbefore' : ∀ j ∈ key :: before, s.items now j = [] :=
      List.forall_mem_cons.mpr ⟨hkey, fun j hj ↦ (hsame j).symm.trans (hbefore j hj)⟩
    refine .head hkeys' hbefore' ((hsame k).symm.trans hitems) fun j ↦ ?_
    rw [hafter, hsame]
  | none hempty hafter =>
    refine .none (List.forall_mem_cons.mpr ⟨hkey, fun j hj ↦ ?_⟩) fun j ↦ ?_
    · exact (hsame j).symm.trans (hempty j hj)
    · exact (hafter j).trans (hsame j)
  | fault f hafter => exact .fault f fun j ↦ (hafter j).trans (hsame j)

theorem tryPop_tried (now : Nat) (keys : List String) (s : Store) :
    Tried now keys s (tryPop now keys s).2 (tryPop now keys s).1 := by
  induction keys generalizing s with
  | nil => exact .none (fun _ hj ↦ absurd hj List.not_mem_nil) fun _ ↦ rfl
  | cons key rest ih =>
    have hsame := items_settle s now key
    have hkey : (s.settle now key).data[key]? = s.live? now key :=
      (getElem?_settle s now key key).trans (if_pos rfl)
    unfold tryPop
    dsimp only
    rw [hkey]
    cases hlive : s.live? now key with
    | none =>
      have hitems : s.items now key = [] := by rw [items, hlive]
      exact (ih _).cons hsame hitems
    | some x =>
      obtain ⟨datum, expiry⟩ := x
      cases datum with
      | text v => exact .fault _ hsame
      | set members => exact .fault _ hsame
      | list items =>
        have hitems : s.items now key = items := by rw [Store.items, hlive]
        cases items with
        | nil => exact (ih _).cons hsame hitems
        | cons value rest' =>
          have hexpiry : expiry.live now = true := (Option.filter_eq_some_iff.mp hlive).2
          have hkeys : key :: rest = [] ++ key :: rest := rfl
          have hnone : ∀ j ∈ ([] : List String), s.items now j = [] :=
            fun _ hj ↦ absurd hj List.not_mem_nil
          cases rest' with
          | nil =>
            refine .head hkeys hnone hitems fun j ↦ ?_
            rw [items_drop, hsame]
          | cons next rest' =>
            refine .head hkeys hnone hitems fun j ↦ ?_
            rw [items_put _ _ _ _ hexpiry, hsame]

/-! ### Stores of lists only -/

theorem pushes_settle (s : Store) (now : Nat) (key : String) :
    (s.settle now key).pushes = s.pushes := by
  unfold settle
  split
  · split <;> rfl
  · rfl

/-- To take from lists is no push, and the connection stays as it is. -/
theorem kept_tryPop (now : Nat) (keys : List String) (s : Store) :
    (tryPop now keys s).2.pushes = s.pushes ∧ (tryPop now keys s).2.offline = s.offline := by
  induction keys generalizing s with
  | nil => exact ⟨rfl, rfl⟩
  | cons key rest ih =>
    have hsettle := And.intro (pushes_settle s now key) (offline_settle s now key)
    have hrest := ih (s.settle now key)
    rw [hsettle.1, hsettle.2] at hrest
    unfold tryPop
    dsimp only
    split
    · exact hrest
    · exact hrest
    · exact hsettle
    · exact hsettle
    · exact hsettle

namespace ListsOnly

variable {s : Store} (h : s.ListsOnly)

include h

theorem live?_eq (now : Nat) (key : String) : s.live? now key = s.data[key]? := by
  unfold live?
  cases hkey : s.data[key]? with
  | none => rfl
  | some x =>
    obtain ⟨items, rfl⟩ := h key x hkey
    rfl

/-- The list of a key is the same at every moment. -/
theorem items_eq (now later : Nat) (key : String) : s.items later key = s.items now key := by
  rw [items, items, h.live?_eq, h.live?_eq]

theorem settle_eq (now : Nat) (key : String) : s.settle now key = s := by
  unfold settle
  cases hkey : s.data[key]? with
  | none => rfl
  | some x =>
    obtain ⟨items, rfl⟩ := h key x hkey
    rfl

theorem put (key : String) (items : List String) :
    (s.put key ⟨.list items, .never⟩).ListsOnly := by
  intro j x hx
  unfold Store.put at hx
  rw [Dict.getElem?_insert] at hx
  split_ifs at hx
  · exact ⟨items, (Option.some.inj hx).symm⟩
  · exact h j x hx

theorem drop (key : String) : (s.drop key).ListsOnly := by
  intro j x hx
  unfold Store.drop at hx
  rw [Dict.getElem?_erase] at hx
  split_ifs at hx
  exact h j x hx

theorem tryPop (now : Nat) (keys : List String) : (tryPop now keys s).2.ListsOnly := by
  induction keys with
  | nil => exact h
  | cons key rest ih =>
    unfold Store.tryPop
    dsimp only
    rw [h.settle_eq]
    split
    · exact ih
    · exact ih
    · exact h.drop key
    · rename_i value items e _ hkey
      obtain ⟨_, hx⟩ := h key _ hkey
      obtain ⟨-, rfl⟩ := Stored.mk.inj hx
      exact h.put key items
    · exact h

/-- A push appends to the list of its key, and is counted. -/
theorem rpush_eq (honline : s.offline = false) (now : Nat) (key : String)
    (values : List String) : rpush now key values s =
      (.ok (), { s.put key ⟨.list (s.items now key ++ values), .never⟩ with
        pushes := s.pushes + 1 }) := by
  have hitems : s.items now key = match s.data[key]? with
      | some ⟨.list items, _⟩ => items
      | _ => [] := by rw [items, h.live?_eq]
  unfold rpush whenOnline
  rw [if_neg (by rw [honline]; exact Bool.false_ne_true)]
  dsimp only
  rw [h.settle_eq, hitems]
  cases hkey : s.data[key]? with
  | none => rfl
  | some x =>
    obtain ⟨items, rfl⟩ := h key x hkey
    rfl

end ListsOnly

end Store

end TwoTier
