import TwoTier.Proofs.Engine.Play
import TwoTier.Proofs.Engine.Quiet
import TwoTier.Proofs.Store.Lists
import TwoTier.Tier.Store

/-!
# Nothing that is pushed is lost

Tasks push to the lists of a store and pop from them, by calls that may wait. The calls leave marks
here when a push is done and when an element is taken (`Queue.Mark`); they are the calls themselves
where the marks are left out (`Queue.underlies_markedPush`, `Queue.underlies_markedPop`).

The store is in balance with the marks (`Queue.Balanced`): what was pushed to a key is what was
popped from it, in this order, followed by the list that the key holds. A push and a pop keep the
balance (`Queue.Balanced.pushed`, `Queue.Balanced.popped`), and so every call of the tasks does
(`Queue.Queues.safe`).
-/

set_option autoImplicit false
set_option relaxedAutoImplicit false

namespace TwoTier

namespace Queue

/-- What is marked of the lists of a store. -/
inductive Mark where
  /-- Values were pushed to the list of a key. -/
  | pushed (key : String) (values : List String)
  /-- A call that named some keys took a value from the list of one of them. -/
  | popped (keys : List String) (key value : String)
  deriving DecidableEq, Repr

/-- All values that were pushed to a key, the first one first. -/
def pushedTo (key : String) : Log Mark → List String
  | [] => []
  | (_, .pushed k values) :: l => if k = key then pushedTo key l ++ values else pushedTo key l
  | (_, .popped ..) :: l => pushedTo key l

/-- All values that were popped from a key, the first one first. -/
def poppedFrom (key : String) : Log Mark → List String
  | [] => []
  | (_, .pushed ..) :: l => poppedFrom key l
  | (_, .popped _ k value) :: l => if k = key then poppedFrom key l ++ [value] else poppedFrom key l

/-- How often something was pushed. -/
def pushCount : Log Mark → Nat
  | [] => 0
  | (_, .pushed ..) :: l => pushCount l + 1
  | (_, .popped ..) :: l => pushCount l

section Calls

variable (x : StoreHandle) {α : Type}

/-! ### Operations with their marks -/

/-- A push, with a mark once the store has taken the values. -/
def markedPush (key : String) (values : List String) (k : Answer Unit → Marked Mark α) :
    Marked Mark α :=
  .act (x.tier.rpush key values) fun
    | .ok _ => .mark (fun _ ↦ .pushed key values) (k (.ok ()))
    | .error f => k (.error f)

/-- How a pop goes on when its wait is over: the element that it took is marked. -/
def taken (keys : List String) (k : Answer (List String) → Marked Mark α) :
    Answer (Option (String × String)) → Marked Mark α
  | .ok (some (key, value)) => .mark (fun _ ↦ .popped keys key value) (k (.ok [key, value]))
  | .ok none => k (.error .notFound)
  | .error f => k (.error f)

/-- A pop that may wait. -/
def markedPop (timeout : Nat) (keys : List String) (k : Answer (List String) → Marked Mark α) :
    Marked Mark α :=
  .act (Call.look fun h ↦
      if (h.tiers.store x.store).offline then none
      else some (if timeout = 0 then none else Clock.deadline h.now timeout)) fun
    | none => k (.error .refused)
    | some deadline => .pop x.store keys deadline none (taken keys k)

theorem underlies_markedPush (key : String) (values : List String) :
    (x.tier.rpush key values).Underlies (markedPush x key values) := by
  refine fun k ↦ congrArg (Call.bind _) (funext fun a ↦ ?_)
  cases a <;> rfl

theorem underlies_markedPop (timeout : Nat) (keys : List String) :
    (x.blpop timeout keys).Underlies (markedPop x timeout keys) := by
  refine fun k ↦ congrArg Call.read (funext fun h ↦ ?_)
  simp only [Call.done_bind]
  by_cases hoffline : (h.tiers.store x.store).offline = true
  · simp only [hoffline, if_true]
    rfl
  · simp only [hoffline]
    refine congrArg (Call.pop x.store keys _ none) (funext fun a ↦ ?_)
    unfold taken
    split <;> rfl

end Calls

/-! ### The balance -/

/-- A pop took the head of the first list among its keys that was not empty then: all that had been
pushed to the keys before had been popped, and its value was the next one to be popped. -/
def TookHead (older : Log Mark) (keys : List String) (key value : String) : Prop :=
  ∃ before after rest, keys = before ++ key :: after ∧
    (∀ j ∈ before, pushedTo j older = poppedFrom j older) ∧
    pushedTo key older = poppedFrom key older ++ value :: rest

/-- The store `s` is in balance with the marks. It holds lists only, and counts the pushes. -/
structure Balanced (s : Nat) (h : Heap) (log : Log Mark) : Prop where
  online : (h.tiers.store s).offline = false
  lists : (h.tiers.store s).ListsOnly
  count : (h.tiers.store s).pushes = pushCount log
  balance : ∀ key, pushedTo key log = poppedFrom key log ++ (h.tiers.store s).items h.now key
  heads : ∀ newer th keys key value older,
    log = newer ++ (th, .popped keys key value) :: older → TookHead older keys key value

namespace Balanced

variable {s : Nat} {h h' : Heap} {log : Log Mark}

/-- Time may pass, and the subscriptions of the store may change. -/
theorem retuned (hc : Balanced s h log) (hstore : (h.tiers.store s).Retuned (h'.tiers.store s)) :
    Balanced s h' log := by
  obtain ⟨subscribers, hstore⟩ := hstore
  refine ⟨?_, ?_, ?_, fun key ↦ ?_, hc.heads⟩
  · rw [hstore]
    exact hc.online
  · rw [hstore]
    exact hc.lists
  · rw [hstore]
    exact hc.count
  · rw [hc.balance, hstore]
    exact congrArg _ (hc.lists.items_eq h'.now h.now key)

theorem congr (hc : Balanced s h log) (htiers : h'.tiers = h.tiers) : Balanced s h' log := by
  refine hc.retuned ?_
  rw [htiers]
  exact .refl _

/-- A mark that is no pop. -/
theorem heads_pushed (hc : Balanced s h log) {th : Nat} {key : String} {values : List String} :
    ∀ newer th' keys key' value older,
      (th, .pushed key values) :: log = newer ++ (th', Mark.popped keys key' value) :: older →
        TookHead older keys key' value := by
  intro newer th' keys key' value older hlog
  cases newer with
  | nil => cases hlog
  | cons y newer => exact hc.heads newer th' keys key' value older (List.cons.inj hlog).2

/-- A push appends to the list of its key. -/
theorem pushed (hc : Balanced s h log) {me : Nat} {x : StoreHandle} (hx : x.store = s)
    (key : String) (values : List String) {F : Heap → Prop} :
    (x.tier.rpush key values).AtOnce me h
      (fun a h' ↦ a = .ok () ∧ ∀ th, Balanced s h' ((th, .pushed key values) :: log)) F := by
  subst hx
  have hpush := hc.lists.rpush_eq hc.online h.now key values
  change (Call.onStore x.store fun now ↦ Store.rpush now key values).AtOnce me h _ _
  refine Call.AtOnce.onStore_of_ok (congrArg Prod.fst hpush) ⟨rfl, fun th ↦ ?_⟩
  rw [hpush]
  dsimp only
  refine ⟨?_, ?_, ?_, fun j ↦ ?_, hc.heads_pushed⟩
  · simp only [Tiers.store_setStore, if_true]
    exact hc.online
  · simp only [Tiers.store_setStore, if_true]
    exact hc.lists.put key _
  · simp only [Tiers.store_setStore, if_true]
    exact congrArg (· + 1) hc.count
  · simp only [Tiers.store_setStore, if_true]
    change pushedTo j ((th, .pushed key values) :: log) = poppedFrom j log ++
      ((h.tiers.store x.store).put key _).items h.now j
    rw [Store.items_put _ _ _ _ (Expiry.live_never h.now), pushedTo, hc.balance]
    by_cases hj : j = key
    · rw [if_pos hj.symm, if_pos hj, hj, List.append_assoc]
    · rw [if_neg (Ne.symm hj), if_neg hj]

variable {keys : List String}

/-- The store after an attempt to pop. -/
def afterTry (s : Nat) (h : Heap) (keys : List String) : Heap :=
  { h with tiers := h.tiers.setStore s ((h.tiers.store s).tryPop h.now keys).2 }

theorem tried (hc : Balanced s h log) (keys : List String) :
    ((afterTry s h keys).tiers.store s).offline = false ∧
      ((afterTry s h keys).tiers.store s).ListsOnly ∧
      ((afterTry s h keys).tiers.store s).pushes = pushCount log := by
  obtain ⟨hpushes, hoffline⟩ := Store.kept_tryPop h.now keys (h.tiers.store s)
  simp only [afterTry, Tiers.store_setStore, if_true]
  exact ⟨hoffline.trans hc.online, hc.lists.tryPop h.now keys, hpushes.trans hc.count⟩

/-- A pop takes the head of the first list that is not empty. -/
theorem popped (hc : Balanced s h log) {key value : String}
    (htried : ((h.tiers.store s).tryPop h.now keys).1 = .ok (some (key, value))) (th : Nat) :
    Balanced s (afterTry s h keys) ((th, .popped keys key value) :: log) := by
  obtain ⟨honline, hlists, hcount⟩ := hc.tried keys
  have htook := Store.tryPop_tried h.now keys (h.tiers.store s)
  rw [htried] at htook
  cases htook with
  | @head before after rest _ _ hkeys hbefore hitems hafter =>
    refine ⟨honline, hlists, hcount, fun j ↦ ?_, fun newer th' keys' key' value' older hlog ↦ ?_⟩
    · simp only [afterTry, Tiers.store_setStore, if_true]
      rw [hafter, pushedTo, poppedFrom, hc.balance]
      by_cases hj : j = key
      · rw [if_pos hj.symm, if_pos hj, hj, hitems, List.append_assoc]
        rfl
      · rw [if_neg (Ne.symm hj), if_neg hj]
    · cases newer with
      | nil =>
        obtain ⟨hhead, rfl⟩ := List.cons.inj hlog
        cases hhead
        refine ⟨before, after, rest, hkeys, fun j hj ↦ ?_, ?_⟩
        · rw [hc.balance, hbefore j hj, List.append_nil]
        · rw [hc.balance, hitems]
      | cons y newer =>
        exact hc.heads newer th' keys' key' value' older (List.cons.inj hlog).2

/-- An attempt to pop that takes nothing changes no list. -/
theorem missed (hc : Balanced s h log)
    (htried : ∀ x, ((h.tiers.store s).tryPop h.now keys).1 ≠ .ok (some x)) :
    Balanced s (afterTry s h keys) log := by
  obtain ⟨honline, hlists, hcount⟩ := hc.tried keys
  have htook := Store.tryPop_tried h.now keys (h.tiers.store s)
  have hafter : ∀ j, ((h.tiers.store s).tryPop h.now keys).2.items h.now j =
      (h.tiers.store s).items h.now j := by
    generalize ((h.tiers.store s).tryPop h.now keys).1 = outcome at htook htried
    cases htook with
    | head _ _ _ _ => exact absurd rfl (htried _)
    | none _ hafter => exact hafter
    | fault f hafter => exact hafter
  refine ⟨honline, hlists, hcount, fun j ↦ ?_, hc.heads⟩
  simp only [afterTry, Tiers.store_setStore, if_true]
  rw [hafter, hc.balance]

end Balanced

/-! ### Tasks that push and pop -/

/-- The calls that push to the lists of a store and pop from them, through any handles of it. What
they do elsewhere changes at most the subscriptions to the store. -/
inductive Queues (s : Nat) : ∀ {α : Type}, Marked Mark α → Prop
  | done {α : Type} (a : α) : Queues s (.done a)
  | crash {α : Type} : Queues s (.crash : Marked Mark α)
  | push {α : Type} {x : StoreHandle} {key : String} {values : List String}
      {k : Answer Unit → Marked Mark α} (hx : x.store = s) (hk : ∀ a, Queues s (k a)) :
      Queues s (markedPush x key values k)
  | pop {α : Type} {x : StoreHandle} {timeout : Nat} {keys : List String}
      {k : Answer (List String) → Marked Mark α} (hx : x.store = s) (hk : ∀ a, Queues s (k a)) :
      Queues s (markedPop x timeout keys k)
  | look {α β : Type} {f : Heap → β} {k : β → Marked Mark α} (hk : ∀ b, Queues s (k b)) :
      Queues s (.act (Call.look f) k)
  | elsewhere {α β : Type} {f : Heap → β × Tiers} {k : β → Marked Mark α}
      (hstore : ∀ h : Heap, (h.tiers.store s).Retuned ((f h).2.store s))
      (hk : ∀ b, Queues s (k b)) : Queues s (.act (Call.atomically f) k)
  | pause {α : Type} {k : Marked Mark α} (hk : Queues s k) : Queues s (.pause k)
  | sleep {α : Type} {wake : Option Nat} {k : Marked Mark α} (hk : Queues s k) :
      Queues s (.sleep wake k)

variable {s : Nat} {α : Type}

theorem Queues.opens {m : Marked Mark α} (hm : Queues s m) : Play.Opens m := by
  cases hm <;> trivial

theorem kept_balanced : Play.Kept (Balanced s) [] where
  thread _ _ hc := hc.congr rfl
  clock _ hc := hc.retuned (.refl _)
  loop _ _ _ hc := hc.retuned (Tiers.retuned_stepLoop _ _ s)
  release _ hc := hc.retuned (Tiers.retuned_release _ _ s)

/-- A call that pushes and pops keeps the balance. -/
theorem Queues.safe {m : Marked Mark α} (hm : Queues s m) (me : Nat) {h : Heap} {log : Log Mark}
    (hc : Balanced s h log) : Marked.Safe (Balanced s) me m h log := by
  induction hm generalizing h log with
  | done a => exact hc.congr rfl
  | crash => exact hc.congr rfl
  | push hx _ ih =>
    refine Marked.Safe.of_atOnce (F := fun _ ↦ False) (hc.pushed hx _ _) (fun a h' ha ↦ ?_)
      fun _ hfail ↦ hfail.elim
    obtain ⟨rfl, hpushed⟩ := ha
    exact ih _ (hpushed me)
  | @pop x timeout keys k hx _ ih =>
    subst hx
    refine Marked.Safe.of_atOnce (P := fun _ h' ↦ h' = h) (F := fun _ ↦ False)
      (Call.AtOnce.look rfl) (fun deadline h' hh' ↦ ?_) fun _ hfail ↦ hfail.elim
    subst hh'
    cases deadline with
    | none => exact ih _ hc
    | some deadline =>
      refine ⟨hc, fun h' log' hc' _ ↦ ⟨fun y hy ↦ ?_, fun f hf ↦ ?_, fun hnone ↦ ?_, ih _ hc'⟩⟩
      · exact ih _ (hc'.popped hy me)
      · exact ih _ (hc'.missed fun y hy ↦ by rw [hf] at hy; cases hy)
      · refine hc'.missed fun y hy ↦ ?_
        rcases hnone with hnone | hnone <;>
        · rw [hnone] at hy
          cases hy
  | look _ ih =>
    exact Marked.Safe.of_atOnce (F := fun _ ↦ False) (Call.AtOnce.look hc)
      (fun b h' hc' ↦ ih b hc') fun _ hfail ↦ hfail.elim
  | elsewhere hstore _ ih =>
    exact Marked.Safe.of_atOnce (P := fun _ h' ↦ Balanced s h' log) (F := fun _ ↦ False)
      (Call.AtOnce.atomically (hc.retuned (hstore h))) (fun b h' hc' ↦ ih b hc')
      fun _ hfail ↦ hfail.elim
  | pause _ ih => exact ⟨hc, fun h' log' hc' _ ↦ ih hc'⟩
  | sleep _ ih => exact ⟨hc, fun h' log' hc' _ ↦ ih hc'⟩

/-- Tasks push to a store and pop from it, and may be cancelled. -/
def queueing (s : Nat) (ρ : Type) : Play.Rules Mark ρ := ⟨Queues s, [], True⟩

theorem keep_queueing (ρ : Type) : (queueing s ρ).Keep (Balanced s) where
  kept := kept_balanced
  aborts _ _ _ _ hc := hc.congr rfl
  opens hm := hm.opens
  safe hm i _ _ hc _ := hm.safe i hc

/-- All that is reached from an empty store is in balance, and its tasks will keep it so. -/
theorem sound_of_reachable {ρ : Type} {now : Nat} {tiers : Tiers} {p : Play Mark ρ}
    (hempty : tiers.store s = .empty)
    (hp : Play.Reachable (queueing s ρ) (Play.opening now tiers []) p) :
    p.Sound (Balanced s) [] := by
  have hinitial : Balanced s { Heap.initial with now := now, tiers := tiers } [] := by
    refine ⟨?_, fun key x hx ↦ ?_, ?_, fun key ↦ ?_, fun newer _ _ _ _ _ hlog ↦ ?_⟩
    · exact congrArg Store.offline hempty
    · rw [show ({ Heap.initial with now := now, tiers := tiers } : Heap).tiers.store s = .empty
        from hempty] at hx
      cases hx
    · exact congrArg Store.pushes hempty
    · rw [show ({ Heap.initial with now := now, tiers := tiers } : Heap).tiers.store s = .empty
        from hempty]
      rfl
    · cases newer <;> cases hlog
  exact hp.sound (keep_queueing ρ) (Play.sound_opening hinitial)

end Queue

end TwoTier
