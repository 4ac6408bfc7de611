import Mathlib.Tactic.Common
import TwoTier.Store.Basic

/-!
# What becomes of subscriptions

A subscription keeps its number and its channel for as long as it lasts, and no later one takes its
number (`Store.Follows`). Whatever is published, and whoever is disconnected, leaves or joins, it
stays so.
-/

set_option autoImplicit false
set_option relaxedAutoImplicit false

namespace TwoTier

namespace Store

/-- Every subscription of the second store is one of the first, or has come after all of those. -/
structure Follows (x x' : Store) : Prop where
  next_le : x.nextSubscriber ≤ x'.nextSubscriber
  subscriber : ∀ u' ∈ x'.subscribers,
    (∃ u ∈ x.subscribers, u'.id = u.id ∧ u'.channel = u.channel) ∨
      (x.nextSubscriber ≤ u'.id ∧ u'.id < x'.nextSubscriber)

/-- Every subscription of a store has a number that has been given. -/
def Issued (x : Store) : Prop := ∀ u ∈ x.subscribers, u.id < x.nextSubscriber

namespace Follows

variable {x x' x'' : Store}

theorem refl (x : Store) : Follows x x where
  next_le := Nat.le_refl _
  subscriber u hu := Or.inl ⟨u, hu, rfl, rfl⟩

theorem trans (h : Follows x x') (h' : Follows x' x'') : Follows x x'' where
  next_le := Nat.le_trans h.next_le h'.next_le
  subscriber u'' hu'' := by
    rcases h'.subscriber u'' hu'' with ⟨u', hu', hid', hchannel'⟩ | ⟨hle, hlt⟩
    · rcases h.subscriber u' hu' with ⟨u, hu, hid, hchannel⟩ | ⟨hle, hlt⟩
      · exact Or.inl ⟨u, hu, hid'.trans hid, hchannel'.trans hchannel⟩
      · rw [← hid'] at hle hlt
        exact Or.inr ⟨hle, Nat.lt_of_lt_of_le hlt h'.next_le⟩
    · exact Or.inr ⟨Nat.le_trans h.next_le hle, hlt⟩

/-- Where no number was given nobody has subscribed. -/
theorem exists_of_mem (h : Follows x x') (hnext : x'.nextSubscriber = x.nextSubscriber)
    {u : Subscriber} (hu : u ∈ x'.subscribers) : ∃ v ∈ x.subscribers, v.id = u.id := by
  rcases h.subscriber u hu with ⟨v, hv, hid, -⟩ | ⟨hle, hlt⟩
  · exact ⟨v, hv, hid.symm⟩
  · rw [hnext] at hlt
    exact absurd hlt (Nat.not_lt.mpr hle)

theorem issued (h : Follows x x') (hissued : x.Issued) : x'.Issued := by
  intro u' hu'
  rcases h.subscriber u' hu' with ⟨u, hu, hid, -⟩ | ⟨-, hlt⟩
  · rw [hid]
    exact Nat.lt_of_lt_of_le (hissued u hu) h.next_le
  · exact hlt

/-- A number that has been given still belongs to a subscription to the same channel. -/
theorem channel_eq (h : Follows x x') {i : Nat} (hi : i < x.nextSubscriber) {channel : String}
    (hchannel : ∀ u ∈ x.subscribers, u.id = i → u.channel = channel) :
    ∀ u' ∈ x'.subscribers, u'.id = i → u'.channel = channel := by
  intro u' hu' hid'
  rcases h.subscriber u' hu' with ⟨u, hu, hid, heq⟩ | ⟨hle, -⟩
  · rw [heq]
    exact hchannel u hu (hid.symm.trans hid')
  · rw [hid'] at hle
    exact absurd hi (Nat.not_lt.mpr hle)

/-- What changes each subscription by itself, and neither its number nor its channel. -/
theorem of_map {f : Subscriber → Subscriber} (hnext : x'.nextSubscriber = x.nextSubscriber)
    (hmap : x'.subscribers = x.subscribers.map f) (hid : ∀ u, (f u).id = u.id)
    (hchannel : ∀ u, (f u).channel = u.channel) : Follows x x' where
  next_le := Nat.le_of_eq hnext.symm
  subscriber u' hu' := by
    rw [hmap] at hu'
    obtain ⟨u, hu, rfl⟩ := List.mem_map.mp hu'
    exact Or.inl ⟨u, hu, hid u, hchannel u⟩

end Follows

theorem id_deliver (payload : String) (u : Subscriber) :
    (u.deliver payload).id = u.id ∧ (u.deliver payload).channel = u.channel := by
  unfold Subscriber.deliver
  dsimp only
  split <;> exact ⟨rfl, rfl⟩

theorem id_receive (u : Subscriber) :
    u.receive.2.id = u.id ∧ u.receive.2.channel = u.channel := by
  unfold Subscriber.receive
  split
  · exact ⟨rfl, rfl⟩
  · split <;> exact ⟨rfl, rfl⟩

theorem follows_whenOnline {α : Type} {f : Store → Outcome α × Store}
    (hf : ∀ x, Follows x (f x).2) (x : Store) : Follows x (whenOnline f x).2 := by
  unfold whenOnline
  split
  · exact .refl x
  · exact hf x

theorem follows_publish (channel payload : String) (x : Store) :
    Follows x (publish channel payload x).2 := by
  refine follows_whenOnline (fun x ↦ ?_) x
  refine .of_map rfl rfl (fun u ↦ ?_) fun u ↦ ?_
  · split
    · exact (id_deliver payload u).1
    · rfl
  · split
    · exact (id_deliver payload u).2
    · rfl

theorem follows_subscribe (channel : String) (x : Store) :
    Follows x (subscribe channel x).2 := by
  refine follows_whenOnline (fun x ↦ ⟨Nat.le_succ _, fun u' hu' ↦ ?_⟩) x
  rcases List.mem_append.mp hu' with hu' | hu'
  · exact Or.inl ⟨u', hu', rfl, rfl⟩
  · rw [List.mem_singleton.mp hu']
    exact Or.inr ⟨Nat.le_refl _, Nat.lt_succ_self _⟩

/-- A subscription that was made has a number of its own, and the channel that was asked for. -/
theorem subscribe_eq_ok {channel : String} {x : Store} {i : Nat} (hissued : x.Issued)
    (h : (subscribe channel x).1 = .ok i) :
    i < (subscribe channel x).2.nextSubscriber ∧
      ∀ u ∈ (subscribe channel x).2.subscribers, u.id = i → u.channel = channel := by
  unfold subscribe whenOnline at h ⊢
  split_ifs at h ⊢ with hoffline
  obtain rfl := Outcome.ok.inj h
  refine ⟨Nat.lt_succ_self _, fun u hu hid ↦ ?_⟩
  rcases List.mem_append.mp hu with hu | hu
  · exact absurd hid (Nat.ne_of_lt (hissued u hu))
  · rw [List.mem_singleton.mp hu]

theorem subscribe_ne_overflow (channel : String) (x : Store) :
    (subscribe channel x).1 ≠ .overflow := by
  unfold subscribe whenOnline
  split_ifs <;> simp

theorem follows_receive (i : Nat) (x : Store) : Follows x (x.receive i).2 := by
  unfold receive Subscribers.receive
  dsimp only
  split
  · exact .refl x
  · rename_i u hfound
    refine ⟨Nat.le_refl _, fun u' hu' ↦ Or.inl ?_⟩
    obtain ⟨v, hv, rfl⟩ := List.mem_map.mp hu'
    split
    · exact ⟨u, List.mem_of_find?_eq_some hfound, id_receive u⟩
    · exact ⟨v, hv, rfl, rfl⟩

/-- A subscription that waits for something to be published is attached. -/
theorem attached_of_pending {i : Nat} {x : Store} (h : (x.receive i).1 = .pending) :
    ∃ u ∈ x.subscribers, u.id = i ∧ u.attached = true := by
  unfold receive Subscribers.receive at h
  dsimp only at h
  split at h
  · cases h
  · rename_i u hfound
    refine ⟨u, List.mem_of_find?_eq_some hfound, ?_, ?_⟩
    · have hid := List.find?_some hfound
      exact of_decide_eq_true hid
    · unfold Subscriber.receive at h
      split at h
      · cases h
      · split at h
        · cases h
        · by_contra hdetached
          rw [if_neg hdetached] at h
          cases h

theorem follows_unsubscribe (i : Nat) (x : Store) : Follows x (x.unsubscribe i) where
  next_le := Nat.le_refl _
  subscriber u hu := Or.inl ⟨u, (List.mem_filter.mp hu).1, rfl, rfl⟩

theorem follows_disconnect (channel : String) (x : Store) :
    Follows x (x.disconnect channel) := by
  refine .of_map rfl rfl (fun u ↦ ?_) fun u ↦ ?_
  · split <;> rfl
  · split <;> rfl

theorem follows_disconnectAll (x : Store) :
    Follows x { x with subscribers := x.subscribers.disconnectAll } :=
  .of_map rfl rfl (fun _ ↦ rfl) fun _ ↦ rfl

end Store

end TwoTier
