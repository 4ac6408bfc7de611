import TwoTier.Proofs.Dict
import TwoTier.Proofs.Engine.Quiet
import TwoTier.Proofs.Store.Subscriptions

/-!
# What happens beside a listener

A listener shares the tiers with much else: whatever is published, whoever subscribes, and other
listeners with their receive loops. Beside the listener (`Tiers.Aside`) means that it keeps its
stage and its loop, that no receive loop of it begins or ends, and that its subscriptions keep their
numbers.

All that a receive loop does happens beside a listener, but for the end of a loop of its own
(`Tiers.aside_or_endLoop`). Listeners and stores that are given up are beside those that are held
(`Tiers.aside_release`).
-/

set_option autoImplicit false
set_option relaxedAutoImplicit false

namespace TwoTier

/-- The subscription from which a loop receives for a listener, unless it has ended. -/
def Loop.receiver? (l : Nat) (y : Loop) : Option (Source × Nat) :=
  if y.listener = l ∧ y.ended = false then some (y.source, y.subscription) else none

/-- Two listeners that differ only in what they have counted, and in what they serve. -/
structure Listener.Alike (x x' : Listener) : Prop where
  source : x'.source = x.source
  channel : x'.channel = x.channel
  state : x'.state = x.state
  loop : x'.loop = x.loop

namespace Tiers

/-- The subscription from which a loop receives for a listener, while there is such a loop. -/
def receiver? (t : Tiers) (l r : Nat) : Option (Source × Nat) :=
  (t.loops[r]?).bind (Loop.receiver? l)

/-- The loops that listeners are responsible for have been made. -/
def Anchored (t : Tiers) : Prop := ∀ i r, (t.listener i).loop = some r → r ∈ t.loops

theorem listener_setListener (t : Tiers) (i j : Nat) (x : Listener) :
    (t.setListener i x).listener j = if j = i then x else t.listener j := by
  simp [listener, setListener]

theorem loop_of_getElem? {t : Tiers} {r : Nat} {y : Loop} (h : t.loops[r]? = some y) :
    t.loop r = y := by
  simp [loop, Std.ExtTreeMap.getD_eq_getD_getElem?, h]

theorem getElem?_loops {t : Tiers} {r : Nat} (h : r ∈ t.loops) :
    t.loops[r]? = some (t.loop r) := by
  obtain ⟨y, hy⟩ := (Dict.mem_iff_exists t.loops r).mp h
  rw [loop_of_getElem? hy]
  exact hy

theorem receiver?_of_mem {t : Tiers} {r : Nat} (h : r ∈ t.loops) (l : Nat) :
    t.receiver? l r = (t.loop r).receiver? l := by
  rw [receiver?, getElem?_loops h]
  rfl

theorem receiver?_setLoop (t : Tiers) (l i r : Nat) (y : Loop) :
    (t.setLoop i y).receiver? l r = if r = i then y.receiver? l else t.receiver? l r := by
  unfold receiver? setLoop
  rw [Dict.getElem?_insert]
  split <;> rfl

/-- Beside the listener `l` of the store `s`. -/
structure Aside (l s : Nat) (t t' : Tiers) : Prop where
  listener : (t.listener l).Alike (t'.listener l)
  receiver : ∀ r, t'.receiver? l r = t.receiver? l r
  next_le : t.next ≤ t'.next
  store : (t.store s).Follows (t'.store s)
  anchored : t.Anchored → t'.Anchored

namespace Aside

variable {l s : Nat} {t t' t'' : Tiers}

theorem refl (t : Tiers) : Aside l s t t where
  listener := ⟨rfl, rfl, rfl, rfl⟩
  receiver _ := rfl
  next_le := Nat.le_refl _
  store := .refl _
  anchored h := h

theorem trans (h : Aside l s t t') (h' : Aside l s t' t'') : Aside l s t t'' where
  listener := ⟨h'.listener.source.trans h.listener.source,
    h'.listener.channel.trans h.listener.channel, h'.listener.state.trans h.listener.state,
    h'.listener.loop.trans h.listener.loop⟩
  receiver r := (h'.receiver r).trans (h.receiver r)
  next_le := Nat.le_trans h.next_le h'.next_le
  store := h.store.trans h'.store
  anchored hanchored := h'.anchored (h.anchored hanchored)

end Aside

variable {l s : Nat}

/-! ### Changes of one thing -/

theorem aside_setLocal (t : Tiers) (i : Nat) (c : LocalCache) : Aside l s t (t.setLocal i c) :=
  ⟨⟨rfl, rfl, rfl, rfl⟩, fun _ ↦ rfl, Nat.le_refl _, .refl _, fun h ↦ h⟩

theorem aside_setServer (t : Tiers) (i : Nat) (x : Server) : Aside l s t (t.setServer i x) :=
  ⟨⟨rfl, rfl, rfl, rfl⟩, fun _ ↦ rfl, Nat.le_refl _, .refl _, fun h ↦ h⟩

theorem aside_setStore (t : Tiers) {i : Nat} {x : Store} (hx : (t.store i).Follows x) :
    Aside l s t (t.setStore i x) := by
  refine ⟨⟨rfl, rfl, rfl, rfl⟩, fun _ ↦ rfl, Nat.le_refl _, ?_, fun h ↦ h⟩
  rw [store_setStore]
  split_ifs with hs
  · rw [hs]
    exact hx
  · exact .refl _

/-- A listener changes that gains no loop; where it is the one beside which things happen, it has
only counted. -/
theorem aside_setListener (t : Tiers) {i : Nat} {x : Listener}
    (hx : i = l → (t.listener i).Alike x)
    (hloop : ∀ r, x.loop = some r → (t.listener i).loop = some r) :
    Aside l s t (t.setListener i x) := by
  refine ⟨?_, fun _ ↦ rfl, Nat.le_refl _, .refl _, fun h j r hr ↦ ?_⟩
  · rw [listener_setListener]
    split_ifs with hl
    · rw [hl]
      exact hx hl.symm
    · exact ⟨rfl, rfl, rfl, rfl⟩
  · rw [listener_setListener] at hr
    split_ifs at hr with hj
    · exact h i r (hloop r hr)
    · exact h j r hr

/-- A loop changes that receives as it did. -/
theorem aside_setLoop (t : Tiers) {r : Nat} {y : Loop} (hy : y.receiver? l = t.receiver? l r) :
    Aside l s t (t.setLoop r y) := by
  refine ⟨⟨rfl, rfl, rfl, rfl⟩, fun i ↦ ?_, Nat.le_refl _, .refl _, fun h i j hj ↦ ?_⟩
  · rw [receiver?_setLoop]
    split_ifs with hi
    · rw [hi, hy]
    · rfl
  · exact Std.ExtTreeMap.mem_insert.mpr (Or.inr (h i j hj))

theorem aside_cancelLoop {t : Tiers} {r : Nat} (hr : r ∈ t.loops) :
    Aside l s t (t.cancelLoop r) :=
  aside_setLoop t (receiver?_of_mem hr l).symm

/-! ### Receive loops -/

theorem aside_applyNotice (t : Tiers) (i : Nat) (payload : String) :
    Aside l s t (t.applyNotice i payload) := by
  unfold applyNotice
  dsimp only
  split
  · exact aside_setListener t (fun _ ↦ ⟨rfl, rfl, rfl, rfl⟩) fun _ h ↦ h
  · have hdrop : Aside l s t (t.setLocal (t.listener i).localTier
        ((t.localTier (t.listener i).localTier).drop payload)) :=
      aside_setLocal t _ _
    exact hdrop.trans (aside_setListener _ (fun _ ↦ ⟨rfl, rfl, rfl, rfl⟩) fun _ h ↦ h)

theorem aside_failNotice (t : Tiers) (i : Nat) : Aside l s t (t.failNotice i) :=
  aside_setListener t (fun _ ↦ ⟨rfl, rfl, rfl, rfl⟩) fun _ h ↦ h

theorem aside_unsubscribe (t : Tiers) (source : Source) (i : Nat) :
    Aside l s t (t.unsubscribe source i) := by
  unfold unsubscribe
  split
  · exact aside_setStore t (Store.follows_unsubscribe _ _)
  · exact aside_setServer t _ _

theorem loops_unsubscribe (t : Tiers) (source : Source) (i : Nat) :
    (t.unsubscribe source i).loops = t.loops := by
  unfold unsubscribe
  split <;> rfl

/-- The end of a loop of another listener. -/
theorem aside_endLoop {t : Tiers} {r : Nat} (hr : r ∈ t.loops) (hl : (t.loop r).listener ≠ l) :
    Aside l s t (t.endLoop r) := by
  have hclose : Aside l s t (t.closeLoop r) := by
    refine (aside_unsubscribe t _ _).trans (aside_setLoop _ ?_)
    unfold receiver?
    rw [loops_unsubscribe, getElem?_loops hr]
    simp [Loop.receiver?, hl]
  unfold endLoop
  dsimp only
  split
  · exact hclose.trans (aside_setListener _ (fun h ↦ absurd h hl) fun _ h ↦ h)
  · exact hclose

theorem loops_applyNotice (t : Tiers) (i : Nat) (payload : String) :
    (t.applyNotice i payload).loops = t.loops := by
  unfold applyNotice
  dsimp only
  split <;> rfl

theorem mem_loops_endLoop {t : Tiers} {r : Nat} (hr : r ∈ t.loops) : r ∈ (t.endLoop r).loops := by
  have hclose : r ∈ (t.closeLoop r).loops := by
    refine Std.ExtTreeMap.mem_insert.mpr (Or.inr ?_)
    rw [loops_unsubscribe]
    exact hr
  unfold endLoop
  dsimp only
  split <;> exact hclose

/-- A receive loop that takes a step does nothing that is not beside a listener, or ends. -/
theorem aside_or_endLoop (t : Tiers) (r : Nat) :
    (Aside l s t (t.stepLoop r) ∧ (t.stepLoop r).loops = t.loops) ∨
      ∃ t', Aside l s t t' ∧ t'.loops = t.loops ∧ t.stepLoop r = t'.endLoop r := by
  unfold stepLoop
  dsimp only
  split
  · exact Or.inl ⟨.refl t, rfl⟩
  · split
    · exact Or.inr ⟨t, .refl t, rfl, rfl⟩
    · split
      · rename_i i _
        have hreceive : Aside l s t
            (t.setStore i ((t.store i).receive (t.loop r).subscription).2) :=
          aside_setStore t (Store.follows_receive _ _)
        split
        · exact Or.inl ⟨hreceive.trans (aside_applyNotice _ _ _), loops_applyNotice _ _ _⟩
        · exact Or.inl ⟨hreceive.trans (aside_failNotice _ _), rfl⟩
        · exact Or.inr ⟨_, hreceive, rfl, rfl⟩
        · exact Or.inl ⟨.refl t, rfl⟩
      · split
        · split
          · exact Or.inl ⟨(aside_setServer t _ _).trans (aside_applyNotice _ _ _),
              loops_applyNotice _ _ _⟩
          · exact Or.inl ⟨(aside_setServer t _ _).trans (aside_failNotice _ _), rfl⟩
        · exact Or.inr ⟨_, aside_setServer t _ _, rfl, rfl⟩
        · exact Or.inl ⟨.refl t, rfl⟩

/-! ### Giving up -/

theorem aside_abandonListener {t : Tiers} (h : t.Anchored) {i : Nat} (hi : i ≠ l) :
    Aside l s t (t.abandonListener i) := by
  have htaken : Aside l s t (t.takeLoop i).2 :=
    aside_setListener t (fun h ↦ absurd h hi) fun _ hr ↦ absurd hr.symm (Option.some_ne_none _)
  unfold abandonListener
  split
  · rename_i r t' heq
    rw [heq] at htaken
    obtain ⟨hloop, rfl⟩ := Prod.mk.inj heq
    exact htaken.trans (aside_cancelLoop (h i r hloop))
  · rename_i t' heq
    rw [heq] at htaken
    exact htaken

/-- What is given up is not what is reached from a holder. -/
theorem aside_release_of_closure {t : Tiers} (h : t.Anchored) {held : List Held}
    (hkept : Held.listener l ∈ t.closure held) : Aside l s t (t.release held) := by
  refine release_of_lost .refl .trans (fun i hi t' ht' ↦ ?_) fun i _ t' _ ↦ ?_
  · exact aside_abandonListener (ht'.anchored h) fun hil ↦ hi (hil ▸ hkept)
  · exact aside_setStore t' (Store.follows_disconnectAll _)

/-- What is given up is not what is held. -/
theorem aside_release {t : Tiers} (h : t.Anchored) {held : List Held}
    (hl : Held.listener l ∈ held) : Aside l s t (t.release held) :=
  aside_release_of_closure h (List.mem_flatMap.mpr ⟨_, hl, List.mem_cons_self⟩)

end Tiers

end TwoTier
