import Mathlib.Data.List.Perm.Basic
import TwoTier.Proofs.Dict
import TwoTier.Proofs.Engine.Quiet

/-!
# A listener that is dropped

When nobody holds a listener any more, the loop that it is responsible for is told to end. All that
nobody holds is given up at once, but in whatever order this is done (`Tiers.abandonListener_comm`),
so that a listener which loses its last holder is dropped first, and the rest as it would be if the
listener were held still (`Tiers.release_eq_abandonListener`).
-/

set_option autoImplicit false
set_option relaxedAutoImplicit false

namespace TwoTier

namespace Tiers

variable {t : Tiers} {l : Nat} {held : List Held}

/-- The loops, once one of them was told to end. -/
def dismiss (loops : Dict Nat Loop) : Option Nat → Dict Nat Loop
  | none => loops
  | some r => loops.insert r { loops.getD r default with cancelled := true }

theorem getD_dismiss (loops : Dict Nat Loop) (o : Option Nat) (r : Nat) :
    (dismiss loops o).getD r default =
      if o = some r then { loops.getD r default with cancelled := true }
      else loops.getD r default := by
  cases o with
  | none => rfl
  | some i =>
    rw [dismiss, Dict.getD_insert]
    by_cases hi : r = i
    · rw [if_pos hi, if_pos (congrArg some hi.symm), hi]
    · rw [if_neg hi, if_neg fun h ↦ hi (Option.some.inj h).symm]

/-- Two loops are told to end in whatever order. -/
theorem dismiss_comm (loops : Dict Nat Loop) (o o' : Option Nat) :
    dismiss (dismiss loops o) o' = dismiss (dismiss loops o') o := by
  cases o with
  | none => rfl
  | some i =>
    cases o' with
    | none => rfl
    | some j =>
      refine Std.ExtTreeMap.ext_getElem? fun r ↦ ?_
      change ((dismiss loops (some i)).insert j _)[r]? = ((dismiss loops (some j)).insert i _)[r]?
      rw [getD_dismiss, getD_dismiss]
      simp only [dismiss, Dict.getElem?_insert, Option.some.injEq]
      by_cases hij : i = j
      · rw [hij]
      · rw [if_neg hij, if_neg (Ne.symm hij)]
        by_cases hi : r = i
        · rw [if_neg fun h ↦ hij (hi.symm.trans h), if_pos hi, if_pos hi]
        · rw [if_neg hi]
          split_ifs <;> rfl

theorem abandonListener_eq (t : Tiers) (i : Nat) :
    t.abandonListener i = { t with
      listeners := t.listeners.insert i { t.listener i with loop := none }
      loops := dismiss t.loops (t.listener i).loop } := by
  unfold abandonListener takeLoop
  cases (t.listener i).loop with
  | none => rfl
  | some r => rfl

theorem listener_abandonListener (t : Tiers) (i j : Nat) :
    (t.abandonListener i).listener j =
      if j = i then { t.listener i with loop := none } else t.listener j := by
  rw [abandonListener_eq]
  exact Dict.getD_insert ..

/-- Listeners are given up in whatever order. -/
theorem abandonListener_comm (t : Tiers) (i j : Nat) :
    (t.abandonListener i).abandonListener j = (t.abandonListener j).abandonListener i := by
  by_cases hij : i = j
  · rw [hij]
  · rw [abandonListener_eq (t.abandonListener i), abandonListener_eq (t.abandonListener j)]
    rw [listener_abandonListener, listener_abandonListener, if_neg (Ne.symm hij), if_neg hij]
    rw [abandonListener_eq, abandonListener_eq]
    congr 1
    · refine Std.ExtTreeMap.ext_getElem? fun k ↦ ?_
      simp only [Dict.getElem?_insert]
      by_cases hk : k = i
      · rw [if_pos hk, if_pos hk, if_neg fun h ↦ hij (hk.symm.trans h)]
      · rw [if_neg hk, if_neg hk]
    · exact dismiss_comm _ _ _

/-- What is held leads as far when a listener has given its loop up. -/
theorem closure_abandonListener (t : Tiers) (i : Nat) (held : List Held) :
    (t.abandonListener i).closure held = t.closure held := by
  have hsource : ∀ j, ((t.abandonListener i).listener j).source = (t.listener j).source := by
    intro j
    rw [listener_abandonListener]
    split_ifs with hj
    · rw [hj]
    · rfl
  have hleads : ∀ x, (t.abandonListener i).listenerOf x = t.listenerOf x := by
    intro x
    rw [abandonListener_eq]
    cases x <;> rfl
  unfold closure
  simp only [hsource, hleads]

/-- What is held when a listener is, besides what was held. -/
theorem mem_closure_cons {x : Held}
    (hstore : ∀ s, (t.listener l).source = .store s → .store s ∈ t.closure held) :
    x ∈ t.closure (.listener l :: held) ↔ x = .listener l ∨ x ∈ t.closure held := by
  constructor
  · intro hx
    rcases List.mem_append.mp hx with hx | hx
    · cases hsource : (t.listener l).source with
      | store s =>
        simp only [listenerOf, hsource, List.flatMap_cons, List.flatMap_nil, List.mem_cons,
          List.mem_append, List.not_mem_nil, or_false, or_self_left] at hx
        rcases hx with hx | hx
        · exact Or.inl hx
        · exact Or.inr (hx ▸ hstore s hsource)
      | server s =>
        simp only [listenerOf, hsource, List.flatMap_cons, List.flatMap_nil, List.mem_cons,
          List.mem_append, List.not_mem_nil, or_false, or_self] at hx
        exact Or.inl hx
    · exact Or.inr hx
  · intro hx
    rcases hx with hx | hx
    · rw [hx]
      exact List.mem_cons_self
    · exact List.mem_append_right _ hx

theorem nodup_keys_filter (d : Dict Nat Listener) (p : Nat → Bool) : (d.keys.filter p).Nodup := by
  refine List.Pairwise.filter _ (List.Pairwise.imp (fun {a b} hab heq ↦ ?_)
    (Std.ExtTreeMap.distinct_keys (t := d)))
  exact hab (Std.LawfulEqOrd.compare_eq_iff_eq.mpr heq)

/-- A listener loses its last holder, but its store is held still: it is dropped, and the rest is
given up as if the listener were held. -/
theorem release_eq_abandonListener (hl : l ∈ t.listeners) (hlost : .listener l ∉ t.closure held)
    (hstore : ∀ s, (t.listener l).source = .store s → .store s ∈ t.closure held) :
    t.release held = (t.abandonListener l).release (.listener l :: held) := by
  have hlisteners : (t.listeners.keys.filter fun i ↦ Held.listener i ∉ t.closure held).Perm
      (l :: (t.abandonListener l).listeners.keys.filter fun i ↦
        Held.listener i ∉ (t.abandonListener l).closure (.listener l :: held)) := by
    refine (List.perm_ext_iff_of_nodup (nodup_keys_filter _ _) (List.nodup_cons.mpr
      ⟨fun h ↦ ?_, nodup_keys_filter _ _⟩)).mpr fun i ↦ ?_
    · refine of_decide_eq_true (List.mem_filter.mp h).2 ?_
      rw [closure_abandonListener]
      exact (mem_closure_cons hstore).mpr (Or.inl rfl)
    · rw [List.mem_cons, List.mem_filter, List.mem_filter, closure_abandonListener,
        decide_eq_true_eq, decide_eq_true_eq, mem_closure_cons hstore, abandonListener_eq,
        Std.ExtTreeMap.mem_keys, Std.ExtTreeMap.mem_keys, Std.ExtTreeMap.mem_insert]
      by_cases hi : i = l
      · rw [hi]
        simp [hl, hlost]
      · simp [hi, Ne.symm hi]
  have hstores : (t.stores.keys.filter fun s ↦ Held.store s ∉ t.closure held) =
      (t.abandonListener l).stores.keys.filter fun s ↦
        Held.store s ∉ (t.abandonListener l).closure (.listener l :: held) := by
    have hsame : (t.abandonListener l).stores = t.stores := by rw [abandonListener_eq]
    rw [hsame]
    refine List.filter_congr fun s _ ↦ ?_
    rw [closure_abandonListener, decide_eq_decide, mem_closure_cons hstore]
    simp
  unfold release
  dsimp only
  rw [hlisteners.foldl_eq' fun i _ j _ t' ↦ abandonListener_comm t' i j, hstores]
  rfl

end Tiers

end TwoTier
