import Mathlib.Tactic.Common
import TwoTier.Engine.Holding
import TwoTier.Proofs.Local.Table

/-!
# What happens to a local tier and a store by themselves

Receive loops remove keys from local tiers, and what is given up ends subscriptions. To a local tier
and a store this is quiet (`Tiers.Quiet`): the local tier gains no entry, and the data of the store
are as they were (`Tiers.quiet_stepLoop`, `Tiers.quiet_release`). More exactly, a receive loop drops
a key of a local tier at most (`Tiers.localTier_stepLoop`), and of a store it touches the
subscriptions only (`Tiers.retuned_stepLoop`).
-/

set_option autoImplicit false
set_option relaxedAutoImplicit false

namespace TwoTier

/-- Every entry of the first table is one of the second, with the same value. -/
def Table.Within (t t' : Table) : Prop :=
  ∀ key e, t.get? key = some e → ∃ e', t'.get? key = some e' ∧ e'.value = e.value

namespace Table.Within

theorem refl (t : Table) : t.Within t := fun _ e he ↦ ⟨e, he, rfl⟩

theorem trans {a b c : Table} (h : a.Within b) (h' : b.Within c) : a.Within c := by
  intro key e he
  obtain ⟨e', he', hvalue⟩ := h key e he
  obtain ⟨e'', he'', hvalue'⟩ := h' key e' he'
  exact ⟨e'', he'', hvalue'.trans hvalue⟩

/-- What is absent stays absent. -/
theorem eq_none {t t' : Table} (h : t.Within t') {key : String} (hkey : t'.get? key = none) :
    t.get? key = none := by
  rw [Option.eq_none_iff_forall_ne_some]
  intro e he
  obtain ⟨e', he', -⟩ := h key e he
  rw [hkey] at he'
  exact Option.some_ne_none e' he'.symm

end Table.Within

/-- The second store differs from the first in its subscriptions only. -/
def Store.Retuned (x x' : Store) : Prop := ∃ subscribers, x' = { x with subscribers := subscribers }

theorem Store.Retuned.refl (x : Store) : x.Retuned x := ⟨x.subscribers, rfl⟩

theorem Store.Retuned.trans {x x' x'' : Store} (h : x.Retuned x') (h' : x'.Retuned x'') :
    x.Retuned x'' := by
  obtain ⟨subscribers, rfl⟩ := h
  obtain ⟨subscribers', rfl⟩ := h'
  exact ⟨subscribers', rfl⟩

namespace Tiers

/-- The local tier `l` has gained no entry and the store `s` has the same data. -/
structure Quiet (l s : Nat) (t t' : Tiers) : Prop where
  near : (t'.localTier l).table.Within (t.localTier l).table
  closed : (t'.localTier l).closed = (t.localTier l).closed
  data : (t'.store s).data = (t.store s).data
  offline : (t'.store s).offline = (t.store s).offline

namespace Quiet

variable {l s : Nat} {t t' t'' : Tiers}

theorem of_eq (hlocal : t'.localTier l = t.localTier l) (hstore : t'.store s = t.store s) :
    Quiet l s t t' where
  near := by
    rw [hlocal]
    exact .refl _
  closed := by rw [hlocal]
  data := by rw [hstore]
  offline := by rw [hstore]

theorem refl (t : Tiers) : Quiet l s t t := of_eq rfl rfl

theorem trans (h : Quiet l s t t') (h' : Quiet l s t' t'') : Quiet l s t t'' where
  near := h'.near.trans h.near
  closed := h'.closed.trans h.closed
  data := h'.data.trans h.data
  offline := h'.offline.trans h.offline

end Quiet

variable {l s : Nat}

theorem quiet_setLocal (t : Tiers) {i : Nat} {c : LocalCache}
    (hnear : c.table.Within (t.localTier i).table) (hclosed : c.closed = (t.localTier i).closed) :
    Quiet l s t (t.setLocal i c) := by
  have hlocal := localTier_setLocal t i l c
  by_cases hl : l = i
  · rw [if_pos hl] at hlocal
    refine ⟨?_, ?_, rfl, rfl⟩
    · rw [hlocal, hl]
      exact hnear
    · rw [hlocal, hl]
      exact hclosed
  · rw [if_neg hl] at hlocal
    exact .of_eq hlocal rfl

theorem quiet_setStore (t : Tiers) {i : Nat} {x : Store} (hdata : x.data = (t.store i).data)
    (hoffline : x.offline = (t.store i).offline) : Quiet l s t (t.setStore i x) := by
  have hstore := store_setStore t i s x
  by_cases hs : s = i
  · rw [if_pos hs] at hstore
    refine ⟨.refl _, rfl, ?_, ?_⟩
    · rw [hstore, hs]
      exact hdata
    · rw [hstore, hs]
      exact hoffline
  · rw [if_neg hs] at hstore
    exact .of_eq rfl hstore

theorem quiet_setListener (t : Tiers) (i : Nat) (x : Listener) :
    Quiet l s t (t.setListener i x) :=
  .of_eq rfl rfl

theorem quiet_setLoop (t : Tiers) (i : Nat) (x : Loop) : Quiet l s t (t.setLoop i x) :=
  .of_eq rfl rfl

theorem quiet_setServer (t : Tiers) (i : Nat) (x : Server) : Quiet l s t (t.setServer i x) :=
  .of_eq rfl rfl

theorem within_remove (t : Table) (key : String) : (t.remove key).Within t := by
  intro j e he
  rw [Table.get?_remove] at he
  split_ifs at he
  exact ⟨e, he, rfl⟩

/-! ### Receive loops -/

theorem quiet_applyNotice (t : Tiers) (i : Nat) (payload : String) :
    Quiet l s t (t.applyNotice i payload) := by
  unfold applyNotice
  dsimp only
  split
  · exact quiet_setListener t i _
  · have hdrop : Quiet l s t (t.setLocal (t.listener i).localTier
        ((t.localTier (t.listener i).localTier).drop payload)) :=
      quiet_setLocal t (within_remove _ payload) rfl
    exact hdrop.trans (quiet_setListener _ i _)

theorem quiet_failNotice (t : Tiers) (i : Nat) : Quiet l s t (t.failNotice i) :=
  quiet_setListener t i _

theorem quiet_closeLoop (t : Tiers) (r : Nat) : Quiet l s t (t.closeLoop r) := by
  refine Quiet.trans ?_ (quiet_setLoop _ r _)
  unfold unsubscribe
  split
  · exact quiet_setStore t rfl rfl
  · exact quiet_setServer t _ _

theorem quiet_endLoop (t : Tiers) (r : Nat) : Quiet l s t (t.endLoop r) := by
  unfold endLoop
  dsimp only
  split
  · exact (quiet_closeLoop t r).trans (quiet_setListener _ _ _)
  · exact quiet_closeLoop t r

theorem data_receive (x : Store) (i : Nat) :
    (x.receive i).2.data = x.data ∧ (x.receive i).2.offline = x.offline := ⟨rfl, rfl⟩

/-- A receive loop adds no entry to a local tier and changes no data of a store. -/
theorem quiet_stepLoop (t : Tiers) (r : Nat) : Quiet l s t (t.stepLoop r) := by
  unfold stepLoop
  dsimp only
  split
  · exact .refl t
  · split
    · exact quiet_endLoop t r
    · split
      · rename_i i _
        have hreceive : Quiet l s t
            (t.setStore i ((t.store i).receive (t.loop r).subscription).2) :=
          quiet_setStore t (data_receive _ _).1 (data_receive _ _).2
        split
        · exact hreceive.trans (quiet_applyNotice _ _ _)
        · exact hreceive.trans (quiet_failNotice _ _)
        · exact hreceive.trans (quiet_endLoop _ r)
        · exact .refl t
      · split
        · split
          · exact (quiet_setServer t _ _).trans (quiet_applyNotice _ _ _)
          · exact (quiet_setServer t _ _).trans (quiet_failNotice _ _)
        · exact (quiet_setServer t _ _).trans (quiet_endLoop _ r)
        · exact .refl t

/-! ### Giving up -/

/-- What nobody holds any more is given up one by one: listeners, and then stores, but nothing that
is held. What each of these steps keeps is kept. -/
theorem release_of_lost {R : Tiers → Tiers → Prop} {t : Tiers} {held : List Held}
    (hrefl : ∀ t, R t t) (htrans : ∀ {t t' t''}, R t t' → R t' t'' → R t t'')
    (hlistener : ∀ i, Held.listener i ∉ t.closure held → ∀ t', R t t' → R t' (t'.abandonListener i))
    (hstore : ∀ i, Held.store i ∉ t.closure held → ∀ t', R t t' → R t' (t'.abandonStore i)) :
    R t (t.release held) := by
  have hfoldl : ∀ {step : Tiers → Nat → Tiers} {is : List Nat} {t' : Tiers},
      (∀ i ∈ is, ∀ t', R t t' → R t' (step t' i)) → R t t' → R t (is.foldl step t') := by
    intro step is t' hstep ht'
    induction is generalizing t' with
    | nil => exact ht'
    | cons i is ih =>
      exact ih (fun j hj ↦ hstep j (List.mem_cons_of_mem i hj))
        (htrans ht' (hstep i List.mem_cons_self t' ht'))
  refine hfoldl (fun i hi ↦ hstore i ?_) (hfoldl (fun i hi ↦ hlistener i ?_) (hrefl t))
  · exact of_decide_eq_true (List.mem_filter.mp hi).2
  · exact of_decide_eq_true (List.mem_filter.mp hi).2

/-- What the giving up of any listener and of any store keeps is kept. -/
theorem release_of_abandon {R : Tiers → Tiers → Prop} (hrefl : ∀ t, R t t)
    (htrans : ∀ {t t' t''}, R t t' → R t' t'' → R t t'')
    (hlistener : ∀ (t : Tiers) i, R t (t.abandonListener i))
    (hstore : ∀ (t : Tiers) i, R t (t.abandonStore i)) (t : Tiers) (held : List Held) :
    R t (t.release held) :=
  release_of_lost hrefl htrans (fun i _ t' _ ↦ hlistener t' i) fun i _ t' _ ↦ hstore t' i

/-- To give something up changes listeners, receive loops and the subscriptions to stores. What each
such change keeps is kept. -/
theorem release_rel {R : Tiers → Tiers → Prop} (hrefl : ∀ t, R t t)
    (htrans : ∀ {t t' t''}, R t t' → R t' t'' → R t t'')
    (hlistener : ∀ (t : Tiers) listeners loops,
      R t { t with listeners := listeners, loops := loops })
    (hstore : ∀ (t : Tiers) i subscribers,
      R t (t.setStore i { t.store i with subscribers := subscribers }))
    (t : Tiers) (held : List Held) : R t (t.release held) := by
  refine release_of_abandon hrefl htrans (fun t i ↦ ?_) (fun t i ↦ hstore t i _) t held
  unfold abandonListener takeLoop
  split <;> rename_i htaken <;> obtain ⟨-, rfl⟩ := Prod.mk.inj htaken <;> exact hlistener t _ _

/-- What is given up is no entry of a local tier and no data of a store. -/
theorem quiet_release (t : Tiers) (held : List Held) : Quiet l s t (t.release held) :=
  release_rel .refl .trans (fun _ _ _ ↦ .of_eq rfl rfl)
    (fun t _ _ ↦ quiet_setStore t rfl rfl) t held

/-- Nothing that is given up is part of a local tier. -/
theorem localTier_release (t : Tiers) (held : List Held) (n : Nat) :
    (t.release held).localTier n = t.localTier n :=
  release_rel (R := fun t t' ↦ t'.localTier n = t.localTier n) (fun _ ↦ rfl)
    (fun h h' ↦ h'.trans h) (fun _ _ _ ↦ rfl) (fun _ _ _ ↦ rfl) t held

/-- What is given up is no fetch that has begun. -/
theorem begun_release (t : Tiers) (held : List Held) : (t.release held).begun = t.begun :=
  release_rel (R := fun t t' ↦ t'.begun = t.begun) (fun _ ↦ rfl) (fun h h' ↦ h'.trans h)
    (fun _ _ _ ↦ rfl) (fun _ _ _ ↦ rfl) t held

/-! ### Local tiers, entry by entry -/

theorem localTier_closeLoop (t : Tiers) (r n : Nat) :
    (t.closeLoop r).localTier n = t.localTier n := by
  unfold closeLoop unsubscribe
  dsimp only
  split <;> rfl

theorem localTier_endLoop (t : Tiers) (r n : Nat) : (t.endLoop r).localTier n = t.localTier n := by
  unfold endLoop
  dsimp only
  split
  · exact localTier_closeLoop t r n
  · exact localTier_closeLoop t r n

theorem localTier_applyNotice (t : Tiers) (i : Nat) (payload : String) (n : Nat) :
    (t.applyNotice i payload).localTier n = t.localTier n ∨
      (t.applyNotice i payload).localTier n = (t.localTier n).drop payload := by
  unfold applyNotice
  dsimp only
  split
  · exact Or.inl rfl
  · have hlocal := localTier_setLocal t (t.listener i).localTier n
      ((t.localTier (t.listener i).localTier).drop payload)
    by_cases hn : n = (t.listener i).localTier
    · rw [if_pos hn, ← hn] at hlocal
      exact Or.inr (hn ▸ hlocal)
    · rw [if_neg hn] at hlocal
      exact Or.inl hlocal

/-- What a receive loop does to a local tier is to drop a key. -/
theorem localTier_stepLoop (t : Tiers) (r n : Nat) :
    (t.stepLoop r).localTier n = t.localTier n ∨
      ∃ key, (t.stepLoop r).localTier n = (t.localTier n).drop key := by
  have hnotice : ∀ (t' : Tiers) (i : Nat) (payload : String), t'.localTier n = t.localTier n →
      (t'.applyNotice i payload).localTier n = t.localTier n ∨
        ∃ key, (t'.applyNotice i payload).localTier n = (t.localTier n).drop key := by
    intro t' i payload ht'
    rw [← ht']
    exact (localTier_applyNotice t' i payload n).imp id fun h ↦ ⟨payload, h⟩
  unfold stepLoop
  dsimp only
  split
  · exact Or.inl rfl
  · split
    · exact Or.inl (localTier_endLoop t r n)
    · split
      · split
        · exact hnotice _ _ _ rfl
        · exact Or.inl rfl
        · exact Or.inl (localTier_endLoop _ r n)
        · exact Or.inl rfl
      · split
        · split
          · exact hnotice _ _ _ rfl
          · exact Or.inl rfl
        · exact Or.inl (localTier_endLoop _ r n)
        · exact Or.inl rfl

/-! ### Stores, but for their subscriptions -/

theorem retuned_setStore (t : Tiers) {i : Nat} {x : Store} (hx : (t.store i).Retuned x) (s : Nat) :
    (t.store s).Retuned ((t.setStore i x).store s) := by
  rw [store_setStore]
  split_ifs with hs
  · rw [hs]
    exact hx
  · exact .refl _

theorem retuned_closeLoop (t : Tiers) (r s : Nat) :
    (t.store s).Retuned ((t.closeLoop r).store s) := by
  unfold closeLoop unsubscribe
  dsimp only
  split
  · exact retuned_setStore t ⟨_, rfl⟩ s
  · exact .refl _

theorem retuned_endLoop (t : Tiers) (r s : Nat) : (t.store s).Retuned ((t.endLoop r).store s) := by
  unfold endLoop
  dsimp only
  split
  · exact retuned_closeLoop t r s
  · exact retuned_closeLoop t r s

theorem store_applyNotice (t : Tiers) (i : Nat) (payload : String) (s : Nat) :
    (t.applyNotice i payload).store s = t.store s := by
  unfold applyNotice
  dsimp only
  split <;> rfl

/-- What a receive loop does to a store is to take from its subscriptions. -/
theorem retuned_stepLoop (t : Tiers) (r s : Nat) :
    (t.store s).Retuned ((t.stepLoop r).store s) := by
  unfold stepLoop
  dsimp only
  split
  · exact .refl _
  · split
    · exact retuned_endLoop t r s
    · split
      · rename_i i _
        have hreceive := retuned_setStore t
          (⟨_, rfl⟩ : (t.store i).Retuned ((t.store i).receive (t.loop r).subscription).2) s
        split
        · rw [store_applyNotice]
          exact hreceive
        · exact hreceive
        · exact hreceive.trans (retuned_endLoop _ r s)
        · exact .refl _
      · split
        · split
          · rw [store_applyNotice]
            exact .refl _
          · exact .refl _
        · exact retuned_endLoop _ r s
        · exact .refl _

/-- What is given up of a store are its subscriptions. -/
theorem retuned_release (t : Tiers) (held : List Held) (s : Nat) :
    (t.store s).Retuned ((t.release held).store s) :=
  release_rel (R := fun t t' ↦ (t.store s).Retuned (t'.store s)) (fun _ ↦ .refl _) .trans
    (fun _ _ _ ↦ .refl _) (fun t _ _ ↦ retuned_setStore t ⟨_, rfl⟩ s) t held

end Tiers

end TwoTier
