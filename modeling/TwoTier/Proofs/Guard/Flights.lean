import Mathlib.Data.List.Nodup
import TwoTier.Proofs.Dict
import TwoTier.Proofs.Engine.Schedule
import TwoTier.Proofs.Guard.History

/-!
# The guards and their history

The tables of the guards, the fills that have not ended and the outcomes kept for callers are all
determined by the history of the guards (`Guard.Kept`), and the history is legal.

A call is taken back from its fill, joins a fill or starts one, and a fill ends. Each of these four
events keeps `Guard.Kept`, whoever is behind it.
-/

set_option autoImplicit false
set_option relaxedAutoImplicit false

namespace TwoTier

/-- A fill that has not ended: its number, and the guard and the key whose record it is. -/
structure Flight where
  id : Nat
  guard : Nat
  key : String

/-- The flight of a fill. -/
def Fill.flight (f : Fill) : Flight := ⟨f.id, f.guard, f.key⟩

namespace Guard

/-- Whether an event is a call that reaches a guard. -/
def Event.isCall (g : Nat) : Event → Bool
  | called _ g' _ _ => g' = g
  | _ => false

/-- Whether an event is the end of a fill of a guard. -/
def Event.isEnd (g : Nat) : Event → Bool
  | ended _ g' _ _ => g' = g
  | _ => false

/-- The tables, the fills that have not ended and the outcomes are those that a legal history
leads to. -/
structure Kept (guards : Dict Nat Guard) (next : Nat) (flights : List Flight)
    (outcomes : Dict Nat (Answer String)) (es : List Event) : Prop where
  legal : Legal es
  nodup : (flights.map Flight.id).Nodup
  flight_lt : ∀ f ∈ flights, f.id < next
  fill_lt : ∀ e ∈ es, e.fill < next
  outcome_eq_none : ∀ f ∈ flights, outcomes[f.id]? = none
  outcome_iff : ∀ i o, outcomes[i]? = some o ↔ ∃ g key c, .ended i g key c ∈ es ∧ o = c.outcome
  table : ∀ g key, (guards.getD g default).inFlight[key]? = flightOf g key es
  flight_iff : ∀ g key i, flightOf g key es = some i ↔ ⟨i, g, key⟩ ∈ flights
  called : ∀ th g key i, .called th g key i ∈ es →
    ⟨i, g, key⟩ ∈ flights ∨ ∃ c, .ended i g key c ∈ es
  counted : ∀ g, (guards.getD g default).started + (guards.getD g default).coalesced =
    es.countP (Event.isCall g)
  started : ∀ g, (guards.getD g default).inFlight.size + es.countP (Event.isEnd g) =
    (guards.getD g default).started

section Events

variable {guards : Dict Nat Guard} {next : Nat} {flights : List Flight}
  {outcomes : Dict Nat (Answer String)} {es : List Event}

theorem kept_nil : Kept ∅ 0 [] ∅ [] where
  legal := trivial
  nodup := List.nodup_nil
  flight_lt _ hf := absurd hf List.not_mem_nil
  fill_lt _ he := absurd he List.not_mem_nil
  outcome_eq_none _ hf := absurd hf List.not_mem_nil
  outcome_iff i o := by simp
  table g key := by simp [default, empty, flightOf]
  flight_iff g key i := by simp [flightOf]
  called th g key i h := absurd h List.not_mem_nil
  counted g := by simp [default, empty]
  started g := by simp [default, empty]

/-- Threads may be numbered while the guards are at rest. -/
theorem Kept.mono (h : Kept guards next flights outcomes es) {next' : Nat} (hnext : next ≤ next') :
    Kept guards next' flights outcomes es :=
  { h with
    flight_lt := fun f hf ↦ Nat.lt_of_lt_of_le (h.flight_lt f hf) hnext
    fill_lt := fun e he ↦ Nat.lt_of_lt_of_le (h.fill_lt e he) hnext }

theorem Kept.fill_lt_cons (h : Kept guards next flights outcomes es) {next' : Nat} {e : Event}
    (hnext : next ≤ next') (he : e.fill < next') : ∀ e' ∈ e :: es, e'.fill < next' := by
  intro e' he'
  rcases List.mem_cons.mp he' with rfl | he'
  · exact he
  · exact Nat.lt_of_lt_of_le (h.fill_lt e' he') hnext

/-- A call that reaches a table is one more that this has counted. -/
theorem Kept.counted_called (h : Kept guards next flights outcomes es) {g : Nat} {x : Guard}
    (hx : x.started + x.coalesced =
      (guards.getD g default).started + (guards.getD g default).coalesced + 1)
    (th : Nat) (key : String) (i g' : Nat) :
    ((guards.insert g x).getD g' default).started +
        ((guards.insert g x).getD g' default).coalesced =
      (Event.called th g key i :: es).countP (Event.isCall g') := by
  have hcounted := h.counted g'
  rw [Dict.getD_insert, List.countP_cons]
  split_ifs with hg hcall hcall
  · rw [hx, ← hg, hcounted]
  · simp [Event.isCall, hg] at hcall
  · exact absurd (of_decide_eq_true hcall).symm hg
  · exact hcounted

/-- A call that reaches a table adds to it what it starts. -/
theorem Kept.started_called (h : Kept guards next flights outcomes es) {g : Nat} {x : Guard}
    (hx : x.inFlight.size + (guards.getD g default).started =
      (guards.getD g default).inFlight.size + x.started)
    (th : Nat) (key : String) (i g' : Nat) :
    ((guards.insert g x).getD g' default).inFlight.size +
        (Event.called th g key i :: es).countP (Event.isEnd g') =
      ((guards.insert g x).getD g' default).started := by
  have hstarted := h.started g'
  rw [Dict.getD_insert, List.countP_cons_of_neg Bool.false_ne_true]
  split_ifs with hg
  · rw [← hg] at hx
    omega
  · exact hstarted

/-- A call goes on with the outcome of the fill for which it has come. -/
theorem Kept.returned (h : Kept guards next flights outcomes es) {th i g : Nat} {key : String}
    {o : Answer String} (hlast : lastOf th es = some (.called th g key i))
    (ho : outcomes[i]? = some o) : Kept guards next flights outcomes (.returned th i o :: es) := by
  obtain ⟨_, _, _, hmem, -⟩ := (h.outcome_iff i o).mp ho
  have hnone : ∀ g key, flightOf g key es ≠ some i := by
    intro g key hflight
    have := h.outcome_eq_none _ ((h.flight_iff g key i).mp hflight)
    rw [ho] at this
    exact Option.some_ne_none o this
  have hended : ∃ c, .ended i g key c ∈ es ∧ o = c.outcome := by
    rcases h.called th g key i (mem_of_lastOf hlast) with hflight | ⟨c, hc⟩
    · exact absurd ((h.flight_iff g key i).mpr hflight) (hnone g key)
    · have hoc := (h.outcome_iff i c.outcome).mpr ⟨g, key, c, hc, rfl⟩
      exact ⟨c, hc, Option.some.inj (ho.symm.trans hoc)⟩
  obtain ⟨c, hc, hoc⟩ := hended
  exact {
    legal := ⟨⟨⟨g, key, c, hlast, hc, hoc⟩, hnone⟩, h.legal⟩
    nodup := h.nodup
    flight_lt := h.flight_lt
    fill_lt := h.fill_lt_cons (Nat.le_refl next) (h.fill_lt (.ended i _ _ _) hmem)
    outcome_eq_none := h.outcome_eq_none
    outcome_iff := fun j p ↦ by simpa using h.outcome_iff j p
    table := h.table
    flight_iff := h.flight_iff
    called := fun th' g' key' j hj ↦ by simpa using h.called th' g' key' j (by simpa using hj)
    counted := h.counted
    started := h.started }

/-- A call joins the fill that its key has in flight. -/
theorem Kept.join (h : Kept guards next flights outcomes es) (th : Nat) {g i : Nat} {key : String}
    (hi : (guards.getD g default).inFlight[key]? = some i) :
    Kept (guards.insert g (guards.getD g default).join) next flights outcomes
      (.called th g key i :: es) := by
  have hflight : flightOf g key es = some i := by rw [← h.table, hi]
  have hsame : ∀ g' key', flightOf g' key' (.called th g key i :: es) = flightOf g' key' es := by
    intro g' key'
    rw [flightOf]
    split_ifs with hk
    · rw [← hk.1, ← hk.2, hflight]
    · rfl
  have hmem := (h.flight_iff g key i).mp hflight
  exact {
    legal := ⟨Or.inl hflight, h.legal⟩
    nodup := h.nodup
    flight_lt := h.flight_lt
    fill_lt := h.fill_lt_cons (Nat.le_refl next) (h.flight_lt _ hmem)
    outcome_eq_none := h.outcome_eq_none
    outcome_iff := fun j p ↦ by simpa using h.outcome_iff j p
    table := fun g' key' ↦ by
      rw [hsame, Dict.getD_insert, ← h.table]
      split_ifs with hg
      · rw [hg]
        rfl
      · rfl
    flight_iff := fun g' key' j ↦ by rw [hsame, h.flight_iff]
    called := fun th' g' key' j hj ↦ by
      rcases List.mem_cons.mp hj with heq | hj
      · obtain ⟨-, rfl, rfl, rfl⟩ := Event.called.inj heq
        exact Or.inl hmem
      · simpa using h.called th' g' key' j hj
    counted := by
      refine h.counted_called ?_ th key i
      simp only [Guard.join]
      omega
    started := by
      refine h.started_called ?_ th key i
      simp only [Guard.join] }

/-- The fill that a call starts is in flight from then on. -/
theorem Kept.flight_iff_start (h : Kept guards next flights outcomes es) {g : Nat} {key : String}
    (hflight : flightOf g key es = none) (th i g' : Nat) (key' : String) (j : Nat) :
    flightOf g' key' (.called th g key i :: es) = some j ↔
      ⟨j, g', key'⟩ ∈ flights ++ [⟨i, g, key⟩] := by
  rw [flightOf, List.mem_append, List.mem_singleton, Flight.mk.injEq]
  split_ifs with hk
  · obtain ⟨rfl, rfl⟩ := hk
    constructor
    · intro hj
      exact Or.inr ⟨(Option.some.inj hj).symm, rfl, rfl⟩
    · rintro (hj | ⟨rfl, -, -⟩)
      · have hsome := (h.flight_iff _ _ j).mpr hj
        rw [hflight] at hsome
        exact absurd hsome.symm (Option.some_ne_none j)
      · rfl
  · rw [h.flight_iff]
    constructor
    · exact Or.inl
    · rintro (hj | ⟨-, rfl, rfl⟩)
      · exact hj
      · exact absurd ⟨rfl, rfl⟩ hk

/-- A call starts the fill of a key that has none in flight. -/
theorem Kept.start (h : Kept guards next flights outcomes es) (th : Nat) {g : Nat} {key : String}
    (hnone : (guards.getD g default).inFlight[key]? = none) :
    Kept (guards.insert g ((guards.getD g default).start key next)) (next + 1)
      (flights ++ [⟨next, g, key⟩]) outcomes (.called th g key next :: es) := by
  have hflight : flightOf g key es = none := by rw [← h.table, hnone]
  have hnew : ∀ e ∈ es, e.fill ≠ next := fun e he ↦ Nat.ne_of_lt (h.fill_lt e he)
  have hfresh : ∀ f ∈ flights, f.id ≠ next := fun f hf ↦ Nat.ne_of_lt (h.flight_lt f hf)
  have habsent : key ∉ (guards.getD g default).inFlight := by
    rw [Dict.mem_iff_exists, hnone]
    rintro ⟨_, hi⟩
    exact Option.some_ne_none _ hi.symm
  exact {
    legal := ⟨Or.inr ⟨hflight, hnew⟩, h.legal⟩
    nodup := by
      rw [List.map_append, List.nodup_append]
      refine ⟨h.nodup, List.nodup_singleton _, ?_⟩
      intro i hi j hj
      obtain ⟨f, hf, rfl⟩ := List.mem_map.mp hi
      rw [List.mem_singleton.mp hj]
      exact hfresh f hf
    flight_lt := fun f hf ↦ by
      rcases List.mem_append.mp hf with hf | hf
      · exact Nat.lt_succ_of_lt (h.flight_lt f hf)
      · rw [List.mem_singleton.mp hf]
        exact Nat.lt_succ_self next
    fill_lt := h.fill_lt_cons (Nat.le_succ next) (Nat.lt_succ_self next)
    outcome_eq_none := fun f hf ↦ by
      rcases List.mem_append.mp hf with hf | hf
      · exact h.outcome_eq_none f hf
      · rw [List.mem_singleton.mp hf, Option.eq_none_iff_forall_ne_some]
        intro o ho
        obtain ⟨_, _, _, hmem, -⟩ := (h.outcome_iff next o).mp ho
        exact hnew _ hmem rfl
    outcome_iff := fun j p ↦ by simpa using h.outcome_iff j p
    table := fun g' key' ↦ by
      rw [flightOf, Dict.getD_insert]
      by_cases hg : g' = g
      · subst hg
        simp only [if_true, Guard.start, Dict.getElem?_insert, true_and, eq_comm (a := key)]
        split_ifs
        · rfl
        · exact h.table g' key'
      · rw [if_neg hg, if_neg fun hk ↦ hg hk.1.symm]
        exact h.table g' key'
    flight_iff := h.flight_iff_start hflight th next
    called := fun th' g' key' j hj ↦ by
      rw [List.mem_append]
      rcases List.mem_cons.mp hj with heq | hj
      · obtain ⟨-, rfl, rfl, rfl⟩ := Event.called.inj heq
        exact Or.inl (Or.inr (List.mem_singleton.mpr rfl))
      · rcases h.called th' g' key' j hj with hin | ⟨c, hc⟩
        · exact Or.inl (Or.inl hin)
        · exact Or.inr ⟨c, List.mem_cons_of_mem _ hc⟩
    counted := by
      refine h.counted_called ?_ th key next
      simp only [Guard.start]
      omega
    started := by
      refine h.started_called ?_ th key next
      simp only [Guard.start, Dict.size_insert_of_not_mem habsent]
      omega }

/-- The outcome of a fill that ends is kept. -/
theorem Kept.outcome_iff_ended (h : Kept guards next flights outcomes es) {f : Flight}
    (hnot : ∀ g key d, .ended f.id g key d ∉ es) (c : Conclusion (Answer String)) (j : Nat)
    (p : Answer String) :
    (outcomes.insert f.id c.outcome)[j]? = some p ↔
      ∃ g key d, .ended j g key d ∈ .ended f.id f.guard f.key c :: es ∧ p = d.outcome := by
  rw [Dict.getElem?_insert]
  split_ifs with hj
  · subst hj
    constructor
    · intro hp
      exact ⟨f.guard, f.key, c, List.mem_cons_self, (Option.some.inj hp).symm⟩
    · rintro ⟨g, key, d, hd, rfl⟩
      rcases List.mem_cons.mp hd with heq | hd
      · rw [(Event.ended.inj heq).2.2.2]
      · exact absurd hd (hnot g key d)
  · rw [h.outcome_iff]
    constructor
    · rintro ⟨g, key, d, hd, hp⟩
      exact ⟨g, key, d, List.mem_cons_of_mem _ hd, hp⟩
    · rintro ⟨g, key, d, hd, hp⟩
      rcases List.mem_cons.mp hd with heq | hd
      · exact absurd (Event.ended.inj heq).1 hj
      · exact ⟨g, key, d, hd, hp⟩

/-- A fill that ends is taken out of its table. -/
theorem Kept.started_ended (h : Kept guards next flights outcomes es) {f : Flight}
    (hflight : flightOf f.guard f.key es = some f.id) (c : Conclusion (Answer String)) (g' : Nat) :
    ((guards.insert f.guard ((guards.getD f.guard default).finish f.key)).getD g'
          default).inFlight.size +
        (Event.ended f.id f.guard f.key c :: es).countP (Event.isEnd g') =
      ((guards.insert f.guard ((guards.getD f.guard default).finish f.key)).getD g'
        default).started := by
  have hstarted := h.started g'
  rw [Dict.getD_insert, List.countP_cons]
  split_ifs with hg hend hend
  · subst hg
    have hmem : f.key ∈ (guards.getD f.guard default).inFlight :=
      (Dict.mem_iff_exists _ _).mpr ⟨f.id, by rw [h.table, hflight]⟩
    have hpos : 0 < (guards.getD f.guard default).inFlight.size :=
      Dict.size_pos_of_mem hmem
    simp only [Guard.finish, Dict.size_erase_of_mem hmem]
    omega
  · simp [Event.isEnd, hg] at hend
  · exact absurd (of_decide_eq_true hend).symm hg
  · exact hstarted

/-- A fill ends: its record leaves the table, and its outcome is kept for its callers. -/
theorem Kept.ended (h : Kept guards next flights outcomes es) {f : Flight} (hf : f ∈ flights)
    (c : Conclusion (Answer String)) :
    Kept (guards.insert f.guard ((guards.getD f.guard default).finish f.key)) next
      (flights.filter fun f' ↦ f'.id ≠ f.id) (outcomes.insert f.id c.outcome)
      (.ended f.id f.guard f.key c :: es) := by
  have hflight : flightOf f.guard f.key es = some f.id := (h.flight_iff _ _ _).mpr hf
  have hnot : ∀ g key d, .ended f.id g key d ∉ es := h.legal.not_ended_of_flight hflight
  have hmem : ∀ f' : Flight, f' ∈ (flights.filter fun f' ↦ f'.id ≠ f.id) ↔
      f' ∈ flights ∧ f'.id ≠ f.id := by
    intro f'
    rw [List.mem_filter, decide_eq_true_eq]
  exact {
    legal := ⟨hflight, h.legal⟩
    nodup := h.nodup.sublist (List.filter_sublist.map _)
    flight_lt := fun f' hf' ↦ h.flight_lt f' ((hmem f').mp hf').1
    fill_lt := h.fill_lt_cons (Nat.le_refl next) (h.flight_lt f hf)
    outcome_eq_none := fun f' hf' ↦ by
      rw [Dict.getElem?_insert, if_neg ((hmem f').mp hf').2]
      exact h.outcome_eq_none f' ((hmem f').mp hf').1
    outcome_iff := h.outcome_iff_ended hnot c
    table := fun g' key' ↦ by
      rw [flightOf, Dict.getD_insert]
      by_cases hg : g' = f.guard
      · subst hg
        simp only [if_true, Guard.finish, Dict.getElem?_erase, true_and, eq_comm (a := f.key)]
        split_ifs
        · rfl
        · exact h.table _ key'
      · rw [if_neg hg, if_neg fun hk ↦ hg hk.1.symm]
        exact h.table g' key'
    flight_iff := fun g' key' j ↦ by
      rw [hmem, ← h.flight_iff, flightOf]
      split_ifs with hk
      · constructor
        · exact False.elim
        · rintro ⟨hj, hne⟩
          rw [← hk.1, ← hk.2, hflight] at hj
          exact absurd (Option.some.inj hj).symm hne
      · constructor
        · intro hj
          refine ⟨hj, ?_⟩
          rintro rfl
          exact hk (h.legal.flight_unique hflight hj)
        · exact And.left
    called := fun th g key i hi ↦ by
      have hi : Event.called th g key i ∈ es := by simpa using hi
      rw [hmem]
      rcases h.called th g key i hi with hin | ⟨d, hd⟩
      · by_cases hid : i = f.id
        · subst hid
          obtain ⟨hg, hkey⟩ := h.legal.flight_unique hflight ((h.flight_iff g key f.id).mpr hin)
          right
          exact ⟨c, by rw [hg, hkey]; exact List.mem_cons_self⟩
        · exact Or.inl ⟨hin, hid⟩
      · exact Or.inr ⟨d, List.mem_cons_of_mem _ hd⟩
    counted := fun g' ↦ by
      have hcounted := h.counted g'
      rw [Dict.getD_insert, List.countP_cons_of_neg Bool.false_ne_true]
      split_ifs with hg
      · subst hg
        exact hcounted
      · exact hcounted
    started := h.started_ended hflight c }

end Events

end Guard

end TwoTier
