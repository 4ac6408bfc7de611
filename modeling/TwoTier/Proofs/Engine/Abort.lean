import Mathlib.Data.List.Basic
import TwoTier.Proofs.Engine.Schedule

/-!
# What the cancelling of tasks changes for others

Cancelling tasks that stand in no line for a lock, and hold nothing that has no name as well, leaves
a world in which exactly these tasks are missing (`World.foldl_abort`). What happens to the others
from then on is what would have happened to them in any case: any moves lead to the same world, less
these tasks (`World.foldl_apply_without`).
-/

set_option autoImplicit false
set_option relaxedAutoImplicit false

namespace TwoTier

/-- What is given up depends on what is held, and not on how often. -/
theorem Tiers.release_congr (t : Tiers) {a b : List Held} (h : ∀ x, x ∈ a ↔ x ∈ b) :
    t.release a = t.release b := by
  have hclosure : ∀ x, x ∈ t.closure a ↔ x ∈ t.closure b := by
    intro x
    simp only [closure, List.mem_flatMap, h]
  simp only [release, hclosure]

/-- The moves that leave some tasks alone and keep the names of some things. -/
def Move.Spares {ρ : Type} (gone : List Nat) (kept : List Held) : Move ρ → Prop
  | .run (.task i) => i ∉ gone
  | .hold named _ => ∀ x ∈ kept, x ∈ named
  | _ => True

namespace World

variable {ρ : Type}

/-- The world without some tasks. -/
def without (gone : List Nat) (w : World ρ) : World ρ :=
  { w with tasks := w.tasks.filter fun t ↦ t.id ∉ gone }

/-- What some tasks hold has a name too. -/
def Named (gone : List Nat) (w : World ρ) : Prop :=
  ∀ t ∈ w.tasks, t.id ∈ gone → ∀ x ∈ t.held, x ∈ w.named

theorem leaveAll_eq_self {h : Heap} {i : Nat} (hi : ∀ m, i ∉ h.waiting m) : h.leaveAll i = h := by
  have hlocks : (h.locks.map fun _ line ↦ line.filter (· ≠ i)) = h.locks := by
    refine Std.ExtTreeMap.ext_getElem? fun m ↦ ?_
    rw [Std.ExtTreeMap.getElem?_map]
    have hline := hi m
    unfold Heap.waiting at hline
    rw [Std.ExtTreeMap.getD_eq_getD_getElem?] at hline
    cases hm : h.locks[m]? with
    | none => rfl
    | some line =>
      rw [hm, Option.getD_some] at hline
      rw [Option.map_some]
      congr 1
      refine List.filter_eq_self.mpr fun j hj ↦ decide_eq_true ?_
      rintro rfl
      exact hline hj
  unfold Heap.leaveAll
  rw [hlocks]

/-- The cancelled tasks are missing, and nothing else is changed. -/
theorem foldl_abort {gone : List Nat} {w : World ρ}
    (h : ∀ i ∈ gone, ∀ m, i ∉ w.heap.waiting m) : gone.foldl abort w = w.without gone := by
  induction gone generalizing w with
  | nil =>
    simp only [without, List.not_mem_nil, not_false_eq_true, decide_true, List.filter_true]
    rfl
  | cons i gone ih =>
    have habort : w.abort i = w.withoutTask i := by
      unfold abort
      rw [leaveAll_eq_self (h i List.mem_cons_self)]
      rfl
    have hrest : gone.foldl abort (w.withoutTask i) = (w.withoutTask i).without gone :=
      ih fun j hj ↦ h j (List.mem_cons_of_mem _ hj)
    rw [List.foldl_cons, habort, hrest]
    simp only [without, withoutTask, List.filter_filter, List.mem_cons, not_or, Bool.decide_and,
      Bool.and_comm]

/-- To cancel tasks changes no fill, no outcome, no guard and no other task. -/
theorem frame_abort (w : World ρ) (gone : List Nat) :
    (gone.foldl abort w).fills = w.fills ∧ (gone.foldl abort w).outcomes = w.outcomes ∧
      (gone.foldl abort w).heap.guards = w.heap.guards ∧
      (gone.foldl abort w).tasks = w.tasks.filter fun t ↦ t.id ∉ gone := by
  induction gone generalizing w with
  | nil => simp
  | cons i gone ih =>
    obtain ⟨hfills, houtcomes, hguards, htasks⟩ := ih (w.abort i)
    refine ⟨hfills, houtcomes, hguards, ?_⟩
    rw [List.foldl_cons, htasks]
    simp only [abort, withoutTask, List.filter_filter, List.mem_cons, not_or, Bool.decide_and,
      Bool.and_comm]

section Commutation

variable {gone : List Nat} {w : World ρ}

/-- Tasks that hold nothing but what has a name make no difference to what is held. -/
theorem mem_held_without (h : w.Named gone) (x : Held) :
    x ∈ (w.without gone).held ↔ x ∈ w.held := by
  have htasks : (x ∈ w.named ∨ ∃ t ∈ (w.without gone).tasks, x ∈ t.held) ↔
      x ∈ w.named ∨ ∃ t ∈ w.tasks, x ∈ t.held := by
    constructor
    · rintro (hx | ⟨t, ht, hx⟩)
      · exact Or.inl hx
      · exact Or.inr ⟨t, List.mem_of_mem_filter ht, hx⟩
    · rintro (hx | ⟨t, ht, hx⟩)
      · exact Or.inl hx
      · by_cases hgone : t.id ∈ gone
        · exact Or.inl (h t ht hgone x hx)
        · exact Or.inr ⟨t, List.mem_filter.mpr ⟨ht, decide_eq_true hgone⟩, hx⟩
  unfold held
  simp only [List.mem_append, List.mem_flatMap]
  exact or_congr htasks Iff.rfl

theorem release_without (h : w.Named gone) : (w.without gone).release = w.release.without gone := by
  have htiers : (w.without gone).heap.tiers.release (w.without gone).held =
      w.heap.tiers.release w.held := Tiers.release_congr _ (mem_held_without h)
  unfold release
  rw [htiers]
  rfl

theorem letGo_without (h : w.Named gone) (held : List Held) :
    (w.without gone).letGo held = (w.letGo held).without gone := by
  unfold letGo
  split_ifs
  · rfl
  · exact release_without h

theorem runTask_without (h : w.Named gone) (t : Task ρ) :
    (w.without gone).runTask t = (w.runTask t).without gone := by
  have hresume : (w.without gone).resume t.code = w.resume t.code := by
    cases t.code <;> rfl
  rw [runTask_eq, runTask_eq, hresume]
  change (w.without gone).afterTask t ((w.resume t.code).exec t.id w.heap []) = _
  generalize (w.resume t.code).exec t.id w.heap [] = p
  unfold afterTask
  dsimp only
  cases p.rest.conclusion? with
  | some c =>
    dsimp only
    rw [← letGo_without]
    · congr 1
      simp only [without, withoutTask, absorb, List.filter_filter, Bool.and_comm]
    · intro u hu
      exact h u (List.mem_of_mem_filter hu)
  | none =>
    simp only [without, absorb]
    rw [List.filter_map]
    congr 2
    refine List.filter_congr fun u _ ↦ ?_
    simp only [Function.comp]
    split_ifs <;> rfl

theorem runFill_without (h : w.Named gone) (f : Fill) :
    (w.without gone).runFill f = (w.runFill f).without gone := by
  have hresume : (w.without gone).resume f.code = w.resume f.code := by
    cases f.code <;> rfl
  rw [runFill_eq, runFill_eq, hresume]
  change (w.without gone).afterFill f ((w.resume f.code).exec f.id w.heap []) = _
  generalize (w.resume f.code).exec f.id w.heap [] = p
  unfold afterFill
  dsimp only
  cases p.rest.conclusion? with
  | some c =>
    dsimp only
    rw [← letGo_without]
    · rfl
    · exact h
  | none => rfl

theorem find?_without {i : Nat} (hi : i ∉ gone) :
    ((w.without gone).tasks.find? fun t ↦ t.id = i) = w.tasks.find? fun t ↦ t.id = i := by
  unfold without
  rw [List.find?_filter]
  congr 1
  funext t
  by_cases ht : t.id = i
  · simp [ht, hi]
  · simp [ht]

/-- A move that spares some tasks leads to the same world, less these tasks, where they are
missing. -/
theorem apply_without (h : w.Named gone) (hlt : ∀ i ∈ gone, i < w.heap.nextThread)
    {kept : List Held} (hkept : ∀ t ∈ w.tasks, t.id ∈ gone → ∀ x ∈ t.held, x ∈ kept) {m : Move ρ}
    (hm : m.Spares gone kept) : (w.without gone).apply m = (w.apply m).without gone := by
  cases m with
  | run th =>
    cases th with
    | task i =>
      unfold apply run
      dsimp only
      rw [find?_without hm]
      cases w.tasks.find? fun t ↦ t.id = i with
      | some t => exact runTask_without h t
      | none => rfl
    | fill i =>
      unfold apply run
      dsimp only
      have hfills : (w.without gone).fills = w.fills := rfl
      rw [hfills]
      cases w.fills.find? fun f ↦ f.id = i with
      | some f => exact runFill_without h f
      | none => rfl
    | loop r => rfl
  | spawn held code =>
    have hnew : w.heap.nextThread ∉ gone := fun hgone ↦ Nat.lt_irrefl _ (hlt _ hgone)
    simp only [apply, spawn, without, List.filter_append]
    rw [List.filter_singleton, decide_eq_true hnew]
    rfl
  | abort i =>
    simp only [apply, abort, without, withoutTask, List.filter_filter, Bool.and_comm]
  | advance t => rfl
  | hold named guarded =>
    exact release_without (w := { w with named := named, guarded := guarded })
      fun t ht hgone x hx ↦ hm x (hkept t ht hgone x hx)

end Commutation

/-! ### Any moves -/

section Moves

variable {gone : List Nat} {kept : List Held} {w : World ρ}

/-- Some tasks hold nothing but what has a name, whatever happens next. -/
structure Spared (gone : List Nat) (kept : List Held) (w : World ρ) : Prop where
  lt : ∀ i ∈ gone, i < w.heap.nextThread
  held : ∀ t ∈ w.tasks, t.id ∈ gone → ∀ x ∈ t.held, x ∈ kept
  named : ∀ x ∈ kept, x ∈ w.named

theorem Spared.apply (h : w.Spared gone kept) {m : Move ρ} (hm : m.Spares gone kept) :
    (w.apply m).Spared gone kept where
  lt i hi := Nat.lt_of_lt_of_le (h.lt i hi) (nextThread_le_apply w m)
  held t ht hgone := by
    rcases exists_mem_of_mem_apply ht with ⟨u, hu, hid, hheld⟩ | hid
    · rw [hheld]
      exact h.held u hu (by rw [← hid]; exact hgone)
    · have hlt := h.lt t.id hgone
      omega
  named x hx := by
    cases m with
    | hold named guarded => exact hm x hx
    | run th =>
      change x ∈ (w.run th).named
      rw [named_run]
      exact h.named x hx
    | _ => exact h.named x hx

/-- Any moves that spare some tasks lead to the same world, less these tasks, where they were
cancelled before. -/
theorem foldl_apply_without (h : w.Spared gone kept) {ms : List (Move ρ)}
    (hms : ∀ m ∈ ms, m.Spares gone kept) :
    ms.foldl apply (w.without gone) = (ms.foldl apply w).without gone := by
  induction ms generalizing w with
  | nil => rfl
  | cons m ms ih =>
    have hm := hms m List.mem_cons_self
    rw [List.foldl_cons, List.foldl_cons,
      apply_without (fun t ht hgone x hx ↦ h.named x (h.held t ht hgone x hx)) h.lt h.held hm]
    exact ih (h.apply hm) fun m' hm' ↦ hms m' (List.mem_cons_of_mem _ hm')

end Moves

end World

end TwoTier
