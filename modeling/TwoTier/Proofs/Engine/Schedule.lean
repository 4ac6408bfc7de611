import TwoTier.Proofs.Engine.Halt

/-!
# What can happen next

A world goes on when a thread takes a step, when a task is made or cancelled, when the clock moves,
or when something is given another name or loses it (`Move`). No order is assumed between moves:
what holds after any moves holds for every scheduler. Who is first in line for a lock stays so until
it leaves the line.
-/

set_option autoImplicit false
set_option relaxedAutoImplicit false

namespace TwoTier

/-! ### Who is first in line for a lock -/

namespace Heap

variable {h : Heap} {m : Lock} {th : Nat}

/-- Who begins to wait for a lock changes no tier. -/
@[simp] theorem tiers_enqueue (h : Heap) (m : Lock) (me : Nat) :
    (h.enqueue m me).tiers = h.tiers := by
  unfold enqueue
  split <;> rfl

@[simp] theorem now_enqueue (h : Heap) (m : Lock) (me : Nat) :
    (h.enqueue m me).now = h.now := by
  unfold enqueue
  split <;> rfl

theorem head?_enqueue (hhead : (h.waiting m).head? = some th) (m' : Lock) (me : Nat) :
    ((h.enqueue m' me).waiting m).head? = some th := by
  unfold enqueue
  split_ifs with hmem
  · exact hhead
  · unfold waiting
    rw [Dict.getD_insert]
    split_ifs with hm
    · change (h.waiting m' ++ [me]).head? = some th
      rw [← hm, List.head?_append, hhead]
      rfl
    · exact hhead

theorem head?_filter {line : List Nat} (hhead : line.head? = some th) {me : Nat} (hme : th ≠ me) :
    (line.filter (· ≠ me)).head? = some th := by
  cases line with
  | nil => cases hhead
  | cons i line =>
    obtain rfl := Option.some.inj hhead
    rw [List.filter_cons_of_pos (by simpa using hme)]
    rfl

theorem head?_leave (hhead : (h.waiting m).head? = some th) (m' : Lock) {me : Nat}
    (hme : th ≠ me) : ((h.leave m' me).waiting m).head? = some th := by
  unfold leave waiting
  rw [Dict.getD_insert]
  split_ifs with hm
  · rw [← hm]
    exact head?_filter hhead hme
  · exact hhead

theorem head?_leaveAll (hhead : (h.waiting m).head? = some th) {me : Nat} (hme : th ≠ me) :
    ((h.leaveAll me).waiting m).head? = some th := by
  unfold leaveAll waiting
  rw [Std.ExtTreeMap.getD_eq_getD_getElem?, Std.ExtTreeMap.getElem?_map]
  unfold waiting at hhead
  rw [Std.ExtTreeMap.getD_eq_getD_getElem?] at hhead
  cases hm : h.locks[m]? with
  | none =>
    rw [hm] at hhead
    cases hhead
  | some line =>
    rw [hm] at hhead
    exact head?_filter hhead hme

end Heap

/-- What can happen next. -/
inductive Move (ρ : Type) : Type 1 where
  /-- A thread takes a step. -/
  | run (th : Thread)
  /-- A task is made. -/
  | spawn (held : List Held) (code : Call ρ)
  /-- A task is cancelled. -/
  | abort (task : Nat)
  /-- The clock moves on. -/
  | advance (t : Nat)
  /-- Names are given and taken away. -/
  | hold (named : List Held) (guarded : List (Nat × List Held))

namespace World

variable {ρ : Type}

/-- The world after something has happened. -/
def apply (w : World ρ) : Move ρ → World ρ
  | .run th => w.run th
  | .spawn held code => (w.spawn held code).2
  | .abort i => w.abort i
  | .advance t => w.advanceTo (max w.now t)
  | .hold named guarded => { w with named := named, guarded := guarded }.release

/-- Nothing has been done yet: the tiers are as they are, at some moment. -/
def opening (now : Nat) (tiers : Tiers) : World ρ :=
  { initial with heap := { Heap.initial with now := now, tiers := tiers } }

/-- Whether some moves can be made one after another: each thread that takes a step can go on
then. -/
def able (w : World ρ) : List (Move ρ) → Bool
  | [] => true
  | .run th :: ms => (w.candidates.map Prod.snd).contains th && (w.run th).able ms
  | m :: ms => (w.apply m).able ms

/-- The world after the step of a task came as far as `p`. -/
def afterTask (w : World ρ) (t : Task ρ) (p : Progress ρ) : World ρ :=
  let w' := w.absorb t.id p
  match p.rest.conclusion? with
  | some c =>
    { w'.withoutTask t.id with conclusions := w'.conclusions.insert t.id c }.letGo t.held
  | none =>
    { w' with tasks := w'.tasks.map fun u ↦
        if u.id = t.id then { u with code := p.rest, since := w.turn } else u }

/-- The world after the step of a fill came as far as `p`. -/
def afterFill (w : World ρ) (f : Fill) (p : Progress (Answer String)) : World ρ :=
  let w' := w.absorb f.id p
  match p.rest.conclusion? with
  | some c =>
    { w'.withoutFill f.id with
      heap := w'.heap.setGuard f.guard ((w'.heap.guard f.guard).finish f.key)
      outcomes := w'.outcomes.insert f.id c.outcome }.letGo (w'.heldBy f)
  | none =>
    { w' with fills := w'.fills.map fun u ↦
        if u.id = f.id then { u with code := p.rest, since := w.turn } else u }

theorem runTask_eq (w : World ρ) (t : Task ρ) :
    w.runTask t = w.afterTask t ((w.resume t.code).exec t.id w.heap []) := rfl

theorem runFill_eq (w : World ρ) (f : Fill) :
    w.runFill f = w.afterFill f ((w.resume f.code).exec f.id w.heap []) := rfl

/-! ### What giving up changes -/

section LetGo

variable (w : World ρ) (held : List Held)

@[simp] theorem tasks_letGo : (w.letGo held).tasks = w.tasks := by
  unfold letGo
  split <;> rfl

@[simp] theorem fills_letGo : (w.letGo held).fills = w.fills := by
  unfold letGo
  split <;> rfl

@[simp] theorem outcomes_letGo : (w.letGo held).outcomes = w.outcomes := by
  unfold letGo
  split <;> rfl

@[simp] theorem guards_letGo : (w.letGo held).heap.guards = w.heap.guards := by
  unfold letGo
  split <;> rfl

@[simp] theorem nextThread_letGo : (w.letGo held).heap.nextThread = w.heap.nextThread := by
  unfold letGo
  split <;> rfl

@[simp] theorem named_letGo : (w.letGo held).named = w.named := by
  unfold letGo
  split <;> rfl

end LetGo

/-! ### Threads by their numbers -/

theorem mem_of_find? {i : Nat} {w : World ρ} {t : Task ρ}
    (h : (w.tasks.find? fun t ↦ t.id = i) = some t) : t ∈ w.tasks ∧ t.id = i :=
  ⟨List.mem_of_find?_eq_some h, by simpa using List.find?_some h⟩

theorem mem_fills_of_find? {i : Nat} {w : World ρ} {f : Fill}
    (h : (w.fills.find? fun f ↦ f.id = i) = some f) : f ∈ w.fills ∧ f.id = i :=
  ⟨List.mem_of_find?_eq_some h, by simpa using List.find?_some h⟩

/-- A receive loop that can go on has been made, and has something to do. -/
theorem mem_loops_of_candidate {w : World ρ} {since r : Nat}
    (h : (since, Thread.loop r) ∈ w.candidates) :
    r ∈ w.heap.tiers.loops ∧ w.heap.tiers.loopReady r = true := by
  rcases List.mem_append.mp h with h | h
  · rcases List.mem_append.mp h with h | h
    · obtain ⟨t, -, ht⟩ := List.mem_filterMap.mp h
      split_ifs at ht
      cases ht
    · obtain ⟨f, -, hf⟩ := List.mem_filterMap.mp h
      split_ifs at hf
      cases hf
  · obtain ⟨s, hs, heq⟩ := List.mem_filterMap.mp h
    split_ifs at heq with hready
    obtain ⟨-, hr⟩ := Prod.mk.inj (Option.some.inj heq)
    obtain rfl := Thread.loop.inj hr
    exact ⟨Std.ExtTreeMap.mem_keys.mp hs, hready⟩

/-- Where nothing can happen, no receive loop has something to do. -/
theorem loopReady_of_idle {w : World ρ} (hidle : w.candidates = []) {r : Nat}
    (hr : r ∈ w.heap.tiers.loops) : w.heap.tiers.loopReady r = false := by
  have hnone := (List.append_eq_nil_iff.mp hidle).2
  have hloop := List.filterMap_eq_nil_iff.mp hnone r (Std.ExtTreeMap.mem_keys.mpr hr)
  by_contra hready
  rw [if_pos (eq_true_of_ne_false hready)] at hloop
  cases hloop

/-! ### What a move leaves in place -/

section Frame

variable (w : World ρ)

theorem nextThread_absorb {α : Type} (me : Nat) (p : Progress α) :
    (w.absorb me p).heap.nextThread = p.heap.nextThread := by
  unfold absorb
  dsimp only
  split <;> rfl

theorem nextThread_afterTask (t : Task ρ) (p : Progress ρ) :
    (w.afterTask t p).heap.nextThread = p.heap.nextThread := by
  unfold afterTask
  dsimp only
  split
  · rw [nextThread_letGo]
    exact nextThread_absorb w t.id p
  · exact nextThread_absorb w t.id p

theorem nextThread_afterFill (f : Fill) (p : Progress (Answer String)) :
    (w.afterFill f p).heap.nextThread = p.heap.nextThread := by
  unfold afterFill
  dsimp only
  split
  · rw [nextThread_letGo]
    exact nextThread_absorb w f.id p
  · exact nextThread_absorb w f.id p

/-- The numbers of threads are never given back. -/
theorem nextThread_le_apply (m : Move ρ) : w.heap.nextThread ≤ (w.apply m).heap.nextThread := by
  cases m with
  | run th =>
    cases th with
    | task i =>
      unfold apply run
      dsimp only
      split
      · rw [runTask_eq, nextThread_afterTask]
        exact Call.nextThread_le_exec _ _ _ _
      · exact Nat.le_refl _
    | fill i =>
      unfold apply run
      dsimp only
      split
      · rw [runFill_eq, nextThread_afterFill]
        exact Call.nextThread_le_exec _ _ _ _
      · exact Nat.le_refl _
    | loop r => exact Nat.le_refl _
  | spawn held code => exact Nat.le_succ _
  | _ => exact Nat.le_refl _

theorem named_run (th : Thread) : (w.run th).named = w.named := by
  cases th with
  | task i =>
    unfold run
    dsimp only
    split
    · rename_i t _
      rw [runTask_eq, afterTask]
      dsimp only
      split
      · rw [named_letGo]
        rfl
      · rfl
    · rfl
  | fill i =>
    unfold run
    dsimp only
    split
    · rename_i f _
      rw [runFill_eq, afterFill]
      dsimp only
      split
      · rw [named_letGo]
        rfl
      · rfl
    · rfl
  | loop r => rfl

variable {w}

theorem exists_mem_of_mem_afterTask {t u : Task ρ} {p : Progress ρ}
    (hu : u ∈ (w.afterTask t p).tasks) : ∃ v ∈ w.tasks, u.id = v.id ∧ u.held = v.held := by
  unfold afterTask at hu
  dsimp only at hu
  split at hu
  · rw [tasks_letGo] at hu
    exact ⟨u, (List.mem_filter.mp hu).1, rfl, rfl⟩
  · obtain ⟨v, hv, rfl⟩ := List.mem_map.mp hu
    refine ⟨v, hv, ?_⟩
    split_ifs <;> exact ⟨rfl, rfl⟩

/-- A task after a step is as it was, or it has taken the step. -/
theorem mem_or_code_of_mem_afterTask {t u : Task ρ} {p : Progress ρ}
    (hu : u ∈ (w.afterTask t p).tasks) : u ∈ w.tasks ∨ u.code = p.rest := by
  unfold afterTask at hu
  dsimp only at hu
  split at hu
  · rw [tasks_letGo] at hu
    exact Or.inl (List.mem_filter.mp hu).1
  · obtain ⟨v, hv, rfl⟩ := List.mem_map.mp hu
    split_ifs
    · exact Or.inr rfl
    · exact Or.inl hv

theorem tasks_afterFill (f : Fill) (p : Progress (Answer String)) :
    (w.afterFill f p).tasks = w.tasks := by
  unfold afterFill
  dsimp only
  split
  · rw [tasks_letGo]
    rfl
  · rfl

/-- A task after a move was there before, with the same number and the same things, or has just
been made. -/
theorem exists_mem_of_mem_apply {m : Move ρ} {t : Task ρ} (ht : t ∈ (w.apply m).tasks) :
    (∃ u ∈ w.tasks, t.id = u.id ∧ t.held = u.held) ∨ t.id = w.heap.nextThread := by
  cases m with
  | run th =>
    left
    cases th with
    | task i =>
      unfold apply run at ht
      dsimp only at ht
      split at ht
      · rw [runTask_eq] at ht
        exact exists_mem_of_mem_afterTask ht
      · exact ⟨t, ht, rfl, rfl⟩
    | fill i =>
      unfold apply run at ht
      dsimp only at ht
      split at ht
      · rw [runFill_eq, tasks_afterFill] at ht
        exact ⟨t, ht, rfl, rfl⟩
      · exact ⟨t, ht, rfl, rfl⟩
    | loop r => exact ⟨t, ht, rfl, rfl⟩
  | spawn held code =>
    rcases List.mem_append.mp ht with ht | ht
    · exact Or.inl ⟨t, ht, rfl, rfl⟩
    · rw [List.mem_singleton.mp ht]
      exact Or.inr rfl
  | abort i => exact Or.inl ⟨t, (List.mem_filter.mp ht).1, rfl, rfl⟩
  | advance s => exact Or.inl ⟨t, ht, rfl, rfl⟩
  | hold named guarded => exact Or.inl ⟨t, ht, rfl, rfl⟩

end Frame

/-! ### The numbers of threads -/

/-- Threads have numbers of their own, below that of the next one. -/
structure Numbered (w : World ρ) : Prop where
  task_lt : ∀ t ∈ w.tasks, t.id < w.heap.nextThread
  fill_lt : ∀ f ∈ w.fills, f.id < w.heap.nextThread
  disjoint : ∀ t ∈ w.tasks, ∀ f ∈ w.fills, t.id ≠ f.id

theorem numbered_initial : (initial : World ρ).Numbered where
  task_lt _ ht := absurd ht List.not_mem_nil
  fill_lt _ hf := absurd hf List.not_mem_nil
  disjoint _ ht := absurd ht List.not_mem_nil

/-- Fewer threads, under numbers that others had, have numbers of their own. -/
theorem Numbered.mono {w w' : World ρ} (h : w.Numbered)
    (htasks : ∀ t' ∈ w'.tasks, ∃ t ∈ w.tasks, t'.id = t.id)
    (hfills : ∀ f' ∈ w'.fills, ∃ f ∈ w.fills, f'.id = f.id)
    (hnext : w.heap.nextThread ≤ w'.heap.nextThread) : w'.Numbered where
  task_lt t' ht' := by
    obtain ⟨t, ht, hid⟩ := htasks t' ht'
    rw [hid]
    exact Nat.lt_of_lt_of_le (h.task_lt t ht) hnext
  fill_lt f' hf' := by
    obtain ⟨f, hf, hid⟩ := hfills f' hf'
    rw [hid]
    exact Nat.lt_of_lt_of_le (h.fill_lt f hf) hnext
  disjoint t' ht' f' hf' := by
    obtain ⟨t, ht, hid⟩ := htasks t' ht'
    obtain ⟨f, hf, hid'⟩ := hfills f' hf'
    rw [hid, hid']
    exact h.disjoint t ht f hf

/-- The fills that a step starts are numbered behind all threads. -/
theorem Numbered.absorb {α : Type} {w : World ρ} (h : w.Numbered) (me : Nat) (c : Call α) :
    (w.absorb me (c.exec me w.heap [])).Numbered := by
  have hnext : (w.absorb me (c.exec me w.heap [])).heap.nextThread =
      (c.exec me w.heap []).heap.nextThread := nextThread_absorb w me _
  have hfills : ∀ f ∈ (w.absorb me (c.exec me w.heap [])).fills, f ∈ w.fills ∨
      w.heap.nextThread ≤ f.id ∧ f.id < (c.exec me w.heap []).heap.nextThread := by
    intro f hf
    rcases List.mem_append.mp hf with hf | hf
    · exact Or.inl hf
    · obtain ⟨f', hf', rfl⟩ := List.mem_map.mp hf
      have hnew := Call.fills_exec hf'
      exact Or.inr hnew
  have hle := Call.nextThread_le_exec me c w.heap []
  refine ⟨fun t ht ↦ ?_, fun f hf ↦ ?_, fun t ht f hf ↦ ?_⟩
  · rw [hnext]
    exact Nat.lt_of_lt_of_le (h.task_lt t ht) hle
  · rw [hnext]
    rcases hfills f hf with hf | hf
    · exact Nat.lt_of_lt_of_le (h.fill_lt f hf) hle
    · exact hf.2
  · rcases hfills f hf with hf | hf
    · exact h.disjoint t ht f hf
    · exact Nat.ne_of_lt (Nat.lt_of_lt_of_le (h.task_lt t ht) hf.1)

theorem fills_afterTask {w : World ρ} (t : Task ρ) (p : Progress ρ) :
    (w.afterTask t p).fills = (w.absorb t.id p).fills := by
  unfold afterTask
  dsimp only
  split
  · rw [fills_letGo]
    rfl
  · rfl

/-- A fill after the step of a fill is another one as it was, or the same where it has not ended. -/
theorem mem_or_eq_of_mem_afterFill {w : World ρ} {f u : Fill} {p : Progress (Answer String)}
    (hu : u ∈ (w.afterFill f p).fills) : (u ∈ (w.absorb f.id p).fills ∧ u.id ≠ f.id) ∨
      ∃ v ∈ (w.absorb f.id p).fills, v.id = f.id ∧ p.rest.conclusion? = none ∧
        u = { v with code := p.rest, since := w.turn } := by
  unfold afterFill at hu
  dsimp only at hu
  split at hu
  · rw [fills_letGo] at hu
    obtain ⟨hu, hne⟩ := List.mem_filter.mp hu
    exact Or.inl ⟨hu, of_decide_eq_true hne⟩
  · rename_i hnone
    obtain ⟨v, hv, rfl⟩ := List.mem_map.mp hu
    split_ifs with hid
    · exact Or.inr ⟨v, hv, hid, hnone, rfl⟩
    · exact Or.inl ⟨hv, hid⟩

/-- What gives way to the step of a fill is this fill alone. -/
theorem mem_afterFill_of_ne {w : World ρ} {f u : Fill} {p : Progress (Answer String)}
    (hu : u ∈ (w.absorb f.id p).fills) (hne : u.id ≠ f.id) : u ∈ (w.afterFill f p).fills := by
  unfold afterFill
  dsimp only
  split
  · rw [fills_letGo]
    exact List.mem_filter.mpr ⟨hu, decide_eq_true hne⟩
  · exact List.mem_map.mpr ⟨u, hu, if_neg hne⟩

/-- A fill that takes a step has ended with an outcome, or is still under way. -/
theorem outcome_or_mem_afterFill {w : World ρ} {f : Fill} {p : Progress (Answer String)}
    (hf : f ∈ w.fills) :
    (∃ c, p.rest.conclusion? = some c ∧
      (w.afterFill f p).outcomes = w.outcomes.insert f.id c.outcome) ∨
    ((w.afterFill f p).outcomes = w.outcomes ∧
      ∃ u ∈ (w.afterFill f p).fills, u.id = f.id ∧ u.guard = f.guard ∧ u.key = f.key) := by
  unfold afterFill
  dsimp only
  split
  · rename_i c hc
    rw [outcomes_letGo]
    exact Or.inl ⟨c, hc, rfl⟩
  · exact Or.inr ⟨rfl, _, List.mem_map_of_mem (List.mem_append_left _ hf), by rw [if_pos rfl],
      by rw [if_pos rfl], by rw [if_pos rfl]⟩

/-- The step of a fill ends no other. -/
theorem outcomes_afterFill_of_ne {w : World ρ} {f : Fill} {p : Progress (Answer String)} {i : Nat}
    (hf : f ∈ w.fills) (hi : i ≠ f.id) : (w.afterFill f p).outcomes[i]? = w.outcomes[i]? := by
  rcases outcome_or_mem_afterFill (p := p) hf with ⟨c, -, heq⟩ | ⟨heq, -⟩
  · rw [heq, Dict.getElem?_insert, if_neg hi]
  · rw [heq]

/-- The step of a task ends no fill. -/
theorem outcomes_afterTask {w : World ρ} (t : Task ρ) (p : Progress ρ) :
    (w.afterTask t p).outcomes = w.outcomes := by
  unfold afterTask
  dsimp only
  split
  · rw [outcomes_letGo]
    rfl
  · rfl

/-- The tiers after the step of a fill are those that it left, but for what is given up. -/
theorem tiers_afterFill {w : World ρ} (f : Fill) (p : Progress (Answer String)) :
    (w.afterFill f p).heap.tiers = p.heap.tiers ∨
      ∃ held, (w.afterFill f p).heap.tiers = p.heap.tiers.release held := by
  have habsorbed : (w.absorb f.id p).heap.tiers = p.heap.tiers := by
    unfold absorb
    dsimp only
    split <;> rfl
  unfold afterFill letGo
  dsimp only
  split
  · split
    · exact Or.inl habsorbed
    · right
      rw [← habsorbed]
      exact ⟨_, rfl⟩
  · exact Or.inl habsorbed

/-- Every move leaves threads with numbers of their own. -/
theorem Numbered.apply {w : World ρ} (h : w.Numbered) (m : Move ρ) : (w.apply m).Numbered := by
  cases m with
  | run th =>
    cases th with
    | task i =>
      unfold World.apply World.run
      dsimp only
      split
      · rename_i t _
        rw [runTask_eq]
        refine (h.absorb t.id (w.resume t.code)).mono (fun u hu ↦ ?_) (fun f hf ↦ ?_) ?_
        · obtain ⟨v, hv, hid, -⟩ := exists_mem_of_mem_afterTask hu
          exact ⟨v, hv, hid⟩
        · rw [fills_afterTask] at hf
          exact ⟨f, hf, rfl⟩
        · exact Nat.le_of_eq (by rw [nextThread_afterTask, nextThread_absorb])
      · exact h
    | fill i =>
      unfold World.apply World.run
      dsimp only
      split
      · rename_i f _
        rw [runFill_eq]
        refine (h.absorb f.id (w.resume f.code)).mono (fun t ht ↦ ?_) (fun u hu ↦ ?_) ?_
        · rw [tasks_afterFill] at ht
          exact ⟨t, ht, rfl⟩
        · rcases mem_or_eq_of_mem_afterFill hu with ⟨hu, -⟩ | ⟨v, hv, -, -, rfl⟩
          · exact ⟨u, hu, rfl⟩
          · exact ⟨v, hv, rfl⟩
        · exact Nat.le_of_eq (by rw [nextThread_afterFill, nextThread_absorb])
      · exact h
    | loop r => exact ⟨h.task_lt, h.fill_lt, h.disjoint⟩
  | spawn held code =>
    refine ⟨fun t ht ↦ ?_, fun f hf ↦ Nat.lt_succ_of_lt (h.fill_lt f hf), fun t ht f hf ↦ ?_⟩
    · rcases List.mem_append.mp ht with ht | ht
      · exact Nat.lt_succ_of_lt (h.task_lt t ht)
      · rw [List.mem_singleton.mp ht]
        exact Nat.lt_succ_self _
    · rcases List.mem_append.mp ht with ht | ht
      · exact h.disjoint t ht f hf
      · rw [List.mem_singleton.mp ht]
        exact Nat.ne_of_gt (h.fill_lt f hf)
  | abort i =>
    exact h.mono (fun t ht ↦ ⟨t, (List.mem_filter.mp ht).1, rfl⟩) (fun f hf ↦ ⟨f, hf, rfl⟩)
      (Nat.le_refl _)
  | advance t => exact ⟨h.task_lt, h.fill_lt, h.disjoint⟩
  | hold named guarded => exact ⟨h.task_lt, h.fill_lt, h.disjoint⟩

end World

end TwoTier
