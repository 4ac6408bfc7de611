import TwoTier.Proofs.Engine.Turns
import TwoTier.Proofs.Guard.Run

/-!
# What has happened

What has happened is kept as the list of all moves with the worlds in which they were made (`Past`),
each of them a move that some rules allow, with which the next world comes about (`Past.Leads`).

Of all this it can be read off for which call a task was made, how a fill was started, and in which
worlds a thread has taken its turns. A thread has one number from its first step on, and what has
happened stays in the past.
-/

set_option autoImplicit false
set_option relaxedAutoImplicit false

namespace TwoTier

variable {ρ : Type}

namespace World

/-- Whether a thread is there. -/
def Hosts (w : World ρ) : Thread → Prop
  | .task i => ∃ t ∈ w.tasks, t.id = i
  | .fill i => ∃ f ∈ w.fills, f.id = i
  | .loop _ => True

instance (w : World ρ) (th : Thread) : Decidable (w.Hosts th) :=
  match th with
  | .task i => inferInstanceAs (Decidable (∃ t ∈ w.tasks, t.id = i))
  | .fill i => inferInstanceAs (Decidable (∃ f ∈ w.fills, f.id = i))
  | .loop _ => .isTrue trivial

/-- Whether a move can be made: a thread that takes a step is there, and a new task has not begun to
wait for a fill. -/
def Admits (w : World ρ) : Move ρ → Prop
  | .run th => w.Hosts th
  | .spawn _ code => code.Unbegun
  | _ => True

/-- The fills that a move starts. -/
def starts (w : World ρ) : Move ρ → List Fill
  | .run (.task i) =>
    match w.tasks.find? fun t ↦ t.id = i with
    | some t => ((w.resume t.code).exec t.id w.heap []).fills
    | none => []
  | .run (.fill i) =>
    match w.fills.find? fun f ↦ f.id = i with
    | some f => ((w.resume f.code).exec f.id w.heap []).fills
    | none => []
  | _ => []

section Steps

variable {w : World ρ}

/-- A task after the step of a task is another one as it was, or has taken this step. -/
theorem mem_tasks_afterTask {t u : Task ρ} {p : Progress ρ} (hu : u ∈ (w.afterTask t p).tasks) :
    (u ∈ w.tasks ∧ u.id ≠ t.id) ∨
      (u.id = t.id ∧ u.code = p.rest ∧ p.rest.conclusion? = none) := by
  unfold afterTask at hu
  dsimp only at hu
  split at hu
  · rw [tasks_letGo] at hu
    obtain ⟨hu, hne⟩ := List.mem_filter.mp hu
    exact Or.inl ⟨hu, of_decide_eq_true hne⟩
  · rename_i hnone
    obtain ⟨v, hv, rfl⟩ := List.mem_map.mp hu
    split_ifs with hid
    · exact Or.inr ⟨hid, rfl, hnone⟩
    · exact Or.inl ⟨hv, hid⟩

@[simp] theorem conclusions_letGo (held : List Held) :
    (w.letGo held).conclusions = w.conclusions := by
  unfold letGo
  split <;> rfl

/-- The step of a task ends no other. -/
theorem conclusions_afterTask {t : Task ρ} {p : Progress ρ} {i : Nat} {o : Conclusion ρ}
    (ho : (w.afterTask t p).conclusions[i]? = some o) :
    w.conclusions[i]? = some o ∨ (i = t.id ∧ p.rest.conclusion? = some o) := by
  unfold afterTask at ho
  dsimp only at ho
  split at ho
  · rename_i o' ho'
    rw [conclusions_letGo, Dict.getElem?_insert] at ho
    split_ifs at ho with hi
    · exact Or.inr ⟨hi, ho'.trans ho⟩
    · exact Or.inl ho
  · exact Or.inl ho

/-- The step of a fill ends no task. -/
theorem conclusions_afterFill (f : Fill) (p : Progress (Answer String)) :
    (w.afterFill f p).conclusions = w.conclusions := by
  unfold afterFill
  dsimp only
  split
  · rw [conclusions_letGo]
    rfl
  · rfl

/-- A fill that goes on after its step is at what the step left of it. -/
theorem mem_afterFill_self {f : Fill} {p : Progress (Answer String)} (hf : f ∈ w.fills)
    (hrest : p.rest.conclusion? = none) :
    { f with code := p.rest, since := w.turn } ∈ (w.afterFill f p).fills := by
  unfold afterFill
  simp only [hrest]
  exact List.mem_map.mpr ⟨f, List.mem_append_left _ hf, if_pos rfl⟩

/-- A fill that has ended with its step has ended with what the step came to. -/
theorem outcome_afterFill_self {f : Fill} {p : Progress (Answer String)}
    {o : Conclusion (Answer String)} (hrest : p.rest.conclusion? = some o) :
    (w.afterFill f p).outcomes[f.id]? = some o.outcome := by
  unfold afterFill
  simp only [hrest]
  rw [outcomes_letGo, Dict.getElem?_insert, if_pos rfl]

/-- What a step has started is there after it. -/
theorem mem_absorb_of_started {α : Type} {me : Nat} {p : Progress α} {s : Fill} (hs : s ∈ p.fills) :
    { s with since := w.turn } ∈ (w.absorb me p).fills :=
  List.mem_append_right _ (List.mem_map_of_mem hs)

end Steps

/-! ### The clock -/

section Clock

theorem now_exec {α : Type} (me : Nat) (c : Call α) (h : Heap) :
    (c.exec me h []).heap.now = h.now := by
  have hkept := (Call.halt_kept me c h).2.2
  rw [Call.exec_eq_enter]
  generalize c.halt me h = halted at hkept
  unfold Call.enter
  split
  · split <;> exact hkept
  · exact hkept

variable (w : World ρ)

theorem now_absorb {α : Type} (me : Nat) (p : Progress α) :
    (w.absorb me p).heap.now = p.heap.now := by
  unfold absorb
  dsimp only
  split <;> rfl

theorem now_letGo (held : List Held) : (w.letGo held).heap.now = w.heap.now := by
  unfold letGo
  split <;> rfl

/-- The clock stands still while threads take steps. -/
theorem now_run (th : Thread) : (w.run th).heap.now = w.heap.now := by
  cases th with
  | task i =>
    unfold run
    dsimp only
    split
    · rename_i t _
      have hnow := (now_absorb w t.id _).trans (now_exec t.id (w.resume t.code) w.heap)
      rw [runTask_eq, afterTask]
      dsimp only
      split
      · rw [now_letGo]
        exact hnow
      · exact hnow
    · rfl
  | fill i =>
    unfold run
    dsimp only
    split
    · rename_i f _
      have hnow := (now_absorb w f.id _).trans (now_exec f.id (w.resume f.code) w.heap)
      rw [runFill_eq, afterFill]
      dsimp only
      split
      · rw [now_letGo]
        exact hnow
      · exact hnow
    · rfl
  | loop r => rfl

/-- The clock is moved on by nothing but the clock. -/
theorem now_apply_lt {limit : Nat} (hnow : w.now < limit) {m : Move ρ}
    (hm : ∀ t, m = .advance t → t < limit) : (w.apply m).now < limit := by
  cases m with
  | run th => exact Nat.lt_of_le_of_lt (Nat.le_of_eq (now_run w th)) hnow
  | advance t => exact Nat.max_lt.mpr ⟨hnow, hm t rfl⟩
  | _ => exact hnow

end Clock

theorem Admits.fresh {w : World ρ} {m : Move ρ} (h : w.Admits m) : Guard.Move.Fresh m := by
  cases m with
  | spawn held code => exact h
  | _ => trivial

/-- Whether each thread that takes a step in some moves, made one after another, is there then. -/
def HostsAll (w : World ρ) : List (Move ρ) → Prop
  | [] => True
  | .run th :: ms => w.Hosts th ∧ (w.apply (.run th)).HostsAll ms
  | m :: ms => (w.apply m).HostsAll ms

instance decidableHostsAll (w : World ρ) (ms : List (Move ρ)) : Decidable (w.HostsAll ms) :=
  match ms with
  | [] => .isTrue trivial
  | .run th :: ms =>
    have := decidableHostsAll (w.apply (.run th)) ms
    inferInstanceAs (Decidable (w.Hosts th ∧ (w.apply (.run th)).HostsAll ms))
  | .spawn held code :: ms => decidableHostsAll (w.apply (.spawn held code)) ms
  | .abort i :: ms => decidableHostsAll (w.apply (.abort i)) ms
  | .advance t :: ms => decidableHostsAll (w.apply (.advance t)) ms
  | .hold named guarded :: ms => decidableHostsAll (w.apply (.hold named guarded)) ms

end World

/-- What has happened, the latest first: each move, and the world in which it was made. -/
abbrev Past (ρ : Type) := List (World ρ × Move ρ)

namespace Past

/-- The worlds in which a thread has taken its turns, the first of them first. -/
def turns (th : Thread) : Past ρ → List (World ρ)
  | [] => []
  | (w, .run th') :: past => if th' = th then turns th past ++ [w] else turns th past
  | _ :: past => turns th past

/-- The call that a task was made for. -/
def made (i : Nat) : Past ρ → Option (Call ρ)
  | [] => none
  | (w, .spawn _ code) :: past => if w.heap.nextThread = i then some code else made i past
  | _ :: past => made i past

/-- The fills that were started, as they were then. -/
def started (past : Past ρ) : List Fill := past.flatMap fun x ↦ x.1.starts x.2

/-- The history of the guards. -/
def events (past : Past ρ) : List Guard.Event := past.flatMap fun x ↦ Guard.events x.1 x.2

/-- The world after a move, and what has happened by then. -/
def step (r : World ρ × Past ρ) (m : Move ρ) : World ρ × Past ρ := (r.1.apply m, (r.1, m) :: r.2)

/-- Moves that some rules allow lead to a world. -/
inductive Leads (rules : Move ρ → Prop) : Past ρ → World ρ → Prop
  | start : Leads rules [] World.initial
  | move {past : Past ρ} {w : World ρ} (m : Move ρ) (hadmits : w.Admits m) (hrules : rules m)
      (h : Leads rules past w) : Leads rules ((w, m) :: past) (w.apply m)

theorem started_cons (w : World ρ) (m : Move ρ) (past : Past ρ) :
    started ((w, m) :: past) = w.starts m ++ past.started := rfl

theorem turns_cons_self (w : World ρ) (th : Thread) (past : Past ρ) :
    turns th ((w, .run th) :: past) = past.turns th ++ [w] := if_pos rfl

/-- What is no step of a thread is no turn of it. -/
theorem turns_cons_of_ne {th : Thread} {m : Move ρ} (hm : m ≠ .run th) (w : World ρ)
    (past : Past ρ) : turns th ((w, m) :: past) = past.turns th := by
  cases m with
  | run th' => exact if_neg fun heq ↦ hm (by rw [heq])
  | _ => rfl

variable {rules : Move ρ → Prop} {past : Past ρ} {w : World ρ}

theorem Leads.guards (h : Leads rules past w) : Guard.Run w past.events := by
  induction h with
  | start => exact .start
  | move m hadmits _ _ ih => exact ih.move m hadmits.fresh

theorem Leads.numbered (h : Leads rules past w) : w.Numbered := h.guards.numbered

/-- What was the past once is the past of the world of that time. -/
theorem Leads.of_append {newer older : Past ρ} (h : Leads rules (newer ++ older) w) :
    ∃ w', Leads rules older w' := by
  induction newer generalizing w with
  | nil => exact ⟨w, h⟩
  | cons x newer ih =>
    cases h with
    | move m _ _ h => exact ih h

theorem Leads.of_cons {m : Move ρ} {w' : World ρ} (h : Leads rules ((w, m) :: past) w') :
    w.Admits m ∧ rules m ∧ Leads rules past w ∧ w' = w.apply m := by
  cases h with
  | move m hadmits hrules h => exact ⟨hadmits, hrules, h, rfl⟩

/-- Moves that can be made lead on. -/
theorem Leads.foldl {r : World ρ × Past ρ} (h : Leads rules r.2 r.1) {ms : List (Move ρ)}
    (hfresh : ∀ m ∈ ms, Guard.Move.Fresh m) (hrules : ∀ m ∈ ms, rules m)
    (hhosts : r.1.HostsAll ms) : Leads rules (ms.foldl step r).2 (ms.foldl step r).1 := by
  induction ms generalizing r with
  | nil => exact h
  | cons m ms ih =>
    have hadmits : r.1.Admits m ∧ (r.1.apply m).HostsAll ms := by
      cases m with
      | run th => exact hhosts
      | _ => exact ⟨hfresh _ List.mem_cons_self, hhosts⟩
    exact ih (r := step r m) (h.move m hadmits.1 (hrules m List.mem_cons_self))
      (fun m' hm' ↦ hfresh m' (List.mem_cons_of_mem _ hm'))
      (fun m' hm' ↦ hrules m' (List.mem_cons_of_mem _ hm')) hadmits.2

/-- What a fill has ended with stays known. -/
theorem Leads.outcome {newer older : Past ρ} {w' : World ρ} {m : Move ρ}
    (h : Leads rules (newer ++ (w', m) :: older) w) {i : Nat} {o : Answer String}
    (ho : w'.outcomes[i]? = some o) : w.outcomes[i]? = some o := by
  obtain ⟨_, hlater⟩ := h.of_append
  obtain ⟨-, -, hold, -⟩ := hlater.of_cons
  obtain ⟨g, key, c, hended, hoc⟩ := (hold.guards.agrees.kept.outcome_iff i o).mp ho
  refine (h.guards.agrees.kept.outcome_iff i o).mpr ⟨g, key, c, ?_, hoc⟩
  unfold events
  rw [List.flatMap_append]
  exact List.mem_append_right _ (List.mem_append_right _ hended)

/-! ### Threads and their numbers -/

/-- Of a thread that is yet to come nothing has happened. -/
theorem Leads.unseen (h : Leads rules past w) {i : Nat} (hi : w.heap.nextThread ≤ i) :
    past.made i = none ∧ past.turns (.task i) = [] ∧ past.turns (.fill i) = [] := by
  induction h with
  | start => exact ⟨rfl, rfl, rfl⟩
  | @move past w m hadmits _ h ih =>
    obtain ⟨hmade, htask, hfill⟩ := ih (Nat.le_trans (w.nextThread_le_apply m) hi)
    have hlt : w.heap.nextThread ≤ i := Nat.le_trans (w.nextThread_le_apply m) hi
    refine ⟨?_, ?_, ?_⟩
    · cases m with
      | spawn held code =>
        have hne : w.heap.nextThread ≠ i := Nat.ne_of_lt hi
        exact (if_neg hne).trans hmade
      | _ => exact hmade
    · rw [turns_cons_of_ne _ w past, htask]
      rintro rfl
      obtain ⟨t, ht, rfl⟩ := hadmits
      exact Nat.not_le.mpr (h.numbered.task_lt t ht) hlt
    · rw [turns_cons_of_ne _ w past, hfill]
      rintro rfl
      obtain ⟨f, hf, rfl⟩ := hadmits
      exact Nat.not_le.mpr (h.numbered.fill_lt f hf) hlt

/-- A task is made once. -/
theorem Leads.made_cons {m : Move ρ} (h : Leads rules past w) {i : Nat} {code : Call ρ}
    (hmade : past.made i = some code) : made i ((w, m) :: past) = some code := by
  cases m with
  | spawn held code' =>
    refine (if_neg fun hi ↦ ?_).trans hmade
    rw [(h.unseen (Nat.le_of_eq hi)).1] at hmade
    cases hmade
  | _ => exact hmade

/-- What happens later does not change for what a task was made. -/
theorem Leads.made_append (newer : Past ρ) {older : Past ρ} (h : Leads rules (newer ++ older) w)
    {i : Nat} {code : Call ρ} (hmade : older.made i = some code) :
    made i (newer ++ older) = some code := by
  induction newer generalizing w with
  | nil => exact hmade
  | cons x newer ih =>
    obtain ⟨w', m⟩ := x
    obtain ⟨-, -, h, -⟩ := h.of_cons
    exact h.made_cons (ih h)

/-- What was started once was started. -/
theorem mem_started_append {older : Past ρ} {s : Fill} (hs : s ∈ older.started) (newer : Past ρ) :
    s ∈ started (newer ++ older) := by
  unfold started
  rw [List.flatMap_append]
  exact List.mem_append_right _ hs

/-- While the clock is held below a limit it is below this limit at every turn. -/
theorem Leads.now_lt (h : Leads rules past w) {limit : Nat} (hlimit : 0 < limit)
    (hrules : ∀ t, rules (.advance t) → t < limit) :
    w.now < limit ∧ ∀ th, ∀ w' ∈ past.turns th, w'.now < limit := by
  induction h with
  | start => exact ⟨hlimit, fun th w' hw' ↦ absurd hw' List.not_mem_nil⟩
  | @move past w m _ hm _ ih =>
    obtain ⟨hnow, hturns⟩ := ih
    refine ⟨w.now_apply_lt hnow fun t ht ↦ hrules t (ht ▸ hm), fun th w' hw' ↦ ?_⟩
    by_cases hth : m = .run th
    · subst hth
      rw [turns_cons_self] at hw'
      rcases List.mem_append.mp hw' with hw' | hw'
      · exact hturns th w' hw'
      · rw [List.mem_singleton.mp hw']
        exact hnow
    · rw [turns_cons_of_ne hth] at hw'
      exact hturns th w' hw'

/-- A turn of a thread was a move that it made. -/
theorem exists_of_turns {th : Thread} {pre post : List (World ρ)} {w' : World ρ}
    (hturns : past.turns th = pre ++ w' :: post) :
    ∃ newer older : Past ρ, past = newer ++ (w', .run th) :: older ∧ older.turns th = pre := by
  induction past generalizing post with
  | nil => exact absurd hturns.symm (List.append_ne_nil_of_right_ne_nil _ (List.cons_ne_nil _ _))
  | cons x past ih =>
    obtain ⟨w₁, m⟩ := x
    by_cases hm : m = .run th
    · subst hm
      rw [turns_cons_self] at hturns
      rcases List.eq_nil_or_concat post with rfl | ⟨post', w₂, rfl⟩
      · obtain ⟨hpre, hw⟩ := List.append_inj' hturns rfl
        obtain rfl := List.singleton_inj.mp hw
        exact ⟨[], past, rfl, hpre⟩
      · have hsplit : pre ++ w' :: post'.concat w₂ = (pre ++ w' :: post') ++ [w₂] := by simp
        rw [hsplit] at hturns
        obtain ⟨newer, older, rfl, hpre⟩ := ih (List.append_inj' hturns rfl).1
        exact ⟨(w₁, .run th) :: newer, older, rfl, hpre⟩
    · rw [turns_cons_of_ne hm] at hturns
      obtain ⟨newer, older, rfl, hpre⟩ := ih hturns
      exact ⟨(w₁, m) :: newer, older, rfl, hpre⟩

end Past

end TwoTier
