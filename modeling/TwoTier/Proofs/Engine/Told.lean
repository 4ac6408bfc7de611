import TwoTier.Proofs.Engine.Past

/-!
# What threads have come to

Nothing but its own turns moves a call on. So what has happened determines what every thread has yet
to do: a task has come to what its call comes to after its own turns, and so has a fill
(`Past.Leads.told`).

What a thread found at one of its turns is found in the world of this turn (`Past.Leads.turn`); what
a fill has ended with stays known from then on (`Past.Leads.outcome_of_turn`).
-/

set_option autoImplicit false
set_option relaxedAutoImplicit false

namespace TwoTier

variable {ρ : Type}

namespace Past

variable {rules : Move ρ → Prop} {past : Past ρ} {w : World ρ}
/-! ### What threads have come to -/

/-- All threads have come to what their calls come to after their own turns. -/
structure Told (past : Past ρ) (w : World ρ) : Prop where
  /-- A task that has not ended is at what is left of the call that it was made for. -/
  task : ∀ t ∈ w.tasks, ∃ code, past.made t.id = some code ∧
    t.code = code.after t.id (past.turns (.task t.id)) ∧
      (past.turns (.task t.id) = [] ∨ t.code.conclusion? = none)
  /-- A task that has ended has come to the end of its call. -/
  concluded : ∀ i o, w.conclusions[i]? = some o → ∃ code, past.made i = some code ∧
    (code.after i (past.turns (.task i))).conclusion? = some o
  /-- A fill was started. -/
  fill : ∀ f ∈ w.fills, ∃ s ∈ past.started, s.id = f.id ∧ s.guard = f.guard ∧ s.key = f.key
  /-- What was started is at what is left of it, or it has ended with what this comes to. -/
  started : ∀ s ∈ past.started,
    (∃ f ∈ w.fills, f.id = s.id ∧ f.guard = s.guard ∧ f.key = s.key ∧
      f.code = s.code.after s.id (past.turns (.fill s.id)) ∧ f.code.conclusion? = none) ∨
    ∃ o, w.outcomes[s.id]? = some o.outcome ∧
      (s.code.after s.id (past.turns (.fill s.id))).conclusion? = some o

/-- A task that has not ended is at what is left of the call for which it was made. -/
theorem Told.code_of_made (h : Told past w) {i : Nat} {code : Call ρ}
    (hmade : past.made i = some code) {t : Task ρ} (ht : t ∈ w.tasks) (hid : t.id = i) :
    t.code = code.after i (past.turns (.task i)) ∧
      (past.turns (.task i) = [] ∨ t.code.conclusion? = none) := by
  subst hid
  obtain ⟨code', hmade', hcode⟩ := h.task t ht
  obtain rfl := Option.some.inj (hmade.symm.trans hmade')
  exact hcode

/-- A task that has ended has come to the end of the call for which it was made. -/
theorem Told.conclusion?_of_made (h : Told past w) {i : Nat} {code : Call ρ}
    (hmade : past.made i = some code) {o : Conclusion ρ} (ho : w.conclusions[i]? = some o) :
    (code.after i (past.turns (.task i))).conclusion? = some o := by
  obtain ⟨code', hmade', hend⟩ := h.concluded i o ho
  obtain rfl := Option.some.inj (hmade.symm.trans hmade')
  exact hend

/-- A call that has come to its end stays there. -/
theorem conclusion?_after {α : Type} {me : Nat} {c : Call α} {o : Conclusion α}
    (h : c.conclusion? = some o) (ws : List (World ρ)) : (c.after me ws).conclusion? = some o := by
  cases c with
  | done a => rwa [Call.after_done]
  | crash => rwa [Call.after_crash]
  | _ => cases h

section Told

variable {w : World ρ}

/-- Turns are only ever added. -/
theorem exists_turns_cons (th : Thread) (w : World ρ) (m : Move ρ) (past : Past ρ) :
    ∃ ws, turns th ((w, m) :: past) = past.turns th ++ ws := by
  by_cases hm : m = .run th
  · rw [hm, turns_cons_self]
    exact ⟨[w], rfl⟩
  · rw [turns_cons_of_ne hm]
    exact ⟨[], (List.append_nil _).symm⟩

/-- What has come to its end has done so whatever happens. -/
theorem conclusion?_cons {α : Type} {c : Call α} {o : Conclusion α} {me : Nat} {th : Thread}
    (ho : (c.after me (past.turns th)).conclusion? = some o) (w : World ρ) (m : Move ρ) :
    (c.after me (turns th ((w, m) :: past))).conclusion? = some o := by
  obtain ⟨ws, hws⟩ := exists_turns_cons th w m past
  rw [hws, Call.after_append]
  exact conclusion?_after ho ws

/-- The fills that a step starts have taken no turn yet. -/
theorem Leads.after_of_started (hl : Leads rules past w) {α : Type} {me : Nat} {c : Call α}
    {s : Fill} (hs : s ∈ (c.exec me w.heap []).fills) {m : Move ρ} (hm : w.Admits m) :
    s.code = s.code.after s.id (turns (.fill s.id) ((w, m) :: past)) ∧
      s.code.conclusion? = none := by
  refine ⟨?_, Call.conclusion?_of_started hs⟩
  have hnew := (Call.fills_exec hs).1
  rw [turns_cons_of_ne _ w past, (hl.unseen hnew).2.2]
  · rfl
  · rintro rfl
    obtain ⟨f, hf, hid⟩ := hm
    have hold := hl.numbered.fill_lt f hf
    omega

/-- The step of a task moves on this task alone. -/
theorem Told.runTask (h : past.Told w) (hl : Leads rules past w) {t : Task ρ}
    (hfind : (w.tasks.find? fun u ↦ u.id = t.id) = some t) :
    Told ((w, .run (.task t.id)) :: past) (w.runTask t) := by
  obtain ⟨ht, -⟩ := World.mem_of_find? hfind
  obtain ⟨code, hmade, hcode, -⟩ := h.task t ht
  have hstarts : w.starts (.run (.task t.id)) =
      ((w.resume t.code).exec t.id w.heap []).fills := by simp only [World.starts, hfind]
  have hrest : ((w.resume t.code).exec t.id w.heap []).rest =
      code.after t.id (turns (.task t.id) ((w, .run (.task t.id)) :: past)) := by
    rw [turns_cons_self, Call.after_concat, ← hcode]
  have hafter : ∀ s ∈ ((w.resume t.code).exec t.id w.heap []).fills,
      s.code = s.code.after s.id (turns (.fill s.id) ((w, .run (.task t.id)) :: past)) ∧
        s.code.conclusion? = none := fun s hs ↦ hl.after_of_started hs ⟨t, ht, rfl⟩
  rw [World.runTask_eq]
  generalize (w.resume t.code).exec t.id w.heap [] = p at *
  refine ⟨fun u hu ↦ ?_, fun i o ho ↦ ?_, fun f hf ↦ ?_, fun s hs ↦ ?_⟩
  · rcases World.mem_tasks_afterTask hu with ⟨hu, hne⟩ | ⟨hid, hucode, hnone⟩
    · obtain ⟨code', hmade', hcode'⟩ := h.task u hu
      refine ⟨code', hmade', ?_⟩
      rwa [turns_cons_of_ne fun heq ↦ hne (Thread.task.inj (Move.run.inj heq)).symm]
    · rw [hid, hucode]
      exact ⟨code, hmade, hrest, Or.inr hnone⟩
  · rcases World.conclusions_afterTask ho with ho | ⟨rfl, hend⟩
    · obtain ⟨code', hmade', hend⟩ := h.concluded i o ho
      exact ⟨code', hmade', conclusion?_cons hend w _⟩
    · rw [hrest] at hend
      exact ⟨code, hmade, hend⟩
  · rw [World.fills_afterTask] at hf
    rw [started_cons, hstarts]
    rcases List.mem_append.mp hf with hf | hf
    · obtain ⟨s, hs, hsame⟩ := h.fill f hf
      exact ⟨s, List.mem_append_right _ hs, hsame⟩
    · obtain ⟨s, hs, rfl⟩ := List.mem_map.mp hf
      exact ⟨s, List.mem_append_left _ hs, rfl, rfl, rfl⟩
  · rw [started_cons, hstarts] at hs
    rw [World.fills_afterTask, World.outcomes_afterTask]
    rcases List.mem_append.mp hs with hs | hs
    · exact Or.inl ⟨_, World.mem_absorb_of_started hs, rfl, rfl, rfl, hafter s hs⟩
    · rw [turns_cons_of_ne (by simp)]
      exact (h.started s hs).imp_left fun ⟨f, hf, hsame⟩ ↦ ⟨f, List.mem_append_left _ hf, hsame⟩

/-- The step of a fill moves on this fill alone. -/
theorem Told.runFill (h : past.Told w) (hl : Leads rules past w) {f : Fill}
    (hfind : (w.fills.find? fun u ↦ u.id = f.id) = some f) :
    Told ((w, .run (.fill f.id)) :: past) (w.runFill f) := by
  obtain ⟨hf, -⟩ := World.mem_fills_of_find? hfind
  have hstarts : w.starts (.run (.fill f.id)) =
      ((w.resume f.code).exec f.id w.heap []).fills := by simp only [World.starts, hfind]
  have hrest : ∀ s : Fill, s.id = f.id →
      f.code = s.code.after s.id (past.turns (.fill s.id)) →
      s.code.after s.id (turns (.fill s.id) ((w, .run (.fill f.id)) :: past)) =
        ((w.resume f.code).exec f.id w.heap []).rest := by
    intro s hid hcode
    rw [hid] at hcode ⊢
    rw [turns_cons_self, Call.after_concat, ← hcode]
  have hafter : ∀ s ∈ ((w.resume f.code).exec f.id w.heap []).fills,
      s.code = s.code.after s.id (turns (.fill s.id) ((w, .run (.fill f.id)) :: past)) ∧
        s.code.conclusion? = none := fun s hs ↦ hl.after_of_started hs ⟨f, hf, rfl⟩
  have hfresh : ∀ s ∈ ((w.resume f.code).exec f.id w.heap []).fills, s.id ≠ f.id := by
    intro s hs
    have hnew := (Call.fills_exec hs).1
    have hold := hl.numbered.fill_lt f hf
    omega
  rw [World.runFill_eq]
  generalize (w.resume f.code).exec f.id w.heap [] = p at *
  refine ⟨fun t ht ↦ ?_, fun i o ho ↦ ?_, fun u hu ↦ ?_, fun s hs ↦ ?_⟩
  · rw [World.tasks_afterFill] at ht
    rw [turns_cons_of_ne (by simp)]
    exact h.task t ht
  · rw [World.conclusions_afterFill] at ho
    rw [turns_cons_of_ne (by simp)]
    exact h.concluded i o ho
  · have hwas : ∃ v ∈ (w.absorb f.id p).fills, v.id = u.id ∧ v.guard = u.guard ∧ v.key = u.key := by
      rcases World.mem_or_eq_of_mem_afterFill hu with ⟨hu, -⟩ | ⟨v, hv, -, -, rfl⟩
      · exact ⟨u, hu, rfl, rfl, rfl⟩
      · exact ⟨v, hv, rfl, rfl, rfl⟩
    obtain ⟨v, hv, hid, hguard, hkey⟩ := hwas
    rw [started_cons, hstarts, ← hid, ← hguard, ← hkey]
    rcases List.mem_append.mp hv with hv | hv
    · obtain ⟨s, hs, hsame⟩ := h.fill v hv
      exact ⟨s, List.mem_append_right _ hs, hsame⟩
    · obtain ⟨s, hs, rfl⟩ := List.mem_map.mp hv
      exact ⟨s, List.mem_append_left _ hs, rfl, rfl, rfl⟩
  · rw [started_cons, hstarts] at hs
    rcases List.mem_append.mp hs with hs | hs
    · refine Or.inl ⟨_, World.mem_afterFill_of_ne (World.mem_absorb_of_started hs) (hfresh s hs),
        rfl, rfl, rfl, hafter s hs⟩
    · by_cases hid : s.id = f.id
      · rcases h.started s hs with ⟨g, hg, hgid, hguard, hkey, hcode, -⟩ | ⟨o, ho, -⟩
        · obtain rfl := hl.guards.agrees.fill_eq_of_id hg hf (hgid.trans hid)
          rw [hrest s hid hcode]
          cases hend : p.rest.conclusion? with
          | some o =>
            rw [hid]
            exact Or.inr ⟨o, World.outcome_afterFill_self hend, rfl⟩
          | none =>
            exact Or.inl ⟨_, World.mem_afterFill_self hf hend, hgid, hguard, hkey, rfl, hend⟩
        · rw [hid, hl.guards.agrees.outcome_eq_none hf] at ho
          cases ho
      · rw [turns_cons_of_ne fun heq ↦ hid (Thread.fill.inj (Move.run.inj heq)).symm,
          World.outcomes_afterFill_of_ne hf hid]
        refine (h.started s hs).imp_left fun ⟨g, hg, hgid, hsame⟩ ↦ ⟨g, ?_, hgid, hsame⟩
        exact World.mem_afterFill_of_ne (List.mem_append_left _ hg) (hgid ▸ hid)

/-- A move that is no step of a task or a fill moves no call on. -/
theorem Told.congr (h : past.Told w) {w' : World ρ} {m : Move ρ}
    (hstarts : w.starts m = []) (hturns : ∀ th, turns th ((w, m) :: past) = past.turns th)
    (htasks : ∀ t ∈ w'.tasks, ∃ code, made t.id ((w, m) :: past) = some code ∧
      t.code = code.after t.id (past.turns (.task t.id)) ∧
        (past.turns (.task t.id) = [] ∨ t.code.conclusion? = none))
    (hmade : ∀ i code, past.made i = some code → made i ((w, m) :: past) = some code)
    (hfills : w'.fills = w.fills) (hconclusions : w'.conclusions = w.conclusions)
    (houtcomes : w'.outcomes = w.outcomes) : Told ((w, m) :: past) w' := by
  refine ⟨fun t ht ↦ ?_, fun i o ho ↦ ?_, fun f hf ↦ ?_, fun s hs ↦ ?_⟩
  · rw [hturns]
    exact htasks t ht
  · rw [hconclusions] at ho
    obtain ⟨code, hcode, hend⟩ := h.concluded i o ho
    rw [hturns]
    exact ⟨code, hmade i code hcode, hend⟩
  · rw [hfills] at hf
    rw [started_cons, hstarts]
    exact h.fill f hf
  · rw [started_cons, hstarts] at hs
    rw [hturns, hfills, houtcomes]
    exact h.started s hs

end Told

/-- All threads have come to what their calls come to after their own turns. -/
theorem Leads.told (h : Leads rules past w) : past.Told w := by
  induction h with
  | start =>
    exact ⟨fun _ ht ↦ absurd ht List.not_mem_nil, fun i o ho ↦ by simp [World.initial] at ho,
      fun _ hf ↦ absurd hf List.not_mem_nil, fun _ hs ↦ absurd hs List.not_mem_nil⟩
  | @move past w m hadmits _ hl ih =>
    cases m with
    | run th =>
      cases th with
      | task i =>
        cases hfind : w.tasks.find? fun t ↦ t.id = i with
        | some t =>
          obtain ⟨-, rfl⟩ := World.mem_of_find? hfind
          simp only [World.apply, World.run, hfind]
          exact ih.runTask hl hfind
        | none =>
          obtain ⟨t, ht, rfl⟩ := hadmits
          exact absurd (decide_eq_true rfl) (List.find?_eq_none.mp hfind t ht)
      | fill i =>
        cases hfind : w.fills.find? fun f ↦ f.id = i with
        | some f =>
          obtain ⟨-, rfl⟩ := World.mem_fills_of_find? hfind
          simp only [World.apply, World.run, hfind]
          exact ih.runFill hl hfind
        | none =>
          obtain ⟨f, hf, rfl⟩ := hadmits
          exact absurd (decide_eq_true rfl) (List.find?_eq_none.mp hfind f hf)
      | loop r =>
        -- no task and no fill has a turn in the step of a loop
        refine ⟨fun t ht ↦ ?_, fun i o ho ↦ ?_, ih.fill, fun s hs ↦ ?_⟩
        · rw [turns_cons_of_ne (by simp)]
          exact ih.task t ht
        · rw [turns_cons_of_ne (by simp)]
          exact ih.concluded i o ho
        · rw [turns_cons_of_ne (by simp)]
          exact ih.started s hs
    | spawn held code =>
      refine ih.congr rfl (fun _ ↦ rfl) (fun t ht ↦ ?_) (fun i c ↦ hl.made_cons) rfl rfl rfl
      rcases List.mem_append.mp ht with ht | ht
      · obtain ⟨c, hmade, hc⟩ := ih.task t ht
        exact ⟨c, hl.made_cons hmade, hc⟩
      · rw [List.mem_singleton.mp ht]
        have hnone := (hl.unseen (Nat.le_refl _)).2.1
        refine ⟨code, if_pos rfl, ?_, Or.inl hnone⟩
        rw [hnone]
        rfl
    | abort i =>
      refine ih.congr rfl (fun _ ↦ rfl) (fun t ht ↦ ?_) (fun _ _ ↦ id) rfl rfl rfl
      exact ih.task t (List.mem_filter.mp ht).1
    | advance t => exact ih.congr rfl (fun _ ↦ rfl) ih.task (fun _ _ ↦ id) rfl rfl rfl
    | hold named guarded => exact ih.congr rfl (fun _ ↦ rfl) ih.task (fun _ _ ↦ id) rfl rfl rfl

/-- What a thread found at one of its turns that a fill had ended with is known from then on. -/
theorem Leads.outcome_of_turn (h : Leads rules past w) {th : Thread} {w' : World ρ}
    (hw' : w' ∈ past.turns th) {i : Nat} {o : Answer String} (ho : w'.outcomes[i]? = some o) :
    w.outcomes[i]? = some o := by
  obtain ⟨pre, post, hturns⟩ := List.append_of_mem hw'
  obtain ⟨newer, older, rfl, -⟩ := exists_of_turns hturns
  exact h.outcome ho

/-- A fill that has not ended is at what is left of it since it was started. -/
theorem Leads.exists_started (h : Leads rules past w) {f : Fill} (hf : f ∈ w.fills) :
    ∃ s ∈ past.started, s.id = f.id ∧ s.guard = f.guard ∧ s.key = f.key ∧
      f.code = s.code.after s.id (past.turns (.fill s.id)) := by
  obtain ⟨s, hs, hid, hguard, hkey⟩ := h.told.fill f hf
  refine ⟨s, hs, hid, hguard, hkey, ?_⟩
  rcases h.told.started s hs with ⟨g, hg, hgid, -, -, hcode, -⟩ | ⟨o, ho, -⟩
  · rwa [← h.guards.agrees.fill_eq_of_id hg hf (hgid.trans hid)]
  · rw [hid, h.guards.agrees.outcome_eq_none hf] at ho
    cases ho

/-- At a turn of a task its call has come to what it comes to after the turns before, and what it
starts then has been started; what is in flight then was started before. -/
theorem Leads.turn (h : Leads rules past w) {i : Nat} {pre post : List (World ρ)} {w' : World ρ}
    (hturns : past.turns (.task i) = pre ++ w' :: post) {code : Call ρ}
    (hmade : past.made i = some code) :
    (∀ s ∈ ((w'.resume (code.after i pre)).exec i w'.heap []).fills, s ∈ past.started) ∧
      ∀ g key j, (w'.heap.guard g).inFlight[key]? = some j →
        ∃ s ∈ past.started, s.id = j ∧ s.guard = g ∧ s.key = key := by
  obtain ⟨newer, older, rfl, hpre⟩ := exists_of_turns hturns
  obtain ⟨_, hthen⟩ := h.of_append
  obtain ⟨⟨t, ht, hid⟩, -, hold, -⟩ := hthen.of_cons
  refine ⟨fun s hs ↦ mem_started_append ?_ newer, fun g key j hj ↦ ?_⟩
  · rw [started_cons]
    refine List.mem_append_left _ ?_
    cases hfind : w'.tasks.find? fun t ↦ t.id = i with
    | none => exact absurd (decide_eq_true hid) (List.find?_eq_none.mp hfind t ht)
    | some u =>
      obtain ⟨hu, rfl⟩ := World.mem_of_find? hfind
      obtain ⟨code', hmade', hcode', -⟩ := hold.told.task u hu
      have hsame := h.made_append newer (hthen.made_append [_] hmade')
      obtain rfl := Option.some.inj (hmade.symm.trans hsame)
      simp only [World.starts, hfind, hcode', hpre]
      exact hs
  · obtain ⟨f, hf, rfl, rfl, rfl⟩ := (hold.guards.agrees.inFlight_iff g key j).mp hj
    obtain ⟨s, hs, hid, hguard, hkey, -⟩ := hold.exists_started hf
    refine ⟨s, mem_started_append (List.mem_append_right _ hs) newer, hid, hguard, hkey⟩

end Past

end TwoTier
