import TwoTier.Proofs.Engine.Renewal

/-!
# Histories of runs

Tasks and fills leave marks of what they do, and receive loops leave none; but what a loop does in
its step can be read off the tiers before it. A `Play.Chronicle` puts both into one history, in the
order in which they happen.

An invariant of the heap and the history that every move keeps (`Play.Recounts`) holds in every play
that has one (`Play.Chronicle.inv`). Between two steps of receive loops it is an invariant of the
heap and the log (`Play.Since`); with the step of a loop another one begins to hold.
-/

set_option autoImplicit false
set_option relaxedAutoImplicit false

namespace TwoTier

namespace Play

variable {ε ρ : Type}

/-- The history of a run, the latest first: the marks of tasks and fills, and what receive loops do.
-/
inductive Chronicle (rules : Rules ε ρ) (heard : Tiers → Nat → List ε) (p₀ : Play ε ρ) :
    Play ε ρ → List ε → Prop
  | start : Chronicle rules heard p₀ p₀ []
  | loop {p : Play ε ρ} {es : List ε} (r : Nat) (hm : p.Allowed rules (.run (.loop r)))
      (h : Chronicle rules heard p₀ p es) :
      Chronicle rules heard p₀ (p.apply (.run (.loop r))) (heard p.world.heap.tiers r ++ es)
  | abort {p : Play ε ρ} {es : List ε} (t : Task ρ) (ht : t ∈ p.world.tasks)
      (hm : p.Allowed rules (.abort t.id)) (h : Chronicle rules heard p₀ p es) :
      Chronicle rules heard p₀ (p.apply (.abort t.id)) es
  | other {p : Play ε ρ} {es : List ε} (m : Move ε ρ) (new : Log ε) (hm : p.Allowed rules m)
      (hloop : ∀ r, m ≠ .run (.loop r)) (habort : ∀ i, m ≠ .abort i)
      (hlog : (p.apply m).log = new ++ p.log) (h : Chronicle rules heard p₀ p es) :
      Chronicle rules heard p₀ (p.apply m) (new.map Prod.snd ++ es)

/-- An invariant of the heap and the history, as one of the heap and the log from a moment on at
which the log was `base` and the history `es`. -/
def Since (J : Heap → List ε → Prop) (base : Log ε) (es : List ε) (h : Heap) (l : Log ε) : Prop :=
  ∃ new, l = new ++ base ∧ J h (new.map Prod.snd ++ es)

/-- Every move keeps an invariant of the heap and the history, where all threads have yet to do what
belongs to a class of calls. -/
structure Recounts (rules : Rules ε ρ) (heard : Tiers → Nat → List ε)
    (C : ∀ α : Type, Marked ε α → Prop) (J : Heap → List ε → Prop) : Prop where
  thread : ∀ {h es} gs n, J h es → J { h with guards := gs, nextThread := n } es
  clock : ∀ {h es t}, h.now ≤ t → J h es → J { h with now := t } es
  release : ∀ {h es held}, rules.named ⊆ held → J h es →
    J { h with tiers := h.tiers.release held } es
  aborts : rules.aborts → ∀ {h es} i, J h es → J (h.leaveAll i) es
  loop : ∀ {h es r} n, r ∈ h.tiers.loops → h.tiers.loopReady r = true → J h es →
    J { h with tiers :=
      (h.tiers.stepLoop r).setLoop r { (h.tiers.stepLoop r).loop r with since := n } }
      (heard h.tiers r ++ es)
  lasting : ∀ {α : Type} {m : Marked ε α}, C α m → m.Lasting C
  crash : ∀ {α : Type}, C α .crash
  call : ∀ {m}, rules.call m → C ρ m
  opens : ∀ {m}, rules.call m → Opens m
  safe : ∀ {α : Type} {m : Marked ε α}, C α m → ∀ {base es me h l},
    Since J base es h l → Marked.Safe (Since J base es) me m h l

variable {rules : Rules ε ρ} {heard : Tiers → Nat → List ε} {C : ∀ α : Type, Marked ε α → Prop}
  {J : Heap → List ε → Prop} {p₀ p : Play ε ρ} {es : List ε}

/-- What a loop does in its step is known. -/
theorem Chronicle.loop_of_heard (h : Chronicle rules heard p₀ p es) {r : Nat}
    (hm : p.Allowed rules (.run (.loop r))) {new : List ε}
    (hnew : heard p.world.heap.tiers r = new) :
    Chronicle rules heard p₀ (p.apply (.run (.loop r))) (new ++ es) :=
  hnew ▸ .loop r hm h

/-- A new task has done nothing yet. -/
theorem Chronicle.spawn (h : Chronicle rules heard p₀ p es) {code : Marked ε ρ}
    (hcode : rules.call code) (held : List Held) :
    Chronicle rules heard p₀ (p.apply (.spawn held code)) es :=
  .other (.spawn held code) [] hcode (fun _ h ↦ by cases h) (fun _ h ↦ by cases h) rfl h

/-- What a task does in its step is known. -/
theorem Chronicle.task_of_log (h : Chronicle rules heard p₀ p es) {i : Nat}
    (hm : p.Allowed rules (.run (.task i))) {new : Log ε}
    (hnew : (p.apply (.run (.task i))).log = new ++ p.log) :
    Chronicle rules heard p₀ (p.apply (.run (.task i))) (new.map Prod.snd ++ es) :=
  .other _ new hm (fun _ h ↦ by cases h) (fun _ h ↦ by cases h) hnew h

theorem Since.of_now {base : Log ε} {h : Heap} (hJ : J h es) : Since J base es h base :=
  ⟨[], rfl, hJ⟩

theorem Since.mono {base : Log ε} {h h' : Heap} {l : Log ε} (hi : Since J base es h l)
    (hstep : ∀ es', J h es' → J h' es') : Since J base es h' l := by
  obtain ⟨new, hl, hJ⟩ := hi
  exact ⟨new, hl, hstep _ hJ⟩

theorem Since.mark {base : Log ε} {h h' : Heap} {l : Log ε} (hi : Since J base es h l) (me : Nat)
    {e : ε} (hstep : ∀ es', J h es' → J h' (e :: es')) : Since J base es h' ((me, e) :: l) := by
  obtain ⟨new, rfl, hJ⟩ := hi
  exact ⟨(me, e) :: new, rfl, hstep _ hJ⟩

theorem Recounts.bear (hJ : Recounts rules heard C J) (base : Log ε) (es : List ε) :
    rules.Bear (Since J base es) where
  steady :=
    { thread gs n := fun ⟨new, hl, h⟩ ↦ ⟨new, hl, hJ.thread gs n h⟩
      clock hle := fun ⟨new, hl, h⟩ ↦ ⟨new, hl, hJ.clock hle h⟩
      release hnamed := fun ⟨new, hl, h⟩ ↦ ⟨new, hl, hJ.release hnamed h⟩ }
  aborts haborts _ _ i := fun ⟨new, hl, h⟩ ↦ ⟨new, hl, hJ.aborts haborts i h⟩
  opens := hJ.opens
  safe hm _ _ _ h _ := hJ.safe (hJ.call hm) h

/-- With the step of a receive loop the history goes on, and all threads go on with it. -/
theorem Sound.recount_loop {base : Log ε} (hs : Sound (Since J base es) rules.named p)
    (hJ : Recounts rules heard C J) (hw : p.Within C) (hi : J p.world.heap es) {r : Nat}
    (hm : p.Allowed rules (.run (.loop r))) :
    Sound (Since J p.log (heard p.world.heap.tiers r ++ es)) rules.named
      (p.apply (.run (.loop r))) := by
  obtain ⟨since, hcandidate⟩ := hm
  obtain ⟨hmem, hready⟩ := World.mem_loops_of_candidate hcandidate
  exact ⟨.of_now (hJ.loop p.world.turn hmem hready hi), hs.numbered.apply (.run (.loop r)),
    hs.marks,
    fun t ht ↦ ⟨(hs.tasks t ht).code_eq, (hs.tasks t ht).opens,
      fun _ _ hk _ ↦ hJ.safe (hw.task t.id) hk⟩,
    fun f hf ↦ ⟨(hs.fills f hf).code_eq, (hs.fills f hf).opens,
      fun _ _ hk _ ↦ hJ.safe (hw.fill f.id) hk⟩, hs.named_subset⟩

/-- A move of another kind makes the log longer by its marks. -/
theorem Sound.recount_other {base : Log ε} (hs : Sound (Since J base es) rules.named p)
    (hJ : Recounts rules heard C J) (hw : p.Within C) (hi : J p.world.heap es) {m : Move ε ρ}
    (hm : p.Allowed rules m) (hloop : ∀ r, m ≠ .run (.loop r)) :
    ∃ new, (p.apply m).log = new ++ p.log ∧ (p.apply m).Within C ∧
      Sound (Since J (p.apply m).log (new.map Prod.snd ++ es)) rules.named (p.apply m) := by
  -- from this moment on the history is read off the log as it stands
  have hnow : Sound (Since J p.log es) rules.named p :=
    hs.renew hw (fun hm ↦ hJ.safe hm) (.of_now hi)
  have hafter := hnow.apply_of_ne_loop (hJ.bear p.log es) hm hloop
  obtain ⟨new, hlog, hinv⟩ := hafter.inv
  have hwithin : (p.apply m).Within C := hw.apply hJ.lasting hJ.call hnow hm
  exact ⟨new, hlog, hwithin, hafter.renew hwithin (fun hm ↦ hJ.safe hm) (.of_now hinv)⟩

section Opening

variable {now : Nat} {tiers : Tiers}

private theorem Chronicle.sound (hJ : Recounts rules heard C J)
    (h₀ : J { Heap.initial with now := now, tiers := tiers } [])
    (h : Chronicle rules heard (opening now tiers rules.named) p es) :
    J p.world.heap es ∧ p.Within C ∧ Sound (Since J p.log es) rules.named p := by
  induction h with
  | start => exact ⟨h₀, within_opening hJ.crash, sound_opening (.of_now h₀)⟩
  | loop r hm _ ih =>
    obtain ⟨hi, hw, hs⟩ := ih
    have hafter := hs.recount_loop hJ hw hi hm
    obtain ⟨since, hcandidate⟩ := hm
    obtain ⟨hmem, hready⟩ := World.mem_loops_of_candidate hcandidate
    exact ⟨hJ.loop _ hmem hready hi, ⟨hw.task, hw.fill⟩, hafter⟩
  | abort t _ hm _ ih =>
    obtain ⟨hi, hw, hs⟩ := ih
    have hafter := hs.apply_of_ne_loop (hJ.bear _ _) hm fun r hr ↦ by cases hr
    obtain ⟨rest, hrest, hinv⟩ := hafter.inv
    obtain rfl := List.append_cancel_right ((List.nil_append _).trans hrest).symm
    exact ⟨hinv, ⟨hw.task, hw.fill⟩, hafter⟩
  | other m _ hm hloop _ hlog _ ih =>
    obtain ⟨hi, hw, hs⟩ := ih
    obtain ⟨new, hnew, hwithin, hafter⟩ := hs.recount_other hJ hw hi hm hloop
    obtain rfl := List.append_cancel_right (hlog.symm.trans hnew)
    obtain ⟨rest, hrest, hinv⟩ := hafter.inv
    obtain rfl := List.append_cancel_right ((List.nil_append _).trans hrest).symm
    exact ⟨hinv, hwithin, hafter⟩

/-- An invariant of the heap and the history that holds at first, and that every move keeps, holds
in every play that is reached, of what has happened until then. -/
theorem Chronicle.inv (hJ : Recounts rules heard C J)
    (h₀ : J { Heap.initial with now := now, tiers := tiers } [])
    (h : Chronicle rules heard (opening now tiers rules.named) p es) : J p.world.heap es :=
  (h.sound hJ h₀).1

end Opening

end Play

end TwoTier
