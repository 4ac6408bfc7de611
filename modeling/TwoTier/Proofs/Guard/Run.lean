import TwoTier.Proofs.Guard.Flights

/-!
# Worlds and the history of their guards

`Guard.Run` is the worlds that any moves lead to, each with the history of its guards. What is kept
of the guards in such a world is what the history says (`Guard.Run.agrees`).

A step of a thread takes at most one call back from its fill and takes at most one call to the table
(`Guard.Kept.step`); a fill that ends takes its record out of the table in the same step. Everything
else that can happen leaves the guards as they are.
-/

set_option autoImplicit false
set_option relaxedAutoImplicit false

namespace TwoTier

namespace Guard

/-! ### A step of a thread -/

section Step

variable {ρ α : Type}

/-- The event of a thread whose call goes on with the outcome of a fill. -/
def returnEvents (w : World ρ) (me : Nat) : Call α → List Event
  | .await i _ =>
    match w.outcomes[i]? with
    | some o => [.returned me i o]
    | none => []
  | _ => []

/-- The event of a thread whose call reaches a table. -/
def callEvents (me : Nat) : Heap × Call α → List Event
  | (h, .join g key _ _) => [.called me g key (Call.fillOf h g key)]
  | _ => []

/-- The events of a step of a thread, the latest first. -/
def stepEvents (w : World ρ) (me : Nat) (code : Call α) : List Event :=
  callEvents me ((w.resume code).halt me w.heap) ++ returnEvents w me code

/-- The event of a fill that ends in a step. -/
def endEvents (w : World ρ) (f : Fill) : List Event :=
  match ((w.resume f.code).exec f.id w.heap []).rest.conclusion? with
  | some c => [.ended f.id f.guard f.key c]
  | none => []

/-- The events of a move. -/
def events (w : World ρ) : Move ρ → List Event
  | .run (.task i) =>
    match w.tasks.find? fun t ↦ t.id = i with
    | some t => stepEvents w t.id t.code
    | none => []
  | .run (.fill i) =>
    match w.fills.find? fun f ↦ f.id = i with
    | some f => endEvents w f ++ stepEvents w f.id f.code
    | none => []
  | _ => []

/-- A call that has begun to wait for a fill has come for it with the last event of its thread. -/
def Waits (es : List Event) (me : Nat) : Call α → Prop
  | .await i k => (∃ g key, lastOf me es = some (.called me g key i)) ∧ ∀ a, (k a).Unbegun
  | c => c.Unbegun

theorem Waits.of_unbegun {es : List Event} {me : Nat} {c : Call α} (h : c.Unbegun) :
    Waits es me c := by
  cases c <;> first | exact h | exact h.elim

/-- What a thread waits for is not changed by what happens to others. -/
theorem Waits.congr {es es' : List Event} {me : Nat} {c : Call α} (h : Waits es me c)
    (hlast : lastOf me es' = lastOf me es) : Waits es' me c := by
  cases c with
  | await i k =>
    unfold Waits at h ⊢
    rw [hlast]
    exact h
  | _ => exact h

/-- A call whose wait for a fill is over has no such wait left. -/
theorem Kept.resume {w : World ρ} {flights : List Flight} {es : List Event}
    (h : Kept w.heap.guards w.heap.nextThread flights w.outcomes es) {me : Nat} {code : Call α}
    (hcode : Waits es me code) :
    Kept w.heap.guards w.heap.nextThread flights w.outcomes (returnEvents w me code ++ es) ∧
      ((w.resume code).Unbegun ∨
        (returnEvents w me code = [] ∧ ∃ i k, w.resume code = .await i k ∧ code = .await i k)) := by
  cases code with
  | await i k =>
    obtain ⟨⟨g, key, hlast⟩, hk⟩ := hcode
    cases ho : w.outcomes[i]? with
    | none =>
      have hevents : returnEvents w me (.await i k) = [] := by simp only [returnEvents, ho]
      rw [hevents]
      refine ⟨h, Or.inr ⟨rfl, i, k, ?_, rfl⟩⟩
      simp only [World.resume, ho]
    | some o =>
      have hevents : returnEvents w me (.await i k) = [.returned me i o] := by
        simp only [returnEvents, ho]
      rw [hevents]
      refine ⟨h.returned hlast ho, Or.inl ?_⟩
      simp only [World.resume, ho]
      exact hk o
  | _ => exact ⟨h, Or.inl hcode⟩

/-- A call that reaches a table joins the fill of its key or starts it. -/
theorem Kept.enter {h : Heap} {flights : List Flight} {outcomes : Dict Nat (Answer String)}
    {es : List Event} (hkept : Kept h.guards h.nextThread flights outcomes es) (me : Nat)
    {c : Call α} (hc : c.Unbegun) :
    let p := Call.enter [] (h, c)
    Kept p.heap.guards p.heap.nextThread (flights ++ p.fills.map Fill.flight) outcomes
        (callEvents me (h, c) ++ es) ∧
      Waits (callEvents me (h, c) ++ es) me p.rest ∧ ∀ f ∈ p.fills, f.code.Unbegun := by
  intro p
  have hquiet : callEvents me (h, c) = [] → p = ⟨h, [], c⟩ →
      Kept p.heap.guards p.heap.nextThread (flights ++ p.fills.map Fill.flight) outcomes
        (callEvents me (h, c) ++ es) ∧
      Waits (callEvents me (h, c) ++ es) me p.rest ∧ ∀ f ∈ p.fills, f.code.Unbegun := by
    intro hevents hp
    rw [hevents, hp]
    refine ⟨?_, Waits.of_unbegun hc, fun f hf ↦ absurd hf List.not_mem_nil⟩
    simpa using hkept
  cases c with
  | join g key fill k =>
    have hlast : ∀ i, lastOf me (.called me g key i :: es) = some (.called me g key i) := by
      intro i
      rw [lastOf_cons]
      exact if_pos rfl
    cases hi : (h.guard g).inFlight[key]? with
    | some i =>
      have hp : p = ⟨h.setGuard g (h.guard g).join, [], .await i k⟩ := by
        simp only [p, Call.enter, hi]
      have hevents : callEvents me (h, .join g key fill k) = [.called me g key i] := by
        simp only [callEvents, Call.fillOf, hi, Option.getD_some]
      rw [hp, hevents]
      refine ⟨?_, ⟨⟨g, key, hlast i⟩, hc.2⟩, fun f hf ↦ absurd hf List.not_mem_nil⟩
      rw [List.map_nil, List.append_nil]
      exact hkept.join me hi
    | none =>
      have hp : p = ⟨{ h.setGuard g ((h.guard g).start key h.nextThread) with
          nextThread := h.nextThread + 1 }, [⟨h.nextThread, g, key, .pause fill, 0⟩],
          .await h.nextThread k⟩ := by
        simp only [p, Call.enter, hi, List.nil_append]
      have hevents : callEvents me (h, .join g key fill k) = [.called me g key h.nextThread] := by
        simp only [callEvents, Call.fillOf, hi, Option.getD_none]
      rw [hp, hevents]
      refine ⟨hkept.start me hi, ⟨⟨g, key, hlast _⟩, hc.2⟩, fun f hf ↦ ?_⟩
      rw [List.mem_singleton.mp hf]
      exact hc.1
  | await i k => exact hc.elim
  | _ => exact hquiet rfl rfl

/-- A step of a thread keeps the guards in agreement with the history, and its call waits for the
fill for which it has come. -/
theorem Kept.step {w : World ρ} {flights : List Flight} {es : List Event}
    (h : Kept w.heap.guards w.heap.nextThread flights w.outcomes es) {me : Nat} {code : Call α}
    (hcode : Waits es me code) :
    let p := (w.resume code).exec me w.heap []
    Kept p.heap.guards p.heap.nextThread (flights ++ p.fills.map Fill.flight) w.outcomes
        (stepEvents w me code ++ es) ∧
      Waits (stepEvents w me code ++ es) me p.rest ∧ ∀ f ∈ p.fills, f.code.Unbegun := by
  intro p
  obtain ⟨hreturned, hresumed⟩ := h.resume hcode
  have hp : p = Call.enter [] ((w.resume code).halt me w.heap) := Call.exec_eq_enter _ _ _ _
  rw [stepEvents, List.append_assoc, hp]
  rcases hresumed with hunbegun | ⟨hnil, i, k, hawait, rfl⟩
  · have hhalted := (Call.carried_unbegun me).halt (h := w.heap) hunbegun
    obtain ⟨hguards, hnext, -⟩ := Call.halt_kept me (w.resume code) w.heap
    rw [← hguards, ← hnext] at hreturned
    exact hreturned.enter me hhalted
  · rw [hawait, hnil] at *
    refine ⟨?_, hcode, fun f hf ↦ absurd hf List.not_mem_nil⟩
    simpa [Call.halt, Call.enter, callEvents] using h

/-- The events of a step are of the thread that takes it. -/
theorem lastOf_stepEvents (w : World ρ) {me th : Nat} (hth : th ≠ me) (code : Call α)
    (es : List Event) : lastOf th (stepEvents w me code ++ es) = lastOf th es := by
  have hreturn : lastOf th (returnEvents w me code ++ es) = lastOf th es := by
    unfold returnEvents
    split
    · split
      · rw [List.singleton_append, lastOf_cons, if_neg]
        exact fun heq ↦ hth (Option.some.inj heq).symm
      · rfl
    · rfl
  rw [stepEvents, List.append_assoc]
  unfold callEvents
  split
  · rw [List.singleton_append, lastOf_cons, if_neg, hreturn]
    exact fun heq ↦ hth (Option.some.inj heq).symm
  · exact hreturn

end Step

/-! ### Runs -/

section Runs

variable {ρ : Type}

/-- A move that makes a task makes one that has not begun to wait for a fill. -/
def Move.Fresh : Move ρ → Prop
  | .spawn _ code => code.Unbegun
  | _ => True

/-- The worlds that moves lead to, each with the history of its guards. -/
inductive Run : World ρ → List Event → Prop
  | start : Run World.initial []
  | move {w : World ρ} {es : List Event} (m : Move ρ) (hm : Move.Fresh m) (h : Run w es) :
      Run (w.apply m) (events w m ++ es)

/-- A world agrees with a history: the guards do, and the threads with the property `P` wait for the
fills for which they have come. -/
structure Agrees (w : World ρ) (es : List Event) (P : Nat → Prop) : Prop where
  kept : Kept w.heap.guards w.heap.nextThread (w.fills.map Fill.flight) w.outcomes es
  tasks : ∀ t ∈ w.tasks, P t.id → Waits es t.id t.code
  fills : ∀ f ∈ w.fills, P f.id → Waits es f.id f.code

/-- The tables have a record for each fill that has not ended, and for no other. -/
theorem Agrees.inFlight_iff {w : World ρ} {es : List Event} {P : Nat → Prop} (h : Agrees w es P)
    (g : Nat) (key : String) (i : Nat) : (w.heap.guard g).inFlight[key]? = some i ↔
      ∃ f ∈ w.fills, f.id = i ∧ f.guard = g ∧ f.key = key := by
  change (w.heap.guards.getD g default).inFlight[key]? = some i ↔ _
  rw [h.kept.table, h.kept.flight_iff, List.mem_map]
  constructor
  · rintro ⟨f, hf, hflight⟩
    obtain ⟨hid, hguard, hkey⟩ := Flight.mk.inj hflight
    exact ⟨f, hf, hid, hguard, hkey⟩
  · rintro ⟨f, hf, rfl, rfl, rfl⟩
    exact ⟨f, hf, rfl⟩

/-- No number belongs to two fills at once. -/
theorem Agrees.fill_eq_of_id {w : World ρ} {es : List Event} {P : Nat → Prop} (h : Agrees w es P)
    {f f' : Fill} (hf : f ∈ w.fills) (hf' : f' ∈ w.fills) (hid : f.id = f'.id) : f = f' := by
  have hnodup : (w.fills.map Fill.id).Nodup := by
    have := h.kept.nodup
    rwa [List.map_map] at this
  exact List.inj_on_of_nodup_map hnodup hf hf' hid

/-- The outcome of a fill that has not ended is not known. -/
theorem Agrees.outcome_eq_none {w : World ρ} {es : List Event} {P : Nat → Prop} (h : Agrees w es P)
    {f : Fill} (hf : f ∈ w.fills) : w.outcomes[f.id]? = none :=
  h.kept.outcome_eq_none _ (List.mem_map_of_mem hf)

/-- No fill of a thread that is yet to come has ended. -/
theorem Agrees.outcome_eq_none_of_le {w : World ρ} {es : List Event} {P : Nat → Prop}
    (h : Agrees w es P) {i : Nat} (hi : w.heap.nextThread ≤ i) : w.outcomes[i]? = none := by
  rw [Option.eq_none_iff_forall_ne_some]
  intro o ho
  obtain ⟨g, key, c, hended, -⟩ := (h.kept.outcome_iff i o).mp ho
  exact absurd (h.kept.fill_lt _ hended) (Nat.not_lt.mpr hi)

/-- The heap after the step of a thread, with what the step left behind, agrees with the history for
all other threads. -/
theorem Agrees.absorb {α : Type} {w : World ρ} {es : List Event}
    (h : Agrees w es fun _ ↦ True) {me : Nat} {code : Call α} (hcode : Waits es me code) :
    Agrees (w.absorb me ((w.resume code).exec me w.heap [])) (stepEvents w me code ++ es)
        (· ≠ me) ∧
      Waits (stepEvents w me code ++ es) me ((w.resume code).exec me w.heap []).rest := by
  obtain ⟨hkept, hrest, hnew⟩ := h.kept.step hcode
  generalize (w.resume code).exec me w.heap [] = p at *
  have hguards : (w.absorb me p).heap.guards = p.heap.guards := by
    simp only [World.absorb]
    split_ifs <;> rfl
  have hmap : (w.absorb me p).fills.map Fill.flight =
      w.fills.map Fill.flight ++ p.fills.map Fill.flight := by
    simp [World.absorb, Fill.flight, Function.comp_def]
  refine ⟨⟨?_, fun t ht hne ↦ ?_, fun f hf hne ↦ ?_⟩, hrest⟩
  · rw [hguards, World.nextThread_absorb, hmap]
    exact hkept
  · exact (h.tasks t ht trivial).congr (lastOf_stepEvents w hne code es)
  · rcases List.mem_append.mp hf with hf | hf
    · exact (h.fills f hf trivial).congr (lastOf_stepEvents w hne code es)
    · obtain ⟨f', hf', rfl⟩ := List.mem_map.mp hf
      exact Waits.of_unbegun (hnew f' hf')

/-- What is given up concerns no guard. -/
theorem Agrees.letGo {w : World ρ} {es : List Event} {P : Nat → Prop} (h : Agrees w es P)
    (held : List Held) : Agrees (w.letGo held) es P where
  kept := by
    rw [World.guards_letGo, World.nextThread_letGo, World.fills_letGo, World.outcomes_letGo]
    exact h.kept
  tasks := by
    rw [World.tasks_letGo]
    exact h.tasks
  fills := by
    rw [World.fills_letGo]
    exact h.fills

theorem Agrees.runTask {w : World ρ} {es : List Event} (h : Agrees w es fun _ ↦ True)
    (hn : w.Numbered) {t : Task ρ} (ht : t ∈ w.tasks) :
    Agrees (w.runTask t) (stepEvents w t.id t.code ++ es) fun _ ↦ True := by
  obtain ⟨habsorbed, hrest⟩ := h.absorb (h.tasks t ht trivial)
  have hdisjoint := (hn.absorb t.id (w.resume t.code)).disjoint t ht
  rw [World.runTask_eq]
  unfold World.afterTask
  generalize (w.resume t.code).exec t.id w.heap [] = p at *
  have hfills : ∀ f ∈ (w.absorb t.id p).fills, Waits (stepEvents w t.id t.code ++ es) f.id f.code :=
    fun f hf ↦ habsorbed.fills f hf (hdisjoint f hf).symm
  dsimp only
  split
  · apply Agrees.letGo
    refine ⟨habsorbed.kept, fun u hu _ ↦ ?_, fun f hf _ ↦ hfills f hf⟩
    obtain ⟨hmem, hne⟩ := List.mem_filter.mp hu
    exact habsorbed.tasks u hmem (of_decide_eq_true hne)
  · refine ⟨habsorbed.kept, fun u' hu' _ ↦ ?_, fun f hf _ ↦ hfills f hf⟩
    obtain ⟨u, hu, rfl⟩ := List.mem_map.mp hu'
    split_ifs with hid
    · change Waits _ u.id _
      rw [hid]
      exact hrest
    · exact habsorbed.tasks u hu hid

theorem Agrees.runFill {w : World ρ} {es : List Event} (h : Agrees w es fun _ ↦ True)
    (hn : w.Numbered) {f : Fill} (hf : f ∈ w.fills) :
    Agrees (w.runFill f) (endEvents w f ++ (stepEvents w f.id f.code ++ es)) fun _ ↦ True := by
  obtain ⟨habsorbed, hrest⟩ := h.absorb (h.fills f hf trivial)
  rw [World.runFill_eq]
  unfold World.afterFill endEvents
  generalize (w.resume f.code).exec f.id w.heap [] = p at *
  have hmem : f ∈ (w.absorb f.id p).fills := List.mem_append_left _ hf
  have htasks : ∀ t ∈ w.tasks, Waits (stepEvents w f.id f.code ++ es) t.id t.code := fun t ht ↦
    habsorbed.tasks t ht (hn.disjoint t ht f hf)
  dsimp only
  cases hc : p.rest.conclusion? with
  | some c =>
    have hended := habsorbed.kept.ended (List.mem_map_of_mem hmem) c
    have hlast : ∀ th, lastOf th (.ended f.id f.guard f.key c ::
        (stepEvents w f.id f.code ++ es)) = lastOf th (stepEvents w f.id f.code ++ es) := by
      intro th
      rw [lastOf_cons, if_neg]
      exact fun heq ↦ Option.some_ne_none th heq.symm
    apply Agrees.letGo
    refine ⟨?_, fun t ht _ ↦ (htasks t ht).congr (hlast t.id), fun u hu _ ↦ ?_⟩
    · rw [List.filter_map] at hended
      exact hended
    · obtain ⟨hu, hne⟩ := List.mem_filter.mp hu
      exact (habsorbed.fills u hu (of_decide_eq_true hne)).congr (hlast u.id)
  | none =>
    have hflights : ∀ l : List Fill, (l.map fun u ↦
        if u.id = f.id then { u with code := p.rest, since := w.turn } else u).map Fill.flight =
          l.map Fill.flight := by
      intro l
      rw [List.map_map]
      refine List.map_congr_left fun u _ ↦ ?_
      simp only [Function.comp]
      split_ifs <;> rfl
    refine ⟨?_, fun t ht _ ↦ htasks t ht, fun u' hu' _ ↦ ?_⟩
    · dsimp only
      rw [hflights]
      exact habsorbed.kept
    · obtain ⟨u, hu, rfl⟩ := List.mem_map.mp hu'
      split_ifs with hid
      · change Waits _ u.id _
        rw [hid]
        exact hrest
      · exact habsorbed.fills u hu hid

/-- Every move keeps a world in agreement with the history. -/
theorem Agrees.apply {w : World ρ} {es : List Event} (h : Agrees w es fun _ ↦ True)
    (hn : w.Numbered) (m : Move ρ) (hm : Move.Fresh m) :
    Agrees (w.apply m) (events w m ++ es) fun _ ↦ True := by
  cases m with
  | run th =>
    cases th with
    | task i =>
      cases ht : w.tasks.find? fun t ↦ t.id = i with
      | some t =>
        have hrun := h.runTask hn (World.mem_of_find? ht).1
        simp only [World.apply, World.run, events, ht]
        exact hrun
      | none =>
        simp only [World.apply, World.run, events, ht]
        exact h
    | fill i =>
      cases hf : w.fills.find? fun f ↦ f.id = i with
      | some f =>
        have hrun := h.runFill hn (World.mem_fills_of_find? hf).1
        simp only [World.apply, World.run, events, hf, List.append_assoc]
        exact hrun
      | none =>
        simp only [World.apply, World.run, events, hf]
        exact h
    | loop r => exact ⟨h.kept, h.tasks, h.fills⟩
  | spawn held code =>
    refine ⟨h.kept.mono (Nat.le_succ _), fun t ht _ ↦ ?_, h.fills⟩
    rcases List.mem_append.mp ht with ht | ht
    · exact h.tasks t ht trivial
    · rw [List.mem_singleton.mp ht]
      exact Waits.of_unbegun hm
  | abort i => exact ⟨h.kept, fun t ht ↦ h.tasks t (List.mem_of_mem_filter ht), h.fills⟩
  | advance t => exact ⟨h.kept, h.tasks, h.fills⟩
  | hold named guarded => exact ⟨h.kept, h.tasks, h.fills⟩

theorem Run.numbered {w : World ρ} {es : List Event} (h : Run w es) : w.Numbered := by
  induction h with
  | start => exact World.numbered_initial
  | move m _ _ ih => exact ih.apply m

/-- Every world agrees with the history of its guards. -/
theorem Run.agrees {w : World ρ} {es : List Event} (h : Run w es) :
    Agrees w es fun _ ↦ True := by
  induction h with
  | start =>
    exact ⟨kept_nil, fun _ ht ↦ absurd ht List.not_mem_nil, fun _ hf ↦ absurd hf List.not_mem_nil⟩
  | move m hm hrun ih => exact ih.apply hrun.numbered m hm

end Runs

end Guard

end TwoTier
