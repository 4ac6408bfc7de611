import TwoTier.Proofs.Engine.Abort
import TwoTier.Proofs.Guard.Run
import TwoTier.Tier.Contract

/-!
# One fill for all callers

A guard runs one fill for a key at a time, and all who ask for the key meanwhile are answered with
what this fill ends with (`Guard.Run.coalesces`). Callers that are cancelled make no difference to
the fill or to other callers, and the record of a fill is gone before the first of its callers goes
on.
-/

set_option autoImplicit false
set_option relaxedAutoImplicit false

namespace TwoTier

namespace Guard

section Runs

variable {ρ : Type} {w : World ρ} {es : List Event}

/-- No key has two fills at once. -/
theorem Run.fill_unique (h : Run w es) {f f' : Fill} (hf : f ∈ w.fills) (hf' : f' ∈ w.fills)
    (hguard : f.guard = f'.guard) (hkey : f.key = f'.key) : f = f' := by
  have hflight := (h.agrees.inFlight_iff f.guard f.key f.id).mpr ⟨f, hf, rfl, rfl, rfl⟩
  have hflight' := (h.agrees.inFlight_iff f.guard f.key f'.id).mpr
    ⟨f', hf', rfl, hguard.symm, hkey.symm⟩
  rw [hflight] at hflight'
  exact h.agrees.fill_eq_of_id hf hf' (Option.some.inj hflight')

/-- The end of a fill is an event of the step of this fill alone. -/
theorem eq_run_of_ended {m : Move ρ} {i g : Nat} {key : String}
    {c : Conclusion (Answer String)} (h : .ended i g key c ∈ events w m) : m = .run (.fill i) := by
  have hstep : ∀ {α : Type} (me : Nat) (code : Call α),
      .ended i g key c ∉ stepEvents w me code := by
    intro α me code hmem
    rcases List.mem_append.mp hmem with hmem | hmem
    · unfold callEvents at hmem
      split at hmem <;> simp at hmem
    · unfold returnEvents at hmem
      split at hmem
      · split at hmem <;> simp at hmem
      · simp at hmem
  unfold events at h
  split at h
  · split at h
    · exact absurd h (hstep _ _)
    · exact absurd h List.not_mem_nil
  · rename_i j
    split at h
    · rename_i f hf
      rcases List.mem_append.mp h with h | h
      · unfold endEvents at h
        split at h
        · obtain ⟨hid, -⟩ := Event.ended.inj (List.mem_singleton.mp h)
          rw [hid, (World.mem_fills_of_find? hf).2]
        · exact absurd h List.not_mem_nil
      · exact absurd h (hstep _ _)
    · exact absurd h List.not_mem_nil
  · exact absurd h List.not_mem_nil

/-- A record stays in the table until its own fill ends, and leaves it in the step in which this
happens. -/
theorem Run.inFlight_apply (h : Run w es) {m : Move ρ} (hm : Move.Fresh m) {g : Nat} {key : String}
    {i : Nat} (hi : (w.heap.guard g).inFlight[key]? = some i) :
    (((w.apply m).heap.guard g).inFlight[key]? = some i ∧ ∀ c, .ended i g key c ∉ events w m) ∨
      (((w.apply m).heap.guard g).inFlight[key]? ≠ some i ∧ m = .run (.fill i) ∧
        ∃ c, .ended i g key c ∈ events w m) := by
  have hafter := (h.move m hm).agrees.kept
  have hbefore : flightOf g key es = some i := by
    rw [← h.agrees.kept.table]
    exact hi
  change ((w.apply m).heap.guards.getD g default).inFlight[key]? = some i ∧ _ ∨
    ((w.apply m).heap.guards.getD g default).inFlight[key]? ≠ some i ∧ _
  rw [hafter.table]
  by_cases hended : ∃ c, .ended i g key c ∈ events w m
  · right
    obtain ⟨c, hc⟩ := hended
    refine ⟨fun hflight ↦ ?_, eq_run_of_ended hc, c, hc⟩
    exact hafter.legal.not_ended_of_flight hflight g key c (List.mem_append_left _ hc)
  · left
    refine ⟨?_, fun c hc ↦ hended ⟨c, hc⟩⟩
    rcases hafter.legal.flightOf_append hbefore with hflight | hc
    · exact hflight
    · exact absurd hc hended

/-- Nobody goes on with the outcome of a fill before it has ended. -/
theorem Run.exists_ended_of_returned (h : Run w es) {th i : Nat} {o : Answer String}
    (ho : .returned th i o ∈ es) : ∃ g key c, .ended i g key c ∈ es ∧ o = c.outcome := by
  obtain ⟨newer, older, rfl⟩ := List.append_of_mem ho
  obtain ⟨⟨⟨g, key, c, -, hended, houtcome⟩, -⟩, -⟩ := h.agrees.kept.legal.of_append
  exact ⟨g, key, c, List.mem_append_right _ (List.mem_cons_of_mem _ hended), houtcome⟩

/-- All callers of a fill go on with what it ended with. -/
theorem Run.outcome_of_returned (h : Run w es) {th i g : Nat} {key : String}
    {c : Conclusion (Answer String)} (hended : .ended i g key c ∈ es) {o : Answer String}
    (ho : .returned th i o ∈ es) : o = c.outcome := by
  have hkept := h.agrees.kept
  obtain ⟨g', key', c', hended', rfl⟩ := h.exists_ended_of_returned ho
  have houtcome := (hkept.outcome_iff i c.outcome).mpr ⟨g, key, c, hended, rfl⟩
  have houtcome' := (hkept.outcome_iff i c'.outcome).mpr ⟨g', key', c', hended', rfl⟩
  exact Option.some.inj (houtcome'.symm.trans houtcome)

/-- What the guards promise, after any moves. The table has a record for exactly those keys whose
fill has not ended, one fill for each; a record leaves the table in the step in which its own fill
ends. A call waits for the fill that its key has in flight, or for a new one where there is none,
and goes on with what this fill ended with, which is a failure where the fill could not go on.
Cancelled callers that stand in no line for a lock change nothing for the fills and for others,
whatever happens afterwards. Each call that reaches a table has started a fill or joined one, and a
started fill is in flight or has ended. No call waits for a fill that has ended. -/
theorem Run.coalesces (h : Run w es) :
    ((∀ g key i, (w.heap.guard g).inFlight[key]? = some i ↔
        ∃ f ∈ w.fills, f.id = i ∧ f.guard = g ∧ f.key = key) ∧
      (∀ f ∈ w.fills, ∀ f' ∈ w.fills, f.guard = f'.guard → f.key = f'.key → f = f') ∧
      ∀ m, Move.Fresh m → ∀ g key i, (w.heap.guard g).inFlight[key]? = some i →
        (((w.apply m).heap.guard g).inFlight[key]? = some i ∧
            ∀ c, .ended i g key c ∉ events w m) ∨
          (((w.apply m).heap.guard g).inFlight[key]? ≠ some i ∧ m = .run (.fill i) ∧
            ∃ c, .ended i g key c ∈ events w m)) ∧
    (Legal es ∧ (∀ g key, (w.heap.guard g).inFlight[key]? = flightOf g key es) ∧
      ∀ th i g key o, .ended i g key .crash ∈ es → .returned th i o ∈ es →
        o = .error .fillFailed) ∧
    ((∀ gone : List Nat, (gone.foldl World.abort w).fills = w.fills ∧
        (gone.foldl World.abort w).outcomes = w.outcomes ∧
        (gone.foldl World.abort w).heap.guards = w.heap.guards ∧
        (gone.foldl World.abort w).tasks = w.tasks.filter fun t ↦ t.id ∉ gone) ∧
      ∀ (gone : List Nat) (kept : List Held) (ms : List (Move ρ)), w.Spared gone kept →
        (∀ i ∈ gone, ∀ m, i ∉ w.heap.waiting m) → (∀ m ∈ ms, m.Spares gone kept) →
          ms.foldl World.apply (gone.foldl World.abort w) =
            (ms.foldl World.apply w).without gone) ∧
    (∀ g, (w.heap.guard g).started + (w.heap.guard g).coalesced = es.countP (Event.isCall g) ∧
      (w.heap.guard g).inFlight.size + es.countP (Event.isEnd g) = (w.heap.guard g).started) ∧
    ∀ newer older i g key c, es = newer ++ .ended i g key c :: older →
      ∀ th g' key', .called th g' key' i ∉ newer := by
  have hkept := h.agrees.kept
  refine ⟨⟨h.agrees.inFlight_iff, fun f hf f' hf' ↦ h.fill_unique hf hf', ?_⟩,
    ⟨hkept.legal, hkept.table, ?_⟩, ⟨w.frame_abort, ?_⟩, ?_, ?_⟩
  · intro m hm g key i hi
    exact h.inFlight_apply hm hi
  · intro th i g key o hcrash ho
    exact h.outcome_of_returned hcrash ho
  · intro gone kept ms hspared hline hms
    rw [World.foldl_abort hline]
    exact World.foldl_apply_without hspared hms
  · intro g
    exact ⟨hkept.counted g, hkept.started g⟩
  · rintro newer older i g key c rfl
    exact hkept.legal.not_called_after_ended

/-- Moves lead from a run to a run. -/
theorem Run.foldl {r : World ρ × List Event} (h : Run r.1 r.2) {ms : List (Move ρ)}
    (hms : ∀ m ∈ ms, Move.Fresh m) :
    let r' := ms.foldl (fun r m ↦ (r.1.apply m, events r.1 m ++ r.2)) r
    Run r'.1 r'.2 := by
  induction ms generalizing r with
  | nil => exact h
  | cons m ms ih =>
    exact ih (h.move m (hms m List.mem_cons_self)) fun m' hm' ↦ hms m' (List.mem_cons_of_mem _ hm')

/-- Two callers ask for one key and the first is cancelled: the other goes on with the value of the
one fill, and the table is empty again. -/
theorem coalesces_of_two_callers :
    let call : Call (Answer String) := .fillOnce 0 "k" (.done (.ok "v"))
    let ms : List (Move (Answer String)) := [.spawn [] call, .spawn [] call, .run (.task 0),
      .run (.task 1), .abort 0, .run (.fill 2), .run (.task 1)]
    let r := ms.foldl (fun r m ↦ (r.1.apply m, events r.1 m ++ r.2)) (World.initial, [])
    Run r.1 r.2 ∧ r.1.conclusions[1]? = some (.answer (.ok "v")) ∧
      (r.1.heap.guard 0).started = 1 ∧ (r.1.heap.guard 0).coalesced = 1 ∧
      r.2.countP (Event.isCall 0) = 2 ∧ (r.1.heap.guard 0).inFlight["k"]? = none := by
  intro call ms r
  have hrun : Run r.1 r.2 := by
    refine Run.foldl .start fun m hm ↦ ?_
    simp only [ms, List.mem_cons, List.not_mem_nil, or_false] at hm
    rcases hm with rfl | rfl | rfl | rfl | rfl | rfl | rfl
    · exact ⟨trivial, fun _ ↦ trivial⟩
    · exact ⟨trivial, fun _ ↦ trivial⟩
    all_goals trivial
  have hcounted := (hrun.coalesces.2.2.2.1 0).1
  have hstarted : (r.1.heap.guard 0).started = 1 := by decide +kernel
  have hcoalesced : (r.1.heap.guard 0).coalesced = 1 := by decide +kernel
  refine ⟨hrun, by rfl, hstarted, hcoalesced, ?_, by decide +kernel⟩
  rw [← hcounted, hstarted, hcoalesced]

end Runs

end Guard

end TwoTier
