import TwoTier.Proofs.Fetch.Asking
import TwoTier.Proofs.Guard.Coalescing

/-!
# One fetch for all who miss

Any number of tasks ask a cache that fills itself for keys. Their steps may be interleaved in any
way, also with whatever else they do, and tasks may be cancelled (`Filler.Run`). Then each fill of
the cache stays at a stage that its own steps alone move on (`Filler.Run.tidy`,
`Filler.Run.stepped`), and from this and what the guard promises follows what callers find
(`Filler.Run.fetches_once`): a key that is held is answered and never fetched, one that is being
fetched is not fetched again, and a failure reaches all who waited for it, leaves nothing behind,
and is not remembered.
-/

set_option autoImplicit false
set_option relaxedAutoImplicit false

namespace TwoTier

open Scenario

namespace Filler

variable {c : Filler}

/-- A move that makes a task makes one that asks, and waits for no fill yet. -/
def Admits (c : Filler) {ρ : Type} : Move ρ → Prop
  | .spawn _ code => c.Opens code
  | _ => True

/-- The worlds that such moves lead to, each with the history of its guards. What the tiers hold is
up to the tasks. -/
inductive Run (c : Filler) {ρ : Type} : World ρ → List Guard.Event → Prop
  | start : Run c World.initial []
  | move {w : World ρ} {es : List Guard.Event} (m : Move ρ) (hm : c.Admits m) (h : Run c w es) :
      Run c (w.apply m) (Guard.events w m ++ es)

variable {ρ : Type} {w : World ρ} {es : List Guard.Event}

theorem Run.guards (h : c.Run w es) : Guard.Run w es := by
  induction h with
  | start => exact .start
  | move m hm _ ih =>
    refine .move m ?_ ih
    cases m with
    | spawn held code => exact hm.unbegun
    | _ => trivial

/-- What the step of a fill at a stage leaves to do is no wait for another fill. -/
theorem Advanced.enter {key : String} {plan : Plan} {h : Heap} {code rest : Call (Answer String)}
    {t : Tiers} (hadv : c.Advanced key plan h code t rest) (h' : Heap) :
    Call.enter [] (h', rest) = ⟨h', [], rest⟩ := by
  cases hadv with
  | held => rfl
  | fetching => rfl
  | fetched hrest => cases rest <;> first | rfl | cases hrest

/-- A fill that goes on after its step is fetching. -/
theorem Advanced.stage {key : String} {plan : Plan} {h : Heap} {code rest : Call (Answer String)}
    {t : Tiers} (hadv : c.Advanced key plan h code t rest) (hrest : rest.conclusion? = none) :
    c.Stage key plan rest := by
  cases hadv with
  | held => cases hrest
  | fetching httl => exact .fetching httl _
  | fetched hsome =>
    rw [hrest] at hsome
    cases hsome

/-- What is given up changes nothing of what a step of a fill comes to. -/
theorem Advanced.release {key : String} {plan : Plan} {h : Heap}
    {code rest : Call (Answer String)} {t : Tiers} (hadv : c.Advanced key plan h code t rest)
    (held : List Held) : c.Advanced key plan h code (t.release held) rest := by
  have hquiet : ∀ {t₀}, Tiers.Unwritten h.now t₀ t → Tiers.Unwritten h.now t₀ (t.release held) :=
    fun ht ↦ ht.trans (.release t held)
  cases hadv with
  | held hcode hcopy hbegun ht =>
    exact .held hcode hcopy ((Tiers.begun_release t held).trans hbegun) (hquiet ht)
  | fetching httl hcopy hlater hwake ht => exact .fetching httl hcopy hlater hwake (hquiet ht)
  | fetched hrest hcopy ho ht => exact .fetched hrest hcopy ho fun hfails ↦ hquiet (ht hfails)

/-- What a step of a fill at a stage comes to. -/
theorem Stage.exec {key : String} {plan : Plan} {code : Call (Answer String)}
    (hstage : c.Stage key plan code) (w : World ρ) (me : Nat) :
    let p := (w.resume code).exec me w.heap []
    c.Advanced key plan w.heap code p.heap.tiers p.rest ∧ p.fills = [] ∧
      (w.resume code).halt me w.heap = (p.heap, p.rest) := by
  have hadv := hstage.advanced (w := w) me
  rw [Call.exec_eq_enter]
  generalize (w.resume code).halt me w.heap = halted at hadv
  obtain ⟨h', rest⟩ := halted
  rw [hadv.enter h']
  exact ⟨hadv, rfl, rfl⟩

/-- A step of an orderly fill leaves it orderly, and starts orderly fills only. -/
theorem Orderly.exec {f : Fill} (hf : c.Orderly f) (w : World ρ) :
    let p := (w.resume f.code).exec f.id w.heap []
    (∀ g ∈ p.fills, c.Orderly g) ∧
      (p.rest.conclusion? = none → c.Orderly { f with code := p.rest, since := w.turn }) := by
  by_cases hguard : f.guard = c.guard
  · obtain ⟨plan, hstage⟩ := hf.own hguard
    obtain ⟨hadv, hnone, -⟩ := hstage.exec w f.id
    refine ⟨fun g hg ↦ ?_, fun hrest ↦ ⟨fun _ ↦ ⟨plan, hadv.stage hrest⟩, fun hne ↦ ?_⟩⟩
    · rw [hnone] at hg
      exact absurd hg List.not_mem_nil
    · exact absurd hguard hne
  · obtain ⟨hrest, hfills⟩ := asks_exec f.id w.heap (asks_resume w (hf.other hguard))
    exact ⟨hfills, fun _ ↦ ⟨fun heq ↦ absurd heq hguard, fun _ ↦ hrest⟩⟩

/-- All tasks ask, and all fills are orderly. -/
structure Tidy (c : Filler) (w : World ρ) : Prop where
  tasks : ∀ t ∈ w.tasks, c.Asks t.code
  fills : ∀ f ∈ w.fills, c.Orderly f

/-- The fills after a step are orderly where those that it started are. -/
theorem Tidy.absorb (h : c.Tidy w) {me : Nat} {β : Type} {p : Progress β}
    (hp : ∀ f ∈ p.fills, c.Orderly f) : ∀ f ∈ (w.absorb me p).fills, c.Orderly f := by
  intro f hf
  rcases List.mem_append.mp hf with hf | hf
  · exact h.fills f hf
  · obtain ⟨f', hf', rfl⟩ := List.mem_map.mp hf
    exact ⟨(hp f' hf').own, (hp f' hf').other⟩

theorem Tidy.runTask (h : c.Tidy w) {t : Task ρ} (ht : t ∈ w.tasks) : c.Tidy (w.runTask t) := by
  obtain ⟨hrest, hfills⟩ := asks_exec t.id w.heap (asks_resume w (h.tasks t ht))
  rw [World.runTask_eq]
  refine ⟨fun u hu ↦ ?_, fun f hf ↦ ?_⟩
  · rcases World.mem_or_code_of_mem_afterTask hu with hu | hcode
    · exact h.tasks u hu
    · rw [hcode]
      exact hrest
  · rw [World.fills_afterTask] at hf
    exact h.absorb hfills f hf

theorem Tidy.runFill (h : c.Tidy w) (hrun : Guard.Run w es) {f : Fill} (hf : f ∈ w.fills) :
    c.Tidy (w.runFill f) := by
  obtain ⟨hfills, hrest⟩ := (h.fills f hf).exec w
  rw [World.runFill_eq]
  refine ⟨fun t ht ↦ ?_, fun u hu ↦ ?_⟩
  · rw [World.tasks_afterFill] at ht
    exact h.tasks t ht
  · rcases World.mem_or_eq_of_mem_afterFill hu with ⟨hu, -⟩ | ⟨v, hv, hid, hnone, rfl⟩
    · exact h.absorb hfills u hu
    · have hvf : v = f := by
        rcases List.mem_append.mp hv with hv | hv
        · exact hrun.agrees.fill_eq_of_id hv hf hid
        · -- a fill that was just started has a number that no thread had
          obtain ⟨v', hv', rfl⟩ := List.mem_map.mp hv
          have hnew := (Call.fills_exec hv').1
          have hold := hrun.numbered.fill_lt f hf
          change v'.id = f.id at hid
          omega
      rw [hvf]
      exact hrest hnone

theorem Tidy.apply (h : c.Tidy w) (hrun : Guard.Run w es) (m : Move ρ) (hm : c.Admits m) :
    c.Tidy (w.apply m) := by
  cases m with
  | run th =>
    cases th with
    | task i =>
      unfold World.apply World.run
      dsimp only
      split
      · rename_i t ht
        exact h.runTask (World.mem_of_find? ht).1
      · exact h
    | fill i =>
      unfold World.apply World.run
      dsimp only
      split
      · rename_i f hf
        exact h.runFill hrun (World.mem_fills_of_find? hf).1
      · exact h
    | loop r => exact ⟨h.tasks, h.fills⟩
  | spawn held code =>
    refine ⟨fun t ht ↦ ?_, h.fills⟩
    rcases List.mem_append.mp ht with ht | ht
    · exact h.tasks t ht
    · rw [List.mem_singleton.mp ht]
      exact hm.asks
  | abort i => exact ⟨fun t ht ↦ h.tasks t (List.mem_of_mem_filter ht), h.fills⟩
  | advance t => exact ⟨h.tasks, h.fills⟩
  | hold named guarded => exact ⟨h.tasks, h.fills⟩

theorem Run.tidy (h : c.Run w es) : c.Tidy w := by
  induction h with
  | start =>
    exact ⟨fun _ ht ↦ absurd ht List.not_mem_nil, fun _ hf ↦ absurd hf List.not_mem_nil⟩
  | move m hm hrun ih => exact ih.apply hrun.guards m hm

/-! ### The steps of a fill -/

/-- What the step of a fill that goes by a plan leads to: its fetch may begin or end, and where the
fill ends, its record is gone. -/
def Steps (c : Filler) (plan : Plan) (w : World ρ) (f : Fill) (w' : World ρ)
    (es : List Guard.Event) : Prop :=
  ∃ rest, c.Advanced f.key plan w.heap f.code w'.heap.tiers rest ∧
    ((∃ o, rest.conclusion? = some o ∧ es = [.ended f.id c.guard f.key o] ∧
        (w'.heap.guard c.guard).inFlight[f.key]? = none) ∨
      (rest.conclusion? = none ∧ es = [] ∧ { f with code := rest, since := w.turn } ∈ w'.fills))

theorem Stage.returnEvents {key : String} {plan : Plan} {code : Call (Answer String)}
    (hstage : c.Stage key plan code) (w : World ρ) (me : Nat) :
    Guard.returnEvents w me code = [] := by
  cases hstage <;> rfl

/-- The events of the step of a fill at a stage. -/
theorem events_run_fill {f : Fill} (hfind : (w.fills.find? fun u ↦ u.id = f.id) = some f)
    {plan : Plan} (hstage : c.Stage f.key plan f.code) :
    Guard.events w (.run (.fill f.id)) = Guard.endEvents w f := by
  obtain ⟨hadv, -, hhalt⟩ := hstage.exec w f.id
  have hcall : ∀ (h : Heap) {rest : Call (Answer String)} {t : Tiers},
      c.Advanced f.key plan w.heap f.code t rest → Guard.callEvents f.id (h, rest) = [] := by
    intro h rest t hadv
    cases hadv with
    | held => rfl
    | fetching => rfl
    | fetched hrest => cases rest <;> first | rfl | cases hrest
  simp only [Guard.events, hfind, Guard.stepEvents, hstage.returnEvents, hhalt, hcall _ hadv,
    List.append_nil]

/-- A fill is found by its number. -/
theorem Run.find?_fill (h : c.Run w es) {f : Fill} (hf : f ∈ w.fills) :
    (w.fills.find? fun u ↦ u.id = f.id) = some f := by
  cases hfind : w.fills.find? fun u ↦ u.id = f.id with
  | none => exact absurd (decide_eq_true rfl) (List.find?_eq_none.mp hfind f hf)
  | some g =>
    obtain ⟨hg, hid⟩ := World.mem_fills_of_find? hfind
    rw [h.guards.agrees.fill_eq_of_id hg hf hid]

/-- A fill of the cache takes a step. -/
theorem Run.stepped (h : c.Run w es) {f : Fill} (hf : f ∈ w.fills) (hguard : f.guard = c.guard)
    {plan : Plan} (hstage : c.Stage f.key plan f.code) :
    c.Steps plan w f (w.apply (.run (.fill f.id))) (Guard.events w (.run (.fill f.id))) := by
  have hfind := h.find?_fill hf
  have hmoved := (h.move (.run (.fill f.id)) trivial).guards.agrees.kept.table c.guard f.key
  rw [events_run_fill hfind hstage] at hmoved ⊢
  obtain ⟨hadv, -, -⟩ := hstage.exec w f.id
  have happly : w.apply (.run (.fill f.id)) =
      w.afterFill f ((w.resume f.code).exec f.id w.heap []) := by
    simp only [World.apply, World.run, hfind, World.runFill_eq]
  rw [happly] at hmoved ⊢
  unfold Guard.endEvents at hmoved ⊢
  generalize (w.resume f.code).exec f.id w.heap [] = p at hadv hmoved ⊢
  refine ⟨p.rest, ?_, ?_⟩
  · rcases World.tiers_afterFill (w := w) f p with htiers | ⟨held, htiers⟩
    · rw [htiers]
      exact hadv
    · rw [htiers]
      exact hadv.release held
  · cases hrest : p.rest.conclusion? with
    | some o =>
      simp only [hrest, hguard, List.singleton_append, Guard.flightOf, and_self, if_true]
        at hmoved ⊢
      exact Or.inl ⟨o, rfl, rfl, hmoved⟩
    | none =>
      refine Or.inr ⟨rfl, rfl, ?_⟩
      simp only [World.afterFill, hrest]
      exact List.mem_map.mpr ⟨f, List.mem_append_left _ hf, if_pos rfl⟩

/-- What is no step of a fill leaves it as it is. -/
theorem mem_fills_apply {f : Fill} (hf : f ∈ w.fills) {m : Move ρ}
    (hm : m ≠ .run (.fill f.id)) : f ∈ (w.apply m).fills := by
  cases m with
  | run th =>
    cases th with
    | task i =>
      unfold World.apply World.run
      dsimp only
      split
      · rw [World.runTask_eq, World.fills_afterTask]
        exact List.mem_append_left _ hf
      · exact hf
    | fill i =>
      unfold World.apply World.run
      dsimp only
      split
      · rename_i g hg
        rw [World.runFill_eq]
        refine World.mem_afterFill_of_ne (List.mem_append_left _ hf) fun hid ↦ hm ?_
        rw [hid, (World.mem_fills_of_find? hg).2]
      · exact hf
    | loop r => exact hf
  | _ => exact hf

/-! ### What callers find -/

/-- What a call comes to that asks for a key, on any heap. Its step is the same for every fetch, so
that it does not begin its own: only the fill that it starts does. -/
structure CallsOnce (c : Filler) : Prop where
  /-- It goes on with the value that the tiers show, if they show one. -/
  hit : ∀ {α : Type} (me : Nat) (h : Heap) (key v : String) (ttl : Nat)
    (k : Answer String → Call α), h.now < Clock.secs (2 ^ 63 - 2 ^ 55) →
      c.found h key = some v →
        ∃ h', h.Unfetched h' ∧ ∀ fetch,
          ((c.getOrSet key ttl fetch).bind k).exec me h [] = (k (.ok v)).exec me h' []
  /-- Where it misses while a fill of the key is in flight, it waits for that one. -/
  joined : ∀ {α : Type} (me : Nat) (h : Heap) (key : String) (ttl i : Nat)
    (k : Answer String → Call α), h.now < Clock.secs (2 ^ 63 - 2 ^ 55) →
      c.Misses h key → (h.guard c.guard).inFlight[key]? = some i →
        ∃ h', h.Unfetched h' ∧ ∀ fetch, ((c.getOrSet key ttl fetch).bind k).exec me h [] =
          ⟨h'.setGuard c.guard (h.guard c.guard).join, [], .await i k⟩
  /-- Where it misses otherwise, it starts a new fill with its own fetch, and waits for this. -/
  started : ∀ {α : Type} (me : Nat) (h : Heap) (key : String) (ttl : Nat)
    (k : Answer String → Call α), h.now < Clock.secs (2 ^ 63 - 2 ^ 55) →
      c.Misses h key → (h.guard c.guard).inFlight[key]? = none →
        ∃ h', h.Unfetched h' ∧ ∀ fetch, ((c.getOrSet key ttl fetch).bind k).exec me h [] =
          ⟨{ h'.setGuard c.guard ((h.guard c.guard).start key h.nextThread) with
              nextThread := h.nextThread + 1 },
            [⟨h.nextThread, c.guard, key, .pause (c.fill key ttl fetch), 0⟩],
            .await h.nextThread k⟩

theorem callsOnce (hc : c.Bounded) : c.CallsOnce where
  hit me h key v ttl k hnow hv := exec_of_found me ttl k hc hnow hv
  joined me h key ttl i k hnow hmiss hi := by
    obtain ⟨h', ⟨t, hbegun, rfl⟩, hexec⟩ := exec_of_misses me ttl k hc hnow hmiss
    have hi' : (Heap.guard { h with tiers := t } c.guard).inFlight[key]? = some i := hi
    refine ⟨_, ⟨t, hbegun, rfl⟩, fun fetch ↦ (hexec fetch).trans ?_⟩
    simp only [Call.exec, hi']
    rfl
  started me h key ttl k hnow hmiss hi := by
    obtain ⟨h', ⟨t, hbegun, rfl⟩, hexec⟩ := exec_of_misses me ttl k hc hnow hmiss
    have hi' : (Heap.guard { h with tiers := t } c.guard).inFlight[key]? = none := hi
    refine ⟨_, ⟨t, hbegun, rfl⟩, fun fetch ↦ (hexec fetch).trans ?_⟩
    simp only [Call.exec, hi']
    rfl

/-- What the fills of a cache come to, in a world with the history of the guards. -/
structure FillsOnce (c : Filler) (w : World ρ) (es : List Guard.Event) : Prop where
  /-- The keys in flight are those whose fill has not ended. -/
  inFlight_iff : ∀ key i, (w.heap.guard c.guard).inFlight[key]? = some i ↔
    ∃ f ∈ w.fills, f.id = i ∧ f.guard = c.guard ∧ f.key = key
  /-- A fill has a fetch that goes by a plan, and is at a stage of it. -/
  staged : ∀ f ∈ w.fills, f.guard = c.guard → ∃ plan, c.Stage f.key plan f.code
  /-- No two fetches of one key overlap, as no key has two fills at once. -/
  alone : ∀ f ∈ w.fills, ∀ f' ∈ w.fills, f.guard = c.guard → f'.guard = c.guard →
    f.key = f'.key → f = f'
  /-- Nobody else moves a fill on. -/
  kept : ∀ f ∈ w.fills, ∀ m, m ≠ .run (.fill f.id) → f ∈ (w.apply m).fills
  /-- Its own step begins its fetch, waits for it, or ends it. -/
  stepped : ∀ f ∈ w.fills, f.guard = c.guard → ∀ plan, c.Stage f.key plan f.code →
    c.Steps plan w f (w.apply (.run (.fill f.id))) (Guard.events w (.run (.fill f.id)))
  /-- Until a fill has ended its callers wait. -/
  waiting : ∀ f ∈ w.fills, (∀ th o, .returned th f.id o ∉ es) ∧
    ∀ {α : Type} (k : Answer String → Call α), w.resume (.await f.id k) = .await f.id k
  /-- When it has ended, all of them go on with what it ended with. -/
  ended : ∀ i key o, .ended i c.guard key o ∈ es →
    (∀ th o', .returned th i o' ∈ es → o' = o.outcome) ∧
      ∀ {α : Type} (me : Nat) (k : Answer String → Call α),
        w.ready me (.await i k) = true ∧ w.resume (.await i k) = k o.outcome
  /-- From then on the key has no fill in flight, until the next call for it that misses. -/
  fresh : ∀ newer i key o older, es = newer ++ .ended i c.guard key o :: older →
    (∀ th j, .called th c.guard key j ∉ newer) →
      (w.heap.guard c.guard).inFlight[key]? = none

/-- A key for which no call has come since its fill ended has none in flight. -/
theorem flightOf_of_not_called {g i : Nat} {key : String} {o : Conclusion (Answer String)}
    {newer older : List Guard.Event} (hcalled : ∀ th j, .called th g key j ∉ newer) :
    Guard.flightOf g key (newer ++ .ended i g key o :: older) = none := by
  induction newer with
  | nil => exact if_pos ⟨rfl, rfl⟩
  | cons e newer ih =>
    have ih := ih fun th j hj ↦ hcalled th j (List.mem_cons_of_mem _ hj)
    cases e with
    | called th g' key' j =>
      refine (if_neg ?_).trans ih
      rintro ⟨rfl, rfl⟩
      exact hcalled th j List.mem_cons_self
    | ended j g' key' c =>
      rw [List.cons_append, Guard.flightOf, ih]
      exact ite_self none
    | returned th j o => exact ih

theorem Run.fillsOnce (h : c.Run w es) : c.FillsOnce w es := by
  have hkept := h.guards.agrees.kept
  exact {
    inFlight_iff := fun key i ↦ h.guards.agrees.inFlight_iff c.guard key i
    staged := fun f hf hguard ↦ (h.tidy.fills f hf).own hguard
    alone := fun f hf f' hf' hguard hguard' hkey ↦
      h.guards.fill_unique hf hf' (hguard.trans hguard'.symm) hkey
    kept := fun f hf m hm ↦ mem_fills_apply hf hm
    stepped := fun f hf hguard plan hstage ↦ h.stepped hf hguard hstage
    waiting := fun f hf ↦ by
      have hnone : w.outcomes[f.id]? = none := hkept.outcome_eq_none _ (List.mem_map_of_mem hf)
      refine ⟨fun th o ho ↦ ?_, fun k ↦ by simp only [World.resume, hnone]⟩
      obtain ⟨g, key, o', hended, rfl⟩ := h.guards.exists_ended_of_returned ho
      rw [(hkept.outcome_iff f.id o'.outcome).mpr ⟨g, key, o', hended, rfl⟩] at hnone
      cases hnone
    ended := fun i key o ho ↦ by
      have hsome := (hkept.outcome_iff i o.outcome).mpr ⟨c.guard, key, o, ho, rfl⟩
      refine ⟨fun th o' ho' ↦ h.guards.outcome_of_returned ho ho', fun me k ↦ ⟨?_, ?_⟩⟩
      · exact Std.ExtTreeMap.contains_iff_mem.mpr ((Dict.mem_iff_exists _ _).mpr ⟨_, hsome⟩)
      · simp only [World.resume, hsome]
    fresh := fun newer i key o older hes hcalled ↦ by
      have htable := hkept.table c.guard key
      rw [hes, flightOf_of_not_called hcalled] at htable
      exact htable }

/-- In a cache that fills itself, through any steps of any tasks that ask it for keys and do
whatever else they like: a call answers a value that the tiers show and does not begin its fetch; a
call that misses waits for the fill that the key has in flight, which no second fetch of the key
overlaps, and goes on with what this fill ends with; and a fetch that fails does so for all callers,
writes nothing, and leaves the next call that misses to start another. -/
theorem Run.fetches_once (hc : c.Bounded) (h : c.Run w es) : c.CallsOnce ∧ c.FillsOnce w es :=
  ⟨callsOnce hc, h.fillsOnce⟩

/-- Moves lead from a run to a run. -/
theorem Run.foldl {r : World ρ × List Guard.Event} (h : c.Run r.1 r.2) {ms : List (Move ρ)}
    (hms : ∀ m ∈ ms, c.Admits m) :
    let r' := ms.foldl (fun r m ↦ (r.1.apply m, Guard.events r.1 m ++ r.2)) r
    c.Run r'.1 r'.2 := by
  induction ms generalizing r with
  | nil => exact h
  | cons m ms ih =>
    exact ih (h.move m (hms m List.mem_cons_self)) fun m' hm' ↦ hms m' (List.mem_cons_of_mem _ hm')

/-- Two callers ask a layered cache for a key, and the fetch of the first fails for both; the second
never fetches. A third caller fetches anew, and a fourth one finds the value that the third has
left. -/
theorem fetches_once_of_failed_fetch :
    let c : Filler := layered ⟨0, ⟨0, 0⟩, 1, default⟩ ⟨0, 2⟩
    let failing : Plan := ⟨Clock.millis 50, .error "db unavailable"⟩
    let ask (plan : Plan) (mark : Nat) : Call (Answer String) :=
      c.getOrSet "k" (Clock.secs 60) (plan.marked mark)
    let ms : List (Move (Answer String)) := [
      .spawn [] (.write (Tiers.empty.setLocal 0 (.create ⟨fun _ ↦ 0, id⟩ ⟨1, .random, 1⟩))
        (ask failing 0)), .run (.task 0), .spawn [] (ask failing 1), .run (.task 2),
      .run (.fill 1), .advance (Clock.millis 50), .run (.fill 1), .run (.task 0), .run (.task 2),
      .spawn [] (ask ⟨0, .value "v"⟩ 2), .run (.task 3), .run (.fill 4), .run (.task 3),
      .spawn [] (ask failing 3), .run (.task 5)]
    let r := ms.foldl (fun r m ↦ (r.1.apply m, Guard.events r.1 m ++ r.2)) (World.initial, [])
    c.Bounded ∧ c.Run r.1 r.2 ∧ (c.CallsOnce ∧ c.FillsOnce r.1 r.2) ∧
      r.1.conclusions[0]? = some (.answer (.error (.fetchFailed "db unavailable"))) ∧
      r.1.conclusions[2]? = some (.answer (.error (.fetchFailed "db unavailable"))) ∧
      r.1.conclusions[3]? = some (.answer (.ok "v")) ∧
      r.1.conclusions[5]? = some (.answer (.ok "v")) ∧ r.1.heap.tiers.begun = [2, 0] := by
  intro c failing ask ms r
  have hbounded : c.Bounded := by
    change (default : HybridSettings).populationSecs < 2 ^ 55
    decide
  have hask : ∀ plan mark, c.Opens (ask plan mark) := fun plan mark ↦
    opens_getOrSet (by decide) "k" plan mark
  have hrun : c.Run r.1 r.2 := by
    refine Run.foldl .start fun m hm ↦ ?_
    simp only [ms, List.mem_cons, List.not_mem_nil, or_false] at hm
    rcases hm with rfl | rfl | rfl | rfl | rfl | rfl | rfl | rfl | rfl | rfl | rfl | rfl | rfl |
      rfl | rfl
    · exact ⟨(hask failing 0).unbegun, (hask failing 0).asks⟩
    all_goals first | trivial | exact hask _ _
  refine ⟨hbounded, hrun, hrun.fetches_once hbounded, ?_, ?_, ?_, ?_, ?_⟩
  all_goals decide +kernel

end Filler

end TwoTier
