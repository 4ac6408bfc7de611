import TwoTier.Proofs.Fetch.Asking
import TwoTier.Proofs.Guard.Run
import TwoTier.Proofs.Local.Closing

/-!
# A tier that has been closed

Tasks deal with a local tier through the operations of the contract, in any order of their steps,
and with whatever else they like (`LocalHandle.Leads`). What a move does to the tier is to seal it,
or it is the step in which a fill of the tier ends with a value and stores it
(`LocalHandle.Tended.passed`).

From this follows what is left of a tier that has been closed
(`LocalHandle.Leads.closed_for_good`). It refuses every operation and starts no fill. But a fill
that was in flight when it was closed goes on and stores its value, and this is where all its
entries come from: it stays empty while no such fill ends with a value, and no longer
(`LocalHandle.not_empty_of_late_fill`).
-/

set_option autoImplicit false
set_option relaxedAutoImplicit false

namespace TwoTier

namespace World

variable {ρ : Type}

/-! ### What the end of a step leaves of a local tier -/

section LocalTier

variable (w : World ρ) (n : Nat)

theorem localTier_absorb {α : Type} (me : Nat) (p : Progress α) :
    (w.absorb me p).heap.tiers.localTier n = p.heap.tiers.localTier n := by
  unfold absorb
  dsimp only
  split <;> rfl

theorem localTier_letGo (held : List Held) :
    (w.letGo held).heap.tiers.localTier n = w.heap.tiers.localTier n := by
  unfold letGo
  split
  · rfl
  · exact Tiers.localTier_release _ _ n

theorem localTier_afterTask (t : Task ρ) (p : Progress ρ) :
    (w.afterTask t p).heap.tiers.localTier n = p.heap.tiers.localTier n := by
  unfold afterTask
  dsimp only
  split
  · rw [localTier_letGo]
    exact w.localTier_absorb n t.id p
  · exact w.localTier_absorb n t.id p

theorem localTier_afterFill (f : Fill) (p : Progress (Answer String)) :
    (w.afterFill f p).heap.tiers.localTier n = p.heap.tiers.localTier n := by
  unfold afterFill
  dsimp only
  split
  · rw [localTier_letGo]
    exact w.localTier_absorb n f.id p
  · exact w.localTier_absorb n f.id p

end LocalTier

end World

namespace LocalHandle

variable {l : LocalHandle} {ρ : Type} {w w' w'' : World ρ} {es es' : List Guard.Event}

/-! ### What a step may come to -/

/-- The local tier in a world. -/
def tierIn (l : LocalHandle) (w : World ρ) : LocalCache := w.heap.tiers.localTier l.cache

/-- A fill of the tier has ended with a value, which it has stored. -/
def Stored (l : LocalHandle) (es : List Guard.Event) (f : Fill) : Prop :=
  f.guard = l.guard ∧ ∃ v, .ended f.id l.guard f.key (.answer (.ok v)) ∈ es

/-- What becomes of a tier from one world to a later one, where some events have happened. -/
structure Passed (l : LocalHandle) (w w' : World ρ) (es : List Guard.Event) : Prop where
  /-- A closed tier stays closed. -/
  stays : (l.tierIn w).closed = true → (l.tierIn w').closed = true
  /-- The fills of a closed tier have long been in flight. -/
  fills : (l.tierIn w').closed = true → ∀ f ∈ w'.fills, f.guard = l.guard →
    ∃ f₀ ∈ w.fills, f₀.flight = f.flight
  /-- The keys of a closed tier were left by such fills, or were there before. -/
  left : (l.tierIn w').closed = true → ∀ key, (l.tierIn w').table.get? key ≠ none →
    ((l.tierIn w).closed = true ∧ (l.tierIn w).table.get? key ≠ none) ∨
      ∃ f ∈ w.fills, f.key = key ∧ l.Stored es f
  /-- A tier that has been closed is empty while no such fill has stored its value. -/
  empty : (l.tierIn w').closed = true →
    (l.tierIn w).closed = false ∨ (l.tierIn w).table = .empty →
      (∀ f ∈ w.fills, ¬ l.Stored es f) → (l.tierIn w').table = .empty

theorem Stored.flight {f f' : Fill} (h : l.Stored es f) (hf : f.flight = f'.flight) :
    l.Stored es f' := by
  obtain ⟨hid, hguard, hkey⟩ := Flight.mk.inj hf
  obtain ⟨hown, v, hv⟩ := h
  rw [hid, hkey] at hv
  exact ⟨hguard.symm.trans hown, v, hv⟩

theorem Stored.append_left {f : Fill} (h : l.Stored es f) : l.Stored (es' ++ es) f := by
  obtain ⟨hown, v, hv⟩ := h
  exact ⟨hown, v, List.mem_append_right _ hv⟩

theorem Stored.append_right {f : Fill} (h : l.Stored es f) : l.Stored (es ++ es') f := by
  obtain ⟨hown, v, hv⟩ := h
  exact ⟨hown, v, List.mem_append_left _ hv⟩

/-- What becomes of a tier in between adds up where it is closed meanwhile. -/
theorem Passed.trans (h : l.Passed w w' es) (hclosed : (l.tierIn w').closed = true)
    (h' : l.Passed w' w'' es') : l.Passed w w'' (es' ++ es) where
  stays hw := h'.stays (h.stays hw)
  fills hw'' f hf hguard := by
    obtain ⟨f', hf', hflight'⟩ := h'.fills hw'' f hf hguard
    have hguard' : f'.guard = l.guard := (Flight.mk.inj hflight').2.1.trans hguard
    obtain ⟨f₀, hf₀, hflight⟩ := h.fills hclosed f' hf' hguard'
    exact ⟨f₀, hf₀, hflight.trans hflight'⟩
  left hw'' key hkey := by
    rcases h'.left hw'' key hkey with ⟨-, hkey'⟩ | ⟨f', hf', rfl, hstored⟩
    · refine (h.left hclosed key hkey').imp_right ?_
      rintro ⟨f, hf, hfkey, hstored⟩
      exact ⟨f, hf, hfkey, hstored.append_left⟩
    · obtain ⟨f₀, hf₀, hflight⟩ := h.fills hclosed f' hf' hstored.1
      exact Or.inr ⟨f₀, hf₀, (Flight.mk.inj hflight).2.2,
        (hstored.flight hflight.symm).append_right⟩
  empty hw'' hw hnone := by
    have hw' := h.empty hclosed hw fun f hf hstored ↦ hnone f hf hstored.append_left
    refine h'.empty hw'' (Or.inr hw') fun f' hf' hstored ↦ ?_
    obtain ⟨f₀, hf₀, hflight⟩ := h.fills hclosed f' hf' hstored.1
    exact hnone f₀ hf₀ (hstored.flight hflight.symm).append_right

/-- A step that seals the tier. -/
theorem passed_of_sealing (htier : (l.tierIn w).Sealing (l.tierIn w'))
    (hfills : (l.tierIn w').closed = true → ∀ f ∈ w'.fills, f.guard = l.guard →
      ∃ f₀ ∈ w.fills, f₀.flight = f.flight) : l.Passed w w' es where
  stays hclosed := (htier.stays hclosed).1
  fills := hfills
  left hclosed' key hkey := by
    left
    cases hclosed : (l.tierIn w).closed with
    | true => exact ⟨rfl, fun hnone ↦ hkey ((htier.stays hclosed).2.get? key hnone)⟩
    | false =>
      rw [htier.closes hclosed hclosed'] at hkey
      exact absurd rfl hkey
  empty hclosed' hbefore _ := by
    cases hclosed : (l.tierIn w).closed with
    | false => exact htier.closes hclosed hclosed'
    | true =>
      refine (htier.stays hclosed).2.empty (hbefore.resolve_left fun hopen ↦ ?_)
      rw [hclosed] at hopen
      cases hopen

/-- A step in which a fill of the tier stores its value. -/
theorem passed_of_insert {f : Fill} (hf : f ∈ w.fills) (hguard : f.guard = l.guard) {v : String}
    {c : LocalCache} {now ttl : Nat} (htier : (l.tierIn w).Sealing c)
    (hinsert : l.tierIn w' = (LocalCache.insert now f.key v ttl c).2)
    (hfills : (l.tierIn w').closed = true → ∀ u ∈ w'.fills, u.guard = l.guard →
      ∃ f₀ ∈ w.fills, f₀.flight = u.flight) :
    l.Passed w w' (.ended f.id l.guard f.key (.answer (.ok v)) :: es) := by
  have hstored : l.Stored (.ended f.id l.guard f.key (.answer (.ok v)) :: es) f :=
    ⟨hguard, v, List.mem_cons_self⟩
  have hclosed' : (l.tierIn w').closed = c.closed := by rw [hinsert, LocalCache.closed_insert]
  refine ⟨fun hclosed ↦ ?_, hfills, fun hw' key hkey ↦ ?_, fun _ _ hnone ↦ ?_⟩
  · rw [hclosed']
    exact (htier.stays hclosed).1
  · by_cases hj : key = f.key
    · exact Or.inr ⟨f, hf, hj.symm, hstored⟩
    · left
      have hc : c.table.get? key ≠ none := by
        rw [hinsert] at hkey
        rcases (LocalCache.get?_insert now f.key v ttl c).2 key hj with h | h
        · exact absurd h hkey
        · rwa [h] at hkey
      rw [hclosed'] at hw'
      cases hclosed : (l.tierIn w).closed with
      | true => exact ⟨rfl, fun hnone ↦ hc ((htier.stays hclosed).2.get? key hnone)⟩
      | false =>
        rw [htier.closes hclosed hw'] at hc
        exact absurd rfl hc
  · exact absurd hstored (hnone f hf)

/-! ### All tasks deal with the tier by the contract -/

/-- A task that is made deals with the tier by the contract, and waits for no fill yet. -/
def Admits (l : LocalHandle) : Move ρ → Prop
  | .spawn _ code => code.Unbegun ∧ l.Deals code
  | _ => True

/-- The worlds that such moves lead to from a first one, each with the events since then. -/
inductive Leads (l : LocalHandle) (w₀ : World ρ) : World ρ → List Guard.Event → Prop
  | start : Leads l w₀ w₀ []
  | move {w : World ρ} {es : List Guard.Event} (m : Move ρ) (hm : l.Admits m)
      (h : Leads l w₀ w es) : Leads l w₀ (w.apply m) (Guard.events w m ++ es)

/-- What holds of every world that such moves lead to. -/
structure Tended (l : LocalHandle) (w : World ρ) (es : List Guard.Event) : Prop where
  numbered : w.Numbered
  agrees : Guard.Agrees w es fun _ ↦ True
  tasks : ∀ t ∈ w.tasks, ∀ h, l.Minds t.code h
  fills : ∀ f ∈ w.fills, l.Proper f

theorem Admits.fresh {m : Move ρ} (hm : l.Admits m) : Guard.Move.Fresh m := by
  cases m with
  | spawn held code => exact hm.1
  | _ => trivial

theorem tended_opening (l : LocalHandle) (now : Nat) (tiers : Tiers) :
    l.Tended (World.opening now tiers : World ρ) [] where
  numbered := ⟨fun _ ht ↦ absurd ht List.not_mem_nil, fun _ hf ↦ absurd hf List.not_mem_nil,
    fun _ ht ↦ absurd ht List.not_mem_nil⟩
  agrees := ⟨Guard.kept_nil, fun _ ht ↦ absurd ht List.not_mem_nil,
    fun _ hf ↦ absurd hf List.not_mem_nil⟩
  tasks _ ht := absurd ht List.not_mem_nil
  fills _ hf := absurd hf List.not_mem_nil

/-- The fills after a step are proper, and those that a step has started which leaves the tier
closed are fills of others. -/
theorem Tended.absorb (h : l.Tended w es) (me : Nat) {α : Type} {p : Progress α}
    (hp : ∀ f ∈ p.fills, l.Proper f ∧ (f.guard = l.guard → ¬ l.Closed p.heap)) :
    ∀ f ∈ (w.absorb me p).fills, l.Proper f ∧
      (f.guard = l.guard → l.Closed p.heap → f ∈ w.fills) := by
  intro f hf
  rcases List.mem_append.mp hf with hf | hf
  · exact ⟨h.fills f hf, fun _ _ ↦ hf⟩
  · obtain ⟨f', hf', rfl⟩ := List.mem_map.mp hf
    obtain ⟨hproper, hopen⟩ := hp f' hf'
    exact ⟨⟨hproper.own, hproper.other⟩, fun hguard hclosed ↦ absurd hclosed (hopen hguard)⟩

/-- The step of a task seals the tier. -/
theorem Tended.runTask (h : l.Tended w es) {t : Task ρ} (ht : t ∈ w.tasks) :
    (∀ u ∈ (w.runTask t).tasks, ∀ h, l.Minds u.code h) ∧
      (∀ f ∈ (w.runTask t).fills, l.Proper f) ∧ ∀ es', l.Passed w (w.runTask t) es' := by
  obtain ⟨hsealed, hrest⟩ := (Minds.resume w (h.tasks t ht) w.heap).exec t.id
  have htier := w.localTier_afterTask l.cache t ((w.resume t.code).exec t.id w.heap [])
  rw [World.runTask_eq]
  generalize (w.resume t.code).exec t.id w.heap [] = p at hsealed hrest htier
  have hfills := h.absorb t.id hsealed.fills
  rw [← World.fills_afterTask t p] at hfills
  refine ⟨fun u hu ↦ ?_, fun f hf ↦ (hfills f hf).1,
    fun es' ↦ passed_of_sealing ?_ fun hclosed f hf hguard ↦ ?_⟩
  · rcases World.mem_or_code_of_mem_afterTask hu with hu | hcode
    · exact h.tasks u hu
    · rw [hcode]
      exact hrest
  · rw [tierIn, tierIn, htier]
    exact hsealed.tier
  · rw [tierIn, htier] at hclosed
    exact ⟨f, (hfills f hf).2 hguard hclosed, rfl⟩

/-- The fills after the step of a fill. -/
theorem Tended.afterFill (h : l.Tended w es) {f : Fill} (hf : f ∈ w.fills)
    {p : Progress (Answer String)} (hnew : ∀ u ∈ p.fills, w.heap.nextThread ≤ u.id)
    (hp : ∀ u ∈ p.fills, l.Proper u ∧ (u.guard = l.guard → ¬ l.Closed p.heap))
    (hrest : p.rest.conclusion? = none → l.Proper { f with code := p.rest, since := w.turn }) :
    ∀ u ∈ (w.afterFill f p).fills, l.Proper u ∧
      (u.guard = l.guard → l.Closed p.heap → ∃ f₀ ∈ w.fills, f₀.flight = u.flight) := by
  intro u hu
  rcases World.mem_or_eq_of_mem_afterFill hu with ⟨hu, -⟩ | ⟨v, hv, hid, hnone, rfl⟩
  · obtain ⟨hproper, hold⟩ := h.absorb f.id hp u hu
    exact ⟨hproper, fun hguard hclosed ↦ ⟨u, hold hguard hclosed, rfl⟩⟩
  · have hvf : v = f := by
      rcases List.mem_append.mp hv with hv | hv
      · exact h.agrees.fill_eq_of_id hv hf hid
      · -- a fill that was just started has a number that no thread had
        obtain ⟨v', hv', rfl⟩ := List.mem_map.mp hv
        have hle := hnew v' hv'
        have hlt := h.numbered.fill_lt f hf
        change v'.id = f.id at hid
        omega
    rw [hvf]
    exact ⟨hrest hnone, fun _ _ ↦ ⟨f, hf, rfl⟩⟩

/-- The step of a fill seals the tier, or it is one of the tier and stores its value. -/
theorem Tended.runFill (h : l.Tended w es) {f : Fill} (hf : f ∈ w.fills) :
    (∀ u ∈ (w.runFill f).fills, l.Proper u) ∧
      ∀ es', l.Passed w (w.runFill f) (Guard.endEvents w f ++ es') := by
  have hnew : ∀ u ∈ ((w.resume f.code).exec f.id w.heap []).fills, w.heap.nextThread ≤ u.id :=
    fun u hu ↦ (Call.fills_exec hu).1
  have hstep : (f.guard = l.guard ∧
      l.Filled f.key w.heap ((w.resume f.code).exec f.id w.heap [])) ∨
      (f.guard ≠ l.guard ∧ l.Sealed w.heap ((w.resume f.code).exec f.id w.heap []) ∧
        ∀ h', l.Minds ((w.resume f.code).exec f.id w.heap []).rest h') := by
    by_cases hguard : f.guard = l.guard
    · exact Or.inl ⟨hguard, ((h.fills f hf).own hguard).exec w f.id⟩
    · exact Or.inr ⟨hguard, (Minds.resume w ((h.fills f hf).other hguard) w.heap).exec f.id⟩
  have htier := w.localTier_afterFill l.cache f ((w.resume f.code).exec f.id w.heap [])
  rw [World.runFill_eq]
  unfold Guard.endEvents
  generalize (w.resume f.code).exec f.id w.heap [] = p at hnew hstep htier
  have hpassed : l.Sealed w.heap p →
      (p.rest.conclusion? = none → l.Proper { f with code := p.rest, since := w.turn }) →
      (∀ u ∈ (w.afterFill f p).fills, l.Proper u) ∧ ∀ es, l.Passed w (w.afterFill f p) es := by
    intro hsealed hrest
    have hfills := h.afterFill hf hnew hsealed.fills hrest
    refine ⟨fun u hu ↦ (hfills u hu).1, fun es ↦ passed_of_sealing ?_ fun hclosed u hu hguard ↦ ?_⟩
    · rw [tierIn, tierIn, htier]
      exact hsealed.tier
    · rw [tierIn, htier] at hclosed
      exact (hfills u hu).2 hguard hclosed
  rcases hstep with ⟨hguard, hfilled⟩ | ⟨hguard, hsealed, hrest⟩
  · cases hfilled with
    | sealed hsealed hrest =>
      obtain ⟨hfills, hp⟩ := hpassed hsealed fun hnone ↦
        ⟨fun _ ↦ hrest hnone, fun hne ↦ absurd hguard hne⟩
      exact ⟨hfills, fun es' ↦ hp _⟩
    | @stored h' ttl v c hsealing hinsert =>
      have hfills := h.afterFill hf hnew (fun u hu ↦ absurd hu List.not_mem_nil) fun hnone ↦ by
        cases hnone
      refine ⟨fun u hu ↦ (hfills u hu).1, fun es' ↦ ?_⟩
      have hend : l.Passed w (w.afterFill f ⟨h', [], .done (.ok v)⟩)
          (.ended f.id l.guard f.key (.answer (.ok v)) :: es') := by
        refine passed_of_insert hf hguard hsealing (htier.trans hinsert) fun hclosed u hu hown ↦ ?_
        rw [tierIn, htier] at hclosed
        exact (hfills u hu).2 hown hclosed
      rw [← hguard] at hend
      exact hend
  · obtain ⟨hfills, hp⟩ := hpassed hsealed fun _ ↦
      ⟨fun heq ↦ absurd heq hguard, fun _ ↦ hrest⟩
    exact ⟨hfills, fun es' ↦ hp _⟩

/-- What is no step of a thread leaves the tier as it is. -/
theorem passed_of_eq (htier : l.tierIn w' = l.tierIn w) (hfills : w'.fills = w.fills) :
    l.Passed w w' es := by
  refine passed_of_sealing ?_ fun _ f hf _ ↦ ⟨f, hfills ▸ hf, rfl⟩
  rw [htier]
  exact .refl _

/-- A receive loop seals the tier. -/
theorem passed_runLoop (w : World ρ) (r : Nat) : l.Passed w (w.runLoop r) es := by
  refine passed_of_sealing ?_ fun _ f hf _ ↦ ⟨f, hf, rfl⟩
  rcases Tiers.localTier_stepLoop w.heap.tiers r l.cache with h | ⟨key, h⟩
  · change (l.tierIn w).Sealing ((w.heap.tiers.stepLoop r).localTier l.cache)
    rw [h]
    exact .refl _
  · change (l.tierIn w).Sealing ((w.heap.tiers.stepLoop r).localTier l.cache)
    rw [h]
    exact .drop _ key

/-- Every move seals the tier, or it is the step in which a fill of the tier stores its value. -/
theorem Tended.passed (h : l.Tended w es) (m : Move ρ) :
    l.Passed w (w.apply m) (Guard.events w m) := by
  cases m with
  | run th =>
    cases th with
    | task i =>
      cases ht : w.tasks.find? fun t ↦ t.id = i with
      | some t =>
        simp only [World.apply, World.run, ht]
        exact (h.runTask (World.mem_of_find? ht).1).2.2 _
      | none =>
        simp only [World.apply, World.run, ht]
        exact passed_of_eq rfl rfl
    | fill i =>
      cases hf : w.fills.find? fun f ↦ f.id = i with
      | some f =>
        simp only [World.apply, World.run, Guard.events, hf]
        exact (h.runFill (World.mem_fills_of_find? hf).1).2 _
      | none =>
        simp only [World.apply, World.run, hf]
        exact passed_of_eq rfl rfl
    | loop r => exact passed_runLoop w r
  | spawn held code => exact passed_of_eq rfl rfl
  | abort i => exact passed_of_eq rfl rfl
  | advance t => exact passed_of_eq rfl rfl
  | hold named guarded => exact passed_of_eq (Tiers.localTier_release _ _ _) rfl

theorem Tended.apply (h : l.Tended w es) (m : Move ρ) (hm : l.Admits m) :
    l.Tended (w.apply m) (Guard.events w m ++ es) := by
  have hagrees := h.agrees.apply h.numbered m hm.fresh
  refine ⟨h.numbered.apply m, hagrees, ?_, ?_⟩
  · cases m with
    | run th =>
      cases th with
      | task i =>
        cases ht : w.tasks.find? fun t ↦ t.id = i with
        | some t =>
          simp only [World.apply, World.run, ht]
          exact (h.runTask (World.mem_of_find? ht).1).1
        | none =>
          simp only [World.apply, World.run, ht]
          exact h.tasks
      | fill i =>
        unfold World.apply World.run
        dsimp only
        split
        · rw [World.runFill_eq, World.tasks_afterFill]
          exact h.tasks
        · exact h.tasks
      | loop r => exact h.tasks
    | spawn held code =>
      intro t ht
      rcases List.mem_append.mp ht with ht | ht
      · exact h.tasks t ht
      · rw [List.mem_singleton.mp ht]
        exact hm.2.minds
    | abort i => exact fun t ht ↦ h.tasks t (List.mem_filter.mp ht).1
    | advance t => exact h.tasks
    | hold named guarded => exact h.tasks
  · cases m with
    | run th =>
      cases th with
      | task i =>
        cases ht : w.tasks.find? fun t ↦ t.id = i with
        | some t =>
          simp only [World.apply, World.run, ht]
          exact (h.runTask (World.mem_of_find? ht).1).2.1
        | none =>
          simp only [World.apply, World.run, ht]
          exact h.fills
      | fill i =>
        cases hf : w.fills.find? fun f ↦ f.id = i with
        | some f =>
          simp only [World.apply, World.run, hf]
          exact (h.runFill (World.mem_fills_of_find? hf).1).1
        | none =>
          simp only [World.apply, World.run, hf]
          exact h.fills
      | loop r => exact h.fills
    | _ => exact h.fills

theorem Leads.tended {now : Nat} {tiers : Tiers} (h : l.Leads (World.opening now tiers) w es) :
    l.Tended w es := by
  generalize hw₀ : World.opening now tiers = w₀ at h
  induction h with
  | start =>
    rw [← hw₀]
    exact tended_opening l now tiers
  | move m hm _ ih => exact ih.apply m hm

/-- A closed tier passes on through any moves. -/
theorem Leads.passed (h : l.Leads w w' es') (hw : l.Tended w es)
    (hclosed : (l.tierIn w).closed = true) :
    l.Tended w' (es' ++ es) ∧ l.Passed w w' es' := by
  induction h with
  | start => exact ⟨hw, passed_of_eq rfl rfl⟩
  | @move w' es' m hm _ ih =>
    obtain ⟨htended, hpassed⟩ := ih
    rw [List.append_assoc]
    exact ⟨htended.apply m hm, hpassed.trans (hpassed.stays hclosed) (htended.passed m)⟩

/-! ### What is left of a closed tier -/

/-- What is left of a tier that was closed after a world, in a later one with the events since. -/
structure Released (l : LocalHandle) (w w' : World ρ) (es : List Guard.Event) : Prop where
  /-- It stays closed. -/
  closed : (l.tierIn w').closed = true
  /-- Every operation on it fails at once and does nothing, in any task. -/
  refuses : ∀ (me : Nat) (key value : String) (ttl : Nat) (fetch : Fetch),
    let refused {α : Type} (call : Call (Answer α)) : Prop :=
      call.exec me w'.heap [] = ⟨w'.heap, [], .done (.error .closed)⟩
    refused (l.tier.get key) ∧ refused (l.tier.contains key) ∧ refused (l.tier.set key value ttl) ∧
      refused (l.tier.del key) ∧ refused (l.tier.getOrSet key ttl fetch)
  /-- Its fills were in flight before. -/
  inFlight : ∀ f ∈ w'.fills, f.guard = l.guard → ∃ f₀ ∈ w.fills, f₀.flight = f.flight
  /-- Each of its keys was left since by such a fill, unless the tier had been closed before. -/
  left : ∀ key, (l.tierIn w').table.get? key ≠ none →
    ((l.tierIn w).closed = true ∧ (l.tierIn w).table.get? key ≠ none) ∨
      ∃ f ∈ w.fills, f.key = key ∧ l.Stored es f
  /-- It is empty as long as no such fill has stored its value. -/
  empty : (l.tierIn w).closed = false ∨ (l.tierIn w).table = .empty →
    (∀ f ∈ w.fills, ¬ l.Stored es f) → (l.tierIn w').size = 0

/-- A closed tier refuses every operation on it. -/
theorem exec_whenOpen_of_closed {h : Heap} (hclosed : l.Closed h) (me : Nat) {α : Type}
    (call : Call (Answer α)) :
    (l.whenOpen call).exec me h [] = ⟨h, [], .done (.error .closed)⟩ := by
  have hcond : (h.tiers.localTier l.cache).closed = true := hclosed
  change (if (h.tiers.localTier l.cache).closed then Call.done (.error .closed)
    else call).exec me h [] = _
  rw [if_pos hcond]
  rfl

/-- Through any steps of any tasks that deal with a tier by the contract, whatever it held at first:
once a step has closed it, it stays closed, fails every operation, starts no fill, and holds nothing
but what the fills that were in flight before this step have stored since. So it is empty for as
long as none of them ends with a value. -/
theorem Leads.closed_for_good {now : Nat} {tiers : Tiers} {es₀ : List Guard.Event}
    (h : l.Leads (World.opening now tiers) w es₀) {m : Move ρ} (hm : l.Admits m)
    (hclosed : (l.tierIn (w.apply m)).closed = true) (hlater : l.Leads (w.apply m) w' es) :
    l.Released w w' (es ++ Guard.events w m) := by
  have htended := h.tended
  have hclosing := htended.passed m
  obtain ⟨-, hpassed⟩ := hlater.passed (htended.apply m hm) hclosed
  have hsince := hclosing.trans hclosed hpassed
  have hclosed' := hpassed.stays hclosed
  refine ⟨hclosed', fun me key value ttl fetch ↦ ?_, hsince.fills hclosed', hsince.left hclosed',
    fun hbefore hnone ↦ ?_⟩
  · have hrefused {α : Type} (call : Call (Answer α)) :=
      exec_whenOpen_of_closed (h := w'.heap) hclosed' me call
    exact ⟨hrefused _, hrefused _, hrefused _, hrefused _, hrefused _⟩
  · rw [LocalCache.size, hsince.empty hclosed' hbefore hnone]
    rfl

/-! ### Two runs -/

open Scenario

deriving instance DecidableEq for Guard.Event

theorem deals_delay (l : LocalHandle) (span : Nat) : l.Deals (Call.delay span) := by
  unfold Call.delay
  split
  · exact .done ()
  · exact .bind (.look fun h ↦ some (Clock.afterDelay h.now span)) fun wake ↦ .sleep wake

/-- A fetch that goes by a plan does not deal with the tier. -/
theorem deals_marked (l : LocalHandle) (plan : Plan) (mark : Nat) :
    l.Deals (plan.marked mark) := by
  refine .bind (.elsewhere _ fun _ ↦ rfl) fun _ ↦ .bind (l.deals_delay _) fun _ ↦ ?_
  cases plan.ending with
  | crash => exact .crash
  | _ => exact .done _

/-- Moves lead on. -/
theorem Leads.foldl {w₀ : World ρ} {r : World ρ × List Guard.Event} (h : l.Leads w₀ r.1 r.2)
    {ms : List (Move ρ)} (hms : ∀ m ∈ ms, l.Admits m) :
    let r' := ms.foldl (fun r m ↦ (r.1.apply m, Guard.events r.1 m ++ r.2)) r
    l.Leads w₀ r'.1 r'.2 := by
  induction ms generalizing r with
  | nil => exact h
  | cons m ms ih =>
    exact ih (h.move m (hms m List.mem_cons_self)) fun m' hm' ↦ hms m' (List.mem_cons_of_mem _ hm')

/-- A task asks a tier for a key, and another one closes the tier while the fetch goes on. -/
def closingMoves (l : LocalHandle) (plan : Plan) : List (Move (Answer String)) :=
  [.spawn [] (l.tier.getOrSet "k" (Clock.secs 60) (plan.marked 0)), .run (.task 0),
    .run (.fill 1), .spawn [] (l.tier.close.bind fun _ ↦ .done (.ok ""))]

theorem admits_closingMoves (l : LocalHandle) (plan : Plan) :
    ∀ m ∈ l.closingMoves plan, l.Admits m := by
  intro m hm
  simp only [closingMoves, List.mem_cons, List.not_mem_nil, or_false] at hm
  rcases hm with rfl | rfl | rfl | rfl
  · have httl : Clock.secs 60 < Clock.secs (2 ^ 55) := by decide
    have hopens := Filler.opens_getOrSet (c := .near l) httl "k" plan 0
    exact ⟨hopens.unbegun, .getOrSet _ _ (l.deals_marked plan 0)⟩
  · trivial
  · trivial
  · exact ⟨fun _ ↦ trivial, .bind .close fun _ ↦ .done _⟩

/-- A look at a tier may be made a task of. -/
theorem admits_get (l : LocalHandle) (key : String) :
    l.Admits (.spawn [] (l.tier.get key) : Move (Answer String)) := by
  have hopens : (Filler.near l).Opens (l.tier.get key) :=
    Filler.opens_whenOpen l (Filler.Opens.bind (Filler.opens_lookup l key) fun r ↦ by
      cases r <;> exact Filler.opens_done _)
  exact ⟨hopens.unbegun, .get key⟩

/-- The fetch of a fill in flight fails after the tier has been closed. The tier stays empty, and a
new call is refused. -/
theorem released_of_failed_fill :
    let l : LocalHandle := ⟨0, 0⟩
    let w₀ : World (Answer String) :=
      .opening 0 (Tiers.empty.setLocal 0 (.create ⟨fun _ ↦ 0, id⟩ ⟨1, .random, 1⟩))
    let go (r : World (Answer String) × List Guard.Event) (m : Move (Answer String)) :=
      (r.1.apply m, Guard.events r.1 m ++ r.2)
    let r := (l.closingMoves ⟨Clock.millis 5, .error "db unavailable"⟩).foldl go (w₀, [])
    let r' := [.advance (Clock.millis 10), .run (.fill 1), .spawn [] (l.tier.get "k"),
      .run (.task 3)].foldl go (r.1.apply (.run (.task 2)), [])
    (l.tierIn r.1).closed = false ∧ r.1.fills.map Fill.id = [1] ∧
      l.Released r.1 r'.1 (r'.2 ++ Guard.events r.1 (.run (.task 2))) ∧
      (l.tierIn r'.1).size = 0 ∧ r'.1.conclusions[3]? = some (.answer (.error .closed)) := by
  intro l w₀ go r r'
  have hr : l.Leads w₀ r.1 r.2 := Leads.foldl .start (l.admits_closingMoves _)
  have hr' : l.Leads (r.1.apply (.run (.task 2))) r'.1 r'.2 := by
    refine Leads.foldl .start fun m hm ↦ ?_
    simp only [List.mem_cons, List.not_mem_nil, or_false] at hm
    rcases hm with rfl | rfl | rfl | rfl
    · trivial
    · trivial
    · exact l.admits_get "k"
    · trivial
  have hevents : r'.2 ++ Guard.events r.1 (.run (.task 2)) =
      [.ended 1 0 "k" (.answer (.error (.fetchFailed "db unavailable")))] := by decide +kernel
  have hreleased := hr.closed_for_good (m := .run (.task 2)) trivial (by decide +kernel) hr'
  refine ⟨by decide +kernel, by decide +kernel, hreleased,
    hreleased.empty (Or.inl (by decide +kernel)) ?_, by decide +kernel⟩
  rintro f - ⟨-, v, hv⟩
  rw [hevents] at hv
  simp at hv

/-- The fetch of a fill in flight yields a value after the tier has been closed. The tier, which had
been emptied, holds an entry again. -/
theorem not_empty_of_late_fill :
    let l : LocalHandle := ⟨0, 0⟩
    let w₀ : World (Answer String) :=
      .opening 0 (Tiers.empty.setLocal 0 (.create ⟨fun _ ↦ 0, id⟩ ⟨1, .random, 1⟩))
    let go (r : World (Answer String) × List Guard.Event) (m : Move (Answer String)) :=
      (r.1.apply m, Guard.events r.1 m ++ r.2)
    let closing := l.closingMoves ⟨Clock.millis 5, .value "v"⟩ ++ [.run (.task 2)]
    let r := closing.foldl go (w₀, [])
    let r' := [Move.advance (Clock.millis 10), .run (.fill 1)].foldl go r
    l.Leads w₀ r.1 r.2 ∧ r.1.conclusions[2]? = some (.answer (.ok "")) ∧
      (l.tierIn r.1).closed = true ∧ (l.tierIn r.1).size = 0 ∧
      l.Leads w₀ r'.1 r'.2 ∧ (l.tierIn r'.1).closed = true ∧ (l.tierIn r'.1).size = 1 := by
  intro l w₀ go closing r r'
  have hr : l.Leads w₀ r.1 r.2 := by
    refine Leads.foldl .start fun m hm ↦ ?_
    rcases List.mem_append.mp hm with hm | hm
    · exact l.admits_closingMoves _ m hm
    · rw [List.mem_singleton.mp hm]
      trivial
  have hr' : l.Leads w₀ r'.1 r'.2 := by
    refine Leads.foldl hr fun m hm ↦ ?_
    simp only [List.mem_cons, List.not_mem_nil, or_false] at hm
    rcases hm with rfl | rfl <;> trivial
  exact ⟨hr, by decide +kernel, by decide +kernel, by decide +kernel, hr', by decide +kernel,
    by decide +kernel⟩

end LocalHandle

end TwoTier
