import TwoTier.Proofs.Hybrid.Provenance

/-!
# How stale a copy may be

Any number of tasks use any number of hybrid tiers over one store, and the store directly
(`Hybrid.Serves`). Their steps may be interleaved in any way, and tasks may be cancelled. Then
whatever a hybrid tier answers from its local tier, it stored itself for a span that is not over, or
the store showed it less than the span of the population ago; and this since the hybrid tier removed
the key last (`Hybrid.answers_accounted`).

The invariant is `Hybrid.Traced`, and one step of each kind of use keeps it (`Hybrid.Serves.safe`).
-/

set_option autoImplicit false
set_option relaxedAutoImplicit false

namespace TwoTier

namespace Hybrid

/-- The calls that write to the local tiers of some hybrid tiers only through these. To the store
they may do anything; elsewhere they may do whatever adds nothing to the local tiers. -/
inductive Serves (fronts : Front → Prop) (x : StoreHandle) : ∀ {α : Type}, Marked Trace α → Prop
  | done {α : Type} (a : α) : Serves fronts x (.done a)
  | crash {α : Type} : Serves fronts x (.crash : Marked Trace α)
  | get {α : Type} {front : Front} {key : String} {k : Answer String → Marked Trace α}
      (hfront : fronts front) (hk : ∀ a, Serves fronts x (k a)) :
      Serves fronts x (notedGet (traced front x) key k)
  | contains {α : Type} {front : Front} {key : String} {k : Answer Bool → Marked Trace α}
      (hk : ∀ a, Serves fronts x (k a)) : Serves fronts x (.act ((layered front x).contains key) k)
  | set {α : Type} {front : Front} {key v : String} {ttl : Nat} {k : Answer Unit → Marked Trace α}
      (hfront : fronts front) (hk : ∀ a, Serves fronts x (k a)) :
      Serves fronts x (notedSet (traced front x) key v ttl k)
  | del {α : Type} {front : Front} {key : String} {k : Answer Unit → Marked Trace α}
      (hfront : fronts front) (hk : ∀ a, Serves fronts x (k a)) :
      Serves fronts x (notedDel (traced front x) key k)
  | getOrSet {α : Type} {front : Front} {key : String} {ttl : Nat}
      {fetch : Marked Trace (Except String String)} {k : Answer String → Marked Trace α}
      (hfront : fronts front) (hfetch : Serves fronts x fetch) (hk : ∀ a, Serves fronts x (k a)) :
      Serves fronts x (notedGetOrSet (traced front x) key ttl fetch k)
  | close {α : Type} {near : LocalHandle} {k : Answer Unit → Marked Trace α}
      (hk : ∀ a, Serves fronts x (k a)) : Serves fronts x (.act near.tier.close k)
  | store {α β : Type} {s : Nat} {op : Nat → Store → Outcome β × Store}
      {k : Answer β → Marked Trace α} (hk : ∀ a, Serves fronts x (k a)) :
      Serves fronts x (.act (Call.onStore s op) k)
  | pop {α : Type} {s : Nat} {keys : List String} {deadline seen : Option Nat}
      {k : Answer (Option (String × String)) → Marked Trace α} (hk : ∀ a, Serves fronts x (k a)) :
      Serves fronts x (.pop s keys deadline seen k)
  | look {α β : Type} {f : Heap → β} {k : β → Marked Trace α} (hk : ∀ b, Serves fronts x (k b)) :
      Serves fronts x (.act (Call.look f) k)
  | elsewhere {α β : Type} {f : Heap → β × Tiers} {k : β → Marked Trace α}
      (hfades : ∀ h, Fades fronts h { h with tiers := (f h).2 })
      (hk : ∀ b, Serves fronts x (k b)) : Serves fronts x (.act (Call.atomically f) k)
  | pause {α : Type} {k : Marked Trace α} (hk : Serves fronts x k) : Serves fronts x (.pause k)
  | sleep {α : Type} {wake : Option Nat} {k : Marked Trace α} (hk : Serves fronts x k) :
      Serves fronts x (.sleep wake k)
  | join {α : Type} {g : Nat} {key : String} {fill : Marked Trace (Answer String)}
      {k : Answer String → Marked Trace α} (hfill : Serves fronts x fill)
      (hk : ∀ a, Serves fronts x (k a)) : Serves fronts x (.join g key fill k)
  | acquire {α : Type} {m : Lock} {k : Marked Trace α} (hk : Serves fronts x k) :
      Serves fronts x (.acquire m k)
  | release {α : Type} {m : Lock} {k : Marked Trace α} (hk : Serves fronts x k) :
      Serves fronts x (.release m k)
  | loopEnd {α : Type} {r : Nat} {deadline : Option Nat} {k : Bool → Marked Trace α}
      (hk : ∀ b, Serves fronts x (k b)) : Serves fronts x (.loopEnd r deadline k)

theorem Serves.opens {fronts : Front → Prop} {x : StoreHandle} {α : Type} {m : Marked Trace α}
    (hm : Serves fronts x m) : Play.Opens m := by
  cases hm <;> trivial

/-- What is asked of the hybrid tiers: each has a local tier of its own, in which no copy of what
the store holds is to stay for ever. -/
structure Served (fronts : Front → Prop) : Prop where
  apart : Apart fronts
  population : ∀ front, fronts front → 1 ≤ front.settings.populationSecs

variable {fronts : Front → Prop} {x : StoreHandle} {α β : Type}

/-- The span of a copy is not zero. -/
theorem Served.population_ne_zero (hfronts : Served fronts) {front : Front}
    (hfront : fronts front) : front.settings.population ≠ 0 := by
  have hpopulation := hfronts.population front hfront
  unfold HybridSettings.population Clock.secs
  omega

/-- A copy for a caller that asked for a span is for a span that is neither zero nor longer than
that of the population. -/
theorem Served.populationFor (hfronts : Served fronts) {front : Front} (hfront : fronts front)
    (ttl : Nat) : front.settings.populationFor ttl ≠ 0 ∧
      front.settings.populationFor ttl ≤ front.settings.population := by
  have hpopulation := hfronts.population_ne_zero hfront
  unfold HybridSettings.populationFor
  split_ifs with httl
  · exact ⟨hpopulation, Nat.le_refl _⟩
  · exact ⟨by omega, Nat.min_le_right _ _⟩

theorem Traced.congr {h h' : Heap} {log : Log Trace} (hc : Traced fronts h log)
    (hnow : h'.now = h.now) (htiers : h'.tiers = h.tiers) : Traced fronts h' log :=
  hc.fades (fades_of_localTier hnow fun _ ↦ by rw [htiers])

theorem kept_traced : Play.Kept (Traced fronts) [] where
  thread _ _ hc := hc.congr rfl rfl
  clock hnow hc := hc.fades (fades_clock hnow)
  loop _ _ _ hc := hc.fades (fades_stepLoop _ _)
  release _ hc := hc.fades (fades_of_localTier rfl fun n ↦ Tiers.localTier_release _ _ n)

section Steps

variable {h : Heap} {log : Log Trace} {me : Nat}

theorem Traced.onStore (hc : Traced fronts h log) {s : Nat}
    {op : Nat → Store → Outcome β × Store} :
    (Call.onStore s op).AtOnce me h (fun _ h' ↦ Traced fronts h' log)
      fun h' ↦ Traced fronts h' log :=
  Call.AtOnce.onStore_of_heap (hc.fades (fades_of_localTier rfl fun _ ↦ rfl))

theorem Traced.contains (hc : Traced fronts h log) {front : Front} {key : String} :
    ((layered front x).contains key).AtOnce me h (fun _ h' ↦ Traced fronts h' log)
      fun h' ↦ Traced fronts h' log := by
  refine Call.AtOnce.bind (P := fun _ h' ↦ Traced fronts h' log) ?_ fun a h' hc' ↦ ?_
  · exact Call.AtOnce.whenOpen (fun _ ↦ hc) fun _ ↦
      Call.AtOnce.bind (P := fun _ h' ↦ Traced fronts h' log) (Call.AtOnce.look hc)
        fun _ _ hc' ↦ Call.AtOnce.done hc'
  · split
    · exact Call.AtOnce.done hc'
    · change (Call.onStore x.store fun now ↦ Store.contains now key).AtOnce me h' _ _
      exact hc'.onStore

/-- What a look-up in a local tier answers can be seen in it. -/
theorem Traced.lookup (hc : Traced fronts h log) {near : LocalHandle} {key : String}
    {F : Heap → Prop} :
    (near.lookup key).AtOnce me h (fun r h' ↦ Traced fronts h' log ∧ ∀ v, r = some v →
      ∃ e, (h'.tiers.localTier near.cache).view h'.now key = some (v, e)) F :=
  atOnce_lookup.mono (fun _ _ hr ↦ ⟨hc.fades hr.1, hr.2.2⟩) fun _ hfail ↦ hfail

theorem Traced.localHit (hc : Traced fronts h log) {front : Front} {key : String}
    {F : Heap → Prop} :
    ((layered front x).localHit key).AtOnce me h (fun r h' ↦ Traced fronts h' log ∧
      ∀ v, r = some v →
        ∃ e, (h'.tiers.localTier front.near.cache).view h'.now key = some (v, e)) F :=
  atOnce_localHit.mono (fun _ _ hr ↦ ⟨hc.fades hr.1, hr.2.2⟩) fun _ hfail ↦ hfail

/-- The store answers a read with the text that it shows. -/
theorem Traced.remoteGet (hc : Traced fronts h log) {key : String} :
    (x.get key).AtOnce me h (fun a h' ↦ Traced fronts h' log ∧ h'.now = h.now ∧
        ∀ v, a = .ok v → (h.tiers.store x.store).text? h.now key = some v)
      fun h' ↦ Traced fronts h' log := by
  have hstore : Traced fronts { h with
      tiers := h.tiers.setStore x.store (Store.get h.now key (h.tiers.store x.store)).2 } log :=
    hc.fades (fades_of_localTier rfl fun _ ↦ rfl)
  refine Call.AtOnce.onStore (fun v hv ↦ ⟨hstore, rfl, fun v' hv' ↦ ?_⟩)
    (fun e _ ↦ ⟨hstore, rfl, fun v hv ↦ by cases hv⟩) fun _ ↦ hstore
  obtain rfl := Except.ok.inj hv'
  exact Store.text?_of_get hv

theorem Traced.remoteSet (hc : Traced fronts h log) {key v : String} {ttl : Nat} :
    (x.tier.set key v ttl).AtOnce me h (fun _ h' ↦ Traced fronts h' log)
      fun h' ↦ Traced fronts h' log := by
  change (Call.onStore x.store fun now ↦ Store.set now key v ttl).AtOnce me h _ _
  exact hc.onStore

/-- After a removal from a local tier nothing can be seen in it under the key. -/
theorem Traced.clear (hc : Traced fronts h log) {front : Front} (hfront : fronts front)
    {key : String} {F : Heap → Prop} :
    (discard (front.near.tier.del key)).AtOnce me h (fun _ h' ↦ Traced fronts h' log ∧
      (h'.tiers.localTier front.near.cache).view h'.now key = none) F := by
  refine Call.AtOnce.discard (Call.AtOnce.whenOpen (fun hclosed ↦ ?_) fun _ ↦ ?_)
  · exact ⟨hc, hc.closed front hfront hclosed key⟩
  · refine Call.AtOnce.bind (P := fun _ h' ↦ Traced fronts h' log ∧
        (h'.tiers.localTier front.near.cache).view h'.now key = none)
      (Call.AtOnce.discard (Call.AtOnce.onLocal ⟨?_, ?_⟩)) fun _ _ hc' ↦ Call.AtOnce.done hc'
    · exact hc.fades (fades_drop _ key)
    · simp only [Tiers.localTier_setLocal, if_true, LocalCache.remove, LocalCache.view_drop]

/-- A removal. -/
theorem Traced.safe_del (hc : Traced fronts h log) {front : Front} (hfront : fronts front)
    {key : String} {k : Answer Unit → Marked Trace α}
    (hk : ∀ a h' log', Traced fronts h' log' → Marked.Safe (Traced fronts) me (k a) h' log') :
    Marked.Safe (Traced fronts) me (notedDel (traced front x) key k) h log := by
  refine Marked.Safe.of_atOnce (F := fun _ ↦ False) (hc.clear hfront) (fun _ h' hc' ↦ ?_)
    fun _ hfail ↦ hfail.elim
  obtain ⟨hc', hgone⟩ := hc'
  have hstore : ∀ y, Traced fronts { h' with tiers := h'.tiers.setStore x.store y }
      ((me, .deleted front key) :: log) := fun y ↦
    (hc'.deleted me hgone).fades (fades_of_localTier rfl fun _ ↦ rfl)
  refine Marked.Safe.of_atOnce (c := Call.onStore x.store fun _ ↦ Store.del key)
    (P := fun _ h'' ↦ Traced fronts h'' ((me, .deleted front key) :: log))
    (F := fun h'' ↦ Traced fronts h'' log) ?_ (fun a h'' hc'' ↦ hk a h'' _ hc'')
    fun h'' hc'' ↦ hc''.congr rfl rfl
  exact Call.AtOnce.onStore (fun _ _ ↦ hstore _) (fun _ _ ↦ hstore _) fun _ ↦
    hc'.fades (fades_of_localTier rfl fun _ ↦ rfl)

/-- A value that a hybrid tier stores itself may be copied. -/
theorem Traced.safe_copy (hc : Traced fronts h log) (hfronts : Served fronts) {front : Front}
    (hfront : fronts front) {key v : String} {ttl : Nat} {k : Unit → Marked Trace α}
    (hk : ∀ h' log', Traced fronts h' log' → Marked.Safe (Traced fronts) me (k ()) h' log') :
    Marked.Safe (Traced fronts) me (.mark (fun h ↦ .stored front key ⟨v, h.now, ttl⟩)
      (.act ((layered front x).populate key v ttl) k)) h log := by
  have hstored := hc.stored me front key ⟨v, h.now, ttl⟩
  refine Marked.Safe.of_atOnce (hstored.populate hfronts.apart hfront fun e he ↦ ?_)
    (fun _ h' hc' ↦ hk h' _ hc') fun h' hc' ↦ hc'.congr rfl rfl
  exact .new (.stored rfl (Nat.le_refl _) he) me

/-- A write. -/
theorem Traced.safe_set (hc : Traced fronts h log) (hfronts : Served fronts) {front : Front}
    (hfront : fronts front) {key v : String} {ttl : Nat} {k : Answer Unit → Marked Trace α}
    (hk : ∀ a h' log', Traced fronts h' log' → Marked.Safe (Traced fronts) me (k a) h' log') :
    Marked.Safe (Traced fronts) me (notedSet (traced front x) key v ttl k) h log := by
  refine Marked.Safe.of_atOnce hc.remoteSet (fun a h' hc' ↦ ?_) fun h' hc' ↦ hc'.congr rfl rfl
  cases a with
  | error e => exact hk _ h' log hc'
  | ok _ => exact hc'.safe_copy hfronts hfront (hk _)

/-- A reading leaves copies of what the store shows only, and answers from the local tier what is
accounted for. -/
theorem Traced.safe_read (hc : Traced fronts h log) (hfronts : Served fronts) {front : Front}
    (hfront : fronts front) {key : String} {ttl : Nat} (hpositive : ttl ≠ 0)
    (hshort : ttl ≤ front.settings.population) {k : Answer String → Marked Trace α}
    {miss : Fault → Marked Trace α}
    (hk : ∀ a h' log', Traced fronts h' log' → Marked.Safe (Traced fronts) me (k a) h' log')
    (hmiss : ∀ e h' log', Traced fronts h' log' →
      Marked.Safe (Traced fronts) me (miss e) h' log') :
    Marked.Safe (Traced fronts) me (notedRead (traced front x) key ttl k miss) h log := by
  refine Marked.Safe.of_atOnce (F := fun _ ↦ False) hc.localHit (fun r h' hr ↦ ?_)
    fun _ hfail ↦ hfail.elim
  obtain ⟨hc', hsome⟩ := hr
  cases r with
  | some v =>
    obtain ⟨e, hview⟩ := hsome v rfl
    exact hk _ h' _ (hc'.answered me hfront hview)
  | none =>
    have hshown := hc'.shown me key ((h'.tiers.store x.store).text? h'.now key) h'.now
    refine Marked.Safe.of_atOnce hshown.remoteGet (fun a h'' ha ↦ ?_) fun h'' hc'' ↦
      hc''.congr rfl rfl
    obtain ⟨hc'', hnow, htext⟩ := ha
    cases a with
    | error e => exact hmiss e h'' _ hc''
    | ok v =>
      refine Marked.Safe.of_atOnce (hc''.populate hfronts.apart hfront fun e he ↦ ?_)
        (fun _ h₃ hc₃ ↦ hk _ h₃ _ hc₃) fun h₃ hc₃ ↦ hc₃.congr rfl rfl
      rw [hnow] at he ⊢
      rw [htext v rfl]
      exact .new (.shown (Nat.le_refl _) hpositive hshort he) me

/-- A fill, given how its fetch goes on. -/
theorem Traced.safe_fill (hc : Traced fronts h log) (hfronts : Served fronts) {front : Front}
    (hfront : fronts front) {key : String} {ttl : Nat}
    {fetch : Marked Trace (Except String String)}
    (hfetch : ∀ (g : Except String String → Marked Trace (Answer String)) h' log',
      (∀ a h'' log'', Traced fronts h'' log'' → Marked.Safe (Traced fronts) me (g a) h'' log'') →
        Traced fronts h' log' → Marked.Safe (Traced fronts) me (fetch.bind g) h' log') :
    Marked.Safe (Traced fronts) me (notedFill (traced front x) key ttl fetch) h log := by
  refine Marked.Safe.of_atOnce (F := fun _ ↦ False) hc.lookup (fun r h' hr ↦ ?_)
    fun _ hfail ↦ hfail.elim
  obtain ⟨hc', hsome⟩ := hr
  cases r with
  | some v =>
    obtain ⟨e, hview⟩ := hsome v rfl
    exact (hc'.answered me hfront hview).congr rfl rfl
  | none =>
    refine hfetch _ h' log (fun fetched h'' log'' hc'' ↦ ?_) hc'
    cases fetched with
    | error source => exact hc''.congr rfl rfl
    | ok v =>
      exact Marked.Safe.of_atOnce hc''.remoteSet
        (fun a h₃ hc₃ ↦ hc₃.safe_copy hfronts hfront fun h₄ log₄ hc₄ ↦ hc₄.congr rfl rfl)
        fun h₃ hc₃ ↦ hc₃.congr rfl rfl

end Steps

/-- A call that serves keeps all that can be seen in the local tiers backed, whatever it goes on
with. -/
theorem Serves.safe (hfronts : Served fronts) {m : Marked Trace α} (hm : Serves fronts x m)
    (me : Nat) (f : α → Marked Trace β)
    (hf : ∀ a h log, Traced fronts h log → Marked.Safe (Traced fronts) me (f a) h log)
    {h : Heap} {log : Log Trace} (hc : Traced fronts h log) :
    Marked.Safe (Traced fronts) me (m.bind f) h log := by
  induction hm generalizing h log me β with
  | done a => exact hf a h log hc
  | crash => exact hc.congr rfl rfl
  | get hfront _ ih =>
    rw [notedGet, notedRead_bind]
    exact hc.safe_read hfronts hfront (hfronts.population_ne_zero hfront) (Nat.le_refl _)
      (fun a h' log' hc' ↦ ih a me f hf hc') fun e h' log' hc' ↦ ih _ me f hf hc'
  | contains _ ih =>
    exact Marked.Safe.of_atOnce hc.contains (fun a h' hc' ↦ ih a me f hf hc')
      fun h' hc' ↦ hc'.congr rfl rfl
  | set hfront _ ih =>
    rw [notedSet_bind]
    exact hc.safe_set hfronts hfront fun a h' log' hc' ↦ ih a me f hf hc'
  | del hfront _ ih =>
    rw [notedDel_bind]
    exact hc.safe_del hfront fun a h' log' hc' ↦ ih a me f hf hc'
  | @getOrSet _ front key ttl fetch k hfront _ _ ihfetch ih =>
    obtain ⟨hpositive, hshort⟩ := hfronts.populationFor hfront ttl
    rw [notedGetOrSet, notedRead_bind]
    refine hc.safe_read hfronts hfront hpositive hshort
      (fun a h' log' hc' ↦ ih a me f hf hc') fun e h' log' hc' ↦ ?_
    refine ⟨hc', fun i h'' log'' hc'' _ ↦ ?_, fun o h'' log'' hc'' _ ↦ ih o me f hf hc''⟩
    exact hc''.safe_fill hfronts hfront fun g h₃ log₃ hg hc₃ ↦ ihfetch i g hg hc₃
  | @close _ near k _ ih =>
    have hclose : near.tier.close.AtOnce me h (fun _ h' ↦ Traced fronts h' log) fun _ ↦ False := by
      change (Call.onLocal near.cache fun _ c ↦ ((.ok () : Answer Unit), c.close)).AtOnce me h _ _
      exact Call.AtOnce.onLocal (hc.fades (fades_close near.cache))
    exact Marked.Safe.of_atOnce hclose (fun a h' hc' ↦ ih a me f hf hc') fun _ hfail ↦ hfail.elim
  | store _ ih =>
    exact Marked.Safe.of_atOnce hc.onStore (fun a h' hc' ↦ ih a me f hf hc')
      fun h' hc' ↦ hc'.congr rfl rfl
  | pop _ ih =>
    refine ⟨hc, fun h' log' hc' _ ↦ ?_⟩
    have hstore : ∀ s y, Traced fronts { h' with tiers := h'.tiers.setStore s y } log' :=
      fun s y ↦ hc'.fades (fades_of_localTier rfl fun _ ↦ rfl)
    exact ⟨fun _ _ ↦ ih _ me f hf (hstore _ _), fun _ _ ↦ ih _ me f hf (hstore _ _),
      fun _ ↦ hstore _ _, ih _ me f hf hc'⟩
  | look _ ih =>
    exact Marked.Safe.of_atOnce (F := fun _ ↦ False) (Call.AtOnce.look hc)
      (fun b h' hc' ↦ ih b me f hf hc') fun _ hfail ↦ hfail.elim
  | elsewhere hfades _ ih =>
    exact Marked.Safe.of_atOnce (P := fun _ h' ↦ Traced fronts h' log) (F := fun _ ↦ False)
      (Call.AtOnce.atomically (hc.fades (hfades h))) (fun b h' hc' ↦ ih b me f hf hc')
      fun _ hfail ↦ hfail.elim
  | pause _ ih => exact ⟨hc, fun h' log' hc' _ ↦ ih me f hf hc'⟩
  | sleep _ ih => exact ⟨hc, fun h' log' hc' _ ↦ ih me f hf hc'⟩
  | join _ _ ihfill ih =>
    refine ⟨hc, fun i h' log' hc' _ ↦ ?_, fun o h' log' hc' _ ↦ ih o me f hf hc'⟩
    have hsafe := ihfill i .done (fun a h'' log'' hc'' ↦ hc''.congr rfl rfl) hc'
    rwa [Marked.bind_done] at hsafe
  | acquire _ ih =>
    refine ⟨hc, fun h' log' hc' _ ↦ ?_⟩
    have henqueued : ∀ m, Traced fronts (h'.enqueue m me) log' := fun m ↦
      hc'.congr (Heap.now_enqueue h' m me) (Heap.tiers_enqueue h' m me)
    exact ⟨henqueued _, fun _ ↦ ih me f hf (henqueued _)⟩
  | release _ ih => exact ih me f hf (hc.congr rfl rfl)
  | loopEnd _ ih =>
    exact ⟨hc, fun h' log' hc' _ ↦ ⟨fun _ ↦ ih true me f hf hc', fun _ ↦ ih false me f hf hc'⟩⟩

/-- Tasks use the hybrid tiers and the store, and may be cancelled. -/
def serving (fronts : Front → Prop) (x : StoreHandle) (ρ : Type) : Play.Rules Trace ρ :=
  ⟨Serves fronts x, [], True⟩

theorem keep_serving (hfronts : Served fronts) (ρ : Type) :
    (serving fronts x ρ).Keep (Traced fronts) where
  kept := kept_traced
  aborts _ _ _ _ hc := hc.congr rfl rfl
  opens hm := hm.opens
  safe hm i h log hc _ := by
    have hsafe := hm.safe hfronts i .done (fun a h' log' hc' ↦ hc'.congr rfl rfl) hc
    rwa [Marked.bind_done] at hsafe

/-- Through any steps of any tasks that use some hybrid tiers over a store, and this store directly,
the local tiers being empty at first: whatever a hybrid tier answers from its local tier at a moment
is accounted for by what happened before. Since it removed the key last, it either stored the value
itself, for a span that is not over or for ever, or the store showed the value as the text of the
key less than the span of the population ago. The operations that the tasks use are those of the
hybrid tiers, marks aside. -/
theorem answers_accounted {ρ : Type} {now : Nat} {tiers : Tiers} {p : Play Trace ρ}
    (hfronts : Served fronts)
    (hempty : ∀ front, fronts front → (tiers.localTier front.near.cache).table = .empty)
    (hp : Play.Reachable (serving fronts x ρ) (Play.opening now tiers []) p) {front : Front}
    (hfront : fronts front) {newer older : Log Trace} {th : Nat} {key v : String} {t : Nat}
    (hlog : p.log = newer ++ (th, .answered front key v t) :: older) :
    (traced front x).Links ∧ Accounted front older key v t := by
  have hnone : ∀ front, fronts front → ∀ key,
      (tiers.localTier front.near.cache).view now key = none := by
    intro front hfront key
    unfold LocalCache.view
    rw [hempty front hfront]
    rfl
  refine ⟨(traced front x).links, ?_⟩
  have htraced := (hp.sound (keep_serving hfronts ρ) (Play.sound_opening
    ⟨fun front hfront _ key ↦ hnone front hfront key, fun front hfront key u e hview ↦ ?_,
      fun _ _ newer _ _ _ _ _ hnil ↦ ?_⟩)).inv
  · exact htraced.answers front hfront newer th key v t older hlog
  · change (tiers.localTier front.near.cache).view now key = some (u, e) at hview
    rw [hnone front hfront key] at hview
    cases hview
  · cases newer <;> cases hnil

/-- Of two hybrid tiers over a store the first takes a copy of what the second wrote. Within the
span of the population it still answers that, although the second has written another value
since. -/
theorem answers_accounted_of_overwritten :
    let first : Front := ⟨0, ⟨0, 0⟩, 1, { (default : HybridSettings) with populationSecs := 2 }⟩
    let second : Front := ⟨1, ⟨1, 2⟩, 3, { (default : HybridSettings) with populationSecs := 2 }⟩
    let x : StoreHandle := ⟨0, 4⟩
    let cache := LocalCache.create ⟨fun _ ↦ 0, id⟩ ⟨1, .random, 1⟩
    let opening : Play Trace Unit := .opening 0
      (((Tiers.empty.setLocal 0 cache).setLocal 1 cache).setStore 0 default) []
    let code : Marked Trace Unit := notedSet (traced second x) "k" "v" 0 fun _ ↦
      notedGet (traced first x) "k" fun _ ↦ notedSet (traced second x) "k" "w" 0 fun _ ↦ .pause <|
        notedGet (traced first x) "k" fun _ ↦ .done ()
    let paused := (opening.apply (.spawn [] code)).apply (.run (.task 0))
    let ended := (paused.apply (.advance (Clock.secs 1))).apply (.run (.task 0))
    let older : Log Trace := [(0, .stored second "k" ⟨"w", 0, 0⟩), (0, .shown "k" (some "v") 0),
      (0, .stored second "k" ⟨"v", 0, 0⟩)]
    Play.Reachable (serving (· ∈ [first, second]) x Unit) opening ended ∧
      ended.log = (0, .answered first "k" "v" (Clock.secs 1)) :: older ∧
      Accounted first older "k" "v" (Clock.secs 1) := by
  intro first second x cache opening code paused ended older
  have hfirst : first ∈ [first, second] := List.mem_cons_self
  have hsecond : second ∈ [first, second] := List.mem_cons_of_mem _ List.mem_cons_self
  have hcode : Serves (· ∈ [first, second]) x code :=
    .set hsecond fun _ ↦ .get hfirst fun _ ↦ .set hsecond fun _ ↦ .pause <|
      .get hfirst fun _ ↦ .done ()
  have hspawned : Play.Reachable (serving (· ∈ [first, second]) x Unit) opening _ :=
    .move (.spawn [] code) hcode .start
  have hpaused : Play.Reachable (serving (· ∈ [first, second]) x Unit) opening paused :=
    .move _ ⟨0, by decide⟩ hspawned
  have hended : Play.Reachable (serving (· ∈ [first, second]) x Unit) opening ended :=
    .move _ ⟨1, by decide⟩ (.move (.advance (Clock.secs 1)) trivial hpaused)
  have hlog : ended.log = (0, .answered first "k" "v" (Clock.secs 1)) :: older := by decide
  have hapart : ∀ f ∈ [first, second], ∀ g ∈ [first, second],
      f.near.cache = g.near.cache → f = g := by decide
  have hserved : Served (· ∈ [first, second]) :=
    ⟨fun f g hf hg ↦ hapart f hf g hg, by decide⟩
  have hlog' : ended.log = [] ++ (0, .answered first "k" "v" (Clock.secs 1)) :: older := hlog
  refine ⟨hended, hlog, (answers_accounted hserved (fun f hf ↦ ?_) hended hfirst hlog').2⟩
  rcases List.mem_cons.mp hf with rfl | hf
  · rfl
  · rw [List.mem_singleton.mp hf]
    rfl

end Hybrid

end TwoTier
