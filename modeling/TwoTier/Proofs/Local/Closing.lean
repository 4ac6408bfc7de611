import TwoTier.Proofs.Fetch.Reading

/-!
# Calls that deal with one local tier

`LocalCache.Sealing` says what becomes of a tier that is closed, or is being closed, as long as no
fill stores its value: it stays closed, loses entries at most, and is empty when it has just been
closed.

`LocalHandle.Deals` is a call put together from the operations of the contract on handles of the
tier, from waits, and from code that leaves the tier alone. A step of such a call seals the tier,
and starts a fill of the tier only where the tier is open (`LocalHandle.Deals.minds`,
`LocalHandle.Minds.exec`). The step of a fill of the tier does the same, unless it is the one in
which the fill stores its value (`LocalHandle.Fetching.exec`).
-/

set_option autoImplicit false
set_option relaxedAutoImplicit false

namespace TwoTier

/-! ### Tables that lose entries -/

/-- The second table holds no key that the first does not hold. -/
structure Table.Thinned (t t' : Table) : Prop where
  get? : ∀ key, t.get? key = none → t'.get? key = none
  empty : t = .empty → t' = .empty

namespace Table

theorem Thinned.refl (t : Table) : t.Thinned t := ⟨fun _ h ↦ h, id⟩

theorem Thinned.trans {t t' t'' : Table} (h : t.Thinned t') (h' : t'.Thinned t'') :
    t.Thinned t'' :=
  ⟨fun key hkey ↦ h'.get? key (h.get? key hkey), fun hempty ↦ h'.empty (h.empty hempty)⟩

theorem thinned_empty (t : Table) : t.Thinned .empty := ⟨fun _ _ ↦ rfl, fun _ ↦ rfl⟩

theorem thinned_remove (t : Table) (key : String) : t.Thinned (t.remove key) where
  get? j hj := by
    rw [get?_remove]
    split_ifs
    · rfl
    · exact hj
  empty hempty := by
    rw [hempty]
    exact remove_of_get?_eq_none (get?_empty key)

theorem thinned_removeAll (t : Table) (gone : List String) : t.Thinned (t.removeAll gone) := by
  induction gone generalizing t with
  | nil => exact .refl t
  | cons key gone ih =>
    rw [removeAll_cons]
    exact (t.thinned_remove key).trans (ih _)

end Table

namespace LocalCache

/-- What becomes of a tier while no fill stores a value: once it is closed it stays so and loses
entries at most, and it is empty when it has just been closed. -/
structure Sealing (c c' : LocalCache) : Prop where
  stays : c.closed = true → c'.closed = true ∧ c.table.Thinned c'.table
  closes : c.closed = false → c'.closed = true → c'.table = .empty

namespace Sealing

variable {c c' c'' : LocalCache}

theorem refl (c : LocalCache) : Sealing c c where
  stays hclosed := ⟨hclosed, .refl _⟩
  closes hopen hclosed := by
    rw [hopen] at hclosed
    exact absurd hclosed Bool.false_ne_true

theorem trans (h : Sealing c c') (h' : Sealing c' c'') : Sealing c c'' where
  stays hclosed := by
    obtain ⟨hclosed', hthin⟩ := h.stays hclosed
    obtain ⟨hclosed'', hthin'⟩ := h'.stays hclosed'
    exact ⟨hclosed'', hthin.trans hthin'⟩
  closes hopen hclosed := by
    cases hmid : c'.closed with
    | false => exact h'.closes hmid hclosed
    | true => exact (h'.stays hmid).2.empty (h.closes hopen hmid)

/-- Nothing is to be said of a tier that stays open. -/
theorem of_open (hopen : c.closed = false) (hopen' : c'.closed = false) : Sealing c c' where
  stays hclosed := by
    rw [hopen] at hclosed
    exact absurd hclosed Bool.false_ne_true
  closes _ hclosed := by
    rw [hopen'] at hclosed
    exact absurd hclosed Bool.false_ne_true

theorem close (c : LocalCache) : Sealing c c.close where
  stays _ := ⟨rfl, c.table.thinned_empty⟩
  closes _ _ := rfl

theorem drop (c : LocalCache) (key : String) : Sealing c (c.drop key) where
  stays hclosed := ⟨hclosed, c.table.thinned_remove key⟩
  closes hopen hclosed := by
    rw [closed_drop, hopen] at hclosed
    exact absurd hclosed Bool.false_ne_true

end Sealing

/-- An insertion that cannot go on has made room at most. -/
theorem thinned_insert_of_overflow {now ttl : Nat} {key value : String} {c : LocalCache}
    (h : (insert now key value ttl c).1 = .overflow) :
    c.table.Thinned (insert now key value ttl c).2.table := by
  have hplace : ∀ c' : LocalCache, (place now key value ttl c').1 = .overflow →
      (place now key value ttl c').2 = c' := by
    intro c' hc'
    unfold place at hc' ⊢
    cases hcreate : Entry.create? now value ttl with
    | none => rfl
    | some e =>
      rw [hcreate] at hc'
      exact absurd hc' nofun
  unfold insert at h ⊢
  split at h
  · split at h
    · exact .refl _
    · exact absurd h nofun
  · split at h
    · obtain ⟨gone, htable⟩ := exists_table_makeRoom now key c
      split at h
      · exact absurd h nofun
      · rename_i c' hroom
        rw [hroom] at htable
        rename_i hfull _
        rw [if_pos hfull, hplace c' h]
        exact htable ▸ c.table.thinned_removeAll gone
    · rename_i hroom
      rw [if_neg hroom, hplace c h]
      exact .refl _

theorem Sealing.insert_of_overflow {now ttl : Nat} {key value : String} {c : LocalCache}
    (h : (insert now key value ttl c).1 = .overflow) :
    Sealing c (insert now key value ttl c).2 where
  stays hclosed := ⟨(closed_insert ..).trans hclosed, thinned_insert_of_overflow h⟩
  closes hopen hclosed := by
    rw [closed_insert, hopen] at hclosed
    exact absurd hclosed Bool.false_ne_true

end LocalCache

namespace LocalHandle

/-! ### What may be done to a tier -/

/-- Whether the tier has been closed. -/
def Closed (l : LocalHandle) (h : Heap) : Prop := (h.tiers.localTier l.cache).closed = true

/-- The calls that deal with a tier through the operations of the contract only. Otherwise they may
do whatever they like, and so may the fetches that they hand over. -/
inductive Deals (l : LocalHandle) : {α : Type} → Call α → Prop
  | done {α : Type} (a : α) : Deals l (.done a)
  | crash {α : Type} : Deals l (.crash : Call α)
  | bind {α β : Type} {c : Call α} {f : α → Call β} (hc : Deals l c) (hf : ∀ a, Deals l (f a)) :
      Deals l (c.bind f)
  | get (key : String) : Deals l (l.tier.get key)
  | contains (key : String) : Deals l (l.tier.contains key)
  | set (key value : String) (ttl : Nat) : Deals l (l.tier.set key value ttl)
  | del (key : String) : Deals l (l.tier.del key)
  | getOrSet (key : String) (ttl : Nat) {fetch : Fetch} (hfetch : Deals l fetch) :
      Deals l (l.tier.getOrSet key ttl fetch)
  | close : Deals l l.tier.close
  /-- It reads whatever it likes. -/
  | look {α : Type} (f : Heap → α) : Deals l (Call.look f)
  /-- It changes whatever it likes elsewhere. -/
  | elsewhere {α : Type} (f : Heap → α × Tiers)
      (hf : ∀ h, (f h).2.localTier l.cache = h.tiers.localTier l.cache) :
      Deals l (Call.atomically f)
  | pause : Deals l (.pause (.done ()))
  | sleep (wake : Option Nat) : Deals l (.sleep wake (.done ()))
  | pop (store : Nat) (keys : List String) (deadline : Option Nat) :
      Deals l (.pop store keys deadline none .done)
  | fillOnce {guard : Nat} (hguard : guard ≠ l.guard) (key : String) {fill : Call (Answer String)}
      (hfill : Deals l fill) : Deals l (Call.fillOnce guard key fill)
  | lock (m : Lock) : Deals l (Call.lock m)
  | unlock (m : Lock) : Deals l (Call.unlock m)
  | loopEnd (loop : Nat) (deadline : Option Nat) : Deals l (.loopEnd loop deadline .done)

/-- Each step of a call seals the tier, and asks for a fill of the tier only where it is open. -/
def Minds (l : LocalHandle) {α : Type} : Call α → Heap → Prop
  | .done _, _ => True
  | .crash, _ => True
  | .read k, h => l.Minds (k h) h
  | .write t k, h =>
    (h.tiers.localTier l.cache).Sealing (t.localTier l.cache) ∧ l.Minds k { h with tiers := t }
  | .pause k, _ => ∀ h, l.Minds k h
  | .sleep _ k, _ => ∀ h, l.Minds k h
  | .pop _ _ _ _ k, _ => ∀ a h, l.Minds (k a) h
  | .join g key fill k, h =>
    (g = l.guard → ¬ l.Closed h ∧ ∃ ttl fetch, l.Deals fetch ∧ fill = l.fill key ttl fetch) ∧
      (g ≠ l.guard → ∀ h, l.Minds fill h) ∧ ∀ a h, l.Minds (k a) h
  | .await _ k, _ => ∀ a h, l.Minds (k a) h
  | .acquire _ k, _ => ∀ h, l.Minds k h
  | .release _ k, _ => ∀ h, l.Minds k h
  | .loopEnd _ _ k, _ => ∀ b h, l.Minds (k b) h

variable {l : LocalHandle} {α β : Type}

theorem Minds.bind {c : Call α} {f : α → Call β} {h : Heap} (hc : l.Minds c h)
    (hf : ∀ a h, l.Minds (f a) h) : l.Minds (c.bind f) h := by
  induction c generalizing h with
  | done a => exact hf a h
  | crash => trivial
  | read k ih => exact ih h hc hf
  | write t k ih => exact ⟨hc.1, ih hc.2 hf⟩
  | pause k ih => exact fun h ↦ ih (hc h) hf
  | sleep wake k ih => exact fun h ↦ ih (hc h) hf
  | pop s keys deadline seen k ih => exact fun a h ↦ ih a (hc a h) hf
  | join g key fill k _ ih => exact ⟨hc.1, hc.2.1, fun a h ↦ ih a (hc.2.2 a h) hf⟩
  | await i k ih => exact fun a h ↦ ih a (hc a h) hf
  | acquire m k ih => exact fun h ↦ ih (hc h) hf
  | release m k ih => exact fun h ↦ ih (hc h) hf
  | loopEnd r deadline k ih => exact fun b h ↦ ih b (hc b h) hf

theorem minds_discard {c : Call α} {h : Heap} (hc : l.Minds c h) :
    l.Minds (discard c : Call Unit) h :=
  Minds.bind (f := fun _ ↦ .done ()) hc fun _ _ ↦ trivial

theorem minds_whenOpen {call : Call (Answer α)} {h : Heap} (hcall : ¬ l.Closed h → l.Minds call h) :
    l.Minds (l.whenOpen call) h := by
  change l.Minds (if (h.tiers.localTier l.cache).closed then _ else call) h
  split_ifs with hclosed
  · trivial
  · exact hcall hclosed

/-- A look-up in an open tier, and what the call does next. -/
theorem minds_lookup {key : String} {f : Option String → Call β} {h : Heap} (hopen : ¬ l.Closed h)
    (hf : ∀ r h', ¬ l.Closed h' → l.Minds (f r) h') : l.Minds ((l.lookup key).bind f) h := by
  have hopen' : (h.tiers.localTier l.cache).closed = false := eq_false_of_ne_true hopen
  have hlookup : (LocalCache.lookup h.now key (h.tiers.localTier l.cache)).2.closed = false := by
    rw [LocalCache.closed_lookup]
    exact hopen'
  have hset := Tiers.localTier_setLocal h.tiers l.cache l.cache
    (LocalCache.lookup h.now key (h.tiers.localTier l.cache)).2
  rw [if_pos rfl] at hset
  refine ⟨?_, hf _ _ ?_⟩
  · rw [hset]
    exact .of_open hopen' hlookup
  · rw [Closed, hset, hlookup]
    exact Bool.false_ne_true

/-- An operation that seals the tier in one step. -/
theorem minds_onLocal {op : Nat → LocalCache → α × LocalCache} {h : Heap}
    (hop : (h.tiers.localTier l.cache).Sealing (op h.now (h.tiers.localTier l.cache)).2) :
    l.Minds (Call.onLocal l.cache op) h := by
  have hset := Tiers.localTier_setLocal h.tiers l.cache l.cache
    (op h.now (h.tiers.localTier l.cache)).2
  rw [if_pos rfl] at hset
  refine ⟨?_, trivial⟩
  rw [hset]
  exact hop

theorem minds_insert (key value : String) (ttl : Nat) {h : Heap} (hopen : ¬ l.Closed h) :
    l.Minds (l.insert key value ttl) h := by
  refine Minds.bind (minds_onLocal (.of_open (eq_false_of_ne_true hopen) ?_)) fun r h' ↦ ?_
  · rw [LocalCache.closed_insert]
    exact eq_false_of_ne_true hopen
  · cases r <;> trivial

/-- What a call does that deals with the tier by the contract. -/
theorem Deals.minds {c : Call α} (hc : l.Deals c) (h : Heap) : l.Minds c h := by
  induction hc generalizing h with
  | done a => trivial
  | crash => trivial
  | bind _ _ ihc ihf => exact (ihc h).bind ihf
  | get key =>
    refine minds_whenOpen fun hopen ↦ minds_lookup hopen fun r h' _ ↦ ?_
    cases r <;> trivial
  | contains key => exact minds_whenOpen fun _ ↦ trivial
  | set key value ttl =>
    exact minds_whenOpen fun hopen ↦
      (minds_discard (minds_insert key value ttl hopen)).bind fun _ _ ↦ trivial
  | del key =>
    exact minds_whenOpen fun _ ↦
      (minds_discard (minds_onLocal (.drop _ key))).bind fun _ _ ↦ trivial
  | getOrSet key ttl hfetch =>
    refine minds_whenOpen fun hopen ↦ minds_lookup hopen fun r h' hopen' ↦ ?_
    cases r with
    | some v => trivial
    | none =>
      exact ⟨fun _ ↦ ⟨hopen', ttl, _, hfetch, rfl⟩, fun hne ↦ absurd rfl hne, fun _ _ ↦ trivial⟩
  | close =>
    let op (_ : Nat) (c : LocalCache) : Answer Unit × LocalCache := (.ok (), c.close)
    have hop : (h.tiers.localTier l.cache).Sealing (op h.now (h.tiers.localTier l.cache)).2 :=
      .close _
    exact minds_onLocal hop
  | look f => trivial
  | elsewhere f hf =>
    refine ⟨?_, trivial⟩
    rw [hf]
    exact .refl _
  | pause => exact fun _ ↦ trivial
  | sleep wake => exact fun _ ↦ trivial
  | pop store keys deadline => exact fun _ _ ↦ trivial
  | fillOnce hguard key hfill ih =>
    exact ⟨fun heq ↦ absurd heq hguard, fun _ ↦ ih, fun _ _ ↦ trivial⟩
  | lock m => exact fun _ ↦ trivial
  | unlock m => exact fun _ ↦ trivial
  | loopEnd loop deadline => exact fun _ _ ↦ trivial

/-! ### Fills of the tier -/

/-- What a fill of the tier does when its fetch has ended. -/
def settled (l : LocalHandle) (key : String) (ttl : Nat) : Answer String → Call (Answer String)
  | .ok v => do
    discard (l.insert key v ttl)
    return .ok v
  | .error f => return .error f

theorem fill_eq_bind (l : LocalHandle) (key : String) (ttl : Nat) (fetch : Fetch) :
    l.fill key ttl fetch = (Call.fetched fetch).bind (l.settled key ttl) :=
  congrArg (Call.bind _) (funext fun a ↦ by cases a <;> rfl)

/-- A fill of the tier that has not ended: its fetch is under way. -/
def Fetching (l : LocalHandle) (key : String) (code : Call (Answer String)) : Prop :=
  ∃ ttl, ∃ c : Call (Answer String), (∀ h, l.Minds c h) ∧ code = c.bind (l.settled key ttl)

/-- What a fill may do: fetch, where it is one of the tier, and else what any call does. -/
structure Proper (l : LocalHandle) (f : Fill) : Prop where
  own : f.guard = l.guard → l.Fetching f.key f.code
  other : f.guard ≠ l.guard → ∀ h, l.Minds f.code h

theorem fetching_fill (key : String) (ttl : Nat) {fetch : Fetch} (hfetch : l.Deals fetch) :
    l.Fetching key (.pause (l.fill key ttl fetch)) := by
  refine ⟨ttl, .pause (Call.fetched fetch), fun _ h ↦ ?_, ?_⟩
  · refine (hfetch.minds h).bind fun a h' ↦ ?_
    cases a <;> trivial
  · exact congrArg Call.pause (l.fill_eq_bind key ttl fetch)

/-! ### The steps of a call -/

/-- What a step of a call comes to: it has sealed the tier, and has started a fill of the tier only
where it has left it open. -/
structure Sealed (l : LocalHandle) (h : Heap) (p : Progress α) : Prop where
  tier : (h.tiers.localTier l.cache).Sealing (p.heap.tiers.localTier l.cache)
  fills : ∀ f ∈ p.fills, l.Proper f ∧ (f.guard = l.guard → ¬ l.Closed p.heap)

theorem Sealed.after {h h' : Heap} {p : Progress α} (hp : l.Sealed h' p)
    (htier : (h.tiers.localTier l.cache).Sealing (h'.tiers.localTier l.cache)) : l.Sealed h p :=
  ⟨htier.trans hp.tier, hp.fills⟩

theorem sealed_nil (h : Heap) (c : Call α) : l.Sealed h ⟨h, [], c⟩ :=
  ⟨.refl _, fun _ hf ↦ absurd hf List.not_mem_nil⟩

/-- A step seals the tier, and leaves a call that goes on to do so from any heap. -/
theorem Minds.exec {c : Call α} {h : Heap} (hc : l.Minds c h) (me : Nat) :
    l.Sealed h (c.exec me h []) ∧ ∀ h', l.Minds (c.exec me h []).rest h' := by
  induction c generalizing h with
  | done a => exact ⟨sealed_nil h _, fun _ ↦ trivial⟩
  | crash => exact ⟨sealed_nil h _, fun _ ↦ trivial⟩
  | read k ih => exact ih h hc
  | write t k ih => exact (ih hc.2).imp_left fun hp ↦ hp.after hc.1
  | pause k => exact ⟨sealed_nil h _, fun _ ↦ hc⟩
  | sleep wake k ih =>
    simp only [Call.exec]
    split_ifs
    · exact ih (hc h)
    · exact ⟨sealed_nil h _, fun _ ↦ hc⟩
  | pop s keys deadline seen k ih =>
    simp only [Call.exec]
    split_ifs
    · exact ih _ (hc _ h)
    · exact ⟨sealed_nil h _, fun _ ↦ hc⟩
    · split <;> exact (ih _ (hc _ _)).imp_left fun hp ↦ hp.after (.refl _)
    · split
      · exact (ih _ (hc _ _)).imp_left fun hp ↦ hp.after (.refl _)
      · exact (ih _ (hc _ _)).imp_left fun hp ↦ hp.after (.refl _)
      · exact ⟨(sealed_nil _ _).after (.refl _), fun _ ↦ hc⟩
  | join g key fill k =>
    obtain ⟨hown, hother, hk⟩ := hc
    cases hi : (h.guard g).inFlight[key]? with
    | some i =>
      simp only [Call.exec, hi]
      exact ⟨(sealed_nil _ _).after (.refl _), fun _ ↦ hk⟩
    | none =>
      simp only [Call.exec, hi]
      refine ⟨⟨.refl _, fun f hf ↦ ?_⟩, fun _ ↦ hk⟩
      rw [List.nil_append, List.mem_singleton] at hf
      rw [hf]
      refine ⟨⟨fun hg ↦ ?_, fun hg h' ↦ ?_⟩, fun hg ↦ (hown hg).1⟩
      · obtain ⟨-, ttl, fetch, hfetch, rfl⟩ := hown hg
        exact fetching_fill key ttl hfetch
      · exact hother hg
  | await i k => exact ⟨sealed_nil h _, fun _ ↦ hc⟩
  | acquire m k ih =>
    have htier : (h.tiers.localTier l.cache).Sealing
        ((h.enqueue m me).tiers.localTier l.cache) := by
      rw [Heap.tiers_enqueue]
      exact .refl _
    simp only [Call.exec]
    split_ifs
    · exact (ih (hc _)).imp_left fun hp ↦ hp.after htier
    · exact ⟨(sealed_nil _ _).after htier, fun _ ↦ hc⟩
  | release m k ih => exact (ih (hc _)).imp_left fun hp ↦ hp.after (.refl _)
  | loopEnd r deadline k ih =>
    simp only [Call.exec]
    split_ifs
    · exact ih _ (hc _ h)
    · exact ih _ (hc _ h)
    · exact ⟨sealed_nil h _, fun _ ↦ hc⟩

/-- What a call goes on with when its wait is over. -/
theorem Minds.resume {ρ : Type} (w : World ρ) {c : Call α} (hc : ∀ h, l.Minds c h) (h : Heap) :
    l.Minds (w.resume c) h := by
  cases c with
  | pause k => exact hc h h
  | await i k =>
    unfold World.resume
    dsimp only
    split
    · exact hc h _ h
    · exact hc h
  | _ => exact hc h

/-! ### The step of a fill of the tier -/

/-- What the step of a fill of the tier comes to: its fetch goes on or fails, or it stores its
value and ends with it. -/
inductive Filled (l : LocalHandle) (key : String) (h : Heap) : Progress (Answer String) → Prop
  | sealed {p : Progress (Answer String)} (hp : l.Sealed h p)
      (hrest : p.rest.conclusion? = none → l.Fetching key p.rest) : Filled l key h p
  | stored {h' : Heap} {ttl : Nat} {v : String} {c : LocalCache}
      (htier : (h.tiers.localTier l.cache).Sealing c)
      (hinsert : h'.tiers.localTier l.cache = (LocalCache.insert h'.now key v ttl c).2) :
      Filled l key h ⟨h', [], .done (.ok v)⟩

/-- A value is stored in one step, unless its deadline lies beyond the clock. -/
theorem halt_settled_ok (l : LocalHandle) (key v : String) (ttl me : Nat) (h : Heap) :
    let r := LocalCache.insert h.now key v ttl (h.tiers.localTier l.cache)
    (l.settled key ttl (.ok v)).halt me h =
      ({ h with tiers := h.tiers.setLocal l.cache r.2 },
        if r.1 = .overflow then .crash else .done (.ok v)) := by
  intro r
  have hinsert : (l.insert key v ttl).halt me h =
      ({ h with tiers := h.tiers.setLocal l.cache r.2 },
        if r.1 = .overflow then .crash
        else .done (decide (r.1 = .added ∨ r.1 = .updated))) := by
    change (Call.bind _ _).halt me h = _
    rw [Call.halt_bind_of_done (Call.halt_onLocal me l.cache _ h)]
    dsimp only [r]
    cases (LocalCache.insert h.now key v ttl (h.tiers.localTier l.cache)).1 <;> rfl
  change (Call.bind (Call.bind _ _) _).halt me h = _
  split_ifs at hinsert ⊢ with hoverflow
  · rw [Call.bind_assoc, Call.halt_bind_of_crash hinsert]
  · rw [Call.bind_assoc, Call.halt_bind_of_done hinsert]
    rfl

/-- A wait for a fill begins alike whatever the call does afterwards. -/
theorem enter_bind {c : Call α} (hc : ∀ a, c ≠ .done a) (h : Heap)
    (f : α → Call β) : Call.enter [] (h, c.bind f) =
      ⟨(Call.enter [] (h, c)).heap, (Call.enter [] (h, c)).fills,
        (Call.enter [] (h, c)).rest.bind f⟩ := by
  cases c with
  | done a => exact absurd rfl (hc a)
  | join g key fill k =>
    cases hi : (h.guard g).inFlight[key]? <;> simp only [Call.bind, Call.enter, hi]
  | _ => rfl

theorem Fetching.exec {key : String} {code : Call (Answer String)} (hcode : l.Fetching key code)
    {ρ : Type} (w : World ρ) (me : Nat) :
    l.Filled key w.heap ((w.resume code).exec me w.heap []) := by
  obtain ⟨ttl, c, hc, rfl⟩ := hcode
  have hresume : w.resume (c.bind (l.settled key ttl)) =
      (w.resume c).bind (l.settled key ttl) := by
    cases c with
    | done a => cases a <;> rfl
    | await i k =>
      simp only [Call.bind, World.resume]
      cases w.outcomes[i]? <;> rfl
    | _ => rfl
  obtain ⟨hsealed, hrest⟩ := (Minds.resume w hc w.heap).exec me
  rw [hresume, Call.exec_eq_enter, Call.halt_bind]
  rw [Call.exec_eq_enter] at hsealed hrest
  generalize (w.resume c).halt me w.heap = halted at hsealed hrest
  obtain ⟨h', c'⟩ := halted
  by_cases hdone : ∃ a, c' = .done a
  · obtain ⟨a, rfl⟩ := hdone
    change l.Filled key w.heap (Call.enter [] ((l.settled key ttl a).halt me h'))
    have htier : (w.heap.tiers.localTier l.cache).Sealing (h'.tiers.localTier l.cache) :=
      hsealed.tier
    cases a with
    | error f => exact .sealed ((sealed_nil h' _).after htier) fun hnone ↦ by cases hnone
    | ok v =>
      have hset := Tiers.localTier_setLocal h'.tiers l.cache l.cache
        (LocalCache.insert h'.now key v ttl (h'.tiers.localTier l.cache)).2
      rw [if_pos rfl] at hset
      rw [halt_settled_ok]
      split_ifs with hoverflow
      · refine .sealed ⟨?_, fun f hf ↦ absurd hf List.not_mem_nil⟩ fun hnone ↦ by cases hnone
        refine htier.trans ?_
        change LocalCache.Sealing _ ((h'.tiers.setLocal l.cache _).localTier l.cache)
        rw [hset]
        exact .insert_of_overflow hoverflow
      · exact .stored htier hset
  · have hne : ∀ a, c' ≠ .done a := fun a ha ↦ hdone ⟨a, ha⟩
    have hthen : Call.haltThen me (l.settled key ttl) (h', c') =
        (h', c'.bind (l.settled key ttl)) := by
      cases c' <;> first | rfl | exact absurd rfl (hne _)
    rw [hthen, enter_bind hne]
    exact .sealed ⟨hsealed.tier, hsealed.fills⟩ fun _ ↦ ⟨ttl, _, hrest, rfl⟩

end LocalHandle

end TwoTier
