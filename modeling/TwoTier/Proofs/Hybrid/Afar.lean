import TwoTier.Proofs.Hybrid.Notices

/-!
# A hybrid tier over a tier far away

The calls of a tier far away take their time: a call waits before it takes effect, and again before
it is answered, and its answer may be lost (`Travel`). In between it takes effect in one step. All
that is asked of the tier behind (`Far.Atomic`) is that a reading answers what the tier shows at
that step, that a removal leaves nothing to be shown, and that nothing else puts a text there.

What can be read under a key through the hybrid tier is spared by a step (`Spares`) that puts
nothing under it, in the local tier or behind it.
-/

set_option autoImplicit false
set_option relaxedAutoImplicit false

namespace TwoTier

/-- What a call waits for on its way. -/
inductive Wait where
  /-- Others run. -/
  | turn
  /-- A moment comes, or none. -/
  | wake (moment : Option Nat)
  deriving DecidableEq, Repr

/-- A call that waits first. -/
def Call.linger {α : Type} : List Wait → Call α → Call α
  | [], k => k
  | .turn :: ws, k => .pause (linger ws k)
  | .wake moment :: ws, k => .sleep moment (linger ws k)

/-- How a call travels to a tier far away and back. -/
structure Travel where
  /-- What it waits for before it takes effect. -/
  out : List Wait
  /-- What it waits for afterwards, before it is answered. -/
  back : List Wait
  /-- The failure that it is answered where the answer is lost. -/
  lost : Option Fault
  deriving DecidableEq, Repr

namespace Travel

variable {α : Type}

/-- The answer that comes back. -/
def reply (t : Travel) (a : Answer α) : Answer α :=
  match t.lost with
  | some f => .error f
  | none => a

theorem eq_of_reply {t : Travel} {a : Answer α} {b : α} (h : t.reply a = .ok b) : a = .ok b := by
  unfold reply at h
  split at h
  · cases h
  · exact h

/-- A call that takes effect in the middle of its way. -/
def carry (t : Travel) (c : Call (Answer α)) : Call (Answer α) :=
  .linger t.out (c.bind fun a ↦ .linger t.back (.done (t.reply a)))

/-- A tier whose readings and removals travel. -/
def tier (t : Travel) (r : Tier) : Tier :=
  { r with
    get := fun key ↦ t.carry (r.get key)
    del := fun key ↦ t.carry (r.del key) }

end Travel

/-- A marked call that waits first. -/
def Marked.linger {ε α : Type} : List Wait → Marked ε α → Marked ε α
  | [], k => k
  | .turn :: ws, k => .pause (linger ws k)
  | .wake moment :: ws, k => .sleep moment (linger ws k)

theorem Marked.call_linger {ε α : Type} (ws : List Wait) (k : Marked ε α) :
    (linger ws k).call = .linger ws k.call := by
  induction ws with
  | nil => rfl
  | cons w ws ih =>
    cases w with
    | turn => exact congrArg Call.pause ih
    | wake moment => exact congrArg (Call.sleep moment) ih

theorem Marked.linger_bind {ε α β : Type} (ws : List Wait) (k : Marked ε α)
    (f : α → Marked ε β) : (linger ws k).bind f = linger ws (k.bind f) := by
  induction ws with
  | nil => rfl
  | cons w ws ih =>
    cases w with
    | turn => exact congrArg Marked.pause ih
    | wake moment => exact congrArg (Marked.sleep moment) ih

/-- A call that waits is safe where it is safe afterwards, whatever others do meanwhile. -/
theorem Marked.safe_linger {ε α : Type} {I : Heap → Log ε → Prop} {me : Nat} {k : Marked ε α}
    {h : Heap} {l : Log ε} (ws : List Wait) (hi : I h l) (hk : Later I me l (Safe I me k)) :
    Safe I me (linger ws k) h l := by
  induction ws generalizing h l with
  | nil => exact hk.now hi
  | cons w ws ih =>
    have hlater : Later I me l (Safe I me (linger ws k)) := fun h' l' hi' heq ↦
      ih hi' fun h'' l'' hi'' heq' ↦ hk h'' l'' hi'' (heq'.trans heq)
    cases w with
    | turn => exact ⟨hi, hlater⟩
    | wake moment => exact ⟨hi, hlater⟩

/-! ### What can be read -/

/-- The local tier answers a key with a value: it is open, and the value can be seen in it. -/
def Front.Shows (front : Front) (h : Heap) (key v : String) : Prop :=
  (h.tiers.localTier front.near.cache).closed = false ∧
    ∃ e, (h.tiers.localTier front.near.cache).view h.now key = some (v, e)

/-- A tier behind a local one, and the text that it shows under a key. -/
structure Far where
  /-- The tier. -/
  tier : Tier
  /-- The text that can be read under a key. -/
  text : Heap → String → Option String

/-- What can be read under a key after a step could be read before it. -/
structure Spares (front : Front) (far : Far) (key : String) (h h' : Heap) : Prop where
  near : ∀ v, front.Shows h' key v → front.Shows h key v
  far : ∀ u, far.text h' key = some u → far.text h key = some u

/-- Readings and removals of the tier behind take effect in one step each, and nothing but a write
puts a text there. -/
structure Far.Atomic (front : Front) (far : Far) : Prop where
  get : ∀ me h key, (far.tier.get key).AtOnce me h
    (fun a h' ↦ (∀ j, Spares front far j h h') ∧ ∀ v, a = .ok v → far.text h key = some v)
    fun h' ↦ ∀ j, Spares front far j h h'
  del : ∀ me h key, (far.tier.del key).AtOnce me h
    (fun a h' ↦ (∀ j, Spares front far j h h') ∧ (a = .ok () → far.text h' key = none))
    fun h' ↦ ∀ j, Spares front far j h h'
  apart : ∀ h n c, far.text { h with tiers := h.tiers.setLocal n c } = far.text h
  threads : ∀ h h', h'.now = h.now → h'.tiers = h.tiers → far.text h' = far.text h
  clock : ∀ h t key u, h.now ≤ t → far.text { h with now := t } key = some u →
    far.text h key = some u
  loop : ∀ h r n key u, far.text { h with
      tiers :=
        (h.tiers.stepLoop r).setLoop r { (h.tiers.stepLoop r).loop r with since := n } } key =
    some u → far.text h key = some u
  release : ∀ h held key u, far.text { h with tiers := h.tiers.release held } key = some u →
    far.text h key = some u

section Spares

variable {front : Front} {far : Far} {key : String} {h h' : Heap}

theorem shows_of_localTier (hnow : h'.now = h.now)
    (hlocal : h'.tiers.localTier front.near.cache = h.tiers.localTier front.near.cache)
    {v : String} (hv : front.Shows h' key v) : front.Shows h key v := by
  unfold Front.Shows at hv ⊢
  rwa [hnow, hlocal] at hv

/-- One local tier in another state, in which nothing new can be seen under a key. -/
theorem shows_of_setLocal {n : Nat} {c : LocalCache}
    (hclosed : c.closed = (h.tiers.localTier n).closed)
    (hview : ∀ vx, c.view h.now key = some vx → (h.tiers.localTier n).view h.now key = some vx)
    {v : String} (hv : front.Shows { h with tiers := h.tiers.setLocal n c } key v) :
    front.Shows h key v := by
  obtain ⟨hopen, e, he⟩ := hv
  simp only [Tiers.localTier_setLocal] at hopen he
  split_ifs at hopen he with hn
  · rw [hclosed, ← hn] at hopen
    have hbefore := hview _ he
    rw [← hn] at hbefore
    exact ⟨hopen, e, hbefore⟩
  · exact ⟨hopen, e, he⟩

theorem shows_of_drop {n : Nat} {j v : String}
    (hv : front.Shows { h with tiers := h.tiers.setLocal n ((h.tiers.localTier n).drop j) } key v) :
    front.Shows h key v := by
  refine shows_of_setLocal (LocalCache.closed_drop _ _) (fun vx hvx ↦ ?_) hv
  rw [LocalCache.view_drop] at hvx
  split_ifs at hvx
  exact hvx

theorem Spares.refl : Spares front far key h h := ⟨fun _ ↦ id, fun _ ↦ id⟩

namespace Far.Atomic

variable (hfar : far.Atomic front)
include hfar

theorem spares_threads (hnow : h'.now = h.now) (htiers : h'.tiers = h.tiers) :
    Spares front far key h h' where
  near _ := shows_of_localTier hnow (by rw [htiers])
  far u hu := by rwa [hfar.threads h h' hnow htiers] at hu

theorem spares_clock {t : Nat} (hle : h.now ≤ t) : Spares front far key h { h with now := t } where
  near v := by
    rintro ⟨hopen, e, he⟩
    change (h.tiers.localTier front.near.cache).view t key = some (v, e) at he
    rw [LocalCache.view_of_le hle] at he
    exact ⟨hopen, e, (Option.filter_eq_some_iff.mp he).1⟩
  far u := hfar.clock h t key u hle

theorem spares_loop (r n : Nat) : Spares front far key h { h with
    tiers := (h.tiers.stepLoop r).setLoop r { (h.tiers.stepLoop r).loop r with since := n } } where
  near v hv := by
    change (h.tiers.stepLoop r |>.localTier front.near.cache).closed = false ∧
      ∃ e, ((h.tiers.stepLoop r).localTier front.near.cache).view h.now key = some (v, e) at hv
    rcases Tiers.localTier_stepLoop h.tiers r front.near.cache with hlocal | ⟨j, hlocal⟩
    · rwa [hlocal] at hv
    · rw [hlocal] at hv
      obtain ⟨hopen, e, he⟩ := hv
      rw [LocalCache.view_drop] at he
      split_ifs at he
      exact ⟨hopen, e, he⟩
  far u := hfar.loop h r n key u

theorem spares_release (held : List Held) :
    Spares front far key h { h with tiers := h.tiers.release held } where
  near v hv := by
    refine shows_of_localTier ?_ ?_ hv
    · rfl
    · exact Tiers.localTier_release h.tiers held front.near.cache
  far u := hfar.release h held key u

/-- What a local tier answers can be seen in it, and nothing new can be seen afterwards. -/
theorem localHit {c : Hybrid} (hc : c.toFront = front) {me : Nat} {j : String} {F : Heap → Prop} :
    (c.localHit j).AtOnce me h (fun r h' ↦ (∀ key, Spares front far key h h') ∧
      ∀ v, r = some v → front.Shows h j v) F := by
  subst hc
  refine Call.AtOnce.localHit (fun _ ↦ ⟨fun _ ↦ .refl, fun v hv ↦ by cases hv⟩)
    fun hopen ↦ ⟨fun key ↦ ⟨fun v ↦ ?_, fun u hu ↦ ?_⟩, fun v hv ↦ ?_⟩
  · refine shows_of_setLocal (LocalCache.closed_lookup _ _ _) fun vx hvx ↦ ?_
    rwa [LocalCache.view_lookup] at hvx
  · rwa [hfar.apart] at hu
  · obtain ⟨e, he⟩ := LocalCache.exists_view_of_lookup h.now j _ hv
    rw [LocalCache.view_lookup] at he
    exact ⟨hopen, e, he⟩

/-- A removal from the local tier, which may be closed, leaves nothing to be answered. -/
theorem clear {me : Nat} {j : String} {F : Heap → Prop} :
    (Functor.discard (front.near.tier.del j)).AtOnce me h
      (fun _ h' ↦ (∀ key, Spares front far key h h') ∧ ∀ v, ¬ front.Shows h' j v) F := by
  refine Call.AtOnce.discard (Call.AtOnce.whenOpen (fun hclosed ↦ ?_) fun _ ↦ ?_)
  · refine ⟨fun _ ↦ .refl, fun v hv ↦ ?_⟩
    rw [hv.1] at hclosed
    cases hclosed
  · refine Call.AtOnce.bind (P := fun _ h' ↦ (∀ key, Spares front far key h h') ∧
        ∀ v, ¬ front.Shows h' j v)
      (Call.AtOnce.discard (Call.AtOnce.onLocal ⟨fun key ↦ ⟨fun _ ↦ shows_of_drop, fun u hu ↦ ?_⟩,
        fun v hv ↦ ?_⟩)) fun _ _ hc ↦ Call.AtOnce.done hc
    · rwa [hfar.apart] at hu
    · obtain ⟨-, e, he⟩ := hv
      simp only [Tiers.localTier_setLocal, if_true, LocalCache.remove, LocalCache.view_drop] at he
      cases he

/-- A copy that is left in the local tier is all that is new there. -/
theorem populate {c : Hybrid} (hc : c.toFront = front) {me : Nat} {j v : String} {ttl : Nat} :
    let Q (h' : Heap) : Prop := ∀ key, (∀ u, front.Shows h' key u →
      front.Shows h key u ∨ key = j ∧ u = v) ∧ far.text h' key = far.text h key
    (c.populate j v ttl).AtOnce me h (fun _ ↦ Q) Q := by
  subst hc
  intro Q
  have hput : (h.tiers.localTier c.near.cache).closed = false →
      Q { h with
        tiers := h.tiers.setLocal c.near.cache
          (LocalCache.insert h.now j v ttl (h.tiers.localTier c.near.cache)).2 } := by
    refine fun hopen key ↦ ⟨fun u ⟨_, e, he⟩ ↦ ?_, congrFun (hfar.apart _ _ _) key⟩
    simp only [Tiers.localTier_setLocal, if_true] at he
    rw [LocalCache.view_insert] at he
    split_ifs at he with hkey
    · obtain ⟨e', -, heq⟩ := Option.map_eq_some_iff.mp he
      exact Or.inr ⟨hkey.1, (Prod.mk.inj heq).1.symm⟩
    · exact Or.inl ⟨hopen, e, he⟩
  exact Call.AtOnce.populate (fun _ _ ↦ ⟨fun _ ↦ Or.inl, rfl⟩)
    fun hopen ↦ ⟨fun _ ↦ hput hopen, fun _ ↦ hput hopen⟩

end Far.Atomic

end Spares

/-! ### A store -/

/-- A store and its texts. -/
def StoreHandle.far (x : StoreHandle) : Far where
  tier := x.tier
  text h key := (h.tiers.store x.store).text? h.now key

theorem Store.text?_of_del {s : Store} {now : Nat} {key : String}
    (h : (del key s).1 = .ok ()) : (del key s).2.text? now key = none := by
  cases hoffline : s.offline with
  | true =>
    simp only [del, whenOnline, hoffline, if_true] at h
    cases h
  | false =>
    unfold text?
    simp [del, whenOnline, hoffline, live?, drop]

/-- A request that writes no text puts nothing new into the store. -/
theorem StoreHandle.spares_request {front : Front} {x : StoreHandle} {h : Heap} {r : Store.Request}
    (hr : r.texts = none) (key : String) : Spares front x.far key h
      { h with tiers := h.tiers.setStore x.store (r.apply h.now (h.tiers.store x.store)).2 } where
  near _ := shows_of_localTier rfl rfl
  far u hu := by
    simp only [far, Tiers.store_setStore, if_true] at hu
    exact Store.text?_of_request (by rw [hr]; exact (Option.some_ne_none key).symm) hu

theorem StoreHandle.atomic_far (front : Front) (x : StoreHandle) : x.far.Atomic front where
  get me h key := by
    have hspares : ∀ j, Spares front x.far j h { h with
        tiers := h.tiers.setStore x.store (Store.get h.now key (h.tiers.store x.store)).2 } :=
      spares_request (r := .get key) rfl
    change (Call.onStore x.store fun now ↦ Store.get now key).AtOnce me h _ _
    refine Call.AtOnce.onStore (fun v hv ↦ ⟨hspares, fun v' hv' ↦ ?_⟩)
      (fun _ _ ↦ ⟨hspares, fun _ hv ↦ by cases hv⟩) fun _ ↦ hspares
    obtain rfl := Except.ok.inj hv'
    exact Store.text?_of_get hv
  del me h key := by
    have hspares : ∀ j, Spares front x.far j h { h with
        tiers := h.tiers.setStore x.store (Store.del key (h.tiers.store x.store)).2 } :=
      spares_request (r := .del key) rfl
    change (Call.onStore x.store fun _ ↦ Store.del key).AtOnce me h _ _
    refine Call.AtOnce.onStore (fun a ha ↦ ⟨hspares, fun _ ↦ ?_⟩)
      (fun _ _ ↦ ⟨hspares, fun ha ↦ by cases ha⟩) fun _ ↦ hspares
    simp only [far, Tiers.store_setStore, if_true]
    exact Store.text?_of_del ha
  apart _ _ _ := rfl
  threads h h' hnow htiers := by
    change (fun key ↦ (h'.tiers.store x.store).text? h'.now key) = _
    rw [hnow, htiers]
    rfl
  clock h t key u hle hu := Store.text?_of_later hle hu
  loop h r n key u hu := by
    obtain ⟨subscribers, hstore⟩ := Tiers.retuned_stepLoop h.tiers r x.store
    change ((h.tiers.stepLoop r).store x.store).text? h.now key = some u at hu
    rw [hstore] at hu
    exact hu
  release h held key u hu := by
    obtain ⟨subscribers, hstore⟩ := Tiers.retuned_release h.tiers held x.store
    change ((h.tiers.release held).store x.store).text? h.now key = some u at hu
    rw [hstore] at hu
    exact hu

end TwoTier
