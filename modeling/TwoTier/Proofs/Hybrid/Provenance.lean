import TwoTier.Proofs.Hybrid.Transparency
import TwoTier.Proofs.Local.View

/-!
# Where the copies in local tiers come from

Several hybrid tiers stand over one store, each with a local tier of its own. Their operations leave
marks here: what a hybrid tier stored itself, what the store showed when a hybrid tier read it, what
was removed, and what a local tier answered (`Hybrid.Trace`, `Hybrid.traced`).

All that can be seen in a local tier is backed by a mark (`Hybrid.Traced`): one of the hybrid tier
itself, or one of what the store showed, from which the copy takes a span that is positive and at
most that of the population. Reading, writing and removing keep this, one lemma for each
(`Hybrid.Traced.answered`, `Hybrid.Traced.populate`, `Hybrid.Traced.deleted`), and so does whatever
adds nothing to the local tiers (`Hybrid.Traced.fades`).
-/

set_option autoImplicit false
set_option relaxedAutoImplicit false

namespace TwoTier

namespace Store

/-- The text that a key shows at a moment. -/
def text? (s : Store) (now : Nat) (key : String) : Option String :=
  match s.live? now key with
  | some ⟨.text v, _⟩ => some v
  | _ => none

/-- A read answers no other text than the one shown. -/
theorem text?_of_get {s : Store} {now : Nat} {key v : String}
    (h : (get now key s).1 = .ok v) : s.text? now key = some v := by
  cases hoffline : s.offline with
  | true =>
    simp only [get, whenOnline, hoffline, if_true] at h
    cases h
  | false =>
    rw [fst_get hoffline] at h
    unfold text?
    split at h
    · rename_i hlive
      rw [hlive]
      exact congrArg some (Outcome.ok.inj h)
    · cases h
    · cases h

end Store

namespace Hybrid

/-- What is marked of the hybrid tiers over a store. -/
inductive Trace where
  /-- A hybrid tier stored a value by a write or a fill. -/
  | stored (front : Front) (key : String) (w : Written)
  /-- The store showed a text under a key, or none, at a moment. -/
  | shown (key : String) (text : Option String) (moment : Nat)
  /-- A hybrid tier removed a key. -/
  | deleted (front : Front) (key : String)
  /-- A hybrid tier answered a value from its local tier at a moment. -/
  | answered (front : Front) (key value : String) (moment : Nat)
  deriving DecidableEq, Repr

/-- An answer of the local tier is marked, and what the store shows before it is read. So is a value
that the store has taken by a write, or that a fill has fetched, and a removal, also where the store
does not answer. -/
def tracing (front : Front) (x : StoreHandle) : Notes Trace where
  hit key v := [fun h ↦ .answered front key v h.now]
  ask key := [fun h ↦ .shown key ((h.tiers.store x.store).text? h.now key) h.now]
  wrote key v ttl
    | .ok _ => [fun h ↦ .stored front key ⟨v, h.now, ttl⟩]
    | .error _ => []
  filled key v ttl _ := [fun h ↦ .stored front key ⟨v, h.now, ttl⟩]
  deleted key _ := [fun _ ↦ .deleted front key]

/-- A local tier in front of a store, with these marks. -/
def traced (front : Front) (x : StoreHandle) : Noted Trace :=
  ⟨layered front x, .silent Trace x.tier, tracing front x⟩

/-! ### What backs a copy -/

/-- The mark that a copy goes back to. The copy expires as the value that its hybrid tier stored
does, or else after a span that is not zero, which would be for ever, and not longer than that of
the population. -/
inductive Origin (front : Front) (now : Nat) (key v : String) (x : Expiry) : Trace → Prop
  | stored {w : Written} (hvalue : w.value = v) (hle : w.moment ≤ now)
      (hexpiry : Expiry.after w.moment w.ttl = some x) :
      Origin front now key v x (.stored front key w)
  | shown {t ttl : Nat} (hle : t ≤ now) (hpositive : ttl ≠ 0)
      (hshort : ttl ≤ front.settings.population) (hexpiry : Expiry.after t ttl = some x) :
      Origin front now key v x (.shown key (some v) t)

/-- A copy goes back to a mark that no removal of its key by its hybrid tier has followed. -/
def Backed (front : Front) (now : Nat) (key v : String) (x : Expiry) (log : Log Trace) : Prop :=
  ∃ newer th e older, log = newer ++ (th, e) :: older ∧
    (∀ y ∈ newer, y.2 ≠ .deleted front key) ∧ Origin front now key v x e

/-- An answer at a moment is accounted for by what came before it: since the last removal of the key
by the hybrid tier, it stored the value itself, for a span that is not over or for ever; or the
store showed the text less than the span of the population ago. -/
def Accounted (front : Front) (log : Log Trace) (key v : String) (now : Nat) : Prop :=
  ∃ newer th e older, log = newer ++ (th, e) :: older ∧
    (∀ y ∈ newer, y.2 ≠ .deleted front key) ∧
    ((∃ w, e = .stored front key w ∧ w.value = v ∧ w.moment ≤ now ∧
        (w.ttl = 0 ∨ now < w.moment + w.ttl)) ∨
      ∃ t, e = .shown key (some v) t ∧ t ≤ now ∧ now < t + front.settings.population)

section Backed

variable {front : Front} {now later : Nat} {key v : String} {x : Expiry} {log : Log Trace}

theorem Origin.mono {e : Trace} (h : Origin front now key v x e) (hle : now ≤ later) :
    Origin front later key v x e := by
  cases h with
  | stored hvalue hmoment hexpiry => exact .stored hvalue (Nat.le_trans hmoment hle) hexpiry
  | shown hmoment hpositive hshort hexpiry =>
    exact .shown (Nat.le_trans hmoment hle) hpositive hshort hexpiry

theorem Backed.mono (h : Backed front now key v x log) (hle : now ≤ later) :
    Backed front later key v x log := by
  obtain ⟨newer, th, e, older, hlog, hnewer, horigin⟩ := h
  exact ⟨newer, th, e, older, hlog, hnewer, horigin.mono hle⟩

theorem Backed.new {e : Trace} (h : Origin front now key v x e) (th : Nat) :
    Backed front now key v x ((th, e) :: log) :=
  ⟨[], th, e, log, rfl, fun _ hy ↦ absurd hy List.not_mem_nil, h⟩

/-- A mark that removes nothing of the hybrid tier under the key leaves the copy backed. -/
theorem Backed.cons {e : Trace} (h : Backed front now key v x log)
    (he : e ≠ .deleted front key) (th : Nat) : Backed front now key v x ((th, e) :: log) := by
  obtain ⟨newer, th', e', older, rfl, hnewer, horigin⟩ := h
  exact ⟨(th, e) :: newer, th', e', older, rfl, List.forall_mem_cons.mpr ⟨he, hnewer⟩, horigin⟩

/-- A copy that is backed and has not expired is accounted for. -/
theorem Backed.accounted (h : Backed front now key v x log) (hlive : x.live now = true) :
    Accounted front log key v now := by
  obtain ⟨newer, th, e, older, hlog, hnewer, horigin⟩ := h
  refine ⟨newer, th, e, older, hlog, hnewer, ?_⟩
  cases horigin with
  | stored hvalue hle hexpiry =>
    exact Or.inl ⟨_, rfl, hvalue, hle, (Expiry.live_after_iff hexpiry).mp hlive⟩
  | shown hle hpositive hshort hexpiry =>
    have hspan := ((Expiry.live_after_iff hexpiry).mp hlive).resolve_left hpositive
    exact Or.inr ⟨_, rfl, hle, Nat.lt_of_lt_of_le hspan (Nat.add_le_add_left hshort _)⟩

end Backed

/-! ### Local tiers that only lose -/

/-- What can be seen in the local tiers of some hybrid tiers could be seen before, and one that has
been closed meanwhile shows nothing. -/
structure Fades (fronts : Front → Prop) (h h' : Heap) : Prop where
  now_le : h.now ≤ h'.now
  view : ∀ front, fronts front → ∀ key vx,
    (h'.tiers.localTier front.near.cache).view h'.now key = some vx →
      (h.tiers.localTier front.near.cache).view h.now key = some vx
  closed : ∀ front, fronts front → (h'.tiers.localTier front.near.cache).closed = true →
    (h.tiers.localTier front.near.cache).closed = true ∨
      ∀ key, (h'.tiers.localTier front.near.cache).view h'.now key = none

section Fades

variable {fronts : Front → Prop} {h h' : Heap}

theorem fades_of_localTier (hnow : h'.now = h.now)
    (hlocal : ∀ n, h'.tiers.localTier n = h.tiers.localTier n) : Fades fronts h h' where
  now_le := Nat.le_of_eq hnow.symm
  view front _ key vx hview := by rwa [hlocal, hnow] at hview
  closed front _ hclosed := by
    rw [hlocal] at hclosed
    exact Or.inl hclosed

theorem fades_clock {t : Nat} (hle : h.now ≤ t) : Fades fronts h { h with now := t } where
  now_le := hle
  view front _ key vx hview := by
    rw [LocalCache.view_of_le hle] at hview
    exact (Option.filter_eq_some_iff.mp hview).1
  closed front _ hclosed := Or.inl hclosed

/-- One local tier in another state, in which nothing new can be seen. -/
theorem fades_setLocal (n : Nat) (c : LocalCache)
    (hview : ∀ key vx, c.view h.now key = some vx →
      (h.tiers.localTier n).view h.now key = some vx)
    (hclosed : c.closed = true →
      (h.tiers.localTier n).closed = true ∨ ∀ key, c.view h.now key = none) :
    Fades fronts h { h with tiers := h.tiers.setLocal n c } where
  now_le := Nat.le_refl _
  view front _ key vx hvx := by
    simp only [Tiers.localTier_setLocal] at hvx
    split_ifs at hvx with hn
    · rw [hn]
      exact hview key vx hvx
    · exact hvx
  closed front _ hc := by
    simp only [Tiers.localTier_setLocal] at hc ⊢
    split_ifs at hc ⊢ with hn
    · rw [hn]
      exact hclosed hc
    · exact Or.inl hc

theorem fades_lookup (n : Nat) (key : String) :
    Fades fronts h { h with
      tiers := h.tiers.setLocal n (LocalCache.lookup h.now key (h.tiers.localTier n)).2 } := by
  refine fades_setLocal n _ (fun j vx hvx ↦ ?_) fun hclosed ↦ ?_
  · rwa [LocalCache.view_lookup] at hvx
  · rw [LocalCache.closed_lookup] at hclosed
    exact Or.inl hclosed

theorem fades_drop (n : Nat) (key : String) :
    Fades fronts h { h with tiers := h.tiers.setLocal n ((h.tiers.localTier n).drop key) } := by
  refine fades_setLocal n _ (fun j vx hvx ↦ ?_) Or.inl
  rw [LocalCache.view_drop] at hvx
  split_ifs at hvx
  exact hvx

/-- To close a local tier is to empty it. -/
theorem fades_close (n : Nat) :
    Fades fronts h { h with tiers := h.tiers.setLocal n (h.tiers.localTier n).close } :=
  fades_setLocal n _ (fun _ _ hvx ↦ by cases hvx) fun _ ↦ Or.inr fun _ ↦ rfl

theorem fades_stepLoop (r since : Nat) :
    Fades fronts h { h with tiers :=
      (h.tiers.stepLoop r).setLoop r { (h.tiers.stepLoop r).loop r with since := since } } where
  now_le := Nat.le_refl _
  view front _ key vx hvx := by
    change ((h.tiers.stepLoop r).localTier front.near.cache).view h.now key = some vx at hvx
    rcases Tiers.localTier_stepLoop h.tiers r front.near.cache with hlocal | ⟨k, hlocal⟩
    · rwa [hlocal] at hvx
    · rw [hlocal, LocalCache.view_drop] at hvx
      split_ifs at hvx
      exact hvx
  closed front _ hclosed := by
    change ((h.tiers.stepLoop r).localTier front.near.cache).closed = true at hclosed
    rcases Tiers.localTier_stepLoop h.tiers r front.near.cache with hlocal | ⟨k, hlocal⟩ <;>
    · rw [hlocal] at hclosed
      exact Or.inl hclosed

/-- What a look-up in a local tier answers can be seen in it, and the stores are as they were. -/
theorem atOnce_lookup {me : Nat} {near : LocalHandle} {key : String} {F : Heap → Prop} :
    (near.lookup key).AtOnce me h (fun r h' ↦ Fades fronts h h' ∧
      (∀ s, h'.tiers.store s = h.tiers.store s) ∧ ∀ v, r = some v →
        ∃ e, (h'.tiers.localTier near.cache).view h'.now key = some (v, e)) F := by
  refine Call.AtOnce.onLocal ⟨fades_lookup near.cache key, fun _ ↦ rfl, fun v hv ↦ ?_⟩
  simp only [Tiers.localTier_setLocal, if_true]
  exact LocalCache.exists_view_of_lookup h.now key _ hv

/-- The same through a local tier that may be closed. -/
theorem atOnce_localHit {me : Nat} {c : Hybrid} {key : String} {F : Heap → Prop} :
    (c.localHit key).AtOnce me h (fun r h' ↦ Fades fronts h h' ∧
      (∀ s, h'.tiers.store s = h.tiers.store s) ∧ ∀ v, r = some v →
        ∃ e, (h'.tiers.localTier c.near.cache).view h'.now key = some (v, e)) F := by
  refine Call.AtOnce.localHit
    (fun _ ↦ ⟨fades_of_localTier rfl fun _ ↦ rfl, fun _ ↦ rfl, fun v hv ↦ by cases hv⟩)
    fun _ ↦ ⟨fades_lookup c.near.cache key, fun _ ↦ rfl, fun v hv ↦ ?_⟩
  simp only [Tiers.localTier_setLocal, if_true]
  exact LocalCache.exists_view_of_lookup h.now key _ hv

end Fades

/-! ### The invariant -/

/-- Each hybrid tier has a local tier of its own. -/
def Apart (fronts : Front → Prop) : Prop :=
  ∀ front other, fronts front → fronts other → front.near.cache = other.near.cache → front = other

/-- All that can be seen in the local tiers is backed by a mark, and all that they have answered was
accounted for by the marks before it. A closed local tier shows nothing. -/
structure Traced (fronts : Front → Prop) (h : Heap) (log : Log Trace) : Prop where
  closed : ∀ front, fronts front → (h.tiers.localTier front.near.cache).closed = true →
    ∀ key, (h.tiers.localTier front.near.cache).view h.now key = none
  backed : ∀ front, fronts front → ∀ key v x,
    (h.tiers.localTier front.near.cache).view h.now key = some (v, x) →
      Backed front h.now key v x log
  answers : ∀ front, fronts front → ∀ newer th key v t older,
    log = newer ++ (th, .answered front key v t) :: older → Accounted front older key v t

namespace Traced

variable {fronts : Front → Prop} {h h' : Heap} {log : Log Trace} {front : Front} {key v : String}

theorem fades (hc : Traced fronts h log) (hfades : Fades fronts h h') : Traced fronts h' log where
  closed front hfront hclosed key := by
    rcases hfades.closed front hfront hclosed with hbefore | hnone
    · rw [Option.eq_none_iff_forall_ne_some]
      intro vx hview
      have hview' := hfades.view front hfront key vx hview
      rw [hc.closed front hfront hbefore key] at hview'
      cases hview'
    · exact hnone key
  backed front hfront key v x hview :=
    (hc.backed front hfront key v x (hfades.view front hfront key _ hview)).mono hfades.now_le
  answers := hc.answers

/-- One more mark. -/
theorem cons {e : Trace} (hc : Traced fronts h log) (th : Nat)
    (hdeleted : ∀ front, fronts front → ∀ key, e = .deleted front key →
      (h.tiers.localTier front.near.cache).view h.now key = none)
    (hanswered : ∀ front, fronts front → ∀ key v t, e = .answered front key v t →
      Accounted front log key v t) : Traced fronts h ((th, e) :: log) where
  closed := hc.closed
  backed front hfront key v x hview := by
    refine (hc.backed front hfront key v x hview).cons (fun he ↦ ?_) th
    rw [hdeleted front hfront key he] at hview
    cases hview
  answers front hfront newer th' key v t older hlog := by
    cases newer with
    | nil =>
      obtain ⟨hhead, rfl⟩ := List.cons.inj hlog
      exact hanswered front hfront key v t (Prod.mk.inj hhead).2
    | cons y newer => exact hc.answers front hfront newer th' key v t older (List.cons.inj hlog).2

theorem stored (hc : Traced fronts h log) (th : Nat) (front : Front) (key : String)
    (w : Written) : Traced fronts h ((th, .stored front key w) :: log) :=
  hc.cons th (fun _ _ _ he ↦ by cases he) fun _ _ _ _ _ he ↦ by cases he

theorem shown (hc : Traced fronts h log) (th : Nat) (key : String) (text : Option String)
    (t : Nat) : Traced fronts h ((th, .shown key text t) :: log) :=
  hc.cons th (fun _ _ _ he ↦ by cases he) fun _ _ _ _ _ he ↦ by cases he

/-- What can be seen in a local tier may be answered. -/
theorem answered (hc : Traced fronts h log) (th : Nat) {x : Expiry} (hfront : fronts front)
    (hview : (h.tiers.localTier front.near.cache).view h.now key = some (v, x)) :
    Traced fronts h ((th, .answered front key v h.now) :: log) := by
  refine hc.cons th (fun _ _ _ he ↦ by cases he) fun front' _ key' v' t' he ↦ ?_
  cases he
  obtain ⟨e, -, -, -, hlive⟩ := LocalCache.view_eq_some_iff.mp hview
  exact (hc.backed front hfront key v x hview).accounted hlive

/-- What has been removed can no longer be seen. -/
theorem deleted (hc : Traced fronts h log) (th : Nat)
    (hgone : (h.tiers.localTier front.near.cache).view h.now key = none) :
    Traced fronts h ((th, .deleted front key) :: log) := by
  refine hc.cons th (fun front' _ key' he ↦ ?_) fun _ _ _ _ _ he ↦ by cases he
  cases he
  exact hgone

/-- What is backed may be inserted into the local tier. -/
theorem insert (hc : Traced fronts h log) (hapart : Apart fronts) (hfront : fronts front)
    (hopen : (h.tiers.localTier front.near.cache).closed = false) {ttl : Nat}
    (hnew : ∀ e, Expiry.after h.now ttl = some e → Backed front h.now key v e log) :
    let r := LocalCache.insert h.now key v ttl (h.tiers.localTier front.near.cache)
    Traced fronts { h with tiers := h.tiers.setLocal front.near.cache r.2 } log := by
  intro r
  have hclosed : r.2.closed = false := (LocalCache.closed_insert ..).trans hopen
  refine ⟨fun other hother hc' ↦ ?_, fun other hother j u e hview ↦ ?_, hc.answers⟩
  · simp only [Tiers.localTier_setLocal] at hc' ⊢
    split_ifs at hc' ⊢
    · rw [hclosed] at hc'
      exact absurd hc' Bool.false_ne_true
    · exact hc.closed other hother hc'
  · simp only [Tiers.localTier_setLocal] at hview
    split_ifs at hview with hn
    · obtain rfl := hapart other front hother hfront hn
      rw [LocalCache.view_insert] at hview
      split_ifs at hview with hkey hevicted
      · obtain ⟨rfl, -⟩ := hkey
        obtain ⟨e', he', hve⟩ := Option.map_eq_some_iff.mp hview
        obtain ⟨rfl, rfl⟩ := Prod.mk.inj hve
        exact hnew e' he'
      · exact hc.backed other hother j u e hview
    · exact hc.backed other hother j u e hview

/-- A copy of what is backed may be left in the local tier. -/
theorem populate (hc : Traced fronts h log) (hapart : Apart fronts) (hfront : fronts front)
    {x : StoreHandle} {me ttl : Nat}
    (hnew : ∀ e, Expiry.after h.now ttl = some e → Backed front h.now key v e log) :
    ((layered front x).populate key v ttl).AtOnce me h (fun _ h' ↦ Traced fronts h' log)
      fun h' ↦ Traced fronts h' log :=
  Call.AtOnce.populate (fun _ ↦ hc) fun hopen ↦
    ⟨fun _ ↦ hc.insert hapart hfront hopen hnew, fun _ ↦ hc.insert hapart hfront hopen hnew⟩

end Traced

end Hybrid

end TwoTier
