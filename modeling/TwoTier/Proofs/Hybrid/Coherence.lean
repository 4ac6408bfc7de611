import TwoTier.Proofs.Engine.AtOnce
import TwoTier.Proofs.Engine.Quiet
import TwoTier.Proofs.Engine.Marked
import TwoTier.Proofs.Local.Contents
import TwoTier.Proofs.Store.Contents
import TwoTier.Tier.Hybrid
import TwoTier.Tier.Store

/-!
# A local tier in front of a store, and the writes that stand

Writes through a hybrid tier leave marks, and the write that stands under a key is read from them
(`Hybrid.standing`). The tiers are coherent with the marks when the store holds what stands, unless
it has expired, and the local tier holds nothing else (`Hybrid.Coherent`).

Each operation is described by one theorem about a heap that is coherent: a read leaves it so, and
answers what stands (`Hybrid.Coherent.get`); a write and a removal leave it coherent with one mark
more (`Hybrid.Coherent.remoteSet`, `Hybrid.Coherent.remoteDel`). A copy in the local tier may be
refused, evicted or expire: it is never more than a copy.
-/

set_option autoImplicit false
set_option relaxedAutoImplicit false

namespace TwoTier

/-- What runs on a local tier unless it has been closed. -/
theorem Call.AtOnce.whenOpen {α : Type} {me : Nat} {h : Heap} {near : LocalHandle}
    {call : Call (Answer α)} {Q : Answer α → Heap → Prop} {F : Heap → Prop}
    (hclosed : (h.tiers.localTier near.cache).closed = true → Q (.error .closed) h)
    (hopen : (h.tiers.localTier near.cache).closed = false → call.AtOnce me h Q F) :
    (near.whenOpen call).AtOnce me h Q F := by
  refine Call.AtOnce.bind (P := fun b h' ↦ h' = h ∧ (h.tiers.localTier near.cache).closed = b)
    (Call.AtOnce.look ⟨rfl, rfl⟩) fun b h' hb ↦ ?_
  obtain ⟨rfl, hb⟩ := hb
  cases b with
  | true => exact Call.AtOnce.done (hclosed hb)
  | false => exact hopen hb

/-- What a look-up through a local tier that may be closed leads to. -/
theorem Call.AtOnce.localHit {me : Nat} {h : Heap} {c : Hybrid} {key : String}
    {Q : Option String → Heap → Prop} {F : Heap → Prop}
    (hclosed : (h.tiers.localTier c.near.cache).closed = true → Q none h)
    (hopen : (h.tiers.localTier c.near.cache).closed = false →
      let r := LocalCache.lookup h.now key (h.tiers.localTier c.near.cache)
      Q r.1 { h with tiers := h.tiers.setLocal c.near.cache r.2 }) :
    (c.localHit key).AtOnce me h Q F := by
  refine Call.AtOnce.bind (P := fun a h' ↦ Q a.toOption h') ?_ fun a h' hQ ↦ ?_
  · refine Call.AtOnce.whenOpen hclosed fun h₀ ↦
      Call.AtOnce.bind (P := Q) (Call.AtOnce.onLocal (hopen h₀)) fun r h' hQ ↦ ?_
    cases r with
    | some v => exact Call.AtOnce.done hQ
    | none => exact Call.AtOnce.done hQ
  · cases a with
    | ok v => exact Call.AtOnce.done hQ
    | error f => exact Call.AtOnce.done hQ

/-- What leaving a copy in a local tier that may be closed leads to. -/
theorem Call.AtOnce.populate {me : Nat} {h : Heap} {c : Hybrid} {key value : String} {ttl : Nat}
    {Q F : Heap → Prop} (hclosed : (h.tiers.localTier c.near.cache).closed = true → Q h)
    (hopen : (h.tiers.localTier c.near.cache).closed = false →
      let r := LocalCache.insert h.now key value ttl (h.tiers.localTier c.near.cache)
      (r.1 ≠ .overflow → Q { h with tiers := h.tiers.setLocal c.near.cache r.2 }) ∧
        (r.1 = .overflow → F { h with tiers := h.tiers.setLocal c.near.cache r.2 })) :
    (c.populate key value ttl).AtOnce me h (fun _ ↦ Q) F := by
  refine Call.AtOnce.discard (Call.AtOnce.whenOpen hclosed fun h₀ ↦ ?_)
  obtain ⟨htaken, hoverflow⟩ := hopen h₀
  refine Call.AtOnce.bind (P := fun _ ↦ Q) (Call.AtOnce.discard ?_) fun _ _ hQ ↦
    Call.AtOnce.done hQ
  refine Call.AtOnce.bind (P := fun r h' ↦ (r ≠ .overflow → Q h') ∧ (r = .overflow → F h'))
    (Call.AtOnce.onLocal ⟨htaken, hoverflow⟩) fun r h' hr ↦ ?_
  cases r with
  | added => exact Call.AtOnce.done (hr.1 (by decide))
  | updated => exact Call.AtOnce.done (hr.1 (by decide))
  | rejected => exact Call.AtOnce.done (hr.1 (by decide))
  | overflow => exact Call.AtOnce.crash (hr.2 rfl)

namespace Hybrid

/-- A write: its value, when it happened, and for how long it was to be kept. -/
structure Written where
  /-- The value. -/
  value : String
  /-- When it was stored. -/
  moment : Nat
  /-- For how long it was to be kept; zero is for ever. -/
  ttl : Nat
  deriving DecidableEq, Repr

/-- What is marked: that a value was stored under a key, and that a removal of a key was
completed. -/
inductive Mark where
  | wrote (key : String) (w : Written)
  | deleted (key : String)
  deriving DecidableEq, Repr

/-- The write that stands under a key: the last one, unless the key was removed after it. -/
def standing (key : String) : Log Mark → Option Written
  | [] => none
  | (_, .wrote k w) :: l => if k = key then some w else standing key l
  | (_, .deleted k) :: l => if k = key then none else standing key l

/-- What the store holds under a key where a write stands: its text, or nothing once it has
expired. -/
def Far (now : Nat) : Option Written → Option Stored → Prop
  | none, far => far = none
  | some w, far => ∃ x, Expiry.after w.moment w.ttl = some x ∧
      (far = some ⟨.text w.value, x⟩ ∨ (far = none ∧ x.expired now = true))

/-- What the local tier may hold under a key where a write stands: its value, or nothing. -/
def Near (w : Option Written) (near : Option Entry) : Prop :=
  ∀ e, near = some e → ∃ w', w = some w' ∧ e.value = w'.value

theorem near_none (w : Option Written) : Near w none :=
  fun e he ↦ absurd he.symm (Option.some_ne_none e)

theorem Far.mono {s t : Nat} (hst : s ≤ t) {w : Option Written} {far : Option Stored}
    (h : Far s w far) : Far t w far := by
  cases w with
  | none => exact h
  | some w =>
    obtain ⟨x, hx, hfar | ⟨hfar, hexpired⟩⟩ := h
    · exact ⟨x, hx, Or.inl hfar⟩
    · exact ⟨x, hx, Or.inr ⟨hfar, Expiry.expired_mono hst hexpired⟩⟩

/-- To remove what has expired is to remove what no longer counts. -/
theorem Far.filter {now : Nat} {w : Option Written} {far : Option Stored} (h : Far now w far) :
    Far now w (far.filter fun x ↦ x.expiry.live now) := by
  cases w with
  | none =>
    rw [show far = none from h]
    rfl
  | some w =>
    obtain ⟨x, hx, rfl | ⟨rfl, hexpired⟩⟩ := h
    · refine ⟨x, hx, ?_⟩
      rw [Option.filter_some]
      by_cases hlive : x.live now = true
      · rw [if_pos hlive]
        exact Or.inl rfl
      · rw [if_neg hlive]
        refine Or.inr ⟨rfl, ?_⟩
        simpa [Expiry.expired] using hlive
    · exact ⟨x, hx, Or.inr ⟨rfl, hexpired⟩⟩

/-- What a read answers where a write stands: its value, or that there is none once it has
expired. -/
inductive Answered (now : Nat) : Option Written → Answer String → Prop
  | value {w : Written} : Answered now (some w) (.ok w.value)
  | miss {w? : Option Written}
      (hexpired : ∀ w e, w? = some w → Expiry.after w.moment w.ttl = some e →
        e.expired now = true) : Answered now w? (.error .notFound)

/-- The tiers agree with the marks: the local tier `l` under the keys in `P`, the store `s` under
all. A closed local tier is empty. -/
structure Coherent (l s : Nat) (P : String → Prop) (h : Heap) (log : Log Mark) : Prop where
  online : (h.tiers.store s).offline = false
  closed : (h.tiers.localTier l).closed = true → ∀ key, (h.tiers.localTier l).table.get? key = none
  far : ∀ key, Far h.now (standing key log) ((h.tiers.store s).data[key]?)
  near : ∀ key, P key → Near (standing key log) ((h.tiers.localTier l).table.get? key)

namespace Coherent

variable {l s : Nat} {P : String → Prop} {h h' : Heap} {log : Log Mark} {key : String}

/-- Time passes, the local tier loses entries, and what has expired leaves the store. -/
theorem mono (hc : Coherent l s P h log) (hnow : h.now ≤ h'.now)
    (hnear : (h'.tiers.localTier l).table.Within (h.tiers.localTier l).table)
    (hclosed : (h'.tiers.localTier l).closed = (h.tiers.localTier l).closed)
    (hfar : ∀ key, Far h.now (standing key log) ((h'.tiers.store s).data[key]?))
    (honline : (h'.tiers.store s).offline = false) : Coherent l s P h' log where
  online := honline
  closed hc' key := by
    rw [hclosed] at hc'
    exact hnear.eq_none (hc.closed hc' key)
  far key := (hfar key).mono hnow
  near key hP e he := by
    obtain ⟨e', he', hvalue⟩ := hnear key e he
    obtain ⟨w, hw, hvalue'⟩ := hc.near key hP e' he'
    exact ⟨w, hw, hvalue.symm.trans hvalue'⟩

theorem quiet (hc : Coherent l s P h log) (hnow : h.now ≤ h'.now)
    (hquiet : Tiers.Quiet l s h.tiers h'.tiers) : Coherent l s P h' log := by
  refine hc.mono hnow hquiet.near hquiet.closed (fun key ↦ ?_) (hquiet.offline.trans hc.online)
  rw [hquiet.data]
  exact hc.far key

/-! ### The local tier -/

theorem within_lookup (now : Nat) (key : String) (c : LocalCache) :
    (LocalCache.lookup now key c).2.table.Within c.table := by
  intro j e he
  rw [LocalCache.get?_lookup] at he
  split_ifs at he with hj
  · obtain ⟨old, hold, rfl⟩ := Option.map_eq_some_iff.mp he
    obtain ⟨hold, -⟩ := Option.filter_eq_some_iff.mp hold
    exact ⟨old, by rw [hj]; exact hold, rfl⟩
  · exact ⟨e, he, rfl⟩

/-- A look-up in the local tier finds what stands, or leaves nothing there under the key. -/
theorem lookup (hc : Coherent l s P h log) {me : Nat} (hP : P key) {near : LocalHandle}
    (hl : near.cache = l) {F : Heap → Prop} :
    (near.lookup key).AtOnce me h (fun r h' ↦ Coherent l s P h' log ∧ h'.now = h.now ∧
      (∀ v, r = some v → ∃ w, standing key log = some w ∧ v = w.value) ∧
      (r = none → (h'.tiers.localTier l).table.get? key = none)) F := by
  refine Call.AtOnce.onLocal ⟨?_, rfl, fun v hv ↦ ?_, fun hnone ↦ ?_⟩
  · refine hc.quiet (Nat.le_refl _) (Tiers.quiet_setLocal _ ?_ ?_)
    · exact within_lookup _ _ _
    · exact LocalCache.closed_lookup _ _ _
  · rw [LocalCache.fst_lookup, hl] at hv
    obtain ⟨e, he, rfl⟩ := Option.map_eq_some_iff.mp hv
    exact hc.near key hP e (Option.filter_eq_some_iff.mp he).1
  · rw [LocalCache.fst_lookup, hl] at hnone
    simp only [hl, Tiers.localTier_setLocal, if_true, LocalCache.get?_lookup]
    rw [Option.map_eq_none_iff.mp hnone]
    rfl

/-- A look-up through a local tier that may be closed. -/
theorem localHit (hc : Coherent l s P h log) {me : Nat} (hP : P key) {c : Hybrid}
    (hl : c.near.cache = l) {F : Heap → Prop} :
    (c.localHit key).AtOnce me h (fun r h' ↦ Coherent l s P h' log ∧ h'.now = h.now ∧
      (∀ v, r = some v → ∃ w, standing key log = some w ∧ v = w.value) ∧
      (r = none → (h'.tiers.localTier l).table.get? key = none)) F := by
  refine Call.AtOnce.bind (P := fun a h' ↦ Coherent l s P h' log ∧ h'.now = h.now ∧
      (∀ v, a = .ok v → ∃ w, standing key log = some w ∧ v = w.value) ∧
      ((∀ v, a ≠ .ok v) → (h'.tiers.localTier l).table.get? key = none)) ?_ fun a h' hpost ↦ ?_
  · refine Call.AtOnce.whenOpen (fun hclosed ↦ ?_) fun _ ↦ (hc.lookup hP hl).bind fun r h' hr ↦ ?_
    · refine ⟨hc, rfl, fun v hv ↦ absurd hv (by simp), fun _ ↦ ?_⟩
      rw [hl] at hclosed
      exact hc.closed hclosed key
    · obtain ⟨hc', hnow, hsome, hnone⟩ := hr
      cases r with
      | some v =>
        refine Call.AtOnce.done ⟨hc', hnow, fun v' hv' ↦ ?_, fun hne ↦ absurd rfl (hne v)⟩
        obtain rfl := Except.ok.inj hv'
        exact hsome v rfl
      | none =>
        exact Call.AtOnce.done ⟨hc', hnow, fun v hv ↦ absurd hv (by simp), fun _ ↦ hnone rfl⟩
  · obtain ⟨hc', hnow, hok, hne⟩ := hpost
    cases a with
    | ok v =>
      refine Call.AtOnce.done ⟨hc', hnow, fun v' hv' ↦ ?_, fun hnone ↦ absurd hnone (by simp)⟩
      obtain rfl := Option.some.inj hv'
      exact hok v rfl
    | error f =>
      exact Call.AtOnce.done ⟨hc', hnow, fun v hv ↦ absurd hv (by simp),
        fun _ ↦ hne fun v hv ↦ absurd hv (by simp)⟩

/-- An insertion of what stands leaves a copy of it, or nothing. -/
theorem insert (hc : Coherent l s (fun j ↦ P j ∧ j ≠ key) h log)
    (hopen : (h.tiers.localTier l).closed = false) {w : Written} (hw : standing key log = some w)
    {ttl : Nat}
    (hkey : (h.tiers.localTier l).table.get? key = none ∨ Expiry.after h.now ttl ≠ none) :
    let r := LocalCache.insert h.now key w.value ttl (h.tiers.localTier l)
    Coherent l s P { h with tiers := h.tiers.setLocal l r.2 } log ∧
      (r.1 = .overflow → Expiry.after h.now ttl = none) := by
  intro r
  obtain ⟨hself, hothers⟩ := LocalCache.get?_insert h.now key w.value ttl (h.tiers.localTier l)
  have hclosed : r.2.closed = false := (LocalCache.closed_insert _ _ _ _ _).trans hopen
  change LocalCache.Inserted _ _ _ _ (r.2.table.get? key) r.1 at hself
  change ∀ j ≠ key, r.2.table.get? j = none ∨ r.2.table.get? j = _ at hothers
  refine ⟨⟨hc.online, fun hc' ↦ ?_, hc.far, fun j hP ↦ ?_⟩, fun hr ↦ ?_⟩
  · simp only [Tiers.localTier_setLocal, if_true] at hc'
    rw [hclosed] at hc'
    exact absurd hc' Bool.false_ne_true
  · simp only [Tiers.localTier_setLocal, if_true]
    by_cases hj : j = key
    · rw [hj, hw]
      generalize r.1 = ending at hself
      cases hself with
      | added _ hafter hvalue _ =>
        rw [hafter]
        intro e he
        obtain rfl := Option.some.inj he
        exact ⟨w, rfl, hvalue⟩
      | updated _ hafter hvalue _ =>
        rw [hafter]
        intro e he
        obtain rfl := Option.some.inj he
        exact ⟨w, rfl, hvalue⟩
      | rejected _ hafter =>
        rw [hafter]
        exact near_none _
      | overflow hafter hexpiry =>
        rcases hkey with hnone | hsome
        · rw [hafter, hnone]
          exact near_none _
        · exact absurd hexpiry hsome
    · rcases hothers j hj with hnone | hsame
      · rw [hnone]
        exact near_none _
      · rw [hsame]
        exact hc.near j ⟨hP, hj⟩
  · exact LocalCache.after_of_overflow hr

/-- A closed local tier is empty, and so agrees with everything. -/
theorem of_closed {P' : String → Prop} (hc : Coherent l s P' h log)
    (hclosed : (h.tiers.localTier l).closed = true) : Coherent l s P h log where
  online := hc.online
  closed := hc.closed
  far := hc.far
  near j _ := by
    rw [hc.closed hclosed j]
    exact near_none _

/-- A copy of what stands is left in the local tier, or is not taken. Where the deadline of the copy
lies beyond the clock, none was there before. -/
theorem populate (hc : Coherent l s (fun j ↦ P j ∧ j ≠ key) h log) {me : Nat} {c : Hybrid}
    (hl : c.near.cache = l) {w : Written} (hw : standing key log = some w) {ttl : Nat}
    (hkey : (h.tiers.localTier l).table.get? key = none ∨ Expiry.after h.now ttl ≠ none) :
    (c.populate key w.value ttl).AtOnce me h (fun _ h' ↦ Coherent l s P h' log)
      (fun h' ↦ Coherent l s P h' log ∧ Expiry.after h.now ttl = none) := by
  refine Call.AtOnce.discard (Call.AtOnce.whenOpen (fun hclosed ↦ ?_) fun hopen ↦ ?_)
  · rw [hl] at hclosed
    exact hc.of_closed hclosed
  · rw [hl] at hopen
    obtain ⟨hc', hoverflow⟩ := hc.insert hopen hw hkey
    refine Call.AtOnce.bind (P := fun _ h' ↦ Coherent l s P h' log) ?_
      fun _ _ hc' ↦ Call.AtOnce.done hc'
    refine Call.AtOnce.discard (Call.AtOnce.bind (P := fun r h' ↦ Coherent l s P h' log ∧
      (r = .overflow → Expiry.after h.now ttl = none)) (Call.AtOnce.onLocal ?_) fun r h' hr ↦ ?_)
    · rw [hl]
      exact ⟨hc', hoverflow⟩
    · cases r with
      | added => exact Call.AtOnce.done hr.1
      | updated => exact Call.AtOnce.done hr.1
      | rejected => exact Call.AtOnce.done hr.1
      | overflow => exact Call.AtOnce.crash ⟨hr.1, hr.2 rfl⟩

/-! ### The store -/

/-- What the store answers to a read: the value of the write that stands, or that there is none once
it has expired. -/
theorem fst_get_of_far {x : Store} (honline : x.offline = false) {now : Nat} {w? : Option Written}
    (hfar : Far now w? (x.live? now key)) :
    (∃ w, w? = some w ∧ (Store.get now key x).1 = .ok w.value) ∨
      ((Store.get now key x).1 = .fault .notFound ∧ Answered now w? (.error .notFound)) := by
  have hanswer := Store.fst_get honline now key
  cases w? with
  | none =>
    rw [show x.live? now key = none from hfar] at hanswer
    exact Or.inr ⟨hanswer, .miss fun w e hw _ ↦ absurd hw.symm (Option.some_ne_none w)⟩
  | some w =>
    obtain ⟨e, he, hsome | ⟨hnone, hexpired⟩⟩ := hfar
    · rw [hsome] at hanswer
      exact Or.inl ⟨w, rfl, hanswer⟩
    · rw [hnone] at hanswer
      refine Or.inr ⟨hanswer, .miss fun w' e' hw' he' ↦ ?_⟩
      obtain rfl := Option.some.inj hw'
      rw [he] at he'
      rw [← Option.some.inj he']
      exact hexpired

/-- A read of the store answers what stands, unless it has expired. -/
theorem remoteGet (hc : Coherent l s P h log) {me : Nat} (x : StoreHandle) (hs : x.store = s)
    {F : Heap → Prop} :
    (x.get key).AtOnce me h (fun a h' ↦ Coherent l s P h' log ∧ h'.now = h.now ∧
      h'.tiers.localTier l = h.tiers.localTier l ∧
      Answered h.now (standing key log) a) F := by
  subst hs
  have hc' : Coherent l x.store P { h with
      tiers := h.tiers.setStore x.store (Store.get h.now key (h.tiers.store x.store)).2 } log := by
    refine hc.mono (Nat.le_refl _) (.refl _) rfl (fun j ↦ ?_) ?_
    · simp only [Tiers.store_setStore, if_true]
      rw [Store.data_get hc.online, Store.getElem?_settle]
      split_ifs with hj
      · rw [← hj]
        exact (hc.far j).filter
      · exact hc.far j
    · simp only [Tiers.store_setStore, if_true]
      exact Store.offline_get hc.online h.now key
  rcases fst_get_of_far hc.online (hc.far key).filter with ⟨w, hw, hget⟩ | ⟨hget, hmiss⟩
  · refine Call.AtOnce.onStore_of_ok hget ⟨hc', rfl, rfl, ?_⟩
    rw [hw]
    exact .value
  · exact Call.AtOnce.onStore_of_fault hget ⟨hc', rfl, rfl, hmiss⟩

/-- A write to the store stands from now on; the local tier may still hold a copy of the one
before. -/
theorem remoteSet (hc : Coherent l s P h log) {me : Nat} (x : StoreHandle) (hs : x.store = s)
    (v : String) (ttl : Nat) :
    (x.set key v ttl).AtOnce me h
      (fun a h' ↦ a = .ok () ∧ Expiry.after h'.now ttl ≠ none ∧ ∀ th,
        Coherent l s (fun j ↦ P j ∧ j ≠ key) h' ((th, .wrote key ⟨v, h'.now, ttl⟩) :: log))
      fun h' ↦ Coherent l s P h' log := by
  subst hs
  have hset := Store.set_eq hc.online h.now key v ttl
  cases he : Expiry.after h.now ttl with
  | none =>
    rw [he] at hset
    refine Call.AtOnce.onStore_of_overflow (congrArg Prod.fst hset) ?_
    rw [hset]
    exact hc.quiet (Nat.le_refl _) (Tiers.quiet_setStore _ rfl rfl)
  | some e =>
    rw [he] at hset
    refine Call.AtOnce.onStore_of_ok (congrArg Prod.fst hset) ?_
    rw [hset]
    refine ⟨rfl, ?_, fun th ↦ ⟨?_, hc.closed, fun j ↦ ?_, fun j hP ↦ ?_⟩⟩
    · rw [he]
      exact Option.some_ne_none e
    · simp only [Tiers.store_setStore, if_true]
      exact hc.online
    · simp only [Tiers.store_setStore, if_true, standing, Store.put, Dict.getElem?_insert]
      by_cases hj : j = key
      · rw [if_pos hj, if_pos hj.symm]
        exact ⟨e, he, Or.inl rfl⟩
      · rw [if_neg hj, if_neg fun h ↦ hj h.symm]
        exact hc.far j
    · rw [standing, if_neg fun h ↦ hP.2 h.symm]
      exact hc.near j hP.1

/-- Whether the store holds a key is a question that changes no answer. -/
theorem remoteContains (hc : Coherent l s P h log) {me : Nat} (x : StoreHandle)
    (hs : x.store = s) {F : Heap → Prop} :
    (x.tier.contains key).AtOnce me h (fun _ h' ↦ Coherent l s P h' log) F := by
  subst hs
  have hcontains := Store.contains_eq hc.online h.now key
  have hc' : Coherent l x.store P { h with
      tiers := h.tiers.setStore x.store ((h.tiers.store x.store).settle h.now key) } log := by
    refine hc.mono (Nat.le_refl _) (.refl _) rfl (fun j ↦ ?_) ?_
    · simp only [Tiers.store_setStore, if_true]
      rw [Store.getElem?_settle]
      split_ifs with hj
      · rw [← hj]
        exact (hc.far j).filter
      · exact hc.far j
    · simp only [Tiers.store_setStore, if_true, Store.offline_settle]
      exact hc.online
  change (Call.onStore x.store fun now ↦ Store.contains now key).AtOnce me h _ _
  refine Call.AtOnce.onStore_of_ok (congrArg Prod.fst hcontains) ?_
  rw [hcontains]
  exact hc'

/-! ### The operations of the hybrid tier -/

theorem weaken (hc : Coherent l s P h log) {P' : String → Prop} (hP : ∀ j, P' j → P j) :
    Coherent l s P' h log :=
  ⟨hc.online, hc.closed, hc.far, fun j hj ↦ hc.near j (hP j hj)⟩

variable {front : Front} {x : StoreHandle}

/-- A copy is left of what the store has answered, where the local tier held nothing. -/
theorem promote {now : Nat} {v : String} (hc : Coherent l s P h log) (me : Nat) (c : Hybrid)
    (ttl : Nat) (hl : c.near.cache = l) (hanswered : Answered now (standing key log) (.ok v))
    (hbefore : (h.tiers.localTier l).table.get? key = none) :
    (c.populate key v ttl).AtOnce me h (fun _ h' ↦ Coherent l s P h' log)
      fun h' ↦ Coherent l s P h' log ∧ standing key log ≠ none ∧
        Expiry.after h.now ttl = none := by
  generalize hw : standing key log = w? at hanswered
  cases hanswered with
  | @value w =>
    exact ((hc.weaken fun j hj ↦ hj.1).populate hl hw (Or.inl hbefore)).mono (fun _ _ hc' ↦ hc')
      fun h' hfail ↦ ⟨hfail.1, Option.some_ne_none w, hfail.2⟩

/-- A read answers what stands, unless it has expired. It cannot go on only where the deadline of a
copy lies beyond the clock. -/
theorem get (hc : Coherent front.near.cache x.store (fun _ ↦ True) h log) {me : Nat} :
    (Hybrid.get ⟨front, x.tier⟩ key).AtOnce me h
      (fun a h' ↦ Coherent front.near.cache x.store (fun _ ↦ True) h' log ∧
        Answered h.now (standing key log) a)
      fun h' ↦ Coherent front.near.cache x.store (fun _ ↦ True) h' log ∧
        standing key log ≠ none ∧ Expiry.after h.now front.settings.population = none := by
  refine Call.AtOnce.bind (hc.localHit trivial rfl) fun r h' hr ↦ ?_
  obtain ⟨hc', hnow, hsome, hnone⟩ := hr
  cases r with
  | some v =>
    obtain ⟨w, hw, rfl⟩ := hsome v rfl
    rw [hw]
    exact Call.AtOnce.done ⟨hc', .value⟩
  | none =>
    refine Call.AtOnce.bind (hc'.remoteGet x rfl) fun a h'' ha ↦ ?_
    obtain ⟨hc'', hnow', hnear, hanswered⟩ := ha
    rw [hnow] at hnow' hanswered
    cases a with
    | error f => exact Call.AtOnce.done ⟨hc'', hanswered⟩
    | ok v =>
      have hbefore : (h''.tiers.localTier front.near.cache).table.get? key = none := by
        rw [hnear]
        exact hnone rfl
      have hpromoted := hc''.promote me ⟨front, x.tier⟩ front.settings.population rfl hanswered
        hbefore
      rw [hnow'] at hpromoted
      exact hpromoted.bind fun _ h₃ hc₃ ↦ Call.AtOnce.done ⟨hc₃, hanswered⟩

theorem contains (hc : Coherent front.near.cache x.store (fun _ ↦ True) h log) {me : Nat}
    {F : Heap → Prop} :
    (Hybrid.contains ⟨front, x.tier⟩ key).AtOnce me h
      (fun _ h' ↦ Coherent front.near.cache x.store (fun _ ↦ True) h' log) F := by
  refine Call.AtOnce.bind (P := fun _ h' ↦ Coherent front.near.cache x.store (fun _ ↦ True) h' log)
    ?_ fun a h' hc' ↦ ?_
  · refine Call.AtOnce.whenOpen (fun _ ↦ hc) fun _ ↦ ?_
    exact Call.AtOnce.bind (P := fun _ h' ↦ Coherent front.near.cache x.store (fun _ ↦ True) h' log)
      (Call.AtOnce.look hc) fun _ _ hc' ↦ Call.AtOnce.done hc'
  · split
    · exact Call.AtOnce.done hc'
    · exact hc'.remoteContains x rfl

/-- A removal from the local tier. -/
theorem clear (hc : Coherent l s P h log) {me : Nat} {near : LocalHandle} (hl : near.cache = l)
    {F : Heap → Prop} :
    (discard (near.tier.del key)).AtOnce me h (fun _ h' ↦ Coherent l s P h' log ∧
      (h'.tiers.localTier l).table.get? key = none) F := by
  subst hl
  refine Call.AtOnce.discard (Call.AtOnce.whenOpen (fun hclosed ↦ ?_) fun _ ↦ ?_)
  · exact ⟨hc, hc.closed hclosed key⟩
  · refine Call.AtOnce.bind (P := fun _ h' ↦ Coherent near.cache s P h' log ∧
        (h'.tiers.localTier near.cache).table.get? key = none)
      (Call.AtOnce.discard (Call.AtOnce.onLocal ⟨?_, ?_⟩)) fun _ _ hc' ↦ Call.AtOnce.done hc'
    · exact hc.quiet (Nat.le_refl _)
        (Tiers.quiet_setLocal _ (Tiers.within_remove _ key) rfl)
    · simp [LocalCache.remove]

/-- A removal from the store, after one from the local tier, leaves nothing under the key on either
tier. -/
theorem remoteDel (hc : Coherent l s P h log) {me : Nat} (x : StoreHandle) (hs : x.store = s)
    (hnear : (h.tiers.localTier l).table.get? key = none) {F : Heap → Prop} :
    (x.tier.del key).AtOnce me h
      (fun a h' ↦ a = .ok () ∧ ∀ th, Coherent l s P h' ((th, .deleted key) :: log)) F := by
  subst hs
  have hdel := Store.del_eq hc.online key
  change (Call.onStore x.store fun _ ↦ Store.del key).AtOnce me h _ _
  refine Call.AtOnce.onStore_of_ok (congrArg Prod.fst hdel) ?_
  rw [hdel]
  refine ⟨rfl, fun th ↦ ⟨?_, hc.closed, fun j ↦ ?_, fun j hP ↦ ?_⟩⟩
  · simp only [Tiers.store_setStore, if_true]
    exact hc.online
  · simp only [Tiers.store_setStore, if_true, standing, Store.drop, Dict.getElem?_erase]
    by_cases hj : j = key
    · rw [if_pos hj, if_pos hj.symm]
      rfl
    · rw [if_neg hj, if_neg fun h ↦ hj h.symm]
      exact hc.far j
  · by_cases hj : j = key
    · simp only [Tiers.localTier_setStore]
      rw [hj, hnear]
      exact near_none _
    · rw [standing, if_neg fun h ↦ hj h.symm]
      exact hc.near j hP

/-- To close the local tier is to empty it. -/
theorem closeNear (hc : Coherent l s P h log) {me : Nat} {near : LocalHandle}
    (hl : near.cache = l) {F : Heap → Prop} :
    near.tier.close.AtOnce me h (fun _ h' ↦ Coherent l s P h' log) F := by
  subst hl
  change (Call.onLocal near.cache fun _ c ↦ ((.ok () : Answer Unit), c.close)).AtOnce me h _ _
  refine Call.AtOnce.onLocal ⟨hc.online, fun _ j ↦ ?_, hc.far, fun j _ ↦ ?_⟩
  · simp [LocalCache.close, LocalCache.clear]
  · simp only [Tiers.localTier_setLocal, if_true]
    exact near_none _

end Coherent

end Hybrid

end TwoTier
