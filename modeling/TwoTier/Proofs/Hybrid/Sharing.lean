import TwoTier.Proofs.Hybrid.Notices

/-!
# Calls that share a store with a hybrid tier

A hybrid tier reads, writes, removes and fills keys; anybody else makes requests to the store behind
it and publishes messages there, and does elsewhere what is calm (`Hybrid.Shares`). Every write
leaves its mark. Such a call keeps what is said of a key in `Hybrid.Watched`
(`Hybrid.Shares.resumes`), and what is left of it at any of its waits is such a call again
(`Hybrid.Shares.lasting`).
-/

set_option autoImplicit false
set_option relaxedAutoImplicit false

namespace TwoTier

namespace Hybrid

open Marked (Safe)

/-- The calls that put values into the local tier of a hybrid tier only through this, and that leave
a mark at every write to the store. What they do elsewhere is calm. -/
inductive Shares (front : Front) (x : StoreHandle) : ∀ {α : Type}, Marked Deed α → Prop
  | done {α : Type} (a : α) : Shares front x (.done a)
  | crash {α : Type} : Shares front x (.crash : Marked Deed α)
  | read {α : Type} {key : String} {ttl : Nat} {k : Answer String → Marked Deed α}
      {miss : Fault → Marked Deed α} (hk : ∀ a, Shares front x (k a))
      (hmiss : ∀ f, Shares front x (miss f)) :
      Shares front x (notedRead (recorded front x) key ttl k miss)
  | set {α : Type} {key v : String} {ttl : Nat} {k : Answer Unit → Marked Deed α}
      (hk : ∀ a, Shares front x (k a)) :
      Shares front x (notedSet (recorded front x) key v ttl k)
  | peek {α : Type} {key : String} {k : Option String → Marked Deed α}
      (hk : ∀ r, Shares front x (k r)) :
      Shares front x (notedPeek (recorded front x) key k)
  | keep {α : Type} {key v : String} {ttl : Nat} {k : Marked Deed α} (hk : Shares front x k) :
      Shares front x (notedKeep (recorded front x) key v ttl k)
  | write {α β : Type} {key : String} {f : Heap → Call β} {k : β → Marked Deed α}
      (hf : ∀ me h, (Call.read f).AtOnce me h (fun _ h' ↦ Calm front x (some key) h h')
        (Calm front x none h)) (hk : ∀ b, Shares front x (k b)) :
      Shares front x (.act (.read f) fun b ↦ .mark (wroteMark x key) (k b))
  | aside {α β : Type} {f : Heap → Call β} {k : β → Marked Deed α}
      (hf : ∀ me h, (Call.read f).AtOnce me h (fun _ h' ↦ Calm front x none h h')
        (Calm front x none h)) (hk : ∀ b, Shares front x (k b)) :
      Shares front x (.act (.read f) k)
  | pop {α : Type} {s : Nat} {keys : List String} {deadline seen : Option Nat}
      {k : Answer (Option (String × String)) → Marked Deed α} (hk : ∀ a, Shares front x (k a)) :
      Shares front x (.pop s keys deadline seen k)
  | pause {α : Type} {k : Marked Deed α} (hk : Shares front x k) : Shares front x (.pause k)
  | sleep {α : Type} {wake : Option Nat} {k : Marked Deed α} (hk : Shares front x k) :
      Shares front x (.sleep wake k)
  | join {α : Type} {g : Nat} {key : String} {fill : Marked Deed (Answer String)}
      {k : Answer String → Marked Deed α} (hfill : Shares front x fill)
      (hk : ∀ a, Shares front x (k a)) : Shares front x (.join g key fill k)
  | await {α : Type} {i : Nat} {k : Answer String → Marked Deed α}
      (hk : ∀ a, Shares front x (k a)) : Shares front x (.await i k)
  | acquire {α : Type} {m : Lock} {k : Marked Deed α} (hk : Shares front x k) :
      Shares front x (.acquire m k)
  | release {α : Type} {m : Lock} {k : Marked Deed α} (hk : Shares front x k) :
      Shares front x (.release m k)
  | loopEnd {α : Type} {r : Nat} {deadline : Option Nat} {k : Bool → Marked Deed α}
      (hk : ∀ b, Shares front x (k b)) : Shares front x (.loopEnd r deadline k)

variable {front : Front} {x : StoreHandle} {α β : Type}

namespace Shares

theorem opens {m : Marked Deed α} (hm : Shares front x m) : Play.Opens m := by
  cases hm <;> trivial

/-- One such call after another is such a call. -/
theorem bind {m : Marked Deed α} (hm : Shares front x m) {f : α → Marked Deed β}
    (hf : ∀ a, Shares front x (f a)) : Shares front x (m.bind f) := by
  induction hm with
  | done a => exact hf a
  | crash => exact .crash
  | read _ _ ih ihmiss =>
    rw [notedRead_bind]
    exact .read (fun a ↦ ih a hf) fun e ↦ ihmiss e hf
  | set _ ih =>
    rw [notedSet_bind]
    exact .set fun a ↦ ih a hf
  | peek _ ih =>
    rw [notedPeek_bind]
    exact .peek fun r ↦ ih r hf
  | keep _ ih =>
    rw [notedKeep_bind]
    exact .keep (ih hf)
  | write hcalm _ ih => exact .write hcalm fun b ↦ ih b hf
  | aside hcalm _ ih => exact .aside hcalm fun b ↦ ih b hf
  | pop _ ih => exact .pop fun a ↦ ih a hf
  | pause _ ih => exact .pause (ih hf)
  | sleep _ ih => exact .sleep (ih hf)
  | join hfill _ _ ih => exact .join hfill fun a ↦ ih a hf
  | await _ ih => exact .await fun a ↦ ih a hf
  | acquire _ ih => exact .acquire (ih hf)
  | release _ ih => exact .release (ih hf)
  | loopEnd _ ih => exact .loopEnd fun b ↦ ih b hf

/-- What is left of such a call at a wait is such a call. -/
theorem lasting {m : Marked Deed α} (hm : Shares front x m) :
    m.Lasting fun _ ↦ Shares front x := by
  induction hm with
  | done a => exact .done a
  | crash => exact .crash
  | read _ _ ih ihmiss =>
    refine ⟨.crash, fun r ↦ ?_⟩
    cases r with
    | some v => exact ih _
    | none =>
      refine ⟨.crash, fun a ↦ ?_⟩
      cases a with
      | ok v => exact ⟨.crash, fun _ ↦ ih _⟩
      | error f => exact ihmiss f
  | set _ ih =>
    refine ⟨.crash, fun a ↦ ?_⟩
    cases a with
    | ok _ => exact ⟨.crash, fun _ ↦ ih _⟩
    | error f => exact ih _
  | peek _ ih =>
    refine ⟨.crash, fun r ↦ ?_⟩
    cases r <;> exact ih _
  | keep _ ih => exact ⟨.crash, fun _ ↦ ⟨.crash, fun _ ↦ ih⟩⟩
  | write _ _ ih => exact ⟨.crash, ih⟩
  | aside _ _ ih => exact ⟨.crash, ih⟩
  | pop hk ih => exact ⟨fun _ ↦ .pop hk, ih⟩
  | pause hk ih => exact ⟨.pause hk, ih⟩
  | sleep hk ih => exact ⟨.sleep hk, ih⟩
  | join hfill hk ihfill ih =>
    exact ⟨.join hfill hk, fun _ ↦ .await hk, ih, .pause hfill, ihfill⟩
  | await hk ih => exact ⟨.await hk, ih⟩
  | acquire hk ih => exact ⟨.acquire hk, ih⟩
  | release _ ih => exact ih
  | loopEnd hk ih => exact ⟨.loopEnd hk, ih⟩

end Shares

/-! ### What they keep -/

/-- What is said of a key since some marks were left, as an invariant of all marks. -/
def Watch (front : Front) (x : StoreHandle) (key : String) (old : Prop) (base : Log Deed) (h : Heap)
    (l : Log Deed) : Prop :=
  ∃ new, l = new ++ base ∧ Watched front x key old base h new

section Safe

variable {key : String} {old : Prop} {base new : Log Deed} {h h' : Heap} {me : Nat}

theorem Watched.watch (hc : Watched front x key old base h new) :
    Watch front x key old base h (new ++ base) := ⟨new, rfl, hc⟩

theorem Watch.calm {l : Log Deed} (hc : Watch front x key old base h l)
    (hcalm : Calm front x none h h') : Watch front x key old base h' l := by
  obtain ⟨new, hl, hc⟩ := hc
  exact ⟨new, hl, hc.still hcalm⟩

theorem Watch.congr {l : Log Deed} (hc : Watch front x key old base h l) (hnow : h'.now = h.now)
    (htiers : h'.tiers = h.tiers) : Watch front x key old base h' l :=
  hc.calm (calm_of_eq hnow htiers)

theorem kept_watch : Play.Kept (Watch front x key old base) [] where
  thread _ _ hc := hc.congr rfl rfl
  clock hnow hc := hc.calm (calm_of_fades (fades_clock hnow) rfl)
  loop _ _ _ hc := hc.calm (calm_stepLoop _ _)
  release _ hc := hc.calm (calm_release _)

/-- What a call goes on with keeps what is said of the key. -/
def Resumes (front : Front) (x : StoreHandle) (key : String) (old : Prop) (base : Log Deed)
    (me : Nat) (m : Marked Deed α) : Prop :=
  ∀ h new, Watched front x key old base h new →
    Safe (Watch front x key old base) me m h (new ++ base)

theorem Resumes.safe {m : Marked Deed α} (hm : Resumes front x key old base me m) {l : Log Deed}
    (hw : Watch front x key old base h l) : Safe (Watch front x key old base) me m h l := by
  obtain ⟨new, rfl, hc⟩ := hw
  exact hm h new hc

theorem Resumes.later {m : Marked Deed α} (hm : Resumes front x key old base me m) (l : Log Deed) :
    Marked.Later (Watch front x key old base) me l (Safe (Watch front x key old base) me m) :=
  fun _ _ hw _ ↦ hm.safe hw

/-- Code that ends at once, and what follows it. -/
theorem Watched.safe_act {c : Call β} {k : β → Marked Deed α} {P : β → Heap → Prop}
    (hc : c.AtOnce me h P fun h' ↦ Watched front x key old base h' new)
    (hk : ∀ b h', P b h' → Safe (Watch front x key old base) me (k b) h' (new ++ base)) :
    Safe (Watch front x key old base) me (.act c k) h (new ++ base) :=
  Marked.Safe.of_atOnce hc hk fun _ hc' ↦ hc'.watch.congr rfl rfl

/-- A reading. -/
theorem Watched.safe_read (hc : Watched front x key old base h new) {j : String} {ttl : Nat}
    {k : Answer String → Marked Deed α} {miss : Fault → Marked Deed α}
    (hk : ∀ a, Resumes front x key old base me (k a))
    (hmiss : ∀ f, Resumes front x key old base me (miss f)) :
    Safe (Watch front x key old base) me (notedRead (recorded front x) j ttl k miss) h
      (new ++ base) := by
  refine Watched.safe_act hc.localHit fun r h' hr ↦ ?_
  obtain ⟨hc', hsome⟩ := hr
  cases r with
  | some v =>
    obtain ⟨e, hview⟩ := hsome v rfl
    exact hk _ h' _ (hc'.answered hview me)
  | none =>
    refine Watched.safe_act (hc'.asked j me).remoteGet fun a h'' ha ↦ ?_
    obtain ⟨hc'', hshown⟩ := ha
    cases a with
    | error f => exact hmiss f h'' _ hc''
    | ok v =>
      refine Watched.safe_act (hc''.populate fun hj ↦ ?_) fun _ h₃ hc₃ ↦ hk _ h₃ _ hc₃
      rw [hshown v rfl, hj]
      exact Or.inr ⟨_, List.mem_cons_self, Or.inr rfl⟩

/-- After a value was written to the store it is left in the local tier. -/
theorem Watched.safe_copy (hc : Watched front x key old base h new) {j v : String} {ttl : Nat}
    (hcalm : Calm front x (some j) h h') {k : Marked Deed α}
    (hk : Resumes front x key old base me k) :
    Safe (Watch front x key old base) me
      (.mark (wroteMark x j) <| .mark (fun _ ↦ .stored j v) <|
        .act ((layered front x).populate j v ttl) fun _ ↦ k) h' (new ++ base) := by
  have hstored := (hc.wrote hcalm me).stored j v me
  refine Watched.safe_act (hstored.populate fun hj ↦ ?_) fun _ h'' hc'' ↦ hk h'' _ hc''
  exact Or.inr ⟨_, List.mem_cons_self, Or.inl (by rw [hj])⟩

/-- The store answers a write. -/
theorem Watched.remoteSet (hc : Watched front x key old base h new) {j v : String} {ttl : Nat} :
    (x.set j v ttl).AtOnce me h (fun _ h' ↦ Calm front x (some j) h h')
      fun h' ↦ Watched front x key old base h' new := by
  refine (calm_atOnce_request (r := .set j v ttl) fun i hi ↦ (Option.some.inj hi).symm).mono
    (fun _ _ hcalm ↦ hcalm) fun h' hcalm ↦ ?_
  exact hc.still hcalm

/-- A call that shares the store with the hybrid tier keeps what is said of the key. -/
theorem Shares.resumes {m : Marked Deed α} (hm : Shares front x m) :
    Resumes front x key old base me m := by
  -- a fill is run by a thread of its own, so that the thread varies in the induction
  induction hm generalizing me with
  | done a => exact fun h new hc ↦ hc.watch.congr rfl rfl
  | crash => exact fun h new hc ↦ hc.watch.congr rfl rfl
  | read _ _ ih ihmiss =>
    exact fun h new hc ↦ hc.safe_read (fun a ↦ ih a) fun f ↦ ihmiss f
  | set _ ih =>
    refine fun h new hc ↦ Watched.safe_act hc.remoteSet fun a h' hcalm ↦ ?_
    cases a with
    | ok _ => exact hc.safe_copy hcalm (ih _)
    | error f => exact ih _ h' _ (hc.wrote hcalm me)
  | peek _ ih =>
    refine fun h new hc ↦ Watched.safe_act hc.lookup fun r h' hr ↦ ?_
    obtain ⟨hc', hsome⟩ := hr
    cases r with
    | some v =>
      obtain ⟨e, hview⟩ := hsome v rfl
      exact ih _ h' _ (hc'.answered hview me)
    | none => exact ih _ h' _ hc'
  | keep _ ih =>
    exact fun h new hc ↦ Watched.safe_act hc.remoteSet fun _ _ hcalm ↦ hc.safe_copy hcalm ih
  | write hcalm _ ih =>
    intro h new hc
    have hact := (hcalm me h).mono (fun _ _ hcalm ↦ hcalm) fun h' ↦ hc.still
    exact Watched.safe_act hact fun b h' hcalm ↦ ih b h' _ (hc.wrote hcalm me)
  | aside hcalm _ ih =>
    intro h new hc
    have hact := (hcalm me h).mono (fun _ h' ↦ hc.still) fun h' ↦ hc.still
    exact Watched.safe_act hact fun b h' hc' ↦ ih b h' _ hc'
  | @pop _ s keys _ _ _ _ ih =>
    refine fun h new hc ↦ ⟨hc.watch, fun h' l' hw _ ↦ ?_⟩
    obtain ⟨new', rfl, hc'⟩ := hw
    have htried := hc'.still (calm_request (.pop keys) s fun _ hj ↦ by cases hj)
    exact ⟨fun _ _ ↦ ih _ _ _ htried, fun _ _ ↦ ih _ _ _ htried, fun _ ↦ htried.watch,
      ih _ _ _ hc'⟩
  | pause _ ih => exact fun h new hc ↦ ⟨hc.watch, Resumes.later ih _⟩
  | sleep _ ih => exact fun h new hc ↦ ⟨hc.watch, Resumes.later ih _⟩
  | join _ _ ihfill ih =>
    exact fun h new hc ↦ ⟨hc.watch, fun _ _ _ hw _ ↦ Resumes.safe ihfill hw,
      fun o ↦ Resumes.later (ih o) _⟩
  | await _ ih => exact fun h new hc ↦ ⟨hc.watch, fun o ↦ Resumes.later (ih o) _⟩
  | @acquire _ m _ _ ih =>
    refine fun h new hc ↦ ⟨hc.watch, fun h' l' hw _ ↦ ?_⟩
    obtain ⟨new', rfl, hc'⟩ := hw
    have henqueued : Watched front x key old base (h'.enqueue m me) new' :=
      hc'.still (calm_of_eq (Heap.now_enqueue h' m me) (Heap.tiers_enqueue h' m me))
    exact ⟨henqueued.watch, fun _ ↦ ih _ _ henqueued⟩
  | release _ ih =>
    exact fun h new hc ↦ ih _ _ (hc.still (calm_of_eq rfl rfl))
  | loopEnd _ ih =>
    exact fun h new hc ↦ ⟨hc.watch, fun _ _ hw _ ↦
      ⟨fun _ ↦ Resumes.safe (ih true) hw, fun _ ↦ Resumes.safe (ih false) hw⟩⟩

end Safe

/-! ### Which calls these are -/

section Calls

variable {key : String} {s : Nat}

theorem shares_get {k : Answer String → Marked Deed α} (hk : ∀ a, Shares front x (k a)) :
    Shares front x (notedGet (recorded front x) key k) := .read hk fun f ↦ hk (.error f)

theorem shares_fill {ttl : Nat} {fetch : Marked Deed (Except String String)}
    (hfetch : Shares front x fetch) :
    Shares front x (notedFill (recorded front x) key ttl fetch) := by
  refine .peek fun r ↦ ?_
  cases r with
  | some v => exact .done _
  | none =>
    refine hfetch.bind fun fetched ↦ ?_
    cases fetched with
    | ok v => exact .keep (.done _)
    | error source => exact .done _

theorem shares_getOrSet {ttl : Nat} {fetch : Marked Deed (Except String String)}
    {k : Answer String → Marked Deed α} (hfetch : Shares front x fetch)
    (hk : ∀ a, Shares front x (k a)) :
    Shares front x (notedGetOrSet (recorded front x) key ttl fetch k) :=
  .read hk fun _ ↦ .join (shares_fill hfetch) hk

/-- Whoever makes a request to the store about a key, which may write it. -/
theorem shares_request {r : Store.Request} (hr : ∀ j, r.texts = some j → j = key)
    {k : Answer r.Reply → Marked Deed α} (hk : ∀ a, Shares front x (k a)) :
    Shares front x (.act (Call.onStore s fun now ↦ r.apply now) fun a ↦
      .mark (wroteMark x key) (k a)) :=
  .write (fun _ _ ↦ calm_atOnce_request hr) hk

theorem shares_del {k : Answer Unit → Marked Deed α} (hk : ∀ a, Shares front x (k a)) :
    Shares front x (notedDel (recorded front x) key k) := by
  refine .aside (fun me h ↦ ?_) fun _ ↦
    shares_request (r := .del key) (s := x.store) (fun _ hj ↦ by cases hj) hk
  change (discard (front.near.tier.del key)).AtOnce me h _ _
  refine Call.AtOnce.discard (Call.AtOnce.whenOpen (fun _ ↦ calm_of_eq rfl rfl) fun _ ↦ ?_)
  refine Call.AtOnce.bind (P := fun _ h' ↦ Calm front x none h h')
    (Call.AtOnce.discard (Call.AtOnce.onLocal ?_)) fun _ _ hcalm ↦ Call.AtOnce.done hcalm
  exact calm_of_fades (fades_drop _ key) rfl

theorem shares_contains {k : Answer Bool → Marked Deed α} (hk : ∀ a, Shares front x (k a)) :
    Shares front x (.act ((layered front x).contains key) k) := by
  refine .aside (fun me h ↦ ?_) hk
  change ((layered front x).contains key).AtOnce me h _ _
  refine Call.AtOnce.bind (P := fun _ h' ↦ h' = h) ?_ fun a h' hh' ↦ ?_
  · exact Call.AtOnce.whenOpen (fun _ ↦ rfl) fun _ ↦
      Call.AtOnce.bind (P := fun _ h' ↦ h' = h) (Call.AtOnce.look rfl)
        fun _ _ hh' ↦ Call.AtOnce.done hh'
  · subst hh'
    split
    · exact Call.AtOnce.done (calm_of_eq rfl rfl)
    · change (Call.onStore x.store fun now ↦ Store.contains now key).AtOnce me h' _ _
      exact calm_atOnce_store fun j _ hu ↦
        Store.text?_of_request (r := .contains key) (Option.some_ne_none j).symm hu

/-- Whoever asks a store for something, and leaves no text there. -/
theorem shares_store {op : Nat → Store → Outcome β × Store} {k : Answer β → Marked Deed α}
    (hop : ∀ now y j u, (op now y).2.text? now j = some u → y.text? now j = some u)
    (hk : ∀ a, Shares front x (k a)) : Shares front x (.act (Call.onStore s op) k) :=
  .aside (fun _ h ↦ calm_atOnce_store fun j u ↦ hop h.now (h.tiers.store s) j u) hk

/-- Whoever publishes a message. -/
theorem shares_publish {channel payload : String} {k : Answer Unit → Marked Deed α}
    (hk : ∀ a, Shares front x (k a)) :
    Shares front x (.act (Call.onStore s fun _ ↦ Store.publish channel payload) k) := by
  refine shares_store (fun now y j u hu ↦ ?_) hk
  have hdata : (Store.publish channel payload y).2.data = y.data := by
    unfold Store.publish Store.whenOnline
    split <;> rfl
  rwa [Store.text?_congr hdata] at hu

end Calls

/-- Tasks share the store with the hybrid tier, and may be cancelled. -/
def sharing (front : Front) (x : StoreHandle) (ρ : Type) : Play.Rules Deed ρ :=
  ⟨Shares front x, [], True⟩

theorem keep_sharing {key : String} {old : Prop} {base : Log Deed} (ρ : Type) :
    (sharing front x ρ).Keep (Watch front x key old base) where
  kept := kept_watch
  aborts _ _ _ _ hc := hc.congr rfl rfl
  opens hm := hm.opens
  safe hm _ _ _ hw _ := hm.resumes.safe hw

end Hybrid

end TwoTier
