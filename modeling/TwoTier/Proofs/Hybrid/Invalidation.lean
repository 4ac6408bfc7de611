import TwoTier.Proofs.Hybrid.Sharing

/-!
# What a notice makes sure of

Somebody writes a key in the store and publishes it, and the listener of a hybrid tier takes the
notice. From there on, whatever the local tier answers under the key was put there later than the
write, whichever steps have been taken in between and are taken afterwards, by the calls and fills
of the hybrid tier and by anybody else (`Hybrid.answers_since_notice`).

The receive loop that takes the notice empties the local tier under the key. At this moment the
invariant `Hybrid.Watched` comes to hold without old copies, and calls that have long begun keep it.
-/

set_option autoImplicit false
set_option relaxedAutoImplicit false

namespace TwoTier

namespace Tiers

/-- What a receive loop takes next is a notice of a key, for a local tier. -/
structure Notified (t : Tiers) (r s l : Nat) (key : String) : Prop where
  ended : (t.loop r).ended = false
  cancelled : (t.loop r).cancelled = false
  source : (t.loop r).source = .store s
  listener : (t.listener (t.loop r).listener).localTier = l
  payload : ((t.store s).receive (t.loop r).subscription).1 = .payload key

/-- A notice of a single key drops it from the local tier of its listener. -/
theorem localTier_applyNotice_self (t : Tiers) (i : Nat) {key : String} (hkey : key ≠ "")
    (hpattern : isPattern key = false) :
    (t.applyNotice i key).localTier (t.listener i).localTier =
      (t.localTier (t.listener i).localTier).drop key := by
  have hsingle : ¬ (key = "" ∨ isPattern key = true) := by simp [hkey, hpattern]
  unfold applyNotice
  dsimp only
  rw [if_neg hsingle]
  exact (localTier_setLocal _ _ _ _).trans (if_pos rfl)

theorem localTier_of_notified {t : Tiers} {r s l : Nat} {key : String}
    (h : t.Notified r s l key) (hkey : key ≠ "") (hpattern : isPattern key = false) :
    (t.stepLoop r).localTier l = (t.localTier l).drop key := by
  unfold stepLoop
  simp only [h.ended, h.cancelled, h.source, h.payload, Bool.false_eq_true, if_false]
  rw [← h.listener]
  exact localTier_applyNotice_self _ _ hkey hpattern

end Tiers

namespace Hybrid

variable {front : Front} {x : StoreHandle} {key : String}

/-- When the notice has been taken the local tier shows nothing under the key, so that whatever it
shows from there on is new. -/
theorem watched_of_notice {h : Heap} {l : Log Deed} {r : Nat}
    (hc : Watch front x key True [] h l)
    (hnotice : h.tiers.Notified r x.store front.near.cache key) (hkey : key ≠ "")
    (hpattern : isPattern key = false) (since : Nat) :
    let stepped := h.tiers.stepLoop r
    Watched front x key False l
      { h with tiers := stepped.setLoop r { stepped.loop r with since := since } } [] := by
  intro stepped
  obtain ⟨new, rfl, hc⟩ := hc
  have hstepped := hc.still (calm_stepLoop r since)
  rw [List.append_nil]
  refine ⟨?_, ?_, fun v e hview ↦ ?_, fun newer _ _ _ hnil ↦ ?_⟩
  · have htold := hstepped.told
    rwa [List.append_nil] at htold
  · have hread := hstepped.read
    rwa [List.append_nil] at hread
  · change ((h.tiers.stepLoop r).localTier front.near.cache).view h.now key = some (v, e) at hview
    rw [Tiers.localTier_of_notified hnotice hkey hpattern, LocalCache.view_drop,
      if_pos rfl] at hview
    cases hview
  · cases newer <;> cases hnil

/-- What a read answers was put into the local tier since, or is what was written last. -/
theorem Watched.get {old : Prop} {base new : Log Deed} {h : Heap}
    (hc : Watched front x key old base h new) (me : Nat) :
    ((layered front x).get key).AtOnce me h (fun a _ ↦ ∀ v, a = .ok v →
      (old ∨ Put key v new) ∨ Told key (new ++ base) (some v)) fun _ ↦ True := by
  refine Call.AtOnce.bind hc.localHit fun r h' hr ↦ ?_
  obtain ⟨hc', hsome⟩ := hr
  cases r with
  | some v =>
    obtain ⟨e, hview⟩ := hsome v rfl
    refine Call.AtOnce.done fun v' hv' ↦ ?_
    obtain rfl := Except.ok.inj hv'
    exact Or.inl (hc'.shown v e hview)
  | none =>
    refine Call.AtOnce.bind (hc'.remoteGet.mono (fun _ _ ha ↦ ha) fun _ _ ↦ trivial)
      fun a h'' ha ↦ ?_
    obtain ⟨-, hshown⟩ := ha
    cases a with
    | error f => exact Call.AtOnce.done fun v hv ↦ by cases hv
    | ok v =>
      refine Call.AtOnce.bind (P := fun _ _ ↦ True)
        (Call.AtOnce.populate (fun _ ↦ trivial) fun _ ↦ ⟨fun _ ↦ trivial, fun _ ↦ trivial⟩)
        fun _ _ _ ↦ Call.AtOnce.done fun v' hv' ↦ ?_
      obtain rfl := Except.ok.inj hv'
      -- what the store showed was to be marked as read, and so is what was written last
      rw [← hshown v rfl]
      exact Or.inr ((hc'.asked key me).read [] me _ _ rfl)

/-- Where all texts that were left under a key since a write are the same as that of the write, a
value that was put into the local tier is this text. -/
theorem Watched.eq_text_of_put {old : Prop} {since older new : Log Deed} {h : Heap} {th : Nat}
    {text : Option String}
    (hc : Watched front x key old (since ++ (th, .wrote key text) :: older) h new)
    (hsame : ∀ u, Left key u (new ++ since) → text = some u) {v : String} (hput : Put key v new) :
    text = some v := by
  obtain ⟨⟨i, e⟩, hmem, rfl | rfl⟩ := hput
  · exact hsame v ⟨_, List.mem_append_left _ hmem, Or.inr rfl⟩
  · obtain ⟨newer, before, rfl⟩ := List.append_of_mem hmem
    have htold : Told key (before ++ (since ++ (th, .wrote key text) :: older)) (some v) :=
      hc.read newer i (some v) _ (List.append_assoc ..)
    rw [← List.append_assoc] at htold
    refine htold.eq_text fun u ⟨y, hy, hleft⟩ ↦ hsame u ⟨y, ?_, hleft⟩
    rcases List.mem_append.mp hy with hy | hy
    · exact List.mem_append_left _ (List.mem_append_right _ (List.mem_cons_of_mem _ hy))
    · exact List.mem_append_right _ hy

/-- Nothing is said of the key where nothing has been marked. -/
theorem watched_opening (front : Front) (x : StoreHandle) (key : String) (h : Heap) :
    Watched front x key True [] h [] where
  told _ hleft := by cases hleft
  read newer _ _ _ hnil := by cases newer <;> cases hnil
  shown _ _ _ := Or.inl trivial
  served _ _ _ _ _ := Or.inl trivial

/-- The listener of a hybrid tier takes a notice of a key that was written in the store before,
whatever the tiers hold at first and whatever has been done meanwhile. From there on, whatever the
local tier answers or shows under the key was put there after the notice was taken: as a copy of
what the store showed to a read, or by a write or a fill of the hybrid tier that was completed. If
no other text has been left under the key since the write, as where nobody else has written it, then
all values that are read through the hybrid tier are the text of the write, and where the write was
a removal there are none. The operations that the hybrid tier is used by are its own, marks
aside. -/
theorem answers_since_notice {ρ : Type} {now : Nat} {tiers : Tiers} {p q : Play Deed ρ} {r th : Nat}
    {text : Option String} {since older : Log Deed}
    (hp : Play.Reachable (sharing front x ρ) (Play.opening now tiers []) p)
    (hwrite : p.log = since ++ (th, .wrote key text) :: older)
    (hturn : p.Allowed (sharing front x ρ) (.run (.loop r)))
    (hnotice : p.world.heap.tiers.Notified r x.store front.near.cache key) (hkey : key ≠ "")
    (hpattern : isPattern key = false)
    (hq : Play.Reachable (sharing front x ρ) (p.apply (.run (.loop r))) q) :
    (recorded front x).Links ∧ ∃ new, q.log = new ++ p.log ∧
      (∀ newer me v before, new = newer ++ (me, .served key v) :: before → Put key v before) ∧
      (∀ v e, (q.world.heap.tiers.localTier front.near.cache).view q.world.heap.now key =
        some (v, e) → Put key v new) ∧
      ((∀ u, Left key u (new ++ since) → text = some u) →
        (∀ y ∈ new, ∀ v, y.2 = .served key v ∨ y.2 = .read key (some v) → text = some v) ∧
        ∀ me v, (((layered front x).get key).exec me q.world.heap []).rest = .done (.ok v) →
          text = some v) := by
  have hkeep : (sharing front x ρ).Keep (Watch front x key True []) := keep_sharing ρ
  have hopening : Play.Sound (Watch front x key True []) (sharing front x ρ).named
      (Play.opening now tiers (sharing front x ρ).named) :=
    Play.sound_opening ⟨[], rfl, watched_opening front x key _⟩
  have hsound := hp.sound hkeep hopening
  have hwithin : p.Within fun _ ↦ Shares front x :=
    hp.within Shares.lasting id hkeep hopening (Play.within_opening .crash)
  -- after the step of the receive loop there is no old copy, whatever is still under way
  have hrenewed : Play.Sound (Watch front x key False p.log) [] (p.apply (.run (.loop r))) := by
    refine (hsound.apply hkeep hturn).renew
      (hwithin.apply Shares.lasting id hsound hturn) (fun hm _ _ _ hw ↦ hm.resumes.safe hw) ?_
    exact ⟨[], rfl, watched_of_notice hsound.inv hnotice hkey hpattern _⟩
  obtain ⟨new, hlog, hc⟩ := (hq.sound (keep_sharing ρ) hrenewed).inv
  have hserved : ∀ newer me v before, new = newer ++ (me, .served key v) :: before →
      Put key v before :=
    fun newer me v before hnew ↦ (hc.served newer me v before hnew).resolve_left id
  refine ⟨(recorded front x).links, new, hlog, hserved,
    fun v e hview ↦ (hc.shown v e hview).resolve_left id, fun hsame ↦ ?_⟩
  rw [hwrite] at hc
  refine ⟨fun ⟨i, e⟩ hy v hv ↦ ?_, fun me v hv ↦ ?_⟩
  · refine hc.eq_text_of_put hsame ?_
    rcases hv with rfl | rfl
    · obtain ⟨newer, before, rfl⟩ := List.append_of_mem hy
      refine (hserved newer i v before rfl).mono fun z hz ↦ ?_
      exact List.mem_append_right _ (List.mem_cons_of_mem _ hz)
    · exact ⟨_, hy, Or.inr rfl⟩
  · rcases (hc.get me).rest_exec with ⟨a, ha, hanswer⟩ | ⟨hcrash, -⟩
    · rw [hv] at ha
      obtain rfl := Call.done.inj ha
      rcases hanswer v rfl with hput | htold
      · exact hc.eq_text_of_put hsame (hput.resolve_left id)
      · rw [← List.append_assoc] at htold
        exact htold.eq_text hsame
    · rw [hv] at hcrash
      cases hcrash

/-- The local tier holds a copy from long ago; another key has been removed, and a third one is
being filled. Somebody writes another value in the store and publishes the key; the copy is still
answered once before the listener takes the notice, and the value that was written is read from
there on. -/
theorem answers_since_notice_of_published :
    let front : Front := ⟨0, ⟨0, 0⟩, 1, { (default : HybridSettings) with populationSecs := 60 }⟩
    let x : StoreHandle := ⟨0, 2⟩
    let empty := LocalCache.create ⟨fun _ ↦ 0, id⟩ ⟨2, .random, 1⟩
    let tiers := (((Tiers.empty.setLocal 0 (LocalCache.insert 0 "k" "v" 0 empty).2).setStore 0
      { Store.empty with subscribers := [⟨0, "c", true, [], 0⟩] }).setListener 0
        ⟨0, .store 0, "c", 0, .running, 0, 0, 0, 0, some 0⟩).setLoop 0
          ⟨0, .store 0, 0, false, false, 0⟩
    let opening : Play Deed Unit := .opening 0 tiers []
    let writer : Marked Deed Unit :=
      .act (x.set "k" "w" 0) fun _ ↦ .mark (wroteMark x "k") <|
        .act (Call.onStore 0 fun _ ↦ Store.publish "c" "k") fun _ ↦ .done ()
    let reader : Marked Deed Unit :=
      .act ((layered front x).contains "k") fun _ ↦
        notedGet (recorded front x) "k" fun _ ↦ .pause <|
          notedGet (recorded front x) "k" fun _ ↦ .done ()
    let filler : Marked Deed Unit :=
      notedDel (recorded front x) "i" fun _ ↦
        notedGetOrSet (recorded front x) "j" 0 (.pause (.done (.ok "u"))) fun _ ↦ .done ()
    let spawned := ((opening.apply (.spawn [] writer)).apply (.spawn [] reader)).apply
      (.spawn [] filler)
    let flying := (spawned.apply (.run (.task 2))).apply (.run (.fill 3))
    let p := (flying.apply (.run (.task 0))).apply (.run (.task 1))
    let q := ((p.apply (.run (.loop 0))).apply (.run (.fill 3))).apply (.run (.task 1))
    let older : Log Deed := [(2, .read "j" none), (2, .wrote "i" none)]
    let since : Log Deed := [(1, .served "k" "v")]
    let new : Log Deed :=
      [(1, .read "k" (some "w")), (3, .stored "j" "u"), (3, .wrote "j" (some "u"))]
    Play.Reachable (sharing front x Unit) opening p ∧
      p.log = since ++ (0, .wrote "k" (some "w")) :: older ∧
      p.world.heap.tiers.Notified 0 0 0 "k" ∧
      Play.Reachable (sharing front x Unit) (p.apply (.run (.loop 0))) q ∧ q.log = new ++ p.log ∧
      ∀ me v, (((layered front x).get "k").exec me q.world.heap []).rest = .done (.ok v) →
        v = "w" := by
  intro front x empty tiers opening writer reader filler spawned flying p q older since new
  have hwriter : Shares front x writer :=
    shares_request (r := .set "k" "w" 0) (fun _ hj ↦ (Option.some.inj hj).symm) fun _ ↦
      shares_publish fun _ ↦ .done ()
  have hreader : Shares front x reader :=
    shares_contains fun _ ↦ shares_get fun _ ↦ .pause (shares_get fun _ ↦ .done ())
  have hfiller : Shares front x filler :=
    shares_del fun _ ↦ shares_getOrSet (.pause (.done _)) fun _ ↦ .done ()
  have hspawned : Play.Reachable (sharing front x Unit) opening spawned :=
    .move (.spawn [] filler) hfiller
      (.move (.spawn [] reader) hreader (.move (.spawn [] writer) hwriter .start))
  have hflying : Play.Reachable (sharing front x Unit) opening flying :=
    .move (.run (.fill 3)) ⟨3, by decide⟩ (.move (.run (.task 2)) ⟨2, by decide⟩ hspawned)
  have hp : Play.Reachable (sharing front x Unit) opening p :=
    .move (.run (.task 1)) ⟨1, by decide⟩ (.move (.run (.task 0)) ⟨0, by decide⟩ hflying)
  have hwrite : p.log = since ++ (0, .wrote "k" (some "w")) :: older := by decide
  have hturn : p.Allowed (sharing front x Unit) (.run (.loop 0)) := ⟨0, by decide⟩
  have hnotice : p.world.heap.tiers.Notified 0 0 0 "k" :=
    ⟨by decide, by decide, by decide, by decide, by decide⟩
  have hq : Play.Reachable (sharing front x Unit) (p.apply (.run (.loop 0))) q :=
    .move (.run (.task 1)) ⟨6, by decide⟩ (.move (.run (.fill 3)) ⟨4, by decide⟩ .start)
  have hlog : q.log = new ++ p.log := by decide
  refine ⟨hp, hwrite, hnotice, hq, hlog, fun me v hv ↦ ?_⟩
  obtain ⟨-, new', hnew, -, -, hsame⟩ :=
    answers_since_notice hp hwrite hturn hnotice (by decide) (by decide) hq
  obtain rfl := List.append_cancel_right (hnew.symm.trans hlog)
  refine (Option.some.inj ((hsame fun u hu ↦ ?_).2 me v hv)).symm
  -- the marks that the other key has left are none of the key
  obtain ⟨y, hy, hleft⟩ := hu
  simp only [since, new, List.cons_append, List.nil_append, List.mem_cons, List.not_mem_nil,
    or_false] at hy
  rcases hy with rfl | rfl | rfl | rfl <;> simp at hleft

end Hybrid

end TwoTier
