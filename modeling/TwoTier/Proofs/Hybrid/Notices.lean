import TwoTier.Proofs.Engine.Renewal
import TwoTier.Proofs.Fetch.Reading
import TwoTier.Proofs.Hybrid.Noted
import TwoTier.Proofs.Store.Fate

/-!
# What a local tier holds since a moment

Anybody may write to the store behind a hybrid tier, and the hybrid tier reads, writes and fills as
it likes (`Hybrid.Shares`). The marks say who put what where (`Hybrid.Deed`): every write of a key
in the store, every read of it by the hybrid tier, every value that the hybrid tier stored, and
every value that its local tier answered.

From a moment at which the local tier shows nothing under a key, whatever it shows was put there
since, by a read of the store or by a write or a fill (`Hybrid.Watched`); and what the store shows
under the key is what was written there last. Every call keeps this (`Hybrid.Shares.resumes`), and
goes on to keep it wherever it waits (`Hybrid.Shares.lasting`), so that the moment may come when
calls and fills are under way.
-/

set_option autoImplicit false
set_option relaxedAutoImplicit false

namespace TwoTier

namespace Store

/-- The key under which a request may leave another text. -/
def Request.texts : Request → Option String
  | .set key _ _ => some key
  | .incr key => some key
  | _ => none

theorem text?_eq_some_iff {s : Store} {now : Nat} {key u : String} :
    s.text? now key = some u ↔ ∃ e, s.live? now key = some ⟨.text u, e⟩ := by
  unfold text?
  rcases s.live? now key with _ | ⟨_ | _ | _, e⟩ <;> simp

/-- A request leaves no text under a key that was not there before, unless it is one to write it. -/
theorem Fate.text {now : Nat} {key u : String} {r : Request} {x y : Option Stored} {e : Expiry}
    (h : Fate now key r x y) (hr : r.texts ≠ some key) (hy : y = some ⟨.text u, e⟩) : x = y := by
  cases h with
  | kept => rfl
  | written => exact absurd rfl hr
  | begun => exact absurd rfl hr
  | counted => exact absurd rfl hr
  | _ => cases hy

theorem text?_of_request {r : Request} {now : Nat} {s : Store} {key u : String}
    (hr : r.texts ≠ some key) (h : (r.apply now s).2.text? now key = some u) :
    s.text? now key = some u := by
  obtain ⟨e, he⟩ := text?_eq_some_iff.mp h
  exact text?_eq_some_iff.mpr ⟨e, ((r.fate now s key).text hr he).trans he⟩

/-- A write that the clock has no room for leaves the store as it is. -/
theorem snd_of_overflow {r : Request} {now : Nat} {s : Store} {key : String}
    (hr : r.texts = some key) (h : (r.apply now s).1 = .overflow) : (r.apply now s).2 = s := by
  cases r with
  | set k v ttl =>
    simp only [Request.apply, set, whenOnline] at h ⊢
    split_ifs at h ⊢
    cases hafter : Expiry.after now ttl with
    | none => rfl
    | some e =>
      rw [hafter] at h
      cases h
  | incr k =>
    simp only [Request.apply, incr, whenOnline] at h
    split_ifs at h
    split at h
    · cases h
    · split at h <;> cases h
    · cases h
  | _ => cases hr

theorem text?_congr {s s' : Store} (hdata : s'.data = s.data) (now : Nat) (key : String) :
    s'.text? now key = s.text? now key := by
  unfold text?
  rw [live?_congr hdata]

/-- A text that is shown later was shown before. -/
theorem text?_of_later {s : Store} {now later : Nat} {key u : String} (hle : now ≤ later)
    (h : s.text? later key = some u) : s.text? now key = some u := by
  obtain ⟨e, he⟩ := text?_eq_some_iff.mp h
  exact text?_eq_some_iff.mpr ⟨e, live?_of_later hle he⟩

end Store

/-- What a store answers a read with is what it shows. -/
theorem StoreHandle.shown_of_get {x : StoreHandle} {h : Heap} {key v : String}
    (hget : (Store.get h.now key (h.tiers.store x.store)).1 = .ok v) : x.shown h key = some v := by
  have honline : (h.tiers.store x.store).offline ≠ true := fun hoffline ↦ by
    simp only [Store.get, Store.whenOnline, hoffline, if_true] at hget
    cases hget
  rw [shown, if_neg honline]
  exact Store.text?_of_get hget

namespace Hybrid

/-- What is marked of a hybrid tier over a store, and of those who write to the store. -/
inductive Deed where
  /-- Somebody wrote a key in the store, which shows a text under it since, or none. -/
  | wrote (key : String) (text : Option String)
  /-- The hybrid tier read a key in the store, which showed a text, or none. -/
  | read (key : String) (text : Option String)
  /-- A write or a fill of the hybrid tier is completed, which leaves a value in the local tier. -/
  | stored (key value : String)
  /-- The local tier answered a value. -/
  | served (key value : String)
  deriving DecidableEq, Repr

/-- The mark of a write. -/
def wroteMark (x : StoreHandle) (key : String) (h : Heap) : Deed :=
  .wrote key ((h.tiers.store x.store).text? h.now key)

/-- The marks of the hybrid tier. -/
def deeds (x : StoreHandle) : Notes Deed where
  hit key v := [fun _ ↦ .served key v]
  ask key := [fun h ↦ .read key (x.shown h key)]
  wrote key v _
    | .ok _ => [wroteMark x key, fun _ ↦ .stored key v]
    | .error _ => [wroteMark x key]
  filled key v _ _ := [wroteMark x key, fun _ ↦ .stored key v]
  deleted key _ := [wroteMark x key]

/-- A local tier in front of a store, with these marks. -/
def recorded (front : Front) (x : StoreHandle) : Noted Deed :=
  ⟨layered front x, .silent Deed x.tier, deeds x⟩

/-! ### What the marks say -/

/-- The text that the last write of a key has left, where there was one. -/
def lastWrite (key : String) : Log Deed → Option (Option String)
  | [] => none
  | (_, .wrote j text) :: l => if j = key then some text else lastWrite key l
  | _ :: l => lastWrite key l

/-- A text that is shown is the one that the last write has left. -/
def Told (key : String) (l : Log Deed) (text : Option String) : Prop :=
  ∀ left, lastWrite key l = some left → ∀ u, text = some u → left = some u

/-- A value was put into the local tier: by a write or a fill of the hybrid tier, or as a copy of
what a read of the store found. -/
def Put (key v : String) (l : Log Deed) : Prop :=
  ∃ y ∈ l, y.2 = .stored key v ∨ y.2 = .read key (some v)

/-- A text was left under a key: in the store, or by a write or a fill of the hybrid tier. -/
def Left (key u : String) (l : Log Deed) : Prop :=
  ∃ y ∈ l, y.2 = .wrote key (some u) ∨ y.2 = .stored key u

theorem Put.mono {key v : String} {l l' : Log Deed} (h : Put key v l) (hl : l ⊆ l') :
    Put key v l' := by
  obtain ⟨y, hy, hput⟩ := h
  exact ⟨y, hl hy, hput⟩

/-- The last write is a given one, unless another one has followed. -/
theorem lastWrite_append (key : String) (l older : Log Deed) (th : Nat) (text : Option String) :
    ∃ left, lastWrite key (l ++ (th, .wrote key text) :: older) = some left ∧
      (left = text ∨ ∃ y ∈ l, y.2 = .wrote key left) := by
  induction l with
  | nil => exact ⟨text, if_pos rfl, Or.inl rfl⟩
  | cons y l ih =>
    obtain ⟨left, hleft, hfrom⟩ := ih
    have hlater : left = text ∨ ∃ z ∈ y :: l, z.2 = .wrote key left :=
      hfrom.imp id fun ⟨z, hz, hwrote⟩ ↦ ⟨z, List.mem_cons_of_mem _ hz, hwrote⟩
    obtain ⟨i, e⟩ := y
    cases e with
    | wrote j t =>
      by_cases hj : j = key
      · subst hj
        exact ⟨t, if_pos rfl, Or.inr ⟨_, List.mem_cons_self, rfl⟩⟩
      · exact ⟨left, (if_neg hj).trans hleft, hlater⟩
    | _ => exact ⟨left, hleft, hlater⟩

/-- Where all texts that were left under a key since a write are the same as that of the write, what
is shown is this text. -/
theorem Told.eq_text {key v : String} {l older : Log Deed} {th : Nat} {text : Option String}
    (h : Told key (l ++ (th, .wrote key text) :: older) (some v))
    (hsame : ∀ u, Left key u l → text = some u) : text = some v := by
  obtain ⟨left, hleft, rfl | ⟨y, hy, hwrote⟩⟩ := lastWrite_append key l older th text
  · exact h left hleft v rfl
  · rw [h left hleft v rfl] at hwrote
    exact hsame v ⟨y, hy, Or.inl hwrote⟩

/-! ### Steps that put nothing new into the tiers -/

/-- Nothing new can be seen in the local tier, and the store shows no text that it did not show
before, but under one key perhaps. -/
structure Calm (front : Front) (x : StoreHandle) (written : Option String) (h h' : Heap) :
    Prop where
  near : Fades (· = front) h h'
  far : ∀ key, written ≠ some key → ∀ u, (h'.tiers.store x.store).text? h'.now key = some u →
    (h.tiers.store x.store).text? h.now key = some u

section Calm

variable {front : Front} {x : StoreHandle} {written : Option String} {h h' : Heap}

/-- The store is as it was. -/
theorem calm_of_fades (hnear : Fades (· = front) h h') (hstore : h'.tiers.store x.store =
    h.tiers.store x.store) : Calm front x written h h' where
  near := hnear
  far key _ u hu := by
    rw [hstore] at hu
    exact Store.text?_of_later hnear.now_le hu

/-- The tiers are as they were. -/
theorem calm_of_eq (hnow : h'.now = h.now) (htiers : h'.tiers = h.tiers) :
    Calm front x written h h' :=
  calm_of_fades (fades_of_localTier hnow fun _ ↦ by rw [htiers]) (by rw [htiers])

/-- One store in another state. -/
theorem calm_setStore (s : Nat) (y : Store) (hfar : s = x.store → ∀ key, written ≠ some key →
    ∀ u, y.text? h.now key = some u → (h.tiers.store s).text? h.now key = some u) :
    Calm front x written h { h with tiers := h.tiers.setStore s y } where
  near := fades_of_localTier rfl fun _ ↦ rfl
  far key hkey u hu := by
    simp only [Tiers.store_setStore] at hu
    split_ifs at hu with hs
    · rw [hs]
      exact hfar hs.symm key hkey u hu
    · exact hu

/-- A request changes the text of one key at most. -/
theorem calm_request (r : Store.Request) (s : Nat) (hr : ∀ key, r.texts = some key →
    written = some key) : Calm front x written h
      { h with tiers := h.tiers.setStore s (r.apply h.now (h.tiers.store s)).2 } :=
  calm_setStore s _ fun _ key hkey _ hu ↦
    Store.text?_of_request (fun htexts ↦ hkey (hr key htexts)) hu

theorem calm_stepLoop (r since : Nat) :
    Calm front x written h
      { h with tiers :=
        (h.tiers.stepLoop r).setLoop r { (h.tiers.stepLoop r).loop r with since := since } } where
  near := fades_stepLoop r since
  far key _ u hu := by
    obtain ⟨subscribers, hstore⟩ := Tiers.retuned_stepLoop h.tiers r x.store
    change ((h.tiers.stepLoop r).store x.store).text? h.now key = some u at hu
    rw [hstore] at hu
    exact hu

theorem calm_release (held : List Held) :
    Calm front x written h { h with tiers := h.tiers.release held } where
  near := fades_of_localTier rfl fun n ↦ Tiers.localTier_release h.tiers held n
  far key _ u hu := by
    obtain ⟨subscribers, hstore⟩ := Tiers.retuned_release h.tiers held x.store
    change ((h.tiers.release held).store x.store).text? h.now key = some u at hu
    rw [hstore] at hu
    exact hu

/-- An operation on a store that leaves no text under a key that was not there before. -/
theorem calm_atOnce_store {β : Type} {me s : Nat} {op : Nat → Store → Outcome β × Store}
    (hop : ∀ key u, (op h.now (h.tiers.store s)).2.text? h.now key = some u →
      (h.tiers.store s).text? h.now key = some u) :
    (Call.onStore s op).AtOnce me h (fun _ h' ↦ Calm front x written h h')
      (Calm front x written h) :=
  Call.AtOnce.onStore_of_heap (calm_setStore s _ fun _ key _ ↦ hop key)

/-- A request that writes at most one key is calm but for this key, and without an answer it
changes nothing. -/
theorem calm_atOnce_request {r : Store.Request} {me s : Nat} {key : String}
    (hr : ∀ j, r.texts = some j → j = key) :
    (Call.onStore s fun now ↦ r.apply now).AtOnce me h
      (fun _ h' ↦ Calm front x (some key) h h') (Calm front x none h) := by
  have hanswered : Calm front x (some key) h
      { h with tiers := h.tiers.setStore s (r.apply h.now (h.tiers.store s)).2 } :=
    calm_request r s fun j hj ↦ congrArg some (hr j hj).symm
  refine Call.AtOnce.onStore (fun _ _ ↦ hanswered) (fun _ _ ↦ hanswered) fun hoverflow ↦ ?_
  cases htexts : r.texts with
  | none => exact calm_request r s fun j hj ↦ by rw [htexts] at hj; cases hj
  | some j =>
    refine calm_setStore s _ fun _ _ _ _ hu ↦ ?_
    rwa [Store.snd_of_overflow htexts hoverflow] at hu

end Calm

/-! ### What is kept under a key -/

/-- What the store shows under a key is what was written there last, and so is what it has shown the
hybrid tier. What the local tier shows under the key, and what it has answered, was put there since
the marks in `base` were left, but for old copies where there may be some. -/
structure Watched (front : Front) (x : StoreHandle) (key : String) (old : Prop) (base : Log Deed)
    (h : Heap) (new : Log Deed) : Prop where
  told : Told key (new ++ base) ((h.tiers.store x.store).text? h.now key)
  read : ∀ newer th text older, new ++ base = newer ++ (th, .read key text) :: older →
    Told key older text
  shown : ∀ v e, (h.tiers.localTier front.near.cache).view h.now key = some (v, e) →
    old ∨ Put key v new
  served : ∀ newer th v older, new = newer ++ (th, .served key v) :: older → old ∨ Put key v older

theorem lastWrite_cons {key : String} {e : Deed} (he : ∀ text, e ≠ .wrote key text) (th : Nat)
    (l : Log Deed) : lastWrite key ((th, e) :: l) = lastWrite key l := by
  cases e with
  | wrote j text =>
    have hj : j ≠ key := fun hj ↦ he text (congrArg (Deed.wrote · text) hj)
    exact if_neg hj
  | _ => rfl

namespace Watched

variable {front : Front} {x : StoreHandle} {key : String} {old : Prop} {base new : Log Deed}
  {h h' : Heap} {me : Nat}

/-- Nothing new can be seen in the tiers. -/
theorem still (hc : Watched front x key old base h new) (hcalm : Calm front x none h h') :
    Watched front x key old base h' new where
  told left hleft u hu := hc.told left hleft u (hcalm.far key (Option.some_ne_none key).symm u hu)
  read := hc.read
  shown v e hview := hc.shown v e (hcalm.near.view front rfl key (v, e) hview)
  served := hc.served

/-- One more mark, where nothing new can be seen in the local tier. -/
theorem mark (hc : Watched front x key old base h new) {e : Deed} {th : Nat}
    (hnear : ∀ vx, (h'.tiers.localTier front.near.cache).view h'.now key = some vx →
      (h.tiers.localTier front.near.cache).view h.now key = some vx)
    (htold : Told key ((th, e) :: (new ++ base)) ((h'.tiers.store x.store).text? h'.now key))
    (hread : ∀ text, e = .read key text → Told key (new ++ base) text)
    (hserved : ∀ v, e = .served key v → old ∨ Put key v new) :
    Watched front x key old base h' ((th, e) :: new) where
  told := htold
  read newer th' text older hlog := by
    cases newer with
    | nil =>
      obtain ⟨hhead, rfl⟩ := List.cons.inj hlog
      exact hread text (Prod.mk.inj hhead).2
    | cons y newer => exact hc.read newer th' text older (List.cons.inj hlog).2
  shown v x' hview :=
    (hc.shown v x' (hnear _ hview)).imp id (Put.mono · (List.subset_cons_self _ _))
  served newer th' v older hlog := by
    cases newer with
    | nil =>
      obtain ⟨hhead, rfl⟩ := List.cons.inj hlog
      exact hserved v (Prod.mk.inj hhead).2
    | cons y newer => exact hc.served newer th' v older (List.cons.inj hlog).2

/-- One more mark, not of a write of the key. -/
theorem cons (hc : Watched front x key old base h new) {e : Deed}
    (hwrote : ∀ text, e ≠ .wrote key text)
    (hread : ∀ text, e = .read key text → Told key (new ++ base) text)
    (hserved : ∀ v, e = .served key v → old ∨ Put key v new) (th : Nat) :
    Watched front x key old base h ((th, e) :: new) := by
  refine hc.mark (fun _ hview ↦ hview) (fun left hleft u hu ↦ ?_) hread hserved
  rw [lastWrite_cons hwrote] at hleft
  exact hc.told left hleft u hu

theorem stored (hc : Watched front x key old base h new) (j v : String) (th : Nat) :
    Watched front x key old base h ((th, .stored j v) :: new) :=
  hc.cons (fun _ he ↦ by cases he) (fun _ he ↦ by cases he) (fun _ he ↦ by cases he) th

/-- What the store shows the hybrid tier is what it shows. -/
theorem asked (hc : Watched front x key old base h new) (j : String) (th : Nat) :
    Watched front x key old base h ((th, .read j (x.shown h j)) :: new) := by
  refine hc.cons (fun _ he ↦ by cases he) (fun text he ↦ ?_) (fun _ he ↦ by cases he) th
  cases he
  intro left hleft u hu
  unfold StoreHandle.shown at hu
  split_ifs at hu
  exact hc.told left hleft u hu

/-- The local tier answers what can be seen in it. -/
theorem answered (hc : Watched front x key old base h new) {j v : String} {e : Expiry}
    (hview : (h.tiers.localTier front.near.cache).view h.now j = some (v, e)) (th : Nat) :
    Watched front x key old base h ((th, .served j v) :: new) := by
  refine hc.cons (fun _ he ↦ by cases he) (fun _ he ↦ by cases he) (fun v' he ↦ ?_) th
  cases he
  exact hc.shown v e hview

/-- After a write of some key its mark is left. -/
theorem wrote (hc : Watched front x key old base h new) {j : String}
    (hcalm : Calm front x (some j) h h') (th : Nat) :
    Watched front x key old base h' ((th, wroteMark x j h') :: new) := by
  refine hc.mark (hcalm.near.view front rfl key) (fun left hleft u hu ↦ ?_)
    (fun _ he ↦ by cases he) (fun _ he ↦ by cases he)
  by_cases hj : j = key
  · rw [wroteMark, lastWrite, if_pos hj, hj] at hleft
    rw [← Option.some.inj hleft]
    exact hu
  · have hother : ∀ text, wroteMark x j h' ≠ .wrote key text := fun text he ↦
      hj (Deed.wrote.inj he).1
    rw [lastWrite_cons hother] at hleft
    exact hc.told left hleft u (hcalm.far key (fun heq ↦ hj (Option.some.inj heq)) u hu)

/-- A value that has been put there is inserted into the local tier. -/
theorem insert (hc : Watched front x key old base h new) {j v : String} {ttl : Nat}
    (hput : j = key → old ∨ Put key v new) :
    let r := LocalCache.insert h.now j v ttl (h.tiers.localTier front.near.cache)
    Watched front x key old base { h with tiers := h.tiers.setLocal front.near.cache r.2 } new := by
  intro r
  refine ⟨hc.told, hc.read, fun u e hview ↦ ?_, hc.served⟩
  simp only [Tiers.localTier_setLocal, if_true] at hview
  rw [LocalCache.view_insert] at hview
  split_ifs at hview with hkey
  · obtain ⟨e', -, he⟩ := Option.map_eq_some_iff.mp hview
    obtain ⟨rfl, -⟩ := Prod.mk.inj he
    exact hput hkey.1.symm
  · exact hc.shown u e hview

/-- A copy of what has been put there is left in the local tier. -/
theorem populate (hc : Watched front x key old base h new) {j v : String} {ttl : Nat}
    (hput : j = key → old ∨ Put key v new) :
    ((layered front x).populate j v ttl).AtOnce me h
      (fun _ h' ↦ Watched front x key old base h' new)
      fun h' ↦ Watched front x key old base h' new :=
  Call.AtOnce.populate (fun _ ↦ hc) fun _ ↦ ⟨fun _ ↦ hc.insert hput, fun _ ↦ hc.insert hput⟩

/-- What a look-up in the local tier answers can be seen in it. -/
theorem lookup (hc : Watched front x key old base h new) {j : String} {F : Heap → Prop} :
    (front.near.lookup j).AtOnce me h (fun r h' ↦ Watched front x key old base h' new ∧
      ∀ v, r = some v →
        ∃ e, (h'.tiers.localTier front.near.cache).view h'.now j = some (v, e)) F :=
  atOnce_lookup.mono (fun _ _ hr ↦ ⟨hc.still (calm_of_fades hr.1 (hr.2.1 _)), hr.2.2⟩)
    fun _ hfail ↦ hfail

theorem localHit (hc : Watched front x key old base h new) {j : String} {F : Heap → Prop} :
    ((layered front x).localHit j).AtOnce me h (fun r h' ↦ Watched front x key old base h' new ∧
      ∀ v, r = some v →
        ∃ e, (h'.tiers.localTier front.near.cache).view h'.now j = some (v, e)) F :=
  atOnce_localHit.mono (fun _ _ hr ↦ ⟨hc.still (calm_of_fades hr.1 (hr.2.1 _)), hr.2.2⟩)
    fun _ hfail ↦ hfail

/-- The store answers a read with what it shows. -/
theorem remoteGet (hc : Watched front x key old base h new) {j : String} :
    (x.get j).AtOnce me h (fun a h' ↦ Watched front x key old base h' new ∧
      ∀ v, a = .ok v → x.shown h j = some v) fun h' ↦ Watched front x key old base h' new := by
  have hstore : Watched front x key old base { h with
      tiers := h.tiers.setStore x.store (Store.get h.now j (h.tiers.store x.store)).2 } new :=
    hc.still (calm_request (.get j) x.store fun _ hj ↦ by cases hj)
  refine Call.AtOnce.onStore (fun v hv ↦ ⟨hstore, fun v' hv' ↦ ?_⟩)
    (fun _ _ ↦ ⟨hstore, fun _ hv ↦ by cases hv⟩) fun _ ↦ hstore
  obtain rfl := Except.ok.inj hv'
  exact StoreHandle.shown_of_get hv

end Watched

end Hybrid

end TwoTier
