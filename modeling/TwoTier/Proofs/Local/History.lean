import TwoTier.Proofs.Local.Budget
import TwoTier.Proofs.Local.View

/-!
# What the history of a local tier says about its answers

The history of a run tells which values were stored, when and for how long, and which keys were
removed, evicted or cleared since (`LocalCache.Happening`). What can be seen of a key is what was
stored for it last, for as long as it was stored for, unless it was taken since
(`LocalCache.Run.view_eq`): the sampling of keys, the touching and the moving of entries and the
removal of expired ones leave no trace in any answer. The history invents nothing: what it tells of
stored and of evicted keys is what the tier counts (`LocalCache.Run.tally_eq`).

The main result is `LocalCache.Run.answers_exactly`.
-/

set_option autoImplicit false
set_option relaxedAutoImplicit false

namespace TwoTier

namespace LocalCache

/-- A value that was stored, with the moment and the span that it was stored for. -/
structure Deposit where
  /-- The value. -/
  value : String
  /-- When it was stored. -/
  moment : Nat
  /-- For how long; the zero span is for ever. -/
  ttl : Nat
  deriving DecidableEq, Repr

/-- When the value expires. -/
def Deposit.expiry (d : Deposit) : Expiry :=
  if d.ttl = 0 then .never else .due (d.moment + d.ttl)

theorem Deposit.live_expiry_iff (d : Deposit) (now : Nat) :
    d.expiry.live now = true ↔ d.ttl = 0 ∨ now < d.moment + d.ttl := by
  unfold Deposit.expiry
  split_ifs with h <;> simp [h]

/-- Where the clock can represent the deadline, an insertion stores with this expiry. -/
theorem Deposit.expiry_of_after {value : String} {now ttl : Nat} {x : Expiry}
    (h : Expiry.after now ttl = some x) : Deposit.expiry ⟨value, now, ttl⟩ = x := by
  unfold Expiry.after at h
  unfold Deposit.expiry
  split_ifs at h ⊢
  · exact Option.some.inj h
  · exact Option.some.inj h

/-- What happens to the keys of a local tier. -/
inductive Happening where
  /-- An insertion stored a value. -/
  | stored (key : String) (d : Deposit)
  /-- A key made room for a newcomer. -/
  | evicted (key : String)
  /-- A caller or a notice removed a key. -/
  | removed (key : String)
  /-- All keys were removed, also because the tier was closed. -/
  | cleared
  deriving DecidableEq, Repr

namespace Happening

/-- Whether a value was stored for a key. -/
def Stores (key : String) : Happening → Prop
  | stored k _ => k = key
  | _ => False

/-- Whether a key was taken. -/
def Takes (key : String) : Happening → Prop
  | evicted k | removed k => k = key
  | cleared => True
  | stored .. => False

/-- What is stored for a key after it was `before`. -/
def leaves (key : String) (before : Option Deposit) : Happening → Option Deposit
  | stored k d => if k = key then some d else before
  | evicted k | removed k => if k = key then none else before
  | cleared => none

theorem leaves_of_takes {key : String} {e : Happening} (h : e.Takes key)
    (before : Option Deposit) : e.leaves key before = none := by
  cases e with
  | stored k d => exact h.elim
  | evicted k => exact if_pos h
  | removed k => exact if_pos h
  | cleared => rfl

theorem leaves_of_other {key : String} {e : Happening} (hstores : ¬ e.Stores key)
    (htakes : ¬ e.Takes key) (before : Option Deposit) : e.leaves key before = before := by
  cases e with
  | stored k d => exact if_neg hstores
  | evicted k => exact if_neg htakes
  | removed k => exact if_neg htakes
  | cleared => exact absurd trivial htakes

theorem exists_of_stores {key : String} {e : Happening} (h : e.Stores key) :
    ∃ d, e = .stored key d := by
  cases e with
  | stored k d => exact ⟨d, by rw [show k = key from h]⟩
  | evicted k => exact h.elim
  | removed k => exact h.elim
  | cleared => exact h.elim

end Happening

/-- What was stored last for a key, unless it was taken since. A history has the newest first. -/
def latest (key : String) (es : List Happening) : Option Deposit :=
  es.foldr (fun e before ↦ e.leaves key before) none

/-- What was stored last for a key is what no other value was stored after, and what was not taken
since. -/
theorem latest_eq_some_iff {key : String} {d : Deposit} {es : List Happening} :
    latest key es = some d ↔ ∃ newer older, es = newer ++ .stored key d :: older ∧
      ∀ e ∈ newer, ¬ e.Stores key ∧ ¬ e.Takes key := by
  constructor
  · intro h
    induction es with
    | nil => exact absurd h (Option.some_ne_none d).symm
    | cons e rest ih =>
      change e.leaves key (latest key rest) = some d at h
      by_cases htakes : e.Takes key
      · rw [Happening.leaves_of_takes htakes] at h
        exact absurd h (Option.some_ne_none d).symm
      · by_cases hstores : e.Stores key
        · obtain ⟨d', rfl⟩ := Happening.exists_of_stores hstores
          obtain rfl := Option.some.inj ((if_pos rfl).symm.trans h)
          exact ⟨[], rest, rfl, fun e he ↦ absurd he List.not_mem_nil⟩
        · rw [Happening.leaves_of_other hstores htakes] at h
          obtain ⟨newer, older, rfl, hnewer⟩ := ih h
          exact ⟨e :: newer, older, rfl, List.forall_mem_cons.mpr ⟨⟨hstores, htakes⟩, hnewer⟩⟩
  · rintro ⟨newer, older, rfl, hnewer⟩
    induction newer with
    | nil => exact if_pos rfl
    | cons e newer ih =>
      obtain ⟨he, hrest⟩ := List.forall_mem_cons.mp hnewer
      exact (Happening.leaves_of_other he.1 he.2 _).trans (ih hrest)

/-! ### Runs -/

/-- What happens to the keys when something is done to a cache, the newest first: a newcomer is
stored once room was made for it. -/
def Action.happenings (now : Nat) (c : LocalCache) : Action → List Happening
  | insert key value ttl =>
    (if (c.insert now key value ttl).1.accepted then [.stored key ⟨value, now, ttl⟩] else []) ++
      (c.evicted? now key).toList.map .evicted
  | remove key | notice key => [.removed key]
  | clear | close => [.cleared]
  | lookup _ | contains _ | purgeExpired => []

/-- The runs of a local tier with some settings, with the moment and the history of each: the clock
moves forward, and anything is done to the cache, whatever is drawn. -/
inductive Run (chance : Chance) (s : LocalSettings) : Nat → List Happening → LocalCache → Prop
  | create (now : Nat) : Run chance s now [] (create chance s)
  | wait {now later : Nat} {es : List Happening} {c : LocalCache} (h : Run chance s now es c)
      (hle : now ≤ later) : Run chance s later es c
  | act {now : Nat} {es : List Happening} {c : LocalCache} (h : Run chance s now es c)
      (a : Action) : Run chance s now (a.happenings now c ++ es) (a.apply now c)

/-- What can be seen of a key at a moment, by the history: what was stored last, until it
expires. -/
def shown (now : Nat) (es : List Happening) (key : String) : Option (String × Expiry) :=
  ((latest key es).map fun d ↦ (d.value, d.expiry)).filter fun x ↦ x.2.live now

section Shown

variable (now : Nat) (es : List Happening) (key : String)

theorem shown_eq_some_iff {v : String} {x : Expiry} : shown now es key = some (v, x) ↔
    ∃ d, latest key es = some d ∧ d.value = v ∧ d.expiry = x ∧ x.live now = true := by
  rw [shown, Option.filter_eq_some_iff, Option.map_eq_some_iff]
  constructor
  · rintro ⟨⟨d, hd, hview⟩, hlive⟩
    obtain ⟨rfl, rfl⟩ := Prod.mk.inj hview
    exact ⟨d, hd, rfl, rfl, hlive⟩
  · rintro ⟨d, hd, rfl, rfl, hlive⟩
    exact ⟨⟨d, hd, rfl⟩, hlive⟩

theorem shown_of_le {later : Nat} (hle : now ≤ later) :
    shown later es key = (shown now es key).filter fun x ↦ x.2.live later :=
  Expiry.filter_live_of_le hle _

theorem shown_of_takes {e : Happening} (h : e.Takes key) : shown now (e :: es) key = none := by
  change ((e.leaves key (latest key es)).map _).filter _ = none
  rw [Happening.leaves_of_takes h]
  rfl

theorem shown_of_other {e : Happening} (hstores : ¬ e.Stores key) (htakes : ¬ e.Takes key) :
    shown now (e :: es) key = shown now es key := by
  change ((e.leaves key (latest key es)).map _).filter _ = _
  rw [Happening.leaves_of_other hstores htakes]
  rfl

theorem shown_stored {value : String} {ttl : Nat} {x : Expiry}
    (h : Expiry.after now ttl = some x) :
    shown now (.stored key ⟨value, now, ttl⟩ :: es) key = some (value, x) :=
  (shown_eq_some_iff now _ key).mpr ⟨_, if_pos rfl, rfl, Deposit.expiry_of_after h,
    Expiry.live_of_after h⟩

theorem shown_evicted (gone : Option String) :
    shown now (gone.toList.map .evicted ++ es) key =
      if gone = some key then none else shown now es key := by
  cases gone with
  | none => exact (if_neg (Option.some_ne_none key).symm).symm
  | some k =>
    by_cases hk : k = key
    · rw [if_pos (congrArg some hk)]
      exact shown_of_takes now es key hk
    · rw [if_neg fun h ↦ hk (Option.some.inj h)]
      exact shown_of_other now es key id hk

theorem shown_removed (k : String) : shown now (.removed k :: es) key =
    if key = k then none else shown now es key := by
  split_ifs with hk
  · exact shown_of_takes now es key hk.symm
  · exact shown_of_other now es key id (Ne.symm hk)

end Shown

/-- What is accepted has a deadline that the clock can represent. -/
theorem exists_after_of_accepted {now : Nat} {key value : String} {ttl : Nat} {c : LocalCache}
    (h : (c.insert now key value ttl).1.accepted = true) : ∃ x, Expiry.after now ttl = some x := by
  generalize hend : (c.insert now key value ttl).1 = ending at h
  have hinserted := (get?_insert now key value ttl c).1
  rw [hend] at hinserted
  cases hinserted with
  | added _ _ _ hexpiry => exact ⟨_, hexpiry⟩
  | updated _ _ _ hexpiry => exact ⟨_, hexpiry⟩
  | rejected _ _ => exact absurd h Bool.false_ne_true
  | overflow _ _ => exact absurd h Bool.false_ne_true

/-- Whatever is done to a cache that the history describes, the history describes it after that. -/
theorem view_apply {now : Nat} {es : List Happening} {c : LocalCache}
    (h : ∀ key, c.view now key = shown now es key) (a : Action) (key : String) :
    (a.apply now c).view now key = shown now (a.happenings now c ++ es) key := by
  have hremoved (k : String) :
      (c.drop k).view now key = shown now (.removed k :: es) key := by
    rw [view_drop, shown_removed, h]
  have hcleared : shown now (.cleared :: es) key = none := shown_of_takes now es key trivial
  cases a with
  | insert k value ttl =>
    have hevicted := shown_evicted now es key (c.evicted? now k)
    refine (view_insert now k key c value ttl).trans ?_
    rw [h, ← hevicted, Action.happenings, List.append_assoc]
    cases haccepted : (c.insert now k value ttl).1.accepted with
    | true =>
      obtain ⟨x, hx⟩ := exists_after_of_accepted haccepted
      by_cases hkey : key = k
      · rw [if_pos ⟨hkey, rfl⟩, hx, hkey]
        exact (shown_stored now _ k hx).symm
      · rw [if_neg fun hboth ↦ hkey hboth.1]
        exact (shown_of_other now _ key (e := .stored k _) (Ne.symm hkey) id).symm
    | false =>
      rw [if_neg fun hboth ↦ Bool.false_ne_true hboth.2]
      rfl
  | lookup k => exact (view_lookup now k key c).trans (h key)
  | contains k => exact h key
  | remove k => exact hremoved k
  | purgeExpired => exact (view_purgeExpired now key c).trans (h key)
  | clear => exact hcleared.symm
  | close => exact hcleared.symm
  | notice k => exact hremoved k

/-- What the history tells of stored values and of evicted keys. -/
def told (es : List Happening) : Nat × Nat :=
  (es.countP fun | .stored .. => true | _ => false, es.countP fun | .evicted _ => true | _ => false)

theorem told_append (newer older : List Happening) :
    told (newer ++ older) = ((told newer).1 + (told older).1, (told newer).2 + (told older).2) := by
  simp only [told, List.countP_append]

/-- Whatever is done to a cache, the tier counts what the history tells. -/
theorem tally_apply (now : Nat) (a : Action) (c : LocalCache) : (a.apply now c).tally =
    (c.tally.1 + (told (a.happenings now c)).1, c.tally.2 + (told (a.happenings now c)).2) := by
  cases a with
  | insert key value ttl =>
    refine (tally_insert now key c value ttl).trans ?_
    rw [Action.happenings, told_append]
    cases (c.insert now key value ttl).1.accepted <;> cases c.evicted? now key <;> rfl
  | lookup key => exact tally_lookup now key c
  | purgeExpired => exact tally_purgeExpired now c
  | contains key => rfl
  | remove key => rfl
  | clear => rfl
  | close => rfl
  | notice key => rfl

variable {chance : Chance} {s : LocalSettings}

/-- At every moment of a run, what can be seen is what the history tells. -/
theorem Run.view_eq {now : Nat} {es : List Happening} {c : LocalCache}
    (h : Run chance s now es c) (key : String) : c.view now key = shown now es key := by
  induction h generalizing key with
  | create => rfl
  | wait _ hle ih => rw [view_of_le hle, ih, ← shown_of_le _ _ _ hle]
  | act _ a ih => exact view_apply ih a key

/-- The tier counts the values stored and the keys evicted as the history tells them. -/
theorem Run.tally_eq {now : Nat} {es : List Happening} {c : LocalCache}
    (h : Run chance s now es c) : c.tally = told es := by
  induction h with
  | create => rfl
  | wait _ _ ih => exact ih
  | act _ a ih => rw [tally_apply, told_append, ih, Nat.add_comm, Nat.add_comm (told _).2]

/-- A look-up at a moment of a run answers a value exactly if it was stored last for the key, for a
span that is not over or for ever, and the key was not removed, cleared or evicted since; a key is
held in exactly these cases. No read changes what can be seen at any later moment, nor when it
expires; a key whose insertion is refused is absent; and the history tells of as many stored values
and evicted keys as the tier counts. -/
theorem Run.answers_exactly {now : Nat} {es : List Happening} {c : LocalCache}
    (h : Run chance s now es c) (key : String) :
    (∀ v, (c.lookup now key).1 = some v ↔
      ∃ moment ttl newer older, es = newer ++ .stored key ⟨v, moment, ttl⟩ :: older ∧
        (∀ e ∈ newer, ¬ e.Stores key ∧ ¬ e.Takes key) ∧ (ttl = 0 ∨ now < moment + ttl)) ∧
      (c.contains now key = true ↔
        ∃ v moment ttl newer older, es = newer ++ .stored key ⟨v, moment, ttl⟩ :: older ∧
          (∀ e ∈ newer, ¬ e.Stores key ∧ ¬ e.Takes key) ∧ (ttl = 0 ∨ now < moment + ttl)) ∧
      (∀ j, ∀ read ∈ [Action.lookup j, .contains j], ∀ later, now ≤ later →
        (read.apply now c).view later key = c.view later key) ∧
      (∀ value ttl, (c.insert now key value ttl).1 = .rejected →
        (c.insert now key value ttl).2.table.get? key = none) ∧
      c.tally = told es := by
  have hlookup (v : String) : (c.lookup now key).1 = some v ↔
      ∃ moment ttl newer older, es = newer ++ .stored key ⟨v, moment, ttl⟩ :: older ∧
        (∀ e ∈ newer, ¬ e.Stores key ∧ ¬ e.Takes key) ∧ (ttl = 0 ∨ now < moment + ttl) := by
    rw [fst_lookup_eq_view, h.view_eq, Option.map_eq_some_iff]
    constructor
    · rintro ⟨⟨_, x⟩, hshown, rfl⟩
      obtain ⟨⟨_, moment, ttl⟩, hlatest, rfl, rfl, hlive⟩ :=
        (shown_eq_some_iff now es key).mp hshown
      obtain ⟨newer, older, hes, hnewer⟩ := latest_eq_some_iff.mp hlatest
      exact ⟨moment, ttl, newer, older, hes, hnewer, (Deposit.live_expiry_iff _ now).mp hlive⟩
    · rintro ⟨moment, ttl, newer, older, hes, hnewer, hspan⟩
      have hlatest : latest key es = some ⟨v, moment, ttl⟩ :=
        latest_eq_some_iff.mpr ⟨newer, older, hes, hnewer⟩
      exact ⟨(v, _), (shown_eq_some_iff now es key).mpr
        ⟨_, hlatest, rfl, rfl, (Deposit.live_expiry_iff _ now).mpr hspan⟩, rfl⟩
  refine ⟨hlookup, ?_, ?_, ?_, h.tally_eq⟩
  · rw [contains_eq_isSome_lookup, Option.isSome_iff_exists]
    exact exists_congr hlookup
  · intro j read hread later hle
    have hnow : (read.apply now c).view now key = c.view now key := by
      rcases List.mem_cons.mp hread with rfl | hrest
      · exact view_lookup now j key c
      · rw [List.mem_singleton.mp hrest]
        rfl
    rw [view_of_le hle, hnow, ← view_of_le hle]
  · intro value ttl hrejected
    have hinserted := (get?_insert now key value ttl c).1
    rw [hrejected] at hinserted
    cases hinserted with
    | rejected _ hafter => exact hafter

/-- A cache with a budget of one key, whose first key is read just before it expires: that moves
nothing. It makes room for the second, which is seen for its span and no longer. -/
theorem answers_exactly_of_evicted_key :
    let chance : Chance := ⟨fun _ ↦ 0, fun i ↦ i⟩
    let s : LocalSettings := ⟨1, .random, 10⟩
    let read := (Action.lookup "a").apply 4 ((create chance s).insert 0 "a" "1" 5).2
    let c := (read.insert 4 "b" "2" 3).2
    let es : List Happening := [.stored "b" ⟨"2", 4, 3⟩, .evicted "a", .stored "a" ⟨"1", 0, 5⟩]
    Run chance s 6 es c ∧ (c.lookup 6 "b").1 = some "2" ∧ (c.lookup 6 "a").1 = none ∧
      (read.lookup 5 "a").1 = none ∧ (c.lookup 7 "b").1 = none ∧ c.tally = (2, 1) := by
  intro chance s read c es
  have hrun : Run chance s 6 es c := by
    have hcreate : Run chance s 0 [] (create chance s) := .create 0
    have hacts := (((hcreate.act (.insert "a" "1" 5)).wait (by decide : 0 ≤ 4)).act
      (.lookup "a")).act (.insert "b" "2" 3)
    have hes : (Action.insert "b" "2" 3).happenings 4 read ++
        ((Action.lookup "a").happenings 4 ((create chance s).insert 0 "a" "1" 5).2 ++
          ((Action.insert "a" "1" 5).happenings 0 (create chance s) ++ [])) = es := by decide
    exact (hes ▸ hacts).wait (by decide)
  exact ⟨hrun, ((hrun.answers_exactly "b").1 "2").mpr
      ⟨4, 3, [], _, rfl, fun _ h ↦ absurd h List.not_mem_nil, Or.inr (by decide)⟩,
    by decide, by decide, by decide, (hrun.answers_exactly "b").2.2.2.2⟩

end LocalCache

end TwoTier
