import TwoTier.Proofs.Store.Fate

/-!
# Empty collections

A request to add nothing to a key that holds nothing leaves an empty list or an empty set there, and
no other request does (`Store.Reached.never_empty_iff`): to take the last element of a list or to
cut everything from it removes the key. Where nobody has ever made such a request, a key exists
exactly where it holds a text, an element of a list or a member of a set, and exactly such keys are
counted.
-/

set_option autoImplicit false
set_option relaxedAutoImplicit false

namespace TwoTier

/-- Whether a value is a collection without elements. -/
def Datum.hollow : Datum → Bool
  | .text _ => false
  | .list items => items.isEmpty
  | .set members => members.isEmpty

namespace Store

/-- A request to append no values or to add no members. -/
def Request.AddsNothing (r : Request) (key : String) : Prop := r = .rpush key [] ∨ r = .sadd key []

/-- A request to add nothing that found nothing under its key, while the connection was up. -/
def Event.Hollows (event : Event) (key : String) : Prop :=
  event.request.AddsNothing key ∧ event.before.live? event.now key = none ∧
    event.before.offline = false

/-- What a request left. -/
def Event.after (event : Event) : Store := (event.request.apply event.now event.before).2

/-- No key shows an empty collection. -/
def NeverEmpty (now : Nat) (s : Store) : Prop :=
  ∀ key x, s.live? now key = some x → x.datum.hollow = false

/-- A collection of nothing is empty, and one that has come to hold nothing held nothing before or
was made by a request to add nothing. -/
theorem Fate.of_hollow {now : Nat} {key : String} {r : Request} {before : Option Stored}
    {x : Stored} (hfate : Fate now key r before (some x)) (hx : x.datum.hollow = true) :
    (∃ y, before = some y ∧ y.datum.hollow = true) ∨ before = none ∧ r.AddsNothing key := by
  cases hfate with
  | kept => exact .inl ⟨x, rfl, hx⟩
  | written _ => exact absurd hx Bool.false_ne_true
  | begun => exact absurd hx Bool.false_ne_true
  | counted _ => exact absurd hx Bool.false_ne_true
  | @listed values =>
    obtain rfl : values = [] := List.isEmpty_iff.mp hx
    exact .inr ⟨rfl, .inl rfl⟩
  | @appended items values e =>
    have hnil : items ++ values = [] := List.isEmpty_iff.mp hx
    exact .inl ⟨_, rfl, List.isEmpty_iff.mpr (List.append_eq_nil_iff.mp hnil).1⟩
  | popped _ hitems => exact absurd (List.isEmpty_iff.mp hx) hitems
  | trimmed hrange => exact absurd (List.isEmpty_iff.mp hx) (drop_take_ne_nil hrange)
  | @gathered new =>
    have hnil : new = [] := by
      rw [Datum.hollow, Std.ExtTreeSet.ofList_eq_insertMany_empty,
        Std.ExtTreeSet.isEmpty_insertMany_list] at hx
      exact List.isEmpty_iff.mp (Bool.and_eq_true_iff.mp hx).2
    rw [hnil]
    exact .inr ⟨rfl, .inr rfl⟩
  | @joined members new e =>
    rw [Datum.hollow, Std.ExtTreeSet.isEmpty_insertMany_list] at hx
    exact .inl ⟨_, rfl, (Bool.and_eq_true_iff.mp hx).1⟩

/-- A request leaves no empty collection where there was none, unless it is to add nothing to a key
that holds nothing. -/
theorem NeverEmpty.apply {now : Nat} {s : Store} (h : NeverEmpty now s) {r : Request}
    (hr : ∀ key, ¬ (Event.mk now s r).Hollows key) : NeverEmpty now (r.apply now s).2 := by
  intro key x hx
  by_contra hhollow
  rw [Bool.not_eq_false] at hhollow
  have hfate := r.fate now s key
  rw [hx] at hfate
  rcases hfate.of_hollow hhollow with ⟨y, hy, hhollow⟩ | ⟨hnone, hadds⟩
  · rw [h key y hy] at hhollow
    exact Bool.false_ne_true hhollow
  · cases honline : s.offline with
    | false => exact hr key ⟨hadds, hnone, honline⟩
    | true =>
      -- a store that is down refuses both requests
      have hrefused : (r.apply now s).2 = s := by
        rcases hadds with rfl | rfl <;> exact congrArg Prod.snd (if_pos honline)
      rw [hrefused, hnone] at hx
      exact absurd hx nofun

/-- To add nothing to a key that holds nothing leaves an empty collection there. -/
theorem exists_hollow {now : Nat} {s : Store} {r : Request} {key : String}
    (hr : r.AddsNothing key) (hnone : s.live? now key = none) (honline : s.offline = false) :
    ∃ x, (r.apply now s).2.live? now key = some x ∧ x.datum.hollow = true := by
  have hopen : ¬ s.offline = true := by
    rw [honline]
    exact Bool.false_ne_true
  have hkey : (s.settle now key).data[key]? = none := (getElem?_settle_self s now key).trans hnone
  rcases hr with rfl | rfl
  · have hpush : (rpush now key [] s).2 = { (s.settle now key).put key ⟨.list [], .never⟩ with
        pushes := (s.settle now key).pushes + 1 } := by
      simp only [rpush, whenOnline, if_neg hopen, hkey]
    refine ⟨⟨.list [], .never⟩, ?_, rfl⟩
    rw [Request.apply, hpush]
    exact (live?_put _ key key (Expiry.live_never now)).trans (if_pos rfl)
  · have hadd : (sadd now key [] s).2 =
        (s.settle now key).put key ⟨.set (Std.ExtTreeSet.ofList ([] : List String)), .never⟩ := by
      simp only [sadd, whenOnline, if_neg hopen, hkey]
    refine ⟨⟨.set (Std.ExtTreeSet.ofList ([] : List String)), .never⟩, ?_, by decide⟩
    rw [Request.apply, hadd]
    exact (live?_put _ key key (Expiry.live_never now)).trans (if_pos rfl)

/-- What a request to add nothing does to a key that holds a value: nothing. -/
theorem Fate.of_addsNothing {now : Nat} {key j : String} {r : Request}
    {before after : Option Stored}
    (hfate : Fate now j r before after) (hr : r.AddsNothing key) (hheld : j = key → before ≠ none) :
    after = before := by
  rcases hr with rfl | rfl
  · cases hfate with
    | kept => rfl
    | listed => exact absurd rfl (hheld rfl)
    | appended => rw [List.append_nil]
  · cases hfate with
    | kept => rfl
    | gathered => exact absurd rfl (hheld rfl)
    | joined => rw [Std.ExtTreeSet.insertMany_nil]

/-- To add nothing changes what is shown exactly where it leaves an empty collection. -/
theorem Request.AddsNothing.live?_eq_iff {r : Request} {key : String} (hr : r.AddsNothing key)
    (now : Nat) (s : Store) :
    (r.apply now s).2.live? now = s.live? now ↔ ¬ (Event.mk now s r).Hollows key := by
  constructor
  · rintro hsame ⟨-, hnone, honline⟩
    obtain ⟨x, hx, -⟩ := exists_hollow hr hnone honline
    rw [hsame, hnone] at hx
    exact absurd hx nofun
  · intro hholds
    cases honline : s.offline with
    | true =>
      have hrefused : (r.apply now s).2 = s := by
        rcases hr with rfl | rfl <;> exact congrArg Prod.snd (if_pos honline)
      rw [hrefused]
    | false =>
      funext j
      refine (r.fate now s j).of_addsNothing hr fun hj hnone ↦ hholds ⟨hr, ?_, honline⟩
      rw [← hj]
      exact hnone

/-- In a store without empty collections, a key exists and is counted where it holds a text, an
element of a list or a member of a set. -/
structure Substantial (now : Nat) (s : Store) : Prop where
  /-- No key shows an empty collection. -/
  never_empty : NeverEmpty now s
  /-- A key exists where it holds something. -/
  contains : s.offline = false → ∀ key, (contains now key s).1 = .ok true ↔
    ∃ x, s.live? now key = some x ∧ x.datum.hollow = false
  /-- Only such keys are counted. -/
  size : s.size now =
    (s.data.filter fun _ x ↦ x.expiry.live now && !x.datum.hollow).size

theorem NeverEmpty.substantial {now : Nat} {s : Store} (h : NeverEmpty now s) :
    Substantial now s where
  never_empty := h
  contains honline key := by
    rw [contains_eq honline]
    constructor
    · intro hsome
      obtain ⟨x, hx⟩ := Option.isSome_iff_exists.mp (Outcome.ok.inj hsome)
      exact ⟨x, hx, h key x hx⟩
    · rintro ⟨x, hx, -⟩
      rw [hx]
      rfl
  size := by
    have hfilter : (s.data.filter fun _ x ↦ x.expiry.live now) =
        s.data.filter fun _ x ↦ x.expiry.live now && !x.datum.hollow := by
      refine Std.ExtTreeMap.ext_getElem? fun {key} ↦ ?_
      rw [Std.ExtTreeMap.getElem?_filter', Std.ExtTreeMap.getElem?_filter']
      cases hkey : s.data[key]? with
      | none => rfl
      | some x =>
        rw [Option.filter_some, Option.filter_some]
        cases hlive : x.expiry.live now with
        | false => rfl
        | true =>
          have hheld := h key x (Option.filter_eq_some_iff.mpr ⟨hkey, hlive⟩)
          rw [hheld]
          rfl
    exact congrArg Std.ExtTreeMap.size hfilter

/-- Where nobody adds nothing to a key that holds nothing, no request ever leaves an empty
collection. -/
theorem Reached.never_empty {history : List Event} {now : Nat} {s : Store}
    (h : Reached history now s) (hadds : ∀ event ∈ history, ∀ key, ¬ event.Hollows key) :
    NeverEmpty now s ∧ ∀ event ∈ history, NeverEmpty event.now event.after := by
  induction h with
  | start => exact ⟨nofun, nofun⟩
  | wait _ hle ih =>
    obtain ⟨hnow, hpast⟩ := ih hadds
    exact ⟨fun key x hx ↦ hnow key x (live?_of_later hle hx), hpast⟩
  | request _ r ih =>
    obtain ⟨hr, hadds⟩ := List.forall_mem_cons.mp hadds
    obtain ⟨hnow, hpast⟩ := ih hadds
    exact ⟨hnow.apply hr, List.forall_mem_cons.mpr ⟨hnow.apply hr, hpast⟩⟩
  | aside _ hdata ih =>
    obtain ⟨hnow, hpast⟩ := ih hadds
    refine ⟨fun key x hx ↦ hnow key x ?_, hpast⟩
    rwa [live?_congr hdata] at hx

/-- The requests that leave empty collections are those to add nothing to a key that holds nothing.
Without them every key that exists holds something. A request to add nothing leaves the values as
they are wherever it is not one of them. -/
theorem Reached.never_empty_iff {history : List Event} {now : Nat} {s : Store}
    (h : Reached history now s) :
    ((∀ event ∈ history, NeverEmpty event.now event.after) ↔
        ∀ event ∈ history, ∀ key, ¬ event.Hollows key) ∧
      ((∀ event ∈ history, ∀ key, ¬ event.Hollows key) → Substantial now s) ∧
        ∀ (r : Request) (key : String), r.AddsNothing key →
          ((r.apply now s).2.live? now = s.live? now ↔ ¬ (Event.mk now s r).Hollows key) := by
  refine ⟨⟨fun hpast event hevent key hollows ↦ ?_, fun hadds ↦ (h.never_empty hadds).2⟩,
    fun hadds ↦ (h.never_empty hadds).1.substantial, fun r key hr ↦ hr.live?_eq_iff now s⟩
  obtain ⟨hr, hnone, honline⟩ := hollows
  obtain ⟨x, hx, hhollow⟩ := exists_hollow hr hnone honline
  rw [hpast event hevent key x hx] at hhollow
  exact Bool.false_ne_true hhollow

/-- A list from which everything was cut is gone. -/
theorem never_empty_iff_of_cut_list :
    ∃ history, Reached history 7 (ltrim 7 "k" 1 (-1) (rpush 7 "k" ["v"] .empty).2).2 ∧
      history.map Event.request = [.ltrim "k" 1 (-1), .rpush "k" ["v"]] ∧
      Substantial 7 (ltrim 7 "k" 1 (-1) (rpush 7 "k" ["v"] .empty).2).2 := by
  have hreached := ((Reached.start 7).request (.rpush "k" ["v"])).request (.ltrim "k" 1 (-1))
  refine ⟨_, hreached, rfl, hreached.never_empty_iff.2.1 fun event hevent key hollows ↦ ?_⟩
  rcases List.mem_cons.mp hevent with rfl | hevent
  · rcases hollows.1 with hr | hr <;> exact Request.noConfusion hr
  · obtain rfl := List.mem_singleton.mp hevent
    rcases hollows.1 with hr | hr
    · exact List.cons_ne_nil _ _ (Request.rpush.inj hr).2
    · exact Request.noConfusion hr

/-- A key to which nothing was pushed exists, and is counted, though it holds nothing. -/
theorem not_never_empty_of_pushed_nothing :
    Reached [⟨0, .empty, .rpush "k" []⟩] 0 (rpush 0 "k" [] .empty).2 ∧
      ¬ NeverEmpty 0 (rpush 0 "k" [] .empty).2 ∧
      (contains 0 "k" (rpush 0 "k" [] .empty).2).1 = .ok true ∧
      (rpush 0 "k" [] .empty).2.size 0 = 1 := by
  refine ⟨(Reached.start 0).request (.rpush "k" []), fun hnever ↦ ?_, by decide, by decide +kernel⟩
  have hheld := hnever "k" ⟨.list [], .never⟩ (by decide)
  exact Bool.false_ne_true hheld.symm

end Store

end TwoTier
