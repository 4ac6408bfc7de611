import TwoTier.Proofs.Store.Fate
import TwoTier.Proofs.Store.Independence
import TwoTier.Proofs.Text.Numeral

/-!
# Counting is exact

A key stands at a number if it shows a text that denotes the number, or if it shows nothing and the
number is zero (`Store.StandsAt`). To count it up puts the text of the next number in its place, and
fails only at the greatest signed 64-bit integer or where the key stands at none
(`Store.incr_cases`).

So a key that is counted again and again answers with one number after the other, whatever is asked
about other keys in between, until it stands at the greatest (`Store.Counted.exact`).
-/

set_option autoImplicit false
set_option relaxedAutoImplicit false

namespace TwoTier

namespace Store

open Text.Numeral

/-- At a moment, a key stands at a number and has a deadline. -/
inductive StandsAt (s : Store) (now : Nat) (key : String) : Int → Expiry → Prop
  /-- It shows nothing, and counts as zero. -/
  | absent (h : s.live? now key = none) : StandsAt s now key 0 .never
  /-- It shows a text that denotes a signed 64-bit integer. -/
  | text {text : String} {m : Int} {e : Expiry} (h : s.live? now key = some ⟨.text text, e⟩)
      (hm : Denotes text m) (hmin : minInt64 ≤ m) (hmax : m ≤ maxInt64) : StandsAt s now key m e

namespace StandsAt

variable {s s' : Store} {now later : Nat} {key : String} {m m' : Int} {e e' : Expiry}

theorem mem_range (h : s.StandsAt now key m e) : minInt64 ≤ m ∧ m ≤ maxInt64 := by
  cases h with
  | absent => decide
  | text _ _ hmin hmax => exact ⟨hmin, hmax⟩

/-- The number and the deadline are those of what is shown. -/
theorem unique (h : s.StandsAt now key m e) (h' : s.StandsAt now key m' e') : m = m' ∧ e = e' := by
  cases h with
  | absent hnone =>
    cases h' with
    | absent => exact ⟨rfl, rfl⟩
    | text hsome => cases hnone.symm.trans hsome
  | text hsome hm =>
    cases h' with
    | absent hnone => cases hnone.symm.trans hsome
    | text hsome' hm' =>
      cases hsome.symm.trans hsome'
      exact ⟨hm.unique hm', rfl⟩

/-- It is nothing but what is shown. -/
theorem of_live (h : s.StandsAt now key m e) (hlive : s'.live? later key = s.live? now key) :
    s'.StandsAt later key m e := by
  cases h with
  | absent hnone => exact .absent (hlive.trans hnone)
  | text hsome hm hmin hmax => exact .text (hlive.trans hsome) hm hmin hmax

/-- A key that was counted up shows the text of the number. -/
theorem of_decimal {n : Int} (hlive : s.live? now key = some ⟨.text (decimal n), e⟩)
    (hmin : minInt64 ≤ n) (hmax : n ≤ maxInt64) : s.StandsAt now key n e :=
  .text hlive (denotes_decimal n) hmin hmax

end StandsAt

section Incr

variable {s : Store} (honline : s.offline = false) (now : Nat) (key : String)

include honline

/-- What counting a key up does: either the key stood at a number with a successor, and that is put
in its place with the deadline that it had, or nothing can be seen to have happened. -/
theorem incr_cases :
    (∃ m e, s.StandsAt now key m e ∧ m < maxInt64 ∧ (incr now key s).1 = .ok (m + 1) ∧
      (incr now key s).2.live? now key = some ⟨.text (decimal (m + 1)), e⟩) ∨
    ∃ f, (incr now key s).1 = .fault f ∧ Alike now s (incr now key s).2 ∧
      ∀ m e, s.StandsAt now key m e → m = maxInt64 ∧ f = .notAnInteger := by
  have hsettle := alike_settle now s key
  simp only [incr, whenOnline, honline, Bool.false_eq_true, if_false, getElem?_settle_self]
  rcases hlive : s.live? now key with _ | ⟨text | _ | _, e⟩
  · have hone : decimal (0 + 1) = "1" := by decide +kernel
    refine .inl ⟨0, .never, .absent hlive, by decide, rfl, ?_⟩
    dsimp only
    rw [live?_put _ _ _ (Expiry.live_never now), if_pos rfl, hone]
  · dsimp only
    cases hread : readInt64 text with
    | none =>
      refine .inr ⟨.notAnInteger, rfl, hsettle, fun m e' hstands ↦ ?_⟩
      cases hstands with
      | absent hnone => cases hnone.symm.trans hlive
      | text hsome hm hmin hmax =>
        cases hlive.symm.trans hsome
        cases hread.symm.trans (readInt64_eq_some_iff.mpr ⟨hm, hmin, hmax⟩)
    | some m =>
      obtain ⟨hm, hmin, hmax⟩ := readInt64_eq_some_iff.mp hread
      have hstands : s.StandsAt now key m e := .text hlive hm hmin hmax
      have he : e.live now = true := live_of_live? hlive
      rw [Option.bind_some]
      by_cases hlt : m < maxInt64
      · rw [succ?_eq_some_iff.mpr ⟨hlt, rfl⟩]
        refine .inl ⟨m, e, hstands, hlt, rfl, ?_⟩
        dsimp only
        rw [live?_put _ _ _ he, if_pos rfl]
      · have hnone : succ? m = none := if_neg hlt
        rw [hnone]
        refine .inr ⟨.notAnInteger, rfl, hsettle, fun m' e' hstands' ↦ ⟨?_, rfl⟩⟩
        rw [← (hstands.unique hstands').1]
        omega
  all_goals
    refine .inr ⟨.wrongKind key, rfl, hsettle, fun m e' hstands ↦ ?_⟩
    cases hstands with
    | absent hnone => cases hnone.symm.trans hlive
    | text hsome => cases hlive.symm.trans hsome

/-- A key is counted up exactly where it stands at a number that has a successor. -/
theorem incr_eq_ok_iff {n : Int} :
    (incr now key s).1 = .ok n ↔ ∃ m e, s.StandsAt now key m e ∧ m < maxInt64 ∧ n = m + 1 := by
  obtain ⟨m, e, hm, hlt, hanswer, -⟩ | ⟨f, hanswer, -, hmax⟩ := incr_cases honline now key
  · rw [hanswer]
    constructor
    · intro h
      cases h
      exact ⟨m, e, hm, hlt, rfl⟩
    · rintro ⟨m', e', hm', -, rfl⟩
      rw [(hm.unique hm').1]
  · rw [hanswer]
    constructor
    · intro h
      cases h
    · rintro ⟨m, e, hm, hlt, -⟩
      exact absurd (hmax m e hm).1 hlt.ne

end Incr

/-! ### Counting again and again -/

/-- From a store at a moment, what a key was answered with each time that it was counted up since.
In between time passes, in which the key does not expire, requests are made about other keys, and
the channels and the connection change. -/
inductive Counted (key : String) (now : Nat) (s : Store) :
    Nat → Store → List (Outcome Int) → Prop
  /-- Nothing has happened. -/
  | start : Counted key now s now s []
  /-- The key is counted up, while the store is online. -/
  | count {t : Nat} {x : Store} {answers : List (Outcome Int)} (h : Counted key now s t x answers)
      (honline : x.offline = false) :
      Counted key now s t (incr t key x).2 (answers ++ [(incr t key x).1])
  /-- A request is made that does not name the key. -/
  | other {t : Nat} {x : Store} {answers : List (Outcome Int)} (h : Counted key now s t x answers)
      (r : Request) (hkey : key ∉ r.keys) : Counted key now s t (r.apply t x).2 answers
  /-- Time passes, and the key has not expired. -/
  | wait {t t' : Nat} {x : Store} {answers : List (Outcome Int)} (h : Counted key now s t x answers)
      (hle : t ≤ t') (hlive : x.live? t' key = x.live? t key) : Counted key now s t' x answers
  /-- A message is published, a subscription changes, or the connection does. -/
  | aside {t : Nat} {x x' : Store} {answers : List (Outcome Int)}
      (h : Counted key now s t x answers) (hdata : x'.data = x.data) :
      Counted key now s t x' answers

namespace Counted

/-- What a key is answered with that stood at a number and has been counted up `i` times. -/
def answer (m : Int) (i : Nat) : Outcome Int :=
  if m + i < maxInt64 then .ok (m + i + 1) else .fault .notAnInteger

variable {key : String} {now : Nat} {s : Store}

/-- The key is answered with one number after the other up to the greatest, and stands at the last
of them with the deadline that it had. -/
theorem stands {m : Int} {e : Expiry} (hm : s.StandsAt now key m e) {t : Nat} {x : Store}
    {answers : List (Outcome Int)} (h : Counted key now s t x answers) :
    answers = (List.range answers.length).map (answer m) ∧
      x.StandsAt t key (min (m + answers.length) maxInt64) e := by
  induction h with
  | start =>
    refine ⟨rfl, ?_⟩
    rw [List.length_nil, Int.ofNat_zero, add_zero, min_eq_left hm.mem_range.2]
    exact hm
  | @count t x answers _ honline ih =>
    obtain ⟨hanswers, hx⟩ := ih
    rw [List.length_append, List.length_singleton, List.range_succ, List.map_append, ← hanswers,
      List.map_singleton, List.append_cancel_left_eq, List.singleton_inj, Nat.cast_add,
      Nat.cast_one]
    obtain ⟨k, e', hk, hlt, hanswer, hlive⟩ | ⟨f, hanswer, halike, hmax⟩ := incr_cases honline t key
    · obtain ⟨rfl, rfl⟩ := hx.unique hk
      have hbelow : m + answers.length < maxInt64 := by omega
      rw [min_eq_left hbelow.le] at hanswer hlive hx
      rw [hanswer, answer, if_pos hbelow, ← add_assoc, min_eq_left (by omega)]
      have hmin := hx.mem_range.1
      exact ⟨rfl, .of_decimal hlive (by omega) (by omega)⟩
    · obtain ⟨htop, rfl⟩ := hmax _ _ hx
      have habove : ¬ m + answers.length < maxInt64 := by omega
      rw [hanswer, answer, if_neg habove, min_eq_right (by omega)]
      rw [htop] at hx
      exact ⟨rfl, hx.of_live (congrFun halike.live key)⟩
  | other _ r hkey ih => exact ⟨ih.1, ih.2.of_live (((r.confined _).spares _).1 key hkey)⟩
  | wait _ _ hlive ih => exact ⟨ih.1, ih.2.of_live hlive⟩
  | aside _ hdata ih => exact ⟨ih.1, ih.2.of_live (live?_congr hdata _ key)⟩

end Counted

/-- Counting is exact. In a store that is online, a key is answered with a number just where it
shows nothing and the number is one, or where it shows a text that denotes the number before; it
then shows the canonical text for the number, which is read as it, with the deadline that it had. A
key that is counted again and again is answered with one number after the other, whatever is asked
about other keys in between; once it stands at the greatest signed 64-bit integer, each further
count fails and leaves it there. -/
theorem incr_exact {s : Store} (honline : s.offline = false) (now : Nat) (key : String) :
    (∀ n, (incr now key s).1 = .ok n ↔
      (s.live? now key = none ∧ n = 1) ∨
        ∃ text e m, s.live? now key = some ⟨.text text, e⟩ ∧ Denotes text m ∧ minInt64 ≤ m ∧
          m < maxInt64 ∧ n = m + 1) ∧
    (∀ n, (incr now key s).1 = .ok n → ∃ text, Canonical text n ∧ readInt64 text = some n ∧
      (incr now key s).2.live? now key =
        some ⟨.text text, (s.live? now key).elim .never Stored.expiry⟩) ∧
    ∀ m e, s.StandsAt now key m e → ∀ t x answers, Counted key now s t x answers →
      answers = (List.range answers.length).map (Counted.answer m) ∧
        x.StandsAt t key (min (m + answers.length) maxInt64) e := by
  refine ⟨fun n ↦ ?_, fun n hn ↦ ?_, fun m e hm t x answers h ↦ h.stands hm⟩
  · rw [incr_eq_ok_iff honline]
    constructor
    · rintro ⟨m, e, hm, hlt, rfl⟩
      cases hm with
      | absent hnone => exact .inl ⟨hnone, rfl⟩
      | text hsome hm hmin => exact .inr ⟨_, _, _, hsome, hm, hmin, hlt, rfl⟩
    · rintro (⟨hnone, rfl⟩ | ⟨text, e, m, hsome, hm, hmin, hlt, rfl⟩)
      · exact ⟨0, .never, .absent hnone, by decide, rfl⟩
      · exact ⟨m, e, .text hsome hm hmin hlt.le, hlt, rfl⟩
  · obtain ⟨m, e, hm, hlt, hanswer, hlive⟩ | ⟨f, hanswer, -, -⟩ := incr_cases honline now key
    · cases hanswer.symm.trans hn
      have hdeadline : (s.live? now key).elim .never Stored.expiry = e := by
        cases hm with
        | absent hnone => rw [hnone]; rfl
        | text hsome => rw [hsome]; rfl
      have hmin := hm.mem_range.1
      rw [hdeadline]
      exact ⟨_, canonical_iff.mpr rfl, readInt64_decimal (by omega) (by omega), hlive⟩
    · cases hanswer.symm.trans hn

/-- A key that shows a signed text two below the limit of what is counted, with a deadline: between
the counts another key is pushed to and time passes. -/
theorem incr_exact_up_to_greatest :
    let s := Store.empty.put "n" ⟨.text "+9223372036854775805", .due 20⟩
    s.offline = false ∧ ∃ x, Counted "n" 9 s 15 x
        [.ok 9223372036854775806, .ok 9223372036854775807, .fault .notAnInteger] ∧
      x.StandsAt 15 "n" 9223372036854775807 (.due 20) := by
  intro s
  have hstands : s.StandsAt 9 "n" 9223372036854775805 (.due 20) := by
    obtain ⟨hm, hmin, hmax⟩ := readInt64_eq_some_iff.mp
      (show readInt64 "+9223372036854775805" = some 9223372036854775805 by decide +kernel)
    exact .text (by decide +kernel) hm hmin hmax
  have hstart : Counted "n" 9 s 9 s [] := .start
  have hfirst := hstart.count rfl
  have hother := hfirst.other (.rpush "queue" ["x"]) (by decide)
  have hsecond := (hother.wait (by decide : 9 ≤ 15) (by decide +kernel)).count (by decide +kernel)
  have hthird := hsecond.count (by decide +kernel)
  obtain ⟨hanswers, hx⟩ := (incr_exact (s := s) rfl 9 "n").2.2 _ _ hstands _ _ _ hthird
  have hlist : (List.range 3).map (Counted.answer 9223372036854775805) =
      [.ok 9223372036854775806, .ok 9223372036854775807, .fault .notAnInteger] := by decide +kernel
  have htop : min (9223372036854775805 + ((3 : Nat) : Int)) maxInt64 = 9223372036854775807 := by
    decide +kernel
  exact ⟨rfl, _, (hanswers.trans hlist) ▸ hthird, htop ▸ hx⟩

end Store

end TwoTier
