import Mathlib.Tactic.Common
import TwoTier.Proofs.Text.Percent
import TwoTier.Settings.Show

/-!
# A password stays in its part of an address

An address is read from the left. What comes before the first `://:` is the scheme, what follows up
to the first at sign is the coded password, and the rest is the place of the store
(`ServerOptions.Reads`). There is one such reading at most (`ServerOptions.Reads.unique`). A coded
password contains no at sign, so the address of options reads as their scheme, the code of their
password and their place, whatever the password is (`ServerOptions.reads_url`). Two passwords have
different codes, and therefore different addresses.

Nothing else that is shown of options depends on which password they hold: not their diagnostic
text, alone or inside the settings of a cache, not the copy without the password, and not their
problems. Both halves are the statement of `ServerOptions.password_confined`.
-/

set_option autoImplicit false
set_option relaxedAutoImplicit false

namespace TwoTier

namespace Text

/-- A text is cut at the first place where a mark stands, into what is before and what is after. -/
structure FirstAt (text before mark after : String) : Prop where
  /-- The mark stands between the two. -/
  eq : text = before ++ mark ++ after
  /-- It stands nowhere earlier. -/
  first : ∀ before' after', text = before' ++ mark ++ after' → before.length ≤ before'.length

namespace FirstAt

variable {text mark before before' after after' : String}

/-- A mark stands for the first time after a text that does not contain its first character. -/
theorem of_not_mem {c : Char} {cs : List Char} (hmark : mark.toList = c :: cs)
    (hc : c ∉ before.toList) (after : String) :
    FirstAt (before ++ mark ++ after) before mark after where
  eq := rfl
  first early rest h := by
    have hlists := congrArg String.toList h
    simp only [String.toList_append, List.append_assoc] at hlists
    rw [← String.length_toList, ← String.length_toList]
    rcases List.append_eq_append_iff.mp hlists with ⟨tail, hearly, -⟩ | ⟨tail, hbefore, hrest⟩
    · rw [hearly, List.length_append]
      exact Nat.le_add_right _ _
    · -- Any more of the text before the mark would begin with its first character.
      cases tail with
      | nil =>
        have hsame : before.toList = early.toList := by rw [hbefore, List.append_nil]
        exact Nat.le_of_eq (congrArg List.length hsame)
      | cons d ds =>
        rw [hmark] at hrest
        have hd : c = d := (List.cons.inj hrest).1
        refine absurd ?_ hc
        rw [hbefore, hd]
        exact List.mem_append_right _ List.mem_cons_self

theorem unique (h : FirstAt text before mark after) (h' : FirstAt text before' mark after') :
    before = before' ∧ after = after' := by
  have hlength : before.toList.length = before'.toList.length := by
    rw [String.length_toList, String.length_toList]
    exact Nat.le_antisymm (h.first _ _ h'.eq) (h'.first _ _ h.eq)
  have hlists := congrArg String.toList (h.eq.symm.trans h'.eq)
  simp only [String.toList_append, List.append_assoc] at hlists
  obtain ⟨hbefore, hrest⟩ := List.append_inj hlists hlength
  exact ⟨String.toList_inj.mp hbefore, String.toList_inj.mp (List.append_cancel_left hrest)⟩

end FirstAt

end Text

namespace ServerOptions

open Text

/-- An address reads as a scheme, a coded password and a place. -/
def Reads (address scheme coded place : String) : Prop :=
  ∃ rest, FirstAt address scheme "://:" rest ∧ FirstAt rest coded "@" place

theorem Reads.unique {address scheme scheme' coded coded' place place' : String}
    (h : Reads address scheme coded place) (h' : Reads address scheme' coded' place') :
    scheme = scheme' ∧ coded = coded' ∧ place = place' := by
  obtain ⟨rest, hscheme, hcoded⟩ := h
  obtain ⟨rest', hscheme', hcoded'⟩ := h'
  obtain ⟨heq, rfl⟩ := hscheme.unique hscheme'
  exact ⟨heq, hcoded.unique hcoded'⟩

/-- The options with another password. -/
def withPassword (o : ServerOptions) (password : String) : ServerOptions :=
  { o with password := password }

/-- The scheme of the address. -/
def scheme (o : ServerOptions) : String := if o.tls then "rediss" else "redis"

theorem colon_not_mem_scheme (o : ServerOptions) : ':' ∉ o.scheme.toList := by
  unfold scheme
  split_ifs <;> decide +kernel

theorem reads_url {o : ServerOptions} (h : o.password ≠ "") :
    Reads o.url o.scheme (Percent.encode o.password) o.location := by
  refine ⟨Percent.encode o.password ++ "@" ++ o.location, ?_, ?_⟩
  · have hurl : o.url =
        o.scheme ++ "://:" ++ (Percent.encode o.password ++ "@" ++ o.location) := by
      unfold url credentials
      rw [if_neg h]
      show o.scheme ++ "://" ++ (":" ++ _ ++ "@") ++ _ = _
      simp only [String.append_assoc]
      rfl
    rw [hurl]
    exact .of_not_mem (c := ':') rfl o.colon_not_mem_scheme _
  · exact .of_not_mem (c := '@') rfl (Percent.coded_encode _).at_not_mem _

/-! ### What is shown depends on the copy without the password -/

theorem sanitized_withPassword (o : ServerOptions) {p : String} (hp : p ≠ "") :
    (o.withPassword p).sanitized = o.withPassword mask := by
  have hshown : (o.withPassword p).shownPassword = mask := if_neg hp
  unfold sanitized
  rw [hshown]
  rfl

theorem shownPassword_sanitized (o : ServerOptions) :
    o.sanitized.shownPassword = o.shownPassword := by
  show (if o.shownPassword = "" then "" else mask) = o.shownPassword
  unfold shownPassword
  by_cases h : o.password = ""
  · rw [if_pos h, if_pos rfl]
  · rw [if_neg h, if_neg (by decide)]

theorem render_sanitized (o : ServerOptions) : o.sanitized.render = o.render := by
  unfold render
  rw [shownPassword_sanitized]
  rfl

theorem problems_sanitized (o : ServerOptions) : o.sanitized.problems = o.problems := rfl

/-- Options with a password `p`, and the same options with a password `q`.

After the first `://:` of the address, the text up to the first at sign is made of unreserved
characters and triples and is decoded to `p`. What comes before and what follows is the same for
every password: the scheme, and the host, its number and the database. Different passwords have
different addresses. The diagnostic texts, the copies without the password, the addresses of these
and the problems are the same for both. -/
theorem password_confined (o : ServerOptions) {p q : String} (hp : p ≠ "") (hq : q ≠ "") :
    let a := o.withPassword p
    let b := o.withPassword q
    (∃ coded, Reads a.url o.scheme coded
        (o.host ++ ":" ++ toString o.portNumber ++ "/" ++ Numeral.decimal o.db) ∧
      Percent.Coded coded.toList ∧ Percent.decode coded = some p) ∧
    (p ≠ q → a.url ≠ b.url) ∧
    a.render = b.render ∧
    (∀ s : Settings, { s with server := a }.render = { s with server := b }.render) ∧
    a.sanitized = b.sanitized ∧ a.sanitized.url = b.sanitized.url ∧ a.problems = b.problems := by
  intro a b
  have hreads : Reads a.url o.scheme (Percent.encode p) o.location := reads_url (o := a) hp
  have hsanitized : a.sanitized = b.sanitized :=
    (o.sanitized_withPassword hp).trans (o.sanitized_withPassword hq).symm
  have hrender : a.render = b.render := by
    rw [← a.render_sanitized, hsanitized, b.render_sanitized]
  have hproblems : a.problems = b.problems := by
    rw [← a.problems_sanitized, hsanitized, b.problems_sanitized]
  refine ⟨⟨_, hreads, Percent.coded_encode p, Percent.decode_encode p⟩, ?_, hrender, ?_,
    hsanitized, congrArg url hsanitized, hproblems⟩
  · intro hne hurl
    have hreads' : Reads a.url o.scheme (Percent.encode q) o.location := by
      rw [hurl]
      exact reads_url (o := b) hq
    have hcode : Percent.encode p = Percent.encode q := (hreads.unique hreads').2.1
    apply hne
    apply Option.some.inj
    rw [← Percent.decode_encode p, hcode, Percent.decode_encode]
  · intro s
    unfold Settings.render
    dsimp only
    rw [hrender]

/-- A password full of separators, and one that is the mask itself. -/
theorem password_confined_of_separators :
    let o : ServerOptions := default
    let a := o.withPassword "p@ss/w:rd#1?"
    let b := o.withPassword mask
    "p@ss/w:rd#1?" ≠ "" ∧ mask ≠ "" ∧
      a.url = "redis://:p%40ss%2Fw%3Ard%231%3F@127.0.0.1:6379/0" ∧
      (∃ coded, Reads a.url "redis" coded "127.0.0.1:6379/0" ∧
        Percent.decode coded = some "p@ss/w:rd#1?") ∧
      a.url ≠ b.url ∧ a.render = b.render ∧ a.sanitized = b := by
  intro o a b
  have hp : "p@ss/w:rd#1?" ≠ "" := by decide
  have hq : mask ≠ "" := by decide
  obtain ⟨⟨coded, hreads, -, hdecode⟩, hurl, hrender, -⟩ := o.password_confined hp hq
  have hplace : o.host ++ ":" ++ toString o.portNumber ++ "/" ++ Numeral.decimal o.db =
      "127.0.0.1:6379/0" := by
    decide +kernel
  rw [hplace] at hreads
  exact ⟨hp, hq, by decide +kernel, ⟨coded, hreads, hdecode⟩, hurl (by decide), hrender,
    o.sanitized_withPassword hp⟩

end ServerOptions

end TwoTier
