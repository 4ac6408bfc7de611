import TwoTier.Proofs.Fetch.Reading
import TwoTier.Proofs.Store.Refusal

/-!
# Asking whether a key is held

A cache answers a read (`Filler.reading`) and the question whether a key is held (`Filler.presence`)
by different operations, each with its own test of what has expired. Where a store holds a text or
nothing the two always say the same (`Filler.concurs`), also while a tier refuses: a local tier that
was closed answers for nothing, and in front of a store it is passed over.

A read leaves traces in a local tier, and a copy. To ask whether a key is held leaves nothing that
anybody could see (`Heap.Untouched`): what the store has removed then had expired.
-/

set_option autoImplicit false
set_option relaxedAutoImplicit false

namespace TwoTier

/-- Two answers say the same of a key, that to a read and that to the question whether it is
held. -/
structure Concurs (a : Answer String) (b : Answer Bool) : Prop where
  /-- The key is held where it is read. -/
  held : b = .ok true ↔ ∃ v, a = .ok v
  /-- It is not held where it is not found. -/
  absent : b = .ok false ↔ a = .error .notFound
  /-- All other failures are the same. -/
  failed : ∀ f, b = .error f ↔ a = .error f ∧ f ≠ .notFound

namespace Concurs

theorem of_read (v : String) : Concurs (.ok v) (.ok true) where
  held := ⟨fun _ ↦ ⟨v, rfl⟩, fun _ ↦ rfl⟩
  absent := ⟨nofun, nofun⟩
  failed _ := ⟨nofun, nofun⟩

theorem of_notFound : Concurs (.error .notFound) (.ok false) where
  held := ⟨nofun, nofun⟩
  absent := ⟨fun _ ↦ rfl, fun _ ↦ rfl⟩
  failed _ := by
    refine ⟨nofun, ?_⟩
    rintro ⟨h, hf⟩
    cases h
    exact absurd rfl hf

theorem of_fault {f : Fault} (hf : f ≠ .notFound) : Concurs (.error f) (.error f) where
  held := ⟨nofun, nofun⟩
  absent := by
    refine ⟨nofun, fun h ↦ ?_⟩
    cases h
    exact absurd rfl hf
  failed g := by
    constructor
    · intro h
      cases h
      exact ⟨rfl, hf⟩
    · rintro ⟨h, -⟩
      cases h
      rfl

end Concurs

/-- What a local tier answers a read with. -/
def LocalHandle.reading (l : LocalHandle) (h : Heap) (key : String) : Answer String :=
  if (h.tiers.localTier l.cache).closed then .error .closed
  else
    match l.shown h key with
    | some v => .ok v
    | none => .error .notFound

/-- What it answers the question with whether a key is held. -/
def LocalHandle.presence (l : LocalHandle) (h : Heap) (key : String) : Answer Bool :=
  if (h.tiers.localTier l.cache).closed then .error .closed else .ok (l.shown h key).isSome

/-- What a store answers a read with. -/
def StoreHandle.reading (x : StoreHandle) (h : Heap) (key : String) : Answer String :=
  if (h.tiers.store x.store).offline then .error .refused
  else
    match (h.tiers.store x.store).live? h.now key with
    | some ⟨.text v, _⟩ => .ok v
    | some _ => .error (.wrongKind key)
    | none => .error .notFound

/-- What it answers the question with whether a key is held. -/
def StoreHandle.presence (x : StoreHandle) (h : Heap) (key : String) : Answer Bool :=
  if (h.tiers.store x.store).offline then .error .refused
  else .ok ((h.tiers.store x.store).live? h.now key).isSome

/-- A store holds neither a list nor a set under a key. -/
def StoreHandle.Textual (x : StoreHandle) (h : Heap) (key : String) : Prop :=
  ∀ y, (h.tiers.store x.store).live? h.now key = some y → ∃ v, y.datum = .text v

/-- The second heap differs from the first in its stores only, and these are such that nobody can
tell: they show the same under every key, and have counted the same. -/
structure Heap.Untouched (h h' : Heap) : Prop where
  /-- The stores. -/
  stores : ∀ s, Store.Alike h.now (h.tiers.store s) (h'.tiers.store s)
  /-- With the stores in their place, the heaps are the same. -/
  rest : { h' with tiers := { h'.tiers with stores := h.tiers.stores } } = h

namespace Heap.Untouched

variable {h h' : Heap}

theorem refl (h : Heap) : h.Untouched h := ⟨fun s ↦ .refl h.now (h.tiers.store s), rfl⟩

theorem setStore {n : Nat} {y : Store} (hy : Store.Alike h.now (h.tiers.store n) y) :
    h.Untouched { h with tiers := h.tiers.setStore n y } where
  stores s := by
    dsimp only
    rw [Tiers.store_setStore]
    split_ifs with hs
    · rw [hs]
      exact hy
    · exact .refl h.now (h.tiers.store s)
  rest := rfl

/-- The local tiers are the same, with all that they have counted and noted. -/
theorem localTier_eq (hsame : h.Untouched h') (l : Nat) :
    h'.tiers.localTier l = h.tiers.localTier l := by
  have hlocals := congrArg (fun a : Heap ↦ a.tiers.localTier l) hsame.rest
  exact hlocals

end Heap.Untouched

/-- To ask a store whether a key is held may remove what has expired, and does nothing else. -/
theorem Store.alike_contains (now : Nat) (key : String) (s : Store) :
    Alike now s (contains now key s).2 := by
  unfold contains whenOnline
  split_ifs
  · exact .refl now s
  · exact alike_settle now s key

section Tiers

variable {me : Nat} {h : Heap} {F : Heap → Prop} (key : String)

theorem LocalHandle.atOnce_reading (l : LocalHandle) :
    (l.get key).AtOnce me h (fun a _ ↦ a = l.reading h key) F := by
  unfold reading
  refine Call.AtOnce.whenOpen (fun hclosed ↦ (if_pos hclosed).symm) fun hopen ↦ ?_
  rw [if_neg (by rw [hopen]; exact Bool.false_ne_true)]
  refine Call.AtOnce.bind (P := fun r _ ↦ l.shown h key = r)
    (Call.AtOnce.onLocal (Filler.lookup_of_open hopen).symm) fun r h' hr ↦ ?_
  rw [hr]
  cases r with
  | some v => exact Call.AtOnce.done rfl
  | none => exact Call.AtOnce.done rfl

theorem LocalHandle.atOnce_presence (l : LocalHandle) :
    (l.tier.contains key).AtOnce me h (fun b h' ↦ b = l.presence h key ∧ h' = h) F := by
  unfold presence
  refine Call.AtOnce.whenOpen (fun hclosed ↦ ⟨(if_pos hclosed).symm, rfl⟩) fun hopen ↦ ?_
  rw [if_neg (by rw [hopen]; exact Bool.false_ne_true)]
  refine Call.AtOnce.bind (P := fun b h' ↦ b = (l.shown h key).isSome ∧ h' = h)
    (Call.AtOnce.look ⟨?_, rfl⟩) fun b h' hb ↦ Call.AtOnce.done ⟨congrArg Except.ok hb.1, hb.2⟩
  rw [LocalCache.contains_eq_isSome_lookup, Filler.lookup_of_open hopen]

theorem StoreHandle.atOnce_reading (x : StoreHandle) :
    (x.get key).AtOnce me h (fun a h' ↦ a = x.reading h key ∧ h'.now = h.now) F := by
  unfold reading
  cases hoffline : (h.tiers.store x.store).offline with
  | true =>
    refine Call.AtOnce.onStore_of_fault (f := .refused) ?_ ⟨rfl, rfl⟩
    simp only [Store.get, Store.whenOnline, hoffline, if_true]
  | false =>
    have hget := Store.fst_get hoffline h.now key
    rw [if_neg Bool.false_ne_true]
    rcases hlive : (h.tiers.store x.store).live? h.now key with _ | ⟨v | _ | _, e⟩ <;>
      rw [hlive] at hget
    · exact Call.AtOnce.onStore_of_fault hget ⟨rfl, rfl⟩
    · exact Call.AtOnce.onStore_of_ok hget ⟨rfl, rfl⟩
    · exact Call.AtOnce.onStore_of_fault hget ⟨rfl, rfl⟩
    · exact Call.AtOnce.onStore_of_fault hget ⟨rfl, rfl⟩

theorem StoreHandle.atOnce_presence (x : StoreHandle) :
    (x.tier.contains key).AtOnce me h (fun b h' ↦ b = x.presence h key ∧ h.Untouched h') F := by
  have halike := Heap.Untouched.setStore (Store.alike_contains h.now key (h.tiers.store x.store))
  change Call.AtOnce me (Call.onStore x.store fun now ↦ Store.contains now key) h _ _
  unfold presence
  cases hoffline : (h.tiers.store x.store).offline with
  | true =>
    refine Call.AtOnce.onStore_of_fault (f := .refused) ?_ ⟨rfl, halike⟩
    simp only [Store.contains, Store.whenOnline, hoffline, if_true]
  | false =>
    have hcontains : (Store.contains h.now key (h.tiers.store x.store)).1 = .ok _ :=
      congrArg Prod.fst (Store.contains_eq hoffline h.now key)
    exact Call.AtOnce.onStore_of_ok hcontains ⟨rfl, halike⟩

/-- A local tier says the same in both answers. -/
theorem LocalHandle.concurs (l : LocalHandle) : Concurs (l.reading h key) (l.presence h key) := by
  unfold reading presence
  split_ifs
  · exact .of_fault (by decide)
  · cases l.shown h key with
    | some v => exact .of_read v
    | none => exact .of_notFound

/-- So does a store, of a text and of a key that it does not hold. -/
theorem StoreHandle.concurs (x : StoreHandle) (htext : x.Textual h key) :
    Concurs (x.reading h key) (x.presence h key) := by
  unfold reading presence
  split_ifs
  · exact .of_fault (by decide)
  · cases hlive : (h.tiers.store x.store).live? h.now key with
    | none => exact .of_notFound
    | some y =>
      obtain ⟨datum, e⟩ := y
      obtain ⟨v, rfl⟩ := htext _ hlive
      exact .of_read v

end Tiers

namespace Filler

/-- What a cache answers a read with. -/
def reading (c : Filler) (h : Heap) (key : String) : Answer String :=
  match c with
  | near l => l.reading h key
  | far x => x.reading h key
  | layered front x =>
    match front.near.shown h key with
    | some v => .ok v
    | none => x.reading h key

/-- What a cache answers the question with whether a key is held. -/
def presence (c : Filler) (h : Heap) (key : String) : Answer Bool :=
  match c with
  | near l => l.presence h key
  | far x => x.presence h key
  | layered front x => if (front.near.shown h key).isSome then .ok true else x.presence h key

/-- The store of a cache, where there is one, holds neither a list nor a set under a key. -/
def Textual (c : Filler) (h : Heap) (key : String) : Prop :=
  match c with
  | near _ => True
  | far x => x.Textual h key
  | layered _ x => x.Textual h key

/-- There is room on the clock for the deadline of a copy that a cache leaves of what its store
holds: none is to stay for 2^55 seconds or more, and as much is left before the end of the clock. -/
def HasRoom (c : Filler) (h : Heap) : Prop :=
  match c with
  | layered front _ =>
    front.settings.populationSecs < 2 ^ 55 ∧ h.now < Clock.secs (2 ^ 63 - 2 ^ 55)
  | _ => True

variable (c : Filler) (key : String) (me : Nat) {h : Heap}

/-- In every cache the two answers say the same. -/
theorem concurs {c : Filler} {key : String} (htext : c.Textual h key) :
    Concurs (c.reading h key) (c.presence h key) := by
  cases c with
  | near l => exact l.concurs key
  | far x => exact x.concurs key htext
  | layered front x =>
    simp only [reading, presence]
    cases front.near.shown h key with
    | some v => exact .of_read v
    | none => exact x.concurs key htext

/-- A read is answered at once, if the clock has room for the deadline of a copy. -/
theorem atOnce_reading (hroom : c.HasRoom h) :
    (c.cache.tier.get key).AtOnce me h (fun a _ ↦ a = c.reading h key) fun _ ↦ False := by
  cases c with
  | near l => exact l.atOnce_reading key
  | far x => exact (x.atOnce_reading key).mono (fun _ _ ha ↦ ha.1) fun _ hF ↦ hF
  | layered front x =>
    refine Call.AtOnce.bind (P := fun r h' ↦ front.near.shown h key = r ∧ h'.now = h.now ∧
      x.reading h' key = x.reading h key) ?_ fun r h' hr ↦ ?_
    · refine Call.AtOnce.localHit (fun hclosed ↦ ⟨shown_of_closed hclosed, rfl, rfl⟩) fun hopen ↦ ?_
      exact ⟨(lookup_of_open hopen).symm, rfl, rfl⟩
    obtain ⟨hshown, hnow', hsame⟩ := hr
    simp only [reading, hshown]
    cases r with
    | some v => exact Call.AtOnce.done rfl
    | none =>
      dsimp only
      rw [← hsame]
      refine Call.AtOnce.bind (x.atOnce_reading key) fun a h'' ha ↦ ?_
      obtain ⟨hanswer, hnow''⟩ := ha
      rw [← hanswer]
      cases a with
      | error f => exact Call.AtOnce.done rfl
      | ok v =>
        have hafter : Expiry.after h''.now front.settings.population ≠ none := by
          rw [hnow'', hnow']
          exact Expiry.after_ne_none hroom.2 (Hybrid.population_lt hroom.1)
        exact Call.AtOnce.bind (atOnce_populate hafter) fun _ _ _ ↦ Call.AtOnce.done rfl

/-- The question whether a key is held is answered at once, and nobody can tell that it was
asked. -/
theorem atOnce_presence : (c.cache.tier.contains key).AtOnce me h
    (fun b h' ↦ b = c.presence h key ∧ h.Untouched h') fun _ ↦ False := by
  cases c with
  | near l =>
    refine (l.atOnce_presence key).mono (fun b h' hb ↦ ?_) fun _ hF ↦ hF
    obtain ⟨hb, rfl⟩ := hb
    exact ⟨hb, .refl h'⟩
  | far x => exact x.atOnce_presence key
  | layered front x =>
    refine Call.AtOnce.bind (front.near.atOnce_presence key) fun b h' hb ↦ ?_
    obtain ⟨hb, rfl⟩ := hb
    -- a local tier that was closed shows nothing, and is passed over like one without the key
    simp only [presence]
    cases hshown : front.near.shown h' key with
    | some v =>
      have hopen : (h'.tiers.localTier front.near.cache).closed ≠ true := fun hclosed ↦ by
        rw [shown_of_closed hclosed] at hshown
        cases hshown
      rw [LocalHandle.presence, if_neg hopen, hshown] at hb
      rw [hb]
      exact Call.AtOnce.done ⟨rfl, .refl h'⟩
    | none =>
      rw [LocalHandle.presence, hshown] at hb
      split_ifs at hb <;> rw [hb] <;> exact x.atOnce_presence key

/-- To ask whether a key is held tells what a read would at the same moment, if the store does not
hold a list or a set under it: it is held where the read would find it, it is not where the read
would not, and otherwise both fail in the same way. It changes nothing that anybody could see: no
store shows or has counted anything else afterwards, and the local tiers are the very same, with the
reads and the moments that they note of each entry, the popularity of keys and what they have
counted. -/
theorem presence_agrees (hroom : c.HasRoom h) (htext : c.Textual h key) :
    ∃ a b h₁ h₂, (c.cache.tier.get key).exec me h [] = ⟨h₁, [], .done a⟩ ∧
      (c.cache.tier.contains key).exec me h [] = ⟨h₂, [], .done b⟩ ∧ Concurs a b ∧
      (∀ s, Store.Alike h.now (h.tiers.store s) (h₂.tiers.store s)) ∧
      (∀ l, h₂.tiers.localTier l = h.tiers.localTier l) ∧
      { h₂ with tiers := { h₂.tiers with stores := h.tiers.stores } } = h := by
  obtain ⟨h₁, a, hread, rfl⟩ | ⟨_, _, hfail⟩ := atOnce_reading c key me hroom
  · obtain ⟨h₂, b, hasked, rfl, hsame⟩ | ⟨_, _, hfail⟩ := atOnce_presence c key me (h := h)
    · refine ⟨_, _, h₁, h₂, ?_, ?_, concurs htext, hsame.stores, hsame.localTier_eq, hsame.rest⟩
      · rw [Call.exec_eq_enter, hread]
        rfl
      · rw [Call.exec_eq_enter, hasked]
        rfl
    · exact hfail.elim
  · exact hfail.elim

/-- A text in the store, of another of which the local tier holds a copy that has expired: a read
would find the text and put a copy of it there, and to ask whether the key is held leaves the old
one. -/
theorem presence_agrees_of_expired_copy :
    let c : Filler := layered ⟨0, ⟨0, 0⟩, 1, default⟩ ⟨0, 2⟩
    let near : LocalCache := (LocalCache.insert 0 "k" "old" 5 (.create ⟨fun _ ↦ 0, id⟩ default)).2
    let far : Store := Store.empty.put "k" ⟨.text "new", .due 20⟩
    let h : Heap := { Heap.initial with
      now := 9, tiers := (Tiers.empty.setLocal 0 near).setStore 0 far }
    c.HasRoom h ∧ c.Textual h "k" ∧ ∃ h₁ h₂,
      (c.cache.tier.get "k").exec 0 h [] = ⟨h₁, [], .done (.ok "new")⟩ ∧
      (c.cache.tier.contains "k").exec 0 h [] = ⟨h₂, [], .done (.ok true)⟩ ∧
      (h₁.tiers.localTier 0).table.get? "k" ≠ near.table.get? "k" ∧
      h₂.tiers.localTier 0 = near := by
  intro c near far h
  have hpopulation : (default : HybridSettings).populationSecs < 2 ^ 55 := by decide +kernel
  have hroom : c.HasRoom h := ⟨hpopulation, by decide +kernel⟩
  have hlive : (h.tiers.store 0).live? h.now "k" = some ⟨.text "new", .due 20⟩ := by decide +kernel
  have htext : c.Textual h "k" := fun y hy ↦ ⟨"new", by rw [Option.some.inj (hy.symm.trans hlive)]⟩
  have hfound : ((c.cache.tier.get "k").exec 0 h []).rest.conclusion? =
      some (.answer (.ok "new")) := by decide +kernel
  have hread : (((c.cache.tier.get "k").exec 0 h []).heap.tiers.localTier 0).table.get? "k" ≠
      near.table.get? "k" := by decide +kernel
  obtain ⟨a, b, h₁, h₂, hget, hcontains, hsame, -, hlocal, -⟩ :=
    presence_agrees c "k" 0 hroom htext
  rw [hget] at hfound hread
  obtain rfl : a = .ok "new" := Conclusion.answer.inj (Option.some.inj hfound)
  obtain rfl : b = .ok true := hsame.held.mpr ⟨"new", rfl⟩
  exact ⟨hroom, htext, h₁, h₂, hget, hcontains, hread, hlocal 0⟩

end Filler

end TwoTier
