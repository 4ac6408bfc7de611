import TwoTier.Proofs.Engine.Keeping
import TwoTier.Proofs.Hybrid.Enduring
import TwoTier.Proofs.Store.Refusal

/-!
# Collections under a key that is filled

A call for the text of a key may meet a list or a set there. Others leave the key alone meanwhile:
what is stored under it is changed by nobody but the call and the fill that it has started
(`Filler.Alone`), and the fetch does not take it away either.

A store alone refuses the call, which starts no fill. In front of a store a local tier takes the
refusal for a failure of the store and fills the key, and its fill ends by putting a text where the
collection was (`Hybrid.Puts`). So the collection stays unless the fill has put a text there
(`Filler.collection_kept_iff`): a call that a store answers alone never harms it.

That the collection has not expired is all that is asked of its deadline: what a store comes to hold
by its own requests has none (`Store.Sourced.eq_never`).
-/

set_option autoImplicit false
set_option relaxedAutoImplicit false

namespace TwoTier

namespace StoreHandle

/-- A store holds a value under a key, and the value is live. -/
def Holds (x : StoreHandle) (key : String) (y : Stored) (h : Heap) : Prop :=
  h.stored? x.store key = some y ∧ y.expiry.live h.now = true

/-- What a store comes to hold of what a fill has found: a text that was fetched, where the store is
online and the clock has room for the deadline. -/
def takes (x : StoreHandle) (h : Heap) (ttl : Nat) : String ⊕ Except String String → Option Stored
  | .inr (.ok v) =>
    if (h.tiers.store x.store).offline then none
    else (Expiry.after h.now ttl).map fun e ↦ ⟨.text v, e⟩
  | _ => none

variable {x : StoreHandle} {key : String} {y : Stored} {h : Heap}

theorem holds_iff : x.Holds key y h ↔ (h.tiers.store x.store).live? h.now key = some y := by
  unfold Holds Heap.stored? Store.live?
  rw [Option.filter_eq_some_iff]

/-- What a store takes is a text. -/
theorem text_of_takes {ttl : Nat} {a : String ⊕ Except String String} {z : Stored}
    (hz : x.takes h ttl a = some z) : ∃ v, z.datum = .text v := by
  unfold takes at hz
  split at hz
  · split_ifs at hz
    obtain ⟨e, -, rfl⟩ := Option.map_eq_some_iff.mp hz
    exact ⟨_, rfl⟩
  · cases hz

/-- A store that holds a collection refuses to read it as a text, and keeps it. -/
theorem atOnce_get_of_holds (hkind : ∀ v, y.datum ≠ .text v) (hy : x.Holds key y h) {me : Nat}
    {F : Heap → Prop} : (x.get key).AtOnce me h
      (fun a h' ↦ x.Holds key y h' ∧ ∃ f, a = .error f ∧ f ≠ .notFound) F := by
  have hlive := holds_iff.mp hy
  have hrefused : ∃ f,
      (Store.get h.now key (h.tiers.store x.store)).1 = .fault f ∧ f ≠ .notFound := by
    cases hoffline : (h.tiers.store x.store).offline with
    | true =>
      refine ⟨.refused, ?_, by decide⟩
      simp only [Store.get, Store.whenOnline, hoffline, if_true]
    | false =>
      refine ⟨.wrongKind key, ?_, by simp [Fault.wrongKind]⟩
      rw [Store.fst_get hoffline, hlive]
      obtain ⟨datum, expiry⟩ := y
      cases datum with
      | text v => exact absurd rfl (hkind v)
      | _ => rfl
  obtain ⟨f, hf, hne⟩ := hrefused
  refine Call.AtOnce.onStore_of_fault hf ⟨holds_iff.mpr ?_, f, rfl, hne⟩
  have hspared := Store.spared_get h.now key (s := h.tiers.store x.store) (by rw [hf]; trivial)
  rw [Tiers.store_setStore, if_pos rfl]
  exact (congrFun hspared.live key).trans hlive

end StoreHandle

/-! ### The fill of a layered cache -/

namespace Hybrid

section Fill

variable {front : Front} {x : StoreHandle} {key : String} {ttl : Nat} {fetch : Fetch} {y : Stored}
  {me : Nat} {h : Heap}

/-- How a fill goes on with what it has found. -/
def finish (c : Hybrid) (key : String) (ttl : Nat) (a : String ⊕ Except String String) :
    Call (Answer String) := do
  c.offer key ttl a
  c.settle key ttl a

theorem fill_eq_attempt (c : Hybrid) (key : String) (ttl : Nat) (fetch : Fetch) :
    c.fill key ttl fetch = (c.attempt key fetch).bind (c.finish key ttl) := by
  rw [fill_eq_bind]
  refine (Call.bind_assoc _ _ _).trans (congrArg (Call.bind _) (funext fun a ↦ ?_))
  exact Call.bind_assoc _ _ _

/-- A fill ends at once with what it has found; the key then holds what the store has taken, or else
what it held. -/
theorem atOnce_finish (front : Front) (x : StoreHandle) (key : String) (ttl me : Nat) (h : Heap)
    (a : String ⊕ Except String String) :
    ((layered front x).finish key ttl a).AtOnce me h
      (fun _ h' ↦ h'.stored? x.store key = (x.takes h ttl a).or (h.stored? x.store key))
      fun h' ↦ h'.stored? x.store key = (x.takes h ttl a).or (h.stored? x.store key) := by
  rcases a with v | source | v
  · exact Call.AtOnce.done rfl
  · exact Call.AtOnce.done rfl
  · have hset : (x.set key v ttl).AtOnce me h
        (fun _ h' ↦ h'.stored? x.store key =
          (x.takes h ttl (.inr (.ok v))).or (h.stored? x.store key))
        fun h' ↦ h'.stored? x.store key =
          (x.takes h ttl (.inr (.ok v))).or (h.stored? x.store key) := by
      refine Call.AtOnce.onStore_of_heap (Q := fun h' ↦ h'.stored? x.store key = _) ?_
      change (((h.tiers.setStore x.store _).store x.store).data)[key]? = _
      rw [Tiers.store_setStore, if_pos rfl, StoreHandle.takes]
      cases hoffline : (h.tiers.store x.store).offline with
      | true =>
        simp only [Store.set, Store.whenOnline, hoffline, if_true]
        rfl
      | false =>
        rw [Store.set_eq hoffline]
        cases Expiry.after h.now ttl with
        | none => rfl
        | some e => exact (Dict.getElem?_insert _ _ _ _).trans (if_pos rfl)
    exact hset.discard.bind fun _ _ hstored ↦ (Call.AtOnce.populate (fun _ ↦ hstored) fun _ ↦
      ⟨fun _ ↦ hstored, fun _ ↦ hstored⟩).bind fun _ _ hstored ↦ Call.AtOnce.done hstored

/-- What a fill does until it has found something keeps what its fetch keeps. -/
theorem keeps_attempt (front : Front) (hfetch : fetch.Keeps me (x.Holds key y)) :
    (Call.pause ((layered front x).attempt key fetch)).Keeps me (x.Holds key y) := by
  have hlookup : (front.near.lookup key).Keeps me (x.Holds key y) := by
    refine .of_atOnce (fun hresumes ↦ ?_) fun h ↦ Call.AtOnce.onLocal fun hy ↦ hy
    change Call.Resumes (Call.read _) _ at hresumes
    cases hresumes
    rfl
  refine .pause (hlookup.bind fun r ↦ ?_)
  cases r with
  | some v => exact .of_ended trivial
  | none => exact hfetch.bind fun _ ↦ .of_ended trivial

variable {ρ : Type} {ws : List (World ρ)}

/-- A fill has put a value under its key in one of its turns: the turn in which its fetch has ended.
-/
def Puts (front : Front) (x : StoreHandle) (key : String) (ttl : Nat) (fetch : Fetch) (me : Nat)
    (ws : List (World ρ)) (z : Stored) : Prop :=
  ∃ pre w later h a, ws = pre ++ w :: later ∧
    Call.EndsAt me (.pause ((layered front x).attempt key fetch)) pre w h a ∧
    x.takes h ttl a = some z

theorem Puts.text {z : Stored} (hz : Puts front x key ttl fetch me ws z) :
    ∃ v, z.datum = .text v := by
  obtain ⟨_, _, _, _, _, -, -, htakes⟩ := hz
  exact StoreHandle.text_of_takes htakes

theorem Puts.append {z : Stored} (hz : Puts front x key ttl fetch me ws z) (ws' : List (World ρ)) :
    Puts front x key ttl fetch me (ws ++ ws') z := by
  obtain ⟨pre, w, later, h, a, rfl, hend, htakes⟩ := hz
  exact ⟨pre, w, later ++ ws', h, a, by simp, hend, htakes⟩

theorem not_puts_nil (z : Stored) : ¬ Puts (ρ := ρ) front x key ttl fetch me [] z := by
  rintro ⟨pre, w, later, h, a, hws, -⟩
  exact absurd hws.symm (List.append_ne_nil_of_right_ne_nil _ (List.cons_ne_nil _ _))

/-- In the turn in which it has found something a fill ends, and leaves what the store takes. -/
theorem exec_of_endsAt (ttl : Nat) {pre : List (World ρ)} {w : World ρ}
    {a : String ⊕ Except String String}
    (hend : Call.EndsAt me (.pause ((layered front x).attempt key fetch)) pre w h a) :
    let p := (w.resume ((Call.pause ((layered front x).fill key ttl fetch)).after me pre)).exec me
      w.heap []
    p.heap.stored? x.store key = (x.takes h ttl a).or (h.stored? x.store key) ∧
      p.rest.conclusion?.isSome := by
  have hexec := hend.exec_bind rfl ((layered front x).finish key ttl)
  change (w.resume ((Call.pause (((layered front x).attempt key fetch).bind _)).after me
    pre)).exec me w.heap [] = _ at hexec
  rw [← fill_eq_attempt] at hexec
  dsimp only
  rw [hexec]
  rcases (atOnce_finish front x key ttl me h a).rest_exec with
    ⟨o, hrest, hstored⟩ | ⟨hrest, hstored⟩ <;> rw [hrest] <;> exact ⟨hstored, rfl⟩

/-- A fill that has found something has ended. -/
theorem conclusion?_of_endsAt (ttl : Nat) {pre : List (World ρ)} {w : World ρ}
    (later : List (World ρ)) {a : String ⊕ Except String String}
    (hend : Call.EndsAt me (.pause ((layered front x).attempt key fetch)) pre w h a) :
    ((Call.pause ((layered front x).fill key ttl fetch)).after me
      (pre ++ w :: later)).conclusion?.isSome := by
  obtain ⟨-, hsome⟩ := exec_of_endsAt ttl hend
  obtain ⟨o, ho⟩ := Option.isSome_iff_exists.mp hsome
  rw [Call.after_append, Call.after_cons, Past.conclusion?_after ho]
  rfl

variable {w : World ρ}

/-- What a fill has put under its key by the end of a turn it has put there in this turn. -/
theorem Puts.stored (hgoes : ((Call.pause ((layered front x).fill key ttl fetch)).after me
    ws).conclusion? = none) {z : Stored} (hz : Puts front x key ttl fetch me (ws ++ [w]) z) :
    ((w.resume ((Call.pause ((layered front x).fill key ttl fetch)).after me ws)).exec me w.heap
      []).heap.stored? x.store key = some z := by
  obtain ⟨pre, w', later, h, a, hws, hend, htakes⟩ := hz
  rcases List.eq_nil_or_concat later with rfl | ⟨later, w₂, rfl⟩
  · obtain ⟨rfl, hw⟩ := List.append_inj' hws rfl
    obtain rfl := List.singleton_inj.mp hw
    rw [(exec_of_endsAt ttl hend).1, htakes, Option.some_or]
  · have hsplit : pre ++ w' :: later.concat w₂ = (pre ++ w' :: later) ++ [w₂] := by simp
    rw [hsplit] at hws
    obtain ⟨rfl, -⟩ := List.append_inj' hws rfl
    have hsome := conclusion?_of_endsAt ttl later hend
    rw [hgoes] at hsome
    cases hsome

/-- At a turn of a fill the key keeps the value that it holds, or the fill puts another one there.
-/
theorem stored_of_fill (hfetch : fetch.Keeps me (x.Holds key y))
    (hgoes : ((Call.pause ((layered front x).fill key ttl fetch)).after me ws).conclusion? = none)
    (hy : x.Holds key y w.heap) :
    let p := (w.resume ((Call.pause ((layered front x).fill key ttl fetch)).after me ws)).exec me
      w.heap []
    p.heap.stored? x.store key = some y ∨
      ∃ z, Puts front x key ttl fetch me (ws ++ [w]) z ∧ p.heap.stored? x.store key = some z := by
  have hkept := (keeps_attempt front hfetch).turn ws hy
  have hfill : Call.pause ((layered front x).fill key ttl fetch) =
      (Call.pause ((layered front x).attempt key fetch)).bind ((layered front x).finish key ttl) :=
    congrArg Call.pause (fill_eq_attempt _ _ _ _)
  rcases Call.after_bind me (c := .pause ((layered front x).attempt key fetch)) rfl
    ((layered front x).finish key ttl) ws with
    ⟨hnone, hafter⟩ | ⟨-, hafter⟩ | ⟨pre, w', later, h, a, rfl, hend, -, -⟩
  · rcases Call.exec_bind_cases me
      (w.resume ((Call.pause ((layered front x).attempt key fetch)).after me ws))
      ((layered front x).finish key ttl) w.heap with
      ⟨h, a, hnow, -⟩ | ⟨hcrash, -⟩ | ⟨hnone', -⟩
    · -- it has found something in this turn
      have hend : Call.EndsAt me (.pause ((layered front x).attempt key fetch)) ws w h a :=
        ⟨hnone, hnow⟩
      have hstored := (exec_of_endsAt ttl hend).1
      dsimp only
      rw [hstored]
      rw [hnow] at hkept
      cases htakes : x.takes h ttl a with
      | none => exact Or.inl hkept.1
      | some z => exact Or.inr ⟨z, ⟨ws, w, [], h, a, rfl, hend, htakes⟩, rfl⟩
    · left
      rw [hfill, hafter, Call.resume_bind hnone,
        Call.heap_exec_bind fun b hb ↦ by rw [hcrash] at hb; cases hb]
      exact hkept.1
    · left
      rw [hfill, hafter, Call.resume_bind hnone,
        Call.heap_exec_bind fun b hb ↦ by rw [hb] at hnone'; cases hnone']
      exact hkept.1
  · rw [hfill, hafter] at hgoes
    cases hgoes
  · have hsome := conclusion?_of_endsAt ttl later hend
    rw [hgoes] at hsome
    cases hsome

end Fill

end Hybrid

namespace Filler

variable (c : Filler) (x : StoreHandle) (key : String) (ttl : Nat) (fetch : Fetch) (y : Stored)
  (i : Nat)

/-- The store of a cache that has one. -/
def store? : Filler → Option StoreHandle
  | near _ => none
  | far x => some x
  | layered _ x => some x

/-- The steps of a call for a key and of the fills that it has started. -/
def Own (past : Past (Answer String)) (m : Move (Answer String)) : Prop :=
  m = .run (.task i) ∨
    ∃ f ∈ (c.getOrSet key ttl fetch).startedIn i (past.turns (.task i)), m = .run (.fill f.id)

/-- A call for a key was made by task `i` when the key held a value in the store, and since then
nothing but the steps of the call and of the fills that it has started has changed what is stored
under the key. -/
inductive Alone : Past (Answer String) → World (Answer String) → Prop
  /-- The call is made. -/
  | made {past : Past (Answer String)} {w : World (Answer String)} (held : List Held)
      (h : past.Leads (fun _ ↦ True) w)
      (hadmits : w.Admits (.spawn held (c.getOrSet key ttl fetch))) (hi : w.heap.nextThread = i)
      (hstored : w.heap.stored? x.store key = some y) :
      Alone ((w, .spawn held (c.getOrSet key ttl fetch)) :: past)
        (w.apply (.spawn held (c.getOrSet key ttl fetch)))
  /-- Anything happens that can happen; others leave the key alone. -/
  | move {past : Past (Answer String)} {w : World (Answer String)} (m : Move (Answer String))
      (h : Alone past w) (hadmits : w.Admits m)
      (hothers : ¬ c.Own key ttl fetch i past m →
        (w.apply m).heap.stored? x.store key = w.heap.stored? x.store key) :
      Alone ((w, m) :: past) (w.apply m)

/-- The fill that a call has started has put a value under the key in the store. -/
def Overwrites (past : Past (Answer String)) (z : Stored) : Prop :=
  ∃ front, c = layered front x ∧
    ∃ f ∈ (c.getOrSet key ttl fetch).startedIn i (past.turns (.task i)),
      Hybrid.Puts front x key ttl fetch f.id (past.turns (.fill f.id)) z

/-- A call has started a fill, which has left the value under the key or has put another one there.
-/
structure Filling (front : Front) (j : Nat) (past : Past (Answer String))
    (w : World (Answer String)) : Prop where
  layered : c = layered front x
  idle : ((c.getOrSet key ttl fetch).after i (past.turns (.task i))).Idle
  one : (c.getOrSet key ttl fetch).startedIn i (past.turns (.task i)) =
    [⟨j, c.guard, key, .pause (c.fill key ttl fetch), 0⟩]
  started : ⟨j, c.guard, key, .pause (c.fill key ttl fetch), 0⟩ ∈ past.started
  stored : w.heap.stored? x.store key = some y ∨
    ∃ z, Hybrid.Puts front x key ttl fetch j (past.turns (.fill j)) z ∧
      w.heap.stored? x.store key = some z
  puts : ∀ z, Hybrid.Puts front x key ttl fetch j (past.turns (.fill j)) z →
    w.heap.stored? x.store key = some z

/-- How far a call has come that others leave alone. -/
inductive Phase (past : Past (Answer String)) (w : World (Answer String)) : Prop
  /-- It has taken no step. -/
  | asked (hturns : past.turns (.task i) = []) (hstored : w.heap.stored? x.store key = some y)
  /-- It has turned to no fill of its own. -/
  | answered (hidle : ((c.getOrSet key ttl fetch).after i (past.turns (.task i))).Idle)
      (hnone : (c.getOrSet key ttl fetch).startedIn i (past.turns (.task i)) = [])
      (hstored : w.heap.stored? x.store key = some y)
  /-- It has started a fill. -/
  | filling (front : Front) (j : Nat) (hfilling : c.Filling x key ttl fetch y i front j past w)

section Calls

variable {c x key ttl fetch y i} {me : Nat} {h : Heap}

/-- Where the store holds a collection a call finds no text there; a store alone refuses it. -/
theorem atOnce_probe_of_holds (hc : c.store? = some x) (hkind : ∀ v, y.datum ≠ .text v)
    (hy : x.Holds key y h) (me ttl : Nat) : (c.probe key ttl).AtOnce me h
      (fun r h' ↦ x.Holds key y h' ∧ (r = none → ∃ front, c = layered front x)) fun _ ↦ False := by
  cases c with
  | near l => cases hc
  | far x' =>
    obtain rfl := Option.some.inj hc
    refine Call.AtOnce.bind (StoreHandle.atOnce_get_of_holds hkind hy) fun a h' ha ↦ ?_
    obtain ⟨hy', f, rfl, hf⟩ := ha
    cases f with
    | notFound => exact absurd rfl hf
    | _ => exact Call.AtOnce.done ⟨hy', nofun⟩
  | layered front x' =>
    obtain rfl := Option.some.inj hc
    have hhit : ((Hybrid.layered front x').localHit key).AtOnce me h (fun _ h' ↦ x'.Holds key y h')
        fun _ ↦ False := Call.AtOnce.localHit (fun _ ↦ hy) fun _ ↦ hy
    refine Call.AtOnce.bind hhit fun r h' hy' ↦ ?_
    cases r with
    | some v => exact Call.AtOnce.done ⟨hy', nofun⟩
    | none =>
      refine Call.AtOnce.bind (StoreHandle.atOnce_get_of_holds hkind hy') fun a h'' ha ↦ ?_
      obtain ⟨hy'', f, rfl, -⟩ := ha
      exact Call.AtOnce.done ⟨hy'', fun _ ↦ ⟨front, rfl⟩⟩

/-- In its first step a call leaves a collection where it is. It starts a fill, if at all, in front
of the store, and then does nothing but wait. -/
theorem exec_of_holds (hc : c.store? = some x) (hkind : ∀ v, y.datum ≠ .text v)
    (hy : x.Holds key y h) (me ttl : Nat) (fetch : Fetch) :
    let p := (c.getOrSet key ttl fetch).exec me h []
    p.heap.stored? x.store key = some y ∧ p.rest.Idle ∧
      (p.fills = [] ∨ (∃ front, c = layered front x) ∧
        ∃ j, p.fills = [⟨j, c.guard, key, .pause (c.fill key ttl fetch), 0⟩]) := by
  rw [getOrSet_eq_bind, Call.exec_eq_enter]
  rcases atOnce_probe_of_holds hc hkind hy me ttl with ⟨h', r, hhalt, hy', hr⟩ | ⟨-, -, hfalse⟩
  · rw [Call.halt_bind_of_done hhalt]
    cases r with
    | some a => exact ⟨hy'.1, .ended trivial, Or.inl rfl⟩
    | none =>
      have hjoin : (Call.fillOnce c.guard key (c.fill key ttl fetch)).halt me h' =
        (h', .join c.guard key (c.fill key ttl fetch) .done) := rfl
      rw [hjoin]
      cases hflight : (h'.guard c.guard).inFlight[key]? <;> simp only [Call.enter, hflight]
      · exact ⟨hy'.1, .waiting fun _ ↦ trivial, Or.inr ⟨hr rfl, _, rfl⟩⟩
      · exact ⟨hy'.1, .waiting fun _ ↦ trivial, Or.inl trivial⟩
  · exact hfalse.elim

end Calls

section Runs

variable {c x key ttl fetch y i} {past : Past (Answer String)} {w : World (Answer String)}

/-- A call of a cache begins with a look at the tiers. -/
theorem resume_getOrSet (w : World (Answer String)) :
    w.resume (c.getOrSet key ttl fetch) = c.getOrSet key ttl fetch := by
  cases c <;> rfl

theorem Alone.leads (h : c.Alone x key ttl fetch y i past w) : past.Leads (fun _ ↦ True) w := by
  induction h with
  | made held h hadmits _ _ => exact .move _ hadmits trivial h
  | move m _ hadmits _ ih => exact .move m hadmits trivial ih

theorem Alone.made_eq (h : c.Alone x key ttl fetch y i past w) :
    past.made i = some (c.getOrSet key ttl fetch) := by
  induction h with
  | made held _ _ hi _ => exact if_pos hi
  | move m h _ _ ih => exact h.leads.made_cons ih

/-- The step of a thread after anything. -/
theorem Alone.run {r : World (Answer String) × Past (Answer String)}
    (h : c.Alone x key ttl fetch y i r.2 r.1) (th : Thread) (hhosts : r.1.Hosts th)
    (hothers : ¬ c.Own key ttl fetch i r.2 (.run th) →
      (r.1.run th).heap.stored? x.store key = r.1.heap.stored? x.store key) :
    c.Alone x key ttl fetch y i (Past.step r (.run th)).2 (Past.step r (.run th)).1 :=
  .move _ h hhosts hothers

/-- The clock never goes back. -/
theorem now_le_apply (w : World (Answer String)) (m : Move (Answer String)) :
    w.heap.now ≤ (w.apply m).heap.now := by
  cases m with
  | run th => exact Nat.le_of_eq (w.now_run th).symm
  | advance t => exact Nat.le_max_left _ _
  | _ => exact Nat.le_refl _

/-- Of a fill that a call has just started nothing has happened: it has put nothing under its key.
-/
theorem not_puts_of_started (h : past.Leads (fun _ ↦ True) w) {front : Front}
    {call fill : Call (Answer String)} {g j : Nat}
    (hj : ⟨j, g, key, fill, 0⟩ ∈ (call.exec i w.heap []).fills) (z : Stored) :
    ¬ Hybrid.Puts front x key ttl fetch j
      (Past.turns (.fill j) ((w, .run (.task i)) :: past)) z := by
  rw [Past.turns_cons_of_ne (by simp), (h.unseen (Call.fills_exec hj).1).2.2]
  exact Hybrid.not_puts_nil z

/-- The first turn of a call. -/
theorem Phase.of_first_turn (hc : c.store? = some x) (hkind : ∀ v, y.datum ≠ .text v)
    (h : c.Alone x key ttl fetch y i past w) (hlive : y.expiry.live w.heap.now = true)
    (hturns : past.turns (.task i) = []) (hstored : w.heap.stored? x.store key = some y)
    (hhosts : w.Hosts (.task i)) :
    c.Phase x key ttl fetch y i ((w, .run (.task i)) :: past) (w.apply (.run (.task i))) := by
  have hafter := h.leads.stored?_task h.made_eq hhosts x.store key
  have hnow : Past.turns (.task i) ((w, .run (.task i)) :: past) = [w] := by
    rw [Past.turns_cons_self, hturns]
    rfl
  have hrest : (c.getOrSet key ttl fetch).after i [w] =
      ((c.getOrSet key ttl fetch).exec i w.heap []).rest := by
    rw [Call.after_cons, resume_getOrSet]
    rfl
  have hbegun : (c.getOrSet key ttl fetch).startedIn i [w] =
      ((c.getOrSet key ttl fetch).exec i w.heap []).fills := by
    rw [Call.startedIn, resume_getOrSet]
    exact List.append_nil _
  obtain ⟨hkept, hidle, hfills⟩ := exec_of_holds (y := y) hc hkind ⟨hstored, hlive⟩ i ttl fetch
  rw [hturns, Call.after, List.foldl_nil, resume_getOrSet, hkept] at hafter
  rw [← hrest, ← hnow] at hidle
  rcases hfills with hnone | ⟨⟨front, hfront⟩, j, hone⟩
  · refine .answered hidle ?_ hafter
    rw [hnow, hbegun, hnone]
  · have hmem : ⟨j, c.guard, key, .pause (c.fill key ttl fetch), 0⟩ ∈
        ((c.getOrSet key ttl fetch).exec i w.heap []).fills := by
      rw [hone]
      exact List.mem_singleton_self _
    have hmove : Past.Leads (fun _ ↦ True) ((w, .run (.task i)) :: past) _ :=
      h.leads.move _ hhosts trivial
    have hsplit : Past.turns (.task i) ((w, .run (.task i)) :: past) = [] ++ w :: [] := hnow
    have hstarts := (hmove.turn hsplit (h.leads.made_cons h.made_eq)).1
    rw [Call.after, List.foldl_nil, resume_getOrSet] at hstarts
    refine .filling front j ⟨hfront, hidle, ?_, hstarts _ hmem, Or.inl hafter, fun z hz ↦ ?_⟩
    · rw [hnow, hbegun, hone]
    · exact absurd hz (not_puts_of_started h.leads hmem z)

/-- A turn of a call that does nothing but wait changes nothing. -/
theorem Alone.turn_of_idle (h : c.Alone x key ttl fetch y i past w)
    (hidle : ((c.getOrSet key ttl fetch).after i (past.turns (.task i))).Idle)
    (hhosts : w.Hosts (.task i)) :
    let turns := Past.turns (.task i) ((w, .run (.task i)) :: past)
    (w.apply (.run (.task i))).heap.stored? x.store key = w.heap.stored? x.store key ∧
      ((c.getOrSet key ttl fetch).after i turns).Idle ∧
      (c.getOrSet key ttl fetch).startedIn i turns =
        (c.getOrSet key ttl fetch).startedIn i (past.turns (.task i)) := by
  obtain ⟨rest, hexec, hrest⟩ := hidle.turn i w
  refine ⟨?_, ?_, ?_⟩
  · rw [h.leads.stored?_task h.made_eq hhosts, hexec]
  · rw [Past.turns_cons_self, Call.after_concat, hexec]
    exact hrest
  · rw [Past.turns_cons_self, Call.startedIn_concat, hexec]
    exact List.append_nil _

/-- What a call and its fill leave alone at a turn of the call, and what others do, changes nothing
of how far the fill has come. -/
theorem Filling.congr {front : Front} {j : Nat} (hf : c.Filling x key ttl fetch y i front j past w)
    {m : Move (Answer String)}
    (hidle : ((c.getOrSet key ttl fetch).after i (Past.turns (.task i) ((w, m) :: past))).Idle)
    (hbegun : (c.getOrSet key ttl fetch).startedIn i (Past.turns (.task i) ((w, m) :: past)) =
      (c.getOrSet key ttl fetch).startedIn i (past.turns (.task i)))
    (hturns : Past.turns (.fill j) ((w, m) :: past) = past.turns (.fill j))
    (hsame : (w.apply m).heap.stored? x.store key = w.heap.stored? x.store key) :
    c.Filling x key ttl fetch y i front j ((w, m) :: past) (w.apply m) := by
  have hstarted := Past.mem_started_append hf.started [(w, m)]
  refine ⟨hf.layered, hidle, hbegun.trans hf.one, hstarted, ?_, ?_⟩
  · rw [hturns, hsame]
    exact hf.stored
  · rw [hturns, hsame]
    exact hf.puts

/-- At its turn a fill leaves the value that the key holds, or puts another one there; it takes no
turn afterwards. -/
theorem Filling.turn (hfetch : ∀ me, fetch.Keeps me (x.Holds key y))
    (h : c.Alone x key ttl fetch y i past w) (hlive : y.expiry.live w.heap.now = true)
    {front : Front} {j : Nat} (hf : c.Filling x key ttl fetch y i front j past w)
    (hhosts : w.Hosts (.fill j)) :
    c.Filling x key ttl fetch y i front j ((w, .run (.fill j)) :: past)
      (w.apply (.run (.fill j))) := by
  obtain ⟨hgoes, hafter⟩ := h.leads.stored?_fill hf.started hhosts x.store key
  have htask : Past.turns (.task i) ((w, .run (.fill j)) :: past) = past.turns (.task i) :=
    Past.turns_cons_of_ne (by simp) w past
  obtain ⟨rfl, hidle, hone, hstarted, hstored, -⟩ := hf
  refine ⟨rfl, htask ▸ hidle, htask ▸ hone, Past.mem_started_append hstarted [_], ?_, fun z hz ↦ ?_⟩
  · rw [Past.turns_cons_self, hafter]
    rcases hstored with hstored | ⟨z, hz, -⟩
    · exact Hybrid.stored_of_fill (hfetch j) hgoes ⟨hstored, hlive⟩
    · exact Or.inr ⟨z, hz.append _, (hz.append _).stored hgoes⟩
  · rw [Past.turns_cons_self] at hz
    exact hafter.trans (hz.stored hgoes)

/-- Whatever happens next, a call goes from phase to phase. -/
theorem Phase.move (hc : c.store? = some x) (hkind : ∀ v, y.datum ≠ .text v)
    (hfetch : ∀ me, fetch.Keeps me (x.Holds key y)) (h : c.Alone x key ttl fetch y i past w)
    (hlive : y.expiry.live w.heap.now = true) (hphase : c.Phase x key ttl fetch y i past w)
    {m : Move (Answer String)} (hadmits : w.Admits m)
    (hothers : ¬ c.Own key ttl fetch i past m →
      (w.apply m).heap.stored? x.store key = w.heap.stored? x.store key) :
    c.Phase x key ttl fetch y i ((w, m) :: past) (w.apply m) := by
  by_cases hm : m = .run (.task i)
  · subst hm
    cases hphase with
    | asked hturns hstored => exact .of_first_turn hc hkind h hlive hturns hstored hadmits
    | answered hidle hnone hstored =>
      obtain ⟨hsame, hidle', hbegun⟩ := h.turn_of_idle hidle hadmits
      exact .answered hidle' (hbegun.trans hnone) (hsame.trans hstored)
    | filling front j hf =>
      obtain ⟨hsame, hidle', hbegun⟩ := h.turn_of_idle hf.idle hadmits
      exact .filling front j (hf.congr hidle' hbegun (Past.turns_cons_of_ne (by simp) w past) hsame)
  · have htask := Past.turns_cons_of_ne hm w past
    have hnotOwn : (c.getOrSet key ttl fetch).startedIn i (past.turns (.task i)) = [] →
        ¬ c.Own key ttl fetch i past m := by
      rintro hnone (hown | ⟨f, hf, -⟩)
      · exact hm hown
      · rw [hnone] at hf
        exact absurd hf List.not_mem_nil
    cases hphase with
    | asked hturns hstored =>
      refine .asked (htask.trans hturns) ((hothers (hnotOwn ?_)).trans hstored)
      rw [hturns]
      rfl
    | answered hidle hnone hstored =>
      exact .answered (htask ▸ hidle) (htask ▸ hnone) ((hothers (hnotOwn hnone)).trans hstored)
    | filling front j hf =>
      refine .filling front j ?_
      by_cases hm' : m = .run (.fill j)
      · subst hm'
        exact hf.turn hfetch h hlive hadmits
      · refine hf.congr (htask ▸ hf.idle) (congrArg _ htask) (Past.turns_cons_of_ne hm' w past)
          (hothers ?_)
        rintro (hown | ⟨f, hmem, hown⟩)
        · exact hm hown
        · rw [hf.one, List.mem_singleton] at hmem
          subst hmem
          exact hm' hown

/-- How far a call has come that others leave alone, while the collection is live. -/
theorem Alone.phase (hc : c.store? = some x) (hkind : ∀ v, y.datum ≠ .text v)
    (hfetch : ∀ me, fetch.Keeps me (x.Holds key y)) (h : c.Alone x key ttl fetch y i past w)
    (hlive : y.expiry.live w.heap.now = true) : c.Phase x key ttl fetch y i past w := by
  induction h with
  | made held hl _ hi hstored => exact .asked (hl.unseen (Nat.le_of_eq hi)).2.1 hstored
  | @move past w m h hadmits hothers ih =>
    have hlive' : y.expiry.live w.heap.now = true := Expiry.live_of_le (now_le_apply w m) hlive
    exact (ih hlive').move hc hkind hfetch h hlive' hadmits hothers

/-- A fill that a call has started has put a value under its key if the call has overwritten it. -/
theorem Filling.overwrites_iff {front : Front} {j : Nat}
    (hf : c.Filling x key ttl fetch y i front j past w) (z : Stored) :
    c.Overwrites x key ttl fetch i past z ↔
      Hybrid.Puts front x key ttl fetch j (past.turns (.fill j)) z := by
  refine ⟨fun ⟨front', hfront', f, hmem, hz⟩ ↦ ?_, fun hz ↦
    ⟨front, hf.layered, ⟨j, c.guard, key, .pause (c.fill key ttl fetch), 0⟩, ?_, hz⟩⟩
  · cases hf.layered.symm.trans hfront'
    rw [hf.one, List.mem_singleton] at hmem
    subst hmem
    exact hz
  · rw [hf.one]
    exact List.mem_singleton_self _

/-- A call that has started no fill has overwritten nothing. -/
theorem not_overwrites (hnone : (c.getOrSet key ttl fetch).startedIn i (past.turns (.task i)) = [])
    (z : Stored) : ¬ c.Overwrites x key ttl fetch i past z := by
  rintro ⟨front, -, f, hf, -⟩
  rw [hnone] at hf
  exact absurd hf List.not_mem_nil

end Runs

/-- A call for a key was made when the key held a list or a set in the store, which is live to this
day, and others leave the key alone. The collection is there as it was unless the fill that the call
has started has put a text there, in the turn in which its fetch has ended; then the key holds this
text. Where the store alone was called nothing has happened to the collection. -/
theorem collection_kept_iff {c : Filler} {x : StoreHandle} (hc : c.store? = some x) {key : String}
    {ttl : Nat} {fetch : Fetch} {y : Stored} (hkind : ∀ v, y.datum ≠ .text v)
    (hfetch : ∀ me, fetch.Keeps me (x.Holds key y)) {i : Nat} {past : Past (Answer String)}
    {w : World (Answer String)} (h : c.Alone x key ttl fetch y i past w)
    (hlive : y.expiry.live w.now = true) :
    (w.heap.stored? x.store key = some y ↔ ∀ z, ¬ c.Overwrites x key ttl fetch i past z) ∧
      (∀ z, c.Overwrites x key ttl fetch i past z →
        (∃ v, z.datum = .text v) ∧ w.heap.stored? x.store key = some z) ∧
      (c = far x → w.heap.stored? x.store key = some y) := by
  cases h.phase hc hkind hfetch hlive with
  | asked hturns hstored =>
    have hnone : (c.getOrSet key ttl fetch).startedIn i (past.turns (.task i)) = [] := by
      rw [hturns]
      rfl
    exact ⟨iff_of_true hstored (not_overwrites hnone),
      fun z hz ↦ absurd hz (not_overwrites hnone z), fun _ ↦ hstored⟩
  | answered hidle hnone hstored =>
    exact ⟨iff_of_true hstored (not_overwrites hnone),
      fun z hz ↦ absurd hz (not_overwrites hnone z), fun _ ↦ hstored⟩
  | filling front j hf =>
    refine ⟨⟨fun hy z hz ↦ ?_, fun hnot ↦ ?_⟩, fun z hz ↦ ?_, fun hfar ↦ ?_⟩
    · have hputs := (hf.overwrites_iff z).mp hz
      obtain ⟨v, hv⟩ := hputs.text
      rw [Option.some.inj ((hf.puts z hputs).symm.trans hy)] at hv
      exact hkind v hv
    · rcases hf.stored with hstored | ⟨z, hz, -⟩
      · exact hstored
      · exact absurd ((hf.overwrites_iff z).mpr hz) (hnot z)
    · have hputs := (hf.overwrites_iff z).mp hz
      exact ⟨hputs.text, hf.puts z hputs⟩
    · cases hf.layered.symm.trans hfar

/-- A run that begins with some tiers and a list that is pushed under a key of a store. -/
def pushed (x : StoreHandle) (tiers : Tiers) (values : List String) :
    World (Answer String) × Past (Answer String) :=
  [.spawn [] (.write tiers ((x.tier.rpush "k" values).bind fun _ ↦ .done (.ok ""))),
    .run (.task 0)].foldl Past.step (World.initial, [])

/-- A call asks for the key of the list through a local tier in front of the store. -/
theorem alone_of_pushed {x : StoreHandle} {tiers : Tiers} {values : List String} {front : Front}
    {y : Stored} {fetch : Fetch} (hfetch : fetch.Comes 0 fun _ _ ↦ True)
    (hthread : (pushed x tiers values).1.heap.nextThread = 1)
    (hstored : (pushed x tiers values).1.heap.stored? x.store "k" = some y) :
    let r := Past.step (pushed x tiers values) (.spawn [] ((layered front x).getOrSet "k" 0 fetch))
    (layered front x).Alone x "k" 0 fetch y 1 r.2 r.1 := by
  have hrpush : (x.tier.rpush "k" values).Unbegun :=
    (Call.Comes.onStore (g := 0) (F := fun _ _ ↦ True) x.store fun now ↦
      Store.rpush now "k" values).unbegun
  have hcall : ((layered front x).getOrSet "k" 0 fetch).Unbegun :=
    (Hybrid.comes_getOrSet (c := Hybrid.layered front x) (g := 0) (F := fun _ _ ↦ True)
      (.onStore x.store fun now ↦ Store.get now "k")
      (fun v ↦ .onStore x.store fun now ↦ Store.set now "k" v 0) hfetch fun _ ↦ trivial).unbegun
  refine .made [] (Past.Leads.foldl .start (fun m hm ↦ ?_) (fun _ _ ↦ trivial) ?_) hcall hthread
    hstored
  · simp only [List.mem_cons, List.not_mem_nil, or_false] at hm
    rcases hm with rfl | rfl
    · exact hrpush.bind fun _ ↦ trivial
    · trivial
  · exact ⟨⟨_, List.mem_singleton_self _, rfl⟩, trivial⟩

/-- A list is pushed, a call for its key goes through a local tier in front of the store, and its
fetch fails. The list is there as it was. -/
theorem collection_kept_of_failed_fetch :
    let x : StoreHandle := ⟨0, 2⟩
    let c : Filler := layered ⟨0, ⟨0, 0⟩, 1, default⟩ x
    let y : Stored := ⟨.list ["a", "b"], .never⟩
    let fetch : Fetch := .done (.error "down")
    let near : LocalCache := .create ⟨fun _ ↦ 0, id⟩ ⟨1, .random, 1⟩
    let tiers := (Tiers.empty.setLocal 0 near).setStore 0 .empty
    let spawned := Past.step (pushed x tiers ["a", "b"]) (.spawn [] (c.getOrSet "k" 0 fetch))
    let filled := Past.step (Past.step spawned (.run (.task 1))) (.run (.fill 2))
    let answered := Past.step filled (.run (.task 1))
    c.store? = some x ∧ (∀ v, y.datum ≠ .text v) ∧ (∀ me, fetch.Keeps me (x.Holds "k" y)) ∧
      c.Alone x "k" 0 fetch y 1 answered.2 answered.1 ∧ y.expiry.live answered.1.now = true ∧
      answered.1.conclusions[1]? = some (.answer (.error (.fetchFailed "down"))) ∧
      answered.1.heap.stored? 0 "k" = some y ∧
      ∀ z, ¬ c.Overwrites x "k" 0 fetch 1 answered.2 z := by
  intro x c y fetch near tiers spawned filled answered
  have hkind : ∀ v, y.datum ≠ .text v := fun v hv ↦ by cases hv
  have hfetch : ∀ me, fetch.Keeps me (x.Holds "k" y) := fun me ↦ .of_ended trivial
  have hspawned : c.Alone x "k" 0 fetch y 1 spawned.2 spawned.1 :=
    alone_of_pushed (.done _) (by decide +kernel) (by decide +kernel)
  have hanswered : c.Alone x "k" 0 fetch y 1 answered.2 answered.1 :=
    ((hspawned.run (.task 1) (by decide +kernel) fun _ ↦ by decide +kernel).run (.fill 2)
      (by decide +kernel) fun _ ↦ by decide +kernel).run (.task 1) (by decide +kernel)
        fun _ ↦ by decide +kernel
  have hstored : answered.1.heap.stored? 0 "k" = some y := by decide +kernel
  exact ⟨rfl, hkind, hfetch, hanswered, rfl, by decide +kernel, hstored,
    (collection_kept_iff rfl hkind hfetch hanswered rfl).1.mp hstored⟩

/-- The fetch yields a text. The list is gone: the key holds the text, and who waits for an element
of the list is refused. -/
theorem not_kept_of_layered_fill :
    let x : StoreHandle := ⟨0, 2⟩
    let c : Filler := layered ⟨0, ⟨0, 0⟩, 1, default⟩ x
    let y : Stored := ⟨.list ["a", "b"], .never⟩
    let fetch : Fetch := .done (.ok "x")
    let near : LocalCache := .create ⟨fun _ ↦ 0, id⟩ ⟨1, .random, 1⟩
    let tiers := (Tiers.empty.setLocal 0 near).setStore 0 .empty
    let spawned := Past.step (pushed x tiers ["a", "b"]) (.spawn [] (c.getOrSet "k" 0 fetch))
    let filled := Past.step (Past.step spawned (.run (.task 1))) (.run (.fill 2))
    let answered := Past.step filled (.run (.task 1))
    c.store? = some x ∧ (∀ v, y.datum ≠ .text v) ∧ (∀ me, fetch.Keeps me (x.Holds "k" y)) ∧
      c.Alone x "k" 0 fetch y 1 answered.2 answered.1 ∧ y.expiry.live answered.1.now = true ∧
      answered.1.conclusions[1]? = some (.answer (.ok "x")) ∧
      answered.1.heap.stored? 0 "k" = some ⟨.text "x", .never⟩ ∧
      (Store.tryPop 0 ["k"] (answered.1.heap.tiers.store 0)).1 = .fault (.wrongKind "k") ∧
      answered.1.heap.stored? 0 "k" ≠ some y := by
  intro x c y fetch near tiers spawned filled answered
  have hkind : ∀ v, y.datum ≠ .text v := fun v hv ↦ by cases hv
  have hfetch : ∀ me, fetch.Keeps me (x.Holds "k" y) := fun me ↦ .of_ended trivial
  have hspawned : c.Alone x "k" 0 fetch y 1 spawned.2 spawned.1 :=
    alone_of_pushed (.done _) (by decide +kernel) (by decide +kernel)
  have hasked := hspawned.run (.task 1) (by decide +kernel) fun _ ↦ by decide +kernel
  have hbegun : 2 ∈ ((c.getOrSet "k" 0 fetch).startedIn 1
      ((Past.step spawned (.run (.task 1))).2.turns (.task 1))).map Fill.id := by decide +kernel
  obtain ⟨f, hf, hid⟩ := List.mem_map.mp hbegun
  have hown : c.Own "k" 0 fetch 1 (Past.step spawned (.run (.task 1))).2 (.run (.fill 2)) :=
    Or.inr ⟨f, hf, by rw [hid]⟩
  have hanswered : c.Alone x "k" 0 fetch y 1 answered.2 answered.1 :=
    (hasked.run (.fill 2) (by decide +kernel) fun hnot ↦ absurd hown hnot).run (.task 1)
      (by decide +kernel) fun _ ↦ by decide +kernel
  refine ⟨rfl, hkind, hfetch, hanswered, rfl, ?_, ?_, ?_, ?_⟩
  all_goals decide +kernel

end Filler

end TwoTier
