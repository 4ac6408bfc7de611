import TwoTier.Proofs.Hybrid.Enduring

/-!
# Calls that fill while tiers fail

Any tasks do whatever they like, and turn to the guard of a hybrid tier only through this tier, with
any fetches (`Hybrid.Rules`). The local tier may be open or closed, and the other tier may be any
that endures: it may fail in any way at any time. A call for a key is then answered with what the
local tier holds, with what the other tier answers, or with the outcome of one fill
(`Hybrid.AnsweredBy`); and a fill ends with what the local tier has come to hold, or as its fetch
ends (`Hybrid.FilledBy`). No failure of a tier is ever the answer (`Hybrid.getOrSet_degrades`).
-/

set_option autoImplicit false
set_option relaxedAutoImplicit false

namespace TwoTier

namespace Hybrid

variable (c : Hybrid)

/-- The fills that a hybrid tier brings to its guard, for less than 2^55 seconds each. -/
def IsFill (key : String) (fill : Call (Answer String)) : Prop :=
  ∃ ttl fetch, ttl < Clock.secs (2 ^ 55) ∧ fill = c.fill key ttl fetch

/-- Tasks bring nothing but such fills to the guard of the tier, and the clock is below a moment
beyond which deadlines may have no room. -/
def Rules {ρ : Type} : Move ρ → Prop
  | .spawn _ code => code.Brings c.guard c.IsFill
  | .advance t => t < Clock.ample
  | _ => True

section Call

variable {c} {key : String} {ttl : Nat} {fetch : Fetch} {ρ : Type} {me : Nat} {ws : List (World ρ)}

/-- How far a call for a key has come after some turns. -/
inductive Asked (c : Hybrid) (key : String) (ttl : Nat) (fetch : Fetch) (me : Nat)
    (ws : List (World ρ)) : Call (Answer String) → Prop
  /-- It asks both tiers. -/
  | asking (hnone : ((c.consult key).after me ws).conclusion? = none) :
      Asked c key ttl fetch me ws (((c.consult key).after me ws).bind (c.conclude key ttl fetch))
  /-- The local tier held a value. -/
  | held {v : String} (htold : (c.consult key).after me ws = .done (.inl v)) :
      Asked c key ttl fetch me ws (.done (.ok v))
  /-- The other tier answered a value. -/
  | read {v : String} (htold : (c.consult key).after me ws = .done (.inr (.ok v))) :
      Asked c key ttl fetch me ws (.done (.ok v))
  /-- It waits for a fill since the other tier failed. -/
  | waiting {pre later : List (World ρ)} {w : World ρ} {h : Heap} {f : Fault}
      (hws : ws = pre ++ w :: later)
      (hfailed : Call.EndsAt me (c.consult key) pre w h (.inr (.error f))) :
      Asked c key ttl fetch me ws (.await (Call.fillOf w.heap c.guard key) .done)
  /-- It has gone on with the outcome of this fill. -/
  | filled {pre later : List (World ρ)} {w w' : World ρ} {h : Heap} {f : Fault} {o : Answer String}
      (hws : ws = pre ++ w :: later)
      (hfailed : Call.EndsAt me (c.consult key) pre w h (.inr (.error f)))
      (hw' : w' ∈ later) (ho : w'.outcomes[Call.fillOf w.heap c.guard key]? = some o) :
      Asked c key ttl fetch me ws (.done o)

/-- The number of the fill to which a call turns depends on the guards alone. -/
theorem fillOf_congr {h h' : Heap} (hguards : h'.guards = h.guards)
    (hnext : h'.nextThread = h.nextThread) (g : Nat) (key : String) :
    Call.fillOf h' g key = Call.fillOf h g key := by
  unfold Call.fillOf Heap.guard
  rw [hguards, hnext]

theorem asked_after (hpopulation : c.settings.populationSecs < 2 ^ 55) (hremote : c.remote.Endures)
    (hws : ∀ w ∈ ws, w.now < Clock.ample) :
    Asked c key ttl fetch me ws ((c.getOrSet key ttl fetch).after me ws) := by
  rw [getOrSet_eq_bind]
  rcases Call.after_bind me (c := c.consult key) rfl (c.conclude key ttl fetch) ws with
    ⟨hnone, hafter⟩ | ⟨hcrash, -⟩ | ⟨pre, w, later, h, x, rfl, hend, -, hafter⟩
  · rw [hafter]
    exact .asking hnone
  · have hends := (endsIn_consult key hremote).after me hws
    rw [hcrash] at hends
    exact hends.elim
  · rw [hafter]
    have htold := hend.after_eq later
    obtain ⟨hguards, hnext, hnow⟩ := hend.kept
    cases x with
    | inl v =>
      change Asked c key ttl fetch me _ ((Call.done _).after me later)
      rw [Call.after_done]
      exact .held htold
    | inr a =>
      cases a with
      | ok v =>
        have hw : h.now < Clock.ample := by
          rw [hnow]
          exact hws w (List.mem_append_right _ List.mem_cons_self)
        have hrest : ((c.conclude key ttl fetch (.inr (.ok v))).exec me h []).rest =
            .done (.ok v) := exec_populate hw (Filler.populationFor_lt hpopulation) me v _
        rw [hrest, Call.after_done]
        exact .read htold
      | error f =>
        have hrest : ((c.conclude key ttl fetch (.inr (.error f))).exec me h []).rest =
            .await (Call.fillOf w.heap c.guard key) .done := by
          rw [← fillOf_congr hguards hnext]
          change ((Call.join _ _ _ _).exec me h []).rest = _
          unfold Call.fillOf
          rw [Call.exec]
          cases (h.guard c.guard).inFlight[key]? <;> rfl
        rw [hrest]
        rcases Call.after_await me (Call.fillOf w.heap c.guard key) later with
          hwaits | ⟨w', hw', o, ho, hdone⟩
        · rw [hwaits]
          exact .waiting rfl hend
        · rw [hdone]
          exact .filled rfl hend hw' ho

/-- A value of the local tier is what it showed when the call began. -/
theorem shown_of_consult {v : String} (htold : (c.consult key).after me ws = .done (.inl v)) :
    ∃ w later, ws = w :: later ∧ c.near.shown w.heap key = some v := by
  cases ws with
  | nil => cases htold
  | cons w later =>
    refine ⟨w, later, rfl, ?_⟩
    have hhit : (c.localHit key).AtOnce me w.heap (fun r _ ↦ r = c.near.shown w.heap key)
        fun _ ↦ False :=
      Call.AtOnce.localHit (fun hclosed ↦ (Filler.shown_of_closed hclosed).symm)
        fun hopen ↦ Filler.lookup_of_open hopen
    rcases hhit with ⟨h', r, hhalt, rfl⟩ | ⟨-, -, hfalse⟩
    · rw [Call.after_cons] at htold
      change (((c.localHit key).bind _).exec me w.heap []).rest.after me later = _ at htold
      rw [Call.exec_bind, Call.exec_eq_enter, hhalt] at htold
      cases hshown : c.near.shown w.heap key with
      | some u =>
        rw [hshown] at htold
        change (Call.done (Sum.inl u)).after me later = _ at htold
        rw [Call.after_done] at htold
        cases htold
        rfl
      | none =>
        rw [hshown] at htold
        obtain ⟨a, ha⟩ := Call.exists_of_after_map (f := Sum.inr) htold
        cases ha
    · exact hfalse.elim

/-- What the local tier has come to hold it shows when the fill takes its first step, also once it
has been closed. -/
theorem view_of_attempt {v : String}
    (hfound : (Call.pause (c.attempt key fetch)).after me ws = .done (.inl v)) :
    ∃ w later, ws = w :: later ∧
      ((w.heap.tiers.localTier c.near.cache).view w.now key).map Prod.fst = some v := by
  cases ws with
  | nil => cases hfound
  | cons w later =>
    refine ⟨w, later, rfl, ?_⟩
    have hhalt := Call.halt_onLocal me c.near.cache (fun now ↦ LocalCache.lookup now key) w.heap
    rw [LocalCache.fst_lookup_eq_view] at hhalt
    rw [Call.after_cons] at hfound
    change (((c.near.lookup key).bind _).exec me w.heap []).rest.after me later = _ at hfound
    rw [Call.exec_bind, LocalHandle.lookup, Call.exec_eq_enter, hhalt] at hfound
    cases hview : ((w.heap.tiers.localTier c.near.cache).view w.now key).map Prod.fst with
    | some u =>
      rw [show w.heap.now = w.now from rfl, hview] at hfound
      change (Call.done (Sum.inl u)).after me later = _ at hfound
      rw [Call.after_done] at hfound
      cases hfound
      rfl
    | none =>
      rw [show w.heap.now = w.now from rfl, hview] at hfound
      obtain ⟨a, ha⟩ := Call.exists_of_after_map (f := Sum.inr) hfound
      cases ha

/-- How far a fill has come after some turns. -/
inductive Filling (c : Hybrid) (key : String) (ttl : Nat) (fetch : Fetch) (me : Nat)
    (ws : List (World ρ)) : Call (Answer String) → Prop
  /-- It fetches, or the other tier has yet to answer whether it takes what was fetched. -/
  | going (hnone : ((Call.pause (c.procure key ttl fetch)).after me ws).conclusion? = none) :
      Filling c key ttl fetch me ws
        (((Call.pause (c.procure key ttl fetch)).after me ws).bind (c.settle key ttl))
  /-- It has ended with what it has found. -/
  | settled (x : String ⊕ Except String String)
      (hfound : (Call.pause (c.attempt key fetch)).after me ws = .done x) :
      Filling c key ttl fetch me ws (.done (yield x))
  /-- It could not go on, because its fetch could not. -/
  | crashed (hcrash : (Call.pause (c.attempt key fetch)).after me ws = .crash) :
      Filling c key ttl fetch me ws .crash

/-- Whatever the other tier makes of what it is offered, it was found by the fill. -/
theorem attempt_of_procure (key : String) (fetch : Fetch) (me : Nat) (hremote : c.remote.Endures)
    (httl : ttl < Clock.secs (2 ^ 55)) (hws : ∀ w ∈ ws, w.now < Clock.ample) :
    ((Call.pause (c.procure key ttl fetch)).after me ws = .crash →
      (Call.pause (c.attempt key fetch)).after me ws = .crash) ∧
    ∀ x, (Call.pause (c.procure key ttl fetch)).after me ws = .done x →
      (Call.pause (c.attempt key fetch)).after me ws = .done x := by
  have hsplit := Call.after_bind me (c := .pause (c.attempt key fetch)) rfl
    (fun x ↦ (c.offer key ttl x).bind fun _ ↦ Call.done x) ws
  change (_ ∧ (Call.pause (c.procure key ttl fetch)).after me ws = _) ∨
    (_ ∧ (Call.pause (c.procure key ttl fetch)).after me ws = _) ∨ _ at hsplit
  rcases hsplit with ⟨hnone, hafter⟩ | ⟨hcrash, hafter⟩ |
    ⟨pre, w, later, h, x, rfl, hend, -, hafter⟩
  · have hgoes := Call.conclusion?_bind hnone
      fun x ↦ (c.offer key ttl x).bind fun _ ↦ Call.done x
    rw [← hafter] at hgoes
    refine ⟨fun hcrash ↦ ?_, fun x hdone ↦ ?_⟩
    · rw [hcrash] at hgoes
      cases hgoes
    · rw [hdone] at hgoes
      cases hgoes
  · refine ⟨fun _ ↦ hcrash, fun x hdone ↦ ?_⟩
    rw [hafter] at hdone
    cases hdone
  · have hnow : h.now < Clock.ample := by
      rw [hend.kept.2.2]
      exact hws w (List.mem_append_right _ List.mem_cons_self)
    have hlater : ∀ w' ∈ later, w'.now < Clock.ample := fun w' hw' ↦
      hws w' (List.mem_append_right _ (List.mem_cons_of_mem _ hw'))
    have hends := ((endsIn_offer key hremote httl x).exec me hnow).after me hlater
    change (Call.pause (c.procure key ttl fetch)).after me _ = _ at hafter
    rw [← hafter] at hends
    refine ⟨fun hcrash ↦ ?_, fun y hdone ↦ ?_⟩
    · rw [hcrash] at hends
      exact hends.elim
    · rw [hdone] at hends
      rw [show y = x from hends]
      exact hend.after_eq later

theorem filling_after (key : String) (fetch : Fetch) (me : Nat) (hremote : c.remote.Endures)
    (httl : ttl < Clock.secs (2 ^ 55)) (hws : ∀ w ∈ ws, w.now < Clock.ample) :
    Filling c key ttl fetch me ws ((Call.pause (c.fill key ttl fetch)).after me ws) := by
  obtain ⟨hofcrash, hofdone⟩ := attempt_of_procure key fetch me hremote httl hws
  rw [fill_eq_bind]
  change Filling c key ttl fetch me ws
    (((Call.pause (c.procure key ttl fetch)).bind (c.settle key ttl)).after me ws)
  rcases Call.after_bind me (c := .pause (c.procure key ttl fetch)) rfl (c.settle key ttl) ws with
    ⟨hnone, hafter⟩ | ⟨hcrash, hafter⟩ | ⟨pre, w, later, h, x, rfl, hend, -, hafter⟩
  · rw [hafter]
    exact .going hnone
  · rw [hafter]
    exact .crashed (hofcrash hcrash)
  · have hnow : h.now < Clock.ample := by
      rw [hend.kept.2.2]
      exact hws w (List.mem_append_right _ List.mem_cons_self)
    rw [hafter, exec_settle hnow httl, Call.after_done]
    exact .settled x (hofdone x (hend.after_eq later))

end Call

/-! ### Any run -/

/-- The turn of a call in which the local tier has shown it nothing and the other tier fails. -/
def FailedAt (c : Hybrid) (past : Past (Answer String)) (i : Nat) (key : String)
    (w : World (Answer String)) : Prop :=
  ∃ pre later h f, past.turns (.task i) = pre ++ w :: later ∧
    Call.EndsAt i (c.consult key) pre w h (.inr (.error f))

/-- From where the answer to a call comes. -/
inductive AnsweredBy (c : Hybrid) (past : Past (Answer String)) (w : World (Answer String))
    (i : Nat) (key : String) : Answer String → Prop
  /-- The local tier was open and showed a live value when the call began. -/
  | held {v : String} {first : World (Answer String)} {later : List (World (Answer String))}
      (hturns : past.turns (.task i) = first :: later)
      (hshown : c.near.shown first.heap key = some v) : AnsweredBy c past w i key (.ok v)
  /-- The other tier answered a value. -/
  | read {v : String}
      (htold : (c.consult key).after i (past.turns (.task i)) = .done (.inr (.ok v))) :
      AnsweredBy c past w i key (.ok v)
  /-- The other tier failed, and the fill for which the call waited since has ended. -/
  | filled {w' : World (Answer String)} {o : Answer String} (hfailed : c.FailedAt past i key w')
      (ho : w.outcomes[Call.fillOf w'.heap c.guard key]? = some o) : AnsweredBy c past w i key o

/-- From where the outcome of a fill comes. -/
inductive FilledBy (c : Hybrid) (past : Past (Answer String)) (j : Nat) (key : String)
    (fetch : Fetch) : Answer String → Prop
  /-- The local tier had come to hold a live value when the fill began. -/
  | held {v : String} {first : World (Answer String)} {later : List (World (Answer String))}
      (hturns : past.turns (.fill j) = first :: later)
      (hview : ((first.heap.tiers.localTier c.near.cache).view first.now key).map Prod.fst =
        some v) : FilledBy c past j key fetch (.ok v)
  /-- Its fetch has ended, with a value or with a failure. -/
  | fetched (r : Except String String)
      (hfetched : (Call.pause (c.attempt key fetch)).after j (past.turns (.fill j)) =
        .done (.inr r)) : FilledBy c past j key fetch (yield (.inr r))
  /-- Its fetch could not go on. -/
  | crashed (hcrash : (Call.pause (c.attempt key fetch)).after j (past.turns (.fill j)) = .crash) :
      FilledBy c past j key fetch (.error .fillFailed)

/-- A fill comes to a value, or to the failure of its fetch. -/
theorem FilledBy.mild {past : Past (Answer String)} {j : Nat} {key : String} {fetch : Fetch}
    {o : Answer String} (h : c.FilledBy past j key fetch o) :
    (∃ v, o = .ok v) ∨ ∃ source, o = .error (.fetchFailed source) := by
  cases h with
  | held => exact Or.inl ⟨_, rfl⟩
  | fetched r =>
    cases r with
    | ok v => exact Or.inl ⟨v, rfl⟩
    | error source => exact Or.inr ⟨source, rfl⟩
  | crashed => exact Or.inr ⟨_, rfl⟩

/-- What calls for keys and their fills have come to. -/
structure Degrades (c : Hybrid) (past : Past (Answer String)) (w : World (Answer String)) :
    Prop where
  /-- A call that has ended has an answer: a value, or the failure of a fetch. -/
  answered : ∀ i key ttl fetch, past.made i = some (c.getOrSet key ttl fetch) →
    ∀ a, w.conclusions[i]? = some a → ∃ o, a = .answer o ∧ c.AnsweredBy past w i key o ∧
      ((∃ v, o = .ok v) ∨ ∃ source, o = .error (.fetchFailed source))
  /-- A call that has not ended asks the tiers, or waits for a fill since the other tier failed. -/
  pending : ∀ i key ttl fetch, past.made i = some (c.getOrSet key ttl fetch) →
    ∀ t ∈ w.tasks, t.id = i →
      ((c.consult key).after i (past.turns (.task i))).conclusion? = none ∨
        ∃ w', c.FailedAt past i key w' ∧ t.code = .await (Call.fillOf w'.heap c.guard key) .done
  /-- The fill for which a call waits was started for its key through the tier, by the call itself
  and with its own fetch where none was in flight. -/
  turned : ∀ i key ttl fetch, past.made i = some (c.getOrSet key ttl fetch) →
    ∀ w', c.FailedAt past i key w' →
      ((w'.heap.guard c.guard).inFlight[key]? = none →
        ⟨Call.fillOf w'.heap c.guard key, c.guard, key, .pause (c.fill key ttl fetch), 0⟩ ∈
          past.started) ∧
      ∃ ttl' fetch', ttl' < Clock.secs (2 ^ 55) ∧
        ⟨Call.fillOf w'.heap c.guard key, c.guard, key, .pause (c.fill key ttl' fetch'), 0⟩ ∈
          past.started
  /-- All who wait for a fill have its outcome from when it has ended. -/
  shared : ∀ i key ttl fetch, past.made i = some (c.getOrSet key ttl fetch) →
    ∀ w', c.FailedAt past i key w' →
      ∀ o, w.outcomes[Call.fillOf w'.heap c.guard key]? = some o →
        (∀ a, w.conclusions[i]? = some a → a = .answer o) ∧
          ∀ t ∈ w.tasks, t.id = i → w.resume t.code = .done o
  /-- A fill ends with what the local tier had come to hold, or as its fetch does. -/
  filled : ∀ j key ttl fetch, ttl < Clock.secs (2 ^ 55) →
    ⟨j, c.guard, key, .pause (c.fill key ttl fetch), 0⟩ ∈ past.started →
      ∀ o, w.outcomes[j]? = some o → c.FilledBy past j key fetch o
  /-- It ends in the turn in which its fetch has ended and the other tier, if it was offered a
  value, has answered in any way. -/
  filling : ∀ j key ttl fetch, ttl < Clock.secs (2 ^ 55) →
    ⟨j, c.guard, key, .pause (c.fill key ttl fetch), 0⟩ ∈ past.started →
      (∃ o, w.outcomes[j]? = some o) ∨
        ((Call.pause (c.procure key ttl fetch)).after j (past.turns (.fill j))).conclusion? = none

section Runs

variable {c} {past : Past (Answer String)} {w : World (Answer String)}

theorem now_lt_of_leads (h : past.Leads c.Rules w) (th : Thread) :
    ∀ w' ∈ past.turns th, w'.now < Clock.ample :=
  (h.now_lt (by decide) fun _ ht ↦ ht).2 th

/-- A fill that was started has come to an outcome of its own, or it is under way. -/
theorem exists_filling (hremote : c.remote.Endures) (h : past.Leads c.Rules w) {j : Nat}
    {key : String} {ttl : Nat} {fetch : Fetch} (httl : ttl < Clock.secs (2 ^ 55))
    (hstarted : ⟨j, c.guard, key, .pause (c.fill key ttl fetch), 0⟩ ∈ past.started) :
    (∃ o, w.outcomes[j]? = some o ∧ c.FilledBy past j key fetch o) ∨
      (w.outcomes[j]? = none ∧
        ((Call.pause (c.procure key ttl fetch)).after j (past.turns (.fill j))).conclusion? =
          none) := by
  have hstage := filling_after key fetch j hremote httl (now_lt_of_leads h (.fill j))
  rcases h.told.started _ hstarted with ⟨f, hf, hid, -, -, hcode, hnone⟩ | ⟨o, ho, hend⟩
  · right
    dsimp only at hid hcode
    rw [hcode] at hnone
    refine ⟨hid ▸ h.guards.agrees.outcome_eq_none hf, ?_⟩
    generalize (Call.pause (c.fill key ttl fetch)).after j (past.turns (.fill j)) = rest at *
    cases hstage with
    | going hgoes => exact hgoes
    | settled => cases hnone
    | crashed => cases hnone
  · left
    dsimp only at ho hend
    refine ⟨o.outcome, ho, ?_⟩
    generalize (Call.pause (c.fill key ttl fetch)).after j (past.turns (.fill j)) = rest at *
    cases hstage with
    | going hgoes =>
      rw [Call.conclusion?_bind hgoes] at hend
      cases hend
    | settled x hfound =>
      obtain rfl := Option.some.inj hend
      cases x with
      | inl v =>
        obtain ⟨first, later, hturns, hview⟩ := view_of_attempt hfound
        exact .held hturns hview
      | inr r => exact .fetched r hfound
    | crashed hcrash =>
      obtain rfl := Option.some.inj hend
      exact .crashed hcrash

theorem filledBy_of_outcome (hremote : c.remote.Endures) (h : past.Leads c.Rules w) {j : Nat}
    {key : String} {ttl : Nat} {fetch : Fetch} (httl : ttl < Clock.secs (2 ^ 55))
    (hstarted : ⟨j, c.guard, key, .pause (c.fill key ttl fetch), 0⟩ ∈ past.started)
    {o : Answer String} (ho : w.outcomes[j]? = some o) : c.FilledBy past j key fetch o := by
  rcases exists_filling hremote h httl hstarted with ⟨o', ho', hby⟩ | ⟨hnone, -⟩
  · rwa [Option.some.inj (ho.symm.trans ho')]
  · rw [ho] at hnone
    cases hnone

/-- Where the other tier fails a call turns to the fill in flight, or starts its own. -/
theorem started_of_failedAt (h : past.Leads c.Rules w) {i : Nat} {key : String} {ttl : Nat}
    {fetch : Fetch} (hmade : past.made i = some (c.getOrSet key ttl fetch))
    {w' : World (Answer String)} (hfailed : c.FailedAt past i key w') :
    ((w'.heap.guard c.guard).inFlight[key]? = none →
      ⟨Call.fillOf w'.heap c.guard key, c.guard, key, .pause (c.fill key ttl fetch), 0⟩ ∈
        past.started) ∧
    ∃ ttl' fetch', ttl' < Clock.secs (2 ^ 55) ∧
      ⟨Call.fillOf w'.heap c.guard key, c.guard, key, .pause (c.fill key ttl' fetch'), 0⟩ ∈
        past.started := by
  obtain ⟨pre, later, h', f, hturns, hend⟩ := hfailed
  obtain ⟨hstarts, hflight⟩ := h.turn hturns hmade
  obtain ⟨-, hkind⟩ := h.brings (g := c.guard) (F := c.IsFill) fun _ _ hcode ↦ hcode
  obtain ⟨hguards, hnext, -⟩ := hend.kept
  have hown : (w'.heap.guard c.guard).inFlight[key]? = none →
      ⟨Call.fillOf w'.heap c.guard key, c.guard, key, .pause (c.fill key ttl fetch), 0⟩ ∈
        past.started := by
    intro hnone
    refine hstarts _ ?_
    have hnone' : (h'.guard c.guard).inFlight[key]? = none := by
      unfold Heap.guard at hnone ⊢
      rw [hguards, hnone]
    rw [getOrSet_eq_bind, hend.exec_bind rfl, ← fillOf_congr hguards hnext]
    change _ ∈ ((Call.join c.guard key (c.fill key ttl fetch) Call.done).exec i h' []).fills
    simp only [Call.exec, Call.fillOf, hnone', Option.getD_none, List.nil_append,
      List.mem_singleton]
  have hsome : ∃ s ∈ past.started, s.id = Call.fillOf w'.heap c.guard key ∧ s.guard = c.guard ∧
      s.key = key := by
    cases hj : (w'.heap.guard c.guard).inFlight[key]? with
    | none => exact ⟨_, hown hj, rfl, rfl, rfl⟩
    | some j =>
      obtain ⟨s, hs, hid, hsame⟩ := hflight _ _ _ hj
      refine ⟨s, hs, ?_, hsame⟩
      rw [hid, Call.fillOf, hj]
      rfl
  obtain ⟨s, hs, hid, hguard, hkey⟩ := hsome
  obtain ⟨fill, hs', ttl', fetch', httl', rfl⟩ := (hkind s hs).2 hguard
  rw [hs', hid, hkey] at hs
  exact ⟨hown, ttl', fetch', httl', hs⟩

/-- A call goes on with the outcome of the fill to which it has turned. -/
theorem outcome_of_later (h : past.Leads c.Rules w) {i j : Nat} {w' w'' : World (Answer String)}
    {pre later : List (World (Answer String))} (hturns : past.turns (.task i) = pre ++ w' :: later)
    (hw'' : w'' ∈ later) {o : Answer String} (ho : w''.outcomes[j]? = some o) :
    w.outcomes[j]? = some o := by
  have hmem : w'' ∈ past.turns (.task i) := by
    rw [hturns]
    exact List.mem_append_right _ (List.mem_cons_of_mem _ hw'')
  exact h.outcome_of_turn hmem ho

/-- A call is answered with a value, or with the failure of a fetch. -/
theorem AnsweredBy.mild (hremote : c.remote.Endures) (h : past.Leads c.Rules w) {i : Nat}
    {key : String} {ttl : Nat} {fetch : Fetch}
    (hmade : past.made i = some (c.getOrSet key ttl fetch)) {o : Answer String}
    (hby : c.AnsweredBy past w i key o) :
    (∃ v, o = .ok v) ∨ ∃ source, o = .error (.fetchFailed source) := by
  cases hby with
  | held => exact Or.inl ⟨_, rfl⟩
  | read => exact Or.inl ⟨_, rfl⟩
  | filled hfailed ho =>
    obtain ⟨-, ttl', fetch', httl, hstarted⟩ := started_of_failedAt h hmade hfailed
    exact (filledBy_of_outcome hremote h httl hstarted ho).mild

/-- A call that has come to an end has an answer. -/
theorem Asked.answeredBy (h : past.Leads c.Rules w) {i : Nat} {key : String} {ttl : Nat}
    {fetch : Fetch} {rest : Call (Answer String)}
    (hasked : Asked c key ttl fetch i (past.turns (.task i)) rest) {a : Conclusion (Answer String)}
    (ha : rest.conclusion? = some a) : ∃ o, a = .answer o ∧ c.AnsweredBy past w i key o := by
  cases hasked with
  | asking hnone =>
    rw [Call.conclusion?_bind hnone] at ha
    cases ha
  | held htold =>
    obtain ⟨first, later, hturns, hshown⟩ := shown_of_consult htold
    exact ⟨_, (Option.some.inj ha).symm, .held hturns hshown⟩
  | read htold => exact ⟨_, (Option.some.inj ha).symm, .read htold⟩
  | waiting => cases ha
  | filled hws hfailed hw' ho =>
    exact ⟨_, (Option.some.inj ha).symm, .filled ⟨_, _, _, _, hws, hfailed⟩
      (outcome_of_later h hws hw' ho)⟩

/-- A call that has not come to an end asks the tiers, or waits for the fill to which it has turned.
-/
theorem Asked.pending {i : Nat} {key : String} {ttl : Nat} {fetch : Fetch}
    {rest : Call (Answer String)} (hasked : Asked c key ttl fetch i (past.turns (.task i)) rest)
    (hgoes : rest.conclusion? = none) :
    ((c.consult key).after i (past.turns (.task i))).conclusion? = none ∨
      ∃ w', c.FailedAt past i key w' ∧
        rest = .await (Call.fillOf w'.heap c.guard key) .done := by
  cases hasked with
  | asking hnone => exact Or.inl hnone
  | held => cases hgoes
  | read => cases hgoes
  | waiting hws hfailed => exact Or.inr ⟨_, ⟨_, _, _, _, hws, hfailed⟩, rfl⟩
  | filled => cases hgoes

/-- A call that the other tier has failed waits for the fill to which it has turned, or has its
outcome. -/
theorem Asked.of_failedAt (h : past.Leads c.Rules w) {i : Nat} {key : String} {ttl : Nat}
    {fetch : Fetch} {rest : Call (Answer String)}
    (hasked : Asked c key ttl fetch i (past.turns (.task i)) rest) {w' : World (Answer String)}
    (hfailed : c.FailedAt past i key w') :
    rest = .await (Call.fillOf w'.heap c.guard key) .done ∨
      ∃ o, rest = .done o ∧ w.outcomes[Call.fillOf w'.heap c.guard key]? = some o := by
  obtain ⟨pre, later, h', f, hturns, hend⟩ := hfailed
  have htold := hend.after_eq later
  rw [← hturns] at htold
  cases hasked with
  | asking hnone =>
    rw [htold] at hnone
    cases hnone
  | held hheld =>
    rw [htold] at hheld
    cases hheld
  | read hread =>
    rw [htold] at hread
    cases hread
  | waiting hws hthen =>
    rw [hend.unique hthen (hturns.symm.trans hws)]
    exact Or.inl rfl
  | filled hws hthen hw'' ho =>
    rw [hend.unique hthen (hturns.symm.trans hws)]
    exact Or.inr ⟨_, rfl, outcome_of_later h hws hw'' ho⟩

end Runs

/-- Whatever the state of the local tier, however the other tier fails, and whatever else happens
between the steps: a call for a key is answered with the live value that the local tier showed, with
the value that the other tier answered, or with the outcome of the fill that it has joined or
started since the other tier failed; and the fill comes to what the local tier has come to hold, or
to what its fetch comes to, for all who wait for it, whether the tiers take the value or not. -/
theorem getOrSet_degrades {c : Hybrid} (hpopulation : c.settings.populationSecs < 2 ^ 55)
    (hremote : c.remote.Endures) {past : Past (Answer String)} {w : World (Answer String)}
    (h : past.Leads c.Rules w) : c.Degrades past w := by
  have hasked : ∀ i key ttl fetch, Asked c key ttl fetch i (past.turns (.task i))
      ((c.getOrSet key ttl fetch).after i (past.turns (.task i))) := fun i key ttl fetch ↦
    asked_after hpopulation hremote (now_lt_of_leads h (.task i))
  refine ⟨fun i key ttl fetch hmade a ha ↦ ?_, fun i key ttl fetch hmade t ht hid ↦ ?_,
    fun i key ttl fetch hmade w' ↦ started_of_failedAt h hmade,
    fun i key ttl fetch hmade w' hfailed o ho ↦ ⟨fun a ha ↦ ?_, fun t ht hid ↦ ?_⟩,
    fun j key ttl fetch httl hstarted o ↦ filledBy_of_outcome hremote h httl hstarted,
    fun j key ttl fetch httl hstarted ↦ ?_⟩
  · obtain ⟨o, rfl, hby⟩ := (hasked i key ttl fetch).answeredBy h
      (h.told.conclusion?_of_made hmade ha)
    exact ⟨o, rfl, hby, hby.mild hremote h hmade⟩
  · obtain ⟨hcode, hnone | hgoes⟩ := h.told.code_of_made hmade ht hid
    · -- the call has not begun
      rw [hnone]
      exact Or.inl rfl
    · rw [hcode] at hgoes ⊢
      exact (hasked i key ttl fetch).pending hgoes
  · have hend := h.told.conclusion?_of_made hmade ha
    rcases (hasked i key ttl fetch).of_failedAt h hfailed with hwaits | ⟨o', hdone, ho'⟩
    · rw [hwaits] at hend
      cases hend
    · rw [hdone] at hend
      rw [Option.some.inj (ho.symm.trans ho')]
      exact (Option.some.inj hend).symm
  · obtain ⟨hcode, -⟩ := h.told.code_of_made hmade ht hid
    rcases (hasked i key ttl fetch).of_failedAt h hfailed with hwaits | ⟨o', hdone, ho'⟩
    · rw [hcode, hwaits]
      simp only [World.resume, ho]
    · rw [hcode, hdone, Option.some.inj (ho.symm.trans ho')]
      rfl
  · rcases exists_filling hremote h httl hstarted with ⟨o, ho, -⟩ | ⟨-, hgoes⟩
    · exact Or.inl ⟨o, ho⟩
    · exact Or.inr hgoes

/-- The local tier is closed and the other tier is out of reach. Two calls for a key, each with a
fetch of its own, are answered with what the fetch of the first one brings, although no tier takes
it. The other tier, a store of this process, endures, and so does a hybrid tier over a store that is
reached over the network. -/
theorem getOrSet_degrades_of_outage :
    let c : Hybrid := ⟨⟨0, ⟨0, 0⟩, 1, default⟩, (StoreHandle.mk 0 2).tier⟩
    let near : LocalCache :=
      { LocalCache.create ⟨fun _ ↦ 0, id⟩ ⟨1, .random, 1⟩ with closed := true }
    let far : Store := { Store.empty with offline := true }
    let outage := (Tiers.empty.setLocal 0 near).setStore 0 far
    let ask (v : String) : Call (Answer String) := c.getOrSet "k" 0 (.done (.ok v))
    let ms : List (Move (Answer String)) := [.spawn [] (.write outage (ask "v")),
      .spawn [] (ask "w"), .run (.task 0), .run (.task 1), .run (.fill 2), .run (.task 0),
      .run (.task 1)]
    let r := ms.foldl Past.step (World.initial, [])
    (c.settings.populationSecs < 2 ^ 55 ∧ c.remote.Endures ∧
      ∀ s : ServerHandle, (⟨c.toFront, s.tier⟩ : Hybrid).tier.Endures) ∧
      Past.Leads c.Rules r.2 r.1 ∧
      r.1.conclusions[0]? = some (.answer (.ok "v")) ∧
      r.1.conclusions[1]? = some (.answer (.ok "v")) ∧ r.1.outcomes[2]? = some (.ok "v") ∧
      (r.1.heap.tiers.localTier 0).size = 0 ∧ (r.1.heap.tiers.store 0).live? 0 "k" = none ∧
      c.Degrades r.2 r.1 := by
  intro c near far outage ask ms r
  have hpopulation : c.settings.populationSecs < 2 ^ 55 := by
    change (default : HybridSettings).populationSecs < 2 ^ 55
    decide
  have hremote : c.remote.Endures := StoreHandle.endures _
  have hask : ∀ v, (ask v).Comes c.guard c.IsFill := fun v ↦
    comes_getOrSet (.onStore 0 fun now ↦ Store.get now "k")
      (fun u ↦ .onStore 0 fun now ↦ Store.set now "k" u 0) (.done _) fun _ ↦ ⟨0, _, by decide, rfl⟩
  have hms : ∀ m ∈ ms, Guard.Move.Fresh m ∧ c.Rules m := by
    intro m hm
    simp only [ms, List.mem_cons, List.not_mem_nil, or_false] at hm
    rcases hm with rfl | rfl | rfl | rfl | rfl | rfl | rfl
    · exact ⟨(hask "v").unbegun, (hask "v").brings⟩
    · exact ⟨(hask "w").unbegun, (hask "w").brings⟩
    all_goals exact ⟨trivial, trivial⟩
  have hleads : Past.Leads c.Rules r.2 r.1 :=
    Past.Leads.foldl .start (fun m hm ↦ (hms m hm).1) (fun m hm ↦ (hms m hm).2)
      (by decide +kernel)
  refine ⟨⟨hpopulation, hremote, fun s ↦ endures hpopulation s.endures⟩, hleads, ?_, ?_, ?_, ?_, ?_,
    getOrSet_degrades hpopulation hremote hleads⟩
  all_goals decide +kernel

end Hybrid

end TwoTier
