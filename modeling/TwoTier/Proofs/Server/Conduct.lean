import TwoTier.Proofs.Server.Marks

/-!
# The conduct of one thread

What a thread may leave on record depends on what it has left before (`Remote.Event.Follows`). A
command comes back with what its peer has made of it (`Remote.outcomeOf`), an operation answers as
the reply reads (`Remote.Classified`), a call turns to the fills after a miss and never else, and a
fill sends one command after a fetch with a value and none after another.

`Remote.Conducts` says of a marked call that it keeps to this from a record on, however it is
answered. It is a property of the code alone: neither the heap nor other threads have a part in it.
A step of such a call leads to such a call again (`Remote.Conducts.halt`), or to a call that is
about to wait for a fill.
-/

set_option autoImplicit false
set_option relaxedAutoImplicit false

namespace TwoTier

namespace Remote

/-- All that has come is dealt with: what is made of a reply, of a text that was sought or of a
value that was fetched is told in the same step. -/
def Still : List Event → Prop
  | .ended _ _ :: _ => False
  | .sought _ _ :: _ => False
  | .fetched _ _ :: _ => False
  | _ => True

/-- No operation is under way. -/
def Free : List Event → Prop
  | .attempted _ _ :: _ => False
  | .reached _ _ :: _ => False
  | .ended _ _ :: _ => False
  | .sought _ _ :: _ => False
  | .turned _ _ _ :: _ => False
  | .fetched _ _ :: _ => False
  | _ => True

theorem Free.still {own : List Event} (h : Free own) : Still own := by
  unfold Still
  split
  · exact h
  · exact h
  · exact h
  · trivial

/-- What a command comes back with, where its reply was waited for at most for a span. -/
def outcomeOf (limit : Option Nat) : Reaction → Answer Reply
  | .reply r => if limit = some 0 then .error (.timeout 0) else .ok r
  | .close =>
    if limit = some 0 then .error (.timeout 0) else .error (.remote "the connection was lost")
  | .hang => .error (.timeout (limit.getD 0))

/-- An operation that promises a value or nothing answers as the reply reads: a miss where that is
nothing, and nowhere else, and a value where one can be read. -/
structure Classified {α : Type} (read : Reply → Option α) (o : Answer Reply) (a : Answer α) :
    Prop where
  notFound_iff : a = .error .notFound ↔ o = .ok .nil
  ok_iff : ∀ v, a = .ok v ↔ ∃ r, o = .ok r ∧ r.error? = none ∧ read r = some v

/-- Whether a command neither reads a text nor waits for an element. -/
def Ordinary (command : List String) : Prop :=
  command.head? ≠ some "GET" ∧ command.head? ≠ some "BLPOP"

/-- What a command leaves on record until it comes back. -/
inductive Trip (command : List String) (limit : Option Nat) (own : List Event) : List Event → Prop
  | refused : Trip command limit own (.attempted command limit :: own)
  | arrived (reaction : Reaction) :
      Trip command limit own (.reached command reaction :: .attempted command limit :: own)

/-- What a fill leaves on record between the end of its fetch and its own: the way of one command
after a fetch with a value, and otherwise nothing. -/
def Stores (key : String) (since : List Event) : Except String String → Prop
  | .ok v => ∃ ttl limit o failure trip, Trip (ServerHandle.setCommand key v ttl) limit [] trip ∧
      since = .answered (ServerHandle.setCommand key v ttl) failure ::
        .ended (ServerHandle.setCommand key v ttl) o :: trip
  | .error _ => since = []

/-- What a thread may leave on record, after what it has left before. -/
def Event.Follows (own : List Event) : Event → Prop
  | .attempted command _ => (Free own ∧ ∀ key r, .fetched key r ∉ own) ∨
      ∃ key v ttl before, own = .fetched key (.ok v) :: before ∧
        command = ServerHandle.setCommand key v ttl
  | .reached command _ => ∃ limit before, own = .attempted command limit :: before
  | .ended command o =>
    (∃ limit before, own = .attempted command limit :: before ∧ o = .error .closed) ∨
      ∃ limit reaction before,
        own = .reached command reaction :: .attempted command limit :: before ∧
        o = outcomeOf limit reaction
  | .got key a => ∃ o before, own = .ended ["GET", key] o :: before ∧ Classified Reply.text? o a
  | .popped keys a => ∃ timeout o before, own = .ended (popCommand timeout keys) o :: before ∧
      Classified pairText o a
  | .answered command failure => failure ≠ some .notFound ∧ Ordinary command ∧
      (Free own ∨ ∃ o before, own = .ended command o :: before)
  | .sought key a => ∃ o before, own = .ended ["GET", key] o :: before ∧ Classified Reply.text? o a
  | .held key a => ∃ before, own = .sought key a :: before ∧ a ≠ .error .notFound
  | .turned key _ _ => ∃ before, own = .sought key (.error .notFound) :: before
  | .filled key _ => ∃ flight next before, own = .turned key flight next :: before
  | .began _ => own = []
  | .fetched key _ =>
    Free own ∧ ∃ since, own = since ++ [.began key] ∧ ∀ key' r, .fetched key' r ∉ since
  | .settled key a => ∃ since r before, own = since ++ .fetched key r :: before ∧ a = yielded r ∧
      Stores key since r

/-- A record in which each event may come after those before it. -/
def Lawful : List Event → Prop
  | [] => True
  | e :: own => e.Follows own ∧ Lawful own

theorem Lawful.of_append {newer older : List Event} (h : Lawful (newer ++ older)) :
    Lawful older := by
  induction newer with
  | nil => exact h
  | cons e newer ih => exact ih h.2

/-- Every event of such a record is one that may come after those before it. -/
theorem Lawful.follows {newer older : List Event} {e : Event} (h : Lawful (newer ++ e :: older)) :
    e.Follows older :=
  h.of_append.1

/-! ### How calls end -/

/-- A call may end in any way. -/
def anyEnd {α : Type} (_ : List Event) (_ : Conclusion α) : Prop := True

/-- A fill ends with what it has settled on, unless it cannot go on before its fetch has ended. -/
def fillEnd (own : List Event) (c : Conclusion (Answer String)) : Prop :=
  (∃ key a before, own = .settled key a :: before ∧ c = .answer a) ∨
    (c = .crash ∧ ∀ key r, .fetched key r ∉ own)

/-- Whether an event has nothing to do with a call that turns to the fills, or with the beginning of
one. -/
def Event.Plain : Event → Prop
  | .turned _ _ _ => False
  | .filled _ _ => False
  | .began _ => False
  | _ => True

/-- What a call leaves on record when it turns to the fills of a key. -/
def turnedAt (s : ServerHandle) (key : String) (h : Heap) : Event :=
  .turned key ((h.guard s.guard).inFlight[key]?) h.nextThread

variable {s : ServerHandle} {α β : Type}

/-- A call keeps to the rules from a record on, and ends in one of some ways. It waits for fills of
the store only where it turns to them, and then it is answered by the fill. -/
inductive Conducts (s : ServerHandle) : ∀ {α : Type}, (List Event → Conclusion α → Prop) →
    Marked Event α → List Event → Prop
  | done {α : Type} {fin : List Event → Conclusion α → Prop} {own : List Event} {a : α}
      (hstill : Still own) (hfin : fin own (.answer a)) : Conducts s fin (.done a) own
  | crash {α : Type} {fin : List Event → Conclusion α → Prop} {own : List Event}
      (hstill : Still own) (hfin : fin own .crash) : Conducts s fin .crash own
  | act {α β : Type} {fin : List Event → Conclusion α → Prop} {own : List Event} {c : Call β}
      {k : β → Marked Event α}
      (hcrash : (∃ me h h', c.halt me h = (h', .crash)) → Conducts s fin .crash own)
      (hk : ∀ b, Conducts s fin (k b) own) : Conducts s fin (.act c k) own
  | mark {α : Type} {fin : List Event → Conclusion α → Prop} {own : List Event} {e : Heap → Event}
      {k : Marked Event α} (hplain : ∀ h, (e h).Plain) (hfollows : ∀ h, (e h).Follows own)
      (hk : ∀ h, Conducts s fin k (e h :: own)) : Conducts s fin (.mark e k) own
  | pause {α : Type} {fin : List Event → Conclusion α → Prop} {own : List Event}
      {k : Marked Event α} (hstill : Still own) (hk : Conducts s fin k own) :
      Conducts s fin (.pause k) own
  | sleep {α : Type} {fin : List Event → Conclusion α → Prop} {own : List Event}
      {k : Marked Event α} (hstill : Still own) (wake : Option Nat) (hk : Conducts s fin k own) :
      Conducts s fin (.sleep wake k) own
  | pop {α : Type} {fin : List Event → Conclusion α → Prop} {own : List Event}
      {k : Answer (Option (String × String)) → Marked Event α} (hstill : Still own) (store : Nat)
      (keys : List String) (deadline seen : Option Nat) (hk : ∀ a, Conducts s fin (k a) own) :
      Conducts s fin (.pop store keys deadline seen k) own
  | join {α : Type} {fin : List Event → Conclusion α → Prop} {own : List Event} {g : Nat}
      {fill : Marked Event (Answer String)} {k : Answer String → Marked Event α}
      (hstill : Still own) (hg : g ≠ s.guard) (key : String) (hfill : Conducts s anyEnd fill [])
      (hk : ∀ o, Conducts s fin (k o) own) : Conducts s fin (.join g key fill k) own
  | await {α : Type} {fin : List Event → Conclusion α → Prop} {own : List Event}
      {k : Answer String → Marked Event α} (hstill : Still own) (i : Nat)
      (hk : ∀ o, Conducts s fin (k o) own) : Conducts s fin (.await i k) own
  | acquire {α : Type} {fin : List Event → Conclusion α → Prop} {own : List Event}
      {k : Marked Event α} (hstill : Still own) (lock : Lock) (hk : Conducts s fin k own) :
      Conducts s fin (.acquire lock k) own
  | release {α : Type} {fin : List Event → Conclusion α → Prop} {own : List Event}
      {k : Marked Event α} (lock : Lock) (hk : Conducts s fin k own) :
      Conducts s fin (.release lock k) own
  | loopEnd {α : Type} {fin : List Event → Conclusion α → Prop} {own : List Event}
      {k : Bool → Marked Event α} (hstill : Still own) (loop : Nat) (deadline : Option Nat)
      (hk : ∀ b, Conducts s fin (k b) own) : Conducts s fin (.loopEnd loop deadline k) own
  | turn {α : Type} {fin : List Event → Conclusion α → Prop} {own : List Event} {key : String}
      {m : Marked Event (Answer String)} {k : Answer String → Marked Event α}
      (hmiss : ∀ flight next, (Event.turned key flight next).Follows own)
      (hfill : Conducts s fillEnd m [.began key])
      (hk : ∀ o flight next,
        Conducts s fin (k o) (.filled key o :: .turned key flight next :: own)) :
      Conducts s fin (markedTurn s key (.mark (fun _ ↦ .began key) m) k) own

/-! ### A step -/

/-- What a step of a call leaves: new events, and what the call has yet to do, which keeps to the
rules, or waits for a fill of the store to which it has just turned. -/
inductive Stepped (s : ServerHandle) {α : Type} (fin : List Event → Conclusion α → Prop) (me : Nat)
    (l : Log Event) (own : List Event) (r : Halted Event α) : Prop
  | goes (new : List Event) (hlog : r.log = new.map (Prod.mk me) ++ l)
      (hlawful : Lawful own → Lawful (new ++ own)) (hplain : ∀ e ∈ new, e.Plain)
      (hrest : Conducts s fin r.rest (new ++ own))
  | turns (new : List Event) (key : String) (m : Marked Event (Answer String))
      (k : Answer String → Marked Event α)
      (hlog : r.log = (turnedAt s key r.heap :: new).map (Prod.mk me) ++ l)
      (hlawful : Lawful own → Lawful (turnedAt s key r.heap :: (new ++ own)))
      (hplain : ∀ e ∈ new, e.Plain)
      (hrest : r.rest = .join s.guard key (.mark (fun _ ↦ .began key) m) fun o ↦
        .mark (fun _ ↦ .filled key o) (k o))
      (hfill : Conducts s fillEnd m [.began key])
      (hk : ∀ o flight next,
        Conducts s fin (k o) (.filled key o :: .turned key flight next :: (new ++ own)))

variable {fin : List Event → Conclusion α → Prop} {m : Marked Event α} {own : List Event} {me : Nat}
  {h : Heap} {l : Log Event}

/-- A call that stays where it is. -/
theorem Stepped.stay (hm : Conducts s fin m own) : Stepped s fin me l own ⟨h, l, m⟩ :=
  .goes [] rfl id (fun _ he ↦ absurd he List.not_mem_nil) hm

/-- One more event at the beginning of a step. -/
theorem Stepped.cons {e : Event} {r : Halted Event α} (hplain : e.Plain) (hfollows : e.Follows own)
    (hr : Stepped s fin me ((me, e) :: l) (e :: own) r) : Stepped s fin me l own r := by
  cases hr with
  | goes new hlog hlawful hnew hrest =>
    refine .goes (new ++ [e]) ?_ (fun hown ↦ ?_) (fun e' he' ↦ ?_) ?_
    · rw [hlog, List.map_append, List.append_assoc]
      rfl
    · rw [List.append_assoc]
      exact hlawful ⟨hfollows, hown⟩
    · rcases List.mem_append.mp he' with he' | he'
      · exact hnew e' he'
      · rw [List.mem_singleton.mp he']
        exact hplain
    · rw [List.append_assoc]
      exact hrest
  | turns new key m k hlog hlawful hnew hrest hfill hk =>
    refine .turns (new ++ [e]) key m k ?_ (fun hown ↦ ?_) (fun e' he' ↦ ?_) hrest hfill ?_
    · rw [hlog, List.map_cons, List.map_cons, List.map_append, List.cons_append, List.cons_append,
        List.append_assoc]
      rfl
    · rw [List.append_assoc]
      exact hlawful ⟨hfollows, hown⟩
    · rcases List.mem_append.mp he' with he' | he'
      · exact hnew e' he'
      · rw [List.mem_singleton.mp he']
        exact hplain
    · rw [List.append_assoc]
      exact hk

/-- A step of a call that keeps to the rules. -/
theorem Conducts.halt (hm : Conducts s fin m own) (me : Nat) (h : Heap) (l : Log Event) :
    Stepped s fin me l own (m.halt me h l) := by
  induction hm generalizing h l with
  | done hstill hfin => exact .stay (.done hstill hfin)
  | crash hstill hfin => exact .stay (.crash hstill hfin)
  | @act _ _ _ _ c k hcrash hk _ ih =>
    simp only [Marked.halt]
    split
    · exact ih _ _ _
    · rename_i h' hc
      exact .stay (hcrash ⟨me, _, h', hc⟩)
    · exact .stay (.act hcrash hk)
  | mark hplain hfollows _ ih => exact .cons (hplain h) (hfollows h) (ih h h _)
  | pause hstill hk => exact .stay (.pause hstill hk)
  | sleep hstill wake hk ih =>
    simp only [Marked.halt]
    split
    · exact ih h l
    · exact .stay (.sleep hstill wake hk)
  | pop hstill store keys deadline seen hk ih =>
    simp only [Marked.halt]
    split
    · split
      · exact ih _ _ _
      · exact .stay (.pop hstill store keys deadline seen hk)
    · split
      · exact ih _ _ _
      · exact ih _ _ _
      · split
        · exact ih _ _ _
        · exact .stay (.pop hstill store keys deadline _ hk)
  | join hstill hg key hfill hk => exact .stay (.join hstill hg key hfill hk)
  | await hstill i hk => exact .stay (.await hstill i hk)
  | acquire hstill lock hk ih =>
    simp only [Marked.halt]
    split
    · exact ih _ _
    · exact .stay (.acquire hstill lock hk)
  | release lock _ ih => exact ih _ _
  | loopEnd hstill loop deadline hk ih =>
    simp only [Marked.halt]
    split
    · exact ih _ _ _
    · split
      · exact ih _ _ _
      · exact .stay (.loopEnd hstill loop deadline hk)
  | @turn _ _ _ key m k hmiss hfill hk =>
    exact .turns [] key m k rfl (fun hown ↦ ⟨hmiss _ _, hown⟩)
      (fun _ he ↦ absurd he List.not_mem_nil) rfl hfill hk

/-- Where a call waits, all that has come is dealt with. -/
theorem Conducts.still (hm : Conducts s fin m own) (hwaits : m.Waits) : Still own := by
  cases hm with
  | act => exact hwaits.elim
  | mark => exact hwaits.elim
  | turn => exact hwaits.elim
  | release => exact hwaits.elim
  | _ => assumption

/-! ### Commands on their way -/

/-- A call that reads and writes in one step has an answer. -/
theorem Conducts.atomically {f : Heap → β × Tiers} {k : β → Marked Event α}
    (hk : ∀ b, Conducts s fin (k b) own) : Conducts s fin (.act (Call.atomically f) k) own := by
  refine .act (fun ⟨me, h, h', hc⟩ ↦ ?_) hk
  cases hc

/-- A call that looks at the heap has an answer. -/
theorem Conducts.look {f : Heap → β} {k : β → Marked Event α}
    (hk : ∀ b, Conducts s fin (k b) own) : Conducts s fin (.act (Call.look f) k) own := by
  refine .act (fun ⟨me, h, h', hc⟩ ↦ ?_) hk
  cases hc

section Commands

variable {limit : Option Nat} {command : List String} {send : Peer → Reaction × Peer}
  {k : Answer Reply → Marked Event α}

theorem outcomeOf_ne_notFound (limit : Option Nat) (reaction : Reaction) :
    outcomeOf limit reaction ≠ .error .notFound := by
  cases reaction with
  | hang => exact fun heq ↦ by cases heq
  | _ =>
    unfold outcomeOf
    split_ifs <;> exact fun heq ↦ by cases heq

theorem conducts_reaction (deadline : Option Nat) (reaction : Reaction)
    (hk : ∀ o, o ≠ .error .notFound → Conducts s fin (k o)
      (.ended command o :: .reached command reaction :: .attempted command limit :: own)) :
    Conducts s fin (markedReaction s limit deadline command k reaction)
      (.reached command reaction :: .attempted command limit :: own) := by
  -- what the call comes back with is told at once
  have hend : ∀ o, o = outcomeOf limit reaction →
      Conducts s fin (.mark (fun _ ↦ .ended command o) (k o))
        (.reached command reaction :: .attempted command limit :: own) := by
    rintro o rfl
    exact .mark (fun _ ↦ trivial) (fun _ ↦ Or.inr ⟨limit, reaction, own, rfl, rfl⟩)
      fun _ ↦ hk _ (outcomeOf_ne_notFound limit reaction)
  have hexpire : ∀ span, (Except.error (.timeout span) : Answer Reply) = outcomeOf limit reaction →
      Conducts s fin (markedExpire s command span k)
        (.reached command reaction :: .attempted command limit :: own) := fun span hspan ↦
    .atomically fun _ ↦ hend _ hspan
  unfold markedReaction
  split_ifs with hzero
  · refine hexpire 0 ?_
    subst hzero
    cases reaction <;> rfl
  · cases reaction with
    | reply r => exact .pause trivial (hend _ (if_neg hzero).symm)
    | close => exact hend _ (if_neg hzero).symm
    | hang => exact .sleep (by trivial) deadline (hexpire _ rfl)

/-- A command sets out and comes back. -/
theorem conducts_transmit (hattempt : (Event.attempted command limit).Follows own)
    (hk : ∀ o own', o ≠ .error .notFound → Trip command limit own own' →
      Conducts s fin (k o) (.ended command o :: own')) :
    Conducts s fin (markedTransmit s limit command send k) own := by
  refine .mark (fun _ ↦ trivial) (fun _ ↦ hattempt) fun _ ↦
    .look fun closed ↦ ?_
  cases closed with
  | true =>
    exact .mark (fun _ ↦ trivial) (fun _ ↦ Or.inl ⟨limit, own, rfl, rfl⟩) fun _ ↦
      hk _ _ (fun heq ↦ by cases heq) .refused
  | false =>
    refine .look fun deadline ↦ .pause trivial <| .atomically fun reaction ↦
      .mark (fun _ ↦ trivial) (fun _ ↦ ⟨limit, own, rfl⟩) fun _ ↦ ?_
    exact conducts_reaction deadline reaction fun o ho ↦ hk o _ ho (.arrived reaction)

end Commands

/-! ### What is made of a reply -/

theorem answer_ne_notFound (read : Reply → Option β) (r : Reply) :
    r.answer read ≠ .error .notFound := by
  unfold Reply.answer
  split
  · exact fun heq ↦ by cases heq
  · split <;> exact fun heq ↦ by cases heq

theorem answerOf_ne_notFound (read : Reply → Option β) {o : Answer Reply}
    (ho : o ≠ .error .notFound) : answerOf read o ≠ .error .notFound := by
  cases o with
  | ok r => exact answer_ne_notFound read r
  | error f => exact fun heq ↦ ho (congrArg Except.error (Except.error.inj heq))

/-- What is neither nothing nor a value is a failure of another kind. -/
theorem classified_error {read : Reply → Option β} {o : Answer Reply} {f : Fault}
    (hf : f ≠ .notFound) (hnil : o ≠ .ok .nil)
    (hread : ∀ r v, o = .ok r → r.error? = none → read r ≠ some v) :
    Classified read o (.error f) where
  notFound_iff := ⟨fun heq ↦ absurd (Except.error.inj heq) hf, fun heq ↦ absurd heq hnil⟩
  ok_iff v := ⟨fun heq ↦ (by cases heq), fun ⟨r, ho, herror, hv⟩ ↦ absurd hv (hread r v ho herror)⟩

/-- A reply is classified by its reading, where nothing reads as no value. -/
theorem classified_orMiss {read : Reply → Option β} (hnil : read .nil = none) {o : Answer Reply}
    (ho : o ≠ .error .notFound) :
    Classified read o (orMiss (answerOf (Reply.orNothing read) o)) := by
  cases o with
  | error f =>
    exact classified_error (fun hf ↦ ho (congrArg Except.error hf)) (fun heq ↦ (by cases heq))
      fun r v heq ↦ (by cases heq)
  | ok r =>
    simp only [answerOf, Reply.answer]
    cases herror : r.error? with
    | some message =>
      refine classified_error (fun heq ↦ (by cases heq)) (fun heq ↦ ?_) fun r' v heq hnone ↦ ?_
      · rw [Except.ok.inj heq] at herror
        cases herror
      · rw [← Except.ok.inj heq, herror] at hnone
        cases hnone
    | none =>
      by_cases hr : r = .nil
      · subst hr
        refine ⟨⟨fun _ ↦ rfl, fun _ ↦ rfl⟩, fun v ↦ ⟨fun heq ↦ (by cases heq), ?_⟩⟩
        rintro ⟨r', heq, -, hv⟩
        rw [← Except.ok.inj heq, hnil] at hv
        cases hv
      · have hreading : Reply.orNothing read r = (read r).map some := by
          cases r <;> first | rfl | exact absurd rfl hr
        have hne : (Except.ok r : Answer Reply) ≠ .ok .nil := fun heq ↦ hr (Except.ok.inj heq)
        rw [hreading]
        cases hvalue : read r with
        | none =>
          refine classified_error (fun heq ↦ (by cases heq)) hne fun r' v heq _ hv ↦ ?_
          rw [← Except.ok.inj heq, hvalue] at hv
          cases hv
        | some w =>
          refine ⟨⟨fun heq ↦ (by cases heq), fun heq ↦ absurd heq hne⟩, fun v ↦ ⟨fun heq ↦ ?_, ?_⟩⟩
          · exact ⟨r, rfl, herror, hvalue.trans (congrArg some (Except.ok.inj heq))⟩
          · rintro ⟨r', heq, -, hv⟩
            rw [← Except.ok.inj heq, hvalue] at hv
            exact congrArg Except.ok (Option.some.inj hv)

end Remote

end TwoTier
