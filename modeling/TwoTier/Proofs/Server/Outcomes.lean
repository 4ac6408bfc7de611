import TwoTier.Proofs.Engine.Turns
import TwoTier.Proofs.Server.Linked

/-!
# What the calls of a connected store come to

Tasks use a connected store in any way, its peer answers their commands in any way, and their steps
follow one another in any order. A reply of nothing is a miss and nothing else is; the accesses
counted are the replies that say so; a fetch begins for each call that found nothing, and no fill of
the key in flight, and for no other; one command is sent to store what it has come to, and whatever
becomes of this command, the value is the answer to all who have waited for the fill
(`Remote.calls_classified`).
-/

set_option autoImplicit false
set_option relaxedAutoImplicit false

namespace TwoTier

namespace Call

variable {ρ α : Type}

/-- What a call sees first, it sees in the first of the worlds. -/
theorem after_look {β : Type} {me : Nat} {f : Heap → β} {k : β → Call α} {w : World ρ} {x : β}
    {ws : List (World ρ)} (hx : f w.heap = x) (hresume : w.resume (k x) = k x) :
    after me ((look f).bind k) (w :: ws) = after me (k x) (w :: ws) := by
  subst hx
  rw [after_cons, after_cons, hresume]
  rfl

end Call

namespace Remote

variable {s : ServerHandle} {ρ α : Type} {p : Play Event ρ}

/-! ### What fills leave on record -/

/-- What a fill of a key that has ended with an outcome has left on record: its fetch, at most one
command after a value was fetched, and what was fetched as its outcome; or it could not go on before
its fetch had ended. -/
inductive Spent (key : String) (own : List Event) : Answer String → Prop
  | settled (since : List Event) (r : Except String String) (before : List Event)
      (hown : own = .settled key (yielded r) ::
        (since ++ .fetched key r :: (before ++ [.began key])))
      (hstores : Stores key since r) (hbefore : ∀ key' r', .fetched key' r' ∉ before) :
      Spent key own (yielded r)
  | failed (hbegan : .began key ∈ own) (hnone : ∀ key' r, .fetched key' r ∉ own) :
      Spent key own (.error .fillFailed)

/-- A record begins with one event at most that says that a fetch begins. -/
theorem Lawful.began_eq {own : List Event} {key key' : String} (h : Lawful (own ++ [.began key']))
    (hmem : .began key ∈ own ++ [.began key']) : key = key' := by
  obtain ⟨newer, older, hsplit⟩ := List.append_of_mem hmem
  have holder : older = [] := by
    rw [hsplit] at h
    exact h.follows
  rw [holder] at hsplit
  have hlast := List.append_inj_right' hsplit rfl
  exact (Event.began.inj (List.singleton_inj.mp hlast)).symm

/-- A fill that keeps to the rules has left on record how it came to its outcome. -/
theorem Yields.spent {key : String} {own : List Event} {o : Answer String}
    (h : Yields key own o) (hlawful : Lawful own) : Spent key own o := by
  obtain ⟨hbegan, ⟨key', before, rfl⟩ | ⟨rfl, hnone⟩⟩ := h
  · obtain ⟨since, r, older, rfl, rfl, hstores⟩ := hlawful.1
    have hfollows : (Event.fetched key' r).Follows older := hlawful.2.follows
    obtain ⟨-, before, rfl, hbefore⟩ := hfollows
    have hsplit : Event.settled key' (yielded r) ::
        (since ++ .fetched key' r :: (before ++ [.began key'])) =
          (.settled key' (yielded r) :: (since ++ .fetched key' r :: before)) ++ [.began key'] := by
      simp
    rw [hsplit] at hlawful hbegan
    obtain rfl := hlawful.began_eq hbegan
    exact .settled since r before rfl hstores hbefore
  · exact .failed hbegan hnone

theorem Spent.ne_notFound {key : String} {own : List Event} {o : Answer String}
    (h : Spent key own o) : o ≠ .error .notFound := by
  cases h with
  | settled since r => cases r <;> exact fun heq ↦ by cases heq
  | failed => exact fun heq ↦ by cases heq

/-! ### A command, turn by turn -/

/-- A command that has reached the peer has come back when its deadline is past. -/
theorem after_reaction {me : Nat} {limit : Option Nat} {t : Nat} {command : List String}
    (reaction : Reaction) (a : α) (h : Heap) (w : World ρ) (ht : t ≤ w.now) :
    Call.after me ((markedReaction s limit (some t) command (fun _ ↦ .done a)
      reaction).call.exec me h []).rest [w] = .done a := by
  unfold markedReaction
  split_ifs with hzero
  · rfl
  · cases reaction with
    | reply r => rfl
    | close => rfl
    | hang =>
      change Call.after me (if Call.due (some t) h.now then _ else _ : Progress α).rest [w] = _
      split_ifs
      · rfl
      · have hdue : Call.due (some t) w.heap.now = true := decide_eq_true ht
        change (if Call.due (some t) w.heap.now then _ else _ : Progress α).rest = _
        rw [if_pos hdue]
        rfl

/-- A command whose outcome nobody asks for has come back at the third turn of its thread, when its
deadline is past, whatever others do between the turns. -/
theorem after_transmit {me : Nat} {limit : Option Nat} {t : Nat} {command : List String}
    {send : Peer → Reaction × Peer} (a : α) {w₀ w₂ : World ρ} (w₁ : World ρ)
    (hdeadline : limit.bind (Clock.deadline w₀.now) = some t) (ht : t ≤ w₂.now) :
    Call.after me (markedTransmit s limit command send fun _ ↦ .done a).call [w₀, w₁, w₂] =
      .done a := by
  cases hclosed : (w₀.heap.tiers.server s.server).closed with
  | true =>
    refine (Call.after_look hclosed rfl).trans ?_
    exact Call.after_done me a _
  | false =>
    refine (Call.after_look hclosed rfl).trans ?_
    rw [Call.after_cons]
    change Call.after me (Call.pause ((s.exchange send).bind fun reaction ↦ (markedReaction s limit
      (limit.bind (Clock.deadline w₀.now)) command (fun _ ↦ .done a) reaction).call)) [w₁, w₂] = _
    rw [hdeadline, Call.after_cons]
    exact after_reaction _ a _ w₂ ht

/-! ### Fills and their fetches -/

/-- The limit of the commands that write, as a step finds it. -/
def writeLimit (s : ServerHandle) (w : World ρ) : Nat :=
  (w.heap.tiers.server s.server).options.writeLimit

/-- What a fill does after its fetch: at its third turn at the latest it has ended with what was
fetched, where the deadline of its command is past then. -/
theorem after_fill (key : String) (ttl : Nat) (r : Except String String) {me t : Nat}
    {w₀ w₂ : World ρ} (w₁ : World ρ) (hdeadline : Clock.deadline w₀.now (writeLimit s w₀) = some t)
    (ht : t ≤ w₂.now) :
    Call.after me (s.fill key ttl (.done r)) [w₀, w₁, w₂] = .done (yielded r) := by
  cases r with
  | error source => rfl
  | ok v =>
    have hfill : s.fill key ttl (.done (.ok v)) = s.options.bind fun opts ↦
        (markedTransmit s (some opts.writeLimit) (ServerHandle.setCommand key v ttl)
          (Peer.send (ServerHandle.setCommand key v ttl)) fun _ ↦ .done (.ok v)).call := by
      refine (call_markedFill s key ttl (.done (.ok v))).symm.trans ?_
      refine (call_markedOrder s (.set key v ttl) _).trans
        ((Call.bind_assoc s.options _ _).trans ?_)
      refine congrArg (Call.bind _) (funext fun opts ↦ ?_)
      rw [bind_query, call_markedTransmit]
      rfl
    rw [hfill]
    refine (Call.after_look rfl rfl).trans ?_
    exact after_transmit (Except.ok v) w₁ ((Option.bind_some _ _).trans hdeadline) ht

/-- A fill is its fetch, and then what a fill does whose fetch has ended. -/
theorem fill_eq (s : ServerHandle) (key : String) (ttl : Nat) (fetch : Fetch) :
    s.fill key ttl fetch = Call.bind fetch fun r ↦ s.fill key ttl (.done r) := by
  change Call.bind (Call.bind fetch _) _ = _
  rw [Call.bind_assoc]
  rfl

/-- What a call that fills does in the step in which its reading has come back: it ends, or it waits
for the fill in flight, or it starts a fill with a fetch of its own and waits for that. -/
structure GoesOn (s : ServerHandle) (key : String) (ttl : Nat) (fetch : Fetch)
    (k : Answer Reply → Call (Answer String)) : Prop where
  answered : ∀ (me : Nat) (h : Heap) (o : Answer Reply), o ≠ .ok .nil → o ≠ .error .notFound →
    ∃ h' a, (k o).exec me h [] = ⟨h', [], .done a⟩ ∧ Classified Reply.text? o a
  joined : ∀ (me : Nat) (h : Heap) (i : Nat), (h.guard s.guard).inFlight[key]? = some i →
    ∃ h', (k (.ok .nil)).exec me h [] = ⟨h', [], .await i .done⟩
  started : ∀ (me : Nat) (h : Heap), (h.guard s.guard).inFlight[key]? = none →
    ∃ h', (k (.ok .nil)).exec me h [] =
      ⟨h', [⟨h.nextThread, s.guard, key, .pause (s.fill key ttl fetch), 0⟩],
        .await h.nextThread .done⟩

/-- How a call that fills goes on with what it has read. -/
def turnTo (s : ServerHandle) (key : String) (ttl : Nat) (fetch : Fetch) :
    Answer String → Call (Answer String)
  | .ok v => .done (.ok v)
  | .error .notFound => Call.fillOnce s.guard key (s.fill key ttl fetch)
  | .error f => .done (.error f)

theorem turnTo_of_ne {a : Answer String} (ha : a ≠ .error .notFound) (key : String) (ttl : Nat)
    (fetch : Fetch) : turnTo s key ttl fetch a = .done a := by
  cases a with
  | ok v => rfl
  | error f => cases f <;> first | rfl | exact absurd rfl ha

/-- A call that fills is a reading, and then goes on by what has come back. -/
theorem getOrSet_goes_on (s : ServerHandle) (key : String) (ttl : Nat) (fetch : Fetch) :
    ∃ k, s.tier.getOrSet key ttl fetch = (s.options.bind fun opts ↦
        (s.transmit (some opts.readLimit) (Peer.send ["GET", key])).bind k) ∧
      GoesOn s key ttl fetch k := by
  let text (o : Answer Reply) : Marked Event (Answer String) := markedText s .done o
  -- nothing counts as a miss, and then the call turns to the fills
  have hmiss : ∀ me h, ∃ h' : Heap, h'.guard s.guard = h.guard s.guard ∧
      h'.nextThread = h.nextThread ∧
        ((text (.ok .nil)).call.bind (turnTo s key ttl fetch)).exec me h [] =
          (Call.join s.guard key (s.fill key ttl fetch) .done).exec me h' [] :=
    fun me h ↦ ⟨((s.record .miss).halt me h).1, rfl, rfl, rfl⟩
  refine ⟨fun o ↦ (text o).call.bind (turnTo s key ttl fetch), ?_, ⟨fun me h o hnil hfault ↦ ?_,
    fun me h i hi ↦ ?_, fun me h hnone ↦ ?_⟩⟩
  · have hread := call_markedRead s key fun a ↦ (.done a : Marked Event (Answer String))
    have hget : (s.get key).bind Call.done = s.get key := Call.bind_done _
    change _ = (s.get key).bind Call.done at hread
    rw [hget] at hread
    change (s.get key).bind (turnTo s key ttl fetch) = _
    rw [← hread]
    change Call.bind (Call.bind s.options _) _ = _
    rw [Call.bind_assoc]
    refine congrArg (Call.bind _) (funext fun opts ↦ ?_)
    rw [call_markedTransmit, Call.bind_assoc]
  · have hread : Classified Reply.text? o (orMiss (answerOf (Reply.orNothing Reply.text?) o)) :=
      classified_orMiss rfl hfault
    simp only [text, markedText]
    cases hanswer : answerOf (Reply.orNothing Reply.text?) o with
    | error f =>
      rw [hanswer] at hread
      have hne : (.error f : Answer String) ≠ .error .notFound := fun heq ↦
        hnil (hread.notFound_iff.mp heq)
      refine ⟨h, .error f, ?_, hread⟩
      change (turnTo s key ttl fetch (.error f)).exec me h [] = _
      rw [turnTo_of_ne hne]
      rfl
    | ok v? =>
      rw [hanswer] at hread
      cases v? with
      | none => exact absurd (hread.notFound_iff.mp rfl) hnil
      | some v => exact ⟨_, .ok v, rfl, hread⟩
  · obtain ⟨h', hguard, -, hexec⟩ := hmiss me h
    rw [← hguard] at hi
    refine ⟨h'.setGuard s.guard (h'.guard s.guard).join, hexec.trans ?_⟩
    simp only [Call.exec, hi]
  · obtain ⟨h', hguard, hnext, hexec⟩ := hmiss me h
    rw [← hguard] at hnone
    refine ⟨{ h'.setGuard s.guard ((h'.guard s.guard).start key h.nextThread) with
      nextThread := h.nextThread + 1 }, hexec.trans ?_⟩
    simp only [Call.exec, hnone, hnext, List.nil_append]

/-! ### What has come is dealt with -/

/-- What is told of something that has come, in the step in which it has come. -/
inductive Next : Event → Event → Prop
  | got {key : String} {o : Answer Reply} {a : Answer String} (hread : Classified Reply.text? o a) :
      Next (.ended ["GET", key] o) (.got key a)
  | sought {key : String} {o : Answer Reply} {a : Answer String}
      (hread : Classified Reply.text? o a) : Next (.ended ["GET", key] o) (.sought key a)
  | popped {timeout : Nat} {keys : List String} {o : Answer Reply} {a : Answer (List String)}
      (hread : Classified pairText o a) : Next (.ended (popCommand timeout keys) o) (.popped keys a)
  | answered {command : List String} {o : Answer Reply} {failure : Option Fault}
      (hordinary : Ordinary command) (hne : failure ≠ some .notFound) :
      Next (.ended command o) (.answered command failure)
  | held {key : String} {a : Answer String} (hne : a ≠ .error .notFound) :
      Next (.sought key a) (.held key a)
  | turned {key : String} {flight : Option Nat} {next : Nat} :
      Next (.sought key (.error .notFound)) (.turned key flight next)
  | attempted {key v : String} {ttl : Nat} {limit : Option Nat} :
      Next (.fetched key (.ok v)) (.attempted (ServerHandle.setCommand key v ttl) limit)
  | settled {key source : String} :
      Next (.fetched key (.error source)) (.settled key (yielded (.error source)))

/-- What comes on record after something that has come is what is told of it. -/
theorem Event.Follows.next {x e : Event} {own : List Event} (h : e.Follows (x :: own))
    (hstill : ¬ Still (x :: own)) : Next x e := by
  have hbusy : ¬ Free (x :: own) := fun hfree ↦ hstill hfree.still
  cases e with
  | attempted command limit =>
    rcases h with ⟨hfree, -⟩ | ⟨key, v, ttl, _, heq, rfl⟩
    · exact absurd hfree hbusy
    · cases heq
      exact .attempted
  | reached command reaction =>
    obtain ⟨_, _, heq⟩ := h
    cases heq
    exact absurd trivial hstill
  | ended command o =>
    rcases h with ⟨_, _, heq, -⟩ | ⟨_, _, _, heq, -⟩ <;> cases heq <;> exact absurd trivial hstill
  | got key a =>
    obtain ⟨o, _, heq, hread⟩ := h
    cases heq
    exact .got hread
  | popped keys a =>
    obtain ⟨timeout, o, _, heq, hread⟩ := h
    cases heq
    exact .popped hread
  | answered command failure =>
    obtain ⟨hne, hordinary, hfree | ⟨o, _, heq⟩⟩ := h
    · exact absurd hfree hbusy
    · cases heq
      exact .answered hordinary hne
  | sought key a =>
    obtain ⟨o, _, heq, hread⟩ := h
    cases heq
    exact .sought hread
  | held key a =>
    obtain ⟨_, heq, hne⟩ := h
    cases heq
    exact .held hne
  | turned key flight next =>
    obtain ⟨_, heq⟩ := h
    cases heq
    exact .turned
  | filled key a =>
    obtain ⟨_, _, _, heq⟩ := h
    cases heq
    exact absurd trivial hstill
  | began key => cases h
  | fetched key r => exact absurd h.1 hbusy
  | settled key a =>
    obtain ⟨since, r, before, heq, rfl, hstores⟩ := h
    cases r with
    | ok v =>
      obtain ⟨_, _, _, _, _, -, rfl⟩ := hstores
      cases heq
      exact absurd trivial hstill
    | error source =>
      obtain rfl := hstores
      cases heq
      exact .settled

/-- Where a thread waits, all that has come has been dealt with at once. -/
theorem Lawful.next {newer older : List Event} {x : Event} (h : Lawful (newer ++ x :: older))
    (hstill : Still (newer ++ x :: older)) (hx : ¬ Still (x :: older)) :
    ∃ newer' e, newer = newer' ++ [e] ∧ Next x e := by
  rcases List.eq_nil_or_concat newer with rfl | ⟨newer', e, rfl⟩
  · exact absurd hstill hx
  · rw [List.concat_eq_append, List.append_assoc] at h
    exact ⟨newer', e, List.concat_eq_append, h.follows.next hx⟩

/-! ### Any play -/

/-- What the calls of a connected store have come to in a play. -/
structure Outcomes (s : ServerHandle) (p : Play Event ρ) : Prop where
  /-- Every thread keeps to the rules. -/
  lawful : ∀ th, Lawful (recordOf th p.log)
  /-- A reply, a text that was sought and a value that was fetched have been dealt with at once. -/
  dealt : ∀ th newer x older, recordOf th p.log = newer ++ x :: older → ¬ Still (x :: older) →
    ∃ newer' e, newer = newer' ++ [e] ∧ Next x e
  /-- The fills in flight are those under way. -/
  inFlight_iff : ∀ key i, (p.world.heap.guard s.guard).inFlight[key]? = some i ↔
    ∃ f ∈ p.world.fills, f.id = i ∧ f.guard = s.guard ∧ f.key = key
  /-- A call that turns to the fills of a key finds what is in flight at that moment, and starts a
  fill where nothing is. -/
  turns : ∀ m, p.Allowed (usage s) m → ∃ new, (p.apply m).log = new ++ p.log ∧
    ∀ th key flight next, (th, .turned key flight next) ∈ new →
      flight = (p.world.heap.guard s.guard).inFlight[key]? ∧ next = p.world.heap.nextThread ∧
        (flight = none →
          ∃ f ∈ (p.apply m).world.fills, f.id = next ∧ f.guard = s.guard ∧ f.key = key)
  /-- No other fill is started. -/
  started : ∀ f ∈ p.world.fills, f.guard = s.guard →
    ∃ th, .turned f.key none f.id ∈ recordOf th p.log
  /-- No other fetch is begun. -/
  began : ∀ i key, .began key ∈ recordOf i p.log → ∃ th, .turned key none i ∈ recordOf th p.log
  /-- The fill to which a call has turned is under way, or has ended with what it has settled on. -/
  turned : ∀ th key flight next, .turned key flight next ∈ recordOf th p.log →
    (∃ f ∈ p.world.fills, f.id = flight.getD next ∧ f.guard = s.guard ∧ f.key = key) ∨
      ∃ o, p.world.outcomes[flight.getD next]? = some o ∧
        Spent key (recordOf (flight.getD next) p.log) o
  /-- A call is answered with the outcome of the fill to which it has turned. -/
  filled : ∀ th key o older, .filled key o :: older <:+ recordOf th p.log →
    ∃ flight next before, older = .turned key flight next :: before ∧
      p.world.outcomes[flight.getD next]? = some o ∧ o ≠ .error .notFound

theorem Onward.exists_new {p' : Play Event ρ} {me : Nat} {first newer : List Event}
    (h : Onward s p p' me first newer) : ∃ new, p'.log = new ++ p.log ∧
      ∀ th key flight next, (th, .turned key flight next) ∈ new →
        flight = (p.world.heap.guard s.guard).inFlight[key]? ∧ next = p.world.heap.nextThread ∧
          (flight = none →
            ∃ f ∈ p'.world.fills, f.id = next ∧ f.guard = s.guard ∧ f.key = key) := by
  refine ⟨newer.map (Prod.mk me) ++ first.map (Prod.mk me), ?_, fun th key flight next hmem ↦ ?_⟩
  · rw [h.log_eq, List.append_assoc]
  · rcases List.mem_append.mp hmem with hmem | hmem
    · obtain ⟨e, he, heq⟩ := List.mem_map.mp hmem
      obtain ⟨-, rfl⟩ := Prod.mk.inj heq
      exact h.turned he
    · obtain ⟨e, he, heq⟩ := List.mem_map.mp hmem
      obtain ⟨-, rfl⟩ := Prod.mk.inj heq
      obtain ⟨key?, hfirst, -⟩ := h.begins
      cases hfirst <;> simp at he

/-- What the threads keep to is what their calls come to. -/
theorem Linked.outcomes {hits misses : Nat} (hl : Linked s p)
    (hs : Play.Sound (Tally s hits misses) [] p) : Outcomes s p := by
  obtain ⟨es, hagrees⟩ := hl.agrees
  have hturned : ∀ th key flight next, .turned key flight next ∈ recordOf th p.log →
      (∃ f ∈ p.world.fills, f.id = flight.getD next ∧ f.guard = s.guard ∧ f.key = key) ∨
        ∃ o, p.world.outcomes[flight.getD next]? = some o ∧
          Spent key (recordOf (flight.getD next) p.log) o := fun th key flight next hmem ↦
    (hl.turned th key flight next hmem).imp id fun ⟨o, ho, hyields⟩ ↦
      ⟨o, ho, hyields.spent (hl.lawful _)⟩
  refine ⟨hl.lawful, fun th newer x older heq hx ↦ ?_, hagrees.inFlight_iff s.guard,
    fun m hm ↦ ?_, fun f hf hguard ↦ ((hl.fills f hf).ours hguard).2, hl.began, hturned,
    fun th key o older hsuffix ↦ ?_⟩
  · have hlawful := hl.lawful th
    have hstill := hl.still th
    rw [heq] at hlawful hstill
    exact hlawful.next hstill hx
  · rcases (hl.apply hs hm).2 with hlog | ⟨me, first, newer, honward⟩
    · exact ⟨[], hlog, fun _ _ _ _ h ↦ absurd h List.not_mem_nil⟩
    · exact honward.exists_new
  · obtain ⟨newer, hsplit⟩ := hsuffix
    have hlawful := hl.lawful th
    rw [← hsplit] at hlawful
    obtain ⟨flight, next, before, rfl⟩ := hlawful.follows
    have ho := hl.filled th key o flight next before ⟨newer, hsplit⟩
    refine ⟨flight, next, before, rfl, ho, ?_⟩
    have hmem : .turned key flight next ∈ recordOf th p.log := by
      rw [← hsplit]
      exact List.mem_append_right _ (List.mem_cons_of_mem _ List.mem_cons_self)
    rcases hturned th key flight next hmem with ⟨f, hf, hid, -⟩ | ⟨o', ho', hspent⟩
    · rw [← hid, hagrees.outcome_eq_none hf] at ho
      cases ho
    · rw [ho] at ho'
      rw [Option.some.inj ho']
      exact hspent.ne_notFound

/-- What the calls of a connected store come to, whatever its tasks do, whatever the peer makes of
their commands, and in whatever order steps are taken. The calls that leave marks are its
operations. A miss is a reply of nothing, and nothing else is; hits and misses are counted as the
replies have come. A call begins a fetch of its own exactly where it has found nothing and no fill
of the key is in flight. After a fetch with a value a fill sends one command to store it, and after
another none; it ends with what was fetched when this command is done with, at its third turn after
the deadline at the latest, and all who have waited for it are answered so. -/
theorem calls_classified {now : Nat} {tiers : Tiers}
    (h : Play.Reachable (usage s) (Play.opening now tiers []) p) :
    Links s ∧ Tally s (tiers.server s.server).counters.hits (tiers.server s.server).counters.misses
        p.world.heap p.log ∧ Outcomes s p ∧
      (∀ key ttl fetch, ∃ k, s.tier.getOrSet key ttl fetch = (s.options.bind fun opts ↦
        (s.transmit (some opts.readLimit) (Peer.send ["GET", key])).bind k) ∧
          GoesOn s key ttl fetch k) ∧
      ∀ key ttl,
        (∀ fetch, s.fill key ttl fetch = Call.bind fetch fun r ↦ s.fill key ttl (.done r)) ∧
        ∀ r me t, ∀ w₀ w₁ w₂ : World ρ, Clock.deadline w₀.now (writeLimit s w₀) = some t →
          t ≤ w₂.now →
            Call.after me (s.fill key ttl (.done r)) [w₀, w₁, w₂] = .done (yielded r) := by
  obtain ⟨hs, hl⟩ := sound_linked h
  refine ⟨links s, hs.inv, hl.outcomes hs, getOrSet_goes_on s,
    fun key ttl ↦ ⟨fill_eq s key ttl, ?_⟩⟩
  exact fun r me t w₀ w₁ w₂ hdeadline ht ↦ after_fill key ttl r w₁ hdeadline ht

/-- A call finds nothing, fetches a value and stores it; then the store is closed, and a reading
fails. Its failure is no miss: one miss has been counted, for the one reply of nothing. -/
theorem calls_classified_of_filled_miss :
    let s : ServerHandle := ⟨0, 0⟩
    let server : Server := { (default : Server) with
      options := { (default : ServerOptions) with readMillis := 1000, writeMillis := 1000 }
      peer := { Peer.silent with reactions := [.reply .nil, .reply .okay] } }
    let opening : Play Event (Answer String × Answer String) :=
      .opening 0 (Tiers.empty.setServer 0 server) []
    let code : Marked Event (Answer String × Answer String) :=
      markedGetOrSet s "k" 0 (.done (.ok "v")) fun a ↦ .act s.close fun _ ↦
        markedGet s "k" fun b ↦ .done (a, b)
    let missed := (((opening.apply (.spawn [] code)).apply (.run (.task 0))).apply
      (.run (.task 0))).apply (.run (.task 0))
    let stored := ((missed.apply (.run (.fill 1))).apply (.run (.fill 1))).apply (.run (.fill 1))
    let last := stored.apply (.run (.task 0))
    Play.Reachable (usage s) opening last ∧ Outcomes s last ∧
      last.world.conclusions[0]? = some (.answer (.ok "v", .error .closed)) ∧
      (last.world.heap.tiers.server s.server).counters.misses = 1 ∧
      last.log.countP (fun x ↦ x.2.isMiss) = 1 ∧ last.log.countP (fun x ↦ x.2.isHit) = 0 := by
  intro s server opening code missed stored last
  have hcode : Serves s code := .getOrSet "k" 0 (.done _) fun _ ↦ .close fun _ ↦
    .get "k" fun _ ↦ .done _
  have hmissed : Play.Reachable (usage s) opening missed :=
    .move (.run (.task 0)) ⟨2, by decide +kernel⟩ (.move (.run (.task 0)) ⟨1, by decide +kernel⟩
      (.move (.run (.task 0)) ⟨0, by decide +kernel⟩ (.move (.spawn [] code) hcode .start)))
  have hstored : Play.Reachable (usage s) opening stored :=
    .move (.run (.fill 1)) ⟨5, by decide +kernel⟩ (.move (.run (.fill 1)) ⟨4, by decide +kernel⟩
      (.move (.run (.fill 1)) ⟨3, by decide +kernel⟩ hmissed))
  have hlast : Play.Reachable (usage s) opening last :=
    .move (.run (.task 0)) ⟨3, by decide +kernel⟩ hstored
  obtain ⟨-, htally, houtcomes, -⟩ := calls_classified hlast
  have hzero : ((Tiers.empty.setServer 0 server).server s.server).counters = .zero := by
    rw [Tiers.server_setServer, if_pos rfl]
    rfl
  have hmisses : (last.world.heap.tiers.server s.server).counters.misses = 1 := by decide +kernel
  have hhits : (last.world.heap.tiers.server s.server).counters.hits = 0 := by decide +kernel
  have hmiss := hmisses.symm.trans htally.misses_eq
  have hhit := hhits.symm.trans htally.hits_eq
  rw [hzero] at hmiss hhit
  refine ⟨hlast, houtcomes, by decide +kernel, hmisses, ?_, ?_⟩
  · exact (Nat.zero_add _).symm.trans hmiss.symm
  · exact (Nat.zero_add _).symm.trans hhit.symm

end Remote

end TwoTier
