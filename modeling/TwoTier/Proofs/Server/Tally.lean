import TwoTier.Proofs.Engine.Quiet
import TwoTier.Proofs.Server.Serving

/-!
# The accesses that a connected store counts

A hit is counted for each reading that came back with a value, and a miss for each that came back
with nothing; no other outcome of a command is counted as either. The count is made in the step in
which the reply has come, so that it is right at every wait (`Remote.Tally`), for all tasks that use
the store (`Remote.Serves.keeps`) and whatever else goes on (`Remote.keep_tally`).
-/

set_option autoImplicit false
set_option relaxedAutoImplicit false

namespace TwoTier

namespace Tiers

/-! ### What receive loops and what is given up do not count -/

@[simp] theorem server_setServer (t : Tiers) (i n : Nat) (x : Server) :
    (t.setServer i x).server n = if n = i then x else t.server n := by
  simp [server, setServer]

/-- A server whose peer is in another state. -/
theorem counters_setPeer (t : Tiers) (i : Nat) (peer : Peer) (n : Nat) :
    ((t.setServer i { t.server i with peer := peer }).server n).counters =
      (t.server n).counters := by
  rw [server_setServer]
  split_ifs with hn
  · rw [hn]
  · rfl

theorem counters_endLoop (t : Tiers) (r n : Nat) :
    ((t.endLoop r).server n).counters = (t.server n).counters := by
  have hclose : ((t.closeLoop r).server n).counters = (t.server n).counters := by
    unfold closeLoop unsubscribe
    dsimp only
    split
    · rfl
    · exact counters_setPeer t _ _ n
  unfold endLoop
  dsimp only
  split
  · exact hclose
  · exact hclose

theorem server_applyNotice (t : Tiers) (i : Nat) (payload : String) (n : Nat) :
    (t.applyNotice i payload).server n = t.server n := by
  unfold applyNotice
  dsimp only
  split <;> rfl

theorem counters_stepLoop (t : Tiers) (r n : Nat) :
    ((t.stepLoop r).server n).counters = (t.server n).counters := by
  unfold stepLoop
  dsimp only
  split
  · rfl
  · split
    · exact counters_endLoop t r n
    · split
      · split
        · rw [server_applyNotice]
          rfl
        · rfl
        · exact counters_endLoop _ r n
        · rfl
      · split
        · split
          · rw [server_applyNotice]
            exact counters_setPeer t _ _ n
          · exact counters_setPeer t _ _ n
        · rw [counters_endLoop]
          exact counters_setPeer t _ _ n
        · rfl

/-- Nothing that is given up belongs to a server. -/
theorem server_release (t : Tiers) (held : List Held) (n : Nat) :
    (t.release held).server n = t.server n :=
  release_rel (R := fun t t' ↦ t'.server n = t.server n) (fun _ ↦ rfl) (fun h h' ↦ h'.trans h)
    (fun _ _ _ ↦ rfl) (fun _ _ _ ↦ rfl) t held

end Tiers

namespace Remote

/-- Whether a reading has come back with a value. -/
def Event.isHit : Event → Bool
  | .ended command (.ok r) =>
    command.head? = some "GET" && r.error? = none && r.text?.isSome
  | _ => false

/-- Whether a reading has come back with nothing. -/
def Event.isMiss : Event → Bool
  | .ended command (.ok .nil) => command.head? = some "GET"
  | _ => false

/-- The accesses counted for a store, from some first numbers on, are those on record. -/
structure Tally (s : ServerHandle) (hits misses : Nat) (h : Heap) (l : Log Event) : Prop where
  hits_eq : (h.tiers.server s.server).counters.hits = hits + l.countP fun x ↦ x.2.isHit
  misses_eq : (h.tiers.server s.server).counters.misses = misses + l.countP fun x ↦ x.2.isMiss

variable {s : ServerHandle} {hits misses : Nat} {h h' : Heap} {l : Log Event} {α β : Type}
  {me : Nat}

theorem Spares.of_counters
    (hsame : (h'.tiers.server s.server).counters = (h.tiers.server s.server).counters) :
    Spares s h h' :=
  ⟨congrArg Counters.hits hsame, congrArg Counters.misses hsame⟩

theorem Tally.spares (ht : Tally s hits misses h l) (hspares : Spares s h h') :
    Tally s hits misses h' l :=
  ⟨hspares.1.trans ht.hits_eq, hspares.2.trans ht.misses_eq⟩

/-- An event is counted as what it is. -/
theorem Tally.event {e : Event} (ht : Tally s hits misses h l)
    (hhits : (h'.tiers.server s.server).counters.hits =
      (h.tiers.server s.server).counters.hits + if e.isHit then 1 else 0)
    (hmisses : (h'.tiers.server s.server).counters.misses =
      (h.tiers.server s.server).counters.misses + if e.isMiss then 1 else 0) :
    Tally s hits misses h' ((me, e) :: l) := by
  refine ⟨?_, ?_⟩
  · rw [hhits, ht.hits_eq, List.countP_cons, Nat.add_assoc]
  · rw [hmisses, ht.misses_eq, List.countP_cons, Nat.add_assoc]

/-- An event that is no reading come back is not counted. -/
theorem Tally.cons {e : Event} (ht : Tally s hits misses h l) (hhit : e.isHit = false)
    (hmiss : e.isMiss = false) : Tally s hits misses h ((me, e) :: l) :=
  ht.event (by simp [hhit]) (by simp [hmiss])

/-- A call of a thread keeps the account whenever it is right. -/
def Keeps (s : ServerHandle) (hits misses me : Nat) (m : Marked Event α) : Prop :=
  ∀ h l, Tally s hits misses h l → Marked.Safe (Tally s hits misses) me m h l

/-! ### One step of a call -/

theorem keeps_mark {e : Heap → Event} {k : Marked Event α} (hhit : ∀ h, (e h).isHit = false)
    (hmiss : ∀ h, (e h).isMiss = false) (hk : Keeps s hits misses me k) :
    Keeps s hits misses me (.mark e k) :=
  fun h _ ht ↦ hk h _ (ht.cons (hhit h) (hmiss h))

theorem keeps_act {c : Call β} {k : β → Marked Event α}
    (hc : ∀ h, c.AtOnce me h (fun _ h' ↦ Spares s h h') (Spares s h))
    (hk : ∀ b, Keeps s hits misses me (k b)) : Keeps s hits misses me (.act c k) :=
  fun h l ht ↦ Marked.Safe.of_atOnce (hc h) (fun b h' hspares ↦ hk b h' l (ht.spares hspares))
    fun _ hspares ↦ ht.spares hspares

theorem keeps_look {f : Heap → β} {k : β → Marked Event α}
    (hk : ∀ b, Keeps s hits misses me (k b)) : Keeps s hits misses me (.act (Call.look f) k) :=
  keeps_act (fun _ ↦ .look ⟨rfl, rfl⟩) hk

theorem keeps_atomically {f : Heap → β × Tiers} {k : β → Marked Event α}
    (hf : ∀ h, Spares s h { h with tiers := (f h).2 }) (hk : ∀ b, Keeps s hits misses me (k b)) :
    Keeps s hits misses me (.act (Call.atomically f) k) :=
  keeps_act (fun h ↦ .atomically (hf h)) hk

theorem keeps_pause {k : Marked Event α} (hk : Keeps s hits misses me k) :
    Keeps s hits misses me (.pause k) :=
  fun _ _ ht ↦ ⟨ht, fun h' l' ht' _ ↦ hk h' l' ht'⟩

theorem keeps_sleep {k : Marked Event α} (wake : Option Nat) (hk : Keeps s hits misses me k) :
    Keeps s hits misses me (.sleep wake k) :=
  fun _ _ ht ↦ ⟨ht, fun h' l' ht' _ ↦ hk h' l' ht'⟩

theorem keeps_join {g : Nat} {key : String} {fill : Marked Event (Answer String)}
    {k : Answer String → Marked Event α} (hfill : ∀ i, Keeps s hits misses i fill)
    (hk : ∀ o, Keeps s hits misses me (k o)) : Keeps s hits misses me (.join g key fill k) :=
  fun _ _ ht ↦ ⟨ht, fun i h' l' ht' _ ↦ hfill i h' l' ht', fun o h' l' ht' _ ↦ hk o h' l' ht'⟩

theorem keeps_crash : Keeps s hits misses me (.crash : Marked Event α) :=
  fun _ _ ht ↦ ht.spares ⟨rfl, rfl⟩

theorem keeps_done (a : α) : Keeps s hits misses me (.done a) := fun _ _ ht ↦ ht.spares ⟨rfl, rfl⟩

/-! ### Commands and what is made of them -/

/-- A command sets out and comes back. -/
theorem keeps_transmit {limit : Option Nat} {command : List String}
    {send : Peer → Reaction × Peer} {k : Answer Reply → Marked Event α}
    (hk : ∀ o, Keeps s hits misses me (.mark (fun _ ↦ .ended command o) (k o))) :
    Keeps s hits misses me (markedTransmit s limit command send k) := by
  have hexpire : ∀ span, Keeps s hits misses me (markedExpire s command span k) := fun span ↦
    keeps_atomically (fun h ↦ ⟨by simp [Counters.record], by simp [Counters.record]⟩)
      fun _ ↦ hk _
  refine keeps_mark (fun _ ↦ rfl) (fun _ ↦ rfl) (keeps_look fun closed ↦ ?_)
  cases closed with
  | true => exact hk _
  | false =>
    refine keeps_look fun deadline ↦ keeps_pause <| keeps_atomically
      (fun h ↦ .of_counters (Tiers.counters_setPeer h.tiers _ _ _)) fun reaction ↦
        keeps_mark (fun _ ↦ rfl) (fun _ ↦ rfl) ?_
    unfold markedReaction
    split_ifs
    · exact hexpire 0
    · cases reaction with
      | reply r => exact keeps_pause (hk _)
      | close => exact hk _
      | hang => exact keeps_sleep deadline (hexpire _)

/-- What comes back of a command that reads no text is not counted. -/
theorem keeps_ended {command : List String} (hcommand : command.head? ≠ some "GET")
    {o : Answer Reply} {k : Marked Event α} (hk : Keeps s hits misses me k) :
    Keeps s hits misses me (.mark (fun _ ↦ .ended command o) k) := by
  refine keeps_mark (fun _ ↦ ?_) (fun _ ↦ ?_) hk
  · cases o with
    | ok r => simp [Event.isHit, hcommand]
    | error f => rfl
  · cases o with
    | ok r => cases r <;> simp [Event.isMiss, hcommand]
    | error f => rfl

theorem keeps_order (o : Order β) {k : Answer β → Marked Event α}
    (hk : ∀ a, Keeps s hits misses me (k a)) : Keeps s hits misses me (markedOrder s o k) := by
  unfold markedOrder
  split
  · exact hk _
  · rename_i d hd
    exact keeps_look fun opts ↦ keeps_transmit fun r ↦ keeps_ended (o.sound hd).ordinary.1 <|
      keeps_mark (fun _ ↦ rfl) (fun _ ↦ rfl) (hk _)

/-- How a reading is counted: by what came back. -/
theorem keeps_text {key : String} {k : Answer String → Marked Event α}
    (hk : ∀ a, Keeps s hits misses me (k a)) (o : Answer Reply) :
    Keeps s hits misses me (.mark (fun _ ↦ .ended ["GET", key] o) (markedText s k o)) := by
  cases o with
  | error f => exact keeps_mark (fun _ ↦ rfl) (fun _ ↦ rfl) (hk _)
  | ok r =>
    by_cases hnil : r = .nil
    · subst hnil
      refine fun h l ht ↦ Or.inl ⟨_, (), rfl, hk _ _ _ (ht.event ?_ ?_)⟩
      · simp [Counters.record, Event.isHit, Reply.text?]
      · simp [Counters.record, Event.isMiss]
    · have hmiss : (Event.ended ["GET", key] (.ok r)).isMiss = false := by
        cases r <;> first | rfl | exact absurd rfl hnil
      have hreading : Reply.orNothing Reply.text? r = r.text?.map some := by
        cases r <;> first | rfl | exact absurd rfl hnil
      cases herror : r.error? with
      | some message =>
        have htext : markedText s k (.ok r) = k (.error (.remote message)) := by
          simp only [markedText, answerOf, Reply.answer, herror]
        rw [htext]
        exact keeps_mark (fun _ ↦ by simp [Event.isHit, herror]) (fun _ ↦ hmiss) (hk _)
      | none =>
        cases hvalue : r.text? with
        | none =>
          have htext : markedText s k (.ok r) =
              k (.error (.remote "the reply is not of the expected type")) := by
            simp only [markedText, answerOf, Reply.answer, herror, hreading, hvalue,
              Option.map_none]
          rw [htext]
          exact keeps_mark (fun _ ↦ by simp [Event.isHit, hvalue]) (fun _ ↦ hmiss) (hk _)
        | some v =>
          have htext : markedText s k (.ok r) = .act (s.record .hit) fun _ ↦ k (.ok v) := by
            simp only [markedText, answerOf, Reply.answer, herror, hreading, hvalue,
              Option.map_some]
          rw [htext]
          have hhit : (Event.ended ["GET", key] (.ok r)).isHit = true := by
            simp [Event.isHit, herror, hvalue]
          refine fun h l ht ↦ Or.inl ⟨_, (), rfl, hk _ _ _ (ht.event ?_ ?_)⟩
          · simp [Counters.record, hhit]
          · simp [Counters.record, hmiss]

theorem keeps_read (key : String) {k : Answer String → Marked Event α}
    (hk : ∀ a, Keeps s hits misses me (k a)) : Keeps s hits misses me (markedRead s key k) :=
  keeps_look fun _ ↦ keeps_transmit (keeps_text hk)

/-- A fill keeps the account, once its fetch has ended. -/
theorem keeps_keep (key : String) (ttl : Nat) (r : Except String String) :
    Keeps s hits misses me (markedKeep s key ttl r) := by
  refine keeps_mark (fun _ ↦ rfl) (fun _ ↦ rfl) ?_
  have hsettled : ∀ a, Keeps s hits misses me (.mark (fun _ ↦ .settled key a) (.done a)) := fun a ↦
    keeps_mark (fun _ ↦ rfl) (fun _ ↦ rfl) (keeps_done a)
  cases r with
  | ok v => exact keeps_order _ fun _ ↦ hsettled _
  | error source => exact hsettled _

theorem keeps_subscribe (channel : String) {k : Answer Nat → Marked Event α}
    (hk : ∀ a, Keeps s hits misses me (k a)) :
    Keeps s hits misses me (markedSubscribe s channel k) := by
  have hanswered : ∀ (failure : Option Fault) (a : Answer Nat), Keeps s hits misses me
      (.mark (fun _ ↦ .answered ["SUBSCRIBE", channel] failure) (k a)) := fun failure a ↦
    keeps_mark (fun _ ↦ rfl) (fun _ ↦ rfl) (hk a)
  refine keeps_look fun closed ↦ ?_
  cases closed with
  | true => exact hanswered _ _
  | false =>
    exact keeps_pause <| keeps_atomically
      (fun h ↦ .of_counters (Tiers.counters_setPeer h.tiers _ _ _))
      fun i ↦ hanswered _ _

/-! ### Tasks -/

/-- A call that uses the store keeps the account, where what follows it does. -/
theorem Serves.keeps {m : Marked Event β} (hm : Serves s m) {α : Type} {k : β → Marked Event α}
    (hk : ∀ b, Keeps s hits misses me (k b)) : Keeps s hits misses me (m.bind k) := by
  induction hm generalizing α me with
  | done a => exact hk a
  | crash => exact keeps_crash
  | get key _ ih =>
    rw [bind_markedGet]
    exact keeps_read key fun a ↦ keeps_mark (fun _ ↦ rfl) (fun _ ↦ rfl) (ih a hk)
  | blpop timeout keys _ ih =>
    rw [bind_markedPop]
    refine keeps_look fun opts ↦ ?_
    by_cases hlong : timeout ≠ 0 ∧ Clock.spanLimit ≤ timeout + opts.readLimit
    · rw [if_pos hlong]
      exact keeps_crash
    · rw [if_neg hlong]
      have hword : (popCommand timeout keys).head? ≠ some "GET" := fun heq ↦
        absurd (Option.some.inj heq) (by decide)
      exact keeps_transmit fun o ↦ keeps_ended hword <|
        keeps_mark (fun _ ↦ rfl) (fun _ ↦ rfl) (ih _ hk)
  | order o _ ih =>
    rw [bind_markedOrder]
    exact keeps_order o fun a ↦ ih a hk
  | getOrSet key ttl _ _ ihfetch ih =>
    rw [bind_markedGetOrSet]
    refine keeps_read key fun a ↦ keeps_mark (fun _ ↦ rfl) (fun _ ↦ rfl) ?_
    have hheld : ∀ a, Keeps s hits misses me (.mark (fun _ ↦ .held key a) _) := fun a ↦
      keeps_mark (fun _ ↦ rfl) (fun _ ↦ rfl) (ih a hk)
    split
    · refine keeps_mark (fun _ ↦ rfl) (fun _ ↦ rfl) (keeps_join (fun i ↦ ?_) fun o ↦
        keeps_mark (fun _ ↦ rfl) (fun _ ↦ rfl) (ih o hk))
      exact keeps_mark (fun _ ↦ rfl) (fun _ ↦ rfl) (ihfetch (keeps_keep key ttl))
    · exact hheld _
  | subscribe channel _ ih =>
    rw [bind_markedSubscribe]
    exact keeps_subscribe channel fun a ↦ ih a hk
  | stats _ ih =>
    rw [bind_markedStats]
    exact keeps_look fun _ ↦ keeps_look fun _ ↦ keeps_transmit fun o ↦
      keeps_ended (ordinary_cons (by decide) (by decide)).1 <|
        keeps_mark (fun _ ↦ rfl) (fun _ ↦ rfl) (keeps_look fun x ↦ ih x hk)
  | aside _ _ hspares _ ih => exact keeps_act (hspares me) fun b ↦ ih b hk
  | pause _ ih => exact keeps_pause (ih hk)
  | sleep wake _ ih => exact keeps_sleep wake (ih hk)
  | pop store keys deadline seen _ ih =>
    refine fun h l ht ↦ ⟨ht, fun h' l' ht' _ ↦ ?_⟩
    exact ⟨fun x _ ↦ ih _ hk _ _ (ht'.spares ⟨rfl, rfl⟩),
      fun f _ ↦ ih _ hk _ _ (ht'.spares ⟨rfl, rfl⟩),
      fun _ ↦ ht'.spares ⟨rfl, rfl⟩, ih _ hk _ _ ht'⟩
  | @join _ g hg key fill _ _ _ ihfill ih =>
    refine keeps_join (fun i ↦ ?_) fun o ↦ ih o hk
    have hfill : Keeps s hits misses i (fill.bind .done) := ihfill keeps_done
    rwa [Marked.bind_done] at hfill
  | acquire lock _ ih =>
    refine fun h l ht ↦ ⟨ht, fun h' l' ht' _ ↦ ?_⟩
    have hqueued : Tally s hits misses (h'.enqueue lock me) l' :=
      ht'.spares (.of_counters (by rw [Heap.tiers_enqueue]))
    exact ⟨hqueued, fun _ ↦ ih hk _ _ hqueued⟩
  | release lock _ ih => exact fun h l ht ↦ ih hk _ _ (ht.spares ⟨rfl, rfl⟩)
  | loopEnd loop deadline _ ih =>
    exact fun h l ht ↦ ⟨ht, fun h' l' ht' _ ↦ ⟨fun _ ↦ ih _ hk _ _ ht', fun _ ↦ ih _ hk _ _ ht'⟩⟩

/-- A store may be closed at any time. -/
theorem Serves.close {k : Answer Unit → Marked Event α} (hk : ∀ a, Serves s (k a)) :
    Serves s (.act s.close k) := by
  refine .aside (fun b heq ↦ ?_) (fun _ ↦ trivial) (fun me h ↦ .atomically (.of_counters ?_)) hk
  · cases heq
  · dsimp only
    rw [Tiers.server_setServer, if_pos rfl]

/-- The rules of plays in which tasks use a connected store, and may be cancelled at any wait. -/
def usage {ρ : Type} (s : ServerHandle) : Play.Rules Event ρ where
  call := Serves s
  named := []
  aborts := True

/-- Whatever goes on, the account stays right. -/
theorem keep_tally {ρ : Type} : (usage (ρ := ρ) s).Keep (Tally s hits misses) where
  kept :=
    { thread := fun _ _ ht ↦ ht.spares ⟨rfl, rfl⟩
      clock := fun _ ht ↦ ht.spares ⟨rfl, rfl⟩
      release := fun _ ht ↦ ht.spares (.of_counters (by rw [Tiers.server_release]))
      loop := fun _ _ _ ht ↦ ht.spares (.of_counters (Tiers.counters_stepLoop _ _ _)) }
  aborts _ _ _ _ ht := ht.spares ⟨rfl, rfl⟩
  opens hm := hm.opens
  safe hm i h l ht _ := by
    have hkeeps : Keeps s hits misses i (Marked.bind _ .done) := hm.keeps keeps_done
    rw [Marked.bind_done] at hkeeps
    exact hkeeps h l ht

end Remote

end TwoTier
