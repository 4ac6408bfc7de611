import Mathlib.Algebra.Ring.Nat
import TwoTier.Proofs.Engine.Course
import TwoTier.Proofs.Server.Tally

/-!
# The span that is sent with a text

A call that changes something over the network sends one command, however its steps fall among those
of others, and nothing at all where it finds the connection closed (`ServerHandle.tell_sends`).

The command that puts a text under a key carries the span of it in whole milliseconds, and none for
the zero span. Of the milliseconds only the low 64 bits are sent. So the text lives for as long as
was asked for, up to the part of a millisecond, exactly where their number fits 64 bits
(`ServerHandle.set_lifetime_iff`); a longer span is cut to what is left over
(`ServerHandle.not_lifetime_of_wrapped_span`).
-/

set_option autoImplicit false
set_option relaxedAutoImplicit false

namespace TwoTier

/-- The commands that have reached the peer of a connection. -/
def Heap.sent (h : Heap) (n : Nat) : List (List String) := (h.tiers.server n).peer.sent

/-- In a step, commands have reached the peer of a connection. -/
def Call.Step.Sends (n : Nat) (step : Call.Step) (commands : List (List String)) : Prop :=
  step.after.sent n = step.before.sent n ++ commands

theorem Peer.sent_send (command : List String) (p : Peer) :
    (p.send command).2.sent = p.sent ++ [command] := by
  unfold send
  dsimp only
  split <;> rfl

theorem Heap.sent_setServer (h : Heap) (n : Nat) (x : Server) :
    ({ h with tiers := h.tiers.setServer n x } : Heap).sent n = x.peer.sent := by
  unfold sent
  rw [Tiers.server_setServer, if_pos rfl]

namespace ServerHandle

variable {α : Type} {s : ServerHandle} {me : Nat}

/-! ### One command for each call -/

/-- What a call has left to do whose command has reached the peer: to wait for the reply, or for as
long as it may take. -/
inductive Settling (s : ServerHandle) : Call α → Prop
  /-- It has ended. -/
  | ended {c : Call α} (hc : c.Ended) : Settling s c
  /-- The reply is on its way. -/
  | replied (a : α) : Settling s (.pause (.done a))
  /-- There will be none. -/
  | waiting (wake : Option Nat) (a : α) :
      Settling s (.sleep wake ((s.record .timeout).bind fun _ ↦ .done a))

/-- To count that there was no reply sends nothing, and ends the call. -/
theorem exec_record (e : Event) (a : α) (h : Heap) :
    ((s.record e).bind fun _ ↦ Call.done a).exec me h [] =
      ⟨{ h with tiers := h.tiers.setServer s.server { h.tiers.server s.server with
          counters := (h.tiers.server s.server).counters.record e } }, [], .done a⟩ := rfl

theorem sent_record (e : Event) (a : α) (h : Heap) :
    (((s.record e).bind fun _ ↦ Call.done a).exec me h []).heap.sent s.server =
      h.sent s.server := by
  rw [exec_record, Heap.sent_setServer]
  rfl

/-- Nothing is sent any more. -/
theorem Settling.step {c c' : Call α} (hc : Settling s c) (hresumes : Call.Resumes c c')
    (h : Heap) : Settling s (c'.exec me h []).rest ∧
      (c'.exec me h []).heap.sent s.server = h.sent s.server := by
  cases hc with
  | ended hc =>
    rw [hc.resumes hresumes, hc.exec]
    exact ⟨.ended hc, rfl⟩
  | replied a =>
    cases hresumes with
    | same => exact ⟨.replied a, rfl⟩
    | paused => exact ⟨.ended trivial, rfl⟩
  | waiting wake a =>
    cases hresumes
    rw [Call.exec]
    split_ifs
    · exact ⟨.ended trivial, sent_record _ a h⟩
    · exact ⟨.waiting wake a, rfl⟩

/-- What a query does once the peer has reacted to its command. -/
def heard (s : ServerHandle) (limit deadline : Option Nat) (read : Reply → Option α)
    (reaction : Reaction) : Call (Answer α) :=
  Call.bind (match limit, reaction with
    | some 0, _ => s.expire 0
    | _, .reply r => do
      Call.pause (.done ())
      return .ok r
    | _, .close => return .error (.remote "the connection was lost")
    | _, .hang => do
      Call.sleep deadline (.done ())
      s.expire (limit.getD 0)) fun
    | .ok r => return r.answer read
    | .error f => return .error f

/-- What a query does when its turn to send has come. -/
def sending (s : ServerHandle) (limit deadline : Option Nat) (command : List String)
    (read : Reply → Option α) : Call (Answer α) :=
  (s.exchange (Peer.send command)).bind (s.heard limit deadline read)

/-- It counts that there was no reply, or all that it has left to do is to wait. -/
theorem heard_cases (limit deadline : Option Nat) (read : Reply → Option α) (reaction : Reaction) :
    (∃ a, s.heard limit deadline read reaction = (s.record .timeout).bind fun _ ↦ .done a) ∨
      Settling s (s.heard limit deadline read reaction) := by
  unfold heard
  split
  · exact .inl ⟨.error (.timeout 0), rfl⟩
  · rename_i r _
    exact .inr (.replied (r.answer read))
  · exact .inr (.ended trivial)
  · exact .inr (.waiting deadline (Except.error (Fault.timeout (limit.getD 0))))

/-- The step in which a query has its turn to send sends its command. -/
theorem exec_sending (limit deadline : Option Nat) (command : List String)
    (read : Reply → Option α) (h : Heap) :
    let p := (s.sending limit deadline command read).exec me h []
    Settling s p.rest ∧ p.heap.sent s.server = h.sent s.server ++ [command] := by
  dsimp only
  have hexec : (s.sending limit deadline command read).exec me h [] =
      (s.heard limit deadline read (Peer.send command (h.tiers.server s.server).peer).1).exec me
        { h with tiers := h.tiers.setServer s.server { h.tiers.server s.server with
          peer := (Peer.send command (h.tiers.server s.server).peer).2 } } [] := rfl
  have hsent := (Heap.sent_setServer h s.server { h.tiers.server s.server with
    peer := (Peer.send command (h.tiers.server s.server).peer).2 }).trans (Peer.sent_send ..)
  rw [hexec]
  rcases heard_cases (s := s) limit deadline read
    (Peer.send command (h.tiers.server s.server).peer).1 with ⟨a, ha⟩ | hsettling
  · rw [ha, sent_record, hsent]
    exact ⟨.ended trivial, rfl⟩
  · obtain ⟨hrest, hsame⟩ := hsettling.step (.same _) _
    exact ⟨hrest, hsame.trans hsent⟩

/-- A call that changes something begins to wait for its turn. -/
theorem exec_tell_of_open (command : List String) (read : Reply → Option α) {h : Heap}
    (hopen : (h.tiers.server s.server).closed = false) :
    ∃ limit deadline, (s.tell command read).exec me h [] =
      ⟨h, [], .pause (s.sending limit deadline command read)⟩ := by
  have hquery (limit : Option Nat) : (s.query limit command read).exec me h [] =
      ⟨h, [], .pause (s.sending limit (limit.bind (Clock.deadline h.now)) command read)⟩ := by
    unfold query transmit isClosed
    simp only [Bind.bind, Call.look, Call.bind, Call.exec]
    rw [hopen]
    rfl
  exact ⟨_, _, hquery (some (h.tiers.server s.server).options.writeLimit)⟩

/-- It is refused where it finds the connection closed. -/
theorem exec_tell_of_closed (command : List String) (read : Reply → Option α) {h : Heap}
    (hclosed : (h.tiers.server s.server).closed = true) :
    (s.tell command read).exec me h [] = ⟨h, [], .done (.error .closed)⟩ := by
  have hquery (limit : Option Nat) : (s.query limit command read).exec me h [] =
      ⟨h, [], .done (.error .closed)⟩ := by
    unfold query transmit isClosed
    simp only [Bind.bind, Call.look, Call.bind, Call.exec]
    rw [hclosed]
    rfl
  exact hquery (some (h.tiers.server s.server).options.writeLimit)

/-- How far a call has come that changes something, and what it has sent. -/
inductive Telling (s : ServerHandle) (command : List String) (read : Reply → Option α) :
    List (List String) → Call (Answer α) → Prop
  /-- It has not begun. -/
  | called : Telling s command read [] (s.tell command read)
  /-- Its turn to send will come. -/
  | queued (limit deadline : Option Nat) :
      Telling s command read [] (.pause (s.sending limit deadline command read))
  /-- It has found the connection closed. -/
  | refused : Telling s command read [] (.done (.error .closed))
  /-- Its command has reached the peer. -/
  | settling {c : Call (Answer α)} (hc : Settling s c) : Telling s command read [command] c

theorem Telling.step {command : List String} {read : Reply → Option α} {sent : List (List String)}
    {c c' : Call (Answer α)} (hc : Telling s command read sent c) (hresumes : Call.Resumes c c')
    (h : Heap) :
    let p := c'.exec me h []
    ∃ new, p.heap.sent s.server = h.sent s.server ++ new ∧
      Telling s command read (sent ++ new) p.rest := by
  dsimp only
  cases hc with
  | called =>
    obtain rfl : c' = s.tell command read := by
      cases hresumes
      rfl
    cases hclosed : (h.tiers.server s.server).closed with
    | true =>
      rw [exec_tell_of_closed command read hclosed]
      exact ⟨[], (List.append_nil _).symm, .refused⟩
    | false =>
      obtain ⟨limit, deadline, hexec⟩ := exec_tell_of_open command read hclosed
      rw [hexec]
      exact ⟨[], (List.append_nil _).symm, .queued limit deadline⟩
  | queued limit deadline =>
    cases hresumes with
    | same => exact ⟨[], (List.append_nil _).symm, .queued limit deadline⟩
    | paused =>
      obtain ⟨hrest, hsent⟩ := exec_sending limit deadline command read h
      exact ⟨[command], hsent, .settling hrest⟩
  | refused =>
    have hended : (Call.done (Except.error .closed) : Call (Answer α)).Ended := trivial
    rw [hended.resumes hresumes, hended.exec]
    exact ⟨[], (List.append_nil _).symm, .refused⟩
  | settling hc =>
    obtain ⟨hrest, hsent⟩ := hc.step hresumes h
    exact ⟨[], hsent.trans (List.append_nil _).symm, .settling hrest⟩

/-- What a call sends in its steps adds up. -/
theorem Telling.run {command : List String} {read : Reply → Option α} {sent : List (List String)}
    {c rest : Call (Answer α)} {steps : List Call.Step} (hc : Telling s command read sent c)
    (h : Call.Course me c steps rest) :
    ∃ new, List.Forall₂ (Call.Step.Sends s.server) steps new ∧
      Telling s command read (sent ++ new.flatten) rest := by
  induction h generalizing sent with
  | nil c =>
    refine ⟨[], .nil, ?_⟩
    rw [List.flatten_nil, List.append_nil]
    exact hc
  | cons hresumes h _ ih =>
    obtain ⟨new, hsent, hnext⟩ := hc.step hresumes h
    obtain ⟨more, hmore, hrest⟩ := ih hnext
    refine ⟨new :: more, .cons hsent hmore, ?_⟩
    rw [List.flatten_cons, ← List.append_assoc]
    exact hrest

/-- Whatever others do between its steps, a call that changes something sends its command once and
nothing else, before it ends; only where it finds the connection closed it sends nothing. -/
theorem tell_sends {command : List String} {read : Reply → Option α} {steps : List Call.Step}
    {rest : Call (Answer α)} (h : Call.Course me (s.tell command read) steps rest) :
    ∃ sent, List.Forall₂ (Call.Step.Sends s.server) steps sent ∧
      (sent.flatten = [] ∨ sent.flatten = [command]) ∧
      (rest.Ended → rest ≠ .done (.error .closed) → sent.flatten = [command]) := by
  obtain ⟨sent, hsent, hrest⟩ := Telling.run .called h
  rw [List.nil_append] at hrest
  refine ⟨sent, hsent, ?_⟩
  generalize sent.flatten = total at hrest
  cases hrest with
  | called => exact ⟨.inl rfl, fun hended ↦ hended.elim⟩
  | queued => exact ⟨.inl rfl, fun hended ↦ hended.elim⟩
  | refused => exact ⟨.inl rfl, fun _ hopen ↦ absurd rfl hopen⟩
  | settling => exact ⟨.inr rfl, fun _ _ ↦ rfl⟩

/-! ### The span in milliseconds -/

theorem lifetime_eq_iff (ttl : Nat) :
    lifetime ttl = max 1 (Clock.wholeMillis ttl) ↔ Clock.wholeMillis ttl < 2 ^ 64 := by
  unfold lifetime
  omega

/-- Less than a millisecond of a span is lost exactly where its milliseconds fit 64 bits. -/
theorem lt_millis_lifetime_iff (ttl : Nat) :
    ttl < Clock.millis (lifetime ttl + 1) ↔ Clock.wholeMillis ttl < 2 ^ 64 := by
  unfold lifetime Clock.millis Clock.wholeMillis
  omega

theorem lifetime_le_lifetime {less ttl : Nat} (hle : less ≤ ttl)
    (hfits : Clock.wholeMillis ttl < 2 ^ 64) : lifetime less ≤ lifetime ttl := by
  unfold Clock.wholeMillis at hfits
  unfold lifetime Clock.wholeMillis
  omega

/-- What is sent to put a text under a key for a span. The call sends one command, which carries no
expiry for the zero span. For any other span it carries a number of milliseconds, and this is the
number of whole milliseconds in the span, or one where there is none, exactly if that number fits 64
bits; just then less than a millisecond is lost, and no shorter span is sent as a greater number. -/
theorem set_lifetime_iff (s : ServerHandle) (key value : String) (ttl : Nat) :
    (∀ me steps rest, Call.Course me (s.set key value ttl) steps rest →
      ∃ sent, List.Forall₂ (Call.Step.Sends s.server) steps sent ∧
        (sent.flatten = [] ∨ sent.flatten = [setCommand key value ttl]) ∧
        (rest.Ended → rest ≠ .done (.error .closed) →
          sent.flatten = [setCommand key value ttl])) ∧
    (ttl = 0 → setCommand key value ttl = ["SET", key, value]) ∧
    (0 < ttl →
      setCommand key value ttl = ["SET", key, value, "PX", toString (lifetime ttl)] ∧
      (lifetime ttl = max 1 (Clock.wholeMillis ttl) ↔ Clock.wholeMillis ttl < 2 ^ 64) ∧
      (ttl < Clock.millis (lifetime ttl + 1) ↔ Clock.wholeMillis ttl < 2 ^ 64) ∧
      (Clock.wholeMillis ttl < 2 ^ 64 → ∀ less ≤ ttl, lifetime less ≤ lifetime ttl)) := by
  refine ⟨fun me steps rest h ↦ tell_sends h, fun hzero ↦ ?_, fun hpos ↦ ⟨?_, lifetime_eq_iff ttl,
    lt_millis_lifetime_iff ttl, fun hfits less hle ↦ lifetime_le_lifetime hle hfits⟩⟩
  · rw [setCommand, if_pos hzero]
    rfl
  · rw [setCommand, if_neg (Nat.pos_iff_ne_zero.mp hpos)]
    rfl

/-- A text for one nanosecond: its command is answered at the third step, and asks for one
millisecond. -/
theorem set_lifetime_of_one_nanosecond :
    let s : ServerHandle := ⟨0, 1⟩
    let peer : Peer := { Peer.silent with reactions := [.reply .okay] }
    let h : Heap := { Heap.initial with
      tiers := Tiers.empty.setServer 0 ⟨default, peer, .zero, 1, false⟩ }
    ∃ steps sent, Call.Course 0 (s.set "k" "v" 1) steps (.done (.ok ())) ∧
      (∀ step ∈ steps.head?, step.before = h) ∧
      List.Forall₂ (Call.Step.Sends 0) steps sent ∧
      sent.flatten = [["SET", "k", "v", "PX", "1"]] := by
  intro s peer h
  have hcourse : ∃ steps, Call.Course 0 (s.set "k" "v" 1) steps (.done (.ok ())) ∧
      ∀ step ∈ steps.head?, step.before = h := by
    refine ⟨_, .cons (.same _) h (.cons (.paused _) h (.cons (.paused _) h (.nil _))), ?_⟩
    rintro step ⟨⟩
    rfl
  obtain ⟨steps, hsteps, hfirst⟩ := hcourse
  obtain ⟨sent, hsent, -, hended⟩ := (set_lifetime_iff s "k" "v" 1).1 0 steps _ hsteps
  have hcommand : setCommand "k" "v" 1 = ["SET", "k", "v", "PX", "1"] := by decide +kernel
  rw [hcommand] at hended
  exact ⟨steps, sent, hsteps, hfirst, hsent, hended trivial nofun⟩

/-- A text is put for a span of 2^64 milliseconds and some more, which a caller can ask for, and one
for a span of 385 milliseconds. The peer is sent what is left over of the first span, 384
milliseconds, and the second one as it is. -/
theorem not_lifetime_of_wrapped_span :
    let s : ServerHandle := ⟨0, 1⟩
    let ttl := Clock.secs 18446744073709552
    let peer : Peer := { Peer.silent with reactions := [.reply .okay, .reply .okay] }
    let first : World (Answer Unit) :=
      .opening 0 (Tiers.empty.setServer 0 ⟨default, peer, .zero, 1, false⟩)
    let moves : List (Move (Answer Unit)) :=
      [.spawn [] (s.set "k" "v" ttl), .run (.task 0), .run (.task 0), .run (.task 0),
        .spawn [] (s.set "k" "v" (Clock.millis 385)), .run (.task 1), .run (.task 1),
        .run (.task 1)]
    let last := moves.foldl World.apply first
    (0 < ttl ∧ ttl < Clock.spanLimit ∧ max 1 (Clock.wholeMillis ttl) = 18446744073709552000 ∧
      Clock.millis 385 ≤ ttl) ∧
      first.able moves = true ∧ last.conclusions[0]? = some (.answer (.ok ())) ∧
      last.conclusions[1]? = some (.answer (.ok ())) ∧
      last.heap.sent 0 = [["SET", "k", "v", "PX", "384"], ["SET", "k", "v", "PX", "385"]] ∧
      ¬ ∀ key value ttl, 0 < ttl → ttl < Clock.spanLimit → setCommand key value ttl =
        ["SET", key, value, "PX", toString (max 1 (Clock.wholeMillis ttl))] := by
  intro s ttl peer first moves last
  have hpos : 0 < ttl := by decide +kernel
  have hspan : ttl < Clock.spanLimit := by decide +kernel
  refine ⟨⟨hpos, hspan, by decide +kernel, by decide +kernel⟩, by decide +kernel,
    by decide +kernel, by decide +kernel, by decide +kernel, fun hall ↦ ?_⟩
  have hsent : setCommand "k" "v" ttl = ["SET", "k", "v", "PX", "384"] := by decide +kernel
  exact absurd (hsent.symm.trans (hall "k" "v" ttl hpos hspan)) (by decide +kernel)

end ServerHandle

end TwoTier
