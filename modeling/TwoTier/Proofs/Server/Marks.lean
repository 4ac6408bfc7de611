import TwoTier.Proofs.Engine.Marked
import TwoTier.Tier.Server

/-!
# What the calls of a connected store leave on record

A call to a store over the network is a command on its way: it sets out, may reach the peer, and
comes back with a reply or gives up. `Remote.Event` names these moments, what each operation makes
of the reply, and how far a call that fills has come. `Remote.markedGet`, `Remote.markedPop`,
`Remote.markedOrder`, `Remote.markedGetOrSet`, `Remote.markedSubscribe` and `Remote.markedStats` are
the operations with marks at these moments; without them they are the operations themselves
(`Remote.Links`).

All operations that send one command and make nothing of it but its answer are one family
(`Remote.Order`), each given by what it sends and how it reads the reply.
-/

set_option autoImplicit false
set_option relaxedAutoImplicit false

namespace TwoTier

namespace Remote

/-- What the calls to a connected store do. -/
inductive Event where
  /-- A command sets out, whose reply is waited for at most for a span, or for ever. -/
  | attempted (command : List String) (limit : Option Nat)
  /-- It has reached the peer. -/
  | reached (command : List String) (reaction : Reaction)
  /-- Its call has the reply, or has given up. -/
  | ended (command : List String) (o : Answer Reply)
  /-- A reading is answered. -/
  | got (key : String) (a : Answer String)
  /-- A wait for an element is answered. -/
  | popped (keys : List String) (a : Answer (List String))
  /-- Another operation is answered, with a failure or without. -/
  | answered (command : List String) (failure : Option Fault)
  /-- A call that fills has read the key. -/
  | sought (key : String) (a : Answer String)
  /-- It is answered by what it has read. -/
  | held (key : String) (a : Answer String)
  /-- It turns to the fills, of which this one is in flight; the number of the next thread is told.
  -/
  | turned (key : String) (flight : Option Nat) (next : Nat)
  /-- It is answered by the fill for which it has waited. -/
  | filled (key : String) (a : Answer String)
  /-- A fill begins its fetch. -/
  | began (key : String)
  /-- The fetch has ended. -/
  | fetched (key : String) (r : Except String String)
  /-- The fill ends. -/
  | settled (key : String) (a : Answer String)

/-- Why an operation has failed, if it has. -/
def fault? {α : Type} : Answer α → Option Fault
  | .ok _ => none
  | .error f => some f

/-- What an operation makes of the reply to its command. -/
def answerOf {α : Type} (read : Reply → Option α) : Answer Reply → Answer α
  | .ok r => r.answer read
  | .error f => .error f

/-- What an operation answers that promises a value or nothing: nothing is a miss. -/
def orMiss {α : Type} : Answer (Option α) → Answer α
  | .ok (some v) => .ok v
  | .ok none => .error .notFound
  | .error f => .error f

/-- What a fetch comes to for all who wait for it. -/
def yielded : Except String String → Answer String
  | .ok v => .ok v
  | .error source => .error (.fetchFailed source)

/-! ### Operations that send one command -/

/-- The operations that make nothing of a command but its answer. -/
inductive Order : Type → Type where
  | contains (key : String) : Order Bool
  | set (key value : String) (ttl : Nat) : Order Unit
  | del (key : String) : Order Unit
  | incr (key : String) : Order Int
  | rpush (key : String) (values : List String) : Order Unit
  | ltrim (key : String) (start stop : Int) : Order Unit
  | eval (script : String) (keys args : List String) : Order ScriptValue
  | sadd (key : String) (members : List String) : Order Unit
  | sismember (key member : String) : Order Bool
  | publish (channel payload : String) : Order Unit
  | publishMany (channel : String) (payloads : List String) : Order Unit

/-- What is sent, for how long the reply is waited for, and how it is read. -/
structure Dispatch (α : Type) where
  /-- For how long the reply is waited for. -/
  limit : ServerOptions → Nat
  /-- The command. -/
  command : List String
  /-- How it is sent. -/
  send : Peer → Reaction × Peer
  /-- What the operation answers. -/
  answer : Answer Reply → Answer α

/-- One command whose reply promises an `α`. -/
def Dispatch.single {α : Type} (limit : ServerOptions → Nat) (command : List String)
    (read : Reply → Option α) : Dispatch α :=
  ⟨limit, command, Peer.send command, answerOf read⟩

/-- A command whose reply is a number that nobody asks for. -/
def Dispatch.counting (command : List String) : Dispatch Unit :=
  .single ServerOptions.writeLimit command fun r ↦ r.int?.map fun _ ↦ ()

namespace Order

variable {α : Type}

/-- The operation. -/
def call (s : ServerHandle) : Order α → Call (Answer α)
  | contains key => s.tier.contains key
  | set key value ttl => s.tier.set key value ttl
  | del key => s.tier.del key
  | incr key => s.tier.incr key
  | rpush key values => s.tier.rpush key values
  | ltrim key start stop => s.tier.ltrim key start stop
  | eval script keys args => s.tier.eval script keys args
  | sadd key members => s.tier.sadd key members
  | sismember key member => s.tier.sismember key member
  | publish channel payload => s.publish channel payload
  | publishMany channel payloads => s.publishMany channel payloads

/-- What an operation sends, or what it answers where it sends nothing. -/
def dispatch : Order α → Answer α ⊕ Dispatch α
  | contains key => .inr ⟨ServerOptions.readLimit, ["EXISTS", key], Peer.send ["EXISTS", key],
      fun o ↦ (answerOf Reply.int? o).map fun n ↦ decide (0 < n)⟩
  | set key value ttl => .inr <| .single ServerOptions.writeLimit
      (ServerHandle.setCommand key value ttl) ServerHandle.anything
  | del key => .inr (.counting ["DEL", key])
  | incr key => .inr (.single ServerOptions.writeLimit ["INCR", key] Reply.int?)
  | rpush key values =>
    if values.isEmpty then .inl (.ok ()) else .inr (.counting ("RPUSH" :: key :: values))
  | ltrim key start stop => .inr <| .single ServerOptions.writeLimit
      ["LTRIM", key, Text.Numeral.decimal start, Text.Numeral.decimal stop] ServerHandle.anything
  | eval script keys args => .inr <| .single ServerOptions.writeLimit
      (["EVAL", script, toString keys.length] ++ keys ++ args) fun r ↦ some r.script
  | sadd key members =>
    if members.isEmpty then .inl (.ok ()) else .inr (.counting ("SADD" :: key :: members))
  | sismember key member =>
    .inr (.single ServerOptions.readLimit ["SISMEMBER", key, member] Reply.truth?)
  | publish channel payload => .inr (.counting ["PUBLISH", channel, payload])
  | publishMany channel payloads =>
    if payloads.isEmpty then .inl (.ok ())
    else .inr ⟨ServerOptions.writeLimit, "PUBLISH" :: channel :: payloads,
      Peer.sendAll (payloads.map fun p ↦ ["PUBLISH", channel, p]), answerOf ServerHandle.anything⟩

end Order

/-! ### The operations with marks -/

section Operations

variable (s : ServerHandle) {α β : Type}

/-- A command is not answered within its limit. -/
def markedExpire (command : List String) (limit : Nat) (k : Answer Reply → Marked Event α) :
    Marked Event α :=
  .act (s.record .timeout) fun _ ↦
    .mark (fun _ ↦ .ended command (.error (.timeout limit))) (k (.error (.timeout limit)))

/-- What becomes of a command that has reached the peer. -/
def markedReaction (limit deadline : Option Nat) (command : List String)
    (k : Answer Reply → Marked Event α) (reaction : Reaction) : Marked Event α :=
  if limit = some 0 then markedExpire s command 0 k
  else
    match reaction with
    | .reply r => .pause <| .mark (fun _ ↦ .ended command (.ok r)) (k (.ok r))
    | .close =>
      .mark (fun _ ↦ .ended command (.error (.remote "the connection was lost")))
        (k (.error (.remote "the connection was lost")))
    | .hang => .sleep deadline (markedExpire s command (limit.getD 0) k)

/-- A command is sent, and its reply waited for. -/
def markedTransmit (limit : Option Nat) (command : List String) (send : Peer → Reaction × Peer)
    (k : Answer Reply → Marked Event α) : Marked Event α :=
  .mark (fun _ ↦ .attempted command limit) <| .act s.isClosed fun
    | true => .mark (fun _ ↦ .ended command (.error .closed)) (k (.error .closed))
    | false => .act (Call.look fun h ↦ limit.bind (Clock.deadline h.now)) fun deadline ↦
      .pause <| .act (s.exchange send) fun reaction ↦
        .mark (fun _ ↦ .reached command reaction)
          (markedReaction s limit deadline command k reaction)

/-- An operation that sends one command. -/
def markedOrder (o : Order β) (k : Answer β → Marked Event α) : Marked Event α :=
  match o.dispatch with
  | .inl a => k a
  | .inr d => .act s.options fun opts ↦
      markedTransmit s (some (d.limit opts)) d.command d.send fun r ↦
        .mark (fun _ ↦ .answered d.command (fault? (d.answer r))) (k (d.answer r))

/-- What a reading makes of the reply. -/
def markedText (k : Answer String → Marked Event α) (o : Answer Reply) : Marked Event α :=
  match answerOf (Reply.orNothing Reply.text?) o with
  | .ok (some v) => .act (s.record .hit) fun _ ↦ k (.ok v)
  | .ok none => .act (s.record .miss) fun _ ↦ k (.error .notFound)
  | .error f => k (.error f)

/-- The text of a key is asked for. -/
def markedRead (key : String) (k : Answer String → Marked Event α) : Marked Event α :=
  .act s.options fun opts ↦
    markedTransmit s (some opts.readLimit) ["GET", key] (Peer.send ["GET", key]) (markedText s k)

/-- A reading. -/
def markedGet (key : String) (k : Answer String → Marked Event α) : Marked Event α :=
  markedRead s key fun a ↦ .mark (fun _ ↦ .got key a) (k a)

/-- The command that waits for an element. -/
def popCommand (timeout : Nat) (keys : List String) : List String :=
  "BLPOP" :: keys ++ [Text.floatText Text.Decimal.compact (ServerHandle.seconds timeout)]

/-- The text of a pair, as a list of the key and the element. -/
def pairText (r : Reply) : Option (List String) := r.pair?.map fun p ↦ [p.1, p.2]

/-- What a wait for an element makes of the reply. -/
def poppedBy (o : Answer Reply) : Answer (List String) :=
  orMiss (answerOf (Reply.orNothing pairText) o)

/-- A wait for an element. -/
def markedPop (timeout : Nat) (keys : List String) (k : Answer (List String) → Marked Event α) :
    Marked Event α :=
  .act s.options fun opts ↦
    if timeout ≠ 0 ∧ Clock.spanLimit ≤ timeout + opts.readLimit then .crash
    else
      markedTransmit s (if timeout = 0 then none else some (timeout + opts.readLimit))
        (popCommand timeout keys) (Peer.send (popCommand timeout keys)) fun o ↦
          .mark (fun _ ↦ .popped keys (poppedBy o)) (k (poppedBy o))

/-- A fill stores what was fetched, whether the store takes it or not, and ends with it. -/
def markedKeep (key : String) (ttl : Nat) (r : Except String String) :
    Marked Event (Answer String) :=
  .mark (fun _ ↦ .fetched key r) <|
    match r with
    | .ok v => markedOrder s (.set key v ttl) fun _ ↦
        .mark (fun _ ↦ .settled key (yielded r)) (.done (yielded r))
    | .error _ => .mark (fun _ ↦ .settled key (yielded r)) (.done (yielded r))

/-- A fill. -/
def markedFill (key : String) (ttl : Nat) (fetch : Marked Event (Except String String)) :
    Marked Event (Answer String) :=
  .mark (fun _ ↦ .began key) (fetch.bind (markedKeep s key ttl))

/-- A call turns to the fills of a key. -/
def markedTurn (key : String) (fill : Marked Event (Answer String))
    (k : Answer String → Marked Event α) : Marked Event α :=
  .mark (fun h ↦ .turned key ((h.guard s.guard).inFlight[key]?) h.nextThread) <|
    .join s.guard key fill fun o ↦ .mark (fun _ ↦ .filled key o) (k o)

/-- A reading that fills. -/
def markedGetOrSet (key : String) (ttl : Nat) (fetch : Marked Event (Except String String))
    (k : Answer String → Marked Event α) : Marked Event α :=
  markedRead s key fun a ↦ .mark (fun _ ↦ .sought key a) <|
    match a with
    | .error .notFound => markedTurn s key (markedFill s key ttl fetch) k
    | a => .mark (fun _ ↦ .held key a) (k a)

/-- A subscription. -/
def markedSubscribe (channel : String) (k : Answer Nat → Marked Event α) : Marked Event α :=
  .act s.isClosed fun
    | true => .mark (fun _ ↦ .answered ["SUBSCRIBE", channel] (some .closed)) (k (.error .closed))
    | false => .pause <| .act (Call.atomically fun h ↦
        let x := h.tiers.server s.server
        let r := x.peer.subscribe channel
        (r.1, h.tiers.setServer s.server { x with peer := r.2 })) fun i ↦
          .mark (fun _ ↦ .answered ["SUBSCRIBE", channel] none) (k (.ok i))

/-- The number of keys that a reply tells, or `-1`. -/
def itemsOf (o : Answer Reply) : Int :=
  match answerOf Reply.int? o with
  | .ok n => n
  | .error _ => -1

/-- The measurements of the tier. -/
def markedStats (k : Snapshot → Marked Event α) : Marked Event α :=
  .act (Call.look fun h ↦ ServerHandle.measure (h.tiers.server s.server)) fun measured ↦
    .act s.options fun opts ↦
      markedTransmit s (some opts.readLimit) ["DBSIZE"] (fun p ↦ (p.items, p)) fun o ↦
        .mark (fun _ ↦ .answered ["DBSIZE"] none) <| .act (Call.look fun h ↦
          (h.guard s.guard).extend (measured.insert "items" (.int (itemsOf o)))) k

/-! ### What follows them -/

variable {γ : Type}

theorem bind_markedReaction (limit deadline : Option Nat) (command : List String)
    (k : Answer Reply → Marked Event α) (reaction : Reaction) (f : α → Marked Event γ) :
    (markedReaction s limit deadline command k reaction).bind f =
      markedReaction s limit deadline command (fun o ↦ (k o).bind f) reaction := by
  unfold markedReaction
  split_ifs
  · rfl
  · cases reaction <;> rfl

theorem bind_markedTransmit (limit : Option Nat) (command : List String)
    (send : Peer → Reaction × Peer) (k : Answer Reply → Marked Event α) (f : α → Marked Event γ) :
    (markedTransmit s limit command send k).bind f =
      markedTransmit s limit command send fun o ↦ (k o).bind f := by
  refine congrArg (Marked.mark _) (congrArg (Marked.act _) (funext fun closed ↦ ?_))
  cases closed with
  | true => rfl
  | false =>
    refine congrArg (Marked.act _) (funext fun deadline ↦ congrArg Marked.pause ?_)
    refine congrArg (Marked.act _) (funext fun reaction ↦ congrArg (Marked.mark _) ?_)
    exact bind_markedReaction s limit deadline command k reaction f

theorem bind_markedOrder (o : Order β) (k : Answer β → Marked Event α) (f : α → Marked Event γ) :
    (markedOrder s o k).bind f = markedOrder s o fun a ↦ (k a).bind f := by
  unfold markedOrder
  cases o.dispatch with
  | inl a => rfl
  | inr d =>
    exact congrArg (Marked.act _) (funext fun opts ↦ bind_markedTransmit s _ _ _ _ f)

theorem bind_markedRead (key : String) (k : Answer String → Marked Event α)
    (f : α → Marked Event γ) :
    (markedRead s key k).bind f = markedRead s key fun a ↦ (k a).bind f := by
  refine congrArg (Marked.act _) (funext fun opts ↦ ?_)
  refine (bind_markedTransmit s _ _ _ _ f).trans (congrArg (markedTransmit s _ _ _) ?_)
  funext o
  unfold markedText
  cases answerOf (Reply.orNothing Reply.text?) o with
  | error e => rfl
  | ok r => cases r <;> rfl

theorem bind_markedGet (key : String) (k : Answer String → Marked Event α)
    (f : α → Marked Event γ) :
    (markedGet s key k).bind f = markedGet s key fun a ↦ (k a).bind f :=
  bind_markedRead s key _ f

theorem bind_markedPop (timeout : Nat) (keys : List String)
    (k : Answer (List String) → Marked Event α) (f : α → Marked Event γ) :
    (markedPop s timeout keys k).bind f = markedPop s timeout keys fun a ↦ (k a).bind f := by
  refine congrArg (Marked.act _) (funext fun opts ↦ ?_)
  by_cases hlong : timeout ≠ 0 ∧ Clock.spanLimit ≤ timeout + opts.readLimit
  · simp only [if_pos hlong]
    rfl
  · simp only [if_neg hlong]
    exact bind_markedTransmit s _ _ _ _ f

theorem bind_markedGetOrSet (key : String) (ttl : Nat)
    (fetch : Marked Event (Except String String)) (k : Answer String → Marked Event α)
    (f : α → Marked Event γ) : (markedGetOrSet s key ttl fetch k).bind f =
      markedGetOrSet s key ttl fetch fun a ↦ (k a).bind f := by
  refine (bind_markedRead s key _ f).trans (congrArg (markedRead s key) (funext fun a ↦ ?_))
  refine congrArg (Marked.mark _) ?_
  cases a with
  | ok v => rfl
  | error e => cases e <;> rfl

theorem bind_markedSubscribe (channel : String) (k : Answer Nat → Marked Event α)
    (f : α → Marked Event γ) :
    (markedSubscribe s channel k).bind f = markedSubscribe s channel fun a ↦ (k a).bind f := by
  refine congrArg (Marked.act _) (funext fun closed ↦ ?_)
  cases closed <;> rfl

theorem bind_markedStats (k : Snapshot → Marked Event α) (f : α → Marked Event γ) :
    (markedStats s k).bind f = markedStats s fun x ↦ (k x).bind f := by
  refine congrArg (Marked.act _) (funext fun measured ↦ ?_)
  exact congrArg (Marked.act _) (funext fun opts ↦ bind_markedTransmit s _ _ _ _ f)

/-! ### Without their marks they are the operations -/

theorem call_markedExpire (command : List String) (limit : Nat)
    (k : Answer Reply → Marked Event α) :
    (markedExpire s command limit k).call = (s.expire limit).bind fun o ↦ (k o).call := by
  change _ = (Call.bind _ _).bind _
  rw [Call.bind_assoc]
  rfl

theorem call_markedTransmit (limit : Option Nat) (command : List String)
    (send : Peer → Reaction × Peer) (k : Answer Reply → Marked Event α) :
    (markedTransmit s limit command send k).call =
      (s.transmit limit send).bind fun o ↦ (k o).call := by
  change Call.bind _ _ = (Call.bind _ _).bind _
  rw [Call.bind_assoc]
  refine congrArg (Call.bind _) (funext fun closed ↦ ?_)
  cases closed with
  | true => rfl
  | false =>
    change Call.bind _ _ = (Call.bind _ _).bind _
    rw [Call.bind_assoc]
    refine congrArg (Call.bind _) (funext fun deadline ↦ ?_)
    refine congrArg Call.pause (.trans ?_ (Call.bind_assoc (s.exchange send) _ _).symm)
    refine congrArg (Call.bind _) (funext fun reaction ↦ ?_)
    change (markedReaction s limit deadline command k reaction).call = _
    by_cases hzero : limit = some 0
    · rw [markedReaction.eq_def, if_pos hzero, hzero]
      exact call_markedExpire s command 0 k
    · rw [markedReaction.eq_def, if_neg hzero]
      have hexpire := congrArg (Call.sleep deadline) (call_markedExpire s command (limit.getD 0) k)
      match limit, reaction with
      | some 0, _ => exact absurd rfl hzero
      | none, .reply r => rfl
      | none, .close => rfl
      | none, .hang => exact hexpire
      | some (n + 1), .reply r => rfl
      | some (n + 1), .close => rfl
      | some (n + 1), .hang => exact hexpire

/-- A command is sent, and its reply is read. -/
theorem bind_query (limit : Option Nat) (command : List String) (read : Reply → Option β)
    (f : Answer β → Call α) : (s.query limit command read).bind f =
      (s.transmit limit (Peer.send command)).bind fun o ↦ f (answerOf read o) := by
  change (Call.bind _ _).bind _ = _
  rw [Call.bind_assoc]
  refine congrArg (Call.bind _) (funext fun o ↦ ?_)
  cases o <;> rfl

theorem call_markedOrder (o : Order β) (k : Answer β → Marked Event α) :
    (markedOrder s o k).call = (o.call s).bind fun a ↦ (k a).call := by
  -- a single command, whose limit is one of the options
  have hsingle : ∀ {γ : Type} (limit : ServerOptions → Nat) (command : List String)
      (read : Reply → Option γ) (f : Answer γ → Answer β),
      (Marked.act s.options fun opts ↦ markedTransmit s (some (limit opts)) command
        (Peer.send command) fun r ↦ .mark (fun _ ↦ .answered command (fault? (f (answerOf read r))))
          (k (f (answerOf read r)))).call =
        (s.options.bind fun opts ↦ s.query (some (limit opts)) command read).bind
          fun a ↦ (k (f a)).call := by
    intro γ limit command read f
    rw [Call.bind_assoc]
    refine congrArg (Call.bind _) (funext fun opts ↦ ?_)
    rw [bind_query, call_markedTransmit]
    rfl
  cases o with
  | contains key =>
    refine (hsingle ServerOptions.readLimit ["EXISTS", key] Reply.int?
      (Except.map fun n ↦ decide (0 < n))).trans (.trans ?_ (Call.bind_assoc _ _ _).symm)
    refine congrArg (Call.bind _) (funext fun a ↦ ?_)
    cases a <;> rfl
  | rpush key values =>
    cases values with
    | nil => rfl
    | cons value rest => exact hsingle ServerOptions.writeLimit _ _ id
  | sadd key members =>
    cases members with
    | nil => rfl
    | cons member rest => exact hsingle ServerOptions.writeLimit _ _ id
  | publishMany channel payloads =>
    cases payloads with
    | nil => rfl
    | cons payload rest =>
      refine .trans ?_ (Call.bind_assoc s.options _ _).symm
      refine congrArg (Call.bind _) (funext fun opts ↦ ?_)
      refine (call_markedTransmit s _ _ _ _).trans (.trans ?_ (Call.bind_assoc _ _ _).symm)
      refine congrArg (Call.bind _) (funext fun r ↦ ?_)
      cases r <;> rfl
  | _ => exact hsingle _ _ _ id

/-- The reading with which a call that reads goes on. -/
theorem call_markedRead (key : String) (k : Answer String → Marked Event α) :
    (markedRead s key k).call = (s.get key).bind fun a ↦ (k a).call := by
  change Call.bind _ _ = (Call.bind (Call.bind _ _) _).bind _
  rw [Call.bind_assoc, Call.bind_assoc]
  refine congrArg (Call.bind _) (funext fun opts ↦ ?_)
  rw [bind_query]
  refine (call_markedTransmit s _ _ _ _).trans (congrArg (Call.bind _) (funext fun o ↦ ?_))
  unfold markedText
  cases answerOf (Reply.orNothing Reply.text?) o with
  | error f => rfl
  | ok r => cases r <;> rfl

theorem call_markedGet (key : String) (k : Answer String → Marked Event α) :
    (markedGet s key k).call = (s.get key).bind fun a ↦ (k a).call :=
  call_markedRead s key _

theorem poppedBy_eq (o : Answer Reply) : poppedBy o =
    match answerOf (Reply.orNothing Reply.pair?) o with
    | .ok (some p) => .ok [p.1, p.2]
    | .ok none => .error .notFound
    | .error f => .error f := by
  cases o with
  | error f => rfl
  | ok r =>
    simp only [poppedBy, answerOf, Reply.answer]
    cases r.error? with
    | some message => rfl
    | none =>
      cases r with
      | nil => rfl
      | array items =>
        simp only [Reply.orNothing, pairText]
        cases (Reply.array items).pair? <;> rfl
      | _ => rfl

theorem call_markedPop (timeout : Nat) (keys : List String)
    (k : Answer (List String) → Marked Event α) :
    (markedPop s timeout keys k).call = (s.blpop timeout keys).bind fun a ↦ (k a).call := by
  change Call.bind _ _ = (Call.bind _ _).bind _
  rw [Call.bind_assoc]
  refine congrArg (Call.bind _) (funext fun opts ↦ ?_)
  by_cases hlong : timeout ≠ 0 ∧ Clock.spanLimit ≤ timeout + opts.readLimit
  · simp only [if_pos hlong]
    rfl
  · simp only [if_neg hlong]
    change (markedTransmit s _ _ _ _).call = (Call.bind _ _).bind _
    rw [call_markedTransmit, Call.bind_assoc, bind_query]
    refine congrArg (Call.bind _) (funext fun o ↦ ?_)
    change (k (poppedBy o)).call = _
    rw [poppedBy_eq]
    cases answerOf (Reply.orNothing Reply.pair?) o with
    | error f => rfl
    | ok r => cases r <;> rfl

theorem call_markedFill (key : String) (ttl : Nat)
    (fetch : Marked Event (Except String String)) :
    (markedFill s key ttl fetch).call = s.fill key ttl fetch.call := by
  change (fetch.bind _).call = Call.bind (Call.bind fetch.call _) _
  rw [Marked.call_bind, Call.bind_assoc]
  refine congrArg (Call.bind _) (funext fun r ↦ ?_)
  cases r with
  | error source => rfl
  | ok v =>
    change (markedOrder s (.set key v ttl) _).call = (Call.bind _ _).bind _
    rw [call_markedOrder, Call.bind_assoc]
    rfl

theorem call_markedGetOrSet (key : String) (ttl : Nat)
    (fetch : Marked Event (Except String String)) (k : Answer String → Marked Event α) :
    (markedGetOrSet s key ttl fetch k).call =
      (s.tier.getOrSet key ttl fetch.call).bind fun a ↦ (k a).call := by
  refine (call_markedRead s key _).trans ?_
  change _ = (Call.bind _ _).bind _
  rw [Call.bind_assoc]
  refine congrArg (Call.bind _) (funext fun a ↦ ?_)
  cases a with
  | ok v => rfl
  | error f =>
    cases f with
    | notFound =>
      change Call.join _ _ (markedFill s key ttl fetch).call _ = _
      rw [call_markedFill]
      rfl
    | _ => rfl

theorem call_markedSubscribe (channel : String) (k : Answer Nat → Marked Event α) :
    (markedSubscribe s channel k).call = (s.subscribe channel).bind fun a ↦ (k a).call := by
  change Call.bind _ _ = (Call.bind _ _).bind _
  rw [Call.bind_assoc]
  refine congrArg (Call.bind _) (funext fun closed ↦ ?_)
  cases closed <;> rfl

theorem call_markedStats (k : Snapshot → Marked Event α) :
    (markedStats s k).call = s.tier.stats.bind fun x ↦ (k x).call := by
  change Call.bind _ _ = (Call.bind _ _).bind _
  rw [Call.bind_assoc]
  refine congrArg (Call.bind _) (funext fun measured ↦ ?_)
  change Call.bind _ _ = (Call.bind (Call.bind _ _) _).bind _
  rw [Call.bind_assoc, Call.bind_assoc]
  refine congrArg (Call.bind _) (funext fun opts ↦ ?_)
  change (markedTransmit s _ _ _ _).call = (Call.bind (Call.bind _ _) _).bind _
  rw [call_markedTransmit, Call.bind_assoc, Call.bind_assoc]
  refine congrArg (Call.bind _) (funext fun o ↦ ?_)
  cases o with
  | error f => rfl
  | ok r =>
    simp only [itemsOf, answerOf]
    cases r.answer Reply.int? <;> rfl

/-- The calls that leave marks are the operations of a connected store. -/
structure Links : Prop where
  get : ∀ key, (s.get key).Underlies (markedGet s key)
  blpop : ∀ timeout keys, (s.blpop timeout keys).Underlies (markedPop s timeout keys)
  order : ∀ {β : Type} (o : Order β), (o.call s).Underlies (markedOrder s o)
  getOrSet : ∀ key ttl (fetch : Marked Event (Except String String)),
    (s.tier.getOrSet key ttl fetch.call).Underlies (markedGetOrSet s key ttl fetch)
  subscribe : ∀ channel, (s.subscribe channel).Underlies (markedSubscribe s channel)
  stats : s.tier.stats.Underlies (markedStats s)

theorem links : Links s where
  get key _ := call_markedGet s key
  blpop timeout keys _ := call_markedPop s timeout keys
  order o _ := call_markedOrder s o
  getOrSet key ttl fetch _ := call_markedGetOrSet s key ttl fetch
  subscribe channel _ := call_markedSubscribe s channel
  stats := call_markedStats s

end Operations

end Remote

end TwoTier
