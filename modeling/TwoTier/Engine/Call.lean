import TwoTier.Engine.Heap

/-!
Calls in progress.

A call reads and writes the shared heap, and now and then it has to wait: for a moment, for an
element of a list, for the outcome of a fill, for a lock, or for a receive loop to end. `Call α` is
the tree of what a call will do: its nodes are reads, writes and waits, and the subtrees are what it
does next. `Call.exec` runs a call up to the first wait that is not over. Nothing else runs in
between, so that everything between two waits is one step.

`Call.crash` is the end of a call that cannot go on, because a deadline lies beyond the clock. It
has no continuation, so that no caller can take it for an answer; only `Call.attempt` goes on after
it.
-/

set_option autoImplicit false
set_option relaxedAutoImplicit false

namespace TwoTier

/-- A call in progress that ends with an `α`. -/
inductive Call : Type → Type 1 where
  /-- The call has ended. -/
  | done {α : Type} (a : α) : Call α
  /-- The call cannot go on. -/
  | crash {α : Type} : Call α
  /-- Looks at the heap. -/
  | read {α : Type} (k : Heap → Call α) : Call α
  /-- Puts the tiers into another state. -/
  | write {α : Type} (tiers : Tiers) (k : Call α) : Call α
  /-- Lets others run. -/
  | pause {α : Type} (k : Call α) : Call α
  /-- Waits for a moment, or for ever. -/
  | sleep {α : Type} (wake : Option Nat) (k : Call α) : Call α
  /-- Takes an element from the first non-empty list of a store among some keys, and waits for one
  where there is none: until the deadline, or for ever. `seen` is the number of pushes that the call
  has taken notice of. -/
  | pop {α : Type} (store : Nat) (keys : List String) (deadline : Option Nat) (seen : Option Nat)
      (k : Answer (Option (String × String)) → Call α) : Call α
  /-- Waits for the fill of a key that a guard has in flight, or starts one, which takes its first
  step later. -/
  | join {α : Type} (guard : Nat) (key : String) (fill : Call (Answer String))
      (k : Answer String → Call α) : Call α
  /-- Waits for the outcome of a fill. -/
  | await {α : Type} (fill : Nat) (k : Answer String → Call α) : Call α
  /-- Waits in line for a lock. -/
  | acquire {α : Type} (lock : Lock) (k : Call α) : Call α
  /-- Gives a lock back. -/
  | release {α : Type} (lock : Lock) (k : Call α) : Call α
  /-- Waits for a receive loop to end, until a deadline or for ever. The continuation is told
  whether it has ended. -/
  | loopEnd {α : Type} (loop : Nat) (deadline : Option Nat) (k : Bool → Call α) : Call α

/-- How a call has ended. -/
inductive Conclusion (α : Type) where
  /-- With an answer. -/
  | answer (a : α)
  /-- It could not go on. -/
  | crash
  deriving DecidableEq, Repr

/-- A fill: a call of its own, whose outcome several callers wait for. -/
structure Fill where
  /-- The number of its thread. -/
  id : Nat
  /-- The guard that has it in flight. -/
  guard : Nat
  /-- The key that it computes. -/
  key : String
  /-- What it has yet to do. -/
  code : Call (Answer String)
  /-- When it last began to wait, in the order of the scheduler. -/
  since : Nat

/-- The result of running a call up to a wait. -/
structure Progress (α : Type) where
  /-- The heap afterwards. -/
  heap : Heap
  /-- The fills started meanwhile. -/
  fills : List Fill
  /-- What the call has yet to do. -/
  rest : Call α

namespace Call

variable {α β : Type}

/-- A call followed by one that depends on its result. -/
protected def bind {α : Type} : Call α → (α → Call β) → Call β
  | done a, f => f a
  | crash, _ => crash
  | read k, f => read fun h ↦ (k h).bind f
  | write t k, f => write t (k.bind f)
  | pause k, f => pause (k.bind f)
  | sleep wake k, f => sleep wake (k.bind f)
  | pop s keys deadline seen k, f => pop s keys deadline seen fun a ↦ (k a).bind f
  | join g key fill k, f => join g key fill fun a ↦ (k a).bind f
  | await i k, f => await i fun a ↦ (k a).bind f
  | acquire m k, f => acquire m (k.bind f)
  | release m k, f => release m (k.bind f)
  | loopEnd r deadline k, f => loopEnd r deadline fun b ↦ (k b).bind f

instance : Monad Call where
  pure := done
  bind := Call.bind

/-- Whether a wait is over at a moment; a wait without deadline never is. -/
def due (deadline : Option Nat) (now : Nat) : Bool :=
  match deadline with
  | some t => t ≤ now
  | none => false

/-- Runs the call of thread `me` up to the first wait that is not over. -/
def exec (me : Nat) {α : Type} : Call α → Heap → List Fill → Progress α
  | done a, h, fills => ⟨h, fills, done a⟩
  | crash, h, fills => ⟨h, fills, crash⟩
  | read k, h, fills => (k h).exec me h fills
  | write t k, h, fills => k.exec me { h with tiers := t } fills
  | pause k, h, fills => ⟨h, fills, pause k⟩
  | sleep wake k, h, fills =>
    if due wake h.now then k.exec me h fills else ⟨h, fills, sleep wake k⟩
  | pop s keys deadline seen k, h, fills =>
    let store := h.tiers.store s
    if seen = some store.pushes then
      if due deadline h.now then (k (.ok none)).exec me h fills
      else ⟨h, fills, pop s keys deadline seen k⟩
    else
      let tried := store.tryPop h.now keys
      let h' := { h with tiers := h.tiers.setStore s tried.2 }
      match tried.1 with
      | .ok (some x) => (k (.ok (some x))).exec me h' fills
      | .fault f => (k (.error f)).exec me h' fills
      | _ =>
        if due deadline h.now then (k (.ok none)).exec me h' fills
        else ⟨h', fills, pop s keys deadline (some store.pushes) k⟩
  | join g key fill k, h, fills =>
    match (h.guard g).inFlight[key]? with
    | some i => ⟨h.setGuard g (h.guard g).join, fills, await i k⟩
    | none =>
      let i := h.nextThread
      ⟨{ h.setGuard g ((h.guard g).start key i) with nextThread := i + 1 },
        fills ++ [⟨i, g, key, pause fill, 0⟩], await i k⟩
  | await i k, h, fills => ⟨h, fills, await i k⟩
  | acquire m k, h, fills =>
    let h' := h.enqueue m me
    if (h'.waiting m).head? = some me then k.exec me h' fills else ⟨h', fills, acquire m k⟩
  | release m k, h, fills => k.exec me (h.leave m me) fills
  | loopEnd r deadline k, h, fills =>
    if (h.tiers.loop r).ended then (k true).exec me h fills
    else if due deadline h.now then (k false).exec me h fills
    else ⟨h, fills, loopEnd r deadline k⟩

/-- How a call has ended, if it has. -/
def conclusion? : Call α → Option (Conclusion α)
  | done a => some (.answer a)
  | crash => some .crash
  | _ => none

/-- The moment for which a call waits at the latest. -/
def wake? : Call α → Option Nat
  | sleep wake _ => wake
  | pop _ _ deadline _ _ => deadline
  | loopEnd _ deadline _ => deadline
  | _ => none

/-! ### Small calls -/

/-- Reads the heap and changes the tiers in one step. -/
def atomically (f : Heap → α × Tiers) : Call α :=
  read fun h ↦ let r := f h; write r.2 (done r.1)

/-- Changes the tiers. -/
def modify (f : Tiers → Tiers) : Call Unit := atomically fun h ↦ ((), f h.tiers)

/-- What the heap shows. -/
def look (f : Heap → α) : Call α := read fun h ↦ done (f h)

/-- Waits for a span of time. -/
def delay (span : Nat) : Call Unit :=
  if span = 0 then done () else read fun h ↦ sleep (some (Clock.afterDelay h.now span)) (done ())

/-- Makes one thing and answers its number. -/
def allocate (make : Nat → Tiers → Tiers) : Call Nat :=
  atomically fun h ↦
    (h.tiers.next, make h.tiers.next { h.tiers with next := h.tiers.next + 1 })

/-- Runs a call to its end, also where it cannot go on; there is no result then. Such a call holds
no lock, so that nothing is left behind. -/
def attempt {α : Type} : Call α → Call (Option α)
  | done a => done (some a)
  | crash => done none
  | read k => read fun h ↦ (k h).attempt
  | write t k => write t k.attempt
  | pause k => pause k.attempt
  | sleep wake k => sleep wake k.attempt
  | pop s keys deadline seen k => pop s keys deadline seen fun a ↦ (k a).attempt
  | join g key fill k => join g key fill fun a ↦ (k a).attempt
  | await i k => await i fun a ↦ (k a).attempt
  | acquire m k => acquire m k.attempt
  | release m k => release m k.attempt
  | loopEnd r deadline k => loopEnd r deadline fun b ↦ (k b).attempt

/-- Runs a call a number of times and answers the last result. -/
def times (c : Call α) : Nat → Call α
  | 0 => c
  | 1 => c
  | n + 1 => c.bind fun _ ↦ times c n

end Call

/-- The outcome of a fill that has ended like this. One that could not go on failed. -/
def Conclusion.outcome : Conclusion (Answer String) → Answer String
  | answer o => o
  | crash => .error .fillFailed

end TwoTier
