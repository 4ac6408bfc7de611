/-!
Moments, spans and expiry.

A moment is the number of nanoseconds since the clock was started, a span is a number of
nanoseconds; both are natural numbers. A value kept for a span expires when its deadline is reached
(`Expiry.live_due_iff`); the zero span means that it never does. A deadline that the clock cannot
represent is no deadline: `Expiry.after` has no answer then, and the call that asked for it cannot
go on.
-/

set_option autoImplicit false
set_option relaxedAutoImplicit false

namespace TwoTier

namespace Clock

/-- The span of `n` microseconds. -/
def micros (n : Nat) : Nat := n * 1000

/-- The span of `n` milliseconds. -/
def millis (n : Nat) : Nat := n * 1000000

/-- The span of `n` seconds. -/
def secs (n : Nat) : Nat := n * 1000000000

/-- The whole milliseconds in a span. -/
def wholeMillis (span : Nat) : Nat := span / 1000000

/-- The first moment that the clock cannot represent: its seconds are a signed 64-bit number, below
the 63rd power of two. -/
def limit : Nat := secs 9223372036854775808

/-- The longest delay: thirty years of 365 days. Who asks for more is woken up after that. -/
def longestDelay : Nat := secs (86400 * 365 * 30)

/-- The moment at which a timer set for `t` rings. Timers ring at whole milliseconds, never
early. -/
def ring (t : Nat) : Nat := (t + 999999) / 1000000 * 1000000

/-- The moment at which a delay by `span`, begun at `now`, is over. -/
def afterDelay (now span : Nat) : Nat := ring (now + min span longestDelay)

/-- The moment at which what was begun at `now` has taken longer than `span`. There is none where it
lies beyond the clock: such a wait is never given up. -/
def deadline (now span : Nat) : Option Nat :=
  if now + span < limit then some (ring (now + span)) else none

theorem le_ring (t : Nat) : t ≤ ring t := by
  unfold ring
  omega

theorem le_afterDelay (now span : Nat) : now ≤ afterDelay now span :=
  Nat.le_trans (Nat.le_add_right _ _) (le_ring _)

/-- What is waited for with a limit is waited for at least that long. -/
theorem le_of_deadline {now span t : Nat} (h : deadline now span = some t) : now + span ≤ t := by
  unfold deadline at h
  split at h
  · obtain rfl := Option.some.inj h
    exact le_ring _
  · exact absurd h (by simp)

end Clock

/-- When a value stops being observable. -/
inductive Expiry where
  /-- It stays observable for ever. -/
  | never
  /-- It is observable before the moment `t` only. -/
  | due (t : Nat)
  deriving DecidableEq, Repr, Inhabited

namespace Expiry

/-- Whether a value that expires like this is observable at a moment. -/
def live (e : Expiry) (now : Nat) : Bool :=
  match e with
  | never => true
  | due t => now < t

/-- Whether a value that expires like this is gone at a moment. -/
def expired (e : Expiry) (now : Nat) : Bool := !e.live now

/-- The expiry of a value stored now and kept for `ttl`, where the zero span keeps it for ever.
There is none where the deadline lies beyond the clock. -/
def after (now ttl : Nat) : Option Expiry :=
  if ttl = 0 then some never
  else if now + ttl < Clock.limit then some (due (now + ttl))
  else none

/-- The time left before expiry, where there is a deadline. -/
def remaining (e : Expiry) (now : Nat) : Option Nat :=
  match e with
  | never => none
  | due t => some (t - now)

@[simp] theorem live_never (now : Nat) : never.live now = true := rfl

@[simp] theorem live_due_iff (t now : Nat) : (due t).live now = true ↔ now < t := by
  simp [live]

/-- What has expired stays expired. -/
theorem expired_mono {e : Expiry} {s t : Nat} (hst : s ≤ t) (h : e.expired s = true) :
    e.expired t = true := by
  cases e with
  | never => simp [expired] at h
  | due u =>
    simp only [expired, live, Bool.not_eq_true', decide_eq_false_iff_not] at h ⊢
    omega

/-- A value stored with a ttl that yields a deadline is observable exactly while less than the ttl
has passed. -/
theorem live_after_iff {now t ttl : Nat} {e : Expiry} (h : after now ttl = some e) :
    e.live t = true ↔ ttl = 0 ∨ t < now + ttl := by
  unfold after at h
  by_cases h0 : ttl = 0
  · simp only [h0, if_true, Option.some.injEq] at h
    subst h
    simp [h0]
  · simp only [h0, if_false] at h
    split at h
    · obtain rfl := Option.some.inj h
      simp [h0]
    · exact absurd h (by simp)

end Expiry

end TwoTier
