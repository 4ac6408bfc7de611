import TwoTier.Time

/-!
A text held by a tier, with its expiry and the marks that eviction looks at.
-/

set_option autoImplicit false
set_option relaxedAutoImplicit false

namespace TwoTier

/-- A text held by a tier. -/
structure Entry where
  /-- The text. -/
  value : String
  /-- When it stops being observable. -/
  expiry : Expiry
  /-- How often it was read since it was first stored, up to the greatest 64-bit number. -/
  frequency : Nat
  /-- When it was last read or written. -/
  lastAccess : Nat
  deriving DecidableEq, Repr, Inhabited

namespace Entry

/-- The greatest frequency. -/
def maxFrequency : Nat := 18446744073709551615

/-- A text stored now and kept for `ttl`; there is none where the deadline lies beyond the
clock. -/
def create? (now : Nat) (value : String) (ttl : Nat) : Option Entry :=
  (Expiry.after now ttl).map fun e ↦ ⟨value, e, 0, now⟩

/-- The entry after a read. -/
def touch (e : Entry) (now : Nat) : Entry :=
  { e with frequency := min (e.frequency + 1) maxFrequency, lastAccess := now }

/-- Whether the entry is observable at a moment. -/
def live (e : Entry) (now : Nat) : Bool := e.expiry.live now

/-- Whether the entry has expired at a moment. -/
def expired (e : Entry) (now : Nat) : Bool := e.expiry.expired now

@[simp] theorem expiry_touch (e : Entry) (now : Nat) : (e.touch now).expiry = e.expiry := rfl

@[simp] theorem value_touch (e : Entry) (now : Nat) : (e.touch now).value = e.value := rfl

end Entry

end TwoTier
