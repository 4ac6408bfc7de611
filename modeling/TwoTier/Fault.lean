import TwoTier.Text.Elapsed

/-!
The causes for which a cache call fails, and their wording.

A miss is a cause of its own (`Fault.notFound`), so that a caller can tell it from an outage. A
call may also come to no answer at all, because a deadline lies beyond the clock; `Outcome` is the
result of an operation that may end so.
-/

set_option autoImplicit false
set_option relaxedAutoImplicit false

namespace TwoTier

/-- Why a cache call failed. -/
inductive Fault where
  /-- The key holds no value. -/
  | notFound
  /-- The tier does not offer the operation. -/
  | unsupported (operation tier : String)
  /-- The shared store, or the way to it, reported an error. -/
  | remote (source : String)
  /-- The shared store did not answer in time. -/
  | timeout (after : Nat)
  /-- The caller's own fetch failed. -/
  | fetchFailed (source : String)
  /-- The cache has been closed. -/
  | closed
  deriving DecidableEq, Repr, Inhabited

namespace Fault

/-- The wording of a cause. -/
def message : Fault → String
  | notFound => "cache miss"
  | unsupported operation tier => operation ++ " is not supported by the " ++ tier ++ " tier"
  | remote source => "remote store error: " ++ source
  | timeout after => "remote store call timed out after " ++ Text.Elapsed.render after
  | fetchFailed source => source
  | closed => "cache is closed"

/-- Whether the cause is a miss. -/
def isNotFound : Fault → Bool
  | notFound => true
  | _ => false

/-- The error that a cause passes on, where it passes one on. -/
def source? : Fault → Option String
  | remote source => some source
  | fetchFailed source => some source
  | _ => none

/-- A value of another kind lives under the key. -/
def wrongKind (key : String) : Fault :=
  remote ("WRONGTYPE operation against key " ++ key ++ " holding the wrong kind of value")

/-- A text to be counted up is not the decimal of a 64-bit integer below the largest one. -/
def notAnInteger : Fault := remote "value is not an integer or out of range"

/-- The connection to the store is down. -/
def refused : Fault := remote "connection refused"

/-- A subscriber fell behind, and lost messages. -/
def lagged (missed : Nat) : Fault :=
  remote ("subscriber lagged, " ++ toString missed ++ " messages dropped")

/-- A fill ended without an outcome of its own. -/
def fillFailed : Fault := fetchFailed "fill task failed"

end Fault

/-- The answer of a cache call. -/
abbrev Answer (α : Type) := Except Fault α

/-- How an operation on one tier ends. -/
inductive Outcome (α : Type) where
  /-- It answers. -/
  | ok (a : α)
  /-- It fails. -/
  | fault (f : Fault)
  /-- Its deadline lies beyond the clock: the call that ran it does not go on. -/
  | overflow
  deriving DecidableEq, Repr, Inhabited

end TwoTier
