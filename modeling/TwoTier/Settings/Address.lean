import TwoTier.Settings.Basic
import TwoTier.Text.Blank
import TwoTier.Text.Numeral
import TwoTier.Text.Percent

/-!
The address of the shared store, its problems, and its copy without the password.

The address is `scheme://[:password@]host:number/db` with the password percent-coded, so that no
character of a password can end its part of the address.
-/

set_option autoImplicit false
set_option relaxedAutoImplicit false

namespace TwoTier.ServerOptions

/-- What stands in the place of a password that must not be shown. -/
def mask : String := "******"

/-- A reason for which options are not accepted. -/
inductive Problem where
  /-- The host is blank. -/
  | noHost
  /-- No host listens under the number. -/
  | badNumber (n : Nat)
  /-- The pool holds no connection. -/
  | emptyPool
  deriving DecidableEq, Repr

/-- The wording of a problem. -/
def Problem.message : Problem → String
  | noHost => "redis host cannot be empty"
  | badNumber n => "redis port " ++ toString n ++ " must be between 1 and 65535"
  | emptyPool => "redis pool size must be greater than 0"

/-- Every problem of the options, in a fixed order. -/
def problems (o : ServerOptions) : List Problem :=
  (if Text.Blank.isBlank o.host then [.noHost] else []) ++
    (if o.portNumber = 0 ∨ 65535 < o.portNumber then [.badNumber o.portNumber] else []) ++
    (if o.poolSize = 0 then [.emptyPool] else [])

/-- The password, or the mask in its place. -/
def shownPassword (o : ServerOptions) : String := if o.password = "" then "" else mask

/-- The options with the mask in the place of the password. -/
def sanitized (o : ServerOptions) : ServerOptions := { o with password := o.shownPassword }

/-- What stands before the host: the scheme, and the password where there is one. -/
def credentials (o : ServerOptions) : String :=
  if o.password = "" then "" else ":" ++ Text.Percent.encode o.password ++ "@"

/-- What stands after the credentials: the host, its number and the database. -/
def location (o : ServerOptions) : String :=
  o.host ++ ":" ++ toString o.portNumber ++ "/" ++ Text.Numeral.decimal o.db

/-- The address. -/
def url (o : ServerOptions) : String :=
  (if o.tls then "rediss" else "redis") ++ "://" ++ o.credentials ++ o.location

end TwoTier.ServerOptions
