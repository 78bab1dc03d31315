import ManagedTransport.Error
import ManagedTransport.Text.Split

/-!
# The environment

tor configures a managed transport by environment variables.  One that is set
to nothing counts as unset.  The first thing either role looks at is the list
of versions that tor offers; the only one spoken here is version 1.
-/

namespace ManagedTransport

open Text

/-- The variables that are looked at. -/
inductive Variable where
  | transportVersion
  | clientTransports
  | serverBindAddr
  | serverTransports
  | orPort
  | extendedServerPort
  | authCookieFile
deriving DecidableEq

/-- The name of a variable. -/
def Variable.name : Variable → String
  | transportVersion => "TOR_PT_MANAGED_TRANSPORT_VER"
  | clientTransports => "TOR_PT_CLIENT_TRANSPORTS"
  | serverBindAddr => "TOR_PT_SERVER_BINDADDR"
  | serverTransports => "TOR_PT_SERVER_TRANSPORTS"
  | orPort => "TOR_PT_ORPORT"
  | extendedServerPort => "TOR_PT_EXTENDED_SERVER_PORT"
  | authCookieFile => "TOR_PT_AUTH_COOKIE_FILE"

/-- All the variables. -/
def Variable.all : List Variable :=
  [transportVersion, clientTransports, serverBindAddr, serverTransports, orPort,
    extendedServerPort, authCookieFile]

/-- What each variable is set to, if it is set. -/
abbrev Environment := Variable → Option String

namespace Environment

/-- The value of a variable; to be empty is to be unset. -/
def value? (env : Environment) (v : Variable) : Option String := (env v).filter (· ≠ "")

/-- The value of a variable that has to be set. -/
def required (env : Environment) (v : Variable) : Except ConfigError String :=
  match env.value? v with
  | some value => .ok value
  | none => .error (.missingVariable v.name)

/-- The version that is spoken. -/
def spokenVersion : String := "1"

/-- The version agreed on: the one spoken, if tor offers it. -/
def version (env : Environment) : Except ConfigError String := do
  let offered ← env.required .transportVersion
  if spokenVersion ∈ entries offered then return spokenVersion
  else throw (.unsupportedVersion offered)

end Environment

/-- Which names a list of transports enables: all, or those in it. -/
def enables (list name : String) : Bool := list = "*" || (entries list).contains name

end ManagedTransport
