import ManagedTransport.Environment

/-!
# Client configuration

A client is asked for transports by name, or for all there are.
-/

namespace ManagedTransport

open Text

/-- What a client is to do. -/
structure ClientConfig where
  version : String
  /-- The transports asked for and supported, in the order asked for. -/
  methods : List String
deriving DecidableEq

namespace ClientConfig

/-- The transports that a request selects from the supported ones. -/
def select (requested : String) (supported : List String) : List String :=
  if requested = "*" then supported else (entries requested).filter (supported.contains ·)

/-- The client configuration that an environment gives. -/
def ofEnvironment (env : Environment) (supported : List String) :
    Except ConfigError ClientConfig := do
  let version ← env.version
  let requested ← env.required .clientTransports
  return ⟨version, select requested supported⟩

end ClientConfig

end ManagedTransport
