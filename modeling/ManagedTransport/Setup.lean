import ManagedTransport.Config.Client
import ManagedTransport.Config.Server
import ManagedTransport.Status.Sink

/-!
# Reporting the setup

The version is agreed on first and told at once; then the rest of the
environment is checked for the role.  Every error is told to tor on the way
out, and an error in telling changes nothing.
-/

namespace ManagedTransport

/-- The two roles of a managed transport. -/
inductive Role where
  | client
  | server
deriving DecidableEq

namespace Role

/-- Checks all that a role needs, beyond the version. -/
def check (role : Role) (env : Environment) (supported : List String)
    (opened : String → Except Fault Contents) (system : Resolver) : Except ConfigError Unit :=
  match role with
  | client => do
    let _ ← ClientConfig.ofEnvironment env supported
    return ()
  | server => do
    let config ← ServerConfig.ofEnvironment env supported opened system
    let _ ← config.target
    return ()

/-- Checks the environment for a role and tells tor what comes of it. -/
def report (role : Role) (env : Environment) (supported : List String)
    (opened : String → Except Fault Contents) (system : Resolver) (sink : Sink) :
    Except ConfigError Unit × Sink :=
  match env.version with
  | .error e => (.error e, sink.tell (.ofConfigError e))
  | .ok v =>
    let sink := sink.tell (.version v)
    match role.check env supported opened system with
    | .error e => (.error e, sink.tell (.ofConfigError e))
    | .ok () => (.ok (), sink)

end Role

end ManagedTransport
