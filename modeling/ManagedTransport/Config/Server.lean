import ManagedTransport.Address.Printer
import ManagedTransport.Address.Resolve
import ManagedTransport.Cookie
import ManagedTransport.Environment

/-!
# Server configuration

A server is told where its transports are to listen, which of them are
enabled, and where the relay is: its plain port, and an extended port if it has
one, which needs an auth cookie.  Everything is checked in a fixed order, and
every bind entry is checked whether its transport is enabled or not.  Addresses
are resolved as the system resolves them.
-/

namespace ManagedTransport

open Text

/-- A transport and where it listens. -/
structure Bind where
  method : String
  addr : Address
deriving DecidableEq

/-- Where connections to the relay go. -/
inductive Target where
  | direct (addr : Address)
  | extended (addr : Address) (cookie : Cookie)
deriving DecidableEq

/-- The address that is dialled. -/
def Target.addr : Target → Address
  | direct addr => addr
  | extended addr _ => addr

/-- What a server is to do. -/
structure ServerConfig where
  version : String
  binds : List Bind
  orPort : Address
  extendedPort : Option Address
  cookie : Option Cookie
deriving DecidableEq

namespace Bind

/-- What a bind entry without a dash lacks. -/
def noDash : String := "doesn't contain \"-\""

/-- The bind entry that a text writes: a name, a dash, and an address. -/
def parse (system : Resolver) (entry : String) : Except ConfigError Bind :=
  match cutFirst? '-' entry.toList with
  | none => .error (.badBindEntry entry noDash)
  | some (method, addr) =>
    match system.resolveBindChars addr with
    | .ok addr => .ok ⟨String.ofList method, addr⟩
    | .error e => .error (.badBindEntry entry e.message)

end Bind

namespace ServerConfig

/-- The address that a variable is set to. -/
def addressOf (system : Resolver) (v : Variable) (value : String) : Except ConfigError Address :=
  match system.resolve value with
  | .ok addr => .ok addr
  | .error e => .error (.unresolved v.name value e.message)

/-- The bind entries of enabled and supported transports.  All entries are
checked before it is asked which transports are enabled. -/
def bindsOf (system : Resolver) (env : Environment) (supported : List String) :
    Except ConfigError (List Bind) := do
  let list ← env.required .serverBindAddr
  let binds ← (entries list).mapM (Bind.parse system)
  let enabled ← env.required .serverTransports
  return binds.filter fun b => enables enabled b.method && supported.contains b.method

/-- The extended port, if there is one. -/
def extendedPortOf (system : Resolver) (env : Environment) :
    Except ConfigError (Option Address) :=
  match env.value? .extendedServerPort with
  | none => .ok none
  | some value => (addressOf system .extendedServerPort value).map some

/-- The cookie, if a file is named. -/
def cookieOf (env : Environment) (opened : String → Except Fault Contents) :
    Except ConfigError (Option Cookie) :=
  match env.value? .authCookieFile with
  | none => .ok none
  | some path => (Cookie.load path (opened path)).map some

/-- The server configuration that an environment gives; `opened` tells what
opening a file gives, and `system` is asked for hosts.  Unless another is
given it knows numeric hosts only. -/
def ofEnvironment (env : Environment) (supported : List String)
    (opened : String → Except Fault Contents) (system : Resolver := .numeric) :
    Except ConfigError ServerConfig := do
  let version ← env.version
  let orPort ← addressOf system .orPort (← env.required .orPort)
  let binds ← bindsOf system env supported
  let extendedPort ← extendedPortOf system env
  let cookie ← cookieOf env opened
  return ⟨version, binds, orPort, extendedPort, cookie⟩

/-- Where connections to the relay go.  The extended port has precedence, and
there is no falling back from it: without a cookie it is an error. -/
def target (c : ServerConfig) : Except ConfigError Target :=
  match c.extendedPort, c.cookie with
  | none, _ => .ok (.direct c.orPort)
  | some addr, some cookie => .ok (.extended addr cookie)
  | some addr, none => .error (.noCookie addr.text)

end ServerConfig

end ManagedTransport
