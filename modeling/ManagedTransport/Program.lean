import ManagedTransport.CommandLine
import ManagedTransport.Connector
import ManagedTransport.Folder

/-!
# The program

The program works on a host, which gives it an environment, files, random
octets, two outputs and connections.  What it does is the same on every host;
`Machine` is one whose whole state is a value, with a network that holds at
most one peer, and with numeric hosts.

An error ends the program with the code of its class and a message; a closed
output changes nothing.
-/

namespace ManagedTransport

/-- What the program works on. -/
structure Host (m : Type → Type) where
  environment : m Environment
  /-- What the system answers when it is asked for the hosts in an environment. -/
  resolver : Environment → m Resolver
  /-- Opens a file for reading. -/
  openFile : String → m (Except Fault Contents)
  /-- Writes a file, and then sees to it that only its owner may read and write it. -/
  storeFile : String → Bytes → m (Except Fault Unit)
  freshCookie : m Cookie
  /-- Writes to the standard output, whether anybody reads it or not. -/
  tell : Bytes → m Unit
  /-- Writes to the standard error. -/
  complain : String → m Unit
  /-- Connects to the relay for a session. -/
  connect : Connector → SessionInfo → m (Except Error Unit)

namespace Program

variable {m : Type → Type} [Monad m]

/-- The name and version that the program tells. -/
def versionLine : String := "ptbridge 0.1.0\n"

/-- The exit code where the arguments make no sense. -/
def usageCode : Nat := 2

/-- Checks a cookie file. -/
def cookieCheck (host : Host m) (path : String) : m (Except Error Unit) := do
  match Cookie.load path (← host.openFile path) with
  | .ok _ => return .ok ()
  | .error e => return .error (.config e)

/-- Writes a fresh cookie file. -/
def cookieGenerate (host : Host m) (path : String) : m (Except Error Unit) := do
  let cookie ← host.freshCookie
  match ← host.storeFile path cookie.file with
  | .ok () => return .ok ()
  | .error fault => return .error (.config (.unwritableCookie path fault))

/-- Opens the cookie file that the environment names, if the role uses one. -/
def openCookieFile (host : Host m) (role : Role) (env : Environment) :
    m (Except Fault Contents) :=
  match role, env.value? .authCookieFile with
  | .server, some path => host.openFile path
  | _, _ => return .error .missing

/-- Checks the environment for a role and tells tor about it.  The system is
asked for hosts and the cookie file is opened beforehand. -/
def setup (host : Host m) (role : Role) (methods : List String) : m (Except Error Unit) := do
  let env ← host.environment
  let opened ← openCookieFile host role env
  let system ← host.resolver env
  let (r, sink) := role.report env methods (fun _ => opened) system .unbounded
  host.tell sink.held
  match r with
  | .ok () => return .ok ()
  | .error e => return .error (.config e)

/-- Authenticates at an extended port and announces a connection. -/
def probe (host : Host m) (extOrPort : Address) (path method : String) (userAddr : Address)
    (timeout : Nat) : m (Except Error Unit) := do
  match Cookie.load path (← host.openFile path) with
  | .error e => return .error (.config e)
  | .ok cookie =>
    let connector := (Connector.ofTarget (.extended extOrPort cookie)).withTimeout timeout
    host.connect connector ⟨userAddr, method⟩

/-- Carries out what the program is asked to do. -/
def perform (host : Host m) : Invocation → m (Except Error Unit)
  | .version => do
    host.tell (Text.utf8 versionLine)
    return .ok ()
  | .cookieCheck path => cookieCheck host path
  | .cookieGenerate path => cookieGenerate host path
  | .setup role methods => setup host role methods
  | .probe extOrPort cookie method userAddr timeout =>
    probe host extOrPort cookie method userAddr timeout

/-- Runs the program on its arguments and gives its exit code; nothing if the
arguments make no sense. -/
def run (host : Host m) (args : List String) : m (Option Nat) := do
  match CommandLine.parse args with
  | none => return none
  | some invocation =>
    match ← perform host invocation with
    | .ok () => return some 0
    | .error e =>
      host.complain s!"Error: {e.userMessage}\n"
      return some e.exitCode

end Program

/-- A host whose state is a value. -/
structure Machine where
  environment : Environment
  folder : Folder
  supply : Supply
  network : Network
  /-- Whether anybody reads the standard output. -/
  outputOpen : Bool
  output : Bytes
  complaints : String
  /-- What the peer got, if a connection was opened. -/
  reception : Option Reception

namespace Machine

/-- A machine as the program finds it. -/
def fresh (environment : Environment) (folder : Folder) (supply : Supply) (network : Network)
    (outputOpen : Bool) : Machine :=
  ⟨environment, folder, supply, network, outputOpen, [], "", none⟩

/-- The machine after a cookie file is written, or as much of it as can be. -/
def storeFile (path : String) (contents : Bytes) (m : Machine) : Except Fault Unit × Machine :=
  let (r, folder) := m.folder.write path contents Cookie.fileMode
  (r, { m with folder := folder })

/-- The machine after a cookie is drawn. -/
def freshCookie (m : Machine) : Cookie × Machine :=
  let (cookie, supply) := Cookie.generate m.supply
  (cookie, { m with supply := supply })

/-- The machine after something is written to its output. -/
def tell (bs : Bytes) (m : Machine) : Machine :=
  if m.outputOpen then { m with output := m.output ++ bs } else m

/-- The machine after a connection; the peer is there for one. -/
def connect (c : Connector) (info : SessionInfo) (m : Machine) :
    Except Error Unit × Machine :=
  let (r, reception) := m.network.connect c info [] m.supply
  (r, { m with reception := reception, network := { m.network with peer := none } })

/-- The machine as a host. -/
def host : Host (StateM Machine) where
  environment := do return (← get).environment
  resolver _ := return .numeric
  openFile path := do return (← get).folder.read path
  storeFile path contents := modifyGet (storeFile path contents)
  freshCookie := modifyGet freshCookie
  tell bs := modify (tell bs)
  complain words := modify fun m => { m with complaints := m.complaints ++ words }
  connect c info := modifyGet (connect c info)

/-- What the peer got in the end.  A peer that nobody called on is left with a
connection that is closed at once. -/
def received (m : Machine) : Option Reception :=
  m.reception.orElse fun _ => m.network.peer.map (Network.direct [])

/-- Runs the program on the machine. -/
def run (args : List String) (m : Machine) : Option Nat × Machine :=
  (Program.run host args).run m

end Machine

end ManagedTransport
