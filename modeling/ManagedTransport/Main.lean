import Std.Async.DNS
import Std.Async.TCP
import Std.Async.Timer
import ManagedTransport.Program

/-!
# The command

The program on the machine that it is started on: its environment, its
resolver, its files, its outputs, and connections over TCP.  A dialogue is carried out on a
connection as it is on a wire: octets that one read brings beyond those asked
for are held, and what fails is reported for the phase the dialogue belongs to.
-/

namespace ManagedTransport

open Std.Async

/-- A code of the operating system.  Sockets report codes as negative numbers. -/
def Fault.ofCode (code : UInt32) : Fault :=
  os (if code.toNat < 2147483648 then code.toNat else 4294967296 - code.toNat)

/-- The fault that the system reports: its code where it gives one. -/
def Fault.ofSystem : IO.Error → Fault
  | .alreadyExists _ code _ => ofCode code
  | .otherError code _ => ofCode code
  | .resourceBusy code _ => ofCode code
  | .resourceVanished code _ => ofCode code
  | .unsupportedOperation code _ => ofCode code
  | .hardwareFault code _ => ofCode code
  | .unsatisfiedConstraints code _ => ofCode code
  | .illegalOperation code _ => ofCode code
  | .protocolError code _ => ofCode code
  | .timeExpired code _ => ofCode code
  | .interrupted _ code _ => ofCode code
  | .noFileOrDirectory _ code _ => ofCode code
  | .invalidArgument _ code _ => ofCode code
  | .permissionDenied _ code _ => ofCode code
  | .resourceExhausted _ code _ => ofCode code
  | .inappropriateType _ code _ => ofCode code
  | .noSuchThing _ code _ => ofCode code
  | .unexpectedEof => noOctet
  | .userError words => worded .other words

/-- What an action on the machine gives, or the fault that it meets. -/
def attempt {α : Type} (act : IO α) : BaseIO (Except Fault α) := do
  return (← act.toBaseIO).mapError Fault.ofSystem

/-- What an action that may wait gives, or the fault that it meets. -/
def attemptWaiting {α : Type} (act : Async α) : Async (Except Fault α) :=
  try
    return .ok (← act)
  catch e =>
    return .error (Fault.ofSystem e)

/-- A connection, with the octets that were read ahead. -/
structure Connection where
  socket : TCP.Socket.Client
  held : Bytes
  /-- The most that one read brings. -/
  window : Nat

namespace Connection

/-- Takes one octet; none at the end of the stream. -/
def next (c : Connection) : Async (Except Fault (Option UInt8) × Connection) := do
  match c.held with
  | b :: bs => return (.ok (some b), { c with held := bs })
  | [] =>
    match ← attemptWaiting (c.socket.recv? c.window.toUInt64) with
    | .error f => return (.error f, c)
    | .ok received =>
      match (received.getD .empty).toList with
      | [] => return (.ok none, c)
      | b :: bs => return (.ok (some b), { c with held := bs })

/-- Takes `n` more octets behind those taken before, which are held last first. -/
def takeOnto : Nat → Bytes → Connection → Async (Except Fault Bytes × Connection)
  | 0, taken, c => return (.ok taken.reverse, c)
  | n + 1, taken, c => do
    match ← c.next with
    | (.ok (some b), c) => takeOnto n (b :: taken) c
    | (.ok none, c) => return (.error .earlyEnd, c)
    | (.error f, c) => return (.error f, c)

/-- Sends octets. -/
def send (bs : Bytes) (c : Connection) : Async (Except Fault Unit) :=
  attemptWaiting (c.socket.send (ByteArray.mk bs.toArray))

end Connection

/-- Carries out a dialogue on a connection. -/
def Dialogue.talk {α : Type} (phase : Phase) :
    Dialogue α → Connection → Async (Except Error α × Connection)
  | done a, c => return (.ok a, c)
  | fail e, c => return (.error e, c)
  | octet k, c => do
    match ← c.next with
    | (.ok (some b), c) => (k b).talk phase c
    | (.ok none, c) => return (.error (.network (.io phase .noOctet)), c)
    | (.error f, c) => return (.error (.network (.io phase f)), c)
  | octets n k, c => do
    match ← c.takeOnto n [] with
    | (.ok bs, c) => (k bs).talk phase c
    | (.error f, c) => return (.error (.network (.io phase f)), c)
  | send bs k, c => do
    match ← c.send bs with
    | .ok () => k.talk phase c
    | .error f => return (.error (.network (.io phase f)), c)
  | flush k, c => k.talk phase c
  | draw k, c => do
    let block ← IO.getRandomBytes 32
    (k block.toList).talk phase c
  | mark _ k, c => k.talk phase c
  | ahead k, c => (k c.held.length).talk phase c

/-- Authenticates and sets the session up on a fresh connection. -/
def exchangeOver (socket : TCP.Socket.Client) (cookie : Cookie) (info : SessionInfo) :
    Async (Except Error Unit) := do
  match ← (SafeCookie.client cookie).talk .authentication
      ⟨socket, [], SafeCookie.readAheadSize⟩ with
  | (.ok (), c) => return (← info.setup.talk .setup { c with held := [], window := 1 }).1
  | (.error e, _) => return .error e

/-- Waits, and then tells that the time is up. -/
def timeUp (millis : Nat) : Async (Except Error Unit) := do
  sleep (Std.Time.Millisecond.Offset.ofNat millis)
  return .error (.timeout millis)

namespace Address

/-- The address as the sockets take it; they know no scopes. -/
def socketAddress : Address → Std.Net.SocketAddress
  | v4 host port => .v4 ⟨.ofParts host.a host.b host.c host.d, port⟩
  | v6 host _ port => .v6 ⟨⟨⟨host.groups.toArray, by simp [host.length_groups]⟩⟩, port⟩

end Address

/-- Opens a connection, and on the extended port negotiates before the deadline. -/
def openConnection (c : Connector) (info : SessionInfo) : IO (Except Error Unit) := do
  let deadline := (← IO.monoMsNow) + c.timeout
  let socket ← TCP.Socket.Client.mk
  let addr := c.target.addr
  match ← (attemptWaiting (socket.connect addr.socketAddress)).block with
  | .error f => return .error (.network (.connectFailed addr.text f))
  | .ok () =>
    let _ ← attempt socket.noDelay
    match c.target with
    | .direct _ => return .ok ()
    | .extended _ cookie =>
      let millis := deadline - (← IO.monoMsNow)
      (Async.race (exchangeOver socket cookie info) (timeUp millis)).block

/-- An address that the machine's resolver gives, with a port. -/
def Address.ofMachine (port : UInt16) : Std.Net.IPAddr → Address
  | .v4 ip => v4 ⟨ip.octets[0], ip.octets[1], ip.octets[2], ip.octets[3]⟩ port
  | .v6 ip => v6 ⟨ip.segments.toList, by simp⟩ 0 port

/-- The host of a text that is no literal. -/
def hostOf? (cs : List Char) : Option (List Char) :=
  if (Address.literal? cs).isSome then none else (Text.cutLast? ':' cs).map (·.1)

/-- The hosts in an environment. -/
def Environment.hosts (env : Environment) : List (List Char) :=
  let ports := [Variable.orPort, .extendedServerPort].filterMap env.value?
  let binds := (env.value? .serverBindAddr).toList.flatMap Text.entries
  let bound := binds.filterMap fun entry => Text.cutFirst? '-' entry.toList
  (ports.map String.toList ++ bound.map (·.2)).filterMap hostOf?

/-- What the machine's resolver says of a host. -/
def lookUp (host : List Char) : IO (Except String (List Std.Net.IPAddr)) := do
  match ← (DNS.getAddrInfo (String.ofList host) "").block.toBaseIO with
  | .ok found => return .ok found.toList
  | .error e => return .error s!"failed to lookup address information: {e}"

/-- The machine's resolver, as far as the hosts in an environment go.  Numeric hosts need not be
looked up. -/
def machineResolver (env : Environment) : IO Resolver := do
  let known ← env.hosts.mapM fun host => do return (host, ← lookUp host)
  return {
    lookup := fun host port =>
      match Resolver.numeric.lookup host port, known.lookup host with
      | .ok found, _ => .ok found
      | .error _, some r => r.map fun found => found.map (Address.ofMachine port)
      | .error words, none => .error words }

/-- The first octets of a file, as many as it takes to judge a cookie file. -/
def readFront (path : String) : IO Contents := do
  let handle ← IO.FS.Handle.mk path .read
  return .finite (← handle.read 65).toList

/-- Writes a whole file, and then sees to it that only its owner may read and write it. -/
def writePrivate (path : String) (contents : Bytes) : IO Unit := do
  let handle ← IO.FS.Handle.mk path .write
  handle.write (ByteArray.mk contents.toArray)
  handle.flush
  IO.setAccessRights path ⟨⟨true, true, false⟩, {}, {}⟩

/-- Writes to a stream, whether it can be written to or not. -/
def writeAnyway (stream : IO.FS.Stream) (bs : Bytes) : IO Unit := do
  let _ ← attempt do
    stream.write (ByteArray.mk bs.toArray)
    stream.flush

/-- A cookie of random octets. -/
def randomCookie : IO Cookie := do
  let block ← IO.getRandomBytes 32
  return ⟨Bytes.padded 32 block.toList, Bytes.length_padded _ _⟩

/-- The machine that the program is started on. -/
def system : Host IO where
  environment := do
    let values ← Variable.all.mapM fun v => do return (v, ← IO.getEnv v.name)
    return fun v => (values.lookup v).join
  resolver := machineResolver
  openFile path := attempt (readFront path)
  storeFile path contents := attempt (writePrivate path contents)
  freshCookie := randomCookie
  tell bs := do writeAnyway (← IO.getStdout) bs
  complain words := do writeAnyway (← IO.getStderr) (Text.utf8 words)
  connect := openConnection

/-- How the program is called. -/
def usage : String :=
  "usage: ptbridge [-v] cookie check PATH\n" ++
  "       ptbridge [-v] cookie generate PATH\n" ++
  "       ptbridge [-v] setup client|server --methods a,b[,...]\n" ++
  "       ptbridge [-v] probe --ext-orport ADDR --cookie PATH --method NAME\n" ++
  "                           [--user-addr ADDR] [--timeout-ms MILLIS]\n" ++
  "       ptbridge --version\n"

/-- Runs the program, or tells how it is called. -/
def command (args : List String) : IO UInt32 := do
  match ← Program.run system args with
  | some code => return UInt32.ofNat code
  | none =>
    writeAnyway (← IO.getStderr) (Text.utf8 usage)
    return UInt32.ofNat Program.usageCode

end ManagedTransport

/-- Runs the program on its arguments. -/
def main (args : List String) : IO UInt32 := ManagedTransport.command args
