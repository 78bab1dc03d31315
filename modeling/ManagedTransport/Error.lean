import ManagedTransport.Fault
import ManagedTransport.Text.Quoted

/-!
# Errors

Whatever goes wrong has a cause, and the causes fall into five classes: the
configuration, the peer's breach of the protocol, a refusal by one side, the
deadline, and the network.  The class decides the exit code and whether a
fresh attempt makes sense; `message` is the one place where causes are put
into words.
-/

namespace ManagedTransport

open Text

/-- The two stages of a connection attempt. -/
inductive Phase where
  | authentication
  | setup
deriving DecidableEq

/-- How a stage is named in messages. -/
def Phase.name : Phase → String
  | authentication => "authentication"
  | setup => "session setup"

/-- What is wrong with the environment or a cookie file. -/
inductive ConfigError where
  | missingVariable (name : String)
  | unsupportedVersion (offered : String)
  | unresolved (name value reason : String)
  | badBindEntry (entry reason : String)
  | badCookie (path reason : String)
  | unreadableCookie (path : String) (cause : Fault)
  | unwritableCookie (path : String) (cause : Fault)
  | noCookie (address : String)
deriving DecidableEq

/-- How a peer broke the protocol. -/
inductive ProtocolError where
  | authTypesTooLong (count : Nat)
  | commandTooLong (length : Nat)
  | unknownCommand (code : Nat)
  | unexpectedCommand (name : String) (phase : Phase)
  | trailingData (count : Nat)
deriving DecidableEq

/-- How one side refused the other. -/
inductive AuthError where
  | safeCookieNotOffered (offered : List UInt8)
  | unsupportedSelection (selected : Nat)
  | serverHashMismatch
  | clientHashMismatch
  | statusRejected (status : Nat)
  | denied
deriving DecidableEq

/-- What failed on the network. -/
inductive NetworkError where
  | connectFailed (address : String) (cause : Fault)
  | io (phase : Phase) (cause : Fault)
deriving DecidableEq

/-- Everything that can go wrong. -/
inductive Error where
  | config (e : ConfigError)
  | protocol (e : ProtocolError)
  | auth (e : AuthError)
  | timeout (millis : Nat)
  | network (e : NetworkError)
deriving DecidableEq

/-- The classes of errors. -/
inductive ErrorKind where
  | config
  | protocolViolation
  | authRejected
  | timeout
  | io
deriving DecidableEq

namespace ConfigError

/-- The error in words. -/
def message : ConfigError → String
  | missingVariable name => s!"no {name} environment variable"
  | unsupportedVersion offered => s!"no supported managed transport version in {quoted offered}"
  | unresolved name value reason => s!"cannot resolve {name} {quoted value}: {reason}"
  | badBindEntry entry reason => s!"TOR_PT_SERVER_BINDADDR: {quoted entry}: {reason}"
  | badCookie path reason => s!"error reading auth cookie file {quoted path}: {reason}"
  | unreadableCookie path cause =>
    s!"error reading auth cookie file {quoted path}: {cause.message}"
  | unwritableCookie path cause =>
    s!"cannot write auth cookie file {quoted path}: {cause.message}"
  | noCookie address => s!"extended ORPort {address} configured without an auth cookie file"

/-- The fault underneath, if there is one. -/
def cause? : ConfigError → Option Fault
  | unreadableCookie _ cause => some cause
  | unwritableCookie _ cause => some cause
  | _ => none

end ConfigError

namespace ProtocolError

/-- The error in words. -/
def message : ProtocolError → String
  | authTypesTooLong count => s!"read {count} auth types without seeing \\x00"
  | commandTooLong length =>
    s!"command body of {length} bytes exceeds maximum length of 65535"
  | unknownCommand code => s!"unknown command 0x{String.ofList (hexPadded 4 code)}"
  | unexpectedCommand name phase => s!"unexpected command {name} during {phase.name}"
  | trailingData count => s!"{count} bytes left after extended ORPort authentication"

end ProtocolError

namespace AuthError

/-- Octets as a list in brackets. -/
def octetList (bs : List UInt8) : String :=
  "[" ++ ", ".intercalate (bs.map fun b => toString b.toNat) ++ "]"

/-- The error in words. -/
def message : AuthError → String
  | safeCookieNotOffered offered =>
    s!"server didn't offer auth type 1 (offered {octetList offered})"
  | unsupportedSelection selected => s!"client selected unsupported auth type {selected}"
  | serverHashMismatch => "mismatch in server hash"
  | clientHashMismatch => "mismatch in client hash"
  | statusRejected status => s!"server rejected authentication (status {status})"
  | denied => "server returned DENY after our USERADDR and DONE"

end AuthError

namespace NetworkError

/-- The error in words. -/
def message : NetworkError → String
  | connectFailed address cause => s!"connect to {address} failed: {cause.message}"
  | io phase cause => s!"I/O error during {phase.name}: {cause.message}"

/-- The fault underneath. -/
def cause : NetworkError → Fault
  | connectFailed _ cause => cause
  | io _ cause => cause

end NetworkError

namespace Error

/-- The error in words, led by its class. -/
def message : Error → String
  | config e => s!"Config error: {e.message}"
  | protocol e => s!"Protocol error: {e.message}"
  | auth e => s!"Authentication rejected: {e.message}"
  | timeout millis => s!"Handshake timed out after {millis}ms"
  | network e => s!"Network error: {e.message}"

/-- The class of an error. -/
def kind : Error → ErrorKind
  | config _ => .config
  | protocol _ => .protocolViolation
  | auth _ => .authRejected
  | timeout _ => .timeout
  | network _ => .io

/-- Whether a fresh attempt could succeed. -/
def isRecoverable : Error → Bool
  | config _ => false
  | protocol _ => false
  | auth (.safeCookieNotOffered _) => false
  | auth _ => true
  | timeout _ => true
  | network _ => true

/-- The exit code of a program that ends with this error. -/
def exitCode : Error → Nat
  | config _ => 1
  | auth _ => 2
  | network _ => 3
  | protocol _ => 4
  | timeout _ => 5

/-- The error for the person who runs the program, with advice where there is any. -/
def userMessage : Error → String
  | config (.missingVariable name) =>
    s!"{name} is not set.\n  This program is meant to be launched by tor as a managed transport."
  | auth .serverHashMismatch =>
    "Extended ORPort authentication failed.\n  " ++
      "The auth cookie file probably belongs to a different tor instance."
  | timeout millis =>
    s!"Extended ORPort did not answer within {millis}ms.\n  " ++
      "Check that tor is running and its ExtORPort is reachable."
  | e => e.message

/-- The texts of what lies underneath, outermost first. -/
def sources : Error → List String
  | config e => e.message :: (e.cause?.map Fault.message).toList
  | protocol e => [e.message]
  | auth e => [e.message]
  | timeout _ => []
  | network e => [e.message, e.cause.message]

end Error

end ManagedTransport
