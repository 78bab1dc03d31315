import ManagedTransport.Bytes
import ManagedTransport.Error

/-!
# Commands

Once a connection to the extended ORPort is authenticated, both sides speak in
commands.  On the wire a command is its number, the length of its body, each
as two octets, and the body.  A body has at most 65535 octets.
-/

namespace ManagedTransport

/-- The commands there are. -/
inductive CommandId where
  | done
  | userAddr
  | transport
  | okay
  | deny
deriving DecidableEq

/-- A command with its body. -/
structure Command where
  id : CommandId
  body : Bytes
deriving DecidableEq

namespace CommandId

/-- The number of a command. -/
def code : CommandId → Nat
  | done => 0x0000
  | userAddr => 0x0001
  | transport => 0x0002
  | okay => 0x1000
  | deny => 0x1001

/-- The command that has a number. -/
def ofCode? : Nat → Option CommandId
  | 0x0000 => some done
  | 0x0001 => some userAddr
  | 0x0002 => some transport
  | 0x1000 => some okay
  | 0x1001 => some deny
  | _ => none

/-- How a command is called. -/
def name : CommandId → String
  | done => "DONE"
  | userAddr => "USERADDR"
  | transport => "TRANSPORT"
  | okay => "OKAY"
  | deny => "DENY"

/-- The command that has a number, or the error of meeting one that none has. -/
def ofCode (code : Nat) : Except ProtocolError CommandId :=
  match ofCode? code with
  | some id => .ok id
  | none => .error (.unknownCommand code)

theorem ofCode?_code (id : CommandId) : ofCode? id.code = some id := by cases id <;> rfl

theorem code_lt (id : CommandId) : id.code < 65536 := by cases id <;> decide

end CommandId

namespace Command

/-- The longest body. -/
def maxBody : Nat := 65535

/-- The octets of a command, whatever the length of its body. -/
def octets (c : Command) : Bytes :=
  Bytes.ofWord c.id.code ++ Bytes.ofWord c.body.length ++ c.body

/-- The octets of a command whose body is not too long. -/
def encode (c : Command) : Except ProtocolError Bytes :=
  if c.body.length ≤ maxBody then .ok c.octets else .error (.commandTooLong c.body.length)

theorem length_octets (c : Command) : c.octets.length = 4 + c.body.length := by
  simp only [octets, List.length_append, Bytes.length_ofWord]

/-- Only a body that is too long keeps a command from being written. -/
theorem encode_eq_ok_iff {c : Command} {bs : Bytes} :
    c.encode = .ok bs ↔ c.body.length ≤ maxBody ∧ bs = c.octets := by
  by_cases h : c.body.length ≤ maxBody
  · rw [encode, if_pos h]
    constructor
    · rintro ⟨rfl⟩
      exact ⟨h, rfl⟩
    · rintro ⟨_, rfl⟩
      rfl
  · rw [encode, if_neg h]
    constructor
    · rintro ⟨⟩
    · rintro ⟨short, _⟩
      exact absurd short h

end Command

end ManagedTransport
