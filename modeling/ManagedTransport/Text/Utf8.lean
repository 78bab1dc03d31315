import ManagedTransport.Bytes

/-!
# Text as octets

`utf8` writes text as octets.  `lossy` reads octets as text and never fails:
a stretch of octets that begins a character and cannot be completed becomes
one replacement character, and so does every octet that can begin none.

Reading goes octet by octet.  The reader holds the text so far and at most one
character that is begun; `Unfinished` records which octets may come next, so
that surrogates, overlong forms and numbers past U+10FFFF are refused at the
first octet that gives them away.
-/

namespace ManagedTransport.Text

/-- The octets of a text. -/
def utf8 (s : String) : Bytes := s.toList.flatMap String.utf8EncodeChar

theorem utf8_append (s t : String) : utf8 (s ++ t) = utf8 s ++ utf8 t := by
  simp [utf8]

/-- What stands for octets that are no character. -/
def replacement : Char := '\uFFFD'

/-- A character that is begun: the bits read so far, how many octets are still
missing, and the range the next one must lie in. -/
structure Unfinished where
  bits : Nat
  missing : Nat
  low : Nat
  high : Nat

/-- The state of reading: the characters read, last first, and the one begun. -/
structure Reader where
  read : List Char
  begun : Option Unfinished

namespace Reader

/-- Nothing is read yet. -/
def empty : Reader := ⟨[], none⟩

/-- Takes an octet that stands at the beginning of a character. -/
def start (read : List Char) (b : UInt8) : Reader :=
  let n := b.toNat
  if n < 0x80 then ⟨Char.ofNat n :: read, none⟩
  else if n < 0xC2 then ⟨replacement :: read, none⟩
  else if n < 0xE0 then ⟨read, some ⟨n % 32, 1, 0x80, 0xBF⟩⟩
  else if n = 0xE0 then ⟨read, some ⟨0, 2, 0xA0, 0xBF⟩⟩
  else if n = 0xED then ⟨read, some ⟨13, 2, 0x80, 0x9F⟩⟩
  else if n < 0xF0 then ⟨read, some ⟨n % 16, 2, 0x80, 0xBF⟩⟩
  else if n = 0xF0 then ⟨read, some ⟨0, 3, 0x90, 0xBF⟩⟩
  else if n < 0xF4 then ⟨read, some ⟨n % 8, 3, 0x80, 0xBF⟩⟩
  else if n = 0xF4 then ⟨read, some ⟨4, 3, 0x80, 0x8F⟩⟩
  else ⟨replacement :: read, none⟩

/-- Takes one octet.  One that cannot continue the character begun ends it
with a replacement character and is then looked at afresh. -/
def take (r : Reader) (b : UInt8) : Reader :=
  match r.begun with
  | none => start r.read b
  | some u =>
    if u.low ≤ b.toNat ∧ b.toNat ≤ u.high then
      let bits := u.bits * 64 + b.toNat % 64
      if u.missing = 1 then ⟨Char.ofNat bits :: r.read, none⟩
      else ⟨r.read, some ⟨bits, u.missing - 1, 0x80, 0xBF⟩⟩
    else start (replacement :: r.read) b

/-- The text read; a character that is still unfinished at the end is replaced. -/
def text (r : Reader) : List Char :=
  (if r.begun.isSome then replacement :: r.read else r.read).reverse

end Reader

/-- The text that octets stand for, with replacement characters where they stand for none. -/
def lossy (bs : Bytes) : String := String.ofList (bs.foldl Reader.take Reader.empty).text

end ManagedTransport.Text
