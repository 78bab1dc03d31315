import ManagedTransport.Error
import ManagedTransport.Supply
import ManagedTransport.Text.Utf8

/-!
# Auth cookies

The cookie is the secret that the bridge and its relay share: thirty-two
octets.  In a file it stands behind a fixed header of thirty-two octets, and
the file holds nothing else.  `parse_eq_ok_iff` says that the files read are
exactly the files written.
-/

namespace ManagedTransport

/-- The shared secret. -/
structure Cookie where
  secret : Bytes
  length_secret : secret.length = 32
deriving DecidableEq

/-- What a file holds: so many octets, or octets without end. -/
inductive Contents where
  | finite (octets : Bytes)
  | endless (octets : Nat → UInt8)

/-- At most `n` octets from the front. -/
def Contents.front (n : Nat) : Contents → Bytes
  | finite octets => octets.take n
  | endless octets => (List.range n).map octets

/-- Why a file is no cookie file. -/
inductive CookieFlaw where
  | tooShort
  | tooLong
  | noHeader
deriving DecidableEq

/-- The flaw in words. -/
def CookieFlaw.message : CookieFlaw → String
  | tooShort => "file is shorter than 64 bytes"
  | tooLong => "file is longer than 64 bytes"
  | noHeader => "missing auth cookie header"

namespace Cookie

/-- The header of a cookie file. -/
def header : Bytes := "! Extended ORPort Auth Cookie !\n".toList.map fun c => UInt8.ofNat c.toNat

theorem length_header : header.length = 32 := by decide

/-- The cookie file. -/
def file (c : Cookie) : Bytes := header ++ c.secret

theorem length_file (c : Cookie) : c.file.length = 64 := by
  simp [file, length_header, c.length_secret]

/-- Reads a whole cookie file.  Its length is looked at before its header. -/
def parse (contents : Bytes) : Except CookieFlaw Cookie :=
  if contents.length < 64 then .error .tooShort
  else if h : contents.length = 64 then
    if contents.take 32 = header then .ok ⟨contents.drop 32, by rw [List.length_drop, h]⟩
    else .error .noHeader
  else .error .tooLong

/-- The files read are the files written. -/
theorem parse_eq_ok_iff {contents : Bytes} {c : Cookie} :
    parse contents = .ok c ↔ contents = c.file := by
  constructor
  · intro h
    simp only [parse] at h
    split at h
    · simp at h
    split at h
    · split at h
      · next hh =>
        cases h
        rw [file, ← hh, List.take_append_drop]
      · simp at h
    · simp at h
  · rintro rfl
    simp [parse, file, length_header, c.length_secret]

/-- Loads the cookie file at `path` from what opening it gave.  One octet more
than a cookie file has is enough to see that a file is too long. -/
def load (path : String) (opened : Except Fault Contents) : Except ConfigError Cookie :=
  match opened with
  | .error fault => .error (.unreadableCookie path fault)
  | .ok contents =>
    match parse (contents.front 65) with
    | .error flaw => .error (.badCookie path flaw.message)
    | .ok cookie => .ok cookie

/-- A fresh cookie from the next random octets. -/
def generate (s : Supply) : Cookie × Supply := (⟨s.draw.1, by simp⟩, s.draw.2)

/-- The cookie as it may be shown: without its secret. -/
def shown (_ : Cookie) : String := "AuthCookie(<redacted>)"

end Cookie

end ManagedTransport
