import ManagedTransport.Status.Line

/-!
# Writing status lines

A sink takes octets until it has no room left; from then on every write fails.
A write is a row of tries: what one leaves is tried next, and one that is
interrupted is made again.  Where every try is interrupted, on a sink that is
not `Steady`, a write never comes to an end.  Flushes succeed, or all of them
fail.  A line goes out as its text, its newline and a flush, and stops at the
first of these that fails, so a line that was cut short is never followed by
another.
-/

namespace ManagedTransport

/-- Where status lines go. -/
structure Sink where
  /-- How many octets it still takes, if there is a bound. -/
  room : Option Nat
  /-- What a write meets that finds no room. -/
  refusal : Fault
  /-- What a flush meets, if flushes fail. -/
  flushRefusal : Option Fault
  /-- The octets taken. -/
  held : Bytes

namespace Sink

/-- Every write comes to an end: what a write meets that finds no room is no interruption. -/
def Steady (s : Sink) : Prop := s.refusal ≠ .interruption

/-- A sink that takes everything. -/
def unbounded : Sink := ⟨none, .plain .brokenPipe, none, []⟩

/-- A sink that takes nothing. -/
def broken : Sink := ⟨some 0, .os 32, none, []⟩

/-- One try to write: it takes what there is room for and leaves the rest, or it is refused. -/
def attempt (s : Sink) (bs : Bytes) : Except Fault (Bytes × Sink) :=
  match s.room with
  | none => .ok ([], { s with held := s.held ++ bs })
  | some 0 => .error s.refusal
  | some (room + 1) =>
    .ok (bs.drop (room + 1),
      { s with room := some (room + 1 - bs.length), held := s.held ++ bs.take (room + 1) })

/-- What becomes of octets that are to be written, if it ever comes to an end: what a try leaves
is tried next, an interrupted try is made again, and any other refusal is the result. -/
inductive Writes : Sink → Bytes → Except Fault Unit × Sink → Prop
  | nothing {s} : Writes s [] (.ok (), s)
  | taken {s s2 bs rest o} (some : bs ≠ []) (taken : s.attempt bs = .ok (rest, s2))
      (behind : Writes s2 rest o) : Writes s bs o
  | interrupted {s bs o} (some : bs ≠ []) (refused : s.attempt bs = .error .interruption)
      (again : Writes s bs o) : Writes s bs o
  | refused {s bs f} (some : bs ≠ []) (refused : s.attempt bs = .error f)
      (final : f ≠ .interruption) : Writes s bs (.error f, s)

/-- What `Writes` comes to on a steady sink: octets are written as far as there is room. -/
def write (s : Sink) (bs : Bytes) : Except Fault Unit × Sink :=
  match s.room with
  | none => (.ok (), { s with held := s.held ++ bs })
  | some room =>
    (if bs.length ≤ room then .ok () else .error s.refusal,
      { s with room := some (room - bs.length), held := s.held ++ bs.take room })

/-- Flushes. -/
def flush (s : Sink) : Except Fault Unit :=
  match s.flushRefusal with
  | none => .ok ()
  | some f => .error f

/-- Writes one status line. -/
def line (s : Sink) (l : StatusLine) : Except Fault Unit × Sink :=
  match s.write (Text.utf8 l.text) with
  | (.error f, s) => (.error f, s)
  | (.ok (), s) =>
    match s.write [10] with
    | (.error f, s) => (.error f, s)
    | (.ok (), s) => (s.flush, s)

/-- Writes a status line and goes on whatever comes of it. -/
def tell (s : Sink) (l : StatusLine) : Sink := (s.line l).2

end Sink

end ManagedTransport
