import ManagedTransport.Bytes
import ManagedTransport.Fault

/-!
# Wires

A wire is one end of a stream with everything that its other end and the
system below it will do written out in advance: what arrives, in which pieces
and after which pauses, which reads fail, how much one write takes, after how
many octets writing stops, and which flushes fail.  Time is counted in
milliseconds and moves only while a read waits.

A read brings a piece of what has arrived, never parts of two; after the last
arrival it brings nothing, which is the end of the stream.  A wait that would
end after the deadline is broken off at the deadline.
-/

namespace ManagedTransport

/-- How a wait or a whole dialogue ends: with a result, with a failure, by the
deadline, or never. -/
inductive Ending (ε α : Type) where
  | done (result : α)
  | failed (error : ε)
  | late
  | stuck
deriving DecidableEq

/-- What happens next to the one who reads. -/
inductive Arrival where
  /-- Octets that one read may bring. -/
  | data (octets : Bytes)
  /-- A pause of so many milliseconds. -/
  | pause (millis : Nat)
  /-- One read fails. -/
  | fault (fault : Fault)
  /-- Nothing ever comes. -/
  | stall

/-- One end of a stream. -/
structure Wire where
  /-- What is still to happen to the one who reads. -/
  arrivals : List Arrival
  /-- The most that one write takes, if there is a bound. -/
  atMost : Option Nat
  /-- How many octets will still be taken in all, if there is a bound. -/
  room : Option Nat
  /-- What a write meets when there is no room left; without it such a write takes nothing. -/
  refusal : Option Fault
  /-- How many flushes will still succeed and what the others meet, if any fail. -/
  flushes : Option (Nat × Fault)
  /-- The octets taken, last first. -/
  log : Bytes
  /-- The time. -/
  clock : Nat

/-- The octets that an arrival holds. -/
def Arrival.octets : Arrival → Bytes
  | data octets => octets
  | _ => []

namespace Wire

/-- A wire on which these things arrive and everything written is taken. -/
def ofArrivals (arrivals : List Arrival) : Wire :=
  ⟨arrivals, none, none, none, none, [], 0⟩

/-- The octets taken so far, in order. -/
def sent (w : Wire) : Bytes := w.log.reverse

/-- The octets that have arrived, or will, and that nobody has read, in order. -/
def pending (w : Wire) : Bytes := w.arrivals.flatMap Arrival.octets

/-- How many octets nobody has read. -/
def unread (w : Wire) : Nat := w.pending.length

/-- Whether a wait of `millis` ends after the deadline.  To wait for nothing is never late. -/
def isLate (deadline : Option Nat) (now millis : Nat) : Bool :=
  match deadline with
  | none => false
  | some limit => 0 < millis && limit < now + millis

/-- One read of at most `window` octets, as far as the arrivals and the time are
concerned. -/
def readFrom (window : Nat) (deadline : Option Nat) :
    List Arrival → Nat → Ending Fault Bytes × List Arrival × Nat
  | [], now => (.done [], [], now)
  | .data [] :: rest, now => readFrom window deadline rest now
  | .data (b :: bs) :: rest, now =>
    (.done ((b :: bs).take window), .data ((b :: bs).drop window) :: rest, now)
  | .pause millis :: rest, now =>
    if isLate deadline now millis then
      (.late, .pause millis :: rest, max now (deadline.getD now))
    else readFrom window deadline rest (now + millis)
  | .fault f :: rest, now => (.failed f, rest, now)
  | .stall :: rest, now =>
    match deadline with
    | none => (.stuck, .stall :: rest, now)
    | some limit => (.late, .stall :: rest, max now limit)

/-- One read of at most `window` octets.  It brings at least one unless the
stream is at its end. -/
def read (window : Nat) (deadline : Option Nat) (w : Wire) : Ending Fault Bytes × Wire :=
  let (r, rest, now) := readFrom window deadline w.arrivals w.clock
  (r, { w with arrivals := rest, clock := now })

/-- How many of `n` octets one write takes. -/
def accepts (w : Wire) (n : Nat) : Except Fault Nat :=
  let most := min n (w.atMost.getD n)
  match w.room with
  | none => .ok most
  | some 0 =>
    match w.refusal with
    | some f => .error f
    | none => .ok 0
  | some r => .ok (min most r)

/-- The wire after it has taken these octets. -/
def push (w : Wire) (bs : Bytes) : Wire :=
  { w with log := bs.reverse ++ w.log, room := w.room.map (· - bs.length) }

/-- Writes octets, by as many writes as it takes.  A write that takes nothing is
a fault. -/
def write (w : Wire) (bs : Bytes) : Except Fault Unit × Wire :=
  if bs = [] then (.ok (), w)
  else
    match w.accepts bs.length with
    | .error f => (.error f, w)
    | .ok 0 => (.error .nothingTaken, w)
    | .ok (k + 1) => (w.push (bs.take (k + 1))).write (bs.drop (k + 1))
termination_by bs.length
decreasing_by
  have : bs.length ≠ 0 := by simpa using ‹¬bs = []›
  simp only [List.length_drop]
  omega

/-- One flush. -/
def flush (w : Wire) : Except Fault Unit × Wire :=
  match w.flushes with
  | none => (.ok (), w)
  | some (0, f) => (.error f, w)
  | some (n + 1, f) => (.ok (), { w with flushes := some (n, f) })

theorem sent_push (w : Wire) (bs : Bytes) : (w.push bs).sent = w.sent ++ bs := by
  simp [sent, push]

/-- Every read divides what is pending: what it brings stood at the front, and
the rest is still pending, in order.  A read that brings nothing takes nothing. -/
theorem readFrom_octets (window : Nat) (deadline : Option Nat) (arrivals : List Arrival)
    (now : Nat) :
    match readFrom window deadline arrivals now with
    | (.done bs, rest, _) => bs ++ rest.flatMap Arrival.octets = arrivals.flatMap Arrival.octets
    | (_, rest, _) => rest.flatMap Arrival.octets = arrivals.flatMap Arrival.octets := by
  fun_induction readFrom window deadline arrivals now with
  | case3 now b bs rest =>
    simp only [List.flatMap_cons, Arrival.octets, ← List.append_assoc, List.take_append_drop]
  | _ => simp_all [Arrival.octets]

theorem pending_read_done {window : Nat} {deadline : Option Nat} {w w2 : Wire} {bs : Bytes}
    (e : w.read window deadline = (.done bs, w2)) : bs ++ w2.pending = w.pending := by
  have h := readFrom_octets window deadline w.arrivals w.clock
  rcases hr : readFrom window deadline w.arrivals w.clock with ⟨r, rest, now⟩
  rw [hr] at h
  simp only [read, hr] at e
  obtain ⟨rfl, rfl⟩ := Prod.mk.inj e
  exact h

theorem pending_read (window : Nat) (deadline : Option Nat) (w : Wire)
    (e : ∀ bs, (w.read window deadline).1 ≠ .done bs) :
    (w.read window deadline).2.pending = w.pending := by
  have h := readFrom_octets window deadline w.arrivals w.clock
  rcases hr : readFrom window deadline w.arrivals w.clock with ⟨r, rest, now⟩
  rw [hr] at h
  simp only [read, hr] at e ⊢
  cases r with
  | done bs => exact absurd rfl (e bs)
  | failed f => exact h
  | late => exact h
  | stuck => exact h

theorem pending_write (w : Wire) (bs : Bytes) : (w.write bs).2.pending = w.pending := by
  fun_induction write w bs with
  | case4 w bs hne k hk ih => exact ih
  | _ => rfl

theorem pending_flush (w : Wire) : w.flush.2.pending = w.pending := by
  simp only [flush]
  split <;> rfl

end Wire

end ManagedTransport
