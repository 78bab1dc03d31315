import ManagedTransport.Dialogue
import ManagedTransport.Supply
import ManagedTransport.Wire

/-!
# Holding a dialogue

An endpoint is a party at its end of a wire: with its random supply, the
octets it has read ahead, its patience, and the step of authentication it has
reached.  One read may bring up to `window` octets, and those that were not
asked for are held until they are; with a window of one nothing is ever read
ahead.

`hold` carries out a dialogue at an endpoint.  A request for several octets
takes them one by one: however the peer's octets are cut, a longer read would
not see more.  Whatever fails on the wire is reported for the phase that the
dialogue belongs to.

* `pending_hold`: a dialogue takes octets from the front of what is pending and
  puts none back;
* `unread_hold_read`: reading a command takes at least the four octets of its
  header.
-/

namespace ManagedTransport

/-- A party at its end of a wire. -/
structure Endpoint where
  wire : Wire
  supply : Supply
  /-- Octets read ahead. -/
  held : Bytes
  /-- The most that one read brings. -/
  window : Nat
  /-- When the party gives up waiting, if it ever does. -/
  deadline : Option Nat
  step : AuthStep

namespace Endpoint

/-- An endpoint that reads nothing ahead and waits as long as it takes. -/
def ofWire (w : Wire) (s : Supply) : Endpoint := ⟨w, s, [], 1, none, .awaitAuthTypes⟩

/-- The octets that the party has not been given yet, in order. -/
def pending (e : Endpoint) : Bytes := e.held ++ e.wire.pending

/-- How many octets the party has not been given yet. -/
def unread (e : Endpoint) : Nat := e.pending.length

/-- Takes one octet; none at the end of the stream. -/
def next (e : Endpoint) : Ending Fault (Option UInt8) × Endpoint :=
  match e.held with
  | b :: bs => (.done (some b), { e with held := bs })
  | [] =>
    match e.wire.read e.window e.deadline with
    | (.done [], w) => (.done none, { e with wire := w })
    | (.done (b :: bs), w) => (.done (some b), { e with wire := w, held := bs })
    | (.failed f, w) => (.failed f, { e with wire := w })
    | (.late, w) => (.late, { e with wire := w })
    | (.stuck, w) => (.stuck, { e with wire := w })

/-- Takes `n` more octets behind those taken before, which are held last first. -/
def takeOnto : Nat → Bytes → Endpoint → Ending Fault Bytes × Endpoint
  | 0, taken, e => (.done taken.reverse, e)
  | n + 1, taken, e =>
    match e.next with
    | (.done (some b), e) => takeOnto n (b :: taken) e
    | (.done none, e) => (.failed .earlyEnd, e)
    | (.failed f, e) => (.failed f, e)
    | (.late, e) => (.late, e)
    | (.stuck, e) => (.stuck, e)

/-- Takes `n` octets. -/
def take (n : Nat) (e : Endpoint) : Ending Fault Bytes × Endpoint := takeOnto n [] e

/-- The octet that is taken stood at the front. -/
theorem pending_next_some {e e2 : Endpoint} {b : UInt8} (h : e.next = (.done (some b), e2)) :
    b :: e2.pending = e.pending := by
  rcases hh : e.held with _ | ⟨c, cs⟩
  · rcases hr : e.wire.read e.window e.deadline with ⟨r, w⟩
    simp only [next, hh, hr] at h
    split at h <;> cases h
    next hd =>
      obtain ⟨rfl, rfl⟩ := Prod.mk.inj hd
      have := Wire.pending_read_done hr
      simpa [pending, hh] using this
  · simp only [next, hh] at h
    obtain ⟨h1, rfl⟩ := Prod.mk.inj h
    cases h1
    simp [pending, hh]

/-- Where no octet is taken, nothing is lost. -/
theorem pending_next (e : Endpoint) (h : ∀ b, e.next.1 ≠ .done (some b)) :
    e.next.2.pending = e.pending := by
  rcases hh : e.held with _ | ⟨c, cs⟩
  · rcases hr : e.wire.read e.window e.deadline with ⟨r, w⟩
    have lost (hne : ∀ bs, r ≠ .done bs) : w.pending = e.wire.pending := by
      have := Wire.pending_read e.window e.deadline e.wire
      simp only [hr] at this
      exact this hne
    simp only [next, hh, hr] at h ⊢
    rcases r with bs | f | _ | _
    · cases bs with
      | nil =>
        have := Wire.pending_read_done hr
        simpa [pending, hh] using this
      | cons b bs => exact absurd rfl (h b)
    · simpa [pending, hh] using lost (by simp)
    · simpa [pending, hh] using lost (by simp)
    · simpa [pending, hh] using lost (by simp)
  · simp only [next, hh] at h
    exact absurd rfl (h c)

theorem pending_takeOnto_done {n : Nat} {taken bs : Bytes} {e e2 : Endpoint}
    (h : takeOnto n taken e = (.done bs, e2)) :
    bs ++ e2.pending = taken.reverse ++ e.pending ∧ bs.length = taken.length + n := by
  induction n generalizing taken e with
  | zero =>
    cases h
    simp
  | succ n ih =>
    rcases hn : e.next with ⟨r, e3⟩
    simp only [takeOnto, hn] at h
    rcases r with (_ | b) | f | _ | _
    · cases h
    · obtain ⟨h1, h2⟩ := ih h
      rw [h1, h2, ← pending_next_some hn]
      constructor
      · simp
      · simp only [List.length_cons]
        omega
    · cases h
    · cases h
    · cases h

theorem pending_takeOnto (n : Nat) (taken : Bytes) (e : Endpoint) :
    (takeOnto n taken e).2.pending <:+ e.pending := by
  induction n generalizing taken e with
  | zero => exact List.suffix_refl _
  | succ n ih =>
    rcases hn : e.next with ⟨r, e3⟩
    have lost (hne : ∀ b, r ≠ .done (some b)) : e3.pending = e.pending := by
      have := pending_next e
      simp only [hn] at this
      exact this hne
    simp only [takeOnto, hn]
    rcases r with (_ | b) | f | _ | _
    · exact lost (by simp) ▸ List.suffix_refl _
    · rw [← pending_next_some hn]
      exact (ih (b :: taken) e3).trans (List.suffix_cons b _)
    · exact lost (by simp) ▸ List.suffix_refl _
    · exact lost (by simp) ▸ List.suffix_refl _
    · exact lost (by simp) ▸ List.suffix_refl _

/-- So many octets are taken from the front. -/
theorem pending_take_done {n : Nat} {bs : Bytes} {e e2 : Endpoint}
    (h : e.take n = (.done bs, e2)) : bs ++ e2.pending = e.pending ∧ bs.length = n := by
  have := pending_takeOnto_done h
  simpa using this

end Endpoint

namespace Dialogue

open Endpoint

/-- Carries out a dialogue at an endpoint. -/
def hold {α : Type} (phase : Phase) : Dialogue α → Endpoint → Ending Error α × Endpoint
  | done a, e => (.done a, e)
  | fail err, e => (.failed err, e)
  | octet k, e =>
    match e.next with
    | (.done (some b), e) => (k b).hold phase e
    | (.done none, e) => (.failed (.network (.io phase .noOctet)), e)
    | (.failed f, e) => (.failed (.network (.io phase f)), e)
    | (.late, e) => (.late, e)
    | (.stuck, e) => (.stuck, e)
  | octets n k, e =>
    match e.take n with
    | (.done bs, e) => (k bs).hold phase e
    | (.failed f, e) => (.failed (.network (.io phase f)), e)
    | (.late, e) => (.late, e)
    | (.stuck, e) => (.stuck, e)
  | send bs k, e =>
    match e.wire.write bs with
    | (.ok (), w) => k.hold phase { e with wire := w }
    | (.error f, w) => (.failed (.network (.io phase f)), { e with wire := w })
  | flush k, e =>
    match e.wire.flush with
    | (.ok (), w) => k.hold phase { e with wire := w }
    | (.error f, w) => (.failed (.network (.io phase f)), { e with wire := w })
  | draw k, e => (k e.supply.draw.1).hold phase { e with supply := e.supply.draw.2 }
  | mark s k, e => k.hold phase { e with step := s }
  | ahead k, e => (k e.held.length).hold phase e

/-- A dialogue takes octets from the front of what is pending and puts none back. -/
theorem pending_hold {α : Type} (phase : Phase) (d : Dialogue α) (e : Endpoint) :
    (d.hold phase e).2.pending <:+ e.pending := by
  induction d generalizing e with
  | done a => exact List.suffix_refl _
  | fail err => exact List.suffix_refl _
  | octet k ih =>
    rcases hn : e.next with ⟨r, e2⟩
    have lost (hne : ∀ b, r ≠ .done (some b)) : e2.pending = e.pending := by
      have := pending_next e
      simp only [hn] at this
      exact this hne
    simp only [hold, hn]
    rcases r with (_ | b) | f | _ | _
    · exact lost (by simp) ▸ List.suffix_refl _
    · rw [← pending_next_some hn]
      exact (ih b e2).trans (List.suffix_cons b _)
    · exact lost (by simp) ▸ List.suffix_refl _
    · exact lost (by simp) ▸ List.suffix_refl _
    · exact lost (by simp) ▸ List.suffix_refl _
  | octets n k ih =>
    have taken := pending_takeOnto n [] e
    rcases ht : e.take n with ⟨r, e2⟩
    rw [← Endpoint.take, ht] at taken
    simp only [hold, ht]
    rcases r with bs | f | _ | _
    · exact (ih bs e2).trans taken
    · exact taken
    · exact taken
    · exact taken
  | send bs k ih =>
    have kept := Wire.pending_write e.wire bs
    rcases hw : e.wire.write bs with ⟨r, w⟩
    rw [hw] at kept
    have same : ({ e with wire := w } : Endpoint).pending = e.pending := by
      simp only [pending, kept]
    simp only [hold, hw]
    rcases r with f | _
    · exact same ▸ List.suffix_refl _
    · exact same ▸ ih { e with wire := w }
  | flush k ih =>
    have kept := Wire.pending_flush e.wire
    rcases hw : e.wire.flush with ⟨r, w⟩
    rw [hw] at kept
    have same : ({ e with wire := w } : Endpoint).pending = e.pending := by
      simp only [pending, kept]
    simp only [hold, hw]
    rcases r with f | _
    · exact same ▸ List.suffix_refl _
    · exact same ▸ ih { e with wire := w }
  | draw k ih => exact ih _ _
  | mark s k ih => exact ih _
  | ahead k ih => exact ih _ _

theorem unread_hold_octets {α : Type} {phase : Phase} {n : Nat} {k : Bytes → Dialogue α}
    {e e2 : Endpoint} {a : α} (h : (octets n k).hold phase e = (.done a, e2)) :
    e2.unread + n ≤ e.unread := by
  rcases ht : e.take n with ⟨r, e3⟩
  simp only [hold, ht] at h
  rcases r with bs | f | _ | _
  · obtain ⟨front, count⟩ := pending_take_done ht
    have rest := (pending_hold phase (k bs) e3).length_le
    simp only at h
    rw [h] at rest
    simp only at rest
    simp only [unread, ← front, List.length_append, count]
    omega
  · cases h
  · cases h
  · cases h

/-- A command that is read is gone from what is unread. -/
theorem unread_hold_read {phase : Phase} {e e2 : Endpoint} {c : Command}
    (h : Command.read.hold phase e = (.done c, e2)) : e2.unread < e.unread := by
  simp only [Command.read, Dialogue.read, bind_def, bind] at h
  have := unread_hold_octets h
  omega

end Dialogue

end ManagedTransport
