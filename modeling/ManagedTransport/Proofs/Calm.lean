import ManagedTransport.Proofs.Moves

/-!
# Calm wires

On a calm wire octets arrive in pieces and nothing goes wrong: no read, write or
flush fails, and whatever is written is taken whole.  The wire is open as long as
more may come; then a read for which there is nothing waits.  On a wire that is
closed it meets the end of the stream.

* `Calm.next_some`, `Calm.next_nothing` — taking an octet from a calm wire;
* `calm_move` — a move on a calm wire, and where it does not lead on.
-/

namespace ManagedTransport

/-- What stands behind all that has arrived on a calm wire. -/
def Arrival.ending (isOpen : Bool) : List Arrival := if isOpen then [.stall] else []

/-- An endpoint whose wire is calm, and that waits as long as it takes.  No time has
passed. -/
structure Endpoint.Calm (isOpen : Bool) (e : Endpoint) : Prop where
  arrivals : ∃ pieces : List Bytes,
    e.wire.arrivals = pieces.map Arrival.data ++ Arrival.ending isOpen
  atMost : e.wire.atMost = none
  room : e.wire.room = none
  flushes : e.wire.flushes = none
  deadline : e.deadline = none
  window : 0 < e.window
  clock : e.wire.clock = 0

namespace Wire

theorem pending_calm (isOpen : Bool) (pieces : List Bytes) :
    (pieces.map Arrival.data ++ Arrival.ending isOpen).flatMap Arrival.octets = pieces.flatten := by
  induction pieces with
  | nil => cases isOpen <;> rfl
  | cons piece pieces ih =>
      rw [List.map_cons, List.cons_append, List.flatMap_cons, ih]
      rfl

/-- Where nothing is pending a calm read waits for more, or meets the end. -/
theorem readFrom_calm_nothing (window now : Nat) (isOpen : Bool) {pieces : List Bytes}
    (h : pieces.flatten = []) :
    readFrom window none (pieces.map Arrival.data ++ Arrival.ending isOpen) now =
      (if isOpen then .stuck else .done [], Arrival.ending isOpen, now) := by
  induction pieces with
  | nil => cases isOpen <;> rfl
  | cons piece pieces ih =>
      rw [List.flatten_cons, List.append_eq_nil_iff] at h
      obtain ⟨rfl, h⟩ := h
      exact ih h

/-- Where something is pending a calm read brings the front of it, whatever comes
behind. -/
theorem readFrom_calm {window : Nat} {pieces : List Bytes}
    (hwindow : 0 < window) (h : pieces.flatten ≠ []) :
    ∃ (b : UInt8) (bs : Bytes) (rest : List Bytes), ∀ (tail : List Arrival) (now : Nat),
      readFrom window none (pieces.map Arrival.data ++ tail) now =
        (.done (b :: bs), rest.map Arrival.data ++ tail, now) := by
  induction pieces with
  | nil => exact absurd rfl h
  | cons piece pieces ih =>
      rcases piece with _ | ⟨b, bs⟩
      · exact ih h
      · obtain ⟨window, rfl⟩ := Nat.exists_eq_succ_of_ne_zero (Nat.pos_iff_ne_zero.mp hwindow)
        exact ⟨b, bs.take window, (b :: bs).drop (window + 1) :: pieces, fun _ _ => rfl⟩

/-- A calm write takes everything. -/
theorem write_calm {w : Wire} (hmost : w.atMost = none) (hroom : w.room = none) (bs : Bytes) :
    w.write bs = (.ok (), w.push bs) := by
  have hnil : ∀ w : Wire, w.room = none → w.push [] = w := by
    rintro ⟨⟩ ⟨⟩
    rfl
  by_cases hbs : bs = []
  · subst hbs
    rw [write, if_pos rfl, hnil w hroom]
  · obtain ⟨k, hk⟩ := Nat.exists_eq_succ_of_ne_zero (mt List.length_eq_zero_iff.mp hbs)
    have haccepts : w.accepts bs.length = .ok (k + 1) := by
      rw [accepts, hmost, hroom, hk, Option.getD_none, Nat.min_self]
    have htake : bs.take (k + 1) = bs := List.take_of_length_le (Nat.le_of_eq hk)
    have hdrop : bs.drop (k + 1) = [] := List.drop_of_length_le (Nat.le_of_eq hk)
    rw [write, if_neg hbs, haccepts]
    simp only [htake, hdrop]
    rw [write, if_pos rfl]

theorem flush_calm {w : Wire} (hflushes : w.flushes = none) : w.flush = (.ok (), w) := by
  unfold flush
  rw [hflushes]

end Wire

namespace Endpoint

variable {isOpen : Bool} {e : Endpoint}

/-- Other things arrive in place of the last one. -/
def endingIn (tail : List Arrival) (e : Endpoint) : Endpoint :=
  { e with wire := { e.wire with arrivals := e.wire.arrivals.dropLast ++ tail } }

/-- On a calm wire an octet that is pending can be taken, and taking it does not
depend on what comes behind. -/
theorem Calm.next_some (hc : e.Calm isOpen) (hpending : e.pending ≠ []) :
    ∃ b e2, e.next = (.done (some b), e2) ∧ e2.Calm isOpen ∧
      (isOpen = true → ∀ tail, (e.endingIn tail).next = (.done (some b), e2.endingIn tail)) := by
  rcases hh : e.held with _ | ⟨b, bs⟩
  · obtain ⟨pieces, harrivals⟩ := hc.arrivals
    rw [pending, hh, List.nil_append, Wire.pending, harrivals, Wire.pending_calm] at hpending
    obtain ⟨b, bs, rest, hread⟩ := Wire.readFrom_calm hc.window hpending
    have hnext : e.next = (.done (some b), { e with
        wire := { e.wire with arrivals := rest.map .data ++ Arrival.ending isOpen }
        held := bs }) := by
      simp only [next, hh, Wire.read, hc.deadline, harrivals, hread]
    refine ⟨b, _, hnext,
      ⟨⟨rest, rfl⟩, hc.atMost, hc.room, hc.flushes, hc.deadline, hc.window, hc.clock⟩, ?_⟩
    rintro rfl tail
    simp only [next, endingIn, hh, Wire.read, hc.deadline, harrivals, Arrival.ending, if_true,
      List.dropLast_concat, hread]
  · have hnext : e.next = (.done (some b), { e with held := bs }) := by
      simp only [next, hh]
    refine ⟨b, _, hnext,
      ⟨hc.arrivals, hc.atMost, hc.room, hc.flushes, hc.deadline, hc.window, hc.clock⟩, ?_⟩
    rintro rfl tail
    simp only [next, endingIn, hh]

/-- On a calm wire where nothing is pending a party waits for more, or meets the end. -/
theorem Calm.next_nothing (hc : e.Calm isOpen) (hpending : e.pending = []) :
    e.next.1 = (if isOpen then .stuck else .done none) ∧ e.next.2.Calm isOpen := by
  obtain ⟨hheld, hwire⟩ := List.append_eq_nil_iff.mp hpending
  obtain ⟨pieces, harrivals⟩ := hc.arrivals
  rw [Wire.pending, harrivals, Wire.pending_calm] at hwire
  have hread := Wire.readFrom_calm_nothing e.window e.wire.clock isOpen hwire
  cases isOpen with
  | true =>
      simp only [next, hheld, Wire.read, hc.deadline, harrivals, hread]
      exact ⟨rfl, ⟨[], rfl⟩, hc.atMost, hc.room, hc.flushes, rfl, hc.window, hc.clock⟩
  | false =>
      simp only [next, hheld, Wire.read, hc.deadline, harrivals, hread]
      exact ⟨rfl, ⟨[], rfl⟩, hc.atMost, hc.room, hc.flushes, rfl, hc.window, hc.clock⟩

end Endpoint

namespace Dialogue

variable {α : Type} {phase : Phase} {isOpen : Bool} {e : Endpoint}

/-- A dialogue waits for an octet. -/
def Waits : Dialogue α → Prop
  | octet _ => True
  | octets (_ + 1) _ => True
  | _ => False

/-- What comes of a move on a calm wire: it leads on, in the same way whatever
comes behind; or the dialogue has given up already; or it waits and there is nothing
pending, so that it is stuck on a wire that is open, and meets the end of one that is
closed. -/
inductive CalmMove (phase : Phase) (isOpen : Bool) (d : Dialogue α) (e : Endpoint) :
    Ending Error (Dialogue α) × Endpoint → Prop
  | leads {d2 e2} (calm : e2.Calm isOpen)
      (behind : isOpen = true → ∀ tail,
        d.move phase (e.endingIn tail) = (.done d2, e2.endingIn tail)) :
      CalmMove phase isOpen d e (.done d2, e2)
  | ended {err} (gaveUp : d = .fail err) : CalmMove phase isOpen d e (.failed err, e)
  | waits {e2} (waits : d.Waits) (nothing : e.pending = []) (more : isOpen = true) :
      CalmMove phase isOpen d e (.stuck, e2)
  | meetsEnd {f} (waits : d.Waits) (nothing : e.pending = []) (closed : isOpen = false)
      (calm : e.next.2.Calm isOpen) (taken : ∀ b, e.next.1 ≠ .done (some b)) :
      CalmMove phase isOpen d e (.failed (.network (.io phase f)), e.next.2)

theorem calm_hear {d : Dialogue α} {short : Fault} {k : UInt8 → Dialogue α}
    (hc : e.Calm isOpen) (hd : d.Waits) (hmove : ∀ e, d.move phase e = hear phase short k e) :
    CalmMove phase isOpen d e (hear phase short k e) := by
  by_cases hpending : e.pending = []
  · obtain ⟨hnext, hcalm⟩ := hc.next_nothing hpending
    have htaken : ∀ b, e.next.1 ≠ .done (some b) := by
      intro b
      rw [hnext]
      cases isOpen <;> simp
    rcases hn : e.next with ⟨r, e2⟩
    have he2 : e2 = e.next.2 := by rw [hn]
    rw [hn] at hnext
    obtain rfl := hnext
    cases isOpen with
    | true =>
        simp only [hear, hn, if_true]
        exact .waits hd hpending rfl
    | false =>
        simp only [hear, hn, Bool.false_eq_true, if_false]
        rw [he2]
        exact .meetsEnd hd hpending rfl hcalm htaken
  · obtain ⟨b, e2, hn, hcalm, hbehind⟩ := hc.next_some hpending
    simp only [hear, hn]
    refine .leads hcalm ?_
    intro hopen tail
    rw [hmove]
    simp only [hear, hbehind hopen tail]

/-- **A move on a calm wire.** -/
theorem calm_move (phase : Phase) (d : Dialogue α) (hc : e.Calm isOpen) :
    CalmMove phase isOpen d e (d.move phase e) := by
  match d with
  | done a => exact .leads hc fun _ _ => rfl
  | fail err => exact .ended rfl
  | octet k => exact calm_hear hc trivial fun _ => rfl
  | octets 0 k => exact .leads hc fun _ _ => rfl
  | octets (n + 1) k => exact calm_hear hc trivial fun _ => rfl
  | send bs k =>
      simp only [move, Wire.write_calm hc.atMost hc.room]
      refine .leads ⟨hc.arrivals, hc.atMost, ?_, hc.flushes, hc.deadline, hc.window, hc.clock⟩
        fun _ tail => ?_
      · show e.wire.room.map _ = none
        rw [hc.room]
        rfl
      · have hwrite : (e.endingIn tail).wire.write bs = (.ok (), (e.endingIn tail).wire.push bs) :=
          Wire.write_calm (w := (e.endingIn tail).wire) hc.atMost hc.room bs
        simp only [move, hwrite]
        rfl
  | flush k =>
      simp only [move, Wire.flush_calm hc.flushes]
      refine .leads hc ?_
      intro _ tail
      have hflush : (e.endingIn tail).wire.flush = (.ok (), (e.endingIn tail).wire) :=
        Wire.flush_calm hc.flushes
      simp only [move, hflush]
  | draw k =>
      exact .leads ⟨hc.arrivals, hc.atMost, hc.room, hc.flushes, hc.deadline, hc.window, hc.clock⟩
        fun _ _ => rfl
  | mark s k =>
      exact .leads ⟨hc.arrivals, hc.atMost, hc.room, hc.flushes, hc.deadline, hc.window, hc.clock⟩
        fun _ _ => rfl
  | ahead k => exact .leads hc fun _ _ => rfl

end Dialogue

end ManagedTransport
