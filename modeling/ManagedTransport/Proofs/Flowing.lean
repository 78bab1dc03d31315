import ManagedTransport.Proofs.Moves

/-!
# Flowing wires

Octets flow on a wire on which nothing but octets and pauses arrives: in whatever pieces
and after whatever pauses, everything that was sent comes through, and then the stream
ends.  A wire takes all that is written if each write takes something and there is room
for the rest; it may take one octet at a time.

* `next_flowing`, `take_flowing` — a party that waits as long as it takes is given what is
  pending, in order, and meets the end of the stream behind it;
* `write_taking`, `flush_taking` — what is written is taken whole, and nothing else changes;
* `hold_send_taking`, `hold_flush_taking` — so who says something goes on.
-/

namespace ManagedTransport

namespace Wire

/-- Nothing but octets and pauses arrives. -/
def Flowing (arrivals : List Arrival) : Prop :=
  ∀ a ∈ arrivals, (∃ bs, a = .data bs) ∨ ∃ millis, a = .pause millis

/-- Everything that is written is taken, by as many writes as it takes, and no flush fails. -/
structure Taking (w : Wire) : Prop where
  atMost : w.atMost ≠ some 0
  room : w.room = none
  flushes : w.flushes = none

/-- Where octets flow a read waits for octets that are pending, and brings nothing only
where none are. -/
theorem readFrom_flowing {window : Nat} (hwindow : 0 < window) {arrivals : List Arrival}
    (h : Flowing arrivals) (now : Nat) :
    ∃ bs rest later, readFrom window none arrivals now = (.done bs, rest, later) ∧
      Flowing rest ∧ (bs = [] → arrivals.flatMap Arrival.octets = []) := by
  induction arrivals generalizing now with
  | nil => exact ⟨[], [], now, rfl, h, fun _ => rfl⟩
  | cons a arrivals ih =>
      have hrest : Flowing arrivals := fun x hx => h x (List.mem_cons_of_mem a hx)
      rcases h a List.mem_cons_self with ⟨_ | ⟨b, bs⟩, rfl⟩ | ⟨millis, rfl⟩
      · exact ih hrest now
      · obtain ⟨window, rfl⟩ := Nat.exists_eq_succ_of_ne_zero (Nat.pos_iff_ne_zero.mp hwindow)
        refine ⟨b :: bs.take window, _, now, rfl, ?_, nofun⟩
        intro x hx
        rcases List.mem_cons.mp hx with rfl | hx
        · exact .inl ⟨_, rfl⟩
        · exact hrest x hx
      · exact ih hrest (now + millis)

theorem Taking.push {w : Wire} (h : w.Taking) (bs : Bytes) : (w.push bs).Taking := by
  refine ⟨h.atMost, ?_, h.flushes⟩
  simp only [Wire.push, h.room, Option.map_none]

/-- **What is written is taken whole**, however little a single write takes. -/
theorem write_taking {w : Wire} (h : w.Taking) (bs : Bytes) : w.write bs = (.ok (), w.push bs) := by
  fun_induction write w bs with
  | case1 w =>
      have hroom := h.room
      rcases w with ⟨arrivals, atMost, room, refusal, flushes, log, clock⟩
      subst hroom
      rfl
  | case2 w bs hne f hf => simp [accepts, h.room] at hf
  | case3 w bs hne hk =>
      have hlen : bs.length ≠ 0 := mt List.length_eq_zero_iff.mp hne
      rcases hmost : w.atMost with _ | m
      · simp [accepts, h.room, hmost, hlen] at hk
      · have hm : m ≠ 0 := fun h0 => h.atMost (hmost.trans (congrArg some h0))
        simp only [accepts, h.room, hmost, Option.getD_some, Except.ok.injEq] at hk
        omega
  | case4 w bs hne k hk ih => rw [ih (h.push _), push_push, List.take_append_drop]

theorem flush_taking {w : Wire} (h : w.Taking) : w.flush = (.ok (), w) := by
  simp only [flush, h.flushes]

end Wire

namespace Endpoint

/-- A party that waits as long as it takes, on a wire on which octets flow. -/
structure Flowing (e : Endpoint) : Prop where
  arrivals : Wire.Flowing e.wire.arrivals
  deadline : e.deadline = none
  window : 0 < e.window

/-- A party has been given these octets and is on a flowing wire still.  Nothing else
has changed but the time, and what is held. -/
structure Given (bs : Bytes) (e e2 : Endpoint) : Prop where
  octets : e.pending = bs ++ e2.pending
  flowing : e2.Flowing
  same : ∃ arrivals clock held, e2 =
    { e with wire := { e.wire with arrivals := arrivals, clock := clock }, held := held }

variable {e e2 e3 : Endpoint} {as bs : Bytes}

theorem Given.refl (h : e.Flowing) : Given [] e e := ⟨rfl, h, _, _, _, rfl⟩

theorem Given.trans (h : Given as e e2) (h2 : Given bs e2 e3) : Given (as ++ bs) e e3 := by
  obtain ⟨arrivals, clock, held, rfl⟩ := h.same
  obtain ⟨arrivals2, clock2, held2, rfl⟩ := h2.same
  refine ⟨?_, h2.flowing, arrivals2, clock2, held2, rfl⟩
  rw [h.octets, h2.octets, List.append_assoc]

/-- Behind what was given stands the rest. -/
theorem Given.left {rest : Bytes} (h : Given bs e e2) (hpending : e.pending = bs ++ rest) :
    e2.pending = rest :=
  List.append_cancel_left (h.octets.symm.trans hpending)

/-- The wire of a party that was given octets takes what it took before. -/
theorem Given.taking (h : Given bs e e2) (ht : e.wire.Taking) : e2.wire.Taking := by
  obtain ⟨arrivals, clock, held, rfl⟩ := h.same
  exact ⟨ht.atMost, ht.room, ht.flushes⟩

/-- Where octets flow the one that stands in front is given, and where none is pending
the stream ends. -/
theorem next_flowing (h : e.Flowing) :
    match e.pending with
    | [] => ∃ e2, e.next = (.done none, e2) ∧ Given [] e e2
    | b :: _ => ∃ e2, e.next = (.done (some b), e2) ∧ Given [b] e e2 := by
  rcases hheld : e.held with _ | ⟨b, held⟩
  · obtain ⟨bs, rest, later, hread, hrest, hnothing⟩ :=
      Wire.readFrom_flowing h.window h.arrivals e.wire.clock
    have hoctets := Wire.readFrom_octets e.window none e.wire.arrivals e.wire.clock
    simp only [hread] at hoctets
    have hpending : e.pending = bs ++ rest.flatMap Arrival.octets := by
      rw [hoctets, pending, hheld]
      rfl
    have hwire : e.wire.read e.window e.deadline =
        (.done bs, { e.wire with arrivals := rest, clock := later }) := by
      simp only [Wire.read, h.deadline, hread]
    have hflowing : ∀ held, Flowing
        { e with wire := { e.wire with arrivals := rest, clock := later }, held := held } :=
      fun _ => ⟨hrest, h.deadline, h.window⟩
    rcases bs with _ | ⟨b, bs⟩
    · have hrestNil : rest.flatMap Arrival.octets = [] := hoctets.trans (hnothing rfl)
      rw [hpending, hrestNil, List.append_nil]
      refine ⟨{ e with wire := { e.wire with arrivals := rest, clock := later } }, ?_, ?_⟩
      · simp only [next, hheld, hwire]
      · refine ⟨?_, hflowing e.held, rest, later, e.held, rfl⟩
        rw [hpending, pending, hheld]
        rfl
    · rw [hpending]
      refine ⟨{ e with wire := { e.wire with arrivals := rest, clock := later }, held := bs },
        ?_, hpending, hflowing bs, rest, later, bs, rfl⟩
      simp only [next, hheld, hwire]
  · have hpending : e.pending = b :: (held ++ e.wire.pending) := by
      rw [pending, hheld, List.cons_append]
    rw [hpending]
    refine ⟨{ e with held := held }, by simp only [next, hheld], hpending, ?_, _, _, _, rfl⟩
    exact ⟨h.arrivals, h.deadline, h.window⟩

theorem next_flowing_cons {b : UInt8} {rest : Bytes} (h : e.Flowing)
    (hpending : e.pending = b :: rest) :
    ∃ e2, e.next = (.done (some b), e2) ∧ Given [b] e e2 := by
  simpa only [hpending] using e.next_flowing h

theorem next_flowing_nil (h : e.Flowing) (hpending : e.pending = []) :
    ∃ e2, e.next = (.done none, e2) ∧ Given [] e e2 := by
  simpa only [hpending] using e.next_flowing h

theorem takeOnto_flowing {n : Nat} {bs rest : Bytes} (h : e.Flowing) (hlen : bs.length = n)
    (hpending : e.pending = bs ++ rest) (taken : Bytes) :
    ∃ e2, takeOnto n taken e = (.done (taken.reverse ++ bs), e2) ∧ Given bs e e2 := by
  induction n generalizing e bs taken with
  | zero =>
      obtain rfl := List.length_eq_zero_iff.mp hlen
      exact ⟨e, by simp [takeOnto], .refl h⟩
  | succ n ih =>
      rcases bs with _ | ⟨b, bs⟩
      · cases hlen
      · obtain ⟨e2, hnext, hgiven⟩ := next_flowing_cons h hpending
        have hpending2 : e2.pending = bs ++ rest := hgiven.left hpending
        obtain ⟨e3, htake, hgiven2⟩ :=
          ih hgiven.flowing (Nat.succ.inj hlen) hpending2 (b :: taken)
        refine ⟨e3, ?_, hgiven.trans hgiven2⟩
        simp only [takeOnto, hnext, htake, List.reverse_cons, List.append_assoc,
          List.singleton_append]

/-- **Octets that are pending are given**, so many as are asked for. -/
theorem take_flowing {bs rest : Bytes} (h : e.Flowing) (hpending : e.pending = bs ++ rest) :
    ∃ e2, e.take bs.length = (.done bs, e2) ∧ Given bs e e2 :=
  takeOnto_flowing h rfl hpending []

theorem takeOnto_flowing_short {n : Nat} (h : e.Flowing) (hshort : e.pending.length < n)
    (taken : Bytes) :
    ∃ e2, takeOnto n taken e = (.failed .earlyEnd, e2) ∧ Given e.pending e e2 := by
  induction n generalizing e taken with
  | zero => omega
  | succ n ih =>
      rcases hp : e.pending with _ | ⟨b, bs⟩
      · obtain ⟨e2, hnext, hgiven⟩ := next_flowing_nil h hp
        exact ⟨e2, by simp only [takeOnto, hnext], hgiven⟩
      · obtain ⟨e2, hnext, hgiven⟩ := next_flowing_cons h hp
        have hpending2 : e2.pending = bs := hgiven.left hp
        have hshort2 : e2.pending.length < n := by
          rw [hp, List.length_cons] at hshort
          rw [hpending2]
          omega
        obtain ⟨e3, htake, hgiven2⟩ := ih hgiven.flowing hshort2 (b :: taken)
        rw [hpending2] at hgiven2
        exact ⟨e3, by simp only [takeOnto, hnext, htake], hgiven.trans hgiven2⟩

/-- **Where fewer octets are pending than are asked for the stream ends early**, and
those that there are have been taken. -/
theorem take_flowing_short {n : Nat} (h : e.Flowing) (hshort : e.pending.length < n) :
    ∃ e2, e.take n = (.failed .earlyEnd, e2) ∧ Given e.pending e e2 :=
  takeOnto_flowing_short h hshort []

end Endpoint

namespace Dialogue

variable {α : Type} {e : Endpoint}

/-- What is said is taken, and the dialogue goes on. -/
theorem hold_send_taking (h : e.wire.Taking) (phase : Phase) (bs : Bytes) (k : Dialogue α) :
    (send bs k).hold phase e = k.hold phase { e with wire := e.wire.push bs } := by
  simp only [hold, Wire.write_taking h]

theorem hold_flush_taking (h : e.wire.Taking) (phase : Phase) (k : Dialogue α) :
    (flush k).hold phase e = k.hold phase e := by
  simp only [hold, Wire.flush_taking h]

end Dialogue

end ManagedTransport
