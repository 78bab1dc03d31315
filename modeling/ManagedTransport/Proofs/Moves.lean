import ManagedTransport.Endpoint
import Mathlib.Logic.Relation

/-!
# Dialogues, move by move

`hold` carries a dialogue out in one go.  Where parties take turns, or where
one asks what had happened up to some moment, a dialogue has to be carried out
move by move: a move does the first thing that the dialogue asks for, and of
several octets it takes one.

* `write_sent`, `next_frame` — what writing, flushing and reading do to an
  endpoint, and what they leave alone;
* `hold_eq_move` — holding a dialogue is making its first move and holding what
  is left of it;
* `hold_reaches` — hence holding a dialogue passes through the places that
  moves reach, and ends with the last move.
-/

namespace ManagedTransport

namespace Wire

theorem log_read (window : Nat) (deadline : Option Nat) (w : Wire) :
    (w.read window deadline).2.log = w.log := rfl

@[simp] theorem sent_read (window : Nat) (deadline : Option Nat) (w : Wire) :
    (w.read window deadline).2.sent = w.sent := by
  simp only [sent, log_read]

/-- To take no octets leaves a wire as it is. -/
theorem push_nil (w : Wire) : w.push [] = w := by
  rcases w with ⟨arrivals, atMost, _ | r, refusal, flushes, log, clock⟩ <;> rfl

/-- Octets pushed one part after the other are pushed together. -/
theorem push_push (w : Wire) (as bs : Bytes) : (w.push as).push bs = w.push (as ++ bs) := by
  rcases w with ⟨arrivals, atMost, _ | r, refusal, flushes, log, clock⟩ <;>
    simp [push, Nat.sub_sub]

/-- A write sends octets from the front, and all of them if it succeeds. -/
theorem write_sent (w : Wire) (bs : Bytes) :
    ∃ p, p <+: bs ∧ (w.write bs).2.sent = w.sent ++ p ∧
      ((w.write bs).1 = .ok () → p = bs) := by
  fun_induction write w bs with
  | case1 w => exact ⟨[], List.prefix_refl _, by simp, fun _ => rfl⟩
  | case2 w bs hne f hf => exact ⟨[], List.nil_prefix, by simp, by simp⟩
  | case3 w bs hne hk => exact ⟨[], List.nil_prefix, by simp, by simp⟩
  | case4 w bs hne k hk ih =>
      obtain ⟨p, hp, hsent, hall⟩ := ih
      refine ⟨bs.take (k + 1) ++ p, ?_, ?_, ?_⟩
      · obtain ⟨q, hq⟩ := hp
        refine ⟨q, ?_⟩
        rw [List.append_assoc, hq, List.take_append_drop]
      · rw [hsent, sent_push, List.append_assoc]
      · intro hok
        rw [hall hok, List.take_append_drop]

theorem clock_write (w : Wire) (bs : Bytes) : (w.write bs).2.clock = w.clock := by
  fun_induction write w bs with
  | case4 w bs hne k hk ih => exact ih
  | _ => rfl

@[simp] theorem sent_flush (w : Wire) : w.flush.2.sent = w.sent := by
  unfold flush
  split <;> rfl

theorem clock_flush (w : Wire) : w.flush.2.clock = w.clock := by
  unfold flush
  split <;> rfl

end Wire

namespace Endpoint

/-- Taking an octet sends nothing, draws nothing, and changes neither the step
nor how the party reads. -/
theorem next_frame (e : Endpoint) :
    e.next.2.wire.sent = e.wire.sent ∧ e.next.2.supply = e.supply ∧
      e.next.2.step = e.step ∧ e.next.2.window = e.window ∧
      e.next.2.deadline = e.deadline := by
  rcases hh : e.held with _ | ⟨b, bs⟩
  · have hsent := Wire.sent_read e.window e.deadline e.wire
    rcases hr : e.wire.read e.window e.deadline with ⟨r, w⟩
    rw [hr] at hsent
    simp only [next, hh, hr]
    rcases r with (_ | ⟨b, bs⟩) | f | _ | _ <;> exact ⟨hsent, rfl, rfl, rfl, rfl⟩
  · simp [next, hh]

/-- Where no octet is taken what is held stays as it is. -/
theorem held_next (e : Endpoint) (h : ∀ b, e.next.1 ≠ .done (some b)) :
    e.next.2.held = e.held := by
  rcases hh : e.held with _ | ⟨b, bs⟩
  · rcases hr : e.wire.read e.window e.deadline with ⟨(_ | ⟨b, bs⟩) | f | _ | _, w⟩ <;>
      simp only [next, hh, hr] at h ⊢
    exact absurd rfl (h b)
  · simp only [next, hh] at h
    exact absurd rfl (h b)

end Endpoint

namespace Dialogue

/-- Takes one octet for a dialogue that goes on with it.  `short` is what the
end of the stream is reported as. -/
def hear {α : Type} (phase : Phase) (short : Fault) (k : UInt8 → Dialogue α) (e : Endpoint) :
    Ending Error (Dialogue α) × Endpoint :=
  match e.next with
  | (.done (some b), e) => (.done (k b), e)
  | (.done none, e) => (.failed (.network (.io phase short)), e)
  | (.failed f, e) => (.failed (.network (.io phase f)), e)
  | (.late, e) => (.late, e)
  | (.stuck, e) => (.stuck, e)

/-- One move: the first thing that a dialogue asks for is done, and of several
octets one is taken.  A dialogue that is done stays as it is. -/
def move {α : Type} (phase : Phase) : Dialogue α → Endpoint → Ending Error (Dialogue α) × Endpoint
  | done a, e => (.done (done a), e)
  | fail err, e => (.failed err, e)
  | octet k, e => hear phase .noOctet k e
  | octets 0 k, e => (.done (k []), e)
  | octets (n + 1) k, e => hear phase .earlyEnd (fun b => octets n fun bs => k (b :: bs)) e
  | send bs k, e =>
    match e.wire.write bs with
    | (.ok (), w) => (.done k, { e with wire := w })
    | (.error f, w) => (.failed (.network (.io phase f)), { e with wire := w })
  | flush k, e =>
    match e.wire.flush with
    | (.ok (), w) => (.done k, { e with wire := w })
    | (.error f, w) => (.failed (.network (.io phase f)), { e with wire := w })
  | draw k, e => (.done (k e.supply.draw.1), { e with supply := e.supply.draw.2 })
  | mark s k, e => (.done k, { e with step := s })
  | ahead k, e => (.done (k e.held.length), e)

/-- Taking an octet takes it from the front of what is pending, and does no more. -/
theorem hear_frame {α : Type} (phase : Phase) (short : Fault) (k : UInt8 → Dialogue α)
    (e : Endpoint) :
    (hear phase short k e).2.pending <:+ e.pending ∧
      (hear phase short k e).2.wire.sent = e.wire.sent ∧
      (hear phase short k e).2.supply = e.supply := by
  obtain ⟨hsent, hsupply, -, -, -⟩ := e.next_frame
  have hnothing := Endpoint.pending_next e
  rcases hn : e.next with ⟨(_ | b) | f | _ | _, e2⟩
  all_goals
    rw [hn] at hsent hsupply hnothing
    simp only [hear, hn]
    refine ⟨?_, hsent, hsupply⟩
  case done.some => exact Endpoint.pending_next_some hn ▸ List.suffix_cons b _
  all_goals exact hnothing (by simp) ▸ List.suffix_refl _

/-- A move takes octets from the front of what is pending, adds to what is sent,
and only draws from the supply. -/
theorem move_frame {α : Type} (phase : Phase) (d : Dialogue α) (e : Endpoint) :
    (d.move phase e).2.pending <:+ e.pending ∧
      e.wire.sent <+: (d.move phase e).2.wire.sent ∧
      e.supply.drawn ≤ (d.move phase e).2.supply.drawn := by
  have hhear : ∀ (short : Fault) (k : UInt8 → Dialogue α),
      (hear phase short k e).2.pending <:+ e.pending ∧
        e.wire.sent <+: (hear phase short k e).2.wire.sent ∧
        e.supply.drawn ≤ (hear phase short k e).2.supply.drawn := by
    intro short k
    obtain ⟨hpending, hsent, hsupply⟩ := hear_frame phase short k e
    exact ⟨hpending, hsent ▸ List.prefix_refl _, Nat.le_of_eq (by rw [hsupply])⟩
  match d with
  | octet k => exact hhear _ _
  | octets (n + 1) k => exact hhear _ _
  | send bs k =>
      obtain ⟨p, -, hsent, -⟩ := Wire.write_sent e.wire bs
      have hpending := Wire.pending_write e.wire bs
      rcases hw : e.wire.write bs with ⟨f | _, w⟩ <;>
      · rw [hw] at hsent hpending
        simp only [move, hw, Endpoint.pending, hpending]
        exact ⟨List.suffix_refl _, ⟨p, hsent.symm⟩, Nat.le_refl _⟩
  | flush k =>
      have hsent := Wire.sent_flush e.wire
      have hpending := Wire.pending_flush e.wire
      rcases hw : e.wire.flush with ⟨f | _, w⟩ <;>
      · rw [hw] at hsent hpending
        simp only [move, hw, Endpoint.pending, hpending]
        exact ⟨List.suffix_refl _, hsent ▸ List.prefix_refl _, Nat.le_refl _⟩
  | draw k => exact ⟨List.suffix_refl _, List.prefix_refl _, Nat.le_succ _⟩
  | octets 0 k | done a | fail err | mark s k | ahead k =>
      exact ⟨List.suffix_refl _, List.prefix_refl _, Nat.le_refl _⟩

/-- What comes of a dialogue once its first move is made. -/
def andHold {α : Type} (phase : Phase) :
    Ending Error (Dialogue α) × Endpoint → Ending Error α × Endpoint
  | (.done d, e) => d.hold phase e
  | (.failed err, e) => (.failed err, e)
  | (.late, e) => (.late, e)
  | (.stuck, e) => (.stuck, e)

/-- Octets taken before stand in front of those taken now. -/
theorem takeOnto_cons (n : Nat) (b : UInt8) (taken : Bytes) (e : Endpoint) :
    Endpoint.takeOnto n (taken ++ [b]) e =
      match Endpoint.takeOnto n taken e with
      | (.done bs, e) => (.done (b :: bs), e)
      | (.failed f, e) => (.failed f, e)
      | (.late, e) => (.late, e)
      | (.stuck, e) => (.stuck, e) := by
  induction n generalizing taken e with
  | zero => simp [Endpoint.takeOnto]
  | succ n ih =>
      rcases hn : e.next with ⟨(_ | c) | f | _ | _, e2⟩
      · simp only [Endpoint.takeOnto, hn]
      · simpa only [Endpoint.takeOnto, hn, List.cons_append] using ih (c :: taken) e2
      all_goals simp only [Endpoint.takeOnto, hn]

/-- **Holding is moving.**  To hold a dialogue is to make its first move and to
hold what is left of it. -/
theorem hold_eq_move {α : Type} (phase : Phase) (d : Dialogue α) (e : Endpoint) :
    d.hold phase e = andHold phase (d.move phase e) := by
  match d with
  | done a => rfl
  | fail err => rfl
  | octet k =>
      rcases hn : e.next with ⟨(_ | b) | f | _ | _, e2⟩ <;>
        simp only [hold, move, hear, andHold, hn]
  | octets 0 k => rfl
  | octets (n + 1) k =>
      have hcons := fun b => takeOnto_cons n b []
      simp only [List.nil_append] at hcons
      rcases hn : e.next with ⟨(_ | b) | f | _ | _, e2⟩
      · simp only [hold, move, hear, andHold, hn, Endpoint.take, Endpoint.takeOnto]
      · simp only [hold, move, hear, andHold, hn, Endpoint.take, Endpoint.takeOnto, hcons]
        rcases Endpoint.takeOnto n [] e2 with ⟨bs | f | _ | _, e3⟩ <;> rfl
      all_goals simp only [hold, move, hear, andHold, hn, Endpoint.take, Endpoint.takeOnto]
  | send bs k =>
      rcases hw : e.wire.write bs with ⟨f | _, w⟩ <;> simp only [hold, move, andHold, hw]
  | flush k =>
      rcases hw : e.wire.flush with ⟨f | _, w⟩ <;> simp only [hold, move, andHold, hw]
  | draw k => rfl
  | mark s k => rfl
  | ahead k => rfl

/-- One dialogue and its endpoint lead to others by a move. -/
def Leads {α : Type} (phase : Phase) (x y : Dialogue α × Endpoint) : Prop :=
  x.1.move phase x.2 = (.done y.1, y.2)

/-- Moves lead from one place to another. -/
abbrev Reaches {α : Type} (phase : Phase) : Dialogue α × Endpoint → Dialogue α × Endpoint → Prop :=
  Relation.ReflTransGen (Leads phase)

/-- How a dialogue ends at the place that moves have reached: it is done, or
its next move does not lead on. -/
def EndsAt {α : Type} (phase : Phase) (x : Dialogue α × Endpoint) :
    Ending Error α × Endpoint → Prop
  | (.done a, e) => x = (done a, e)
  | (.failed err, e) => x.1.move phase x.2 = (.failed err, e)
  | (.late, e) => x.1.move phase x.2 = (.late, e)
  | (.stuck, e) => x.1.move phase x.2 = (.stuck, e)

/-- From a place that is one move away the end is the same. -/
theorem Leads.hold_eq {α : Type} {phase : Phase} {x y : Dialogue α × Endpoint}
    (h : Leads phase x y) : x.1.hold phase x.2 = y.1.hold phase y.2 := by
  rw [hold_eq_move, show x.1.move phase x.2 = _ from h]
  rfl

/-- A move that does not lead on is the end. -/
theorem endsAt_of_move {α : Type} {phase : Phase} {d : Dialogue α} {e : Endpoint}
    (hne : ∀ d2 e2, d.move phase e ≠ (.done d2, e2)) :
    EndsAt phase (d, e) (d.hold phase e) := by
  rw [hold_eq_move]
  rcases hm : d.move phase e with ⟨d2 | err | _ | _, e2⟩
  · exact absurd hm (hne d2 e2)
  all_goals exact hm

/-- Where moves from the next place end, moves from here end. -/
theorem Leads.reaches_end {α : Type} {phase : Phase} {x y : Dialogue α × Endpoint}
    (h : Leads phase x y)
    (hend : ∃ z, Reaches phase y z ∧ EndsAt phase z (y.1.hold phase y.2)) :
    ∃ z, Reaches phase x z ∧ EndsAt phase z (x.1.hold phase x.2) := by
  obtain ⟨z, hreach, hz⟩ := hend
  exact ⟨z, .head h hreach, h.hold_eq ▸ hz⟩

/-- Holding a request for one octet ends if holding what follows each octet does. -/
theorem hear_reaches_end {α : Type} {phase : Phase} {d : Dialogue α} {short : Fault}
    {k : UInt8 → Dialogue α} {e : Endpoint} (hd : d.move phase e = hear phase short k e)
    (ih : ∀ b e, ∃ z, Reaches phase (k b, e) z ∧ EndsAt phase z ((k b).hold phase e)) :
    ∃ z, Reaches phase (d, e) z ∧ EndsAt phase z (d.hold phase e) := by
  rcases hn : e.next with ⟨(_ | b) | f | _ | _, e2⟩
  case done.some =>
    have hlead : Leads phase (d, e) (k b, e2) := by
      show d.move phase e = _
      rw [hd, hear, hn]
    exact hlead.reaches_end (ih b e2)
  all_goals
    refine ⟨(d, e), .refl, endsAt_of_move ?_⟩
    intro d2 e3 hm
    rw [hd, hear, hn] at hm
    cases hm

/-- **Holding passes through moves.**  Moves lead from a dialogue to the place
where holding it ends. -/
theorem hold_reaches {α : Type} (phase : Phase) (d : Dialogue α) (e : Endpoint) :
    ∃ x, Reaches phase (d, e) x ∧ EndsAt phase x (d.hold phase e) := by
  induction d generalizing e with
  | done a => exact ⟨_, .refl, rfl⟩
  | fail err => exact ⟨_, .refl, rfl⟩
  | octet k ih => exact hear_reaches_end rfl ih
  | octets n k ih =>
      -- the octets are taken one by one, each with its own rest of the dialogue
      induction n generalizing k e with
      | zero =>
          have hlead : Leads phase (octets 0 k, e) (k [], e) := rfl
          exact hlead.reaches_end (ih [] e)
      | succ n ihn =>
          exact hear_reaches_end rfl fun b e2 => ihn _ (fun bs e3 => ih (b :: bs) e3) e2
  | send bs k ih =>
      rcases hw : e.wire.write bs with ⟨f | _, w⟩
      · refine ⟨_, .refl, endsAt_of_move ?_⟩
        intro d2 e2 hm
        simp only [move, hw] at hm
        cases hm
      · have hlead : Leads phase (send bs k, e) (k, { e with wire := w }) := by
          simp only [Leads, move, hw]
        exact hlead.reaches_end (ih _)
  | flush k ih =>
      rcases hw : e.wire.flush with ⟨f | _, w⟩
      · refine ⟨_, .refl, endsAt_of_move ?_⟩
        intro d2 e2 hm
        simp only [move, hw] at hm
        cases hm
      · have hlead : Leads phase (flush k, e) (k, { e with wire := w }) := by
          simp only [Leads, move, hw]
        exact hlead.reaches_end (ih _)
  | draw k ih =>
      have hlead : Leads phase (draw k, e)
          (k e.supply.draw.1, { e with supply := e.supply.draw.2 }) := rfl
      exact hlead.reaches_end (ih _ _)
  | mark s k ih =>
      have hlead : Leads phase (mark s k, e) (k, { e with step := s }) := rfl
      exact hlead.reaches_end (ih _)
  | ahead k ih =>
      have hlead : Leads phase (ahead k, e) (k e.held.length, e) := rfl
      exact hlead.reaches_end (ih _ _)

end Dialogue

end ManagedTransport
