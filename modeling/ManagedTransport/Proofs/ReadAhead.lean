import ManagedTransport.Proofs.Flowing
import ManagedTransport.SafeCookie.Client

/-!
# What stands behind an octet

A client that authenticates reads ahead, so what it holds behind an octet depends on how
the octets are cut.  A read brings one piece of them, or a portion of a piece that is
longer than the client reads ahead.  So the arrivals alone tell what will be held behind
each octet.

* `Wire.behind` — how many octets the read that brings an octet brings behind it;
* `Endpoint.behind_take` — taking octets, a client comes to hold that many;
* `Endpoint.Came` — how far a client has come on a wire on which octets flow, and what it
  will hold behind the octets that are still to come.
-/

namespace ManagedTransport

open SafeCookie

namespace Wire

/-- Where a portion of what is read ahead ends that octet number `n` of a piece is in. -/
def portionEnd (n : Nat) : Nat := (n + (readAheadSize - 1)) / readAheadSize * readAheadSize

/-- How many octets the read that brings octet number `n` brings behind it, to a client
that authenticates: a read goes to the end of a piece, or of a portion of it. -/
def behind : Nat → List Arrival → Nat
  | _, [] => 0
  | n, a :: arrivals =>
    if n ≤ a.octets.length then min a.octets.length (portionEnd n) - n
    else behind (n - a.octets.length) arrivals

@[simp] theorem behind_zero (arrivals : List Arrival) : behind 0 arrivals = 0 := by
  rcases arrivals with _ | ⟨a, arrivals⟩
  · rfl
  · rw [behind, if_pos (Nat.zero_le _), show portionEnd 0 = 0 from by decide, Nat.min_zero]

/-- An arrival without octets makes no difference. -/
theorem behind_skip {a : Arrival} (h : a.octets = []) (n : Nat) (arrivals : List Arrival) :
    behind n (a :: arrivals) = behind n arrivals := by
  rcases n with _ | n
  · rw [behind_zero, behind_zero]
  · rw [behind, h, List.length_nil, if_neg (Nat.not_succ_le_zero n), Nat.sub_zero]

theorem behind_data (n : Nat) (bs : Bytes) (arrivals : List Arrival) :
    behind n (.data bs :: arrivals) =
      if n ≤ bs.length then min bs.length (portionEnd n) - n
      else behind (n - bs.length) arrivals := rfl

/-- Behind the first octet of a piece stands its first portion, and behind that the rest. -/
theorem behind_piece (c : UInt8) (cs : Bytes) (n : Nat) (arrivals : List Arrival) :
    behind (n + 1) (.data (c :: cs) :: arrivals) =
      if n ≤ (cs.take (readAheadSize - 1)).length then (cs.take (readAheadSize - 1)).length - n
      else behind (n - (cs.take (readAheadSize - 1)).length)
        (.data (cs.drop (readAheadSize - 1)) :: arrivals) := by
  simp only [behind_data, List.length_cons, List.length_take, List.length_drop, portionEnd,
    readAheadSize]
  -- the octet is in the first portion, in a later one of the piece, or behind the piece
  by_cases hportion : n ≤ min (8192 - 1) cs.length
  · rw [if_pos hportion, if_pos (by omega)]
    omega
  · rw [if_neg hportion]
    by_cases hpiece : n ≤ cs.length
    · rw [if_pos (by omega), if_pos (by omega)]
      omega
    · rw [if_neg (by omega), if_neg (by omega)]
      exact congrArg (behind · arrivals) (by omega)

/-- A read brings the octet that it was asked for and those behind it in the portion, and
leaves later ones where they stand. -/
theorem behind_readFrom {deadline : Option Nat} {arrivals rest : List Arrival} {now later : Nat}
    {b : UInt8} {bs : Bytes}
    (h : readFrom readAheadSize deadline arrivals now = (.done (b :: bs), rest, later)) (n : Nat) :
    behind (n + 1) arrivals =
      if n ≤ bs.length then bs.length - n else behind (n - bs.length) rest := by
  fun_induction readFrom readAheadSize deadline arrivals now with
  | case2 _ arrivals ih => rw [behind_skip rfl, ih h]
  | case3 _ cs arrivals =>
      obtain ⟨hbs, hrest, -⟩ := Prod.mk.inj h |>.imp_right Prod.mk.inj
      cases hbs
      subst hrest
      exact behind_piece b cs n arrivals
  | case5 _ _ _ _ ih => rw [behind_skip rfl, ih h]
  | case1 | case4 | case6 | case7 | case8 => cases h

end Wire

namespace Endpoint

/-- How many octets a client that authenticates holds behind the next `n` once it is given
them. -/
def behind (n : Nat) (e : Endpoint) : Nat :=
  if n ≤ e.held.length then e.held.length - n else Wire.behind (n - e.held.length) e.wire.arrivals

variable {e e2 e3 : Endpoint} {bs heard said : Bytes} {draws : Nat} {s : AuthStep}

theorem behind_of_held_nil (h : e.held = []) (n : Nat) :
    e.behind n = Wire.behind n e.wire.arrivals := by
  rw [behind, h]
  rcases n with _ | n
  · rw [Wire.behind_zero]
    rfl
  · rw [List.length_nil, if_neg (Nat.not_succ_le_zero n), Nat.sub_zero]

theorem behind_next {b : UInt8} (hwindow : e.window = readAheadSize)
    (h : e.next = (.done (some b), e2)) (n : Nat) :
    e2.behind n = e.behind (n + 1) := by
  rcases hheld : e.held with _ | ⟨c, held⟩
  · rcases hr : Wire.readFrom readAheadSize e.deadline e.wire.arrivals e.wire.clock with
      ⟨(_ | ⟨c, cs⟩) | f | _ | _, rest, later⟩ <;>
      simp only [next, hheld, Wire.read, hwindow, hr] at h <;> cases h
    rw [behind_of_held_nil hheld, Wire.behind_readFrom hr n]
    rfl
  · simp only [next, hheld] at h
    cases h
    simp only [behind, hheld, List.length_cons, Nat.add_le_add_iff_right, Nat.add_sub_add_right]

theorem behind_takeOnto {n : Nat} {taken : Bytes} (hwindow : e.window = readAheadSize)
    (h : takeOnto n taken e = (.done bs, e2)) (m : Nat) : e2.behind m = e.behind (m + n) := by
  induction n generalizing e taken with
  | zero =>
      cases h
      rfl
  | succ n ih =>
      have hframe := e.next_frame.2.2.2
      rcases hn : e.next with ⟨(_ | b) | f | _ | _, mid⟩ <;> simp only [takeOnto, hn] at h
      case done.some =>
        rw [hn] at hframe
        rw [ih (hframe.1.trans hwindow) h, behind_next hwindow hn]
        rfl
      all_goals cases h

theorem behind_take {n : Nat} (hwindow : e.window = readAheadSize)
    (h : e.take n = (.done bs, e2)) (m : Nat) : e2.behind m = e.behind (m + n) :=
  behind_takeOnto hwindow h m

/-- A party that authenticates as a client, on a wire on which octets flow and that takes
what is written. -/
structure Smooth (e : Endpoint) : Prop extends e.Flowing where
  taking : e.wire.Taking
  ahead : e.window = readAheadSize

/-- A party has come from here to there: it was given octets, has said octets, has drawn so
many blocks, and stands at this step. -/
structure Came (heard said : Bytes) (draws : Nat) (s : AuthStep) (e e2 : Endpoint) : Prop where
  smooth : e2.Smooth
  octets : e.pending = heard ++ e2.pending
  sent : e2.wire.sent = e.wire.sent ++ said
  supply : e2.supply = ⟨e.supply.octets, e.supply.drawn + draws⟩
  step : e2.step = s
  behind : ∀ n, e2.behind n = e.behind (n + heard.length)

namespace Came

theorem refl (h : e.Smooth) : Came [] [] 0 e.step e e :=
  ⟨h, rfl, (List.append_nil _).symm, rfl, rfl, fun _ => rfl⟩

theorem trans {heard2 said2 : Bytes} {draws2 : Nat} {t : AuthStep}
    (h : Came heard said draws s e e2) (h2 : Came heard2 said2 draws2 t e2 e3) :
    Came (heard ++ heard2) (said ++ said2) (draws + draws2) t e e3 := by
  refine ⟨h2.smooth, ?_, ?_, ?_, h2.step, ?_⟩
  · rw [h.octets, h2.octets, List.append_assoc]
  · rw [h2.sent, h.sent, List.append_assoc]
  · rw [h2.supply, h.supply, Nat.add_assoc]
  · intro n
    rw [h2.behind, h.behind, List.length_append]
    congr 1
    omega

/-- Behind what was given stands the rest. -/
theorem left {rest : Bytes} (h : Came heard said draws s e e2)
    (hpending : e.pending = heard ++ rest) : e2.pending = rest :=
  List.append_cancel_left (h.octets.symm.trans hpending)

/-- Noting a step brings a party there. -/
theorem mark (h : Came heard said draws s e e2) (phase : Phase) (t : AuthStep) :
    ∃ e3, (∀ {α : Type} (k : Dialogue α),
        (Dialogue.mark t k).hold phase e2 = k.hold phase e3) ∧
      Came heard said draws t e e3 := by
  refine ⟨{ e2 with step := t }, fun _ => rfl, ?_⟩
  exact ⟨⟨⟨h.smooth.arrivals, h.smooth.deadline, h.smooth.window⟩, h.smooth.taking,
    h.smooth.ahead⟩, h.octets, h.sent, h.supply, rfl, h.behind⟩

/-- Saying something, a party has said it. -/
theorem send (h : Came heard said draws s e e2) (phase : Phase) (bs : Bytes) :
    ∃ e3, (∀ {α : Type} (k : Dialogue α),
        (Dialogue.send bs k).hold phase e2 = k.hold phase e3) ∧
      Came heard (said ++ bs) draws s e e3 := by
  refine ⟨{ e2 with wire := e2.wire.push bs },
    fun k => Dialogue.hold_send_taking h.smooth.taking phase bs k, ?_⟩
  refine ⟨⟨⟨h.smooth.arrivals, h.smooth.deadline, h.smooth.window⟩, h.smooth.taking.push bs,
    h.smooth.ahead⟩, h.octets, ?_, h.supply, h.step, h.behind⟩
  rw [Wire.sent_push, h.sent, List.append_assoc]

/-- Drawing a block, a party gets the next one of its supply. -/
theorem draw (h : Came heard said draws s e e2) (phase : Phase) :
    ∃ e3, (∀ {α : Type} (k : Bytes → Dialogue α), (Dialogue.draw k).hold phase e2 =
        (k (e.supply.block (e.supply.drawn + draws))).hold phase e3) ∧
      Came heard said (draws + 1) s e e3 := by
  refine ⟨{ e2 with supply := e2.supply.draw.2 }, fun k => ?_, ?_⟩
  · rw [Dialogue.hold, h.supply]
    rfl
  · refine ⟨⟨⟨h.smooth.arrivals, h.smooth.deadline, h.smooth.window⟩, h.smooth.taking,
      h.smooth.ahead⟩, h.octets, h.sent, ?_, h.step, h.behind⟩
    rw [h.supply]
    rfl

/-- A party that was given octets has come so far without a word. -/
theorem of_given (h : e.Smooth) (hgiven : Given bs e e2)
    (hbehind : ∀ n, e2.behind n = e.behind (n + bs.length)) : Came bs [] 0 e.step e e2 := by
  have htaking := hgiven.taking h.taking
  have hoctets := hgiven.octets
  have hflowing := hgiven.flowing
  obtain ⟨arrivals, clock, held, rfl⟩ := hgiven.same
  exact ⟨⟨hflowing, htaking, h.ahead⟩, hoctets, (List.append_nil _).symm, rfl, rfl, hbehind⟩

end Came

/-- The octet in front is given. -/
theorem next_came {b : UInt8} {rest : Bytes} (h : e.Smooth) (hpending : e.pending = b :: rest) :
    ∃ e2, e.next = (.done (some b), e2) ∧ Came [b] [] 0 e.step e e2 := by
  obtain ⟨e2, hnext, hgiven⟩ := next_flowing_cons h.toFlowing hpending
  exact ⟨e2, hnext, .of_given h hgiven (behind_next h.ahead hnext)⟩

/-- Octets in front are given. -/
theorem take_came {rest : Bytes} (h : e.Smooth) (hpending : e.pending = bs ++ rest) :
    ∃ e2, e.take bs.length = (.done bs, e2) ∧ Came bs [] 0 e.step e e2 := by
  obtain ⟨e2, htake, hgiven⟩ := take_flowing h.toFlowing hpending
  exact ⟨e2, htake, .of_given h hgiven (behind_take h.ahead htake)⟩

end Endpoint

end ManagedTransport
