import ManagedTransport.Proofs.Moves
import ManagedTransport.Proofs.Undertakings

/-!
# How octets are cut

Two endpoints are recut if they differ at most in how the octets that come are cut into
pieces: which of them are held already, how many come with one read, and how many go out with
one write.  What a party is given, and what it can send, is the same for both.

* `Endpoint.singly` — the endpoint at which every octet comes by itself; to be recut is to
  have the same;
* `next_singly`, `write_eq_pour` — no octet that is taken, and no write, depends on the cut;
* `Dialogue.Wary` — a dialogue that looks at what is read ahead, if it does at all, only to
  refuse it;
* `Wary.hold` — such dialogues end alike at endpoints that are recut, unless one is refused
  what is read ahead.
-/

namespace ManagedTransport

/-- The same arrival with each of its octets by itself. -/
def Arrival.singly : Arrival → List Arrival
  | data octets => octets.map fun b => data [b]
  | pause millis => [pause millis]
  | fault f => [fault f]
  | stall => [stall]

/-- The same arrivals with each octet by itself. -/
def singly (arrivals : List Arrival) : List Arrival := arrivals.flatMap Arrival.singly

@[simp] theorem singly_nil : singly [] = [] := rfl

@[simp] theorem singly_cons (a : Arrival) (arrivals : List Arrival) :
    singly (a :: arrivals) = a.singly ++ singly arrivals := rfl

@[simp] theorem singly_append (arrivals arrivals2 : List Arrival) :
    singly (arrivals ++ arrivals2) = singly arrivals ++ singly arrivals2 := List.flatMap_append

@[simp] theorem singly_data (bs : Bytes) :
    singly (bs.map fun b => .data [b]) = bs.map fun b => .data [b] := by
  induction bs with
  | nil => rfl
  | cons b bs ih =>
      rw [List.map_cons, singly_cons, ih]
      rfl

/-- What is cut into single octets cannot be cut further. -/
theorem singly_singly (arrivals : List Arrival) : singly (singly arrivals) = singly arrivals := by
  induction arrivals with
  | nil => rfl
  | cons a arrivals ih =>
      rw [singly_cons, singly_append, ih]
      cases a with
      | data bs => rw [Arrival.singly, singly_data]
      | pause | fault | stall => rfl

theorem octets_singly (arrivals : List Arrival) :
    (singly arrivals).flatMap Arrival.octets = arrivals.flatMap Arrival.octets := by
  induction arrivals with
  | nil => rfl
  | cons a arrivals ih =>
      rw [singly_cons, List.flatMap_append, ih, List.flatMap_cons]
      congr 1
      cases a with
      | data bs => simp [Arrival.singly, Arrival.octets, List.flatMap_map]
      | pause | fault | stall => rfl

namespace Wire

/-- A read that brings octets brings the first of those that come singly, and leaves the
others; any other read comes to the same. -/
theorem readFrom_singly {window : Nat} (wide : 0 < window) (deadline : Option Nat)
    (arrivals : List Arrival) (now : Nat) :
    match readFrom window deadline arrivals now with
    | (.done (b :: bs), rest, later) => ∃ rest1,
        readFrom 1 deadline (singly arrivals) now = (.done [b], rest1, later) ∧
          singly rest1 = (bs.map fun b => .data [b]) ++ singly rest
    | (r, rest, later) => readFrom 1 deadline (singly arrivals) now = (r, singly rest, later) := by
  fun_induction readFrom window deadline arrivals now with
  | case1 | case6 => rfl
  | case2 rest now ih => exact ih
  | case3 b bs rest now =>
      obtain ⟨w, rfl⟩ : ∃ w, window = w + 1 := ⟨window - 1, by omega⟩
      refine ⟨_, rfl, ?_⟩
      have hcut : ∀ bs : Bytes, (bs.map fun b => Arrival.data [b]) =
          ((bs.take w).map fun b => .data [b]) ++ (bs.drop w).map fun b => .data [b] := by
        intro bs
        rw [← List.map_append, List.take_append_drop]
      show singly ([.data []] ++ ((bs.map fun b => .data [b]) ++ singly rest)) = _
      rw [singly_append, singly_append, singly_singly, singly_data, hcut bs, List.append_assoc]
      rfl
  | case4 millis rest now hlate =>
      show readFrom 1 deadline (.pause millis :: singly rest) now = _
      rw [readFrom, if_pos hlate]
      rfl
  | case5 millis rest now hin ih =>
      have hsame : readFrom 1 deadline (singly (.pause millis :: rest)) now =
          readFrom 1 deadline (singly rest) (now + millis) := by
        show readFrom 1 deadline (.pause millis :: singly rest) now = _
        rw [readFrom, if_neg hin]
      rw [hsame]
      exact ih
  | case7 rest now =>
      subst_vars
      rfl
  | case8 rest now limit =>
      subst_vars
      rfl

/-- What comes of writing octets on a wire that takes something with every write as long as
there is room: as much goes out as there is room for. -/
def pour (w : Wire) (bs : Bytes) : Except Fault Unit × Wire :=
  match w.room with
  | none => (.ok (), w.push bs)
  | some r =>
    if bs.length ≤ r then (.ok (), w.push bs)
    else (.error (w.refusal.getD .nothingTaken), w.push (bs.take r))

/-- What one write takes: nothing if there is no room, and else something that there is room
for. -/
theorem accepts_able {w : Wire} {n : Nat} (able : w.atMost ≠ some 0) (hn : 0 < n) :
    (w.room = some 0 ∧ (w.accepts n = .ok 0 ∧ w.refusal = none ∨
        ∃ f, w.accepts n = .error f ∧ w.refusal = some f)) ∨
      ∃ k, w.accepts n = .ok (k + 1) ∧ k + 1 ≤ n ∧ ∀ r, w.room = some r → k + 1 ≤ r := by
  obtain ⟨k, hk⟩ : ∃ k, min n (w.atMost.getD n) = k + 1 := by
    refine Nat.exists_eq_succ_of_ne_zero ?_
    rcases hm : w.atMost with _ | m
    · simp only [Option.getD_none]
      omega
    · have hm0 : m ≠ 0 := by
        rintro rfl
        exact able hm
      simp only [Option.getD_some]
      omega
  rcases hroom : w.room with _ | _ | r
  · refine .inr ⟨k, by rw [accepts, hroom, hk], by omega, by simp⟩
  · refine .inl ⟨rfl, ?_⟩
    rcases hrefusal : w.refusal with _ | f
    · exact .inl ⟨by simp only [accepts, hroom, hrefusal], rfl⟩
    · exact .inr ⟨f, by simp only [accepts, hroom, hrefusal], rfl⟩
  · refine .inr ⟨min k r, ?_, by omega, fun r2 hr2 => ?_⟩
    · rw [accepts, hroom, hk]
      simp only [Except.ok.injEq]
      omega
    · cases hr2
      omega

/-- Octets that there is room for may go out first. -/
theorem pour_push {w : Wire} {bs : Bytes} {n : Nat} (hn : n ≤ bs.length)
    (hroom : ∀ r, w.room = some r → n ≤ r) :
    (w.push (bs.take n)).pour (bs.drop n) = w.pour bs := by
  have hlen : (bs.take n).length = n := List.length_take_of_le hn
  have hpush : (w.push (bs.take n)).room = w.room.map (· - n) := by
    rw [← hlen]
    simp [push]
  rcases hr : w.room with _ | r
  · simp only [pour, hpush, hr, Option.map_none, push_push, List.take_append_drop]
  · have hfits := hroom r hr
    have hsame : (bs.drop n).length ≤ r - n ↔ bs.length ≤ r := by
      rw [List.length_drop]
      omega
    have htake : bs.take n ++ (bs.drop n).take (r - n) = bs.take r := by
      rw [← List.take_add, Nat.add_sub_cancel' hfits]
    have hrefusal : (w.push (bs.take n)).refusal = w.refusal := rfl
    simp only [pour, hpush, hr, Option.map_some, hsame, push_push, List.take_append_drop, htake,
      hrefusal]

/-- **What goes out** does not depend on how much one write takes. -/
theorem write_eq_pour {w : Wire} (able : w.atMost ≠ some 0) (bs : Bytes) :
    w.write bs = w.pour bs := by
  fun_induction write w bs with
  | case1 w => rcases hr : w.room with _ | r <;> simp [pour, hr, push_nil]
  | case2 w bs hne f hf =>
      rcases accepts_able able (List.length_pos_iff.mpr hne) with
        ⟨hroom, ⟨h, -⟩ | ⟨f2, h, hrefusal⟩⟩ | ⟨k, h, -, -⟩ <;> cases hf.symm.trans h
      simp [pour, hroom, hrefusal, hne, push_nil]
  | case3 w bs hne hk =>
      rcases accepts_able able (List.length_pos_iff.mpr hne) with
        ⟨hroom, ⟨h, hrefusal⟩ | ⟨f2, h, -⟩⟩ | ⟨k, h, -, -⟩ <;> cases hk.symm.trans h
      simp [pour, hroom, hrefusal, hne, push_nil]
  | case4 w bs hne k hk ih =>
      rcases accepts_able able (List.length_pos_iff.mpr hne) with
        ⟨-, ⟨h, -⟩ | ⟨f2, h, -⟩⟩ | ⟨k2, h, hle, hroom⟩ <;> cases hk.symm.trans h
      rw [ih able]
      exact pour_push hle hroom

/-- The wire with other things to arrive, and with another bound on what one write takes. -/
def reframe (arrivals : List Arrival) (atMost : Option Nat) (w : Wire) : Wire :=
  { w with arrivals := arrivals, atMost := atMost }

/-- What goes out has nothing to do with what arrives. -/
theorem pour_reframe (arrivals : List Arrival) (atMost : Option Nat) (w : Wire) (bs : Bytes) :
    (w.reframe arrivals atMost).pour bs =
      ((w.pour bs).1, (w.pour bs).2.reframe arrivals atMost) := by
  rcases hr : w.room with _ | r
  · simp only [pour, reframe, hr, push]
  · by_cases hfits : bs.length ≤ r
    · simp only [pour, reframe, hr, push, if_pos hfits]
    · simp only [pour, reframe, hr, push, if_neg hfits]

theorem flush_reframe (arrivals : List Arrival) (atMost : Option Nat) (w : Wire) :
    (w.reframe arrivals atMost).flush = (w.flush.1, w.flush.2.reframe arrivals atMost) := by
  rcases hf : w.flushes with _ | ⟨_ | n, f⟩ <;> simp only [flush, reframe, hf]

/-- Writing and flushing do not change what arrives, nor how much one write takes. -/
theorem pour_frame (w : Wire) (bs : Bytes) :
    (w.pour bs).2.arrivals = w.arrivals ∧ (w.pour bs).2.atMost = w.atMost := by
  rcases hr : w.room with _ | r
  · simp only [pour, hr, push, and_self]
  · by_cases hfits : bs.length ≤ r
    · simp only [pour, hr, push, if_pos hfits, and_self]
    · simp only [pour, hr, push, if_neg hfits, and_self]

theorem flush_frame (w : Wire) :
    w.flush.2.arrivals = w.arrivals ∧ w.flush.2.atMost = w.atMost := by
  rcases hf : w.flushes with _ | ⟨_ | n, f⟩ <;> simp only [flush, hf, and_self]

end Wire

namespace Endpoint

/-- The endpoint at which every octet comes by itself, and one write takes all. -/
def singly (e : Endpoint) : Endpoint :=
  { e with
    wire := e.wire.reframe (ManagedTransport.singly (.data e.held :: e.wire.arrivals)) none
    held := []
    window := 1 }

/-- A read can bring something, and a write can take something. -/
structure Able (e : Endpoint) : Prop where
  reads : 0 < e.window
  writes : e.wire.atMost ≠ some 0

variable {e e2 : Endpoint}

/-- What is taken does not depend on the cut. -/
theorem next_singly (able : e.Able) :
    e.singly.next.1 = e.next.1 ∧ e.singly.next.2.singly = e.next.2.singly := by
  rcases hh : e.held with _ | ⟨b, bs⟩
  · have hread := Wire.readFrom_singly able.reads e.deadline e.wire.arrivals e.wire.clock
    rcases hr : Wire.readFrom e.window e.deadline e.wire.arrivals e.wire.clock with
      ⟨(_ | ⟨b, bs⟩) | f | _ | _, rest, later⟩ <;> rw [hr] at hread
    case done.cons =>
      obtain ⟨rest1, hread, hrest⟩ := hread
      simp [next, singly, Wire.read, hh, hr, hread, Wire.reframe, Arrival.singly, hrest]
    all_goals
      simp [next, singly, Wire.read, hh, hr, hread, Wire.reframe, Arrival.singly, singly_singly]
  · simp [next, singly, Wire.read, hh, Wire.reframe, Arrival.singly, Wire.readFrom, singly_singly]

theorem Able.next (able : e.Able) : e.next.2.Able := by
  refine ⟨e.next_frame.2.2.2.1 ▸ able.reads, ?_⟩
  have hmost : e.next.2.wire.atMost = e.wire.atMost := by
    rcases hh : e.held with _ | ⟨b, bs⟩
    · rcases hr : Wire.readFrom e.window e.deadline e.wire.arrivals e.wire.clock with
        ⟨(_ | ⟨b, bs⟩) | f | _ | _, rest, later⟩ <;> simp only [Endpoint.next, hh, Wire.read, hr]
    · simp only [Endpoint.next, hh]
  exact hmost ▸ able.writes

/-- Two endpoints differ at most in how octets are cut. -/
structure Recut (e e2 : Endpoint) : Prop where
  same : e.singly = e2.singly
  able : e.Able
  able2 : e2.Able

namespace Recut

theorem next (h : e.Recut e2) : e.next.1 = e2.next.1 ∧ e.next.2.Recut e2.next.2 := by
  obtain ⟨hresult, hafter⟩ := next_singly h.able
  obtain ⟨hresult2, hafter2⟩ := next_singly h.able2
  rw [h.same] at hresult hafter
  exact ⟨hresult.symm.trans hresult2, hafter.symm.trans hafter2, h.able.next, h.able2.next⟩

theorem takeOnto (h : e.Recut e2) (n : Nat) (taken : Bytes) :
    (takeOnto n taken e).1 = (takeOnto n taken e2).1 ∧
      (takeOnto n taken e).2.Recut (takeOnto n taken e2).2 := by
  induction n generalizing taken e e2 with
  | zero => exact ⟨rfl, h⟩
  | succ n ih =>
      obtain ⟨hresult, hafter⟩ := h.next
      rcases hn : e.next with ⟨r, a⟩
      rcases hn2 : e2.next with ⟨r2, a2⟩
      rw [hn, hn2] at hresult hafter
      obtain rfl : r = r2 := hresult
      rcases r with (_ | b) | f | _ | _ <;> simp only [Endpoint.takeOnto, hn, hn2]
      case done.some => exact ih hafter (b :: taken)
      all_goals exact ⟨trivial, hafter⟩

/-- The wires of endpoints that are recut, as far as writing and flushing are concerned. -/
theorem wire_eq (h : e.Recut e2) :
    e.wire.reframe (ManagedTransport.singly (.data e.held :: e.wire.arrivals)) none =
      e2.wire.reframe (ManagedTransport.singly (.data e2.held :: e2.wire.arrivals)) none :=
  congrArg Endpoint.wire h.same

/-- Wires that come to the same when their octets come singly make endpoints that are recut. -/
theorem withWire {w w2 : Wire} (h : e.Recut e2)
    (hw : w.arrivals = e.wire.arrivals ∧ w.atMost = e.wire.atMost)
    (hw2 : w2.arrivals = e2.wire.arrivals ∧ w2.atMost = e2.wire.atMost)
    (same : w.reframe (ManagedTransport.singly (.data e.held :: e.wire.arrivals)) none =
      w2.reframe (ManagedTransport.singly (.data e2.held :: e2.wire.arrivals)) none) :
    Recut { e with wire := w } { e2 with wire := w2 } := by
  refine ⟨?_, ⟨h.able.reads, ?_⟩, ⟨h.able2.reads, ?_⟩⟩
  · have hrest := h.same
    simp only [Endpoint.singly, Endpoint.mk.injEq] at hrest ⊢
    rw [hw.1, hw2.1]
    exact ⟨same, hrest.2⟩
  · exact hw.2 ▸ h.able.writes
  · exact hw2.2 ▸ h.able2.writes

theorem write (h : e.Recut e2) (bs : Bytes) :
    (e.wire.write bs).1 = (e2.wire.write bs).1 ∧
      Recut { e with wire := (e.wire.write bs).2 } { e2 with wire := (e2.wire.write bs).2 } := by
  rw [Wire.write_eq_pour h.able.writes, Wire.write_eq_pour h.able2.writes]
  have hpour := congrArg (Wire.pour · bs) h.wire_eq
  simp only [Wire.pour_reframe] at hpour
  obtain ⟨hresult, hwire⟩ := Prod.mk.inj hpour
  exact ⟨hresult, h.withWire (Wire.pour_frame _ _) (Wire.pour_frame _ _) hwire⟩

theorem flush (h : e.Recut e2) :
    e.wire.flush.1 = e2.wire.flush.1 ∧
      Recut { e with wire := e.wire.flush.2 } { e2 with wire := e2.wire.flush.2 } := by
  have hflush := congrArg Wire.flush h.wire_eq
  simp only [Wire.flush_reframe] at hflush
  obtain ⟨hresult, hwire⟩ := Prod.mk.inj hflush
  exact ⟨hresult, h.withWire (Wire.flush_frame _) (Wire.flush_frame _) hwire⟩

theorem supply (h : e.Recut e2) : e.supply = e2.supply := by
  have hsupply := congrArg Endpoint.supply h.same
  exact hsupply

theorem withSupply (h : e.Recut e2) (s : Supply) :
    Recut { e with supply := s } { e2 with supply := s } := by
  have hsame : ({ e.singly with supply := s } : Endpoint) = { e2.singly with supply := s } := by
    rw [h.same]
  exact ⟨hsame, ⟨h.able.reads, h.able.writes⟩, ⟨h.able2.reads, h.able2.writes⟩⟩

theorem withStep (h : e.Recut e2) (s : AuthStep) :
    Recut { e with step := s } { e2 with step := s } := by
  have hsame : ({ e.singly with step := s } : Endpoint) = { e2.singly with step := s } := by
    rw [h.same]
  exact ⟨hsame, ⟨h.able.reads, h.able.writes⟩, ⟨h.able2.reads, h.able2.writes⟩⟩

end Recut

end Endpoint

/-- A client was refused for what it had read ahead. -/
def Ending.Trails {α : Type} (r : Ending Error α) : Prop :=
  ∃ n, r = .failed (.protocol (.trailingData n))

namespace Dialogue

variable {α β : Type}

/-- If a party may look at what is read ahead at all, it goes on only if that is nothing. -/
def Wary (may : Prop) : Dialogue α → Prop
  | done _ => True
  | fail _ => True
  | octet k => ∀ b, (k b).Wary may
  | octets _ k => ∀ bs, (k bs).Wary may
  | send _ k => k.Wary may
  | flush k => k.Wary may
  | draw k => ∀ block, (k block).Wary may
  | mark _ k => k.Wary may
  | ahead k => may ∧ (k 0).Wary may ∧ ∀ n, n ≠ 0 → k n = breach (.trailingData n)

theorem wary_bind {may : Prop} {d : Dialogue α} {f : α → Dialogue β} (h : d.Wary may)
    (hf : ∀ a, (f a).Wary may) : (d.bind f).Wary may := by
  induction d with
  | done a => exact hf a
  | fail err => exact trivial
  | octet k ih => exact fun b => ih b (h b)
  | octets n k ih => exact fun bs => ih bs (h bs)
  | send bs k ih => exact ih h
  | flush k ih => exact ih h
  | draw k ih => exact fun block => ih block (h block)
  | mark s k ih => exact ih h
  | ahead k ih =>
      refine ⟨h.1, ih 0 h.2.1, fun n hn => ?_⟩
      show (k n).bind f = _
      rw [h.2.2 n hn]
      rfl

/-- A plain dialogue does not look at what is read ahead. -/
theorem Plain.wary {d : Dialogue α} (h : d.Plain) (may : Prop) : d.Wary may := by
  induction d with
  | done a => exact trivial
  | fail err => exact trivial
  | octet k ih => exact fun b => ih b (h b)
  | octets n k ih => exact fun bs => ih bs (h bs)
  | send bs k ih => exact ih h
  | flush k ih => exact ih h
  | draw k ih => exact h.elim
  | mark s k ih => exact ih h
  | ahead k ih => exact h.elim

open Endpoint

/-- **A wary dialogue ends alike** at endpoints that are recut, unless one of the parties is
refused for what it has read ahead. -/
theorem Wary.hold {may : Prop} {d : Dialogue α} {e e2 : Endpoint} (phase : Phase)
    (hd : d.Wary may) (h : e.Recut e2) :
    (may ∧ ((d.hold phase e).1.Trails ∨ (d.hold phase e2).1.Trails)) ∨
      ((d.hold phase e).1 = (d.hold phase e2).1 ∧
        (d.hold phase e).2.Recut (d.hold phase e2).2) := by
  induction d generalizing e e2 with
  | done a => exact .inr ⟨rfl, h⟩
  | fail err => exact .inr ⟨rfl, h⟩
  | octet k ih =>
      obtain ⟨hresult, hafter⟩ := h.next
      rcases hn : e.next with ⟨r, a⟩
      rcases hn2 : e2.next with ⟨r2, a2⟩
      rw [hn, hn2] at hresult hafter
      obtain rfl : r = r2 := hresult
      rcases r with (_ | b) | f | _ | _ <;> simp only [Dialogue.hold, hn, hn2]
      case done.some => exact ih b (hd b) hafter
      all_goals exact .inr ⟨trivial, hafter⟩
  | octets n k ih =>
      obtain ⟨hresult, hafter⟩ := h.takeOnto n []
      rcases ht : e.take n with ⟨r, a⟩
      rcases ht2 : e2.take n with ⟨r2, a2⟩
      rw [← Endpoint.take, ← Endpoint.take, ht, ht2] at hresult hafter
      obtain rfl : r = r2 := hresult
      rcases r with bs | f | _ | _ <;> simp only [Dialogue.hold, ht, ht2]
      case done => exact ih bs (hd bs) hafter
      all_goals exact .inr ⟨trivial, hafter⟩
  | send bs k ih =>
      obtain ⟨hresult, hafter⟩ := h.write bs
      rcases hw : e.wire.write bs with ⟨r, w⟩
      rcases hw2 : e2.wire.write bs with ⟨r2, w2⟩
      rw [hw, hw2] at hresult hafter
      obtain rfl : r = r2 := hresult
      rcases r with f | _ <;> simp only [Dialogue.hold, hw, hw2]
      · exact .inr ⟨trivial, hafter⟩
      · exact ih hd hafter
  | flush k ih =>
      obtain ⟨hresult, hafter⟩ := h.flush
      rcases hw : e.wire.flush with ⟨r, w⟩
      rcases hw2 : e2.wire.flush with ⟨r2, w2⟩
      rw [hw, hw2] at hresult hafter
      obtain rfl : r = r2 := hresult
      rcases r with f | _ <;> simp only [Dialogue.hold, hw, hw2]
      · exact .inr ⟨trivial, hafter⟩
      · exact ih hd hafter
  | draw k ih =>
      simp only [Dialogue.hold, h.supply]
      exact ih _ (hd _) (h.withSupply _)
  | mark s k ih => exact ih hd (h.withStep s)
  | ahead k ih =>
      obtain ⟨may, hzero, hmore⟩ := hd
      simp only [Dialogue.hold]
      by_cases hheld : e.held.length = 0
      · by_cases hheld2 : e2.held.length = 0
        · rw [hheld, hheld2]
          exact ih 0 hzero h
        · rw [hmore _ hheld2]
          exact .inl ⟨may, .inr ⟨_, rfl⟩⟩
      · rw [hmore _ hheld]
        exact .inl ⟨may, .inl ⟨_, rfl⟩⟩

end Dialogue

end ManagedTransport
