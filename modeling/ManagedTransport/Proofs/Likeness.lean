import ManagedTransport.Endpoint

/-!
# Wires that differ in their octets

Two endpoints are alike if they differ at most in which octets arrive: not in how many, in
which pieces, or after what.  Two parties there whose dialogues make the same moves, each
with the octets that it faces, stay alike to the end.

* `Endpoint.Like` — to be the same once every octet that is pending is blanked;
* `Like.next`, `Like.take`, `Like.write`, `Like.flush` — operations on endpoints that are
  alike end in the same way and leave them alike;
* `Dialogue.Parallel` — to make the same moves while facing these octets, up to results
  that are so related;
* `Parallel.hold` — dialogues that are parallel are held alike.
-/

namespace ManagedTransport

/-- Two waits or dialogues end in the same way, with results so related if they are done. -/
inductive Ending.Alike {ε α β : Type} (R : α → β → Prop) : Ending ε α → Ending ε β → Prop
  | done {a b} (results : R a b) : Alike R (.done a) (.done b)
  | failed {err} : Alike R (.failed err) (.failed err)
  | late : Alike R .late .late
  | stuck : Alike R .stuck .stuck

/-- The same arrival with all octets zero. -/
def Arrival.blank : Arrival → Arrival
  | data bs => data (Bytes.zeros bs.length)
  | pause millis => pause millis
  | fault f => fault f
  | stall => stall

/-- The same wire with all octets that arrive zero. -/
def Wire.blank (w : Wire) : Wire := { w with arrivals := w.arrivals.map Arrival.blank }

namespace Endpoint

/-- The same endpoint with all octets that are pending zero. -/
def blank (e : Endpoint) : Endpoint :=
  { e with wire := e.wire.blank, held := Bytes.zeros e.held.length }

/-- Two endpoints differ at most in which octets are pending. -/
def Like (e e2 : Endpoint) : Prop := e.blank = e2.blank

end Endpoint

namespace Wire

/-- A read does not depend on which octets arrive, except in those that it brings. -/
theorem readFrom_blank (window : Nat) (deadline : Option Nat) (arrivals : List Arrival)
    (now : Nat) :
    readFrom window deadline (arrivals.map Arrival.blank) now =
      match readFrom window deadline arrivals now with
      | (.done bs, rest, later) =>
        (.done (Bytes.zeros bs.length), rest.map Arrival.blank, later)
      | (.failed f, rest, later) => (.failed f, rest.map Arrival.blank, later)
      | (.late, rest, later) => (.late, rest.map Arrival.blank, later)
      | (.stuck, rest, later) => (.stuck, rest.map Arrival.blank, later) := by
  fun_induction readFrom window deadline arrivals now with
  | case1 | case6 => rfl
  | case2 _ _ ih => exact ih
  | case3 =>
      simp only [List.map_cons, Arrival.blank, Bytes.zeros, List.length_cons,
        List.replicate_succ, readFrom]
      rw [← List.replicate_succ, List.take_replicate, List.drop_replicate, List.length_take,
        List.length_drop, List.length_cons]
  | case4 _ _ _ hlate => simp only [List.map_cons, Arrival.blank, readFrom, if_pos hlate]
  | case5 _ _ _ hin ih =>
      simp only [List.map_cons, Arrival.blank, readFrom, if_neg hin]
      exact ih
  | case7 _ _ hnone =>
      subst hnone
      rfl
  | case8 _ _ limit hlimit =>
      subst hlimit
      rfl

/-- A write does not depend on what arrives. -/
theorem write_blank (w : Wire) (bs : Bytes) :
    w.blank.write bs = ((w.write bs).1, (w.write bs).2.blank) := by
  fun_induction write w bs with
  | case1 w => rw [write, if_pos rfl]
  | case2 w bs hne f hf =>
      have hblank : w.blank.accepts bs.length = .error f := hf
      rw [write, if_neg hne, hblank]
  | case3 w bs hne hk =>
      have hblank : w.blank.accepts bs.length = .ok 0 := hk
      rw [write, if_neg hne, hblank]
  | case4 w bs hne k hk ih =>
      have hblank : w.blank.accepts bs.length = .ok (k + 1) := hk
      rw [write, if_neg hne, hblank]
      exact ih

theorem unread_blank (w : Wire) : w.blank.unread = w.unread := by
  simp only [unread, pending, blank, List.length_flatMap, List.map_map]
  congr 2
  funext a
  cases a <;> simp [Arrival.blank, Arrival.octets, Bytes.zeros]

theorem flush_blank (w : Wire) : w.blank.flush = (w.flush.1, w.flush.2.blank) := by
  rcases h : w.flushes with _ | ⟨_ | n, f⟩ <;> simp only [flush, blank, h]

end Wire

namespace Endpoint

variable {e e2 : Endpoint}

/-- Taking an octet does not depend on which octets are pending, except in the one taken. -/
theorem next_blank (e : Endpoint) :
    e.blank.next =
      match e.next with
      | (.done (some _), e2) => (.done (some 0), e2.blank)
      | (.done none, e2) => (.done none, e2.blank)
      | (.failed f, e2) => (.failed f, e2.blank)
      | (.late, e2) => (.late, e2.blank)
      | (.stuck, e2) => (.stuck, e2.blank) := by
  rcases hh : e.held with _ | ⟨b, held⟩
  · have hread := Wire.readFrom_blank e.window e.deadline e.wire.arrivals e.wire.clock
    rcases hr : Wire.readFrom e.window e.deadline e.wire.arrivals e.wire.clock with
      ⟨(_ | ⟨b, bs⟩) | f | _ | _, rest, later⟩ <;> rw [hr] at hread <;>
      simp only [next, blank, hh, Wire.blank, Wire.read, hr, hread, Bytes.zeros, List.length_nil,
        List.length_cons, List.replicate_zero, List.replicate_succ]
  · simp only [next, blank, hh, Bytes.zeros, List.length_cons, List.replicate_succ]

theorem Like.next (h : e.Like e2) :
    e.next.1.Alike (fun b c => b.isSome = c.isSome) e2.next.1 ∧ e.next.2.Like e2.next.2 := by
  have hnext := congrArg Endpoint.next h
  rw [next_blank, next_blank] at hnext
  rcases hn : e.next with ⟨(_ | b) | f | _ | _, a⟩ <;>
    rcases hn2 : e2.next with ⟨(_ | c) | g | _ | _, a2⟩ <;>
    rw [hn, hn2] at hnext <;> obtain ⟨hresult, hleft⟩ := Prod.mk.inj hnext <;>
    cases hresult <;> refine ⟨?_, hleft⟩
  · exact .done rfl
  · exact .done rfl
  · exact .failed
  · exact .late
  · exact .stuck

theorem Like.takeOnto (h : e.Like e2) (n : Nat) (taken taken2 : Bytes) :
    (takeOnto n taken e).1.Alike (fun _ _ => True) (takeOnto n taken2 e2).1 ∧
      (takeOnto n taken e).2.Like (takeOnto n taken2 e2).2 := by
  induction n generalizing e e2 taken taken2 with
  | zero => exact ⟨.done trivial, h⟩
  | succ n ih =>
      have hnext := h.next
      rcases hn : e.next with ⟨r, a⟩
      rcases hn2 : e2.next with ⟨r2, a2⟩
      rw [hn, hn2] at hnext
      obtain ⟨hends, hleft⟩ := hnext
      cases hends with
      | @done b c same =>
          rcases b with _ | b <;> rcases c with _ | c <;> cases same <;>
            simp only [Endpoint.takeOnto, hn, hn2]
          · exact ⟨.failed, hleft⟩
          · exact ih hleft (b :: taken) (c :: taken2)
      | failed | late | stuck =>
          simp only [Endpoint.takeOnto, hn, hn2]
          refine ⟨?_, hleft⟩
          constructor

theorem Like.take (h : e.Like e2) (n : Nat) :
    (e.take n).1.Alike (fun _ _ => True) (e2.take n).1 ∧ (e.take n).2.Like (e2.take n).2 :=
  h.takeOnto n [] []

/-- Parties that are alike stay so with other wires that are alike. -/
theorem Like.rewire {w w2 : Wire} (h : e.Like e2) (hw : w.blank = w2.blank) :
    Like { e with wire := w } { e2 with wire := w2 } := by
  have hrest := congrArg (fun x : Endpoint => { x with wire := w.blank }) h
  rw [Like, blank, blank, ← hw]
  exact hrest

theorem Like.wire (h : e.Like e2) : e.wire.blank = e2.wire.blank := by
  have hwire := congrArg Endpoint.wire h
  exact hwire

/-- What parties that are alike write is taken alike. -/
theorem Like.write (h : e.Like e2) (bs : Bytes) :
    (e.wire.write bs).1 = (e2.wire.write bs).1 ∧
      Like { e with wire := (e.wire.write bs).2 } { e2 with wire := (e2.wire.write bs).2 } := by
  have hwrite := congrArg (Wire.write · bs) h.wire
  simp only [Wire.write_blank] at hwrite
  obtain ⟨hresult, hleft⟩ := Prod.mk.inj hwrite
  exact ⟨hresult, h.rewire hleft⟩

theorem Like.flush (h : e.Like e2) :
    e.wire.flush.1 = e2.wire.flush.1 ∧
      Like { e with wire := e.wire.flush.2 } { e2 with wire := e2.wire.flush.2 } := by
  have hflush := congrArg Wire.flush h.wire
  simp only [Wire.flush_blank] at hflush
  obtain ⟨hresult, hleft⟩ := Prod.mk.inj hflush
  exact ⟨hresult, h.rewire hleft⟩

theorem Like.supply (h : e.Like e2) : e.supply = e2.supply := by
  have hsupply := congrArg Endpoint.supply h
  exact hsupply

theorem Like.step (h : e.Like e2) : e.step = e2.step := by
  have hstep := congrArg Endpoint.step h
  exact hstep

theorem Like.sent (h : e.Like e2) : e.wire.sent = e2.wire.sent := by
  have hsent := congrArg (fun x : Endpoint => x.wire.sent) h
  exact hsent

theorem Like.clock (h : e.Like e2) : e.wire.clock = e2.wire.clock := by
  have hclock := congrArg (fun x : Endpoint => x.wire.clock) h
  exact hclock

/-- As many octets are still to come. -/
theorem Like.unread (h : e.Like e2) : e.wire.unread = e2.wire.unread := by
  have hunread := congrArg (fun x : Endpoint => x.wire.unread) h
  simpa only [blank, Wire.unread_blank] using hunread

theorem Like.length_held (h : e.Like e2) : e.held.length = e2.held.length := by
  have hheld := congrArg (fun x : Endpoint => x.held.length) h
  simpa [blank, Bytes.zeros] using hheld

end Endpoint

namespace Dialogue

variable {α β γ δ : Type}

/-- Two dialogues, each facing octets, make the same moves, and where they are done their
results and the octets that each faces then are so related. -/
def Parallel (R : α → β → Bytes → Bytes → Prop) :
    Dialogue α → Dialogue β → Bytes → Bytes → Prop
  | done a, done b, came, came2 => R a b came came2
  | fail err, fail err2, _, _ => err = err2
  | octet k, octet k2, came, came2 =>
    ∀ b c rest rest2, came = b :: rest → came2 = c :: rest2 →
      Parallel R (k b) (k2 c) rest rest2
  | octets n k, octets m k2, came, came2 =>
    n = m ∧ ∀ bs cs rest rest2, bs.length = n → cs.length = n →
      came = bs ++ rest → came2 = cs ++ rest2 → Parallel R (k bs) (k2 cs) rest rest2
  | send bs k, send cs k2, came, came2 => bs = cs ∧ Parallel R k k2 came came2
  | flush k, flush k2, came, came2 => Parallel R k k2 came came2
  | draw k, draw k2, came, came2 => ∀ block, Parallel R (k block) (k2 block) came came2
  | mark s k, mark t k2, came, came2 => s = t ∧ Parallel R k k2 came came2
  | ahead k, ahead k2, came, came2 => ∀ n, Parallel R (k n) (k2 n) came came2
  | _, _, _, _ => False

/-- Dialogues one after the other are parallel if the second ones are, from the results of
the first ones on. -/
theorem parallel_bind {R : γ → δ → Bytes → Bytes → Prop} {d : Dialogue α} {d2 : Dialogue β}
    {f : α → Dialogue γ} {g : β → Dialogue δ} {came came2 : Bytes}
    (h : Parallel (fun a b came came2 => Parallel R (f a) (g b) came came2) d d2 came came2) :
    Parallel R (d.bind f) (d2.bind g) came came2 := by
  induction d generalizing d2 came came2 with
  | done a =>
      cases d2 with
      | done b => exact h
      | _ => exact h.elim
  | fail err =>
      cases d2 with
      | fail err2 => exact h
      | _ => exact h.elim
  | octet k ih =>
      cases d2 with
      | octet k2 =>
          exact fun b c rest rest2 hcame hcame2 => ih b (h b c rest rest2 hcame hcame2)
      | _ => exact h.elim
  | octets n k ih =>
      cases d2 with
      | octets m k2 =>
          exact ⟨h.1, fun bs cs rest rest2 hbs hcs hcame hcame2 =>
            ih bs (h.2 bs cs rest rest2 hbs hcs hcame hcame2)⟩
      | _ => exact h.elim
  | send bs k ih =>
      cases d2 with
      | send cs k2 => exact ⟨h.1, ih h.2⟩
      | _ => exact h.elim
  | flush k ih =>
      cases d2 with
      | flush k2 => exact ih h
      | _ => exact h.elim
  | draw k ih =>
      cases d2 with
      | draw k2 => exact fun block => ih block (h block)
      | _ => exact h.elim
  | mark s k ih =>
      cases d2 with
      | mark t k2 => exact ⟨h.1, ih h.2⟩
      | _ => exact h.elim
  | ahead k ih =>
      cases d2 with
      | ahead k2 => exact fun n => ih n (h n)
      | _ => exact h.elim

/-- Two dialogues are held alike: they end in the same way, with results so related to the
octets that are pending then, and leave their endpoints alike. -/
def HeldAlike (R : α → β → Bytes → Bytes → Prop) (x : Ending Error α × Endpoint)
    (y : Ending Error β × Endpoint) : Prop :=
  x.1.Alike (fun a b => R a b x.2.pending y.2.pending) y.1 ∧ x.2.Like y.2

/-- **Dialogues that are parallel are held alike** at endpoints that are alike. -/
theorem Parallel.hold {R : α → β → Bytes → Bytes → Prop} {d : Dialogue α} {d2 : Dialogue β}
    {e e2 : Endpoint} (phase : Phase) (h : Parallel R d d2 e.pending e2.pending)
    (hlike : e.Like e2) : HeldAlike R (d.hold phase e) (d2.hold phase e2) := by
  induction d generalizing d2 e e2 with
  | done a =>
      cases d2 with
      | done b => exact ⟨.done h, hlike⟩
      | _ => exact h.elim
  | fail err =>
      cases d2 with
      | fail err2 =>
          obtain rfl : err = err2 := h
          exact ⟨.failed, hlike⟩
      | _ => exact h.elim
  | octet k ih =>
      cases d2 with
      | octet k2 =>
          have hnext := hlike.next
          rcases hn : e.next with ⟨r, a⟩
          rcases hn2 : e2.next with ⟨r2, a2⟩
          rw [hn, hn2] at hnext
          obtain ⟨hends, hleft⟩ := hnext
          cases hends with
          | @done b c same =>
              rcases b with _ | b <;> rcases c with _ | c <;> cases same <;>
                simp only [Dialogue.hold, hn, hn2]
              · exact ⟨.failed, hleft⟩
              · exact ih b (h b c _ _ (Endpoint.pending_next_some hn).symm
                  (Endpoint.pending_next_some hn2).symm) hleft
          | failed | late | stuck =>
              simp only [Dialogue.hold, hn, hn2]
              refine ⟨?_, hleft⟩
              constructor
      | _ => exact h.elim
  | octets n k ih =>
      cases d2 with
      | octets m k2 =>
          obtain ⟨rfl, h⟩ := h
          have htake := hlike.take n
          rcases ht : e.take n with ⟨r, a⟩
          rcases ht2 : e2.take n with ⟨r2, a2⟩
          rw [ht, ht2] at htake
          obtain ⟨hends, hleft⟩ := htake
          cases hends with
          | @done bs cs =>
              obtain ⟨hpending, hlen⟩ := Endpoint.pending_take_done ht
              obtain ⟨hpending2, hlen2⟩ := Endpoint.pending_take_done ht2
              simp only [Dialogue.hold, ht, ht2]
              exact ih bs (h bs cs _ _ hlen hlen2 hpending.symm hpending2.symm) hleft
          | failed | late | stuck =>
              simp only [Dialogue.hold, ht, ht2]
              refine ⟨?_, hleft⟩
              constructor
      | _ => exact h.elim
  | send bs k ih =>
      cases d2 with
      | send cs k2 =>
          obtain ⟨rfl, h⟩ := h
          obtain ⟨hresult, hleft⟩ := hlike.write bs
          have hpending := Wire.pending_write e.wire bs
          have hpending2 := Wire.pending_write e2.wire bs
          rcases hw : e.wire.write bs with ⟨f | _, w⟩ <;>
            rcases hw2 : e2.wire.write bs with ⟨f2 | _, w2⟩ <;>
            rw [hw, hw2] at hresult hleft <;> cases hresult <;>
            simp only [Dialogue.hold, hw, hw2]
          · exact ⟨.failed, hleft⟩
          · rw [hw] at hpending
            rw [hw2] at hpending2
            refine ih ?_ hleft
            simpa only [Endpoint.pending, hpending, hpending2] using h
      | _ => exact h.elim
  | flush k ih =>
      cases d2 with
      | flush k2 =>
          have h : Parallel R k k2 e.pending e2.pending := h
          obtain ⟨hresult, hleft⟩ := hlike.flush
          have hpending := Wire.pending_flush e.wire
          have hpending2 := Wire.pending_flush e2.wire
          rcases hw : e.wire.flush with ⟨f | _, w⟩ <;>
            rcases hw2 : e2.wire.flush with ⟨f2 | _, w2⟩ <;>
            rw [hw, hw2] at hresult hleft <;> cases hresult <;>
            simp only [Dialogue.hold, hw, hw2]
          · exact ⟨.failed, hleft⟩
          · rw [hw] at hpending
            rw [hw2] at hpending2
            refine ih ?_ hleft
            simpa only [Endpoint.pending, hpending, hpending2] using h
      | _ => exact h.elim
  | draw k ih =>
      cases d2 with
      | draw k2 =>
          have hrest := congrArg (fun x : Endpoint => { x with supply := x.supply.draw.2 }) hlike
          have hk : Parallel R (k e.supply.draw.1) (k2 e2.supply.draw.1) e.pending e2.pending := by
            rw [← hlike.supply]
            exact h _
          show HeldAlike R ((k _).hold phase { e with supply := _ })
            ((k2 _).hold phase { e2 with supply := _ })
          exact ih _ hk hrest
      | _ => exact h.elim
  | mark s k ih =>
      cases d2 with
      | mark t k2 =>
          obtain ⟨rfl, h⟩ := h
          have hrest := congrArg (fun x : Endpoint => { x with step := s }) hlike
          show HeldAlike R (k.hold phase { e with step := s }) (k2.hold phase { e2 with step := s })
          exact ih h hrest
      | _ => exact h.elim
  | ahead k ih =>
      cases d2 with
      | ahead k2 =>
          simp only [Dialogue.hold, ← hlike.length_held]
          exact ih _ (h _) hlike
      | _ => exact h.elim

end Dialogue

end ManagedTransport
