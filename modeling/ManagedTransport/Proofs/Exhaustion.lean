import Mathlib.Order.RelClasses
import ManagedTransport.Proofs.Link

/-!
# No link goes on for ever

A client goes through finitely many moves, whatever it is told.  A relay listens
to as many commands as come, so its moves are bounded only by what it is told; but
between two octets it, too, makes finitely many.  What is sent to the relay is sent by
a client that comes to its end.  So whatever happens on a link lowers, in this order,

* what the client has left to do;
* how many octets the relay has yet to take, with those under way to it;
* what the relay has left to do before it needs another octet;
* how many octets are under way, and how many pipes are open.

`Course.Goes` is going on, seen without the endpoint, and `Encounter.step_wf` draws the
conclusion.
-/

namespace ManagedTransport

open Relation

/-! ## Going on without the endpoint -/

namespace Course

variable {σ ρ : Type} {c : Course σ ρ} {silent : Bool}

/-- From one place in a course a party may go on to another, taking no octet if it is
to be silent. -/
def Goes (c : Course σ ρ) (silent : Bool) (a b : Phase × Dialogue (Next σ ρ)) : Prop :=
  ∃ e e2, c.Leads ⟨b.1, b.2, e⟩ ⟨a.1, a.2, e2⟩ ∧ (silent = true → e.unread ≤ e2.unread)

/-- Where a party is over it goes nowhere. -/
theorem acc_over {phase : Phase} {r : ρ} : Acc (c.Goes silent) (phase, .done (.ended r)) := by
  refine ⟨_, ?_⟩
  intro b hgoes
  obtain ⟨e, e2, hlead, -⟩ := hgoes
  exact absurd hlead (Party.IsOver.quiet (.inl ⟨r, rfl⟩))

theorem acc_fail {phase : Phase} {err : Error} : Acc (c.Goes silent) (phase, .fail err) := by
  refine ⟨_, ?_⟩
  intro b hgoes
  obtain ⟨e, e2, hlead, -⟩ := hgoes
  exact absurd hlead (Party.IsOver.quiet (.inr ⟨err, rfl⟩))

theorem acc_turn {phase : Phase} {s : σ} (h : Acc (c.Goes silent) (c.phase s, c.talk s)) :
    Acc (c.Goes silent) (phase, .done (.stage s)) := by
  refine ⟨_, ?_⟩
  intro b hgoes
  obtain ⟨e, e2, hlead, -⟩ := hgoes
  generalize hp : (⟨b.1, b.2, e2⟩ : Party σ ρ) = p at hlead
  cases hlead with
  | move going => exact absurd rfl (going _)
  | fail going move => cases move
  | turn =>
      cases b
      cases hp
      exact h

/-- A party that is in the midst of a dialogue makes a move or gives up. -/
theorem acc_move {phase : Phase} {d : Dialogue (Next σ ρ)} (going : ∀ a, d ≠ .done a)
    (h : ∀ e d2 e2, d.move phase e = (.done d2, e2) → (silent = true → e.unread ≤ e2.unread) →
      Acc (c.Goes silent) (phase, d2)) :
    Acc (c.Goes silent) (phase, d) := by
  refine ⟨_, ?_⟩
  intro b hgoes
  obtain ⟨e, e2, hlead, hsilent⟩ := hgoes
  generalize hp : (⟨b.1, b.2, e2⟩ : Party σ ρ) = p at hlead
  cases hlead with
  | move _ move =>
      cases b
      cases hp
      exact h _ _ _ move hsilent
  | fail _ move =>
      cases b
      cases hp
      exact acc_fail
  | turn => exact absurd rfl (going _)

/-- Waiting for an octet leads only to where there is one octet less to take. -/
theorem hear_done {phase : Phase} {short : Fault} {k : UInt8 → Dialogue (Next σ ρ)}
    {e e2 : Endpoint} {d2 : Dialogue (Next σ ρ)}
    (h : Dialogue.hear phase short k e = (.done d2, e2)) :
    (∃ b, d2 = k b) ∧ e2.unread < e.unread := by
  rcases hn : e.next with ⟨(_ | b) | f | _ | _, e3⟩
  case done.some =>
    simp only [Dialogue.hear, hn] at h
    cases h
    refine ⟨⟨b, rfl⟩, ?_⟩
    rw [Endpoint.unread, Endpoint.unread, ← Endpoint.pending_next_some hn, List.length_cons]
    exact Nat.lt_succ_self _
  all_goals
    simp only [Dialogue.hear, hn] at h
    cases h

theorem acc_octets {phase : Phase} {n : Nat} {k : Bytes → Dialogue (Next σ ρ)}
    (h : ∀ bs, Acc (c.Goes silent) (phase, k bs)) : Acc (c.Goes silent) (phase, .octets n k) := by
  induction n generalizing k with
  | zero =>
      refine acc_move nofun ?_
      intro e d2 e2 hmove _
      cases hmove
      exact h []
  | succ n ih =>
      refine acc_move nofun ?_
      intro e d2 e2 hmove _
      obtain ⟨⟨b, rfl⟩, -⟩ := hear_done hmove
      exact ih fun bs => h (b :: bs)

/-- A dialogue comes to its end, whatever is told. -/
theorem acc_bind {α : Type} {phase : Phase} (d : Dialogue α) {f : α → Dialogue (Next σ ρ)}
    (h : ∀ a, Acc (c.Goes silent) (phase, f a)) : Acc (c.Goes silent) (phase, d.bind f) := by
  induction d with
  | done a => exact h a
  | fail err => exact acc_fail
  | octet k ih =>
      refine acc_move (by rintro _ ⟨⟩) ?_
      intro e d2 e2 hmove _
      obtain ⟨⟨b, rfl⟩, -⟩ := hear_done hmove
      exact ih b
  | octets n k ih => exact acc_octets ih
  | send bs k ih =>
      refine acc_move (by rintro _ ⟨⟩) ?_
      intro e d2 e2 hmove _
      rcases hw : e.wire.write bs with ⟨f | _, w⟩
      all_goals
        simp only [Dialogue.bind, Dialogue.move, hw] at hmove
        cases hmove
      exact ih
  | flush k ih =>
      refine acc_move (by rintro _ ⟨⟩) ?_
      intro e d2 e2 hmove _
      rcases hw : e.wire.flush with ⟨f | _, w⟩
      all_goals
        simp only [Dialogue.bind, Dialogue.move, hw] at hmove
        cases hmove
      exact ih
  | draw k ih | ahead k ih =>
      refine acc_move (by rintro _ ⟨⟩) ?_
      intro e d2 e2 hmove _
      cases hmove
      exact ih _
  | mark s k ih =>
      refine acc_move (by rintro _ ⟨⟩) ?_
      intro e d2 e2 hmove _
      cases hmove
      exact ih

/-- A silent party that needs an octet gets nowhere. -/
theorem acc_waits {phase : Phase} {n : Nat} {k : Bytes → Dialogue (Next σ ρ)} :
    Acc (c.Goes true) (phase, .octets (n + 1) k) := by
  refine acc_move nofun ?_
  intro e d2 e2 hmove hsilent
  obtain ⟨-, hlt⟩ := hear_done hmove
  exact absurd (hsilent rfl) (Nat.not_le_of_lt hlt)

/-- If nothing goes on for ever from the beginning of a stage, nothing does. -/
theorem goes_wf (h : ∀ s, Acc (c.Goes silent) (c.phase s, c.talk s)) :
    WellFounded (c.Goes silent) := by
  refine ⟨fun ⟨phase, d⟩ => ?_⟩
  rw [← Dialogue.bind_done d]
  apply acc_bind d
  intro a
  rcases a with s | r
  · exact acc_turn (h s)
  · exact acc_over

end Course

/-- **A client comes to its end, whatever it is told.** -/
theorem clientCourse_goes_wf (cookie : Cookie) (info : SessionInfo) :
    WellFounded ((clientCourse cookie info).Goes false) := by
  have hsetup : Acc ((clientCourse cookie info).Goes false)
      (.setup, (clientCourse cookie info).talk .settingUp) :=
    Course.acc_bind info.setup fun _ => Course.acc_over
  apply Course.goes_wf
  intro s
  cases s with
  | authenticating => exact Course.acc_bind _ fun _ => Course.acc_turn hsetup
  | settingUp => exact hsetup

/-- **A relay that is told nothing comes to its end or waits.** -/
theorem relayCourse_goes_wf (cookie : Cookie) (accept : Bool) :
    WellFounded ((relayCourse cookie accept).Goes true) := by
  have hlistening : ∀ heard, Acc ((relayCourse cookie accept).Goes true)
      (.setup, (relayCourse cookie accept).talk (.listening heard)) :=
    fun heard => Course.acc_waits
  apply Course.goes_wf
  intro s
  cases s with
  | authenticating => exact Course.acc_bind _ fun _ => Course.acc_turn (hlistening _)
  | listening heard => exact hlistening heard
  | answering heard => exact Course.acc_bind _ fun _ => Course.acc_over

/-! ## The link -/

/-- What arrives in place of the last arrival adds at most its own octets. -/
theorem Endpoint.unread_endingIn (e : Endpoint) (tail : List Arrival) :
    (e.endingIn tail).unread ≤ e.unread + (tail.flatMap Arrival.octets).length := by
  have hfront : (e.wire.arrivals.dropLast.flatMap Arrival.octets).length ≤
      (e.wire.arrivals.flatMap Arrival.octets).length := by
    rcases List.eq_nil_or_concat e.wire.arrivals with hnil | ⟨front, last, hlast⟩
    · rw [hnil]
      exact Nat.le_refl _
    · rw [hlast, List.concat_eq_append, List.dropLast_concat, List.flatMap_append,
        List.length_append]
      exact Nat.le_add_right _ _
  simp only [unread, pending, endingIn, Wire.pending, List.flatMap_append, List.length_append]
  omega

/-- A relay that goes on has no more octets to take than before. -/
theorem relayCourse_unread_le {cookie : Cookie} {accept : Bool} {p q : Party RelayCall Announced}
    (h : (relayCourse cookie accept).Leads p q) : q.endpoint.unread ≤ p.endpoint.unread := by
  rcases h.endpoint_cases with hq | ⟨s, rfl⟩
  · have hframe := (p.rest.move_frame p.phase p.endpoint).1
    rw [hq]
    exact hframe.length_le
  · exact Nat.le_refl _

/-- What is still to be done on a link. -/
abbrev Todo : Type :=
  (Phase × Dialogue (Next ClientStage Unit)) × Nat ×
    (Phase × Dialogue (Next RelayCall Announced)) × Nat

namespace Link

/-- How many octets are under way, and how many pipes are open. -/
def traffic (l : Link) : Nat :=
  l.toRelay.flight.length + l.toClient.flight.length +
    (l.toRelay.isOpen.toNat + l.toClient.isOpen.toNat)

def todo (l : Link) : Todo :=
  ((l.client.phase, l.client.rest), l.toRelay.flight.length + l.relay.endpoint.unread,
    (l.relay.phase, l.relay.rest), l.traffic)

end Link

namespace Encounter

/-- Less is to be done: the client has gone on; or the relay has fewer octets to take; or
it has gone on silently; or there is less traffic. -/
def Less (x : Encounter) : Todo → Todo → Prop :=
  Prod.Lex (x.clientCourse.Goes false)
    (Prod.Lex (· < ·) (Prod.Lex (x.relayCourse.Goes true) (· < ·)))

theorem less_wf (x : Encounter) : WellFounded x.Less := by
  have hrelay : WellFounded (Prod.Lex (x.relayCourse.Goes true) ((· < ·) : Nat → Nat → Prop)) :=
    (relayCourse_goes_wf _ _).prod_lex Nat.lt_wfRel.wf
  exact (clientCourse_goes_wf _ _).prod_lex (Nat.lt_wfRel.wf.prod_lex hrelay)

variable {x : Encounter}

/-- Where the relay has no more octets to take, less is to be done if it has fewer, or
if there is less in what comes after that. -/
theorem less_of_le {a : Phase × Dialogue (Next ClientStage Unit)} {n n2 : Nat}
    {r r2 : (Phase × Dialogue (Next RelayCall Announced)) × Nat} (hle : n2 ≤ n)
    (h : n2 = n → Prod.Lex (x.relayCourse.Goes true) (· < ·) r2 r) :
    x.Less (a, n2, r2) (a, n, r) := by
  refine .right _ ?_
  rcases Nat.lt_or_eq_of_le hle with hlt | rfl
  · exact .left _ _ hlt
  · exact .right _ (h rfl)

/-- **Whatever happens on a link leaves less to be done.** -/
theorem Step.less {l l2 : Link} (h : x.Step l l2) : x.Less l2.todo l.todo := by
  cases h with
  | client leads => exact .left _ _ ⟨_, _, leads, nofun⟩
  | relay leads =>
      apply less_of_le (Nat.add_le_add_left (relayCourse_unread_le leads) _)
      intro heq
      exact .left _ _ ⟨_, _, leads, fun _ => Nat.le_of_eq (Nat.add_left_cancel heq).symm⟩
  | @toRelay piece rest some front =>
      have hpos : 0 < piece.length := List.length_pos_iff.mpr some
      have hunread := l.relay.endpoint.unread_endingIn [.data piece, .stall]
      simp only [List.flatMap_cons, Arrival.octets, List.flatMap_nil, List.append_nil] at hunread
      refine less_of_le ?_ fun _ => .right _ ?_
      · show rest.length + (l.relay.endpoint.deliver piece).unread ≤ _
        rw [front, List.length_append]
        simp only [Endpoint.deliver]
        omega
      · simp only [Link.traffic, front, List.length_append]
        omega
  | @toClient piece rest some front =>
      have hpos : 0 < piece.length := List.length_pos_iff.mpr some
      refine less_of_le (Nat.le_refl _) fun _ => .right _ ?_
      simp only [Link.traffic, front, List.length_append]
      omega
  | closeToRelay ended nothing still =>
      have hunread := l.relay.endpoint.unread_endingIn []
      refine less_of_le ?_ fun _ => .right _ ?_
      · show 0 + l.relay.endpoint.hangUp.unread ≤ _
        rw [nothing, List.length_nil]
        exact Nat.add_le_add_left hunread 0
      · simp only [Link.traffic, nothing, still, Bool.toNat_true, Bool.toNat_false]
        omega
  | closeToClient ended nothing still =>
      refine less_of_le (Nat.le_refl _) fun _ => .right _ ?_
      simp only [Link.traffic, nothing, still, Bool.toNat_true, Bool.toNat_false]
      omega

/-- **No link goes on for ever.** -/
theorem step_wf (x : Encounter) : WellFounded fun l2 l => x.Step l l2 :=
  Subrelation.wf Step.less (InvImage.wf Link.todo x.less_wf)

end Encounter

end ManagedTransport
