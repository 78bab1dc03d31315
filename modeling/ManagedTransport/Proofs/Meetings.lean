import ManagedTransport.Meeting
import ManagedTransport.Proofs.SetupSide
import ManagedTransport.Proofs.ClientSide

/-!
# A client in a meeting

In a meeting with a relay the client takes octets as the relay says them.  Whatever the
relay makes of its turns, what it has said stays said; so the account that a client gives of
a meeting is borne out as it is at a wire, and what a dialogue keeps it keeps in a meeting.

* `Relay.said_turn` — a relay only adds to what it has said;
* `Keeps.meet` — what is kept holds of the meeting in which a dialogue is carried out.
-/

namespace ManagedTransport

open Dialogue SafeCookie

/-- What a party has said stays said. -/
theorem Dialogue.said_proceed {α : Type} (phase : Phase) (d : Dialogue α) (p : Post) :
    p.said <+: (d.proceed phase p).2.said := by
  induction d generalizing p with
  | done a => exact List.prefix_refl _
  | fail err => exact List.prefix_refl _
  | octet k ih =>
      simp only [proceed]
      split
      · next b rest _ => exact ih b { p with inbox := rest }
      · split <;> exact List.prefix_refl _
  | octets n k ih =>
      simp only [proceed]
      split
      · exact ih (p.inbox.take n) { p with inbox := p.inbox.drop n }
      · split <;> exact List.prefix_refl _
  | send bs k ih => exact (List.prefix_append _ _).trans (ih { p with said := p.said ++ bs })
  | flush k ih => exact ih p
  | draw k ih => exact ih _ { p with supply := p.supply.draw.2 }
  | mark s k ih => exact ih p
  | ahead k ih => exact ih _ p

namespace Relay

theorem said_listen (answer : Dialogue Unit) (heard : Announced) (p : Post) :
    p.said <+: (listen answer heard p).post.said := by
  fun_induction listen answer heard p with
  | case1 heard p c p2 hread more hmore ih =>
      have := said_proceed .setup Command.read p
      rw [hread] at this
      exact this.trans ih
  | case2 heard p c p2 hread complete hcomplete =>
      have := said_proceed .setup Command.read p
      rw [hread] at this
      exact this.trans (said_proceed .setup answer p2)
  | case3 heard p c p2 hread err hbreach =>
      have := said_proceed .setup Command.read p
      rwa [hread] at this
  | case4 heard p err p2 hread =>
      have := said_proceed .setup Command.read p
      rwa [hread] at this
  | case5 heard p => exact List.prefix_refl _

/-- **A relay's turn** only adds to what it has said. -/
theorem said_turn (r : Relay) : r.post.said <+: r.turn.post.said := by
  unfold turn
  split
  · next rest hstage =>
    have hsaid := said_proceed .authentication rest r.post
    split
    · next p hp =>
      rw [hp] at hsaid
      exact hsaid.trans (said_listen r.answer .nothing p)
    · next err p hp => rwa [hp] at hsaid
    · next rest2 p _ _ hp => rwa [hp] at hsaid
  · exact said_listen r.answer _ r.post
  · exact List.prefix_refl _

end Relay

namespace Meeting

/-- What the client has taken of what the relay has said. -/
def heard (m : Meeting) : Bytes := m.relay.post.said.take m.taken

/-- A meeting bears an account out: what was heard and what was said since it began is what
the account tells. -/
structure Bears (begun : Meeting) (h : Account) (m : Meeting) : Prop where
  proper : m.taken ≤ m.relay.post.said.length
  heard : m.heard = begun.heard ++ h.heard
  said : m.said = begun.said ++ h.said

variable {begun m : Meeting} {h : Account}

/-- A meeting bears out that nothing was done since now. -/
theorem Bears.begin (proper : m.taken ≤ m.relay.post.said.length) (s : AuthStep) :
    m.Bears (.fresh s) m :=
  ⟨proper, (List.append_nil _).symm, (List.append_nil _).symm⟩

/-- Waiting for the relay changes no account. -/
theorem Bears.await (hb : begun.Bears h m) (n : Nat) : begun.Bears h (m.await n) := by
  unfold Meeting.await
  split
  · exact hb
  · obtain ⟨more, hmore⟩ := m.relay.said_turn
    have hsaid : m.relay.turn.post.said = m.relay.post.said ++ more := hmore.symm
    refine ⟨?_, ?_, hb.said⟩
    · rw [hsaid, List.length_append]
      exact Nat.le_add_right_of_le hb.proper
    · rw [← hb.heard, Meeting.heard, Meeting.heard, hsaid,
        List.take_append_of_le_length hb.proper]

/-- What is taken is heard. -/
theorem Bears.take (hb : begun.Bears h m) {n : Nat} (hn : n ≤ m.inbox.length) :
    begun.Bears (h.hear (m.inbox.take n)) (m.take n) where
  proper := by
    have hproper := hb.proper
    simp only [inbox, List.length_drop] at hn
    simp only [Meeting.take]
    omega
  heard := by
    have htaken : (m.take n).heard = m.heard ++ m.inbox.take n := List.take_add
    rw [htaken, hb.heard, List.append_assoc]
    rfl
  said := hb.said

theorem Bears.send (hb : begun.Bears h m) (bs : Bytes) : begun.Bears (h.say bs) (m.send bs) where
  proper := hb.proper
  heard := hb.heard
  said := by
    have hsent : (m.send bs).said = m.said ++ bs := rfl
    rw [hsent, hb.said, List.append_assoc]
    rfl

/-- How a wait ends in vain. -/
theorem rests_short {α : Type} {phase : Phase} {P : Moment α → Account → Prop} {f : Fault}
    (hwaits : P .waits h) : Rests phase P (m.short phase f) h := by
  unfold Meeting.short
  split
  · exact .inr ⟨f, rfl, .inl hwaits⟩
  · exact hwaits

end Meeting

open Meeting

/-- **What a dialogue keeps it keeps in a meeting.** -/
theorem Dialogue.Keeps.meet {α : Type} {P : Moment α → Account → Prop} {d : Dialogue α}
    {h : Account} {begun m : Meeting} (phase : Phase) (hd : Keeps P d h) (hb : begun.Bears h m) :
    ∃ h2, Rests phase P (d.meet phase m).1 h2 ∧ begun.Bears h2 (d.meet phase m).2 := by
  induction d generalizing h m with
  | done a => exact ⟨h, hd, hb⟩
  | fail err => exact ⟨h, .inl hd, hb⟩
  | octet k ih =>
      have hawait := hb.await 1
      simp only [Dialogue.meet]
      split
      · next b rest hinbox =>
        have htake := hawait.take (n := 1) (by rw [hinbox]; simp)
        rw [hinbox] at htake
        exact ih b (hd.2 b) htake
      · exact ⟨h, rests_short hd.1, hawait⟩
  | octets n k ih =>
      have hawait := hb.await n
      simp only [Dialogue.meet]
      split
      · next hn =>
        exact ih _ (hd.2 _ (List.length_take_of_le hn)) (hawait.take hn)
      · next hn =>
        -- too few octets at hand are left where they are
        have hwaits : P .waits h := by simpa using hd.1 [] (by simp; omega)
        exact ⟨h, rests_short hwaits, hawait⟩
  | send bs k ih => exact ih hd.2 (hb.send bs)
  | flush k ih => exact ih hd.2 hb
  | draw k ih => exact ih _ (hd.2 _ (by simp [Meeting.draw])) ⟨hb.proper, hb.heard, hb.said⟩
  | mark s k ih => exact ih hd.2 ⟨hb.proper, hb.heard, hb.said⟩
  | ahead k ih => exact ih _ (hd.2 _) ⟨hb.proper, hb.heard, hb.said⟩

end ManagedTransport
