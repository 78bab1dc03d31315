import ManagedTransport.Proofs.Account
import ManagedTransport.Proofs.Calm
import ManagedTransport.Proofs.Course

/-!
# Following a party on its course

What is kept by the dialogues of every stage is kept on the whole course.  On a
calm wire a party that cannot go on is done, has given up, was cut off at the end
of the stream, or waits for octets of which none is pending.

* `Course.Keeps` — what holds at every moment of a course;
* `Course.Follows` — a party that keeps it, on a calm wire;
* `Course.Played` — a party that is where all that came to it brings it, had that
  been there from the beginning;
* `leads`, `deliver`, `hangUp` — what a party does, and what is done to it, changes
  nothing about either;
* `Follows.ends` — where a party cannot go on.
-/

namespace ManagedTransport

namespace Endpoint

/-- More octets arrive on an open wire, in one piece. -/
def deliver (bs : Bytes) (e : Endpoint) : Endpoint := e.endingIn [.data bs, .stall]

/-- No more octets will arrive. -/
def hangUp (e : Endpoint) : Endpoint := e.endingIn []

/-- A party to which octets come in these pieces, and then no more if the wire is not
open. -/
def awaiting (pieces : List Bytes) (isOpen : Bool) (source : Supply) : Endpoint :=
  .ofWire (.ofArrivals (pieces.map .data ++ Arrival.ending isOpen)) source

theorem awaiting_calm (pieces : List Bytes) (isOpen : Bool) (source : Supply) :
    (awaiting pieces isOpen source).Calm isOpen :=
  ⟨⟨pieces, rfl⟩, rfl, rfl, rfl, rfl, Nat.one_pos, rfl⟩

theorem deliver_awaiting (pieces : List Bytes) (source : Supply) (bs : Bytes) :
    (awaiting pieces true source).deliver bs = awaiting (pieces ++ [bs]) true source := by
  simp [awaiting, deliver, endingIn, ofWire, Wire.ofArrivals, Arrival.ending]

theorem hangUp_awaiting (pieces : List Bytes) (source : Supply) :
    (awaiting pieces true source).hangUp = awaiting pieces false source := by
  simp [awaiting, hangUp, endingIn, ofWire, Wire.ofArrivals, Arrival.ending]

variable {e : Endpoint}

theorem Calm.deliver (hc : e.Calm true) (bs : Bytes) :
    (e.deliver bs).Calm true ∧ (e.deliver bs).pending = e.pending ++ bs := by
  obtain ⟨pieces, harrivals⟩ := hc.arrivals
  have hdelivered : (e.deliver bs).wire.arrivals =
      (pieces ++ [bs]).map Arrival.data ++ Arrival.ending true := by
    rw [Endpoint.deliver, endingIn, harrivals, Arrival.ending, if_pos rfl, List.dropLast_concat]
    simp
  refine ⟨⟨⟨_, hdelivered⟩, hc.atMost, hc.room, hc.flushes, hc.deadline, hc.window,
    hc.clock⟩, ?_⟩
  rw [pending, Wire.pending, hdelivered, Wire.pending_calm, pending, Wire.pending, harrivals,
    Wire.pending_calm, List.append_assoc]
  simp [Endpoint.deliver, endingIn]

theorem Calm.hangUp (hc : e.Calm true) :
    e.hangUp.Calm false ∧ e.hangUp.pending = e.pending := by
  obtain ⟨pieces, harrivals⟩ := hc.arrivals
  have hclosed : e.hangUp.wire.arrivals = pieces.map Arrival.data ++ Arrival.ending false := by
    rw [Endpoint.hangUp, endingIn, harrivals, Arrival.ending, if_pos rfl, List.dropLast_concat]
    simp [Arrival.ending]
  refine ⟨⟨⟨_, hclosed⟩, hc.atMost, hc.room, hc.flushes, hc.deadline, hc.window,
    hc.clock⟩, ?_⟩
  rw [pending, Wire.pending, hclosed, Wire.pending_calm, pending, Wire.pending, harrivals,
    Wire.pending_calm]
  rfl

end Endpoint

/-- What arrives is not heard until it is taken. -/
theorem Account.Fits.arrive {came before bs : Bytes} {source : Supply} {h : Account}
    {e : Endpoint} {w : Wire} (hf : Account.Fits came before source h e)
    (hlog : w.log = e.wire.log) (hpending : e.held ++ w.pending = e.pending ++ bs) :
    Account.Fits (came ++ bs) before source h { e with wire := w } := by
  refine ⟨?_, ?_, hf.drawn, hf.supply, hf.step, hf.left⟩
  · show h.heard ++ (e.held ++ w.pending) = came ++ bs
    rw [hpending, ← List.append_assoc, hf.heard]
  · show w.sent = _
    unfold Wire.sent
    rw [hlog]
    exact hf.said

/-- Other things arrive at a party in place of the last one. -/
def Party.endingIn {σ ρ : Type} (tail : List Arrival) (p : Party σ ρ) : Party σ ρ :=
  { p with endpoint := p.endpoint.endingIn tail }

/-- How a party is at a moment from which it cannot go on: it is done, it has given
up, it was cut off where it waited, or it waits. -/
inductive Party.Ends {σ ρ : Type} (isOpen : Bool) (p : Party σ ρ) : Moment (Next σ ρ) → Prop
  | ended {r} (rest : p.rest = .done (.ended r)) : Ends isOpen p (.done (.ended r))
  | gaveUp {err} (rest : p.rest = .fail err) : Ends isOpen p (.gaveUp err)
  | cutOff {f} (rest : p.rest = .fail (.network (.io p.phase f)))
      (nothing : p.endpoint.pending = []) (closed : isOpen = false) : Ends isOpen p .waits
  | waiting (rest : p.rest.Waits) (nothing : p.endpoint.pending = []) (more : isOpen = true) :
      Ends isOpen p .waits

/-- A party that waits and cannot go on has nothing pending. -/
theorem Party.Ends.nothing {σ ρ : Type} {isOpen : Bool} {p : Party σ ρ}
    (h : p.Ends isOpen .waits) : p.endpoint.pending = [] := by
  cases h with
  | cutOff _ nothing | waiting _ nothing => exact nothing

namespace Course

variable {σ ρ : Type}

/-- What holds at every moment of a course, phase by phase: it is kept by the
dialogue of a stage from the moment on at which the party turns to that stage. -/
structure Keeps (c : Course σ ρ) (P : Phase → Moment (Next σ ρ) → Account → Prop) : Prop where
  talk : ∀ {phase s h}, P phase (.done (.stage s)) h →
    Dialogue.Keeps (P (c.phase s)) (c.talk s) h
  enter : ∀ {phase s h came before source e}, P phase (.done (.stage s)) h →
    Account.Fits came before source h e → Account.Fits came before source h (c.enter s e)

/-- A party on a calm wire that keeps to its course, or was cut off on it. -/
inductive Follows (P : Phase → Moment (Next σ ρ) → Account → Prop) (came : Bytes)
    (source : Supply) (isOpen : Bool) (p : Party σ ρ) : Prop
  | going {h} (keeps : Dialogue.Keeps (P p.phase) p.rest h)
      (fits : Account.Fits came [] source h p.endpoint) (calm : p.endpoint.Calm isOpen)
  | cutOff {h f} (rest : p.rest = .fail (.network (.io p.phase f)))
      (waited : P p.phase .waits h) (fits : Account.Fits came [] source h p.endpoint)
      (nothing : p.endpoint.pending = []) (closed : isOpen = false)
      (calm : p.endpoint.Calm isOpen)

variable {c : Course σ ρ} {P : Phase → Moment (Next σ ρ) → Account → Prop} {came : Bytes}
  {source : Supply} {isOpen : Bool} {p q : Party σ ρ}

theorem Follows.calm (hf : Follows P came source isOpen p) : p.endpoint.Calm isOpen := by
  cases hf with
  | going _ _ calm => exact calm
  | cutOff _ _ _ _ _ calm => exact calm

/-- Something that is kept holds now of what the party can tell. -/
theorem Follows.now (hf : Follows P came source isOpen p) :
    ∃ m h, P p.phase m h ∧ Account.Fits came [] source h p.endpoint := by
  cases hf with
  | going keeps fits =>
      obtain ⟨m, hm⟩ := keeps.now
      exact ⟨m, _, hm, fits⟩
  | cutOff _ waited fits => exact ⟨_, _, waited, fits⟩

/-- A wire stays calm as the party goes on. -/
theorem Leads.calm (h : c.Leads p q) (hc : p.endpoint.Calm isOpen) : q.endpoint.Calm isOpen := by
  cases h with
  | @move phase d e d2 e2 going move =>
      have hcalm := d.calm_move phase hc
      rw [move] at hcalm
      cases hcalm with
      | leads calm2 => exact calm2
  | @fail phase d e err e2 going move =>
      have hcalm := d.calm_move phase hc
      rw [move] at hcalm
      cases hcalm with
      | ended gaveUp => exact absurd gaveUp (going _)
      | meetsEnd waits nothing closed calm2 => exact calm2
  | @turn phase s e =>
      have hwire := c.enter_wire s e
      refine ⟨?_, ?_, ?_, ?_, (c.enter_deadline s e).trans hc.deadline,
        c.enter_window s e hc.window, ?_⟩
      · unfold arrive
        rw [hwire]
        exact hc.arrivals
      · unfold arrive
        rw [hwire]
        exact hc.atMost
      · unfold arrive
        rw [hwire]
        exact hc.room
      · unfold arrive
        rw [hwire]
        exact hc.flushes
      · unfold arrive
        rw [hwire]
        exact hc.clock

/-- To come to a stage does not depend on what arrives. -/
theorem enter_endingIn (c : Course σ ρ) (s : σ) (e : Endpoint) (tail : List Arrival) :
    c.enter s (e.endingIn tail) = (c.enter s e).endingIn tail := by
  refine (c.enter_frame s e (e.endingIn tail).wire e.deadline).trans ?_
  rw [← c.enter_deadline s e]
  simp only [Endpoint.endingIn, c.enter_wire]

/-- What a party does on an open wire does not depend on what comes behind. -/
theorem Leads.endingIn (h : c.Leads p q) (hc : p.endpoint.Calm true) (tail : List Arrival) :
    c.Leads (p.endingIn tail) (q.endingIn tail) := by
  cases h with
  | @move phase d e d2 e2 going move =>
      have hcalm := d.calm_move phase hc
      rw [move] at hcalm
      cases hcalm with
      | leads calm2 behind => exact .move going (behind rfl tail)
  | @fail phase d e err e2 going move =>
      have hcalm := d.calm_move phase hc
      rw [move] at hcalm
      cases hcalm with
      | ended gaveUp => exact absurd gaveUp (going _)
      | meetsEnd waits nothing closed => cases closed
  | @turn phase s e =>
      show c.Leads _ ⟨c.phase s, c.talk s, (c.enter s e).endingIn tail⟩
      rw [← c.enter_endingIn]
      exact .turn

/-- What a party has done on an open wire it would have done whatever comes behind. -/
theorem leads_endingIn (h : Relation.ReflTransGen c.Leads p q) (hc : p.endpoint.Calm true)
    (tail : List Arrival) :
    Relation.ReflTransGen c.Leads (p.endingIn tail) (q.endingIn tail) := by
  induction h using Relation.ReflTransGen.head_induction_on with
  | refl => exact .refl
  | head hlead _ ih => exact .head (hlead.endingIn hc tail) (ih (hlead.calm hc))

/-- Where a party's moves end once it has gone on. -/
theorem Finishes.of_leads {o : Ending Error ρ × Endpoint} (hf : c.Finishes q o)
    (h : Relation.ReflTransGen c.Leads p q) : c.Finishes p o := by
  induction h using Relation.ReflTransGen.head_induction_on with
  | refl => exact hf
  | head hlead _ ih => exact .lead hlead ih

/-- A party is where it is brought by all that came, as if that had come in
these pieces from the beginning. -/
def Played (c : Course σ ρ) (first : σ) (source : Supply) (came : Bytes) (isOpen : Bool)
    (p : Party σ ρ) : Prop :=
  ∃ pieces : List Bytes, pieces.flatten = came ∧
    Relation.ReflTransGen c.Leads (c.arrive first (.awaiting pieces isOpen source)) p

theorem arrive_endingIn (c : Course σ ρ) (s : σ) (e : Endpoint) (tail : List Arrival) :
    (c.arrive s e).endingIn tail = c.arrive s (e.endingIn tail) := by
  rw [arrive, arrive, enter_endingIn]
  rfl

theorem arrive_calm (c : Course σ ρ) (s : σ) {e : Endpoint} (hc : e.Calm isOpen) :
    (c.arrive s e).endpoint.Calm isOpen := by
  have hturn : c.Leads ⟨c.phase s, .done (.stage s), e⟩ (c.arrive s e) := .turn
  exact hturn.calm hc

theorem Played.leads {first : σ} (hp : c.Played first source came isOpen p) (h : c.Leads p q) :
    c.Played first source came isOpen q := by
  obtain ⟨pieces, hcame, hleads⟩ := hp
  exact ⟨pieces, hcame, hleads.tail h⟩

theorem Played.deliver {first : σ} (hp : c.Played first source came true p) (bs : Bytes) :
    c.Played first source (came ++ bs) true { p with endpoint := p.endpoint.deliver bs } := by
  obtain ⟨pieces, hcame, hleads⟩ := hp
  refine ⟨pieces ++ [bs], by simp [hcame], ?_⟩
  have hcalm := c.arrive_calm first (Endpoint.awaiting_calm pieces true source)
  have hmore := leads_endingIn hleads hcalm [.data bs, .stall]
  rw [arrive_endingIn, ← Endpoint.deliver, Endpoint.deliver_awaiting] at hmore
  exact hmore

theorem Played.hangUp {first : σ} (hp : c.Played first source came true p) :
    c.Played first source came false { p with endpoint := p.endpoint.hangUp } := by
  obtain ⟨pieces, hcame, hleads⟩ := hp
  refine ⟨pieces, hcame, ?_⟩
  have hcalm := c.arrive_calm first (Endpoint.awaiting_calm pieces true source)
  have hmore := leads_endingIn hleads hcalm []
  rw [arrive_endingIn, ← Endpoint.hangUp, Endpoint.hangUp_awaiting] at hmore
  exact hmore

/-- Where the moves of a party end, they would have ended from the beginning on. -/
theorem Played.finishes {first : σ} {o : Ending Error ρ × Endpoint}
    (hp : c.Played first source came isOpen p) (hf : c.Finishes p o) :
    ∃ pieces : List Bytes, pieces.flatten = came ∧
      c.Finishes (c.arrive first (.awaiting pieces isOpen source)) o := by
  obtain ⟨pieces, hcame, hleads⟩ := hp
  exact ⟨pieces, hcame, hf.of_leads hleads⟩

/-- What is kept of a dialogue that waits holds now. -/
theorem waits_now {Q : Moment (Next σ ρ) → Account → Prop} {d : Dialogue (Next σ ρ)} {h : Account}
    (hd : d.Keeps Q h) (hwaits : d.Waits) : Q .waits h := by
  match d, hd, hwaits with
  | .octet k, hd, _ => exact hd.1
  | .octets (n + 1) k, hd, _ => simpa using hd.1 [] (Nat.succ_pos n)

/-- **A party that goes on keeps to its course.** -/
theorem Follows.leads (hcourse : c.Keeps P) (hf : Follows P came source isOpen p)
    (h : c.Leads p q) : Follows P came source isOpen q := by
  have hcalm : p.endpoint.Calm isOpen → q.endpoint.Calm isOpen := h.calm
  cases hf with
  | cutOff rest =>
      cases h with
      | @move phase d e d2 e2 going move =>
          have hrest : d = .fail (.network (.io phase _)) := rest
          rw [hrest] at move
          cases move
      | fail going move => exact absurd rest (going _)
      | turn => cases rest
  | @going a keeps fits calm =>
      cases h with
      | @move phase d e d2 e2 going move =>
          have hgoes := keeps.move phase fits
          rw [move] at hgoes
          obtain ⟨a2, keeps2, fits2⟩ := hgoes
          exact .going keeps2 fits2 (hcalm calm)
      | @fail phase d e err e2 going move =>
          have hends := d.calm_move phase calm
          rw [move] at hends
          cases hends with
          | ended gaveUp => exact absurd gaveUp (going _)
          | meetsEnd waits nothing closed calm2 taken =>
              refine .cutOff rfl (waits_now keeps waits) (fits.next_nothing taken) ?_ closed calm2
              show e.next.2.pending = []
              rw [Endpoint.pending_next e taken, nothing]
      | turn => exact .going (hcourse.talk keeps) (hcourse.enter keeps fits) (hcalm calm)

/-- Octets that arrive do not lead a party astray. -/
theorem Follows.deliver (hf : Follows P came source true p) (bs : Bytes) :
    Follows P (came ++ bs) source true { p with endpoint := p.endpoint.deliver bs } := by
  cases hf with
  | going keeps fits calm =>
      obtain ⟨hcalm, hpending⟩ := calm.deliver bs
      exact .going keeps (fits.arrive rfl hpending) hcalm
  | cutOff rest waited fits nothing closed => cases closed

/-- That no more octets arrive does not lead a party astray. -/
theorem Follows.hangUp (hf : Follows P came source true p) :
    Follows P came source false { p with endpoint := p.endpoint.hangUp } := by
  cases hf with
  | going keeps fits calm =>
      obtain ⟨hcalm, hpending⟩ := calm.hangUp
      have hnothing : p.endpoint.hangUp.pending = p.endpoint.pending ++ [] :=
        hpending.trans (List.append_nil _).symm
      have hfits := fits.arrive (w := p.endpoint.hangUp.wire) rfl hnothing
      rw [List.append_nil] at hfits
      exact .going keeps hfits hcalm
  | cutOff rest waited fits nothing closed => cases closed

/-- **A party that cannot go on** is done, has given up, was cut off, or waits. -/
theorem Follows.ends (hf : Follows P came source isOpen p) (hquiet : ∀ q, ¬ c.Leads p q) :
    ∃ m h, P p.phase m h ∧ Account.Fits came [] source h p.endpoint ∧ p.Ends isOpen m := by
  cases hf with
  | cutOff rest waited fits nothing closed =>
      exact ⟨_, _, waited, fits, .cutOff rest nothing closed⟩
  | @going a keeps fits calm =>
      obtain ⟨phase, d, e⟩ := p
      by_cases hdone : ∃ r, d = .done r
      · obtain ⟨s | r, rfl⟩ := hdone
        · exact absurd .turn (hquiet _)
        · exact ⟨_, a, keeps, fits, .ended rfl⟩
      by_cases hfail : ∃ err, d = .fail err
      · obtain ⟨err, rfl⟩ := hfail
        exact ⟨_, a, keeps, fits, .gaveUp rfl⟩
      have hcalm := d.calm_move phase calm
      rcases hm : d.move phase e with ⟨d2 | err | _ | _, e2⟩
      · exact absurd (.move (fun a ha => hdone ⟨a, ha⟩) hm) (hquiet _)
      · exact absurd (.fail (fun err he => hfail ⟨err, he⟩) hm) (hquiet _)
      · rw [hm] at hcalm
        cases hcalm
      · rw [hm] at hcalm
        cases hcalm with
        | waits waits nothing more =>
            exact ⟨_, a, waits_now keeps waits, fits, .waiting waits nothing more⟩

end Course

end ManagedTransport
