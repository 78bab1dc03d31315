import ManagedTransport.Proofs.Course

/-!
# Deadlines

Under a deadline a party does what it would do without one, up to the first
wait that outlasts the deadline.  There it gives up, having written what it
would have written by then.

A wait that never ends outlasts every deadline.  A party that does not have to
wait is never late, even if the deadline has long passed.

* `Outlasts`, `FirstOutlasts` — the first wait of an unhurried party that a
  deadline cuts short;
* `Finishes.deadline` — a hurried party follows the unhurried one up to there;
* `negotiate_deadline` — the same for a client that negotiates.
-/

namespace ManagedTransport

/-- What began at `before` and ended at `after` took time and went on beyond
the limit, or never ended. -/
def Ending.Outlasts {ε α : Type} (limit before : Nat) (r : Ending ε α) (after : Nat) : Prop :=
  r = .stuck ∨ (before < after ∧ limit < after)

namespace Wire

/-- Time does not run backwards. -/
theorem clock_le_readFrom (window : Nat) (arrivals : List Arrival) (now : Nat) :
    now ≤ (readFrom window none arrivals now).2.2 := by
  induction arrivals generalizing now with
  | nil => exact Nat.le_refl _
  | cons a rest ih =>
      rcases a with (_ | ⟨b, bs⟩) | millis | f | _
      · simpa only [readFrom] using ih now
      · exact Nat.le_refl _
      · simp only [readFrom, isLate, Bool.false_eq_true, if_false]
        exact Nat.le_trans (Nat.le_add_right _ _) (ih (now + millis))
      · exact Nat.le_refl _
      · exact Nat.le_refl _

/-- Who waits as long as it takes is never late. -/
theorem readFrom_ne_late (window : Nat) (arrivals : List Arrival) (now : Nat) :
    (readFrom window none arrivals now).1 ≠ .late := by
  induction arrivals generalizing now with
  | nil => simp [readFrom]
  | cons a rest ih =>
      rcases a with (_ | ⟨b, bs⟩) | millis | f | _
      · simpa only [readFrom] using ih now
      · simp [readFrom]
      · simp only [readFrom, isLate, Bool.false_eq_true, if_false]
        exact ih (now + millis)
      · simp [readFrom]
      · simp [readFrom]

/-- **A deadline cuts short a read that outlasts it, and changes no other.** -/
theorem readFrom_deadline (window limit : Nat) (arrivals : List Arrival) (now : Nat) :
    ((readFrom window none arrivals now).1.Outlasts limit now
        (readFrom window none arrivals now).2.2 →
      (readFrom window (some limit) arrivals now).1 = .late) ∧
    (¬ (readFrom window none arrivals now).1.Outlasts limit now
        (readFrom window none arrivals now).2.2 →
      readFrom window (some limit) arrivals now = readFrom window none arrivals now) := by
  induction arrivals generalizing now with
  | nil => simp [readFrom, Ending.Outlasts]
  | cons a rest ih =>
      rcases a with (_ | ⟨b, bs⟩) | millis | f | _
      · simpa only [readFrom] using ih now
      · simp [readFrom, Ending.Outlasts]
      · obtain ⟨hlate, hsame⟩ := ih (now + millis)
        have hclock := clock_le_readFrom window rest (now + millis)
        simp only [readFrom, isLate, Bool.false_eq_true, if_false, Bool.and_eq_true,
          decide_eq_true_eq]
        by_cases hcut : 0 < millis ∧ limit < now + millis
        · simp only [if_pos hcut]
          refine ⟨fun _ => trivial, fun hnot => absurd (.inr ?_) hnot⟩
          omega
        · simp only [if_neg hcut]
          -- a pause in time leaves the question to what comes after it
          refine ⟨fun hout => hlate ?_, fun hnot => hsame fun hout => hnot ?_⟩
          · exact hout.imp_right fun h => by omega
          · exact hout.imp_right fun h => by omega
      · simp [readFrom, Ending.Outlasts]
      · simp [readFrom, Ending.Outlasts]

end Wire

namespace Endpoint

/-- The party in a hurry: it gives up waiting at the limit. -/
def hurried (limit : Nat) (e : Endpoint) : Endpoint := { e with deadline := some limit }

variable {limit : Nat} {e : Endpoint}

/-- Taking an octet lets time go on, and without a deadline it is never late. -/
theorem next_unhurried (hdeadline : e.deadline = none) :
    e.wire.clock ≤ e.next.2.wire.clock ∧ e.next.1 ≠ .late := by
  rcases hh : e.held with _ | ⟨b, bs⟩
  · have hclock := Wire.clock_le_readFrom e.window e.wire.arrivals e.wire.clock
    have hlate := Wire.readFrom_ne_late e.window e.wire.arrivals e.wire.clock
    simp only [next, hh, Wire.read, hdeadline]
    rcases hr : Wire.readFrom e.window none e.wire.arrivals e.wire.clock with
      ⟨(_ | ⟨b, bs⟩) | f | _ | _, rest, now⟩
    all_goals rw [hr] at hclock hlate
    case late => exact absurd rfl hlate
    all_goals exact ⟨hclock, by simp⟩
  · simp only [next, hh]
    exact ⟨Nat.le_refl _, by simp⟩

/-- A deadline cuts short the taking of an octet that outlasts it, and changes
no other. -/
theorem next_hurried (limit : Nat) (hdeadline : e.deadline = none) :
    (e.next.1.Outlasts limit e.wire.clock e.next.2.wire.clock →
      (e.hurried limit).next.1 = .late) ∧
    (¬ e.next.1.Outlasts limit e.wire.clock e.next.2.wire.clock →
      (e.hurried limit).next = (e.next.1, e.next.2.hurried limit)) := by
  rcases hh : e.held with _ | ⟨b, bs⟩
  · have hcut := Wire.readFrom_deadline e.window limit e.wire.arrivals e.wire.clock
    simp only [next, hurried, hh, Wire.read, hdeadline]
    rcases hr : Wire.readFrom e.window none e.wire.arrivals e.wire.clock with
      ⟨(_ | ⟨b, bs⟩) | f | _ | _, rest, now⟩
    all_goals
      rw [hr] at hcut
      constructor
      · intro hout
        rcases hs : Wire.readFrom e.window (some limit) e.wire.arrivals e.wire.clock with
          ⟨r, rest2, now2⟩
        rw [hs] at hcut
        obtain rfl : r = .late := hcut.1 (hout.imp (fun h => by cases h <;> rfl) id)
        rfl
      · intro hnot
        rw [hcut.2 fun hout => hnot (hout.imp (fun h => by cases h <;> rfl) id)]
  · simp [next, hurried, hh, Ending.Outlasts]

end Endpoint

namespace Dialogue

variable {α : Type} {phase : Phase} {limit : Nat} {e : Endpoint}

/-- Waiting for an octet lets time go on and is never late without a deadline. -/
theorem hear_unhurried {short : Fault} {k : UInt8 → Dialogue α} (hdeadline : e.deadline = none) :
    e.wire.clock ≤ (hear phase short k e).2.wire.clock ∧ (hear phase short k e).1 ≠ .late := by
  have hnext := e.next_unhurried hdeadline
  rcases hn : e.next with ⟨(_ | b) | f | _ | _, e2⟩
  all_goals
    rw [hn] at hnext
    simp only [hear, hn]
  case late => exact absurd rfl hnext.2
  all_goals exact ⟨hnext.1, by simp⟩

/-- A move of an unhurried party lets time go on and is never late. -/
theorem move_unhurried (phase : Phase) (d : Dialogue α) (hdeadline : e.deadline = none) :
    e.wire.clock ≤ (d.move phase e).2.wire.clock ∧ (d.move phase e).1 ≠ .late := by
  match d with
  | done a => exact ⟨Nat.le_refl _, by simp [move]⟩
  | fail err => exact ⟨Nat.le_refl _, by simp [move]⟩
  | octet k => exact hear_unhurried hdeadline
  | octets 0 k => exact ⟨Nat.le_refl _, by simp [move]⟩
  | octets (n + 1) k => exact hear_unhurried hdeadline
  | send bs k =>
      have hclock := Wire.clock_write e.wire bs
      rcases hw : e.wire.write bs with ⟨f | _, w⟩ <;>
      · rw [hw] at hclock
        simp only [move, hw]
        exact ⟨Nat.le_of_eq hclock.symm, by simp⟩
  | flush k =>
      have hclock := Wire.clock_flush e.wire
      rcases hw : e.wire.flush with ⟨f | _, w⟩ <;>
      · rw [hw] at hclock
        simp only [move, hw]
        exact ⟨Nat.le_of_eq hclock.symm, by simp⟩
  | draw k => exact ⟨Nat.le_refl _, by simp [move]⟩
  | mark s k => exact ⟨Nat.le_refl _, by simp [move]⟩
  | ahead k => exact ⟨Nat.le_refl _, by simp [move]⟩

/-- A party keeps its patience. -/
theorem deadline_move (phase : Phase) (d : Dialogue α) (e : Endpoint) :
    (d.move phase e).2.deadline = e.deadline := by
  have hhear : ∀ (short : Fault) (k : UInt8 → Dialogue α),
      (hear phase short k e).2.deadline = e.deadline := by
    intro short k
    have hframe := e.next_frame.2.2.2.2
    rcases hn : e.next with ⟨(_ | b) | f | _ | _, e2⟩ <;>
    · rw [hn] at hframe
      simp only [hear, hn]
      exact hframe
  cases d with
  | octet k => exact hhear _ _
  | octets n k =>
      cases n with
      | zero => rfl
      | succ n => exact hhear _ _
  | send bs k => rcases hw : e.wire.write bs with ⟨f | _, w⟩ <;> simp only [move, hw]
  | flush k => rcases hw : e.wire.flush with ⟨f | _, w⟩ <;> simp only [move, hw]
  | done a | fail err | draw k | mark s k | ahead k => rfl

/-- What a party in a hurry comes to, from an endpoint where it would come to
`free` without a deadline: it is late, having written no more, if that outlasts
the deadline, and else comes to the same. -/
def CutShort (limit : Nat) (e : Endpoint) (free hurried : Ending Error (Dialogue α) × Endpoint) :
    Prop :=
  (free.1.Outlasts limit e.wire.clock free.2.wire.clock →
      ∃ e2, hurried = (.late, e2) ∧ e2.wire.sent = e.wire.sent) ∧
    (¬ free.1.Outlasts limit e.wire.clock free.2.wire.clock →
      hurried = (free.1, free.2.hurried limit))

/-- What takes no time is not cut short. -/
theorem cutShort_of_clock_eq {free hurried : Ending Error (Dialogue α) × Endpoint}
    (hends : free.1 ≠ .stuck) (hclock : free.2.wire.clock = e.wire.clock)
    (hsame : hurried = (free.1, free.2.hurried limit)) : CutShort limit e free hurried := by
  refine ⟨fun hout => ?_, fun _ => hsame⟩
  rcases hout with hstuck | ⟨hlt, -⟩
  · exact absurd hstuck hends
  · omega

/-- A deadline cuts short waiting for an octet. -/
theorem hear_hurried {short : Fault} {k : UInt8 → Dialogue α} (hdeadline : e.deadline = none) :
    CutShort limit e (hear phase short k e) (hear phase short k (e.hurried limit)) := by
  have hcut := e.next_hurried limit hdeadline
  have hsent := (e.hurried limit).next_frame.1
  rcases hn : e.next with ⟨(_ | b) | f | _ | _, e2⟩
  all_goals
    rw [hn] at hcut
    simp only [hear, hn]
    constructor
    · intro hout
      have hlate := hcut.1 (hout.imp (fun h => by cases h <;> rfl) id)
      rcases hl : (e.hurried limit).next with ⟨r, e3⟩
      rw [hl] at hlate hsent
      obtain rfl : r = .late := hlate
      exact ⟨e3, rfl, hsent⟩
    · intro hnot
      rw [hcut.2 fun hout => hnot (hout.imp (fun h => by cases h <;> rfl) id)]

/-- **A deadline cuts short a move that outlasts it, and changes no other.** -/
theorem move_hurried (phase : Phase) (limit : Nat) (d : Dialogue α)
    (hdeadline : e.deadline = none) :
    CutShort limit e (d.move phase e) (d.move phase (e.hurried limit)) := by
  match d with
  | done a => exact cutShort_of_clock_eq (by simp [move]) rfl rfl
  | fail err => exact cutShort_of_clock_eq (by simp [move]) rfl rfl
  | octet k => exact hear_hurried hdeadline
  | octets 0 k => exact cutShort_of_clock_eq (by simp [move]) rfl rfl
  | octets (n + 1) k => exact hear_hurried hdeadline
  | send bs k =>
      have hclock := Wire.clock_write e.wire bs
      rcases hw : e.wire.write bs with ⟨f | _, w⟩ <;>
      · rw [hw] at hclock
        simp only [move, Endpoint.hurried, hw]
        exact cutShort_of_clock_eq (by simp) hclock rfl
  | flush k =>
      have hclock := Wire.clock_flush e.wire
      rcases hw : e.wire.flush with ⟨f | _, w⟩ <;>
      · rw [hw] at hclock
        simp only [move, Endpoint.hurried, hw]
        exact cutShort_of_clock_eq (by simp) hclock rfl
  | draw k => exact cutShort_of_clock_eq (by simp [move]) rfl rfl
  | mark s k => exact cutShort_of_clock_eq (by simp [move]) rfl rfl
  | ahead k => exact cutShort_of_clock_eq (by simp [move]) rfl rfl

end Dialogue

section

variable {σ ρ : Type}

/-- The party in a hurry. -/
def Party.hurried (limit : Nat) (p : Party σ ρ) : Party σ ρ :=
  { p with endpoint := p.endpoint.hurried limit }

/-- The next move of a party outlasts the limit. -/
def Party.Outlasts (limit : Nat) (p : Party σ ρ) : Prop :=
  (p.rest.move p.phase p.endpoint).1.Outlasts limit p.endpoint.wire.clock
    (p.rest.move p.phase p.endpoint).2.wire.clock

/-- The first place on a party's way whose next move outlasts the limit. -/
inductive Course.FirstOutlasts (c : Course σ ρ) (limit : Nat) : Party σ ρ → Party σ ρ → Prop
  | here {p} (outlasts : p.Outlasts limit) : FirstOutlasts c limit p p
  | later {p q r} (inTime : ¬ p.Outlasts limit) (lead : c.Leads p q)
      (first : FirstOutlasts c limit q r) : FirstOutlasts c limit p r

namespace Course

variable {c : Course σ ρ} {limit : Nat}

/-- A party that goes on lets time go on, and keeps its patience. -/
theorem Leads.unhurried {p q : Party σ ρ} (h : c.Leads p q)
    (hdeadline : p.endpoint.deadline = none) :
    p.endpoint.wire.clock ≤ q.endpoint.wire.clock ∧ q.endpoint.deadline = none := by
  rcases h.endpoint_cases with hq | ⟨s, rfl⟩
  · have hclock := (p.rest.move_unhurried p.phase hdeadline).1
    have hkept := p.rest.deadline_move p.phase p.endpoint
    rw [hq]
    exact ⟨hclock, hkept.trans hdeadline⟩
  · refine ⟨?_, (c.enter_deadline s p.endpoint).trans hdeadline⟩
    show p.endpoint.wire.clock ≤ (c.enter s p.endpoint).wire.clock
    exact Nat.le_of_eq (by rw [c.enter_wire])

/-- A party that goes on does not wait for ever, so it outlasts the limit if it
comes to the next place after it. -/
theorem Leads.outlasts_iff {p q : Party σ ρ} (h : c.Leads p q) :
    p.Outlasts limit ↔
      p.endpoint.wire.clock < q.endpoint.wire.clock ∧ limit < q.endpoint.wire.clock := by
  cases h with
  | move going move =>
      unfold Party.Outlasts
      rw [move]
      simp [Ending.Outlasts]
  | fail going move =>
      unfold Party.Outlasts
      rw [move]
      simp [Ending.Outlasts]
  | @turn phase s e =>
      simp [Party.Outlasts, Dialogue.move, Ending.Outlasts, arrive, c.enter_wire]

/-- A party in a hurry goes on as it would otherwise, if the next move is in
time; it has not moved its endpoint where it comes to another stage. -/
theorem Leads.hurried {p q : Party σ ρ} (h : c.Leads p q)
    (hdeadline : p.endpoint.deadline = none) (hin : ¬ p.Outlasts limit) :
    c.Leads (p.hurried limit) (q.hurried limit) := by
  cases h with
  | @move phase d e d2 e2 going move =>
      have hsame := (d.move_hurried phase limit hdeadline).2 hin
      rw [move] at hsame
      exact .move going hsame
  | @fail phase d e err e2 going move =>
      have hsame := (d.move_hurried phase limit hdeadline).2 hin
      rw [move] at hsame
      exact .fail going hsame
  | @turn phase s e =>
      have henter := c.enter_frame s e e.wire (some limit)
      rw [← c.enter_wire s e] at henter
      show c.Leads _ ⟨c.phase s, c.talk s, { c.enter s e with deadline := some limit }⟩
      rw [← henter, c.enter_wire]
      exact .turn

/-- A party in a hurry is late where the next move outlasts the limit. -/
theorem Outlasts.hurried {p : Party σ ρ} (hout : p.Outlasts limit)
    (hdeadline : p.endpoint.deadline = none) :
    ∃ after, c.Finishes (p.hurried limit) (.late, after) ∧
      after.wire.sent = p.endpoint.wire.sent := by
  obtain ⟨after, hmove, hsent⟩ :=
    (p.rest.move_hurried p.phase limit hdeadline).1 hout
  exact ⟨after, .late hmove, hsent⟩

/-- **A party in a hurry** ends as it would without a deadline if all of that
takes no time or is over in time; otherwise it is late, having written what it
would have written up to the first move that outlasts the limit. -/
theorem Finishes.hurried (limit : Nat) {p : Party σ ρ} {o : Ending Error ρ × Endpoint}
    (hf : c.Finishes p o) (hdeadline : p.endpoint.deadline = none) :
    p.endpoint.wire.clock ≤ o.2.wire.clock ∧ o.1 ≠ .late ∧
      (¬ o.1.Outlasts limit p.endpoint.wire.clock o.2.wire.clock →
        c.Finishes (p.hurried limit) (o.1, o.2.hurried limit)) ∧
      (o.1.Outlasts limit p.endpoint.wire.clock o.2.wire.clock →
        ∃ place after, c.FirstOutlasts limit p place ∧
          c.Finishes (p.hurried limit) (.late, after) ∧
          after.wire.sent = place.endpoint.wire.sent) := by
  induction hf with
  | @ended phase r e =>
      refine ⟨Nat.le_refl _, by simp, fun _ => .ended, ?_⟩
      intro hout
      simp [Ending.Outlasts] at hout
  | @gaveUp phase err e =>
      refine ⟨Nat.le_refl _, by simp, fun _ => .gaveUp, ?_⟩
      intro hout
      simp [Ending.Outlasts] at hout
  | @late phase d e e2 move =>
      have hlate := (d.move_unhurried phase hdeadline).2
      rw [move] at hlate
      exact absurd rfl hlate
  | @stuck phase d e e2 move =>
      have hclock := (d.move_unhurried phase hdeadline).1
      have hout : (⟨phase, d, e⟩ : Party σ ρ).Outlasts limit := by
        unfold Party.Outlasts
        rw [move]
        exact .inl rfl
      rw [move] at hclock
      obtain ⟨after, hfin, hsent⟩ := Outlasts.hurried (c := c) hout hdeadline
      exact ⟨hclock, by simp, fun hnot => absurd (.inl rfl) hnot,
        fun _ => ⟨_, after, .here hout, hfin, hsent⟩⟩
  | @lead p q o lead finishes ih =>
      obtain ⟨hclock, hnone⟩ := lead.unhurried hdeadline
      obtain ⟨hle, hlate, hin, hout⟩ := ih hnone
      refine ⟨Nat.le_trans hclock hle, hlate, ?_, ?_⟩
      · intro hnot
        have hnow : ¬ p.Outlasts limit := by
          rw [lead.outlasts_iff]
          exact fun h => hnot (.inr (by omega))
        exact .lead (lead.hurried hdeadline hnow)
          (hin fun h => hnot (h.imp_right fun h => by omega))
      · intro h
        by_cases hnow : p.Outlasts limit
        · obtain ⟨after, hfin, hsent⟩ := Outlasts.hurried (c := c) hnow hdeadline
          exact ⟨p, after, .here hnow, hfin, hsent⟩
        · have hlead := lead.hurried hdeadline hnow
          have hclocks := mt lead.outlasts_iff.mpr hnow
          obtain ⟨place, after, hfirst, hfin, hsent⟩ :=
            hout (h.imp_right fun h => by omega)
          exact ⟨place, after, .later hnow lead hfirst, .lead hlead hfin, hsent⟩

end Course

end

/-- A client that is about to negotiate, with all the time in the world. -/
def unhurriedClient (cookie : Cookie) (info : SessionInfo) (e : Endpoint) :
    Party ClientStage Unit :=
  (clientCourse cookie info).arrive .authenticating { e with deadline := none }

namespace Endpoint

variable {cookie : Cookie} {info : SessionInfo} {limit : Nat} {e : Endpoint}

/-- A client reports a timeout of what it had left at the call, having written
what it would have written up to the first move that outlasts the limit. -/
def TimesOut (cookie : Cookie) (info : SessionInfo) (limit : Nat) (e : Endpoint) : Prop :=
  (e.negotiate cookie info limit).1 = .failed (.timeout (limit - e.wire.clock)) ∧
    ∃ place, (clientCourse cookie info).FirstOutlasts limit (unhurriedClient cookie info e) place ∧
      (e.negotiate cookie info limit).2.wire.sent = place.endpoint.wire.sent

/-- A client ends so under the limit, leaving the wire as `after` does. -/
def Returns (cookie : Cookie) (info : SessionInfo) (limit : Nat) (e : Endpoint)
    (r : Ending Error Unit) (after : Endpoint) : Prop :=
  (e.negotiate cookie info limit).1 = r ∧ (e.negotiate cookie info limit).2.wire = after.wire

/-- Negotiating is exchanging in a hurry, and being late or stuck is a timeout. -/
theorem negotiate_eq (cookie : Cookie) (info : SessionInfo) (limit : Nat) (e : Endpoint) :
    (e.negotiate cookie info limit).2.wire = ((e.hurried limit).exchange cookie info).2.wire ∧
      (e.negotiate cookie info limit).1 =
        match ((e.hurried limit).exchange cookie info).1 with
        | .late => .failed (.timeout (limit - e.wire.clock))
        | .stuck => .failed (.timeout (limit - e.wire.clock))
        | r => r := by
  rcases hx : (e.hurried limit).exchange cookie info with ⟨_ | err | _ | _, after⟩ <;>
  · rw [hurried] at hx
    simp only [negotiate, hx, and_self]

/-- A client that exchanges everything without a deadline, in no time or in time, ends
so under the limit. -/
theorem returns_of_exchange {r : Ending Error Unit} {after : Endpoint}
    (hx : { e with deadline := none }.exchange cookie info = (r, after))
    (hin : ¬ r.Outlasts limit e.wire.clock after.wire.clock) :
    e.Returns cookie info limit r after := by
  obtain ⟨hwire, hresult⟩ := e.negotiate_eq cookie info limit
  obtain ⟨free, hfree, hfreeWire⟩ := exchange_finishes cookie info { e with deadline := none }
  obtain ⟨cut, hcut, hcutWire⟩ := exchange_finishes cookie info (e.hurried limit)
  obtain ⟨-, hlate, hsame, -⟩ := hfree.hurried limit rfl
  rw [hx] at hfreeWire hlate hsame
  rw [hfreeWire] at hin
  obtain ⟨h1, h2⟩ := Prod.mk.inj (hcut.unique (hsame hin))
  refine ⟨?_, ?_⟩
  · rw [hresult, h1]
    rcases r with _ | err | _ | _
    · rfl
    · rfl
    · exact absurd rfl hlate
    · exact absurd (.inl rfl) hin
  · rw [hwire, hcutWire, h2, hfreeWire]
    rfl

/-- **The deadline changes nothing but when to give up.**  A client that
negotiates ends as it would without a deadline, if that takes no time or is
over by the limit; otherwise it times out.  Without a deadline it is never
late. -/
theorem negotiate_deadline (cookie : Cookie) (info : SessionInfo) (limit : Nat) (e : Endpoint) :
    match { e with deadline := none }.exchange cookie info with
    | (.late, _) => False
    | (.stuck, _) => e.TimesOut cookie info limit
    | (r, after) =>
      if after.wire.clock = e.wire.clock ∨ after.wire.clock ≤ limit then
        e.Returns cookie info limit r after
      else e.TimesOut cookie info limit := by
  obtain ⟨hwire, hresult⟩ := e.negotiate_eq cookie info limit
  obtain ⟨free, hfree, hfreeWire⟩ := exchange_finishes cookie info { e with deadline := none }
  obtain ⟨cut, hcut, hcutWire⟩ := exchange_finishes cookie info (e.hurried limit)
  obtain ⟨hle, hlate, -, hout⟩ := hfree.hurried limit rfl
  rcases hx : Endpoint.exchange cookie info { e with deadline := none } with ⟨r, after⟩
  rw [hx] at hfreeWire hlate hout
  have hclock : after.wire.clock = free.wire.clock := by rw [← hfreeWire]
  have htimesOut : r.Outlasts limit e.wire.clock free.wire.clock →
      e.TimesOut cookie info limit := by
    intro h
    obtain ⟨place, last, hfirst, hfin, hsent⟩ := hout h
    obtain ⟨h1, h2⟩ := Prod.mk.inj (hcut.unique hfin)
    refine ⟨?_, place, hfirst, ?_⟩
    · rw [hresult, h1]
    · rw [hwire, hcutWire, h2, hsent]
  have hdecide : r ≠ .stuck →
      if after.wire.clock = e.wire.clock ∨ after.wire.clock ≤ limit then
        e.Returns cookie info limit r after
      else e.TimesOut cookie info limit := by
    intro hends
    have hle : e.wire.clock ≤ free.wire.clock := hle
    split
    next hintime =>
      apply returns_of_exchange hx
      rintro (hstuck | ⟨hlt, hlimit⟩)
      · exact hends hstuck
      · omega
    next hlong => exact htimesOut (.inr (by omega))
  rcases r with _ | err | _ | _
  · exact hdecide (by simp)
  · exact hdecide (by simp)
  · exact hlate rfl
  · exact htimesOut (.inl rfl)

end Endpoint

end ManagedTransport
