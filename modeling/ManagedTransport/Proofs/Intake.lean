import ManagedTransport.Endpoint

/-!
# What a party takes in

A party that reads ahead takes octets from its wire fill by fill, one fill for each read,
and is given them one by one.  `Dialogue.intake` tells, of a dialogue that is held at an
endpoint, what each read has brought and what the party was given of that.

* `Accounts` — how the two are related: what was read is gone from the wire, in order; and
  what is held is the part of the last fill that the party was not given;
* `accounts_hold` — they are so related whatever the dialogue, the wire and the deadline;
* `Accounts.last_fill`, `Accounts.nothing_held` — the fill that brought the last octet that
  was given; a party whose reads bring one octet at a time holds nothing.
-/

namespace ManagedTransport

/-- What a party has taken in. -/
structure Intake where
  /-- What each read brought that brought something. -/
  fills : List Bytes
  /-- The octets that the party was given, in order. -/
  given : Bytes

namespace Intake

/-- Nothing was taken in. -/
def nothing : Intake := ⟨[], []⟩

/-- One intake and then another. -/
def andThen (i j : Intake) : Intake := ⟨i.fills ++ j.fills, i.given ++ j.given⟩

@[simp] theorem nothing_andThen (i : Intake) : nothing.andThen i = i := rfl

@[simp] theorem andThen_nothing (i : Intake) : i.andThen nothing = i := by
  simp [andThen, nothing]

end Intake

namespace Endpoint

/-- What the party takes in with the next octet: a fill, if nothing is held, and the octet. -/
def intakeOne (e : Endpoint) : Intake :=
  match e.held with
  | b :: _ => ⟨[], [b]⟩
  | [] =>
    match (e.wire.read e.window e.deadline).1 with
    | .done (b :: bs) => ⟨[b :: bs], [b]⟩
    | _ => .nothing

/-- What the party takes in with the next `n` octets, as far as they come. -/
def intake : Nat → Endpoint → Intake
  | 0, _ => .nothing
  | n + 1, e => e.intakeOne.andThen <|
    match e.next with
    | (.done (some _), e) => intake n e
    | _ => .nothing

end Endpoint

/-- What a party takes in that holds a dialogue. -/
def Dialogue.intake {α : Type} : Dialogue α → Endpoint → Intake
  | done _, _ => .nothing
  | fail _, _ => .nothing
  | octet k, e => e.intakeOne.andThen <|
    match e.next with
    | (.done (some b), e) => (k b).intake e
    | _ => .nothing
  | octets n k, e => (e.intake n).andThen <|
    match e.take n with
    | (.done bs, e) => (k bs).intake e
    | _ => .nothing
  | send bs k, e =>
    match e.wire.write bs with
    | (.ok (), w) => k.intake { e with wire := w }
    | _ => .nothing
  | flush k, e =>
    match e.wire.flush with
    | (.ok (), w) => k.intake { e with wire := w }
    | _ => .nothing
  | draw k, e => (k e.supply.draw.1).intake { e with supply := e.supply.draw.2 }
  | mark s k, e => k.intake { e with step := s }
  | ahead k, e => (k e.held.length).intake e

namespace Wire

/-- A read brings no more than the window. -/
theorem length_readFrom_le (window : Nat) (deadline : Option Nat) (arrivals : List Arrival)
    (now : Nat) {bs : Bytes} (h : (readFrom window deadline arrivals now).1 = .done bs) :
    bs.length ≤ window := by
  fun_induction readFrom window deadline arrivals now with
  | case3 now b bs2 rest =>
      cases h
      exact List.length_take_le _ _
  | case1 =>
      cases h
      exact Nat.zero_le _
  | case2 _ _ ih => exact ih h
  | case5 _ _ _ _ ih => exact ih h
  | _ => cases h

end Wire

/-- The intake accounts for what lies between two states of an endpoint.  What was held at
first counts as a fill: of the fills the party was given the earlier ones whole and of the
last one a part, `used`, and the rest of that is held.  A fill is read only to give at
least one octet of it. -/
structure Accounts (i : Intake) (e e2 : Endpoint) : Prop where
  read : e.wire.pending = i.fills.flatten ++ e2.wire.pending
  given : ∃ earlier used, e.held :: i.fills = earlier ++ [used ++ e2.held] ∧
    i.given = earlier.flatten ++ used ∧ (used = [] → i = .nothing)
  window : e2.window = e.window
  bounded : ∀ fill ∈ i.fills, fill.length ≤ e.window

namespace Accounts

variable {i j : Intake} {e e2 e3 : Endpoint}

/-- Where neither the wire nor what is held has moved on, nothing was taken in. -/
theorem of_same (hheld : e2.held = e.held) (hpending : e2.wire.pending = e.wire.pending)
    (hwindow : e2.window = e.window) : Accounts .nothing e e2 := by
  refine ⟨hpending.symm, ⟨[], [], ?_, rfl, fun _ => rfl⟩, hwindow, nofun⟩
  rw [List.nil_append, List.nil_append, hheld]
  rfl

theorem trans (h : Accounts i e e2) (h2 : Accounts j e2 e3) : Accounts (i.andThen j) e e3 := by
  obtain ⟨earlier, used, hfills, hgiven, hused⟩ := h.given
  obtain ⟨earlier2, used2, hfills2, hgiven2, hused2⟩ := h2.given
  have hread : e.wire.pending = (i.andThen j).fills.flatten ++ e3.wire.pending := by
    rw [h.read, h2.read, Intake.andThen, List.flatten_append, List.append_assoc]
  have hbounded : ∀ fill ∈ (i.andThen j).fills, fill.length ≤ e.window := by
    intro fill hmem
    rcases List.mem_append.mp hmem with hmem | hmem
    · exact h.bounded fill hmem
    · exact h.window ▸ h2.bounded fill hmem
  refine ⟨hread, ?_, h2.window.trans h.window, hbounded⟩
  have hall : e.held :: (i.andThen j).fills = earlier ++ (used ++ e2.held) :: j.fills := by
    rw [Intake.andThen, ← List.cons_append, hfills, List.append_assoc, List.singleton_append]
  rcases earlier2 with _ | ⟨first, earlier2⟩
  · -- the second part goes on within the fill in which the first has ended
    obtain ⟨hheld, hnone⟩ := List.cons.inj hfills2
    refine ⟨earlier, used ++ used2, ?_, ?_, ?_⟩
    · rw [hall, hnone, hheld, List.append_assoc]
    · rw [Intake.andThen, hgiven, hgiven2]
      simp
    · intro hnil
      obtain ⟨hnil, hnil2⟩ := List.append_eq_nil_iff.mp hnil
      rw [hused hnil, hused2 hnil2, Intake.nothing_andThen]
  · obtain ⟨rfl, hlater⟩ := List.cons.inj hfills2
    refine ⟨earlier ++ (used ++ e2.held) :: earlier2, used2, ?_, ?_, ?_⟩
    · rw [hall, hlater]
      simp
    · rw [Intake.andThen, hgiven, hgiven2]
      simp
    · intro hnil
      rw [hused2 hnil] at hlater
      simp [Intake.nothing] at hlater

/-- **What was read from the wire** was given, or is held: together with what was held at
first it is what was given and then what is held now. -/
theorem held_append (h : Accounts i e e2) : e.held ++ i.fills.flatten = i.given ++ e2.held := by
  obtain ⟨earlier, used, hfills, hgiven, -⟩ := h.given
  have hflat := congrArg List.flatten hfills
  simpa [hgiven] using hflat

/-- Nothing that the party was not given is lost. -/
theorem pending (h : Accounts i e e2) : e.pending = i.given ++ e2.pending := by
  rw [Endpoint.pending, h.read, ← List.append_assoc, h.held_append, List.append_assoc]
  rfl

/-- **The fill that brought the last octet given** holds behind it what is held now. -/
theorem last_fill {given : Bytes} {b : UInt8} (h : Accounts i e e2) (hheld : e.held = [])
    (hgiven : i.given = given ++ [b]) :
    ∃ earlier before, i.fills = earlier ++ [before ++ b :: e2.held] ∧
      given = earlier.flatten ++ before := by
  obtain ⟨earlier, used, hfills, hused, hnothing⟩ := h.given
  rcases List.eq_nil_or_concat used with rfl | ⟨before, c, rfl⟩
  · rw [hnothing rfl] at hgiven
    simp [Intake.nothing] at hgiven
  · rw [List.concat_eq_append] at hfills hused
    rw [hused, ← List.append_assoc] at hgiven
    obtain ⟨rfl, hb⟩ := List.append_inj' hgiven rfl
    obtain rfl := List.singleton_inj.mp hb
    rcases earlier with _ | ⟨first, earlier⟩
    · obtain ⟨hfirst, -⟩ := List.cons.inj hfills
      rw [hheld] at hfirst
      simp at hfirst
    · obtain ⟨rfl, hlater⟩ := List.cons.inj hfills
      refine ⟨earlier, before, ?_, ?_⟩
      · simpa using hlater
      · rw [List.flatten_cons, hheld, List.nil_append]

/-- A party whose reads bring one octet at a time holds nothing. -/
theorem nothing_held (h : Accounts i e e2) (hwindow : e.window = 1) (hheld : e.held = []) :
    e2.held = [] := by
  obtain ⟨earlier, used, hfills, -, hnothing⟩ := h.given
  rcases earlier with _ | ⟨first, earlier⟩
  · obtain ⟨hfirst, -⟩ := List.cons.inj hfills
    rw [hheld] at hfirst
    exact (List.append_eq_nil_iff.mp hfirst.symm).2
  · obtain ⟨-, hlater⟩ := List.cons.inj hfills
    have hshort := h.bounded (used ++ e2.held) (by rw [hlater]; simp)
    rcases used with _ | ⟨b, used⟩
    · rw [hnothing rfl] at hlater
      simp [Intake.nothing] at hlater
    · rw [hwindow, List.length_append, List.length_cons] at hshort
      exact List.length_eq_zero_iff.mp (by omega)

end Accounts

namespace Endpoint

theorem accounts_next (e : Endpoint) : Accounts e.intakeOne e e.next.2 := by
  rcases hh : e.held with _ | ⟨b, held⟩
  · rcases hr : e.wire.read e.window e.deadline with ⟨r, w⟩
    have hlost : (∀ bs, r ≠ .done bs) → w.pending = e.wire.pending := by
      have hpending := Wire.pending_read e.window e.deadline e.wire
      rw [hr] at hpending
      exact hpending
    rcases r with (_ | ⟨b, bs⟩) | f | _ | _ <;> simp only [next, intakeOne, hh, hr]
    case done.cons =>
      have hread := Wire.pending_read_done hr
      have hlen : (b :: bs).length ≤ e.window :=
        Wire.length_readFrom_le e.window e.deadline e.wire.arrivals e.wire.clock
          (congrArg Prod.fst hr)
      refine ⟨?_, ⟨[[]], [b], ?_, rfl, by rintro ⟨⟩⟩, rfl, ?_⟩
      · rw [← hread]
        simp
      · rw [hh]
        rfl
      · intro fill hmem
        rw [List.mem_singleton.mp hmem]
        exact hlen
    case done.nil => exact .of_same hh.symm (Wire.pending_read_done hr) rfl
    all_goals exact .of_same hh.symm (hlost (by simp)) rfl
  · simp only [next, intakeOne, hh]
    refine ⟨rfl, ⟨[], [b], ?_, rfl, by rintro ⟨⟩⟩, rfl, by rintro _ ⟨⟩⟩
    rw [hh]
    rfl

theorem accounts_takeOnto (n : Nat) (taken : Bytes) (e : Endpoint) :
    Accounts (e.intake n) e (takeOnto n taken e).2 := by
  induction n generalizing taken e with
  | zero => exact .of_same rfl rfl rfl
  | succ n ih =>
      have hnext := e.accounts_next
      rcases hn : e.next with ⟨(_ | b) | f | _ | _, e2⟩ <;> rw [hn] at hnext <;>
        simp only [intake, takeOnto, hn, Intake.andThen_nothing]
      case done.some => exact hnext.trans (ih (b :: taken) e2)
      all_goals exact hnext

end Endpoint

/-- **Intake and endpoint tally** after every dialogue, whatever the wire does. -/
theorem Dialogue.accounts_hold {α : Type} (phase : Phase) (d : Dialogue α) (e : Endpoint) :
    Accounts (d.intake e) e (d.hold phase e).2 := by
  induction d generalizing e with
  | done a => exact .of_same rfl rfl rfl
  | fail err => exact .of_same rfl rfl rfl
  | octet k ih =>
      have hnext := e.accounts_next
      rcases hn : e.next with ⟨(_ | b) | f | _ | _, e2⟩ <;> rw [hn] at hnext <;>
        simp only [Dialogue.intake, hold, hn, Intake.andThen_nothing]
      case done.some => exact hnext.trans (ih b e2)
      all_goals exact hnext
  | octets n k ih =>
      have htake : Accounts (e.intake n) e (e.take n).2 := Endpoint.accounts_takeOnto n [] e
      rcases ht : e.take n with ⟨bs | f | _ | _, e2⟩ <;> rw [ht] at htake <;>
        simp only [Dialogue.intake, hold, ht, Intake.andThen_nothing]
      case done => exact htake.trans (ih bs e2)
      all_goals exact htake
  | send bs k ih =>
      have hpending := Wire.pending_write e.wire bs
      rcases hw : e.wire.write bs with ⟨f | _, w⟩ <;> rw [hw] at hpending <;>
        simp only [Dialogue.intake, hold, hw]
      · exact .of_same rfl hpending rfl
      · have hsame : Accounts .nothing e { e with wire := w } := .of_same rfl hpending rfl
        exact hsame.trans (ih _)
  | flush k ih =>
      have hpending := Wire.pending_flush e.wire
      rcases hw : e.wire.flush with ⟨f | _, w⟩ <;> rw [hw] at hpending <;>
        simp only [Dialogue.intake, hold, hw]
      · exact .of_same rfl hpending rfl
      · have hsame : Accounts .nothing e { e with wire := w } := .of_same rfl hpending rfl
        exact hsame.trans (ih _)
  | draw k ih =>
      have hsame : Accounts .nothing e { e with supply := e.supply.draw.2 } := .of_same rfl rfl rfl
      exact hsame.trans (ih _ _)
  | mark s k ih =>
      have hsame : Accounts .nothing e { e with step := s } := .of_same rfl rfl rfl
      exact hsame.trans (ih _)
  | ahead k ih => exact ih _ _

namespace Endpoint

/-- A party that reads nothing ahead. -/
def Direct (e : Endpoint) : Prop := e.window = 1 ∧ e.held = []

variable {e : Endpoint}

/-- All that is pending for a party that reads nothing ahead is on its wire. -/
theorem Direct.pending_eq (h : e.Direct) : e.pending = e.wire.pending := by
  rw [pending, h.2, List.nil_append]

/-- A party that reads nothing ahead does so to the end of a dialogue. -/
theorem Direct.hold {α : Type} (h : e.Direct) (phase : Phase) (d : Dialogue α) :
    (d.hold phase e).2.Direct := by
  have haccounts := Dialogue.accounts_hold phase d e
  exact ⟨haccounts.window.trans h.1, haccounts.nothing_held h.1 h.2⟩

end Endpoint

end ManagedTransport
