import ManagedTransport.Negotiation
import ManagedTransport.Proofs.Moves

/-!
# Courses

Either party goes through several dialogues, one after the other: the client
authenticates and sets the session up; the relay authenticates, listens to one
command after the other, and answers.  A course says what is done at each stage
of this; a party on its course can be followed move by move through all of it.

* `Course.Leads` — one move of a party, or its turn to the next stage;
* `Course.Finishes` — where a party's moves end, and in what way;
* `exchange_finishes`, `serve_finishes` — the moves of a client end where
  `exchange` does, and those of a relay where authenticating, listening and
  answering do.
-/

namespace ManagedTransport

/-- What comes after a dialogue: another stage, or the end with a result. -/
inductive Next (σ ρ : Type) where
  | stage (next : σ)
  | ended (result : ρ)

/-- What a party does, stage by stage. -/
structure Course (σ ρ : Type) where
  phase : σ → Phase
  /-- The dialogue of a stage; its result says what comes next. -/
  talk : σ → Dialogue (Next σ ρ)
  /-- How a party comes to a stage: it may change how it reads, and no more. -/
  enter : σ → Endpoint → Endpoint
  enter_frame : ∀ s e w d,
    enter s { e with wire := w, deadline := d } = { enter s e with wire := w, deadline := d }
  enter_window : ∀ s e, 0 < e.window → 0 < (enter s e).window

/-- A party on its course. -/
structure Party (σ ρ : Type) where
  phase : Phase
  /-- What is left of the present dialogue. -/
  rest : Dialogue (Next σ ρ)
  endpoint : Endpoint

namespace Dialogue

/-- Dialogues one after the other are held one after the other. -/
theorem hold_bind {α β : Type} (phase : Phase) (d : Dialogue α) (f : α → Dialogue β)
    (e : Endpoint) :
    (d.bind f).hold phase e =
      match d.hold phase e with
      | (.done a, e) => (f a).hold phase e
      | (.failed err, e) => (.failed err, e)
      | (.late, e) => (.late, e)
      | (.stuck, e) => (.stuck, e) := by
  induction d generalizing e with
  | done a => rfl
  | fail err => rfl
  | octet k ih =>
      rcases hn : e.next with ⟨(_ | b) | f | _ | _, e2⟩
      case done.some => simpa only [Dialogue.bind, hold, hn] using ih b e2
      all_goals simp only [Dialogue.bind, hold, hn]
  | octets n k ih =>
      rcases ht : e.take n with ⟨bs | f | _ | _, e2⟩
      case done => simpa only [Dialogue.bind, hold, ht] using ih bs e2
      all_goals simp only [Dialogue.bind, hold, ht]
  | send bs k ih =>
      rcases hw : e.wire.write bs with ⟨f | _, w⟩
      · simp only [Dialogue.bind, hold, hw]
      · simpa only [Dialogue.bind, hold, hw] using ih _
  | flush k ih =>
      rcases hw : e.wire.flush with ⟨f | _, w⟩
      · simp only [Dialogue.bind, hold, hw]
      · simpa only [Dialogue.bind, hold, hw] using ih _
  | draw k ih => exact ih _ _
  | mark s k ih => exact ih _
  | ahead k ih => exact ih _ _

end Dialogue

namespace Course

variable {σ ρ : Type} (c : Course σ ρ)

theorem enter_wire (s : σ) (e : Endpoint) : (c.enter s e).wire = e.wire := by
  have hframe := congrArg Endpoint.wire (c.enter_frame s e e.wire e.deadline)
  exact hframe

theorem enter_deadline (s : σ) (e : Endpoint) : (c.enter s e).deadline = e.deadline := by
  have hframe := congrArg Endpoint.deadline (c.enter_frame s e e.wire e.deadline)
  exact hframe

/-- A party that has just come to a stage. -/
def arrive (s : σ) (e : Endpoint) : Party σ ρ := ⟨c.phase s, c.talk s, c.enter s e⟩

/-- A party goes on: by a move, by giving up, or to the next stage. -/
inductive Leads : Party σ ρ → Party σ ρ → Prop
  | move {phase d e d2 e2} (going : ∀ a, d ≠ .done a)
      (move : d.move phase e = (.done d2, e2)) : Leads ⟨phase, d, e⟩ ⟨phase, d2, e2⟩
  | fail {phase d e err e2} (going : ∀ err, d ≠ .fail err)
      (move : d.move phase e = (.failed err, e2)) : Leads ⟨phase, d, e⟩ ⟨phase, .fail err, e2⟩
  | turn {phase s e} : Leads ⟨phase, .done (.stage s), e⟩ (c.arrive s e)

/-- Moves end here, in this way. -/
inductive Finishes : Party σ ρ → Ending Error ρ × Endpoint → Prop
  | ended {phase r e} : Finishes ⟨phase, .done (.ended r), e⟩ (.done r, e)
  | gaveUp {phase err e} : Finishes ⟨phase, .fail err, e⟩ (.failed err, e)
  | late {phase d e e2} (move : d.move phase e = (.late, e2)) :
      Finishes ⟨phase, d, e⟩ (.late, e2)
  | stuck {phase d e e2} (move : d.move phase e = (.stuck, e2)) :
      Finishes ⟨phase, d, e⟩ (.stuck, e2)
  | lead {p q o} (lead : Leads c p q) (finishes : Finishes q o) : Finishes p o

variable {c}

/-- A party goes on in one way only. -/
theorem Leads.unique {p q r : Party σ ρ} (h : c.Leads p q) (h2 : c.Leads p r) : q = r := by
  cases h with
  | move going move =>
      cases h2 with
      | move going2 move2 =>
          cases move.symm.trans move2
          rfl
      | fail going2 move2 => cases move.symm.trans move2
      | turn => exact absurd rfl (going _)
  | fail going move =>
      cases h2 with
      | move going2 move2 => cases move.symm.trans move2
      | fail going2 move2 =>
          cases move.symm.trans move2
          rfl
      | turn => cases move
  | turn =>
      cases h2 with
      | move going2 => exact absurd rfl (going2 _)
      | fail going2 move2 => cases move2
      | turn => rfl

/-- A party that goes on leaves its endpoint as its move does, or comes to another
stage with it. -/
theorem Leads.endpoint_cases {p q : Party σ ρ} (h : c.Leads p q) :
    q.endpoint = (p.rest.move p.phase p.endpoint).2 ∨ ∃ s, q = c.arrive s p.endpoint := by
  cases h with
  | move going move =>
      left
      rw [move]
  | fail going move =>
      left
      rw [move]
  | turn => exact .inr ⟨_, rfl⟩

/-- A party that goes on does not end where it is. -/
theorem Leads.finishes_iff {p q : Party σ ρ} (h : c.Leads p q) {o : Ending Error ρ × Endpoint} :
    c.Finishes p o ↔ c.Finishes q o := by
  constructor
  · intro hf
    cases hf with
    | ended =>
        cases h with
        | move going => exact absurd rfl (going _)
        | fail _ move => cases move
    | gaveUp =>
        cases h with
        | move _ move => cases move
        | fail going => exact absurd rfl (going _)
    | late move =>
        cases h with
        | move _ move2 => cases move.symm.trans move2
        | fail _ move2 => cases move.symm.trans move2
        | turn => cases move
    | stuck move =>
        cases h with
        | move _ move2 => cases move.symm.trans move2
        | fail _ move2 => cases move.symm.trans move2
        | turn => cases move
    | lead lead finishes => exact h.unique lead ▸ finishes
  · exact .lead h

/-- **Moves end in one way only.** -/
theorem Finishes.unique {p : Party σ ρ} {o o2 : Ending Error ρ × Endpoint}
    (h : c.Finishes p o) (h2 : c.Finishes p o2) : o = o2 := by
  induction h with
  | lead lead _ ih => exact ih (lead.finishes_iff.mp h2)
  | ended =>
      cases h2 with
      | ended => rfl
      | late move | stuck move => cases move
      | lead lead =>
          cases lead with
          | move going => exact absurd rfl (going _)
          | fail _ move => cases move
  | gaveUp =>
      cases h2 with
      | gaveUp => rfl
      | late move | stuck move => cases move
      | lead lead =>
          cases lead with
          | move _ move => cases move
          | fail going => exact absurd rfl (going _)
  | late move =>
      cases h2 with
      | ended | gaveUp => cases move
      | late move2 =>
          cases move.symm.trans move2
          rfl
      | stuck move2 => cases move.symm.trans move2
      | lead lead =>
          cases lead with
          | move _ move2 | fail _ move2 => cases move.symm.trans move2
          | turn => cases move
  | stuck move =>
      cases h2 with
      | ended | gaveUp => cases move
      | late move2 => cases move.symm.trans move2
      | stuck move2 =>
          cases move.symm.trans move2
          rfl
      | lead lead =>
          cases lead with
          | move _ move2 | fail _ move2 => cases move.symm.trans move2
          | turn => cases move

/-- How the moves of a party end when its present dialogue has ended so. -/
inductive EndsAfter (c : Course σ ρ) :
    Ending Error (Next σ ρ) × Endpoint → Ending Error ρ × Endpoint → Prop
  | stage {s e o} (finishes : c.Finishes (c.arrive s e) o) : EndsAfter c (.done (.stage s), e) o
  | ended {r e} : EndsAfter c (.done (.ended r), e) (.done r, e)
  | failed {err e} : EndsAfter c (.failed err, e) (.failed err, e)
  | late {e} : EndsAfter c (.late, e) (.late, e)
  | stuck {e} : EndsAfter c (.stuck, e) (.stuck, e)

/-- The moves of a dialogue that is held to its end lead to what comes after it. -/
theorem finishes_of_hold {phase : Phase} {d : Dialogue (Next σ ρ)} {e : Endpoint}
    {o : Ending Error ρ × Endpoint} (h : c.EndsAfter (d.hold phase e) o) :
    c.Finishes ⟨phase, d, e⟩ o := by
  obtain ⟨x, hreach, hend⟩ := Dialogue.hold_reaches phase d e
  generalize d.hold phase e = r at h hend
  generalize hy : (d, e) = y at hreach
  induction hreach using Relation.ReflTransGen.head_induction_on generalizing d e with
  | refl =>
      subst hy
      cases h with
      | stage finishes =>
          cases hend
          exact .lead .turn finishes
      | ended =>
          cases hend
          exact .ended
      | @failed err e2 =>
          by_cases hd : d = .fail err
          · subst hd
            cases hend
            exact .gaveUp
          · refine .lead (.fail ?_ hend) .gaveUp
            rintro err2 rfl
            cases hend
            exact hd rfl
      | late => exact .late hend
      | stuck => exact .stuck hend
  | @head y z hlead _ ih =>
      subst hy
      by_cases hd : ∃ a, d = .done a
      · obtain ⟨a, rfl⟩ := hd
        cases z
        cases hlead
        exact ih rfl
      · exact .lead (.move (fun a ha => hd ⟨a, ha⟩) hlead) (ih rfl)

end Course

/-! ## The client's course -/

/-- The stages of a client. -/
inductive ClientStage where
  | authenticating
  | settingUp
deriving DecidableEq

/-- What a client does that negotiates. -/
def clientCourse (cookie : Cookie) (info : SessionInfo) : Course ClientStage Unit where
  phase
    | .authenticating => .authentication
    | .settingUp => .setup
  talk
    | .authenticating => (SafeCookie.client cookie).bind fun _ => .done (.stage .settingUp)
    | .settingUp => info.setup.bind fun _ => .done (.ended ())
  enter
    | .authenticating, e =>
      { e with held := [], window := SafeCookie.readAheadSize, step := .awaitAuthTypes }
    | .settingUp, e => e.dropAhead
  enter_frame s _ _ _ := by cases s <;> rfl
  enter_window s _ _ := by cases s <;> exact Nat.succ_pos _

/-- **The moves of a client end where `exchange` does.** -/
theorem exchange_finishes (cookie : Cookie) (info : SessionInfo) (e : Endpoint) :
    ∃ after, (clientCourse cookie info).Finishes
        ((clientCourse cookie info).arrive .authenticating e)
        ((e.exchange cookie info).1, after) ∧
      (e.exchange cookie info).2.wire = after.wire := by
  have hauth : ∀ o, (clientCourse cookie info).EndsAfter
      (((SafeCookie.client cookie).bind fun _ => .done (.stage .settingUp)).hold .authentication
        ((clientCourse cookie info).enter .authenticating e)) o →
      (clientCourse cookie info).Finishes
        ((clientCourse cookie info).arrive .authenticating e) o :=
    fun o ho => Course.finishes_of_hold ho
  have hsetup : ∀ e o, (clientCourse cookie info).EndsAfter
      ((info.setup.bind fun _ => .done (.ended ())).hold .setup e.dropAhead) o →
      (clientCourse cookie info).Finishes
        ((clientCourse cookie info).arrive .settingUp e) o :=
    fun e o ho => Course.finishes_of_hold ho
  rw [Dialogue.hold_bind] at hauth
  rcases hh : e.handshake cookie with ⟨_ | err | _ | _, e2⟩
  all_goals
    rw [show (SafeCookie.client cookie).hold .authentication
      ((clientCourse cookie info).enter .authenticating e) = _ from hh] at hauth
  case done =>
    have hexchange : e.exchange cookie info = e2.dropAhead.setup info := by
      simp only [Endpoint.exchange, Endpoint.authenticate, hh]
    rw [hexchange]
    refine ⟨(e2.dropAhead.setup info).2, hauth _ (.stage (hsetup e2 _ ?_)), rfl⟩
    rw [Dialogue.hold_bind]
    rcases hs : e2.dropAhead.setup info with ⟨_ | err | _ | _, e3⟩
    all_goals rw [show info.setup.hold .setup e2.dropAhead = _ from hs]
    · exact .ended
    · exact .failed
    · exact .late
    · exact .stuck
  all_goals
    simp only [Endpoint.exchange, Endpoint.authenticate, hh]
    refine ⟨e2, hauth _ ?_, rfl⟩
  · exact .failed
  · exact .late
  · exact .stuck

/-! ## The relay's course -/

/-- The stages of a relay. -/
inductive RelayCall where
  | authenticating
  /-- It listens, having heard so much. -/
  | listening (heard : Announced)
  /-- It answers, having heard this. -/
  | answering (heard : Announced)

/-- What a relay does with a command that it has read. -/
def Announced.after (heard : Announced) (c : Command) : Dialogue (Next RelayCall Announced) :=
  match heard.hear c with
  | .more heard => .done (.stage (.listening heard))
  | .complete heard => .done (.stage (.answering heard))
  | .breach error => .fail (.protocol error)

/-- What a relay does that takes a client's announcements and answers them; it
ends with what was announced. -/
def relayCourse (cookie : Cookie) (accept : Bool) : Course RelayCall Announced where
  phase
    | .authenticating => .authentication
    | .listening _ => .setup
    | .answering _ => .setup
  talk
    | .authenticating =>
      (SafeCookie.relay cookie).bind fun _ => .done (.stage (.listening .nothing))
    | .listening heard => Command.read.bind heard.after
    | .answering heard => (giveVerdict accept).bind fun _ => .done (.ended heard)
  enter _ e := e
  enter_frame _ _ _ _ := rfl
  enter_window _ _ h := h

/-- The relay's side: it authenticates, listens and answers. -/
def Endpoint.serve (cookie : Cookie) (accept : Bool) (e : Endpoint) :
    Ending Error Announced × Endpoint :=
  match e.authenticateRelay cookie with
  | (.done (), e) =>
    match e.listen with
    | (.done heard, e) =>
      match e.answer accept with
      | (.done (), e) => (.done heard, e)
      | (.failed err, e) => (.failed err, e)
      | (.late, e) => (.late, e)
      | (.stuck, e) => (.stuck, e)
    | (r, e) => (r, e)
  | (.failed err, e) => (.failed err, e)
  | (.late, e) => (.late, e)
  | (.stuck, e) => (.stuck, e)

section

variable {cookie : Cookie} {accept : Bool}

/-- The moves of a relay that answers end where `answer` does. -/
theorem answer_finishes (heard : Announced) (e : Endpoint) :
    (relayCourse cookie accept).Finishes ((relayCourse cookie accept).arrive (.answering heard) e)
      (match e.answer accept with
        | (.done (), e) => (.done heard, e)
        | (.failed err, e) => (.failed err, e)
        | (.late, e) => (.late, e)
        | (.stuck, e) => (.stuck, e)) := by
  apply Course.finishes_of_hold
  show (relayCourse cookie accept).EndsAfter
    (((giveVerdict accept).bind fun _ => .done (.ended heard)).hold .setup e) _
  rw [Dialogue.hold_bind]
  rcases ha : e.answer accept with ⟨_ | err | _ | _, e2⟩
  all_goals rw [show (giveVerdict accept).hold .setup e = _ from ha]
  · exact .ended
  · exact .failed
  · exact .late
  · exact .stuck

/-- The moves of a relay that listens lead to where `listenOn` ends. -/
theorem listenOn_finishes (heard : Announced) (e : Endpoint) {o : Ending Error Announced × Endpoint}
    (h : match e.listenOn heard with
      | (.done heard, e) => (relayCourse cookie accept).Finishes
          ((relayCourse cookie accept).arrive (.answering heard) e) o
      | (r, e) => o = (r, e)) :
    (relayCourse cookie accept).Finishes
      ((relayCourse cookie accept).arrive (.listening heard) e) o := by
  -- one command is read in a dialogue of its own, which `heard.after` closes
  have hlisten : ∀ heard e o,
      (relayCourse cookie accept).EndsAfter ((Command.read.bind heard.after).hold .setup e) o →
      (relayCourse cookie accept).Finishes
        ((relayCourse cookie accept).arrive (.listening heard) e) o :=
    fun _ _ _ ho => Course.finishes_of_hold ho
  refine hlisten heard e o ?_
  rw [Dialogue.hold_bind]
  fun_induction Endpoint.listenOn heard e with
  | case1 heard e c e2 hread more hhear ih =>
      rw [hread]
      simp only [Announced.after, hhear]
      refine .stage (hlisten more e2 o ?_)
      rw [Dialogue.hold_bind]
      exact ih h
  | case2 heard e c e2 hread complete hhear =>
      rw [hread]
      simp only [Announced.after, hhear]
      exact .stage h
  | case3 heard e c e2 hread error hhear =>
      subst h
      rw [hread]
      simp only [Announced.after, hhear]
      exact .failed
  | case4 heard e error e2 hread =>
      subst h
      rw [hread]
      exact .failed
  | case5 heard e e2 hread =>
      subst h
      rw [hread]
      exact .late
  | case6 heard e e2 hread =>
      subst h
      rw [hread]
      exact .stuck

/-- **The moves of a relay end where `serve` does.** -/
theorem serve_finishes (cookie : Cookie) (accept : Bool) (e : Endpoint) :
    (relayCourse cookie accept).Finishes
      ((relayCourse cookie accept).arrive .authenticating e) (e.serve cookie accept) := by
  apply Course.finishes_of_hold
  show (relayCourse cookie accept).EndsAfter
    (((SafeCookie.relay cookie).bind fun _ =>
      .done (.stage (.listening .nothing))).hold .authentication e) _
  rw [Dialogue.hold_bind]
  rcases hauth : e.authenticateRelay cookie with ⟨_ | err | _ | _, e2⟩
  all_goals
    rw [show (SafeCookie.relay cookie).hold .authentication e = _ from hauth]
    simp only [Endpoint.serve, hauth]
  case done =>
    refine .stage (listenOn_finishes .nothing e2 ?_)
    rcases hlisten : e2.listen with ⟨heard | err | _ | _, e3⟩
    all_goals rw [show e2.listenOn .nothing = _ from hlisten]
    exact answer_finishes heard e3
  · exact .failed
  · exact .late
  · exact .stuck

end

end ManagedTransport
