import ManagedTransport.Proofs.ClientTurns
import ManagedTransport.Proofs.Deadline

/-!
# Faults are reported for what they are

Whatever operation of a negotiation fails, and by whatever fault, the client makes no further
one and reports that fault for the part of the negotiation that it was in.  It reports faults
of the network in no other case, and leaves the step of authentication at the one that the
operation belongs to.

* `AuthStep.Makes` — the operations that belong to a step, told by what the client has heard
  and said when it makes them;
* `Stops` — all operations of a dialogue pass, or the last of them halts it;
* `negotiate_reports_faults` — no fault is swallowed, renamed or reported for another part.
-/

namespace ManagedTransport

open SafeCookie

/-- The operations that belong to a step of a client whose nonce is `nc`: those that it makes
having heard this and said that. -/
inductive AuthStep.Makes (cookie : Cookie) (nc : Bytes) :
    AuthStep → Operation → (heard said : Bytes) → Prop
  | readTypes {types window outcome} (nonzero : 0 ∉ types) :
      Makes cookie nc .awaitAuthTypes (.read window .noOctet outcome) types []
  | writeSelection {types outcome} (offer : Offered types) :
      Makes cookie nc .sendSelection (.write [safeCookie] outcome) (types ++ [0]) []
  | writeNonce {types p rest outcome} (offer : Offered types) (whole : p ++ rest = nc)
      (unsent : rest ≠ []) :
      Makes cookie nc .sendClientNonce (.write rest outcome) (types ++ [0]) (safeCookie :: p)
  | flushNonce {types outcome} (offer : Offered types) :
      Makes cookie nc .sendClientNonce (.flush outcome) (types ++ [0]) (safeCookie :: nc)
  | readAnswer {types window outcome} (answer : Bytes) (offer : Offered types)
      (short : answer.length < 64) :
      Makes cookie nc .awaitServerResponse (.read window .earlyEnd outcome)
        (types ++ 0 :: answer) (safeCookie :: nc)
  | writeProof {types ns p rest outcome} (offer : Offered types) (longNonce : ns.length = 32)
      (whole : p ++ rest = clientHash cookie.secret nc ns) (unsent : rest ≠ []) :
      Makes cookie nc .sendClientHash (.write rest outcome)
        (types ++ 0 :: (serverHash cookie.secret nc ns ++ ns)) (safeCookie :: (nc ++ p))
  | flushProof {types ns outcome} (offer : Offered types) (longNonce : ns.length = 32) :
      Makes cookie nc .sendClientHash (.flush outcome)
        (types ++ 0 :: (serverHash cookie.secret nc ns ++ ns))
        (safeCookie :: (nc ++ clientHash cookie.secret nc ns))
  | readStatus {types ns window outcome} (offer : Offered types) (longNonce : ns.length = 32) :
      Makes cookie nc .awaitStatus (.read window .noOctet outcome)
        (types ++ 0 :: (serverHash cookie.secret nc ns ++ ns))
        (safeCookie :: (nc ++ clientHash cookie.secret nc ns))

/-- The step to which an operation belongs when so many octets are said. -/
def Operation.stepAfter (said : Nat) : Operation → AuthStep
  | read .. =>
    if said = 0 then .awaitAuthTypes
    else if said ≤ 33 then .awaitServerResponse
    else .awaitStatus
  | write .. =>
    if said = 0 then .sendSelection
    else if said < 33 then .sendClientNonce
    else .sendClientHash
  | flush _ => if said ≤ 33 then .sendClientNonce else .sendClientHash

/-- An operation belongs to one step only. -/
theorem AuthStep.Makes.eq_stepAfter {cookie : Cookie} {nc heard said : Bytes} {op : Operation}
    {s : AuthStep} (long : nc.length = 32) (h : s.Makes cookie nc op heard said) :
    s = op.stepAfter said.length := by
  have hlong := fun ns => length_clientHash cookie.secret nc ns
  cases h with
  | readTypes | writeSelection => rfl
  | writeNonce offer whole unsent =>
      have hlen := congrArg List.length whole
      have hpos := List.length_pos_iff.mpr unsent
      rw [List.length_append] at hlen
      rw [Operation.stepAfter, if_neg (by simp), if_pos (by rw [List.length_cons]; omega)]
  | flushNonce | readAnswer => simp [Operation.stepAfter, long]
  | writeProof | flushProof | readStatus => simp [Operation.stepAfter, long, hlong]

/-- An operation that serves a turn of a client belongs to the step that it has reached. -/
theorem SafeCookie.ClientTurn.makes {cookie : Cookie} {nc heard said : Bytes} {t : Turn Unit}
    {h : Account} {op : Operation} (ht : ClientTurn cookie t h) (hs : op.Serves t heard said)
    (hdrawn : ∀ block, h.drawn = [block] → block = nc) :
    h.step.Makes cookie nc op (h.heard ++ heard) (h.said ++ said) := by
  cases ht with
  | tooLong | notOffered | mismatch | rejected | trailing | through => cases hs
  | listing nonzero =>
      cases hs
      simpa using .readTypes nonzero
  | selection offer =>
      rcases hs with _ | _ | ⟨whole, unsent⟩
      rcases List.append_eq_singleton_iff.mp whole with ⟨rfl, rfl⟩ | ⟨-, rfl⟩
      · simpa using .writeSelection offer
      · exact absurd rfl unsent
  | nonce offer =>
      rcases hs with _ | _ | ⟨whole, unsent⟩
      obtain rfl := hdrawn _ rfl
      simpa using .writeNonce offer whole unsent
  | nonceFlush offer =>
      cases hs
      obtain rfl := hdrawn _ rfl
      simpa using .flushNonce offer
  | hash offer =>
      rcases hs with _ | ⟨short⟩
      obtain rfl := hdrawn _ rfl
      simpa using .readAnswer heard offer (by omega)
  | @serverNonce types nc hash l offer long longHash =>
      rcases hs with _ | ⟨short⟩
      obtain rfl := hdrawn _ rfl
      simpa using .readAnswer (hash ++ heard) offer (by rw [List.length_append]; omega)
  | @proof types nc ns l offer long longNonce =>
      rcases hs with _ | _ | ⟨whole, unsent⟩
      obtain rfl := hdrawn _ rfl
      simpa using .writeProof offer longNonce whole unsent
  | proofFlush offer long longNonce =>
      cases hs
      obtain rfl := hdrawn _ rfl
      simpa using .flushProof offer longNonce
  | status offer long longNonce =>
      cases hs
      obtain rfl := hdrawn _ rfl
      simpa using .readStatus offer longNonce

/-- All operations of a dialogue pass, and it ends of its own; or the last of them halts it. -/
inductive Stops (phase : Phase) : List Operation → Ending Error Unit → Prop
  | done {ops} (passes : ∀ op ∈ ops, op.Passes) : Stops phase ops (.done ())
  | declared {ops err} (passes : ∀ op ∈ ops, op.Passes) (declared : err.Declared) :
      Stops phase ops (.failed err)
  | halted {first op halt} (passes : ∀ op ∈ first, op.Passes) (halts : op.halt? = some halt) :
      Stops phase (first ++ [op]) (halt.ending phase)

/-- A dialogue that gives up only by errors that it declares. -/
theorem Dialogue.Concludes.stops {phase : Phase} {P : Turn Unit → Account → Prop}
    {came before : Bytes} {source : Supply} {ops : List Operation}
    {r : Ending Error Unit × Endpoint} (hc : Concludes phase P came before source ops r)
    (hP : ∀ t h, P t h → t.Candid) : Stops phase ops r.1 := by
  cases hc with
  | done passes stands fits => exact .done passes
  | gaveUp passes stands fits => exact .declared passes (hP _ _ stands)
  | halted passes halts stands serves fits => exact .halted passes halts

namespace Stops

variable {phase : Phase} {first rest ops : List Operation} {op : Operation}
  {r : Ending Error Unit}

/-- No operation follows one that does not pass. -/
theorem last (h : Stops phase ops r) (hops : ops = first ++ op :: rest) (hop : ¬ op.Passes) :
    rest = [] := by
  have hmem : op ∈ ops := by simp [hops]
  cases h with
  | done passes | declared passes => exact absurd (passes op hmem) hop
  | @halted before last halt passes halts =>
      rcases List.eq_nil_or_concat rest with hnil | ⟨front, x, rfl⟩
      · exact hnil
      · rw [List.concat_eq_append, ← List.cons_append, ← List.append_assoc] at hops
        obtain ⟨rfl, -⟩ := List.append_inj' hops rfl
        exact absurd (passes op (by simp)) hop

/-- All operations of a dialogue that is done have passed. -/
theorem passes (h : Stops phase ops (.done ())) : ∀ op ∈ ops, op.Passes := by
  generalize hr : (Ending.done () : Ending Error Unit) = r at h
  cases h with
  | done passes => exact passes
  | declared passes declared => cases hr
  | @halted first op halt passes halts => cases halt <;> cases hr

/-- Operations that pass may come before. -/
theorem after (h : Stops phase ops r) (hfirst : ∀ op ∈ first, op.Passes) :
    Stops phase (first ++ ops) r := by
  have hboth : ∀ {rest : List Operation}, (∀ op ∈ rest, op.Passes) →
      ∀ op ∈ first ++ rest, op.Passes := by
    intro rest hrest op hop
    exact (List.mem_append.mp hop).elim (hfirst op) (hrest op)
  cases h with
  | done passes => exact .done (hboth passes)
  | declared passes declared => exact .declared (hboth passes) declared
  | halted passes halts =>
      rw [← List.append_assoc]
      exact .halted (hboth passes) halts

/-- A fault is reported. -/
theorem reports (h : Stops phase ops r) (hop : op ∈ ops) {f : Fault} (hf : op.FailsBy f) :
    r = .failed (.network (.io phase f)) := by
  cases h with
  | done passes | declared passes => exact absurd (passes op hop) hf.not_passes
  | halted passes halts =>
      rcases List.mem_append.mp hop with hop | hop
      · exact absurd (passes op hop) hf.not_passes
      · obtain rfl := List.mem_singleton.mp hop
        obtain rfl := Option.some.inj (halts.symm.trans hf)
        rfl

/-- Nothing but a fault is reported as a fault of the network. -/
theorem of_network {err : NetworkError} (h : Stops phase ops (.failed (.network err))) :
    ∃ op ∈ ops, ∃ f, op.FailsBy f ∧ err = .io phase f := by
  generalize hr : (Ending.failed (.network err) : Ending Error Unit) = r at h
  cases h with
  | done passes => cases hr
  | declared passes declared =>
      cases hr
      rcases declared with h | h <;> cases h
  | @halted first op halt passes halts =>
      cases halt <;> cases hr
      exact ⟨op, by simp, _, halts, rfl⟩

/-- Nothing is reported as a flaw of the configuration. -/
theorem ne_config (h : Stops phase ops r) (err : ConfigError) : r ≠ .failed (.config err) := by
  rintro rfl
  generalize hr : (Ending.failed (.config err) : Ending Error Unit) = r at h
  cases h with
  | done passes => cases hr
  | declared passes declared =>
      cases hr
      rcases declared with h | h <;> cases h
  | @halted first op halt passes halts => cases halt <;> cases hr

end Stops

namespace Endpoint

variable {cookie : Cookie} {info : SessionInfo} {limit : Nat} {e : Endpoint}

/-- The operations of a client that authenticates and sets a session up. -/
def exchangeOperations (cookie : Cookie) (info : SessionInfo) (e : Endpoint) : List Operation :=
  match e.authenticate cookie with
  | (.done (), e2) => e.handshakeOperations cookie ++ info.setup.operations e2
  | _ => e.handshakeOperations cookie

/-- The operations of a client that negotiates. -/
def negotiateOperations (cookie : Cookie) (info : SessionInfo) (limit : Nat) (e : Endpoint) :
    List Operation :=
  (e.hurried limit).exchangeOperations cookie info

/-- The part of a negotiation that a client comes to: setting the session up, if it has
authenticated. -/
def phaseReached (cookie : Cookie) (e : Endpoint) : Phase :=
  if (e.handshake cookie).1 = .done () then .setup else .authentication

theorem setup_stops (info : SessionInfo) (e : Endpoint) :
    Stops .setup (info.setup.operations e) (e.setup info).1 :=
  ((info.setup_turns (.fresh e.step)).hold .setup (Account.Fits.begin e)).stops fun _ _ h => h

/-- Authenticating and setting a session up stop where the first operation does not pass. -/
theorem exchange_stops (cookie : Cookie) (info : SessionInfo) (e : Endpoint) :
    Stops (e.phaseReached cookie) (e.exchangeOperations cookie info)
      (e.exchange cookie info).1 := by
  have hstops := (e.handshake_concludes cookie).stops fun _ _ h => h.candid
  rcases hh : e.handshake cookie with ⟨_ | err | _ | _, e2⟩ <;> rw [hh] at hstops <;>
    simp only [phaseReached, exchangeOperations, exchange, authenticate, hh]
  case done =>
    rw [if_pos trivial]
    exact (e2.dropAhead.setup_stops info).after hstops.passes
  all_goals
    rw [if_neg (by simp)]
    exact hstops

theorem exchange_undergone (cookie : Cookie) (info : SessionInfo) (e : Endpoint) :
    Wire.Undergone e.deadline e.wire (e.exchangeOperations cookie info)
      (e.exchange cookie info).2.wire := by
  have hfirst : e.settingOut.Undergone (e.handshakeOperations cookie) (e.handshake cookie).2 :=
    Dialogue.undergone_hold .authentication _ _
  rcases hh : e.handshake cookie with ⟨_ | err | _ | _, e2⟩ <;> rw [hh] at hfirst <;>
    simp only [exchangeOperations, exchange, authenticate, hh]
  case done =>
    have hrest : e2.Undergone [] e2.dropAhead := ⟨.nil, rfl⟩
    have hsetup : e2.dropAhead.Undergone (info.setup.operations e2.dropAhead)
        (e2.dropAhead.setup info).2 := Dialogue.undergone_hold .setup _ _
    exact (hfirst.trans (hrest.trans hsetup)).wire
  all_goals exact hfirst.wire

/-- What is reported of the faults that a client meets. -/
structure ReportsFaults (cookie : Cookie) (info : SessionInfo) (limit : Nat) (e : Endpoint) :
    Prop where
  /-- The client makes these operations on its wire, in this order, and no others. -/
  undergone : Wire.Undergone (some limit) e.wire (e.negotiateOperations cookie info limit)
    (e.negotiate cookie info limit).2.wire
  /-- After an operation that does not pass it makes no other. -/
  last : ∀ first op rest, e.negotiateOperations cookie info limit = first ++ op :: rest →
    ¬ op.Passes → rest = []
  /-- If one fails, the fault is reported for the part of the negotiation that was reached. -/
  reported : ∀ op ∈ e.negotiateOperations cookie info limit, ∀ f, op.FailsBy f →
    (e.negotiate cookie info limit).1 =
      .failed (.network (.io ((e.hurried limit).phaseReached cookie) f))
  /-- No other fault of the network is reported. -/
  network : ∀ err, (e.negotiate cookie info limit).1 = .failed (.network err) →
    ∃ op ∈ e.negotiateOperations cookie info limit, ∃ f, op.FailsBy f ∧
      err = .io ((e.hurried limit).phaseReached cookie) f
  /-- No flaw of the configuration is reported. -/
  config : ∀ err, (e.negotiate cookie info limit).1 ≠ .failed (.config err)
  /-- A client that authenticates and meets a fault reports it, and stands at the one step that
  the operation belongs to, by what the client had heard and said. -/
  step : ∀ op ∈ e.handshakeOperations cookie, ∀ f, op.FailsBy f →
    (e.handshake cookie).1 = .failed (.network (.io .authentication f)) ∧
      ∃ heard said, e.wire.pending = heard ++ (e.handshake cookie).2.pending ∧
        (e.handshake cookie).2.wire.sent = e.wire.sent ++ said ∧
        ∀ step : AuthStep, step.Makes cookie e.supply.draw.1 op heard said ↔
          step = (e.handshake cookie).2.step

/-- A client whose operation fails while it authenticates stands at the step of the operation. -/
theorem step_of_fault {op : Operation} {f : Fault} (hop : op ∈ e.handshakeOperations cookie)
    (hf : op.FailsBy f) :
    ∃ heard said, e.wire.pending = heard ++ (e.handshake cookie).2.pending ∧
      (e.handshake cookie).2.wire.sent = e.wire.sent ++ said ∧
      ∀ step : AuthStep, step.Makes cookie e.supply.draw.1 op heard said ↔
        step = (e.handshake cookie).2.step := by
  have hc := e.handshake_concludes cookie
  generalize e.handshakeOperations cookie = ops at hc hop
  generalize e.handshake cookie = r at hc ⊢
  cases hc with
  | done passes | gaveUp passes => exact absurd (passes op hop) hf.not_passes
  | @halted first last halt turn h heard said after passes halts stands serves fits =>
      rcases List.mem_append.mp hop with hop | hop
      · exact absurd (passes op hop) hf.not_passes
      · obtain rfl := List.mem_singleton.mp hop
        refine ⟨h.heard ++ heard, h.said ++ said, fits.heard.symm, fits.said, ?_⟩
        have hmakes := stands.makes serves fun block hdrawn => fits.nonce hdrawn
        intro step
        constructor
        · intro hstep
          rw [fits.step]
          exact (hstep.eq_stepAfter (by simp)).trans (hmakes.eq_stepAfter (by simp)).symm
        · rintro rfl
          rw [fits.step]
          exact hmakes

/-- **Faults are reported for what they are.**  On any wire, whatever operation of a
negotiation fails, the client stops there and reports that fault for the part of the
negotiation that it was in; and it reports no other. -/
theorem negotiate_reports_faults (cookie : Cookie) (info : SessionInfo) (limit : Nat)
    (e : Endpoint) : e.ReportsFaults cookie info limit := by
  have hstops := (e.hurried limit).exchange_stops cookie info
  obtain ⟨hwire, hresult⟩ := e.negotiate_eq cookie info limit
  refine ⟨?_, ?_, ?_, ?_, ?_, ?_⟩
  · rw [hwire]
    exact (e.hurried limit).exchange_undergone cookie info
  · intro first op rest hops hop
    exact hstops.last hops hop
  · intro op hop f hf
    rw [hresult, hstops.reports hop hf]
  · intro err herr
    rcases hx : ((e.hurried limit).exchange cookie info).1 with _ | err2 | _ | _ <;>
      rw [hx] at hstops hresult <;> rw [hresult] at herr <;> cases herr
    exact hstops.of_network
  · intro err herr
    rcases hx : ((e.hurried limit).exchange cookie info).1 with _ | err2 | _ | _ <;>
      rw [hx] at hstops hresult <;> rw [hresult] at herr <;> cases herr
    exact hstops.ne_config err rfl
  · intro op hop f hf
    exact ⟨((e.handshake_concludes cookie).stops fun _ _ h => h.candid).reports hop hf,
      step_of_fault hop hf⟩

/-- A client whose wire breaks down in the midst of its nonce, having taken this much. -/
def cutOff (room : Nat) : Endpoint :=
  .ofWire { Wire.ofArrivals [.data [7, safeCookie], .pause 3, .data [0]] with
    atMost := some 8, room := some room, refusal := some (.plain .brokenPipe) } (.fresh [5, 6])

/-- The client that is cut off reports the broken pipe, and the write that has met it belongs
to the sending of the nonce. -/
theorem cutOff_reports :
    ((cutOff 20).negotiate (.monotone 0) .nearby 50).1 =
        .failed (.network (.io .authentication (.plain .brokenPipe))) ∧
      ∃ op ∈ (cutOff 20).handshakeOperations (.monotone 0),
        op.FailsBy (.plain .brokenPipe) ∧ ∃ heard said, AuthStep.sendClientNonce.Makes
          (.monotone 0) (cutOff 20).supply.draw.1 op heard said := by
  have hreports := negotiate_reports_faults (.monotone 0) .nearby 50 (cutOff 20)
  have hphase : ((cutOff 20).hurried 50).phaseReached (.monotone 0) = .authentication := by
    decide +kernel
  have hnegotiate : ∃ op ∈ (cutOff 20).negotiateOperations (.monotone 0) .nearby 50,
      op.halt? = some (.fault (.plain .brokenPipe)) := by decide +kernel
  have hhandshake : ∃ op ∈ (cutOff 20).handshakeOperations (.monotone 0),
      op.halt? = some (.fault (.plain .brokenPipe)) := by decide +kernel
  have hstep : ((cutOff 20).handshake (.monotone 0)).2.step = .sendClientNonce := by
    decide +kernel
  obtain ⟨op, hop, hf⟩ := hnegotiate
  obtain ⟨op2, hop2, hf2⟩ := hhandshake
  obtain ⟨-, heard, said, -, -, hmakes⟩ := hreports.step op2 hop2 _ hf2
  exact ⟨hphase ▸ hreports.reported op hop _ hf, op2, hop2, hf2, heard, said,
    (hmakes _).mpr hstep.symm⟩

end Endpoint

end ManagedTransport
