import ManagedTransport.Proofs.ClientTurns
import ManagedTransport.Proofs.Deadline
import ManagedTransport.Proofs.RelaySide
import ManagedTransport.Proofs.Undertakings

/-!
# Nonces are fresh

All that is undertaken on a stream draws from one supply of random octets, block after block,
whatever comes of it.  A client draws one block if its selection went out, a relay one if it
was given the selection of the safe cookie and a whole nonce; and nobody else draws.  So no
octet of the supply ever serves in two nonces, and none is left out.

* `Dialogue.draws` — the blocks that a dialogue draws that is held at an endpoint;
* `Supply.Gives` — a supply gives these blocks, which are its next ones;
* `ClientTurn.drew`, `RelayAt.drew` — when either side has drawn;
* `nonces_fresh` — the nonces of a whole chronicle.
-/

namespace ManagedTransport

open SafeCookie

/-- The blocks that a dialogue draws. -/
def Dialogue.draws {α : Type} : Dialogue α → Endpoint → List Bytes
  | done _, _ => []
  | fail _, _ => []
  | octet k, e =>
    match e.next with
    | (.done (some b), e) => (k b).draws e
    | _ => []
  | octets n k, e =>
    match e.take n with
    | (.done bs, e) => (k bs).draws e
    | _ => []
  | send bs k, e =>
    match e.wire.write bs with
    | (.ok (), w) => k.draws { e with wire := w }
    | _ => []
  | flush k, e =>
    match e.wire.flush with
    | (.ok (), w) => k.draws { e with wire := w }
    | _ => []
  | draw k, e =>
    e.supply.draw.1 :: (k e.supply.draw.1).draws { e with supply := e.supply.draw.2 }
  | mark s k, e => k.draws { e with step := s }
  | ahead k, e => (k e.held.length).draws e

namespace Endpoint

/-- The blocks that a client draws that authenticates. -/
def handshakeDraws (cookie : Cookie) (e : Endpoint) : List Bytes :=
  (SafeCookie.client cookie).draws e.settingOut

/-- The blocks that a client draws that authenticates and sets a session up. -/
def exchangeDraws (cookie : Cookie) (info : SessionInfo) (e : Endpoint) : List Bytes :=
  e.handshakeDraws cookie ++
    match e.authenticate cookie with
    | (.done (), e) => info.setup.draws e
    | _ => []

/-- The blocks that a relay draws that listens. -/
def listenDraws (heard : Announced) (e : Endpoint) : List Bytes :=
  match _h : Command.read.hold .setup e with
  | (.done c, e2) =>
    match heard.hear c with
    | .more heard => Command.read.draws e ++ e2.listenDraws heard
    | _ => Command.read.draws e
  | _ => Command.read.draws e
termination_by e.unread
decreasing_by exact Dialogue.unread_hold_read _h

end Endpoint

/-- The blocks that are drawn for an undertaking. -/
def Undertaking.draws (u : Undertaking) (e : Endpoint) : List Bytes :=
  match u with
  | handshake cookie => e.handshakeDraws cookie
  | authenticate cookie => e.handshakeDraws cookie
  | negotiate cookie info budget late =>
    ((e.wait late).hurried (e.wire.clock + budget)).exchangeDraws cookie info
  | authenticateRelay cookie => (SafeCookie.relay cookie).draws e
  | setup info => info.setup.draws e
  | readCommand _ => Command.read.draws e
  | writeCommand _ c => c.write.draws e
  | listen => e.listenDraws .nothing
  | answer accept => (giveVerdict accept).draws e

/-- The nonces that were drawn meanwhile. -/
def Record.nonces (r : Record) : List Bytes := r.undertaking.draws r.before

/-- A supply gives its next blocks, and is left with those behind them. -/
structure Supply.Gives (s : Supply) (blocks : List Bytes) (s2 : Supply) : Prop where
  given : blocks = (List.range blocks.length).map fun i => s.block (s.drawn + i)
  rest : s2 = ⟨s.octets, s.drawn + blocks.length⟩

namespace Supply

theorem Gives.refl (s : Supply) : s.Gives [] s := ⟨rfl, rfl⟩

theorem Gives.draw (s : Supply) : s.Gives [s.draw.1] s.draw.2 := ⟨rfl, rfl⟩

theorem Gives.trans {s s2 s3 : Supply} {blocks blocks2 : List Bytes} (h : s.Gives blocks s2)
    (h2 : s2.Gives blocks2 s3) : s.Gives (blocks ++ blocks2) s3 := by
  obtain ⟨hblocks, rfl⟩ := h
  obtain ⟨hblocks2, rfl⟩ := h2
  constructor
  · rw [List.length_append, List.range_add, List.map_append, List.map_map, ← hblocks]
    congr 1
    rw [hblocks2, List.length_map, List.length_range]
    apply List.map_congr_left
    intro i _
    simp only [Function.comp, block, Nat.add_assoc]
  · rw [List.length_append, Nat.add_assoc]

end Supply

namespace Endpoint

theorem supply_takeOnto (n : Nat) (taken : Bytes) (e : Endpoint) :
    (takeOnto n taken e).2.supply = e.supply := by
  induction n generalizing taken e with
  | zero => rfl
  | succ n ih =>
      have hnext := e.next_frame.2.1
      rcases hn : e.next with ⟨(_ | b) | f | _ | _, e2⟩ <;> rw [hn] at hnext <;>
        simp only [takeOnto, hn]
      case done.some => exact (ih (b :: taken) e2).trans hnext
      all_goals exact hnext

end Endpoint

/-- **The blocks that a dialogue draws** are the next ones of the supply. -/
theorem Dialogue.gives_hold {α : Type} (phase : Phase) (d : Dialogue α) (e : Endpoint) :
    e.supply.Gives (d.draws e) (d.hold phase e).2.supply := by
  induction d generalizing e with
  | done a => exact .refl _
  | fail err => exact .refl _
  | octet k ih =>
      have hnext := e.next_frame.2.1
      rcases hn : e.next with ⟨(_ | b) | f | _ | _, e2⟩ <;> rw [hn] at hnext <;>
        simp only [draws, hold, hn]
      case done.some => exact hnext ▸ ih b e2
      all_goals exact hnext ▸ .refl _
  | octets n k ih =>
      have htake : (e.take n).2.supply = e.supply := Endpoint.supply_takeOnto n [] e
      rcases ht : e.take n with ⟨bs | f | _ | _, e2⟩ <;> rw [ht] at htake <;>
        simp only [draws, hold, ht]
      case done => exact htake ▸ ih bs e2
      all_goals exact htake ▸ .refl _
  | send bs k ih =>
      rcases hw : e.wire.write bs with ⟨f | _, w⟩ <;> simp only [draws, hold, hw]
      · exact .refl _
      · exact ih { e with wire := w }
  | flush k ih =>
      rcases hw : e.wire.flush with ⟨f | _, w⟩ <;> simp only [draws, hold, hw]
      · exact .refl _
      · exact ih { e with wire := w }
  | draw k ih =>
      exact (Supply.Gives.draw e.supply).trans (ih _ { e with supply := e.supply.draw.2 })
  | mark s k ih => exact ih { e with step := s }
  | ahead k ih => exact ih _ e

/-- A plain dialogue draws nothing. -/
theorem Dialogue.Plain.draws {α : Type} {d : Dialogue α} (h : d.Plain) (e : Endpoint) :
    d.draws e = [] := by
  induction d generalizing e with
  | done a => rfl
  | fail err => rfl
  | octet k ih =>
      rcases hn : e.next with ⟨(_ | b) | f | _ | _, e2⟩ <;> simp only [Dialogue.draws, hn]
      exact ih b (h b) e2
  | octets n k ih =>
      rcases ht : e.take n with ⟨bs | f | _ | _, e2⟩ <;> simp only [Dialogue.draws, ht]
      exact ih bs (h bs) e2
  | send bs k ih =>
      rcases hw : e.wire.write bs with ⟨f | _, w⟩ <;> simp only [Dialogue.draws, hw]
      exact ih h _
  | flush k ih =>
      rcases hw : e.wire.flush with ⟨f | _, w⟩ <;> simp only [Dialogue.draws, hw]
      exact ih h _
  | draw k ih => exact h.elim
  | mark s k ih => exact ih h _
  | ahead k ih => exact h.elim

namespace Endpoint

variable {cookie : Cookie} {info : SessionInfo} {e : Endpoint}

/-- Listening draws nothing. -/
theorem listenDraws_eq_nil (heard : Announced) (e : Endpoint) : e.listenDraws heard = [] := by
  have hread : ∀ e, Command.read.draws e = [] := Command.read_plain.draws
  fun_induction listenDraws heard e with
  | case1 heard e c e2 _ heard2 _ ih => rw [hread, ih, List.append_nil]
  | case2 | case3 => exact hread _

theorem gives_read {e2 : Endpoint} {phase : Phase} {r : Ending Error Command}
    (hread : Command.read.hold phase e = (r, e2)) :
    e.supply.Gives (Command.read.draws e) e2.supply := by
  have hgives := Command.read.gives_hold phase e
  rwa [hread] at hgives

theorem gives_listenOn (heard : Announced) (e : Endpoint) :
    e.supply.Gives (e.listenDraws heard) (e.listenOn heard).2.supply := by
  fun_induction listenOn heard e with
  | case1 heard e c e2 hread heard2 hmore ih =>
      rw [listenDraws, hread]
      simp only [hmore]
      exact (gives_read hread).trans ih
  | case2 heard e c e2 hread _ hhear | case3 heard e c e2 hread _ hhear =>
      rw [listenDraws, hread]
      simp only [hhear]
      exact gives_read hread
  | case4 heard e err e2 hread | case5 heard e e2 hread | case6 heard e e2 hread =>
      rw [listenDraws, hread]
      exact gives_read hread

theorem gives_handshake (cookie : Cookie) (e : Endpoint) :
    e.supply.Gives (e.handshakeDraws cookie) (e.handshake cookie).2.supply :=
  Dialogue.gives_hold .authentication (SafeCookie.client cookie) e.settingOut

theorem gives_exchange (cookie : Cookie) (info : SessionInfo) (e : Endpoint) :
    e.supply.Gives (e.exchangeDraws cookie info) (e.exchange cookie info).2.supply := by
  have hgives := e.gives_handshake cookie
  rcases hh : e.handshake cookie with ⟨_ | err | _ | _, mid⟩ <;> rw [hh] at hgives <;>
    simp only [exchangeDraws, exchange, authenticate, hh, List.append_nil]
  case done =>
    exact hgives.trans (Dialogue.gives_hold .setup info.setup mid.dropAhead)
  all_goals exact hgives

theorem supply_negotiate (cookie : Cookie) (info : SessionInfo) (limit : Nat) (e : Endpoint) :
    (e.negotiate cookie info limit).2.supply =
      ((e.hurried limit).exchange cookie info).2.supply := by
  rcases hx : (e.hurried limit).exchange cookie info with ⟨_ | err | _ | _, after⟩ <;>
  · rw [hurried] at hx
    simp only [negotiate, hx]

end Endpoint

/-- **Whatever is undertaken** draws the next blocks of the supply. -/
theorem Undertaking.gives_perform (u : Undertaking) (e : Endpoint) :
    e.supply.Gives (u.draws e) (u.perform e).2.supply := by
  cases u with
  | handshake cookie | authenticate cookie => exact e.gives_handshake cookie
  | negotiate cookie info budget late =>
      show e.supply.Gives _ (Endpoint.negotiate _ _ _ _).2.supply
      rw [Endpoint.supply_negotiate]
      exact ((e.wait late).hurried (e.wire.clock + budget)).gives_exchange cookie info
  | listen => exact e.gives_listenOn .nothing
  | authenticateRelay | setup | readCommand | writeCommand | answer =>
      exact Dialogue.gives_hold _ _ e

/-- What is undertaken one after the other draws the next blocks of the supply, and where one
undertaking stops drawing the next goes on. -/
theorem gives_chronicle (us : List Undertaking) (e : Endpoint) :
    ∃ s2, e.supply.Gives ((chronicle us e).flatMap Record.nonces) s2 := by
  induction us generalizing e with
  | nil => exact ⟨_, .refl _⟩
  | cons u us ih =>
      have hgives := u.gives_perform e
      rcases hu : u.perform e with ⟨r, after⟩
      rw [hu] at hgives
      obtain ⟨s2, hrest⟩ := ih after
      cases r <;> simp only [chronicle, hu, List.flatMap_cons, List.flatMap_nil]
      · exact ⟨s2, hgives.trans hrest⟩
      · exact ⟨s2, hgives.trans hrest⟩
      · exact ⟨_, hgives.trans (.refl _)⟩
      · exact ⟨_, hgives.trans (.refl _)⟩

/-- The nonces that a client has drawn that has said this: none before its selection is out,
and then the one of which it has said a part, or all. -/
inductive ClientDrew : (said : Bytes) → (nonces : List Bytes) → Prop
  | none : ClientDrew [] []
  | one {nc rest} (nonce : rest <+: nc ∨ nc <+: rest) : ClientDrew (safeCookie :: rest) [nc]

/-- A relay was given the selection of the safe cookie and a whole nonce. -/
def Challenged (heard : Bytes) : Prop :=
  ∃ nc rest, nc.length = 32 ∧ heard = safeCookie :: (nc ++ rest)

/-- The nonces that a relay has drawn that was given this: one if it was challenged. -/
inductive RelayDrew : (heard : Bytes) → (nonces : List Bytes) → Prop
  | none {heard} (unchallenged : ¬ Challenged heard) : RelayDrew heard []
  | one {heard ns} (challenged : Challenged heard) : RelayDrew heard [ns]

namespace SafeCookie

/-- A client that was halted has drawn what it should. -/
theorem ClientTurn.drew {cookie : Cookie} {t : Turn Unit} {h : Account} {op : Operation}
    {heard said : Bytes} (ht : ClientTurn cookie t h) (hs : op.Serves t heard said) :
    ClientDrew (h.said ++ said) h.drawn := by
  cases ht with
  | tooLong | notOffered | mismatch | rejected | trailing | through => cases hs
  | listing =>
      cases hs
      exact .none
  | selection =>
      rcases hs with _ | _ | ⟨whole, unsent⟩
      -- one octet cannot be out in part
      rcases List.append_eq_singleton_iff.mp whole with ⟨rfl, rfl⟩ | ⟨-, rfl⟩
      · exact .none
      · exact absurd rfl unsent
  | nonce =>
      rcases hs with _ | _ | ⟨whole, unsent⟩
      exact .one (.inl ⟨_, whole⟩)
  | nonceFlush | hash | serverNonce | proof | proofFlush | status =>
      cases hs
      exact .one (.inr (by simp))

/-- A client that has given up has drawn what it should. -/
theorem ClientTurn.drew_gaveUp {cookie : Cookie} {err : Error} {h : Account}
    (ht : ClientTurn cookie (.gaveUp err) h) : ClientDrew h.said h.drawn := by
  cases ht with
  | tooLong | notOffered => exact .none
  | mismatch => exact .one (.inr (List.prefix_refl _))
  | rejected | trailing => exact .one (.inr (List.prefix_append _ _))

/-- A client that has authenticated has drawn the nonce that it has said. -/
theorem ClientTurn.drew_done {cookie : Cookie} {h : Account}
    (ht : ClientTurn cookie (.done ()) h) :
    ∃ nc rest, h.said = safeCookie :: (nc ++ rest) ∧ h.drawn = [nc] := by
  cases ht
  exact ⟨_, _, rfl, rfl⟩

/-- A relay that is at an end of its own, waits or writes has drawn what it should. -/
theorem RelayAt.drew {cookie : Cookie} {m : Moment Unit} {h : Account}
    (hat : RelayAt cookie m h) (hm : m ≠ .thinks) : RelayDrew h.heard h.drawn := by
  cases hat with
  | challenged => exact absurd rfl hm
  | offering | awaitingSelection => exact .none (by rintro ⟨nc, rest, -, heq⟩; cases heq)
  | unsupported other =>
      refine .none ?_
      rintro ⟨nc, rest, -, heq⟩
      exact other (List.cons.inj heq).1
  | awaitingNonce short =>
      refine .none ?_
      rintro ⟨nc, rest, long, heq⟩
      have hlen := congrArg List.length heq
      simp only [List.length_cons, List.length_append] at hlen
      omega
  | @proving nc ns p s l long => exact .one ⟨nc, [], long, by simp⟩
  | awaitingHash long | accepting long | through long | refusing long | refused long =>
      exact .one ⟨_, _, long, rfl⟩

end SafeCookie

/-- A dialogue does not end while a party thinks. -/
theorem Dialogue.Rests.settled {α : Type} {phase : Phase} {P : Moment α → Account → Prop}
    {r : Ending Error α} {h : Account} (hr : Rests phase P r h) : ∃ m, m ≠ .thinks ∧ P m h := by
  rcases r with a | err | _ | _
  · exact ⟨.done a, by simp, hr⟩
  · rcases hr with hr | ⟨f, -, hr | hr⟩
    · exact ⟨.gaveUp err, by simp, hr⟩
    · exact ⟨.waits, by simp, hr⟩
    · exact ⟨.writes, by simp, hr⟩
  · exact ⟨.waits, by simp, hr⟩
  · exact ⟨.waits, by simp, hr⟩

/-- The nonces of an account are the blocks that the supply gave. -/
theorem Account.Fits.drawn_eq {came before : Bytes} {source : Supply} {h : Account}
    {e : Endpoint} {blocks : List Bytes} (hf : Account.Fits came before source h e)
    (hg : source.Gives blocks e.supply) : h.drawn = blocks := by
  have hlen : h.drawn.length = blocks.length := by
    have hsame := congrArg Supply.drawn (hf.supply.symm.trans hg.rest)
    exact Nat.add_left_cancel hsame
  rw [hf.drawn, hlen]
  exact hg.given.symm

namespace Endpoint

variable {cookie : Cookie} {info : SessionInfo} {e after : Endpoint}

/-- A client that authenticates draws what it should. -/
theorem handshake_drew (cookie : Cookie) (e : Endpoint) :
    ∃ said, (e.handshake cookie).2.wire.sent = e.wire.sent ++ said ∧
      ClientDrew said (e.handshakeDraws cookie) := by
  have hc := e.handshake_concludes cookie
  have hg := e.gives_handshake cookie
  generalize e.handshakeOperations cookie = ops at hc
  generalize e.handshake cookie = r at hc hg ⊢
  cases hc with
  | done passes stands fits =>
      obtain ⟨nc, rest, hsaid, hdrawn⟩ := stands.drew_done
      refine ⟨_, fits.said, ?_⟩
      rw [← fits.drawn_eq hg, hsaid, hdrawn]
      exact .one (.inr (List.prefix_append _ _))
  | gaveUp passes stands fits =>
      refine ⟨_, fits.said, ?_⟩
      rw [← fits.drawn_eq hg]
      exact stands.drew_gaveUp
  | halted passes halts stands serves fits =>
      refine ⟨_, fits.said, ?_⟩
      rw [← fits.drawn_eq hg]
      exact stands.drew serves

/-- A client that has authenticated has drawn the nonce that it has said. -/
theorem handshake_done_drew (hdone : e.handshake cookie = (.done (), after)) :
    ∃ nc rest, after.wire.sent = e.wire.sent ++ safeCookie :: (nc ++ rest) ∧
      e.handshakeDraws cookie = [nc] := by
  have hg := e.gives_handshake cookie
  obtain ⟨h, hrests, hf⟩ := e.handshake_account cookie
  rw [hdone] at hg hrests hf
  cases (hrests : ClientAt cookie (.done ()) h)
  exact ⟨_, _, hf.said, (hf.drawn_eq hg).symm⟩

/-- A client that authenticates and sets a session up draws what it should. -/
theorem exchange_drew (cookie : Cookie) (info : SessionInfo) (e : Endpoint) :
    ∃ said, (e.exchange cookie info).2.wire.sent = e.wire.sent ++ said ∧
      ClientDrew said (e.exchangeDraws cookie info) := by
  have hdrew := e.handshake_drew cookie
  rcases hh : e.handshake cookie with ⟨_ | err | _ | _, mid⟩ <;> rw [hh] at hdrew <;>
    simp only [exchangeDraws, exchange, authenticate, hh, List.append_nil]
  case done =>
    obtain ⟨nc, rest, hsent, hdraws⟩ := handshake_done_drew hh
    obtain ⟨h, -, hf⟩ := mid.dropAhead.setup_account info
    refine ⟨safeCookie :: (nc ++ rest) ++ h.said, ?_, ?_⟩
    · rw [hf.said, ← List.append_assoc, ← hsent]
      rfl
    · rw [hdraws, info.setup_plain.draws, List.append_nil, List.cons_append, List.append_assoc]
      exact .one (.inr (List.prefix_append _ _))
  all_goals exact hdrew

/-- A relay that authenticates draws what it should. -/
theorem relay_drew (cookie : Cookie) (e : Endpoint) :
    ∃ heard, heard ++ (e.authenticateRelay cookie).2.pending = e.pending ∧
      RelayDrew heard ((SafeCookie.relay cookie).draws e) := by
  have hg := (SafeCookie.relay cookie).gives_hold .authentication e
  obtain ⟨h, hrests, hf⟩ := (relay_keeps cookie e.step).hold .authentication (.begin e)
  obtain ⟨m, hm, hat⟩ := hrests.settled
  refine ⟨h.heard, hf.heard, ?_⟩
  rw [← hf.drawn_eq hg]
  exact hat.drew hm

end Endpoint

namespace Record

/-- The nonces that should have been drawn meanwhile were drawn, and no others. -/
def Due (r : Record) : Prop :=
  match r.undertaking with
  | .handshake _ | .authenticate _ | .negotiate _ _ _ _ => ClientDrew r.wrote r.nonces
  | .authenticateRelay _ => RelayDrew r.taken r.nonces
  | _ => r.nonces = []

/-- What has been sent behind the octets sent before was written meanwhile. -/
theorem wrote_eq {r : Record} {said : Bytes}
    (h : r.after.wire.sent = r.before.wire.sent ++ said) : r.wrote = said := by
  rw [wrote, h, List.drop_left]

/-- What was in front of the octets that are pending was given meanwhile. -/
theorem taken_eq {r : Record} {heard : Bytes}
    (h : heard ++ r.after.pending = r.before.pending) : r.taken = heard := by
  rw [taken, Endpoint.unread, Endpoint.unread, ← h, List.length_append, Nat.add_sub_cancel,
    List.take_left]

end Record

/-- Whatever is undertaken draws what is due. -/
theorem Undertaking.due_record (u : Undertaking) (e : Endpoint) : (u.record e).Due := by
  cases u with
  | handshake cookie | authenticate cookie =>
      obtain ⟨said, hsent, hdrew⟩ := e.handshake_drew cookie
      rw [Record.Due, Undertaking.record, Record.wrote_eq hsent]
      exact hdrew
  | negotiate cookie info budget late =>
      obtain ⟨said, hsent, hdrew⟩ :=
        ((e.wait late).hurried (e.wire.clock + budget)).exchange_drew cookie info
      rw [← ((e.wait late).negotiate_eq cookie info (e.wire.clock + budget)).1] at hsent
      rw [Record.Due, Undertaking.record, Record.wrote_eq hsent]
      exact hdrew
  | authenticateRelay cookie =>
      obtain ⟨heard, hpending, hdrew⟩ := e.relay_drew cookie
      rw [Record.Due, Undertaking.record, Record.taken_eq hpending]
      exact hdrew
  | setup info => exact info.setup_plain.draws e
  | readCommand phase => exact Command.read_plain.draws e
  | writeCommand phase c => exact c.write_plain.draws e
  | listen => exact e.listenDraws_eq_nil .nothing
  | answer accept => exact (giveVerdict_plain accept).draws e

/-- Every record of a chronicle tells of something that was undertaken. -/
theorem mem_chronicle {us : List Undertaking} {e : Endpoint} {r : Record}
    (h : r ∈ chronicle us e) : ∃ (u : Undertaking) (before : Endpoint), r = u.record before := by
  induction us generalizing e with
  | nil => cases h
  | cons u us ih =>
      rcases List.mem_cons.mp h with rfl | h
      · exact ⟨u, e, rfl⟩
      · rcases hu : u.perform e with ⟨_ | err | _ | _, after⟩ <;> rw [hu] at h
        · exact ih h
        · exact ih h
        · cases h
        · cases h

/-- The nonces of a chronicle are the blocks of these octets in order, each drawn when due. -/
structure DrawnInOrder (octets : Bytes) (run : List Record) : Prop where
  nonces : run.flatMap Record.nonces =
    (List.range (run.flatMap Record.nonces).length).map fun i =>
      Bytes.padded 32 (octets.drop (32 * i))
  due : ∀ r ∈ run, r.Due

/-- **Nonces are fresh.**  Whatever is undertaken on a stream, and whatever comes of it, the
nonces that are drawn are the blocks of the supply one after the other. -/
theorem nonces_fresh (octets : Bytes) (us : List Undertaking) (e : Endpoint) :
    DrawnInOrder octets (chronicle us { e with supply := .fresh octets }) := by
  constructor
  · obtain ⟨s2, hgives⟩ := gives_chronicle us { e with supply := .fresh octets }
    have hgiven := hgives.given
    simp only [Supply.block, Supply.fresh, Nat.zero_add] at hgiven
    exact hgiven
  · intro r hr
    obtain ⟨u, before, rfl⟩ := mem_chronicle hr
    exact u.due_record before

/-- A stream on which a client is deceived, then is offered nothing that it can take up, and
then meets another client. -/
def frequented : Endpoint :=
  .ofWire (.ofArrivals [.data [safeCookie, 0], .data (Bytes.zeros 64), .pause 2, .data [7, 0],
    .data (safeCookie :: Bytes.zeros 32)]) (.fresh [])

/-- Of three attempts on this stream the first and the last draw, and the last draws the block
behind the first's. -/
theorem frequented_nonces :
    (chronicle [.authenticate (.monotone 3), .handshake (.monotone 3),
        .authenticateRelay (.monotone 3)]
      { frequented with supply := .fresh (List.replicate 32 5 ++ [6, 7]) }).flatMap
        Record.nonces = [List.replicate 32 5, 6 :: 7 :: Bytes.zeros 30] := by
  have hnonces := (nonces_fresh (List.replicate 32 5 ++ [6, 7]) [.authenticate (.monotone 3),
    .handshake (.monotone 3), .authenticateRelay (.monotone 3)] frequented).nonces
  have htwo : ((chronicle [.authenticate (.monotone 3), .handshake (.monotone 3),
        .authenticateRelay (.monotone 3)]
      { frequented with supply := .fresh (List.replicate 32 5 ++ [6, 7]) }).flatMap
        Record.nonces).length = 2 := by decide +kernel
  rw [hnonces, htwo]
  rfl

end ManagedTransport
