import ManagedTransport.Proofs.Position
import ManagedTransport.Proofs.Recutting

/-!
# The cut is not seen

How octets are cut into pieces on their way does not matter.  Two wires that differ only in
that, and in how much one write takes, cannot be told apart by anything that a party reads
without reading ahead; and a client that negotiates, reading ahead, tells them apart only if
it is refused for what it has read ahead.

* `relay_wary`, `client_wary` — the relay never looks at what is read ahead, and the client
  only to refuse it;
* `perform_recut` — undertakings without reading ahead end alike at endpoints that are recut;
* `cut_unseen` — chronicles and negotiations on wires that are recut.
-/

namespace ManagedTransport

open Dialogue SafeCookie

namespace SafeCookie

/-- The relay never looks at what is read ahead. -/
theorem relay_wary (may : Prop) (cookie : Cookie) : (relay cookie).Wary may := by
  simp only [relay, say, push, readOctet, nonce, Dialogue.read, bind_def, Dialogue.bind, Wary]
  intro selected
  by_cases hsel : selected = safeCookie
  · simp only [if_pos hsel, Wary]
    intro nc ns hash
    by_cases hsame : sameHash hash (clientHash cookie.secret nc ns) = true
    · rw [if_pos hsame]
      trivial
    · rw [if_neg hsame]
      trivial
  · rw [if_neg hsel]
    trivial

theorem authTypesFrom_plain (room : Nat) (seen : Bytes) : (authTypesFrom room seen).Plain := by
  induction room generalizing seen with
  | zero => trivial
  | succ room ih =>
      intro b
      by_cases hb : b = 0
      · simp only [if_pos hb]
        trivial
      · simp only [if_neg hb]
        exact ih (b :: seen)

theorem awaitStatus_wary : awaitStatus.Wary True := by
  simp only [awaitStatus, reach, readOctet, readAhead, bind_def, Dialogue.bind, Wary]
  intro status
  by_cases hs : status = success
  · simp only [if_pos hs, Wary]
    exact ⟨trivial, trivial, fun n hn => if_neg hn⟩
  · rw [if_neg hs]
    trivial

/-- The client looks at what is read ahead only to refuse it. -/
theorem client_wary (cookie : Cookie) : (client cookie).Wary True := by
  refine wary_bind ((authTypesFrom_plain _ _).wary True) fun offered => ?_
  by_cases hoffer : offered.contains safeCookie = true
  · simp only [if_pos hoffer, exchange, reach, say, push, nonce, Dialogue.read, bind_def,
      Dialogue.bind, Wary]
    intro nc hash ns
    by_cases hsame : sameHash hash (serverHash cookie.secret nc ns) = true
    · simp only [if_pos hsame, Wary]
      exact awaitStatus_wary
    · simp only [if_neg hsame]
      trivial
  · simp only [if_neg hoffer]
    trivial

end SafeCookie

namespace Endpoint

variable {e e2 : Endpoint}

/-- A dialogue that never looks at what is read ahead ends alike at endpoints that are recut. -/
theorem Recut.hold {α : Type} {d : Dialogue α} (h : e.Recut e2) (phase : Phase)
    (hd : d.Wary False) :
    (d.hold phase e).1 = (d.hold phase e2).1 ∧
      (d.hold phase e).2.Recut (d.hold phase e2).2 :=
  (hd.hold phase h).resolve_left fun hmay => hmay.1

/-- What comes of reading a command at an endpoint comes of it at one that is recut. -/
theorem Recut.read (h : e.Recut e2) {phase : Phase} {r : Ending Error Command} {a : Endpoint}
    (hread : Command.read.hold phase e = (r, a)) :
    ∃ a2, Command.read.hold phase e2 = (r, a2) ∧ a.Recut a2 := by
  obtain ⟨hresult, hafter⟩ := h.hold phase (Command.read_plain.wary False)
  rw [hread] at hresult hafter
  exact ⟨(Command.read.hold phase e2).2, Prod.ext hresult.symm rfl, hafter⟩

/-- A relay that listens ends alike at endpoints that are recut. -/
theorem Recut.listenOn (h : e.Recut e2) (heard : Announced) :
    (e.listenOn heard).1 = (e2.listenOn heard).1 ∧
      (e.listenOn heard).2.Recut (e2.listenOn heard).2 := by
  fun_induction Endpoint.listenOn heard e generalizing e2 with
  | case1 heard e c a hread heard2 hmore ih =>
      obtain ⟨a2, hread2, hafter⟩ := h.read hread
      rw [Endpoint.listenOn.eq_def heard e2, hread2]
      simp only [hmore]
      exact ih hafter
  | case2 heard e c a hread _ hhear | case3 heard e c a hread _ hhear =>
      obtain ⟨a2, hread2, hafter⟩ := h.read hread
      rw [Endpoint.listenOn.eq_def heard e2, hread2]
      simp only [hhear]
      exact ⟨trivial, hafter⟩
  | case4 heard e err a hread | case5 heard e a hread | case6 heard e a hread =>
      obtain ⟨a2, hread2, hafter⟩ := h.read hread
      rw [Endpoint.listenOn.eq_def heard e2, hread2]
      exact ⟨rfl, hafter⟩

theorem pending_singly (e : Endpoint) : e.singly.pending = e.pending := by
  show (ManagedTransport.singly (.data e.held :: e.wire.arrivals)).flatMap Arrival.octets = _
  rw [octets_singly]
  rfl

theorem Recut.pending (h : e.Recut e2) : e.pending = e2.pending := by
  rw [← e.pending_singly, h.same, e2.pending_singly]

theorem Recut.sent (h : e.Recut e2) : e.wire.sent = e2.wire.sent := by
  have hsent := congrArg (fun e : Endpoint => e.wire.sent) h.same
  exact hsent

theorem Recut.clock (h : e.Recut e2) : e.wire.clock = e2.wire.clock := by
  have hclock := congrArg (fun e : Endpoint => e.wire.clock) h.same
  exact hclock

/-- A relay that reads nothing ahead does so to the end of its listening. -/
theorem Direct.listenOn (h : e.Direct) (heard : Announced) : (e.listenOn heard).2.Direct := by
  fun_induction Endpoint.listenOn heard e with
  | case1 heard e c a hread heard2 hmore ih =>
      have hafter := h.hold .setup Command.read
      rw [hread] at hafter
      exact ih hafter
  | case2 heard e c a hread | case3 heard e c a hread | case4 heard e err a hread
  | case5 heard e a hread | case6 heard e a hread =>
      have hafter := h.hold .setup Command.read
      rw [hread] at hafter
      exact hafter

/-- Endpoints that are recut, once both are changed in what has nothing to do with octets. -/
theorem Recut.map (h : e.Recut e2) {f : Endpoint → Endpoint}
    (hf : ∀ e, (f e).singly = f e.singly ∧ (e.Able → (f e).Able)) : (f e).Recut (f e2) := by
  refine ⟨?_, (hf e).2 h.able, (hf e2).2 h.able2⟩
  rw [(hf e).1, (hf e2).1, h.same]

theorem Recut.wait (h : e.Recut e2) (millis : Nat) : (e.wait millis).Recut (e2.wait millis) :=
  h.map fun _ => ⟨rfl, fun able => ⟨able.reads, able.writes⟩⟩

theorem Recut.hurried (h : e.Recut e2) (limit : Nat) : (e.hurried limit).Recut (e2.hurried limit) :=
  h.map fun _ => ⟨rfl, fun able => ⟨able.reads, able.writes⟩⟩

/-- How a party reads does not matter if it holds nothing. -/
theorem Recut.rewindow (h : e.Recut e2) (hheld : e.held = []) (hheld2 : e2.held = [])
    (window : Nat) (wide : 0 < window) :
    Recut { e with held := [], window := window } { e2 with held := [], window := window } := by
  have hsame := h.same
  rw [singly, singly, hheld, hheld2] at hsame
  exact ⟨hsame, ⟨wide, h.able.writes⟩, ⟨wide, h.able2.writes⟩⟩

theorem Recut.settingOut (h : e.Recut e2) (hheld : e.held = []) (hheld2 : e2.held = []) :
    e.settingOut.Recut e2.settingOut :=
  (h.rewindow hheld hheld2 readAheadSize (Nat.succ_pos _)).withStep .awaitAuthTypes

variable {cookie : Cookie}

/-- Clients that authenticate at endpoints that are recut end alike, unless one is refused. -/
theorem Recut.handshake (h : e.Recut e2) (hheld : e.held = []) (hheld2 : e2.held = [])
    (hfree : ¬ (e.handshake cookie).1.Trails) (hfree2 : ¬ (e2.handshake cookie).1.Trails) :
    (e.handshake cookie).1 = (e2.handshake cookie).1 ∧
      (e.handshake cookie).2.Recut (e2.handshake cookie).2 := by
  have hends := (client_wary cookie).hold .authentication (h.settingOut hheld hheld2)
  exact hends.resolve_left fun hmay => hmay.2.elim hfree hfree2

/-- Clients that authenticate and set a session up at endpoints that are recut end alike,
unless one is refused. -/
theorem Recut.exchange (h : e.Recut e2) (hheld : e.held = []) (hheld2 : e2.held = [])
    (hfree : ¬ (e.handshake cookie).1.Trails) (hfree2 : ¬ (e2.handshake cookie).1.Trails)
    (info : SessionInfo) :
    (e.exchange cookie info).1 = (e2.exchange cookie info).1 ∧
      (e.exchange cookie info).2.wire.sent = (e2.exchange cookie info).2.wire.sent ∧
      (e.exchange cookie info).2.wire.clock = (e2.exchange cookie info).2.wire.clock := by
  obtain ⟨hresult, hafter⟩ := h.handshake hheld hheld2 hfree hfree2
  rcases hh : e.handshake cookie with ⟨r, mid⟩
  rcases hh2 : e2.handshake cookie with ⟨r2, mid2⟩
  rw [hh, hh2] at hresult hafter
  obtain rfl : r = r2 := hresult
  rcases r with _ | err | _ | _ <;> simp only [Endpoint.exchange, authenticate, hh, hh2]
  case done =>
    -- nothing is held behind the status, so nothing is lost in either
    have hmid := hafter.rewindow (acceptance_of_handshake hh).1 (acceptance_of_handshake hh2).1
      1 Nat.one_pos
    obtain ⟨hsetup, hlast⟩ := hmid.hold .setup (info.setup_plain.wary False)
    exact ⟨hsetup, hlast.sent, hlast.clock⟩
  all_goals exact ⟨trivial, hafter.sent, hafter.clock⟩

/-- Clients that negotiate at endpoints that are recut end alike, unless one is refused. -/
theorem Recut.negotiate (h : e.Recut e2) (hheld : e.held = []) (hheld2 : e2.held = [])
    {limit : Nat} (hfree : ¬ ((e.hurried limit).handshake cookie).1.Trails)
    (hfree2 : ¬ ((e2.hurried limit).handshake cookie).1.Trails) (info : SessionInfo) :
    (e.negotiate cookie info limit).1 = (e2.negotiate cookie info limit).1 ∧
      (e.negotiate cookie info limit).2.wire.sent =
        (e2.negotiate cookie info limit).2.wire.sent ∧
      (e.negotiate cookie info limit).2.wire.clock =
        (e2.negotiate cookie info limit).2.wire.clock := by
  obtain ⟨hresult, hsent, hclock⟩ := (h.hurried limit).exchange hheld hheld2 hfree hfree2 info
  obtain ⟨hwire, hends⟩ := e.negotiate_eq cookie info limit
  obtain ⟨hwire2, hends2⟩ := e2.negotiate_eq cookie info limit
  refine ⟨?_, by rw [hwire, hwire2, hsent], by rw [hwire, hwire2, hclock]⟩
  rw [hends, hends2, hresult, h.clock]

end Endpoint

/-- An undertaking of a party that reads nothing ahead. -/
def Undertaking.Unbuffered : Undertaking → Prop
  | handshake _ => False
  | authenticate _ => False
  | negotiate _ _ _ _ => False
  | _ => True

/-- Undertakings without reading ahead end alike at endpoints that are recut. -/
theorem Undertaking.perform_recut {u : Undertaking} {e e2 : Endpoint} (hu : u.Unbuffered)
    (h : e.Recut e2) :
    (u.perform e).1 = (u.perform e2).1 ∧ (u.perform e).2.Recut (u.perform e2).2 := by
  have hgain : ∀ {α : Type} (gain : α → Gain) {x y : Ending Error α × Endpoint},
      x.1 = y.1 ∧ x.2.Recut y.2 →
        (gaining gain x).1 = (gaining gain y).1 ∧ (gaining gain x).2.Recut (gaining gain y).2 :=
    fun gain _ _ h => ⟨congrArg (Ending.gain gain) h.1, h.2⟩
  cases u with
  | handshake | authenticate | negotiate => exact hu.elim
  | authenticateRelay cookie => exact hgain _ (h.hold .authentication (relay_wary False cookie))
  | setup info => exact hgain _ (h.hold .setup (info.setup_plain.wary False))
  | readCommand phase => exact hgain _ (h.hold phase (Command.read_plain.wary False))
  | writeCommand phase c => exact hgain _ (h.hold phase (c.write_plain.wary False))
  | listen => exact hgain _ (h.listenOn .nothing)
  | answer accept => exact hgain _ (h.hold .setup ((giveVerdict_plain accept).wary False))

/-- A party that reads nothing ahead does so whatever it undertakes so. -/
theorem Undertaking.perform_direct {u : Undertaking} {e : Endpoint} (hu : u.Unbuffered)
    (h : e.Direct) : (u.perform e).2.Direct := by
  cases u with
  | handshake | authenticate | negotiate => exact hu.elim
  | listen => exact h.listenOn .nothing
  | authenticateRelay | setup | readCommand | writeCommand | answer => exact h.hold _ _

/-- What is seen of an undertaking: how it ended, what was written, how many octets nobody has
read, and how long it took. -/
structure Seen where
  ending : Ending Error Gain
  wrote : Bytes
  unread : Nat
  elapsed : Nat
deriving DecidableEq

/-- The same is seen but for the octets that nobody has read: of those a client that reads ahead
leaves fewer or more. -/
structure Seen.Matches (s s2 : Seen) : Prop where
  ending : s.ending = s2.ending
  wrote : s.wrote = s2.wrote
  elapsed : s.elapsed = s2.elapsed

/-- What is seen of what is told. -/
def Record.seen (r : Record) : Seen :=
  ⟨r.ending, r.wrote, r.after.wire.unread, r.after.wire.clock - r.before.wire.clock⟩

/-- **Chronicles without reading ahead** at endpoints that are recut are the same to see. -/
theorem chronicle_recut {us : List Undertaking} {e e2 : Endpoint}
    (hus : ∀ u ∈ us, u.Unbuffered) (h : e.Recut e2) (hd : e.Direct) (hd2 : e2.Direct) :
    (chronicle us e).map Record.seen = (chronicle us e2).map Record.seen := by
  induction us generalizing e e2 with
  | nil => rfl
  | cons u us ih =>
      have hu := hus u List.mem_cons_self
      obtain ⟨hresult, hafter⟩ := u.perform_recut hu h
      have hdirect := u.perform_direct hu hd
      have hdirect2 := u.perform_direct hu hd2
      have hseen : (u.record e).seen = (u.record e2).seen := by
        simp only [Record.seen, Undertaking.record, Record.wrote, Wire.unread, hresult, h.sent,
          h.clock, hafter.sent, hafter.clock, ← hdirect.pending_eq, ← hdirect2.pending_eq,
          hafter.pending]
      have hrest := ih (fun u hmem => hus u (List.mem_cons_of_mem _ hmem)) hafter hdirect hdirect2
      rw [chronicle, chronicle, List.map_cons, List.map_cons, hseen]
      congr 1
      rcases hp : u.perform e with ⟨r, a⟩
      rcases hp2 : u.perform e2 with ⟨r2, a2⟩
      rw [hp, hp2] at hresult hrest
      obtain rfl : r = r2 := hresult
      rcases r with _ | err | _ | _
      · exact hrest
      · exact hrest
      · rfl
      · rfl

/-- Two wires differ only in how the octets between pauses, faults and stalls are cut, and in
how much one write takes, which is not nothing. -/
structure Wire.Recut (w w2 : Wire) : Prop where
  arrivals : singly w.arrivals = singly w2.arrivals
  rest : w.reframe [] none = w2.reframe [] none
  most : w.atMost ≠ some 0
  most2 : w2.atMost ≠ some 0

/-- Parties that come to wires that are recut. -/
theorem Wire.Recut.endpoint {w w2 : Wire} (h : w.Recut w2) (s : Supply) :
    (Endpoint.ofWire w s).Recut (.ofWire w2 s) := by
  refine ⟨?_, ⟨Nat.one_pos, h.most⟩, ⟨Nat.one_pos, h.most2⟩⟩
  have hwire := congrArg (Wire.reframe (singly w.arrivals) none) h.rest
  simp only [Endpoint.singly, Endpoint.ofWire, singly_cons, Arrival.singly, List.map_nil,
    List.nil_append, ← h.arrivals]
  exact congrArg (fun w => (⟨w, s, [], 1, none, .awaitAuthTypes⟩ : Endpoint)) hwire

/-- A client that negotiates within this time is refused for what it has read ahead. -/
def Endpoint.Refuses (cookie : Cookie) (budget late : Nat) (e : Endpoint) : Prop :=
  (((e.wait late).hurried (e.wire.clock + budget)).handshake cookie).1.Trails

/-- Negotiations at endpoints that are recut are the same to see but for what is unread,
unless one client is refused. -/
theorem Endpoint.Recut.negotiations {e e2 : Endpoint} {cookie : Cookie} {budget late : Nat}
    (h : e.Recut e2) (hheld : e.held = []) (hheld2 : e2.held = [])
    (hfree : ¬ e.Refuses cookie budget late) (hfree2 : ¬ e2.Refuses cookie budget late)
    (info : SessionInfo) :
    ((Undertaking.negotiate cookie info budget late).record e).seen.Matches
      ((Undertaking.negotiate cookie info budget late).record e2).seen := by
  rw [Refuses, ← h.clock] at hfree2
  obtain ⟨hresult, hsent, hclock⟩ := (h.wait late).negotiate hheld hheld2 hfree hfree2 info
  constructor <;>
    simp only [Record.seen, Undertaking.record, Undertaking.perform, gaining, Record.wrote,
      ← h.clock, ← h.sent]
  · rw [hresult]
  · rw [hsent]
  · rw [hclock]

/-- **The cut is not seen.**  Whatever is undertaken without reading ahead, one after the
other, comes to the same on wires that differ only in how octets are cut, step by step; and so
does a negotiation, unless either client is refused for what it has read ahead. -/
theorem cut_unseen {w w2 : Wire} (h : w.Recut w2) (s : Supply) :
    (∀ us : List Undertaking, (∀ u ∈ us, u.Unbuffered) →
      (chronicle us (.ofWire w s)).map Record.seen =
        (chronicle us (.ofWire w2 s)).map Record.seen) ∧
    ∀ cookie info budget late, ¬ (Endpoint.ofWire w s).Refuses cookie budget late →
      ¬ (Endpoint.ofWire w2 s).Refuses cookie budget late →
        ((Undertaking.negotiate cookie info budget late).record (.ofWire w s)).seen.Matches
          ((Undertaking.negotiate cookie info budget late).record (.ofWire w2 s)).seen := by
  have hends := h.endpoint s
  refine ⟨fun us hus => chronicle_recut hus hends ⟨rfl, rfl⟩ ⟨rfl, rfl⟩, ?_⟩
  intro cookie info budget late hfree hfree2
  exact hends.negotiations rfl rfl hfree hfree2 info

/-- What comes to the client that is accepted, cut otherwise but for the end of the status, and
with five octets going out by each write. -/
def sliced : Wire :=
  { Wire.ofArrivals [.data [2], .pause 4, .data (safeCookie :: 0 ::
      serverHash (Cookie.monotone 0).secret (Bytes.zeros 32) (Bytes.zeros 32)), .data [],
      .data (Bytes.zeros 32), .data [success], .data [0x10, 0, 0, 2, 5], .data [6, 7]] with
    atMost := some 5 }

theorem sliced_recut : Wire.Recut Endpoint.accepted.wire sliced := by
  refine ⟨?_, rfl, by decide, by decide⟩
  simp [Endpoint.accepted, Endpoint.ofWire, sliced, Wire.ofArrivals, Arrival.singly]

/-- Neither a relay nor a client sees how the octets are cut. -/
theorem sliced_unseen :
    (chronicle [.authenticateRelay (.monotone 0), .readCommand .setup, .setup .nearby]
        (.ofWire Endpoint.accepted.wire (.fresh []))).map Record.seen =
      (chronicle [.authenticateRelay (.monotone 0), .readCommand .setup, .setup .nearby]
        (.ofWire sliced (.fresh []))).map Record.seen ∧
    ((Undertaking.negotiate (.monotone 0) .nearby 50 7).record
        (.ofWire Endpoint.accepted.wire (.fresh []))).seen.Matches
      ((Undertaking.negotiate (.monotone 0) .nearby 50 7).record
        (.ofWire sliced (.fresh []))).seen := by
  obtain ⟨hchronicles, hnegotiations⟩ := cut_unseen sliced_recut (.fresh [])
  have hfree : ∀ {e : Endpoint},
      (((e.wait 7).hurried (e.wire.clock + 50)).handshake (.monotone 0)).1 = .done () →
        ¬ e.Refuses (.monotone 0) 50 7 := by
    rintro e hdone ⟨n, htrails⟩
    rw [hdone] at htrails
    cases htrails
  refine ⟨hchronicles _ (by simp [Undertaking.Unbuffered]), hnegotiations _ _ _ _ ?_ ?_⟩
  · exact hfree (by decide +kernel)
  · exact hfree (by decide +kernel)

end ManagedTransport
