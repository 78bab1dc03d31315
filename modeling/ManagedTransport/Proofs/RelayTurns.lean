import ManagedTransport.Negotiation
import ManagedTransport.Proofs.Turns

/-!
# The turns of a relay

`RelayTurn` lists what a relay that authenticates asks of its wire, each turn with the account
with which it begins.  `RelayEnd` lists the ways in which it may end: what the relay has heard,
said and drawn by then, and what is returned.

* `relay_turns` — there are no other turns, whatever the relay is told;
* `FlushesLast` — the last that a dialogue does on its wire is a flush;
* `relay_ends` — there are no other ends, on any wire.
-/

namespace ManagedTransport

namespace Dialogue

variable {α : Type}

/-- A dialogue that comes to an end as in `Q` flushes last, unless it does nothing more and
`flushed` says that it has flushed before. -/
def FlushesLast (Q : Ending Error α → Prop) : Dialogue α → (flushed : Prop) → Prop
  | done a, flushed => Q (.done a) → flushed
  | fail err, flushed => Q (.failed err) → flushed
  | octet k, _ => ∀ b, FlushesLast Q (k b) False
  | octets _ k, _ => ∀ bs, FlushesLast Q (k bs) False
  | send _ k, _ => FlushesLast Q k False
  | flush k, _ => FlushesLast Q k True
  | draw k, flushed => ∀ block, FlushesLast Q (k block) flushed
  | mark _ k, flushed => FlushesLast Q k flushed
  | ahead k, flushed => ∀ n, FlushesLast Q (k n) flushed

/-- **A dialogue that flushes last** and is not halted ends with a flush that succeeds. -/
theorem FlushesLast.hold {Q : Ending Error α → Prop} {phase : Phase} {d : Dialogue α}
    {flushed : Prop} {e : Endpoint} (hd : FlushesLast Q d flushed) (hQ : Q (d.hold phase e).1)
    (unhalted : ∀ halt : Halt, ¬ Q (halt.ending phase)) :
    (d.operations e = [] ∧ flushed) ∨ ∃ first, d.operations e = first ++ [.flush (.ok ())] := by
  -- whatever comes before, the last operation of the rest is the last of all
  have later : ∀ {front ops : List Operation},
      (ops = [] ∧ False) ∨ (∃ first, ops = first ++ [.flush (.ok ())]) →
      ∃ first, front ++ ops = first ++ [.flush (.ok ())] := by
    intro front ops h
    obtain ⟨-, hfalse⟩ | ⟨first, rfl⟩ := h
    · exact hfalse.elim
    · exact ⟨front ++ first, (List.append_assoc _ _ _).symm⟩
  induction d generalizing e flushed with
  | done a => exact .inl ⟨rfl, hd hQ⟩
  | fail err => exact .inl ⟨rfl, hd hQ⟩
  | octet k ih =>
      rcases hn : e.next with ⟨(_ | b) | f | _ | _, e2⟩ <;> simp only [Dialogue.hold, hn] at hQ
      case done.some =>
        simp only [operations, hn]
        exact .inr (later (ih b (hd b) hQ))
      · exact absurd hQ (unhalted (.fault .noOctet))
      · exact absurd hQ (unhalted (.fault f))
      · exact absurd hQ (unhalted .late)
      · exact absurd hQ (unhalted .stuck)
  | octets n k ih =>
      rcases ht : e.take n with ⟨bs | f | _ | _, e2⟩ <;> simp only [Dialogue.hold, ht] at hQ
      · simp only [operations, ht]
        exact .inr (later (ih bs (hd bs) hQ))
      · exact absurd hQ (unhalted (.fault f))
      · exact absurd hQ (unhalted .late)
      · exact absurd hQ (unhalted .stuck)
  | send bs k ih =>
      rcases hw : e.wire.write bs with ⟨f | _, w⟩ <;> simp only [Dialogue.hold, hw] at hQ
      · exact absurd hQ (unhalted (.fault f))
      · simp only [operations, hw]
        exact .inr (later (ih hd hQ))
  | flush k ih =>
      rcases hw : e.wire.flush with ⟨f | _, w⟩ <;> simp only [Dialogue.hold, hw] at hQ
      · exact absurd hQ (unhalted (.fault f))
      · simp only [operations, hw]
        obtain ⟨hnone, -⟩ | ⟨first, hfirst⟩ := ih hd hQ
        · exact .inr ⟨[], by rw [hnone]; rfl⟩
        · exact .inr ⟨_ :: first, by rw [hfirst]; rfl⟩
  | draw k ih => exact ih _ (hd _) hQ
  | mark s k ih => exact ih hd hQ
  | ahead k ih => exact ih _ (hd _) hQ

end Dialogue

namespace SafeCookie

open Dialogue

/-- The status that a hash deserves. -/
def statusFor (cookie : Cookie) (nc ns hash : Bytes) : UInt8 :=
  if hash = clientHash cookie.secret nc ns then success else failure

theorem statusFor_right {cookie : Cookie} {nc ns hash : Bytes}
    (right : hash = clientHash cookie.secret nc ns) : statusFor cookie nc ns hash = success :=
  if_pos right

theorem statusFor_wrong {cookie : Cookie} {nc ns hash : Bytes}
    (wrong : hash ≠ clientHash cookie.secret nc ns) : statusFor cookie nc ns hash = failure :=
  if_neg wrong

/-- What a relay returns that has given this status. -/
def returnedFor (status : UInt8) : Ending Error Unit :=
  if status = success then .done () else .failed (.auth .clientHashMismatch)

theorem returnedFor_right {cookie : Cookie} {nc ns hash : Bytes}
    (right : hash = clientHash cookie.secret nc ns) :
    returnedFor (statusFor cookie nc ns hash) = .done () := by
  rw [statusFor_right right]
  rfl

theorem returnedFor_wrong {cookie : Cookie} {nc ns hash : Bytes}
    (wrong : hash ≠ clientHash cookie.secret nc ns) :
    returnedFor (statusFor cookie nc ns hash) = .failed (.auth .clientHashMismatch) := by
  rw [statusFor_wrong wrong]
  rfl

/-- All that a relay says while it authenticates, in order: its offer, its proof, and a
status. -/
def relayTranscript (cookie : Cookie) (nc ns : Bytes) (status : UInt8) : Bytes :=
  safeCookie :: 0 :: (serverHash cookie.secret nc ns ++ ns ++ [status])

/-- The turns of a relay that authenticates.  `nc` and `ns` are the client's and the relay's
nonce, and `hash` is the client's hash. -/
inductive RelayTurn (cookie : Cookie) : Turn Unit → Account → Prop
  | offer {s l} : RelayTurn cookie (.send [safeCookie, 0]) ⟨[], [], [], s, l⟩
  | offerFlush {s l} : RelayTurn cookie .flush ⟨[], [safeCookie, 0], [], s, l⟩
  | selection {s l} : RelayTurn cookie .octet ⟨[], [safeCookie, 0], [], s, l⟩
  | unsupported {b s l} (other : b ≠ safeCookie) :
      RelayTurn cookie (.gaveUp (.auth (.unsupportedSelection b.toNat)))
        ⟨[b], [safeCookie, 0], [], s, l⟩
  | nonce {s l} : RelayTurn cookie (.octets 32) ⟨[safeCookie], [safeCookie, 0], [], s, l⟩
  | proof {nc ns s l} (long : nc.length = 32) :
      RelayTurn cookie (.send (serverHash cookie.secret nc ns ++ ns))
        ⟨safeCookie :: nc, [safeCookie, 0], [ns], s, l⟩
  | proofFlush {nc ns s l} (long : nc.length = 32) :
      RelayTurn cookie .flush
        ⟨safeCookie :: nc, safeCookie :: 0 :: (serverHash cookie.secret nc ns ++ ns), [ns], s, l⟩
  | hash {nc ns s l} (long : nc.length = 32) :
      RelayTurn cookie (.octets 32)
        ⟨safeCookie :: nc, safeCookie :: 0 :: (serverHash cookie.secret nc ns ++ ns), [ns], s, l⟩
  | status {nc ns hash s l} (long : nc.length = 32) (longHash : hash.length = 32) :
      RelayTurn cookie (.send [statusFor cookie nc ns hash])
        ⟨safeCookie :: (nc ++ hash), safeCookie :: 0 :: (serverHash cookie.secret nc ns ++ ns),
          [ns], s, l⟩
  | statusFlush {nc ns hash s l} (long : nc.length = 32) (longHash : hash.length = 32) :
      RelayTurn cookie .flush
        ⟨safeCookie :: (nc ++ hash),
          relayTranscript cookie nc ns (statusFor cookie nc ns hash), [ns], s, l⟩
  | through {nc ns hash s l} (long : nc.length = 32) (longHash : hash.length = 32)
      (right : hash = clientHash cookie.secret nc ns) :
      RelayTurn cookie (.done ())
        ⟨safeCookie :: (nc ++ hash),
          relayTranscript cookie nc ns (statusFor cookie nc ns hash), [ns], s, l⟩
  | refused {nc ns hash s l} (long : nc.length = 32) (longHash : hash.length = 32)
      (wrong : hash ≠ clientHash cookie.secret nc ns) :
      RelayTurn cookie (.gaveUp (.auth .clientHashMismatch))
        ⟨safeCookie :: (nc ++ hash),
          relayTranscript cookie nc ns (statusFor cookie nc ns hash), [ns], s, l⟩

/-- The turns in which a relay answers a hash. -/
theorem answer_turns {cookie : Cookie} {nc ns hash : Bytes} {s : AuthStep} {l : Option Nat}
    (long : nc.length = 32) (longHash : hash.length = 32) :
    Turns (RelayTurn cookie)
      (if sameHash hash (clientHash cookie.secret nc ns) then sendStatus success
        else do sendStatus failure; refuse .clientHashMismatch)
      ⟨safeCookie :: (nc ++ hash), safeCookie :: 0 :: (serverHash cookie.secret nc ns ++ ns), [ns],
        s, l⟩ := by
  by_cases right : hash = clientHash cookie.secret nc ns
  · rw [if_pos (sameHash_iff.mpr right), ← statusFor_right right]
    exact ⟨.status long longHash, .statusFlush long longHash, .through long longHash right⟩
  · rw [if_neg (mt sameHash_iff.mp right), ← statusFor_wrong right]
    exact ⟨.status long longHash, .statusFlush long longHash, .refused long longHash right⟩

/-- **A relay that authenticates asks what `RelayTurn` says**, whatever it is told. -/
theorem relay_turns (cookie : Cookie) (s : AuthStep) :
    Turns (RelayTurn cookie) (relay cookie) (.fresh s) := by
  simp only [relay, say, push, readOctet, Dialogue.nonce, Dialogue.read, bind_def, Dialogue.bind,
    Turns, Account.fresh, Account.say, Account.hear, List.nil_append]
  refine ⟨.offer, .offerFlush, .selection, ?_⟩
  intro b
  by_cases hb : b = safeCookie
  · subst hb
    simp only [if_true, Turns, Account.hear, Account.draw, Account.say, List.nil_append,
      List.cons_append]
    refine ⟨.nonce, fun nc long ns _ => ⟨.proof long, .proofFlush long, .hash long, ?_⟩⟩
    intro hash longHash
    exact answer_turns long longHash
  · rw [if_neg hb]
    exact .unsupported hb

/-- A relay has ended so by giving its status. -/
def Answered (r : Ending Error Unit) : Prop :=
  r = .done () ∨ r = .failed (.auth .clientHashMismatch)

/-- A relay that has answered has flushed its status. -/
theorem relay_flushesLast (cookie : Cookie) : FlushesLast Answered (relay cookie) False := by
  simp only [relay, say, push, readOctet, Dialogue.nonce, Dialogue.read, bind_def, Dialogue.bind,
    FlushesLast]
  intro b
  by_cases hb : b = safeCookie
  · rw [if_pos hb]
    intro nc ns hash
    by_cases right : sameHash hash (clientHash cookie.secret nc ns)
    · simp only [right, if_true]
      exact fun _ => trivial
    · simp only [right]
      exact fun _ => trivial
  · rw [if_neg hb]
    simp [refuse, FlushesLast, Answered]

/-- The ways in which a relay's authentication may end whose nonce is `ns` and whose operations
are these, by what it has heard, said and drawn. -/
inductive RelayEnd (cookie : Cookie) (ns : Bytes) (ops : List Operation) :
    (heard said : Bytes) → (drawn : List Bytes) → Ending Error Unit → Prop
  /-- It is halted before it has a nonce of the client. -/
  | offering {heard p : Bytes} {op halt}
      (few : heard = [] ∨ ∃ bs, heard = safeCookie :: bs ∧ bs.length < 32)
      (part : p <+: [safeCookie, 0]) (tried : op ∈ ops) (halts : op.halt? = some halt) :
      RelayEnd cookie ns ops heard p [] (halt.ending .authentication)
  | unsupported {b} (other : b ≠ safeCookie) :
      RelayEnd cookie ns ops [b] [safeCookie, 0] []
        (.failed (.auth (.unsupportedSelection b.toNat)))
  /-- It is halted before it has a hash of the client. -/
  | proving {nc bs p : Bytes} {op halt} (long : nc.length = 32) (short : bs.length < 32)
      (part : p <+: serverHash cookie.secret nc ns ++ ns) (tried : op ∈ ops)
      (halts : op.halt? = some halt) :
      RelayEnd cookie ns ops (safeCookie :: (nc ++ bs)) (safeCookie :: 0 :: p) [ns]
        (halt.ending .authentication)
  /-- The status is not taken. -/
  | unanswered {nc hash op f} (long : nc.length = 32) (longHash : hash.length = 32)
      (tried : op ∈ ops) (fails : op.FailsBy f) :
      RelayEnd cookie ns ops (safeCookie :: (nc ++ hash))
        (safeCookie :: 0 :: (serverHash cookie.secret nc ns ++ ns)) [ns]
        (.failed (.network (.io .authentication f)))
  /-- The status is taken and does not go out. -/
  | unflushed {nc hash f} (long : nc.length = 32) (longHash : hash.length = 32)
      (fails : .flush (.error f) ∈ ops) :
      RelayEnd cookie ns ops (safeCookie :: (nc ++ hash))
        (relayTranscript cookie nc ns (statusFor cookie nc ns hash)) [ns]
        (.failed (.network (.io .authentication f)))
  /-- The status is taken, and goes out last of all. -/
  | answered {nc hash first} (long : nc.length = 32) (longHash : hash.length = 32)
      (passes : ∀ op ∈ ops, op.Passes) (last : ops = first ++ [.flush (.ok ())]) :
      RelayEnd cookie ns ops (safeCookie :: (nc ++ hash))
        (relayTranscript cookie nc ns (statusFor cookie nc ns hash)) [ns]
        (returnedFor (statusFor cookie nc ns hash))

/-- A flush halts by its fault. -/
theorem flush_halts {outcome : Except Fault Unit} {halt : Halt}
    (h : (Operation.flush outcome).halt? = some halt) :
    ∃ f, outcome = .error f ∧ halt = .fault f := by
  rcases outcome with f | _
  · exact ⟨f, rfl, (Option.some.inj h).symm⟩
  · cases h

/-- A write halts by a fault. -/
theorem write_halts {bs : Bytes} {outcome : Except Fault Nat} {halt : Halt}
    (h : (Operation.write bs outcome).halt? = some halt) : ∃ f, halt = .fault f := by
  rcases outcome with f | _ | n
  · exact ⟨f, (Option.some.inj h).symm⟩
  · exact ⟨_, (Option.some.inj h).symm⟩
  · cases h

/-- A relay that is halted at one of its turns ends in one of these ways. -/
theorem RelayTurn.halted {cookie : Cookie} {t : Turn Unit} {h : Account} {op : Operation}
    {halt : Halt} {heard said ns : Bytes} {ops : List Operation} (ht : RelayTurn cookie t h)
    (hs : op.Serves t heard said) (halts : op.halt? = some halt) (hop : op ∈ ops)
    (hdrawn : ∀ block, h.drawn = [block] → block = ns) :
    RelayEnd cookie ns ops (h.heard ++ heard) (h.said ++ said) h.drawn
      (halt.ending .authentication) := by
  cases ht with
  | unsupported | through | refused => cases hs
  | offer =>
      rcases hs with _ | _ | ⟨whole, -⟩
      exact .offering (.inl rfl) ⟨_, whole⟩ hop halts
  | offerFlush | selection =>
      cases hs
      exact .offering (.inl rfl) (List.prefix_refl _) hop halts
  | nonce =>
      rcases hs with _ | ⟨short⟩
      exact .offering (.inr ⟨heard, rfl, short⟩) (List.prefix_refl _) hop halts
  | @proof nc ns _ _ long =>
      rcases hs with _ | _ | ⟨whole, -⟩
      obtain rfl := hdrawn _ rfl
      have hend := @RelayEnd.proving cookie ns ops nc [] said _ halt long (by decide)
        ⟨_, whole⟩ hop halts
      simpa using hend
  | @proofFlush nc ns _ _ long =>
      cases hs
      obtain rfl := hdrawn _ rfl
      have hend := @RelayEnd.proving cookie ns ops nc [] _ _ halt long (by decide)
        (List.prefix_refl _) hop halts
      simpa using hend
  | hash long =>
      rcases hs with _ | ⟨short⟩
      obtain rfl := hdrawn _ rfl
      simpa using .proving long short (List.prefix_refl _) hop halts
  | status long longHash =>
      rcases hs with _ | _ | ⟨whole, unsent⟩
      obtain rfl := hdrawn _ rfl
      obtain ⟨f, rfl⟩ := write_halts halts
      rcases List.append_eq_singleton_iff.mp whole with ⟨rfl, -⟩ | ⟨-, rfl⟩
      · simpa using .unanswered long longHash hop halts
      · exact absurd rfl unsent
  | statusFlush long longHash =>
      cases hs
      obtain rfl := hdrawn _ rfl
      obtain ⟨f, rfl, rfl⟩ := flush_halts halts
      simpa using .unflushed long longHash hop

end SafeCookie

namespace Endpoint

open SafeCookie

/-- The operations of a relay that authenticates. -/
def relayOperations (cookie : Cookie) (e : Endpoint) : List Operation :=
  (SafeCookie.relay cookie).operations e

/-- The last operation of a relay that has answered is a flush that succeeds. -/
theorem relay_last (cookie : Cookie) (e : Endpoint)
    (answered : Answered (e.authenticateRelay cookie).1) :
    ∃ first, e.relayOperations cookie = first ++ [.flush (.ok ())] := by
  have unhalted : ∀ halt : Halt, ¬ Answered (halt.ending .authentication) := by
    intro halt
    cases halt <;> simp [Answered, Halt.ending]
  obtain ⟨-, hfalse⟩ | hlast := (relay_flushesLast cookie).hold answered unhalted
  · exact hfalse.elim
  · exact hlast

/-- **A relay's authentication ends as `RelayEnd` says**, on any wire. -/
theorem relay_ends (cookie : Cookie) (e : Endpoint) :
    ∃ h, Account.Fits e.pending e.wire.sent e.supply h (e.authenticateRelay cookie).2 ∧
      RelayEnd cookie e.supply.draw.1 (e.relayOperations cookie) h.heard h.said h.drawn
        (e.authenticateRelay cookie).1 := by
  have hc := (relay_turns cookie e.step).hold .authentication (Account.Fits.begin e)
  have hlast := relay_last cookie e
  rw [← relayOperations, ← authenticateRelay] at hc
  generalize e.relayOperations cookie = ops at hc hlast ⊢
  generalize e.authenticateRelay cookie = x at hc hlast ⊢
  cases hc with
  | done passes stands fits =>
      cases stands with
      | through long longHash right =>
          obtain rfl := fits.nonce rfl
          obtain ⟨first, hfirst⟩ := hlast (.inl rfl)
          rw [← returnedFor_right right]
          exact ⟨_, fits, .answered long longHash passes hfirst⟩
  | gaveUp passes stands fits =>
      cases stands with
      | unsupported other => exact ⟨_, fits, .unsupported other⟩
      | refused long longHash wrong =>
          obtain rfl := fits.nonce rfl
          obtain ⟨first, hfirst⟩ := hlast (.inr rfl)
          rw [← returnedFor_wrong wrong]
          exact ⟨_, fits, .answered long longHash passes hfirst⟩
  | halted passes halts stands serves fits =>
      exact ⟨_, fits, stands.halted serves halts (by simp) fun block hdrawn => fits.nonce hdrawn⟩

end Endpoint

end ManagedTransport
