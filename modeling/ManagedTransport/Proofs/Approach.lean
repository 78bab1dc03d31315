import ManagedTransport.Proofs.ClientSide

/-!
# Before and after the server is verified

The client's side of authentication falls into two parts.  The approach goes up to the
server's answer; the conclusion verifies the answer and, if it is right, proves the client.
The cookie takes no part in the approach.

* `client_eq` — the two parts make up the whole;
* `step_hold` — a party stands at one of the steps that its dialogue notes;
* `conclude_right`, `conclude_wrong` — only with a right answer does the client go on past
  the verification, and else it leaves everything as it is.
-/

namespace ManagedTransport

open Dialogue

/-- All steps that a dialogue notes are such. -/
def Dialogue.Notes {α : Type} (P : AuthStep → Prop) : Dialogue α → Prop
  | done _ => True
  | fail _ => True
  | octet k => ∀ b, (k b).Notes P
  | octets _ k => ∀ bs, (k bs).Notes P
  | send _ k => k.Notes P
  | flush k => k.Notes P
  | draw k => ∀ block, (k block).Notes P
  | mark s k => P s ∧ k.Notes P
  | ahead k => ∀ n, (k n).Notes P

namespace Endpoint

/-- Taking octets leaves the step. -/
theorem step_takeOnto (n : Nat) (taken : Bytes) (e : Endpoint) :
    (takeOnto n taken e).2.step = e.step := by
  induction n generalizing taken e with
  | zero => rfl
  | succ n ih =>
      have hnext : e.next.2.step = e.step := e.next_frame.2.2.1
      rcases hn : e.next with ⟨(_ | b) | f | _ | _, e2⟩ <;> rw [hn] at hnext <;>
        simp only [takeOnto, hn]
      case done.some => exact (ih (b :: taken) e2).trans hnext
      all_goals exact hnext

end Endpoint

/-- **A party stands at a step that its dialogue notes**, or where it stood. -/
theorem Dialogue.step_hold {α : Type} {P : AuthStep → Prop} {d : Dialogue α} {e : Endpoint}
    (phase : Phase) (h : d.Notes P) (he : P e.step) : P (d.hold phase e).2.step := by
  induction d generalizing e with
  | done a => exact he
  | fail err => exact he
  | octet k ih =>
      have hnext : e.next.2.step = e.step := e.next_frame.2.2.1
      rcases hn : e.next with ⟨(_ | b) | f | _ | _, e2⟩ <;> rw [hn] at hnext <;>
        simp only [hold, hn]
      case done.some => exact ih b (h b) (hnext ▸ he)
      all_goals exact hnext ▸ he
  | octets n k ih =>
      have htake : (e.take n).2.step = e.step := Endpoint.step_takeOnto n [] e
      rcases ht : e.take n with ⟨bs | f | _ | _, e2⟩ <;> rw [ht] at htake <;>
        simp only [hold, ht]
      case done => exact ih bs (h bs) (htake ▸ he)
      all_goals exact htake ▸ he
  | send bs k ih =>
      rcases hw : e.wire.write bs with ⟨f | _, w⟩ <;> simp only [hold, hw]
      · exact he
      · exact ih h he
  | flush k ih =>
      rcases hw : e.wire.flush with ⟨f | _, w⟩ <;> simp only [hold, hw]
      · exact he
      · exact ih h he
  | draw k ih => exact ih _ (h _) he
  | mark s k ih => exact ih h.2 h.1
  | ahead k ih => exact ih _ (h _) he

theorem Dialogue.notes_bind {α β : Type} {P : AuthStep → Prop} {d : Dialogue α}
    {f : α → Dialogue β} (h : d.Notes P) (hf : ∀ a, (f a).Notes P) : (d.bind f).Notes P := by
  induction d with
  | done a => exact hf a
  | fail err => exact trivial
  | octet k ih => exact fun b => ih b (h b)
  | octets n k ih => exact fun bs => ih bs (h bs)
  | send bs k ih => exact ih h
  | flush k ih => exact ih h
  | draw k ih => exact fun block => ih block (h block)
  | mark s k ih => exact ⟨h.1, ih h.2⟩
  | ahead k ih => exact fun n => ih n (h n)

theorem Command.write_notes (P : AuthStep → Prop) (c : Command) : c.write.Notes P := by
  unfold Command.write
  split <;> trivial

theorem Command.read_notes (P : AuthStep → Prop) : Command.read.Notes P := by
  intro header body
  simp only [Dialogue.bind]
  split <;> trivial

/-- Setting a session up notes no steps. -/
theorem SessionInfo.setup_notes (P : AuthStep → Prop) (info : SessionInfo) :
    info.setup.Notes P := by
  refine notes_bind (Command.write_notes P _) fun _ =>
    notes_bind (Command.write_notes P _) fun _ =>
    notes_bind (Command.write_notes P _) fun _ => ?_
  have hpush : push.Notes P := trivial
  refine notes_bind hpush fun _ => notes_bind (Command.read_notes P) fun reply => ?_
  split <;> trivial

/-- A client that is about to authenticate: it holds nothing, and will read ahead. -/
def Endpoint.settingOut (e : Endpoint) : Endpoint :=
  { e with held := [], window := SafeCookie.readAheadSize, step := .awaitAuthTypes }

theorem Endpoint.handshake_eq (cookie : Cookie) (e : Endpoint) :
    e.handshake cookie = (SafeCookie.client cookie).hold .authentication e.settingOut := rfl

namespace SafeCookie

/-- What a client has when it comes to verify the server. -/
structure Answer where
  hash : Bytes
  clientNonce : Bytes
  serverNonce : Bytes

/-- The server's hash of an answer is the one of the cookie. -/
def Answer.Right (cookie : Cookie) (a : Answer) : Prop :=
  a.hash = serverHash cookie.secret a.clientNonce a.serverNonce

/-- Selects the safe cookie, sends the nonce and takes the answer. -/
def challenge : Dialogue Answer := do
  reach .sendSelection
  say [safeCookie]
  reach .sendClientNonce
  let clientNonce ← nonce
  say clientNonce
  push
  reach .awaitServerResponse
  let hash ← read 32
  let serverNonce ← read 32
  reach .verifyServer
  return ⟨hash, clientNonce, serverNonce⟩

/-- Everything up to the server's answer. -/
def approach : Dialogue Answer := do
  let offered ← authTypes
  if offered.contains safeCookie then challenge
  else refuse (.safeCookieNotOffered offered)

/-- Proves the client and waits for the status. -/
def prove (cookie : Cookie) (a : Answer) : Dialogue Unit := do
  reach .sendClientHash
  say (clientHash cookie.secret a.clientNonce a.serverNonce)
  push
  awaitStatus

/-- Everything from the server's answer on. -/
def conclude (cookie : Cookie) (a : Answer) : Dialogue Unit :=
  if sameHash a.hash (serverHash cookie.secret a.clientNonce a.serverNonce) then prove cookie a
  else refuse .serverHashMismatch

theorem exchange_eq (cookie : Cookie) : exchange cookie = challenge.bind (conclude cookie) := rfl

/-- **The approach and the conclusion** make up the client's side. -/
theorem client_eq (cookie : Cookie) : client cookie = approach.bind (conclude cookie) := by
  simp only [client, approach, bind_def, bind_assoc]
  congr 1
  funext offered
  by_cases h : offered.contains safeCookie = true
  · rw [if_pos h, if_pos h, exchange_eq]
  · rw [if_neg h, if_neg h]
    rfl

/-- Waiting for the status, a client notes steps behind the verification only. -/
theorem awaitStatus_notes : awaitStatus.Notes (·.verified = true) := by
  refine ⟨rfl, fun status => ?_⟩
  by_cases hs : status = success
  · subst hs
    intro n
    by_cases hn : n = 0
    · subst hn
      exact ⟨rfl, trivial⟩
    · simp only [Dialogue.bind, if_neg hn]
      trivial
  · simp only [Dialogue.bind, if_neg hs]
    trivial

/-- **With a right answer** a client goes on past the verification. -/
theorem conclude_right {cookie : Cookie} {a : Answer} (h : a.Right cookie) (phase : Phase)
    (e : Endpoint) : ((conclude cookie a).hold phase e).2.step.verified = true := by
  rw [conclude, if_pos (sameHash_iff.mpr h)]
  have hnotes : (send (clientHash cookie.secret a.clientNonce a.serverNonce)
      (flush awaitStatus)).Notes (·.verified = true) := awaitStatus_notes
  -- the step is noted before anything can fail
  exact step_hold (e := { e with step := .sendClientHash }) phase hnotes rfl

/-- **With a wrong answer** a client gives up where it stands. -/
theorem conclude_wrong {cookie : Cookie} {a : Answer} (h : ¬ a.Right cookie) (phase : Phase)
    (e : Endpoint) :
    (conclude cookie a).hold phase e = (.failed (.auth .serverHashMismatch), e) := by
  rw [conclude, if_neg (mt sameHash_iff.mp h)]
  rfl

end SafeCookie

/-! ### A cookie and a session for examples -/

/-- A cookie of one octet over and over. -/
def Cookie.monotone (b : UInt8) : Cookie := ⟨List.replicate 32 b, List.length_replicate⟩

/-- A session for a host that is near. -/
def SessionInfo.nearby : SessionInfo := ⟨.v4 ⟨127, 0, 0, 1⟩ 9001, "plain"⟩

end ManagedTransport
