import ManagedTransport.Proofs.Approach
import ManagedTransport.Proofs.SetupSide
import ManagedTransport.Proofs.Turns

/-!
# The turns of a client

`ClientTurn` lists what a client that authenticates asks of its wire, each turn with the
account with which it begins: what the client has heard and said by then, the nonce it has
drawn, and the step that it has reached.

* `client_turns` — there are no other turns, whatever the client is told;
* `setup_turns` — setting a session up, a client gives up only for what it was told, or
  because a command would be too long.
-/

namespace ManagedTransport

open Dialogue

/-- An error that a party declares of its own: a breach of the protocol, or a refusal. -/
def Error.Declared (err : Error) : Prop :=
  err.kind = .protocolViolation ∨ err.kind = .authRejected

/-- If a party gives up in this turn, the error is one that it declares. -/
def Turn.Candid {α : Type} : Turn α → Prop
  | gaveUp err => err.Declared
  | _ => True

namespace SafeCookie

/-- The turns of a client that authenticates.  `types` are the auth types, `nc` and `ns` the
client's and the server's nonce, and `hash` is the server's hash. -/
inductive ClientTurn (cookie : Cookie) : Turn Unit → Account → Prop
  | listing {types l} (nonzero : 0 ∉ types) :
      ClientTurn cookie .octet ⟨types, [], [], .awaitAuthTypes, l⟩
  | tooLong {types l} :
      ClientTurn cookie (.gaveUp (.protocol (.authTypesTooLong maxAuthTypes)))
        ⟨types, [], [], .awaitAuthTypes, l⟩
  | notOffered {types l} :
      ClientTurn cookie (.gaveUp (.auth (.safeCookieNotOffered types)))
        ⟨types ++ [0], [], [], .awaitAuthTypes, l⟩
  | selection {types l} (offer : Offered types) :
      ClientTurn cookie (.send [safeCookie]) ⟨types ++ [0], [], [], .sendSelection, l⟩
  | nonce {types nc l} (offer : Offered types) (long : nc.length = 32) :
      ClientTurn cookie (.send nc) ⟨types ++ [0], [safeCookie], [nc], .sendClientNonce, l⟩
  | nonceFlush {types nc l} (offer : Offered types) (long : nc.length = 32) :
      ClientTurn cookie .flush ⟨types ++ [0], safeCookie :: nc, [nc], .sendClientNonce, l⟩
  | hash {types nc l} (offer : Offered types) (long : nc.length = 32) :
      ClientTurn cookie (.octets 32)
        ⟨types ++ [0], safeCookie :: nc, [nc], .awaitServerResponse, l⟩
  | serverNonce {types nc hash l} (offer : Offered types) (long : nc.length = 32)
      (longHash : hash.length = 32) :
      ClientTurn cookie (.octets 32)
        ⟨types ++ 0 :: hash, safeCookie :: nc, [nc], .awaitServerResponse, l⟩
  | mismatch {heard nc l} (long : nc.length = 32) :
      ClientTurn cookie (.gaveUp (.auth .serverHashMismatch))
        ⟨heard, safeCookie :: nc, [nc], .verifyServer, l⟩
  | proof {types nc ns l} (offer : Offered types) (long : nc.length = 32)
      (longNonce : ns.length = 32) :
      ClientTurn cookie (.send (clientHash cookie.secret nc ns))
        ⟨types ++ 0 :: (serverHash cookie.secret nc ns ++ ns), safeCookie :: nc, [nc],
          .sendClientHash, l⟩
  | proofFlush {types nc ns l} (offer : Offered types) (long : nc.length = 32)
      (longNonce : ns.length = 32) :
      ClientTurn cookie .flush
        ⟨types ++ 0 :: (serverHash cookie.secret nc ns ++ ns),
          safeCookie :: (nc ++ clientHash cookie.secret nc ns), [nc], .sendClientHash, l⟩
  | status {types nc ns l} (offer : Offered types) (long : nc.length = 32)
      (longNonce : ns.length = 32) :
      ClientTurn cookie .octet
        ⟨types ++ 0 :: (serverHash cookie.secret nc ns ++ ns),
          safeCookie :: (nc ++ clientHash cookie.secret nc ns), [nc], .awaitStatus, l⟩
  | rejected {heard nc ns status l} (long : nc.length = 32) :
      ClientTurn cookie (.gaveUp (.auth (.statusRejected status)))
        ⟨heard, safeCookie :: (nc ++ clientHash cookie.secret nc ns), [nc], .awaitStatus, l⟩
  | trailing {heard nc ns n} (long : nc.length = 32) (more : n ≠ 0) :
      ClientTurn cookie (.gaveUp (.protocol (.trailingData n)))
        ⟨heard, safeCookie :: (nc ++ clientHash cookie.secret nc ns), [nc], .awaitStatus, some n⟩
  | through {heard nc ns} (long : nc.length = 32) :
      ClientTurn cookie (.done ())
        ⟨heard, safeCookie :: (nc ++ clientHash cookie.secret nc ns), [nc], .authenticated,
          some 0⟩

/-- A client that authenticates gives up only by errors that it declares. -/
theorem ClientTurn.candid {cookie : Cookie} {t : Turn Unit} {h : Account}
    (ht : ClientTurn cookie t h) : t.Candid := by
  cases ht with
  | tooLong | trailing => exact .inl rfl
  | notOffered | mismatch | rejected => exact .inr rfl
  | _ => exact trivial

/-- Reading auth types, a party asks for one octet after the other. -/
theorem authTypesFrom_turns {P : Turn Bytes → Account → Prop} {room : Nat} {seen : Bytes}
    {l : Option Nat} (nonzero : 0 ∉ seen) (hroom : seen.length + room = maxAuthTypes)
    (listing : ∀ types l, 0 ∉ types → P .octet ⟨types, [], [], .awaitAuthTypes, l⟩)
    (tooLong : ∀ types l, P (.gaveUp (.protocol (.authTypesTooLong maxAuthTypes)))
      ⟨types, [], [], .awaitAuthTypes, l⟩)
    (listed : ∀ types l, Listed types →
      P (.done types) ⟨types ++ [0], [], [], .awaitAuthTypes, l⟩) :
    Turns P (authTypesFrom room seen) ⟨seen.reverse, [], [], .awaitAuthTypes, l⟩ := by
  induction room generalizing seen l with
  | zero =>
      have full : seen.length = maxAuthTypes := hroom
      simp only [authTypesFrom, breach, Turns, full]
      exact tooLong _ _
  | succ room ih =>
      have hlt : seen.length < maxAuthTypes := by omega
      simp only [authTypesFrom, Turns, Account.hear]
      refine ⟨listing _ _ (by simpa using nonzero), ?_⟩
      intro b
      by_cases hb : b = 0
      · subst hb
        rw [if_pos rfl]
        exact listed _ _ ⟨by simpa using nonzero, by simpa using hlt⟩
      · rw [if_neg hb, ← List.reverse_cons]
        refine ih ?_ (by simp only [List.length_cons]; omega)
        simpa using ⟨Ne.symm hb, nonzero⟩

/-- The turns from the proof of the client on. -/
theorem awaitStatus_turns {cookie : Cookie} {types nc ns : Bytes} {l : Option Nat}
    (offer : Offered types) (long : nc.length = 32) (longNonce : ns.length = 32) :
    Turns (ClientTurn cookie) awaitStatus
      ⟨types ++ 0 :: (serverHash cookie.secret nc ns ++ ns),
        safeCookie :: (nc ++ clientHash cookie.secret nc ns), [nc], .sendClientHash, l⟩ := by
  simp only [awaitStatus, reach, readOctet, readAhead, bind_def, Dialogue.bind, Turns,
    Account.mark, Account.hear]
  refine ⟨.status offer long longNonce, ?_⟩
  intro status
  by_cases hs : status = success
  · subst hs
    simp only [if_true, Turns, Account.look]
    intro n
    by_cases hn : n = 0
    · subst hn
      simp only [if_true, Turns, Account.mark]
      exact .through long
    · rw [if_neg hn]
      exact .trailing long hn
  · rw [if_neg hs]
    exact .rejected long

/-- The turns from a taken-up offer on. -/
theorem exchange_turns {cookie : Cookie} {types : Bytes} {l : Option Nat}
    (offer : Offered types) :
    Turns (ClientTurn cookie) (exchange cookie) ⟨types ++ [0], [], [], .awaitAuthTypes, l⟩ := by
  simp only [exchange, reach, say, push, Dialogue.nonce, Dialogue.read, bind_def, Dialogue.bind,
    Turns, Account.mark, Account.say, Account.draw, Account.hear, List.append_assoc,
    List.cons_append, List.nil_append]
  refine ⟨.selection offer, fun nc long => ⟨.nonce offer long, .nonceFlush offer long,
    .hash offer long, fun hash longHash => ⟨.serverNonce offer long longHash,
    fun ns longNonce => ?_⟩⟩⟩
  by_cases hsame : sameHash hash (serverHash cookie.secret nc ns) = true
  · obtain rfl := sameHash_iff.mp hsame
    simp only [hsame, if_true, Turns, Account.mark, Account.say, List.cons_append]
    exact ⟨.proof offer long longNonce, .proofFlush offer long longNonce,
      awaitStatus_turns offer long longNonce⟩
  · rw [if_neg hsame]
    exact .mismatch long

/-- **A client that authenticates asks what `ClientTurn` says**, whatever it is told. -/
theorem client_turns (cookie : Cookie) :
    Turns (ClientTurn cookie) (client cookie) (.fresh .awaitAuthTypes) := by
  have hroom : ([] : Bytes).length + maxAuthTypes = maxAuthTypes := Nat.zero_add _
  refine turns_bind (authTypesFrom_turns List.not_mem_nil hroom ?_ ?_ ?_)
  · intro types l nonzero
    exact .listing nonzero
  · intro types l
    exact .tooLong
  · intro types l hlisted
    by_cases hmem : safeCookie ∈ types
    · simp only [List.contains_iff_mem, hmem, if_true]
      exact exchange_turns ⟨hlisted, hmem⟩
    · simp only [List.contains_iff_mem, hmem, if_false]
      exact .notOffered

end SafeCookie

namespace Command

/-- Writing a command, a party gives up if it is too long. -/
theorem write_turns {P : Turn Unit → Account → Prop} {c : Command} {h : Account}
    (sends : ∀ bs, P (.send bs) h) (tooLong : ∀ n, P (.gaveUp (.protocol (.commandTooLong n))) h)
    (next : ∀ h, P (.done ()) h) : Turns P c.write h := by
  by_cases short : c.body.length ≤ maxBody
  · rw [write_of_le short]
    exact ⟨sends _, next _⟩
  · rw [write_of_lt (by omega)]
    exact tooLong _

/-- Reading a command, a party gives up if it does not know the number. -/
theorem read_turns {P : Turn Command → Account → Prop} {h : Account}
    (asks : ∀ n h, P (.octets n) h) (unknown : ∀ e h, P (.gaveUp (.protocol e)) h)
    (next : ∀ c h, P (.done c) h) : Turns P read h := by
  simp only [read, Dialogue.read, bind_def, Dialogue.bind, Turns]
  refine ⟨asks _ _, fun header _ => ⟨asks _ _, fun body _ => ?_⟩⟩
  rcases CommandId.ofCode (headerCode header) with e | id
  · exact unknown _ _
  · exact next _ _

end Command

/-- **A client that sets a session up** gives up only by errors that it declares. -/
theorem SessionInfo.setup_turns (info : SessionInfo) (h : Account) :
    Turns (fun t _ => t.Candid) info.setup h := by
  have hlong : ∀ n, (Turn.gaveUp (α := Unit) (.protocol (.commandTooLong n))).Candid :=
    fun _ => .inl rfl
  refine turns_bind (Command.write_turns (fun _ => trivial) hlong fun h => ?_)
  refine turns_bind (Command.write_turns (fun _ => trivial) hlong fun h => ?_)
  refine turns_bind (Command.write_turns (fun _ => trivial) hlong fun h => ?_)
  refine turns_bind (d := push) ⟨trivial, ?_⟩
  have hunknown : ∀ e, (Turn.gaveUp (α := Command) (.protocol e)).Candid := fun _ => .inl rfl
  refine turns_bind (Command.read_turns (fun _ _ => trivial) (fun e _ => hunknown e) fun c h => ?_)
  rcases c with ⟨_ | _ | _ | _ | _, body⟩
  case okay => exact trivial
  case deny => exact .inr rfl
  all_goals exact .inl rfl

namespace Endpoint

/-- The operations of a client that authenticates. -/
def handshakeOperations (cookie : Cookie) (e : Endpoint) : List Operation :=
  (SafeCookie.client cookie).operations e.settingOut

/-- **Authentication at an endpoint** ends of its own or is halted, at one of the client's
turns. -/
theorem handshake_concludes (cookie : Cookie) (e : Endpoint) :
    Concludes .authentication (SafeCookie.ClientTurn cookie) e.wire.pending e.wire.sent e.supply
      (e.handshakeOperations cookie) (e.handshake cookie) :=
  (SafeCookie.client_turns cookie).hold .authentication (Account.Fits.begin e.settingOut)

end Endpoint

end ManagedTransport
