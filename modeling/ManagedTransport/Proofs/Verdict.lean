import ManagedTransport.Proofs.Approach
import ManagedTransport.Proofs.AuthTypes
import ManagedTransport.Proofs.Course
import ManagedTransport.Proofs.ReadAhead

/-!
# The verdict on what a server sends

On a wire on which octets flow and that takes what is written, what a client makes of the
server depends on the octets alone, and at the very end on what one read brings together
with the status.  Every string of octets gets one verdict.

* `Verdict` — what a client reports of each string that can be sent to it;
* `Verdict.exists_report` — each string gets a verdict;
* `Verdict.reports` — the client reports what the verdict says;
* `handshake_verdict` — so there is just one, and it is the client's.
-/

namespace ManagedTransport

open Dialogue

/-- What a client that has authenticated, or failed to, can report: its result, the step
that it reached, what it said, and how many blocks it drew. -/
structure Report where
  result : Ending Error Unit
  step : AuthStep
  said : Bytes
  draws : Nat

/-- A client that set out at `e` and has come to `x` reports so. -/
structure Endpoint.Reports (e : Endpoint) (x : Ending Error Unit × Endpoint) (r : Report) :
    Prop where
  result : x.1 = r.result
  step : x.2.step = r.step
  said : x.2.wire.sent = e.wire.sent ++ r.said
  draws : x.2.supply = ⟨e.supply.octets, e.supply.drawn + r.draws⟩

/-- There is only one thing to report. -/
theorem Endpoint.Reports.unique {e : Endpoint} {x : Ending Error Unit × Endpoint} {r r2 : Report}
    (h : e.Reports x r) (h2 : e.Reports x r2) : r = r2 := by
  obtain ⟨result, step, said, draws⟩ := r
  obtain ⟨result2, step2, said2, draws2⟩ := r2
  obtain rfl : result = result2 := h.result.symm.trans h2.result
  obtain rfl : step = step2 := h.step.symm.trans h2.step
  obtain rfl : said = said2 := List.append_cancel_left (h.said.symm.trans h2.said)
  have hdraws := congrArg Supply.drawn (h.draws.symm.trans h2.draws)
  obtain rfl : draws = draws2 := Nat.add_left_cancel hdraws
  rfl

/-- If there are so many octets, they are parted from those behind them. -/
theorem Bytes.exists_front {n : Nat} {bs : Bytes} (long : n ≤ bs.length) :
    ∃ front back, bs = front ++ back ∧ front.length = n := by
  refine ⟨bs.take n, bs.drop n, (List.take_append_drop n bs).symm, ?_⟩
  rw [List.length_take, Nat.min_eq_left long]

namespace SafeCookie

/-- The fault of a client whose stream has ended where it asks for octets. -/
def ended (f : Fault) : Ending Error Unit := .failed (.network (.io .authentication f))

/-- The verdicts on what is sent to a client.  `types` are the auth types, `nc` and `ns` the
client's and the server's nonce, and `hash` is the server's hash.  Octet number `n` comes
with `behind n` others behind it. -/
inductive Verdict (cookie : Cookie) (nc : Bytes) (behind : Nat → Nat) : Bytes → Report → Prop
  | unended {types} (listed : Listed types) :
      Verdict cookie nc behind types ⟨ended .noOctet, .awaitAuthTypes, [], 0⟩
  /-- There is no room for more auth types, and it is not looked whether more come. -/
  | tooLong {types rest} (nonzero : 0 ∉ types) (full : types.length = maxAuthTypes) :
      Verdict cookie nc behind (types ++ rest)
        ⟨.failed (.protocol (.authTypesTooLong maxAuthTypes)), .awaitAuthTypes, [], 0⟩
  | notOffered {types rest} (listed : Listed types) (missing : safeCookie ∉ types) :
      Verdict cookie nc behind (types ++ 0 :: rest)
        ⟨.failed (.auth (.safeCookieNotOffered types)), .awaitAuthTypes, [], 0⟩
  | unanswered {types rest} (offer : Offered types) (short : rest.length < 64) :
      Verdict cookie nc behind (types ++ 0 :: rest)
        ⟨ended .earlyEnd, .awaitServerResponse, safeCookie :: nc, 1⟩
  | mismatch {types hash ns rest} (offer : Offered types) (longHash : hash.length = 32)
      (longNonce : ns.length = 32) (wrong : hash ≠ serverHash cookie.secret nc ns) :
      Verdict cookie nc behind (types ++ 0 :: (hash ++ (ns ++ rest)))
        ⟨.failed (.auth .serverHashMismatch), .verifyServer, safeCookie :: nc, 1⟩
  | noStatus {types ns} (offer : Offered types) (longNonce : ns.length = 32) :
      Verdict cookie nc behind (types ++ 0 :: (serverHash cookie.secret nc ns ++ ns))
        ⟨ended .noOctet, .awaitStatus,
          safeCookie :: (nc ++ clientHash cookie.secret nc ns), 1⟩
  | rejected {types ns status rest} (offer : Offered types) (longNonce : ns.length = 32)
      (wrong : status ≠ success) :
      Verdict cookie nc behind
        (types ++ 0 :: (serverHash cookie.secret nc ns ++ (ns ++ status :: rest)))
        ⟨.failed (.auth (.statusRejected status.toNat)), .awaitStatus,
          safeCookie :: (nc ++ clientHash cookie.secret nc ns), 1⟩
  | trailing {types ns rest} (offer : Offered types) (longNonce : ns.length = 32)
      (more : behind (types.length + 66) ≠ 0) :
      Verdict cookie nc behind
        (types ++ 0 :: (serverHash cookie.secret nc ns ++ (ns ++ success :: rest)))
        ⟨.failed (.protocol (.trailingData (behind (types.length + 66)))), .awaitStatus,
          safeCookie :: (nc ++ clientHash cookie.secret nc ns), 1⟩
  | accepted {types ns rest} (offer : Offered types) (longNonce : ns.length = 32)
      (alone : behind (types.length + 66) = 0) :
      Verdict cookie nc behind
        (types ++ 0 :: (serverHash cookie.secret nc ns ++ (ns ++ success :: rest)))
        ⟨.done (), .authenticated, safeCookie :: (nc ++ clientHash cookie.secret nc ns), 1⟩

namespace Verdict

variable {cookie : Cookie} {nc : Bytes} {behind : Nat → Nat} {types rest : Bytes}

/-- Where the server is verified each ending gets a verdict. -/
theorem exists_of_verified {ns : Bytes} (offer : Offered types) (longNonce : ns.length = 32)
    (rest : Bytes) :
    ∃ r, Verdict cookie nc behind
        (types ++ 0 :: (serverHash cookie.secret nc ns ++ (ns ++ rest))) r ∧
      safeCookie :: nc <+: r.said := by
  have hsaid : ∀ p, safeCookie :: nc <+: safeCookie :: (nc ++ p) := fun p => ⟨p, rfl⟩
  rcases rest with _ | ⟨status, rest⟩
  · rw [List.append_nil]
    exact ⟨_, .noStatus offer longNonce, hsaid _⟩
  · by_cases hs : status = success
    · subst hs
      by_cases alone : behind (types.length + 66) = 0
      · exact ⟨_, .accepted offer longNonce alone, hsaid _⟩
      · exact ⟨_, .trailing offer longNonce alone, hsaid _⟩
    · exact ⟨_, .rejected offer longNonce hs, hsaid _⟩

/-- Where the safe cookie is offered each answer gets a verdict, and the client has sent its
challenge. -/
theorem exists_of_offered (offer : Offered types) (rest : Bytes) :
    ∃ r, Verdict cookie nc behind (types ++ 0 :: rest) r ∧ safeCookie :: nc <+: r.said := by
  by_cases short : rest.length < 64
  · exact ⟨_, .unanswered offer short, List.prefix_refl _⟩
  · have long : 32 ≤ rest.length := by omega
    obtain ⟨hash, rest, rfl, longHash⟩ := Bytes.exists_front long
    rw [List.length_append, longHash] at short
    have long : 32 ≤ rest.length := by omega
    obtain ⟨ns, rest, rfl, longNonce⟩ := Bytes.exists_front long
    by_cases right : hash = serverHash cookie.secret nc ns
    · subst right
      exact exists_of_verified offer longNonce rest
    · exact ⟨_, .mismatch offer longHash longNonce right, List.prefix_refl _⟩

/-- **Each string gets a verdict.** -/
theorem exists_report (cookie : Cookie) (nc : Bytes) (behind : Nat → Nat) (came : Bytes) :
    ∃ r, Verdict cookie nc behind came r := by
  have hlong : ∀ {types rest : Bytes}, 0 ∉ types → maxAuthTypes ≤ types.length →
      ∃ r, Verdict cookie nc behind (types ++ rest) r := by
    intro types rest nonzero long
    obtain ⟨front, back, rfl, full⟩ := Bytes.exists_front long
    rw [List.append_assoc]
    exact ⟨_, .tooLong (fun h => nonzero (List.mem_append_left back h)) full⟩
  by_cases hzero : 0 ∈ came
  · obtain ⟨types, rest, rfl, nonzero⟩ := List.eq_append_cons_of_mem hzero
    by_cases room : types.length < maxAuthTypes
    · by_cases offered : safeCookie ∈ types
      · obtain ⟨r, verdict, -⟩ := exists_of_offered ⟨⟨nonzero, room⟩, offered⟩ rest
        exact ⟨r, verdict⟩
      · exact ⟨_, .notOffered ⟨nonzero, room⟩ offered⟩
    · exact hlong nonzero (Nat.le_of_not_lt room)
  · by_cases room : came.length < maxAuthTypes
    · exact ⟨_, .unended ⟨hzero, room⟩⟩
    · rw [← List.append_nil came]
      exact hlong hzero (Nat.le_of_not_lt room)

end Verdict

end SafeCookie

namespace Endpoint

variable {e mid last : Endpoint} {heard said bs types rest : Bytes} {draws : Nat} {s : AuthStep}

/-- Who has come so far and then reports something has said and drawn that on top. -/
theorem Came.reports {x : Ending Error Unit × Endpoint} {r : Report}
    (h : Came heard said draws s e mid) (hr : mid.Reports x r) :
    e.Reports x ⟨r.result, r.step, said ++ r.said, draws + r.draws⟩ := by
  refine ⟨hr.result, hr.step, ?_, ?_⟩
  · rw [hr.said, h.sent, List.append_assoc]
  · rw [hr.draws, h.supply, Nat.add_assoc]

/-- Who stops here reports no more than that. -/
theorem reports_here (r : Ending Error Unit) (e : Endpoint) :
    e.Reports (r, e) ⟨r, e.step, [], 0⟩ :=
  ⟨rfl, rfl, (List.append_nil _).symm, rfl⟩

/-- Who is given octets and stops then reports no more than that. -/
theorem Given.reports (h : Given bs e last) (r : Ending Error Unit) :
    e.Reports (r, last) ⟨r, e.step, [], 0⟩ := by
  obtain ⟨arrivals, clock, held, rfl⟩ := h.same
  exact ⟨rfl, rfl, (List.append_nil _).symm, rfl⟩

end Endpoint

namespace SafeCookie

open Endpoint

variable {cookie : Cookie} {e : Endpoint} {types hash ns rest : Bytes} {status : UInt8}

/-- A list that ends in time is taken up. -/
theorem authTypes_listed (h : e.Smooth) (listed : Listed types)
    (hpending : e.pending = types ++ 0 :: rest) :
    ∃ e2, authTypes.hold .authentication e = (.done types, e2) ∧
      Came (types ++ [0]) [] 0 e.step e e2 := by
  obtain ⟨mid, htake, hcame⟩ := take_came h hpending
  obtain ⟨e2, hnext, hcame2⟩ := next_came hcame.smooth (hcame.left hpending)
  refine ⟨e2, ?_, hcame.step ▸ hcame.trans hcame2⟩
  exact authTypes_of_take listed.nonzero listed.room htake hnext

/-- A list that the stream ends in is waited for. -/
theorem authTypes_unended (h : e.Smooth) (listed : Listed types) (hpending : e.pending = types) :
    ∃ mid e2, authTypes.hold .authentication e =
        (.failed (.network (.io .authentication .noOctet)), e2) ∧
      Came types [] 0 e.step e mid ∧ Given [] mid e2 := by
  obtain ⟨room, hroom⟩ := Nat.exists_eq_add_of_lt listed.room
  have hall : e.pending = types ++ [] := hpending.trans (List.append_nil _).symm
  obtain ⟨mid, htake, hcame⟩ := take_came h hall
  have hpending2 : mid.pending = [] := hcame.left hall
  obtain ⟨e2, hnext, hgiven⟩ := next_flowing_nil hcame.smooth.toFlowing hpending2
  refine ⟨mid, e2, ?_, hcame, hgiven⟩
  rw [authTypes, hroom, Nat.add_assoc, authTypesFrom_take listed.nonzero htake, authTypesFrom]
  simp only [hold, hnext]

/-- A list that there is no room for is given up. -/
theorem authTypes_tooLong (h : e.Smooth) (nonzero : 0 ∉ types)
    (full : types.length = maxAuthTypes) (hpending : e.pending = types ++ rest) :
    ∃ e2, authTypes.hold .authentication e =
        (.failed (.protocol (.authTypesTooLong maxAuthTypes)), e2) ∧
      Came types [] 0 e.step e e2 := by
  obtain ⟨e2, htake, hcame⟩ := take_came h hpending
  exact ⟨e2, authTypes_of_full nonzero full htake, hcame⟩

/-- Takes the server's answer to a nonce. -/
def answer (nc : Bytes) : Dialogue Answer := do
  let hash ← read 32
  let serverNonce ← read 32
  reach .verifyServer
  return ⟨hash, nc, serverNonce⟩

/-- The challenge is sent. -/
theorem challenge_sent (h : e.Smooth) :
    ∃ e2, challenge.hold .authentication e =
        (answer e.supply.draw.1).hold .authentication e2 ∧
      Came [] (safeCookie :: e.supply.draw.1) 1 .awaitServerResponse e e2 := by
  obtain ⟨e1, hreach, hcame⟩ := (Came.refl h).mark .authentication .sendSelection
  obtain ⟨e2, hselect, hcame⟩ := hcame.send .authentication [safeCookie]
  obtain ⟨e3, hreach2, hcame⟩ := hcame.mark .authentication .sendClientNonce
  obtain ⟨e4, hdraw, hcame⟩ := hcame.draw .authentication
  obtain ⟨e5, hsay, hcame⟩ := hcame.send .authentication e.supply.draw.1
  have hflush := fun k : Dialogue Answer =>
    hold_flush_taking hcame.smooth.taking .authentication k
  obtain ⟨e6, hreach3, hcame⟩ := hcame.mark .authentication .awaitServerResponse
  refine ⟨e6, ?_, hcame⟩
  simp only [challenge, reach, say, nonce, push, bind_def, Dialogue.bind, hreach, hselect,
    hreach2, hdraw]
  exact (hsay _).trans ((hflush _).trans (hreach3 _))

/-- An answer that is there is taken. -/
theorem answer_taken (nc : Bytes) (h : e.Smooth) (longHash : hash.length = 32)
    (longNonce : ns.length = 32) (hpending : e.pending = hash ++ (ns ++ rest)) :
    ∃ e2, (answer nc).hold .authentication e = (.done ⟨hash, nc, ns⟩, e2) ∧
      Came (hash ++ ns) [] 0 .verifyServer e e2 := by
  obtain ⟨mid, hhash, hcame⟩ := take_came h hpending
  have hpending2 : mid.pending = ns ++ rest := hcame.left hpending
  obtain ⟨e2, hnonce, hcame2⟩ := take_came hcame.smooth hpending2
  rw [longHash] at hhash
  rw [longNonce] at hnonce
  obtain ⟨e3, hreach, hcame3⟩ := (hcame.trans hcame2).mark .authentication .verifyServer
  refine ⟨e3, ?_, hcame3⟩
  simp only [answer, Dialogue.read, bind_def, Dialogue.bind, hold, hhash, hnonce]
  exact hreach (done (Answer.mk hash nc ns))

/-- An answer that the stream ends in is waited for. -/
theorem answer_short (nc : Bytes) (h : e.Smooth) (short : e.pending.length < 64) :
    ∃ last, (answer nc).hold .authentication e =
        (.failed (.network (.io .authentication .earlyEnd)), last) ∧
      ∀ r, e.Reports (r, last) ⟨r, e.step, [], 0⟩ := by
  by_cases hhash : e.pending.length < 32
  · obtain ⟨last, htake, hgiven⟩ := take_flowing_short h.toFlowing hhash
    refine ⟨last, ?_, hgiven.reports⟩
    simp only [answer, Dialogue.read, bind_def, Dialogue.bind, hold, htake]
  · obtain ⟨hash, rest, hpending, longHash⟩ := Bytes.exists_front (Nat.le_of_not_lt hhash)
    obtain ⟨mid, htake, hcame⟩ := take_came h hpending
    have hpending2 : mid.pending = rest := hcame.left hpending
    have hnonce : mid.pending.length < 32 := by
      rw [hpending, List.length_append, longHash] at short
      rw [hpending2]
      omega
    obtain ⟨last, htake2, hgiven⟩ := take_flowing_short hcame.smooth.toFlowing hnonce
    rw [longHash] at htake
    refine ⟨last, ?_, fun r => ?_⟩
    · simp only [answer, Dialogue.read, bind_def, Dialogue.bind, hold, htake, htake2]
    · exact hcame.step ▸ hcame.reports (hgiven.reports r)

/-- The client's hash is sent. -/
theorem prove_sent (a : Answer) (h : e.Smooth) :
    ∃ e2, (prove cookie a).hold .authentication e = awaitStatus.hold .authentication e2 ∧
      Came [] (clientHash cookie.secret a.clientNonce a.serverNonce) 0 .sendClientHash e e2 := by
  obtain ⟨e1, hreach, hcame⟩ := (Came.refl h).mark .authentication .sendClientHash
  obtain ⟨e2, hsay, hcame⟩ := hcame.send .authentication
    (clientHash cookie.secret a.clientNonce a.serverNonce)
  refine ⟨e2, ?_, hcame⟩
  simp only [prove, reach, say, push, bind_def, Dialogue.bind, hreach, hsay]
  exact hold_flush_taking hcame.smooth.taking .authentication awaitStatus

/-- A status that the stream ends before is waited for. -/
theorem awaitStatus_ended (h : e.Smooth) (hpending : e.pending = []) :
    e.Reports (awaitStatus.hold .authentication e) ⟨ended .noOctet, .awaitStatus, [], 0⟩ := by
  obtain ⟨mid, hreach, hcame⟩ := (Came.refl h).mark .authentication .awaitStatus
  have hpending2 : mid.pending = [] := hcame.left hpending
  obtain ⟨last, hnext, hgiven⟩ := next_flowing_nil hcame.smooth.toFlowing hpending2
  have hhold : awaitStatus.hold .authentication e =
      (.failed (.network (.io .authentication .noOctet)), last) := by
    simp only [awaitStatus, reach, readOctet, bind_def, Dialogue.bind, hreach, hold, hnext]
  rw [hhold]
  exact hcame.step ▸ hcame.reports (hgiven.reports _)

/-- What comes of a status with so many octets held behind it, and the step that is reached
with it. -/
def ofStatus (status : UInt8) (left : Nat) : Ending Error Unit × AuthStep :=
  if status = success then
    if left = 0 then (.done (), .authenticated)
    else (.failed (.protocol (.trailingData left)), .awaitStatus)
  else (.failed (.auth (.statusRejected status.toNat)), .awaitStatus)

/-- A status that comes is gone by, and so is what is held behind it. -/
theorem awaitStatus_came (h : e.Smooth) (hpending : e.pending = status :: rest) :
    e.Reports (awaitStatus.hold .authentication e)
      ⟨(ofStatus status (e.behind 1)).1, (ofStatus status (e.behind 1)).2, [], 0⟩ := by
  obtain ⟨mid, hreach, hstart⟩ := (Came.refl h).mark .authentication .awaitStatus
  have hpending2 : mid.pending = status :: rest := hstart.left hpending
  obtain ⟨e2, hnext, hread⟩ := next_came hstart.smooth hpending2
  have hcame := hstart.trans hread
  have hheld : e2.held.length = e.behind 1 := hcame.behind 0
  have hstop : ∀ r, e.Reports (r, e2) ⟨r, .awaitStatus, [], 0⟩ := by
    intro r
    have hstep : e2.step = .awaitStatus := hread.step.trans hstart.step
    exact hstep ▸ hcame.reports (reports_here r e2)
  simp only [awaitStatus, reach, readOctet, readAhead, bind_def, Dialogue.bind, hreach, hold, hnext]
  by_cases hs : status = success
  · rw [ofStatus, if_pos hs, if_pos hs, hold, hheld]
    by_cases alone : e.behind 1 = 0
    · rw [if_pos alone, if_pos alone]
      obtain ⟨e3, hreach2, hdone⟩ := hcame.mark .authentication .authenticated
      rw [hreach2]
      exact hdone.step ▸ hdone.reports (reports_here _ e3)
    · rw [if_neg alone, if_neg alone]
      exact hstop _
  · rw [ofStatus, if_neg hs, if_neg hs]
    exact hstop _

/-- A client whose list of auth types is taken up goes on as it offers. -/
theorem client_listed (h : e.Smooth) (listed : Listed types)
    (hpending : e.pending = types ++ 0 :: rest) :
    ∃ e2, (client cookie).hold .authentication e =
        (if types.contains safeCookie then exchange cookie
          else refuse (.safeCookieNotOffered types)).hold .authentication e2 ∧
      Came (types ++ [0]) [] 0 e.step e e2 := by
  obtain ⟨e2, htypes, hcame⟩ := authTypes_listed h listed hpending
  refine ⟨e2, ?_, hcame⟩
  rw [client, bind_def, hold_bind, htypes]

/-- A client that the safe cookie is offered to has sent its challenge. -/
theorem client_offered (h : e.Smooth) (offer : Offered types)
    (hpending : e.pending = types ++ 0 :: rest) :
    ∃ e2, (client cookie).hold .authentication e =
        ((answer e.supply.draw.1).bind (conclude cookie)).hold .authentication e2 ∧
      Came (types ++ [0]) (safeCookie :: e.supply.draw.1) 1 .awaitServerResponse e e2 := by
  obtain ⟨mid, hlisted, hcame⟩ := client_listed h offer.toListed hpending
  obtain ⟨e2, hsent, hcame2⟩ := challenge_sent hcame.smooth
  have hsupply : mid.supply = e.supply := hcame.supply
  rw [hsupply] at hsent hcame2
  have htrans := hcame.trans hcame2
  rw [List.append_nil] at htrans
  refine ⟨e2, ?_, htrans⟩
  rw [hlisted, if_pos (List.contains_iff_mem.mpr offer.offered), exchange_eq, hold_bind, hsent,
    ← hold_bind]

/-- A client that is given an answer has come to verify it. -/
theorem client_answered (h : e.Smooth) (offer : Offered types) (longHash : hash.length = 32)
    (longNonce : ns.length = 32) (hpending : e.pending = types ++ 0 :: (hash ++ (ns ++ rest))) :
    ∃ e2, (client cookie).hold .authentication e =
        (conclude cookie ⟨hash, e.supply.draw.1, ns⟩).hold .authentication e2 ∧
      e2.pending = rest ∧
      Came (types ++ 0 :: (hash ++ ns)) (safeCookie :: e.supply.draw.1) 1 .verifyServer e e2 := by
  obtain ⟨mid, hoffered, hcame⟩ := client_offered h offer hpending
  have hpending2 : mid.pending = hash ++ (ns ++ rest) := by
    refine hcame.left (hpending.trans ?_)
    rw [List.append_assoc, List.singleton_append]
  obtain ⟨e2, hanswer, hcame2⟩ := answer_taken e.supply.draw.1 hcame.smooth longHash longNonce
    hpending2
  refine ⟨e2, ?_, ?_, ?_⟩
  · rw [hoffered, hold_bind, hanswer]
  · exact hcame2.left (hpending2.trans (List.append_assoc _ _ _).symm)
  · have htrans := hcame.trans hcame2
    simpa only [List.append_assoc, List.singleton_append, List.append_nil] using htrans

/-- A client that is given the right answer has proved itself. -/
theorem client_proved (h : e.Smooth) (offer : Offered types) (longNonce : ns.length = 32)
    (hpending : e.pending =
      types ++ 0 :: (serverHash cookie.secret e.supply.draw.1 ns ++ (ns ++ rest))) :
    ∃ e2, (client cookie).hold .authentication e = awaitStatus.hold .authentication e2 ∧
      e2.pending = rest ∧
      Came (types ++ 0 :: (serverHash cookie.secret e.supply.draw.1 ns ++ ns))
        (safeCookie :: (e.supply.draw.1 ++ clientHash cookie.secret e.supply.draw.1 ns)) 1
        .sendClientHash e e2 := by
  obtain ⟨mid, hanswered, hleft, hcame⟩ :=
    client_answered h offer (length_serverHash _ _ _) longNonce hpending
  obtain ⟨e2, hprove, hcame2⟩ := prove_sent 
    ⟨serverHash cookie.secret e.supply.draw.1 ns, e.supply.draw.1, ns⟩ hcame.smooth
  refine ⟨e2, ?_, ?_, ?_⟩
  · rw [hanswered, conclude, if_pos (sameHash_iff.mpr rfl), hprove]
  · exact hcame2.left hleft
  · have htrans := hcame.trans hcame2
    simpa only [List.append_nil, List.cons_append, Nat.add_zero] using htrans

/-- A client that has proved itself goes by the status, and by what stands behind it. -/
theorem client_status (h : e.Smooth) (offer : Offered types) (longNonce : ns.length = 32)
    (hpending : e.pending =
      types ++ 0 :: (serverHash cookie.secret e.supply.draw.1 ns ++ (ns ++ status :: rest))) :
    e.Reports ((client cookie).hold .authentication e)
      ⟨(ofStatus status (e.behind (types.length + 66))).1,
        (ofStatus status (e.behind (types.length + 66))).2,
        safeCookie :: (e.supply.draw.1 ++ clientHash cookie.secret e.supply.draw.1 ns), 1⟩ := by
  obtain ⟨mid, hproved, hleft, hcame⟩ := client_proved h offer longNonce hpending
  have hbehind : mid.behind 1 = e.behind (types.length + 66) := by
    rw [hcame.behind 1]
    congr 1
    simp only [List.length_append, List.length_cons, length_serverHash, longNonce]
    omega
  have hreports := hcame.reports (awaitStatus_came hcame.smooth hleft)
  rw [hbehind, List.append_nil] at hreports
  rwa [hproved]

/-- The verdict on a string is what comes of a client that is sent it. -/
theorem Verdict.reports {came : Bytes} {r : Report} (h : e.Smooth) (hpending : e.pending = came)
    (hstep : e.step = .awaitAuthTypes)
    (verdict : Verdict cookie e.supply.draw.1 e.behind came r) :
    e.Reports ((client cookie).hold .authentication e) r := by
  cases verdict with
  | unended listed =>
      obtain ⟨mid, e2, htypes, hcame, hgiven⟩ := authTypes_unended h listed hpending
      rw [client, bind_def, hold_bind, htypes, ← hstep, ← hcame.step]
      exact hcame.reports (hgiven.reports _)
  | tooLong nonzero full =>
      obtain ⟨e2, htypes, hcame⟩ := authTypes_tooLong h nonzero full hpending
      rw [client, bind_def, hold_bind, htypes, ← hstep, ← hcame.step]
      exact hcame.reports (reports_here _ e2)
  | @notOffered types rest listed missing =>
      obtain ⟨e2, hlisted, hcame⟩ := client_listed h listed hpending
      rw [hlisted, if_neg (mt List.contains_iff_mem.mp missing), ← hstep, ← hcame.step]
      exact hcame.reports (reports_here _ e2)
  | @unanswered types rest offer short =>
      obtain ⟨mid, hoffered, hcame⟩ := client_offered h offer hpending
      have hshort : mid.pending.length < 64 := by
        have hlen := congrArg List.length (hcame.octets.symm.trans hpending)
        simp only [List.length_append, List.length_cons, List.length_nil] at hlen
        omega
      obtain ⟨last, hanswer, hstop⟩ := answer_short e.supply.draw.1 hcame.smooth hshort
      rw [hoffered, hold_bind, hanswer, ← hcame.step]
      have hreports := hcame.reports (hstop (ended .earlyEnd))
      rwa [List.append_nil] at hreports
  | @mismatch types hash ns rest offer longHash longNonce wrong =>
      have hwrong : ¬ Answer.Right cookie ⟨hash, e.supply.draw.1, ns⟩ := wrong
      obtain ⟨e2, hanswered, -, hcame⟩ := client_answered h offer longHash longNonce hpending
      rw [hanswered, conclude_wrong hwrong, ← hcame.step]
      have hreports := hcame.reports (reports_here (.failed (.auth .serverHashMismatch)) e2)
      rwa [List.append_nil] at hreports
  | @noStatus types ns offer longNonce =>
      have hall : e.pending =
          types ++ 0 :: (serverHash cookie.secret e.supply.draw.1 ns ++ (ns ++ [])) := by
        rw [hpending, List.append_nil]
      obtain ⟨mid, hproved, hleft, hcame⟩ := client_proved h offer longNonce hall
      have hreports := hcame.reports (awaitStatus_ended hcame.smooth hleft)
      rw [List.append_nil] at hreports
      rwa [hproved]
  | rejected offer longNonce wrong =>
      have hreports := client_status h offer longNonce hpending
      rwa [ofStatus, if_neg wrong] at hreports
  | trailing offer longNonce more =>
      have hreports := client_status h offer longNonce hpending
      rwa [ofStatus, if_pos rfl, if_neg more] at hreports
  | accepted offer longNonce alone =>
      have hreports := client_status h offer longNonce hpending
      rwa [ofStatus, if_pos rfl, if_pos alone] at hreports

end SafeCookie

namespace Endpoint

open SafeCookie

/-- What the verdict says of the octets that are sent to a client is what it reports, on a
wire on which octets flow and that takes what is written. -/
theorem handshake_reports {cookie : Cookie} {e : Endpoint} {r : Report}
    (flowing : Wire.Flowing e.wire.arrivals) (taking : e.wire.Taking) (patient : e.deadline = none)
    (verdict : Verdict cookie e.supply.draw.1 (fun n => Wire.behind n e.wire.arrivals)
      e.wire.pending r) :
    e.Reports (e.handshake cookie) r := by
  have hwindow : 0 < readAheadSize := by decide
  have hsmooth : e.settingOut.Smooth := ⟨⟨flowing, patient, hwindow⟩, taking, rfl⟩
  have hbehind : e.settingOut.behind = fun n => Wire.behind n e.wire.arrivals := by
    funext n
    exact behind_of_held_nil rfl n
  rw [← hbehind] at verdict
  have hreports := Verdict.reports (e := e.settingOut) hsmooth rfl rfl verdict
  exact ⟨hreports.result, hreports.step, hreports.said, hreports.draws⟩

/-- **Every string of octets gets one verdict**, and it is what a client reports to which
just this string is sent, in whatever pieces and after whatever pauses, on a wire that
takes what is written. -/
theorem handshake_verdict (cookie : Cookie) {e : Endpoint} (flowing : Wire.Flowing e.wire.arrivals)
    (taking : e.wire.Taking) (patient : e.deadline = none) :
    ∃ r, e.Reports (e.handshake cookie) r ∧ ∀ r2,
      Verdict cookie e.supply.draw.1 (fun n => Wire.behind n e.wire.arrivals) e.wire.pending r2 ↔
        r2 = r := by
  obtain ⟨r, verdict⟩ := Verdict.exists_report cookie e.supply.draw.1
    (fun n => Wire.behind n e.wire.arrivals) e.wire.pending
  have hreports := handshake_reports flowing taking patient verdict
  refine ⟨r, hreports, fun r2 => ⟨fun verdict2 => ?_, ?_⟩⟩
  · exact (handshake_reports flowing taking patient verdict2).unique hreports
  · rintro rfl
    exact verdict

/-- A client that a server with the cookie of zeros lets in, with octets behind the status in
one piece with it and in the next one.  All nonces are zero. -/
def welcomed (bs later : Bytes) : Endpoint :=
  .ofWire (.ofArrivals [.data [2], .pause 4, .data [safeCookie, 0],
    .data (serverHash (Cookie.monotone 0).secret (Bytes.zeros 32) (Bytes.zeros 32)),
    .data (Bytes.zeros 32 ++ success :: bs), .data later]) (.fresh [])

/-- Octets behind the status keep a client out only if one read brings both. -/
theorem welcomed_verdicts :
    ((welcomed [] [7, 8]).handshake (.monotone 0)).1 = .done () ∧
      ((welcomed [7, 8] []).handshake (.monotone 0)).1 =
        .failed (.protocol (.trailingData 2)) := by
  have hflowing : ∀ bs later, Wire.Flowing (welcomed bs later).wire.arrivals := by
    simp [welcomed, Endpoint.ofWire, Wire.ofArrivals, Wire.Flowing]
  have htaking : ∀ bs later, (welcomed bs later).wire.Taking := fun _ _ => ⟨nofun, rfl, rfl⟩
  have hpending : ∀ bs later, (welcomed bs later).wire.pending = [2, safeCookie] ++ 0 ::
      (serverHash (Cookie.monotone 0).secret (Bytes.zeros 32) (Bytes.zeros 32) ++
        (Bytes.zeros 32 ++ success :: (bs ++ later))) := by
    simp [welcomed, Endpoint.ofWire, Wire.ofArrivals, Wire.pending, Arrival.octets]
  have offer : Offered [2, safeCookie] := ⟨⟨by decide, by decide⟩, by decide⟩
  constructor
  · obtain ⟨r, hreports, honly⟩ := handshake_verdict (.monotone 0) (hflowing [] [7, 8])
      (htaking [] [7, 8]) rfl
    rw [hpending] at honly
    rw [hreports.result, ← (honly _).mp (.accepted offer rfl (by decide +kernel))]
  · obtain ⟨r, hreports, honly⟩ := handshake_verdict (.monotone 0) (hflowing [7, 8] [])
      (htaking [7, 8] []) rfl
    rw [hpending] at honly
    rw [hreports.result, ← (honly _).mp (.trailing offer rfl (by decide +kernel))]
    decide +kernel

end Endpoint

end ManagedTransport
