import ManagedTransport.Proofs.Link

/-!
# Sides that cannot go on

A side that cannot go on waits, or has given up, or is done.  What it was told says
which; and as either side was told what the other said, the two agree on it.

* `ClientStands`, `RelayStands` — where a side stands that cannot go on, by what it was
  told and what it said;
* `Agreed` — how the two stand together;
* `agreed_of_stands` — they never stand in any other way.
-/

namespace ManagedTransport

open SafeCookie

/-! ## Where either side stands -/

/-- A relay that cannot go on has made its offer. -/
theorem RelayOn.offers {cookie : Cookie} {accept isOpen : Bool} {phase : Phase}
    {m : Moment (Next RelayCall Announced)} {h : Account} {p : Party RelayCall Announced}
    (hat : RelayOn cookie accept phase m h) (hends : p.Ends isOpen m) :
    ∃ rest, h.said = safeCookie :: 0 :: rest := by
  cases hat with
  | authenticating now =>
      cases now with
      | offering => cases hends
      | awaitingSelection | unsupported | awaitingNonce | challenged | proving | awaitingHash |
          accepting | through | refusing | refused => exact ⟨_, rfl⟩
  | serving through now =>
      cases through with
      | through => exact ⟨_, rfl⟩

/-- Where a client stands that cannot go on, with octets pending, once it was
told the offer of the safe cookie and then `told`, and has said `said`. -/
inductive ClientStands (cookie : Cookie) (info : SessionInfo) (nc pending told said : Bytes) :
    Moment (Next ClientStage Unit) → Prop
  | unanswered (nothing : pending = []) (short : told.length < 64)
      (speaks : said = safeCookie :: nc) : ClientStands cookie info nc pending told said .waits
  | mismatch {hash ns rest} (longHash : hash.length = 32) (longNonce : ns.length = 32)
      (wrong : hash ≠ serverHash cookie.secret nc ns) (hears : told = hash ++ (ns ++ rest))
      (speaks : said = safeCookie :: nc) :
      ClientStands cookie info nc pending told said (.gaveUp (.auth .serverHashMismatch))
  | unheard {ns} (nothing : pending = []) (longNonce : ns.length = 32)
      (hears : told = serverHash cookie.secret nc ns ++ (ns ++ []))
      (speaks : said = safeCookie :: (nc ++ clientHash cookie.secret nc ns)) :
      ClientStands cookie info nc pending told said .waits
  | rejected {ns status rest} (longNonce : ns.length = 32) (wrong : status ≠ success)
      (hears : told = serverHash cookie.secret nc ns ++ (ns ++ status :: rest))
      (speaks : said = safeCookie :: (nc ++ clientHash cookie.secret nc ns)) :
      ClientStands cookie info nc pending told said
        (.gaveUp (.auth (.statusRejected status.toNat)))
  | trailing {ns n} (longNonce : ns.length = 32) (more : pending ≠ [])
      (hears : told = serverHash cookie.secret nc ns ++ (ns ++ success :: pending))
      (speaks : said = safeCookie :: (nc ++ clientHash cookie.secret nc ns)) :
      ClientStands cookie info nc pending told said (.gaveUp (.protocol (.trailingData n)))
  | settingUp {ns m h} (longNonce : ns.length = 32) (now : info.SetupAt m h)
      (hears : told =
        serverHash cookie.secret nc ns ++ (ns ++ success :: (h.heard ++ pending)))
      (speaks : said = safeCookie :: (nc ++ (clientHash cookie.secret nc ns ++ h.said))) :
      ClientStands cookie info nc pending told said (m.map .ended)

/-- **A client that is offered the safe cookie** and cannot go on stands where
`ClientStands` says. -/
theorem ClientOn.stands {cookie : Cookie} {info : SessionInfo} {isOpen : Bool} {phase : Phase}
    {m : Moment (Next ClientStage Unit)} {h : Account} {p : Party ClientStage Unit}
    {came told : Bytes} {source : Supply} (hat : ClientOn cookie info phase m h)
    (hends : p.Ends isOpen m) (hfits : Account.Fits came [] source h p.endpoint)
    (hcame : came = safeCookie :: 0 :: told) :
    ClientStands cookie info source.draw.1 p.endpoint.pending told h.said m := by
  have hheard := hfits.heard
  rw [hcame] at hheard
  have hsplit : ∀ {types rest : Bytes}, 0 ∉ types →
      types ++ 0 :: rest = safeCookie :: 0 :: told → types = [safeCookie] ∧ rest = told := by
    intro types rest nonzero hsame
    have hsame2 : types ++ 0 :: rest = [safeCookie] ++ 0 :: told := hsame
    exact Bytes.split_at_zero nonzero (by decide) hsame2
  have hshort : ∀ {types rest : Bytes}, 0 ∉ types →
      types ++ rest = safeCookie :: 0 :: told → types.length < 2 := by
    intro types rest nonzero hsame
    rcases types with _ | ⟨a, _ | ⟨b, types⟩⟩
    · exact Nat.zero_lt_two
    · exact Nat.one_lt_two
    · obtain ⟨-, rfl, -⟩ : a = safeCookie ∧ b = 0 ∧ types ++ rest = told := by simpa using hsame
      simp at nonzero
  cases hat with
  | authenticating now =>
      cases now with
      | listed | selecting | selected | challenging | challenged | answered | verified | proving |
          proved | accepted | through => cases hends
      | @listing types l nonzero room =>
          have hlt := hshort nonzero hheard
          rw [hends.nothing] at hheard
          have hlen := congrArg List.length hheard
          simp only [List.length_append, List.length_cons, List.length_nil] at hlen
          omega
      | @tooLong types l nonzero full =>
          have hlt := hshort nonzero hheard
          rw [full] at hlt
          exact absurd hlt (by decide)
      | @notOffered types l listed missing =>
          rw [List.append_assoc] at hheard
          obtain ⟨rfl, -⟩ := hsplit listed.nonzero hheard
          exact absurd List.mem_cons_self missing
      | @awaiting types nc bs l offer long short =>
          obtain rfl := hfits.nonce rfl
          rw [hends.nothing, List.append_nil] at hheard
          obtain ⟨-, rfl⟩ := hsplit offer.nonzero hheard
          exact .unanswered hends.nothing short rfl
      | @mismatch types nc hash ns l offer long longHash longNonce wrong =>
          obtain rfl := hfits.nonce rfl
          rw [List.append_assoc, List.cons_append, List.append_assoc] at hheard
          obtain ⟨-, rfl⟩ := hsplit offer.nonzero hheard
          exact .mismatch longHash longNonce wrong rfl rfl
      | @awaitingStatus types nc ns l offer long longNonce =>
          obtain rfl := hfits.nonce rfl
          rw [hends.nothing, List.append_nil] at hheard
          obtain ⟨-, rfl⟩ := hsplit offer.nonzero hheard
          exact .unheard hends.nothing longNonce (by rw [List.append_nil]) rfl
      | @rejected types nc ns status l offer long longNonce wrong =>
          obtain rfl := hfits.nonce rfl
          simp only [List.append_assoc, List.cons_append, List.nil_append] at hheard
          obtain ⟨-, rfl⟩ := hsplit offer.nonzero hheard
          exact .rejected longNonce wrong rfl rfl
      | @trailing types nc ns n offer long longNonce more =>
          obtain rfl := hfits.nonce rfl
          simp only [List.append_assoc, List.cons_append, List.nil_append] at hheard
          obtain ⟨-, rfl⟩ := hsplit offer.nonzero hheard
          refine .trailing longNonce (fun hnil => more ?_) rfl rfl
          rw [← hfits.left n rfl, (List.append_eq_nil_iff.mp hnil).1]
          rfl
  | @settingUp m first rest through now =>
      cases through with
      | @through types nc ns offer long longNonce =>
          have hdrawn : rest.drawn = [] := now.said_prefix.2
          have hone : [nc] ++ rest.drawn = [nc] := by rw [hdrawn, List.append_nil]
          obtain rfl := hfits.nonce hone
          simp only [Account.andThen, List.append_assoc, List.cons_append, List.nil_append]
            at hheard
          obtain ⟨-, rfl⟩ := hsplit offer.nonzero hheard
          refine .settingUp longNonce now rfl ?_
          simp only [Account.andThen, List.cons_append, List.append_assoc]

/-- A client that cannot go on has sent its selection and its nonce. -/
theorem ClientStands.speaks {cookie : Cookie} {info : SessionInfo} {nc pending told said : Bytes}
    {m : Moment (Next ClientStage Unit)} (h : ClientStands cookie info nc pending told said m) :
    ∃ rest, said = safeCookie :: (nc ++ rest) := by
  cases h with
  | unanswered _ _ speaks | mismatch _ _ _ _ speaks =>
      exact ⟨[], by rw [speaks, List.append_nil]⟩
  | unheard _ _ _ speaks | rejected _ _ _ speaks | trailing _ _ _ speaks
  | settingUp _ _ _ speaks => exact ⟨_, speaks⟩

/-- Where a relay stands that cannot go on, with octets pending, once it was told
the selection, the nonce `nc` and then `told`; beyond its own nonce `ns` it has
said `said`. -/
inductive RelayStands (cookie : Cookie) (accept : Bool) (nc ns pending told said : Bytes) :
    Phase → Moment (Next RelayCall Announced) → Prop
  | unanswered (nothing : pending = []) (short : told.length < 32) (speaks : said = []) :
      RelayStands cookie accept nc ns pending told said .authentication .waits
  | refused {hash} (longHash : hash.length = 32) (wrong : hash ≠ clientHash cookie.secret nc ns)
      (hears : told = hash ++ pending) (speaks : said = [failure]) :
      RelayStands cookie accept nc ns pending told said .authentication
        (.gaveUp (.auth .clientHashMismatch))
  | serving {m h} (now : ServingAt accept m h)
      (hears : told = clientHash cookie.secret nc ns ++ (h.heard ++ pending))
      (speaks : said = success :: h.said) :
      RelayStands cookie accept nc ns pending told said .setup m

namespace RelayStands

variable {cookie : Cookie} {accept : Bool} {nc ns pending told said : Bytes} {phase : Phase}
  {m : Moment (Next RelayCall Announced)}

/-- A relay that is not told a whole hash waits for it. -/
theorem of_short (h : RelayStands cookie accept nc ns pending told said phase m)
    (short : told.length < 32) : phase = .authentication ∧ m = .waits := by
  cases h with
  | unanswered => exact ⟨rfl, rfl⟩
  | refused longHash wrong hears =>
      rw [hears, List.length_append, longHash] at short
      omega
  | serving now hears =>
      rw [hears, List.length_append, length_clientHash] at short
      omega

/-- A relay that has sent no status was not told a whole hash. -/
theorem short_of_silent (h : RelayStands cookie accept nc ns pending told said phase m)
    (silent : said = []) : told.length < 32 := by
  cases h with
  | unanswered nothing short => exact short
  | refused _ _ _ speaks | serving _ _ speaks => cases silent.symm.trans speaks

/-- A relay that was told a hash and sent another status than success has refused it. -/
theorem of_refusal {status : UInt8} {rest hash : Bytes}
    (h : RelayStands cookie accept nc ns pending told said phase m)
    (speaks : said = status :: rest) (wrong : status ≠ success) (hears : told = hash)
    (long : hash.length = 32) :
    phase = .authentication ∧ m = .gaveUp (.auth .clientHashMismatch) ∧ status = failure ∧
      hash ≠ clientHash cookie.secret nc ns := by
  cases h with
  | unanswered _ _ silent => cases silent.symm.trans speaks
  | refused longHash wrong2 hears2 speaks2 =>
      cases speaks.symm.trans speaks2
      have hsame := hears.symm.trans hears2
      rw [← List.append_nil hash] at hsame
      obtain ⟨rfl, -⟩ := List.append_inj hsame (long.trans longHash.symm)
      exact ⟨rfl, rfl, rfl, wrong2⟩
  | serving _ _ speaks2 =>
      cases speaks.symm.trans speaks2
      exact absurd rfl wrong

/-- A relay that has sent the status of success listens or answers. -/
theorem of_success {rest : Bytes}
    (h : RelayStands cookie accept nc ns pending told said phase m)
    (speaks : said = success :: rest) :
    ∃ acc, phase = .setup ∧ ServingAt accept m acc ∧
      told = clientHash cookie.secret nc ns ++ (acc.heard ++ pending) ∧ rest = acc.said := by
  cases h with
  | unanswered _ _ silent => cases silent.symm.trans speaks
  | refused _ _ _ speaks2 => cases speaks.symm.trans speaks2
  | serving now hears speaks2 =>
      cases speaks.symm.trans speaks2
      exact ⟨_, rfl, now, hears, rfl⟩

end RelayStands

/-- **A relay that is told the selection and a nonce** and cannot go on stands
where `RelayStands` says. -/
theorem RelayOn.stands {cookie : Cookie} {accept isOpen : Bool} {phase : Phase}
    {m : Moment (Next RelayCall Announced)} {h : Account} {p : Party RelayCall Announced}
    {came told nc : Bytes} {source : Supply} (hat : RelayOn cookie accept phase m h)
    (hends : p.Ends isOpen m) (hfits : Account.Fits came [] source h p.endpoint)
    (hcame : came = safeCookie :: (nc ++ told)) (hnc : nc.length = 32) :
    ∃ said,
      h.said = safeCookie :: 0 :: (serverHash cookie.secret nc source.draw.1 ++
        (source.draw.1 ++ said)) ∧
      RelayStands cookie accept nc source.draw.1 p.endpoint.pending told said phase m := by
  have hheard := hfits.heard
  rw [hcame] at hheard
  cases hat with
  | authenticating now =>
      cases now with
      | offering | challenged | proving | accepting | through | refusing => cases hends
      | awaitingSelection =>
          rw [hends.nothing] at hheard
          cases hheard
      | unsupported other => exact absurd (List.cons.inj hheard).1 other
      | @awaitingNonce bs s l short =>
          rw [hends.nothing, List.append_nil] at hheard
          have hlen := congrArg List.length hheard
          simp only [List.length_cons, List.length_append] at hlen
          omega
      | @awaitingHash nc2 ns bs s l long longNonce short =>
          obtain rfl := hfits.nonce rfl
          rw [hends.nothing, List.append_nil] at hheard
          obtain ⟨rfl, rfl⟩ := List.append_inj (List.cons.inj hheard).2 (by rw [long, hnc])
          exact ⟨[], by rw [List.append_nil], .unanswered hends.nothing short rfl⟩
      | @refused nc2 ns hash s l long longNonce longHash wrong =>
          obtain rfl := hfits.nonce rfl
          rw [List.cons_append, List.append_assoc] at hheard
          obtain ⟨rfl, rfl⟩ := List.append_inj (List.cons.inj hheard).2 (by rw [long, hnc])
          exact ⟨[failure], rfl, .refused longHash wrong rfl rfl⟩
  | @serving m first rest through now =>
      cases through with
      | @through nc2 ns s l long longNonce =>
          have hdrawn : rest.drawn = [] := by cases now <;> rfl
          have hone : [ns] ++ rest.drawn = [ns] := by rw [hdrawn, List.append_nil]
          obtain rfl := hfits.nonce hone
          simp only [Account.andThen, List.append_assoc, List.cons_append] at hheard
          obtain ⟨rfl, rfl⟩ := List.append_inj (List.cons.inj hheard).2 (by rw [long, hnc])
          refine ⟨success :: rest.said, ?_, .serving now rfl rfl⟩
          simp only [Account.andThen, List.cons_append, List.append_assoc, List.nil_append]

/-! ## Coming to rest -/

/-- What a client comes to that announced a session, by the verdict. -/
def verdictMoment (accept : Bool) : Moment (Next ClientStage Unit) :=
  if accept then .done (.ended ()) else .gaveUp (.auth .denied)

theorem outcome_verdict (accept : Bool) :
    SessionInfo.outcome (verdict accept).id.code =
      if accept then .ok () else .error (.auth .denied) := by
  cases accept <;> rfl

/-- A client that sets a session up and cannot go on has announced everything. -/
theorem SessionInfo.SetupAt.said_of_ends {info : SessionInfo} {isOpen : Bool} {m : Moment Unit}
    {h : Account} {p : Party ClientStage Unit} (hat : info.SetupAt m h)
    (hends : p.Ends isOpen (m.map .ended)) : h.said = info.announcement := by
  cases hat with
  | announcing => cases hends
  | tooLong | awaitingHeader | awaitingBody | accepted | refused => rfl

/-- A client that is told the verdict, and nothing else, and cannot go on has
taken it. -/
theorem SessionInfo.SetupAt.of_verdict {info : SessionInfo} {accept isOpen : Bool} {m : Moment Unit}
    {h : Account} {p : Party ClientStage Unit} (hat : info.SetupAt m h) (fits : info.Fits)
    (hends : p.Ends isOpen (m.map .ended))
    (hheard : h.heard ++ p.endpoint.pending = (verdict accept).octets) :
    m.map .ended = verdictMoment accept ∧ p.endpoint.pending = [] := by
  have hframe : ∀ {header rest : Bytes}, header.length = 4 →
      header ++ rest = (verdict accept).octets →
      Command.headerCode header = (verdict accept).id.code ∧ Command.headerLength header = 0 ∧
        rest = [] := by
    intro header rest four hsame
    obtain ⟨hcode, hlength, hrest⟩ := Command.header_of_octets (Nat.zero_le _) four
      ((List.append_nil (verdict accept).octets).trans hsame.symm)
    exact ⟨hcode, hlength, hrest.symm⟩
  cases hat with
  | announcing => cases hends
  | tooLong long => exact absurd fits long
  | @awaitingHeader bs s l _ short =>
      have hnothing : p.endpoint.pending = [] := Party.Ends.nothing hends
      rw [hnothing, List.append_nil] at hheard
      have hlen := congrArg List.length hheard
      rw [Command.length_octets] at hlen
      simp only at hlen
      omega
  | @awaitingBody header bs s l _ four short =>
      rw [List.append_assoc] at hheard
      obtain ⟨-, hlength, -⟩ := hframe four hheard
      rw [hlength] at short
      exact absurd short (Nat.not_lt_zero _)
  | @accepted header body s l _ four whole okay =>
      rw [List.append_assoc] at hheard
      obtain ⟨hcode, -, hrest⟩ := hframe four hheard
      rw [hcode, outcome_verdict] at okay
      refine ⟨?_, (List.append_eq_nil_iff.mp hrest).2⟩
      cases accept with
      | true => rfl
      | false => cases okay
  | @refused header body err s l _ four whole other =>
      rw [List.append_assoc] at hheard
      obtain ⟨hcode, -, hrest⟩ := hframe four hheard
      rw [hcode, outcome_verdict] at other
      refine ⟨?_, (List.append_eq_nil_iff.mp hrest).2⟩
      cases accept with
      | true => cases other
      | false =>
          cases other
          rfl

/-- How two sides end that cannot go on: the server's hashes differ, and the
client has given up after its nonce while the relay waits for its hash; or the
client's hashes differ, and either side has given up; or the client sets the
session up and the relay serves it, each having been told what the other said. -/
inductive Agreed (x : Encounter) (nc ns pendingC pendingR saidC : Bytes) :
    Moment (Next ClientStage Unit) → Phase → Moment (Next RelayCall Announced) → Prop
  | strangeServer (differ : serverHash x.clientCookie.secret nc ns ≠
        serverHash x.relayCookie.secret nc ns) (speaks : saidC = safeCookie :: nc) :
      Agreed x nc ns pendingC pendingR saidC (.gaveUp (.auth .serverHashMismatch))
        .authentication .waits
  | strangeClient (same : serverHash x.clientCookie.secret nc ns =
        serverHash x.relayCookie.secret nc ns)
      (differ : clientHash x.clientCookie.secret nc ns ≠ clientHash x.relayCookie.secret nc ns) :
      Agreed x nc ns pendingC pendingR saidC (.gaveUp (.auth (.statusRejected failure.toNat)))
        .authentication (.gaveUp (.auth .clientHashMismatch))
  | through {m h m2 h2} (same : serverHash x.clientCookie.secret nc ns =
        serverHash x.relayCookie.secret nc ns)
      (sameProof : clientHash x.clientCookie.secret nc ns = clientHash x.relayCookie.secret nc ns)
      (now : x.info.SetupAt m h) (now2 : ServingAt x.accept m2 h2)
      (heardR : h2.heard ++ pendingR = h.said) (heardC : h.heard ++ pendingC = h2.said) :
      Agreed x nc ns pendingC pendingR saidC (m.map .ended) .setup m2

section

variable {x : Encounter} {nc ns toldC toldR saidC saidR : Bytes} {openC openR : Bool}
  {client : Party ClientStage Unit} {relay : Party RelayCall Announced}
  {m : Moment (Next ClientStage Unit)} {m2 : Moment (Next RelayCall Announced)} {phase : Phase}

/-- What the server proved and its nonce can be told from what comes after them. -/
theorem told_apart {hash hash2 ns ns2 rest rest2 : Bytes} (h1 : hash.length = 32)
    (h2 : hash2.length = 32) (h3 : ns.length = 32) (h4 : ns2.length = 32)
    (h : hash ++ (ns ++ rest) = hash2 ++ (ns2 ++ rest2)) :
    hash = hash2 ∧ ns = ns2 ∧ rest = rest2 := by
  obtain ⟨hhash, hmore⟩ := List.append_inj h (h1.trans h2.symm)
  obtain ⟨hns, hrest⟩ := List.append_inj hmore (h3.trans h4.symm)
  exact ⟨hhash, hns, hrest⟩

/-- A client that sets a session up and a relay that serves it, each told what the
other said, have come to the end of it. -/
theorem setup_through {info : SessionInfo} {accept : Bool} {m : Moment Unit} {h h2 : Account}
    (fits : info.Fits) (now : info.SetupAt m h) (now2 : ServingAt accept m2 h2)
    (hends : client.Ends openC (m.map .ended)) (hends2 : relay.Ends openR m2)
    (hheard2 : h2.heard ++ relay.endpoint.pending = h.said)
    (hheard : h.heard ++ client.endpoint.pending = h2.said) :
    m.map .ended = verdictMoment accept ∧ m2 = .done (.ended info.announced) ∧
      client.endpoint.pending = [] ∧ relay.endpoint.pending = [] := by
  rw [now.said_of_ends hends] at hheard2
  have hserving := now2.of_announcement fits hheard2
  cases hends2 with
  | gaveUp => exact hserving.elim
  | cutOff _ nothing | waiting _ nothing => exact absurd nothing hserving
  | ended =>
      obtain ⟨rfl, hnothing, hsaid⟩ := hserving
      obtain ⟨hm, hnothing2⟩ := now.of_verdict fits hends (hheard.trans hsaid)
      exact ⟨hm, rfl, hnothing2, hnothing⟩

/-- **Two sides that cannot go on and have been told what the other said** agree. -/
theorem agreed_of_stands
    (hclient : ClientStands x.clientCookie x.info nc client.endpoint.pending toldC saidC m)
    (hrelay : RelayStands x.relayCookie x.accept nc ns relay.endpoint.pending toldR saidR phase m2)
    (longNonce : ns.length = 32)
    (htoldC : toldC = serverHash x.relayCookie.secret nc ns ++ (ns ++ saidR))
    (htoldR : saidC = safeCookie :: (nc ++ toldR)) :
    Agreed x nc ns client.endpoint.pending relay.endpoint.pending saidC m phase m2 := by
  have hproof : ∀ {rest : Bytes}, saidC = safeCookie :: (nc ++ rest) → toldR = rest := by
    intro rest hsaid
    rw [htoldR] at hsaid
    exact List.append_cancel_left (List.cons.inj hsaid).2
  cases hclient with
  | unanswered nothing short speaks =>
      rw [htoldC, List.length_append, List.length_append, length_serverHash, longNonce] at short
      omega
  | @mismatch hash ns2 rest longHash longNonce2 wrong hears speaks =>
      obtain ⟨hhash, hns, -⟩ := told_apart longHash (length_serverHash _ _ _) longNonce2 longNonce
        (hears.symm.trans htoldC)
      have htold : toldR = [] := hproof (by rw [speaks, List.append_nil])
      obtain ⟨rfl, rfl⟩ := hrelay.of_short (by rw [htold]; decide)
      refine .strangeServer ?_ speaks
      rw [← hhash, ← hns]
      exact wrong.symm
  | @unheard ns2 nothing longNonce2 hears speaks =>
      obtain ⟨-, -, hsaidR⟩ := told_apart (length_serverHash _ _ _) (length_serverHash _ _ _)
        longNonce2 longNonce (hears.symm.trans htoldC)
      have hshort := hrelay.short_of_silent hsaidR.symm
      rw [hproof speaks, length_clientHash] at hshort
      exact absurd hshort (Nat.lt_irrefl _)
  | @rejected ns2 status rest longNonce2 wrong hears speaks =>
      obtain ⟨hsame, hns, hsaidR⟩ := told_apart (length_serverHash _ _ _)
        (length_serverHash _ _ _) longNonce2 longNonce (hears.symm.trans htoldC)
      obtain ⟨rfl, rfl, rfl, hwrong⟩ := hrelay.of_refusal hsaidR.symm wrong (hproof speaks)
        (length_clientHash _ _ _)
      rw [hns] at hsame hwrong
      exact .strangeClient hsame hwrong
  | @trailing ns2 n longNonce2 more hears speaks =>
      obtain ⟨-, -, hsaidR⟩ := told_apart (length_serverHash _ _ _)
        (length_serverHash _ _ _) longNonce2 longNonce (hears.symm.trans htoldC)
      obtain ⟨h2, -, now2, hears2, hsaid2⟩ := hrelay.of_success hsaidR.symm
      have hproofs := (hproof speaks).symm.trans hears2
      rw [← List.append_nil (clientHash _ _ ns2)] at hproofs
      obtain ⟨-, hnothing⟩ := List.append_inj hproofs (by simp only [length_clientHash])
      have hheard : h2.heard = [] := (List.append_eq_nil_iff.mp hnothing.symm).1
      exact absurd (hsaid2.trans (now2.said_nothing hheard)) more
  | @settingUp ns2 m h longNonce2 now hears speaks =>
      obtain ⟨hsame, hns, hsaidR⟩ := told_apart (length_serverHash _ _ _)
        (length_serverHash _ _ _) longNonce2 longNonce (hears.symm.trans htoldC)
      obtain ⟨h2, rfl, now2, hears2, hsaid2⟩ := hrelay.of_success hsaidR.symm
      obtain ⟨hproofs, hheard⟩ := List.append_inj ((hproof speaks).symm.trans hears2)
        (by simp only [length_clientHash])
      rw [hns] at hsame hproofs
      exact .through hsame hproofs now now2 hheard.symm hsaid2

end

end ManagedTransport
