import ManagedTransport.Negotiation
import ManagedTransport.Proofs.Account
import ManagedTransport.Proofs.AddressLength

/-!
# Where a client can be while it sets a session up

`SetupAt` lists the moments of session setup, each with the account that the
client can then give; `setup_keeps` says that there are no others.  What is
announced never depends on the peer, and what comes of it only on the number of
the first command that the peer sends.

Writing and reading a single command comes first: `write_of_le`, `write_of_lt`
and `read_keeps`.
-/

namespace ManagedTransport

open Dialogue

namespace Command

/-- A command whose body is not too long is sent whole. -/
theorem write_of_le {c : Command} (h : c.body.length ≤ maxBody) : c.write = say c.octets := by
  rw [write, encode_eq_ok_iff.mpr ⟨h, rfl⟩]

/-- A command whose body is too long is not sent. -/
theorem write_of_lt {c : Command} (h : maxBody < c.body.length) :
    c.write = breach (.commandTooLong c.body.length) := by
  rw [write, encode, if_neg (by omega)]

/-- Reading a command, a party is told a header, then the body that it
announces, and then has a command or an unknown number. -/
theorem read_keeps {P : Moment Command → Account → Prop} {h : Account}
    (inHeader : ∀ bs, bs.length < 4 → P .waits (h.hear bs))
    (inBody : ∀ header bs, header.length = 4 → bs.length < headerLength header →
      P .waits (h.hear (header ++ bs)))
    (known : ∀ header body id, header.length = 4 → body.length = headerLength header →
      CommandId.ofCode (headerCode header) = .ok id →
      P (.done ⟨id, body⟩) (h.hear (header ++ body)))
    (unknown : ∀ header body e, header.length = 4 → body.length = headerLength header →
      CommandId.ofCode (headerCode header) = .error e →
      P (.gaveUp (.protocol e)) (h.hear (header ++ body))) :
    Keeps P read h := by
  simp only [read, Dialogue.read, bind_def, Dialogue.bind, Keeps, Account.hear_hear]
  refine ⟨inHeader, fun header hh => ⟨fun bs hb => inBody header bs hh hb, fun body hb => ?_⟩⟩
  rcases hcode : CommandId.ofCode (headerCode header) with e | id
  · exact unknown header body e hh hb hcode
  · exact known header body id hh hb hcode

end Command

namespace SessionInfo

/-- The command that tells where the connection came from. -/
def origin (info : SessionInfo) : Command := ⟨.userAddr, Text.utf8 info.userAddr.text⟩

/-- The command that tells which transport carried it. -/
def carrier (info : SessionInfo) : Command := ⟨.transport, Text.utf8 info.method⟩

/-- The command that ends the announcements. -/
def finish : Command := ⟨.done, []⟩

/-- Whether the name of the transport fits into a command. -/
def Fits (info : SessionInfo) : Prop := (Text.utf8 info.method).length ≤ Command.maxBody

instance (info : SessionInfo) : Decidable info.Fits := Nat.decLe _ _

/-- All that is announced: if the name of the transport does not fit, only
where the connection came from. -/
def announcement (info : SessionInfo) : Bytes :=
  info.origin.octets ++ if info.Fits then info.carrier.octets ++ finish.octets else []

/-- What a client makes of the number of the peer's reply. -/
def outcome (code : Nat) : Except Error Unit :=
  match CommandId.ofCode code with
  | .ok .okay => .ok ()
  | .ok .deny => .error (.auth .denied)
  | .ok other => .error (.protocol (.unexpectedCommand other.name .setup))
  | .error e => .error (.protocol e)

/-- The moments of session setup.  `p` is the part of the announcement that is
written, and the peer's reply is a `header` and a body. -/
inductive SetupAt (info : SessionInfo) : Moment Unit → Account → Prop
  | announcing {p s l} (part : p <+: info.announcement) :
      SetupAt info .writes ⟨[], p, [], s, l⟩
  | tooLong {s l} (long : ¬ info.Fits) :
      SetupAt info
        (.gaveUp (.protocol (.commandTooLong (Text.utf8 info.method).length)))
        ⟨[], info.announcement, [], s, l⟩
  | awaitingHeader {bs s l} (fits : info.Fits) (short : bs.length < 4) :
      SetupAt info .waits ⟨bs, info.announcement, [], s, l⟩
  | awaitingBody {header bs s l} (fits : info.Fits) (four : header.length = 4)
      (short : bs.length < Command.headerLength header) :
      SetupAt info .waits ⟨header ++ bs, info.announcement, [], s, l⟩
  | accepted {header body s l} (fits : info.Fits) (four : header.length = 4)
      (whole : body.length = Command.headerLength header)
      (okay : outcome (Command.headerCode header) = .ok ()) :
      SetupAt info (.done ()) ⟨header ++ body, info.announcement, [], s, l⟩
  | refused {header body err s l} (fits : info.Fits) (four : header.length = 4)
      (whole : body.length = Command.headerLength header)
      (other : outcome (Command.headerCode header) = .error err) :
      SetupAt info (.gaveUp err) ⟨header ++ body, info.announcement, [], s, l⟩

/-- Where a connection came from always fits into a command. -/
theorem origin_fits (info : SessionInfo) : info.origin.body.length ≤ Command.maxBody := by
  have h := info.userAddr.length_text_le
  simp only [origin, Command.maxBody]
  omega

/-- Waiting for the peer's reply. -/
theorem reply_keeps {info : SessionInfo} {s : AuthStep} {l : Option Nat} (fits : info.Fits) :
    Keeps (SetupAt info)
      (Command.read.bind fun reply =>
        match reply.id with
        | .okay => done ()
        | .deny => refuse .denied
        | other => breach (.unexpectedCommand other.name .setup))
      ⟨[], info.announcement, [], s, l⟩ := by
  refine keeps_bind (Command.read_keeps ?_ ?_ ?_ ?_)
  · intro bs short
    exact .awaitingHeader fits short
  · intro header bs four short
    simp only [Account.hear, List.nil_append]
    exact .awaitingBody fits four short
  · intro header body id four whole hcode
    simp only [Account.hear, List.nil_append]
    cases id
    case okay => exact .accepted fits four whole (by simp only [outcome, hcode])
    all_goals exact .refused fits four whole (by simp only [outcome, hcode])
  · intro header body e four whole hcode
    simp only [Account.hear, List.nil_append]
    exact .refused fits four whole (by simp only [outcome, hcode])

/-- **A client that sets a session up is where `SetupAt` says**, at every
moment, whatever it is told. -/
theorem setup_keeps (info : SessionInfo) (s : AuthStep) (l : Option Nat) :
    Keeps (SetupAt info) info.setup ⟨[], [], [], s, l⟩ := by
  have horigin : (Command.mk .userAddr (Text.utf8 info.userAddr.text)).write =
      say info.origin.octets := Command.write_of_le info.origin_fits
  have hfinish : (Command.mk .done []).write = say finish.octets :=
    Command.write_of_le (Nat.zero_le _)
  simp only [setup, bind_def, horigin, hfinish, say, Dialogue.bind, Keeps,
    Account.say, List.nil_append]
  by_cases fits : info.Fits
  · have hcarrier : (Command.mk .transport (Text.utf8 info.method)).write =
        say info.carrier.octets := Command.write_of_le fits
    have hall : info.announcement =
        info.origin.octets ++ (info.carrier.octets ++ finish.octets) := by
      rw [announcement, if_pos fits]
    have part : ∀ p q, p <+: q → info.origin.octets ++ (info.carrier.octets ++ q) =
        info.announcement → info.origin.octets ++ (info.carrier.octets ++ p) <+:
          info.announcement := by
      rintro p q ⟨r, rfl⟩ hq
      exact ⟨r, by rw [← hq]; simp only [List.append_assoc]⟩
    simp only [hcarrier, say, push, Dialogue.bind, Keeps, Account.say, List.append_assoc]
    refine ⟨fun p hp => .announcing ?_, fun p hp => .announcing ?_,
      fun p hp => .announcing (part p _ hp hall.symm), ?_, ?_⟩
    · exact hall ▸ hp.trans (List.prefix_append _ _)
    · rw [hall, List.prefix_append_right_inj]
      exact hp.trans (List.prefix_append _ _)
    · exact hall ▸ .announcing (List.prefix_refl _)
    · exact hall ▸ reply_keeps fits
  · have hcarrier : (Command.mk .transport (Text.utf8 info.method)).write =
        breach (.commandTooLong (Text.utf8 info.method).length) :=
      Command.write_of_lt (by simpa [Fits] using fits)
    have hall : info.announcement = info.origin.octets := by
      rw [announcement, if_neg fits, List.append_nil]
    simp only [hcarrier, breach, Dialogue.bind, Keeps]
    exact ⟨fun p hp => .announcing (hall ▸ hp), hall ▸ .tooLong fits⟩

/-- Session setup says octets of the announcement and draws nothing. -/
theorem SetupAt.said_prefix {info : SessionInfo} {m : Moment Unit} {h : Account}
    (hat : SetupAt info m h) : h.said <+: info.announcement ∧ h.drawn = [] := by
  cases hat with
  | announcing part => exact ⟨part, rfl⟩
  | tooLong | awaitingHeader | awaitingBody | accepted | refused =>
      exact ⟨List.prefix_refl _, rfl⟩

end SessionInfo

/-- **Session setup at an endpoint** ends at one of its moments, and the
endpoint bears out the account. -/
theorem Endpoint.setup_account (info : SessionInfo) (e : Endpoint) :
    ∃ h, Dialogue.Rests .setup (SessionInfo.SetupAt info) (e.setup info).1 h ∧
      Account.Fits e.pending e.wire.sent e.supply h (e.setup info).2 :=
  (SessionInfo.setup_keeps info e.step none).hold .setup (Account.Fits.begin e)

end ManagedTransport
