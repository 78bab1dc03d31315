import ManagedTransport.Proofs.Cuts
import ManagedTransport.Proofs.Framing

/-!
# What a relay hears

A relay listens to one command after the other.  Announcements may come in any order and
number; of those of one kind the last counts, whatever came before it.  DONE ends them, and
so does whatever is not an announcement: a command that only a relay gives, a number that
no command has, or the end of the stream.

* `lastText` — the text of the last command of a kind;
* `listenOn_announces`, `listenOn_image` — what one announcement changes, and what any
  number of them do;
* `exists_announcements` — what octets can be, seen by one who listens;
* `listenUpTo_eq` — listening ends within one reading for each four octets, and one more;
* `listen_hears` — what listening comes to and what it leaves, for every stream.
-/

namespace ManagedTransport

open Dialogue

namespace Command

/-- The command announces something. -/
structure Announces (c : Command) : Prop where
  kind : c.id = .userAddr ∨ c.id = .transport
  short : c.body.length ≤ maxBody

/-- The text of the last of these commands that is of this kind, if there is one. -/
def lastText (id : CommandId) (cs : List Command) : Option String :=
  (cs.filter fun c => c.id = id).getLast?.map fun c => Text.lossy c.body

/-- What ends listening, where it is read: a DONE or what only a relay says, a frame with a
number that no command has, or less than a frame. -/
inductive EndsListening : Bytes → Prop
  | command {c : Command} {tail : Bytes} (short : c.body.length ≤ maxBody)
      (kind : c.id = .done ∨ c.id = .okay ∨ c.id = .deny) : EndsListening (c.octets ++ tail)
  | unknown {f : Frame} {tail : Bytes} (unknown : f.Unknown) : EndsListening (f.octets ++ tail)
  | cut {bs : Bytes} (cut : Cut bs) : EndsListening bs

/-- Octets begin with an announcement, or with what ends listening. -/
theorem announces_or_ends (bs : Bytes) :
    (∃ (c : Command) (tail : Bytes), c.Announces ∧ bs = c.octets ++ tail) ∨
      EndsListening bs := by
  rcases cut_or_frame bs with hcut | ⟨f, tail, rfl⟩
  · exact .inr (.cut hcut)
  · rcases f.unknown_or_command with hunknown | ⟨c, hc⟩
    · exact .inr (.unknown hunknown)
    · obtain ⟨hshort, hoctets⟩ := Frame.octets_of_verdict hc
      rw [hoctets]
      cases hid : c.id with
      | userAddr => exact .inl ⟨c, tail, ⟨.inl hid, hshort⟩, rfl⟩
      | transport => exact .inl ⟨c, tail, ⟨.inr hid, hshort⟩, rfl⟩
      | done => exact .inr (.command hshort (.inl hid))
      | okay => exact .inr (.command hshort (.inr (.inl hid)))
      | deny => exact .inr (.command hshort (.inr (.inr hid)))

/-- **All octets are announcements and then what ends listening.** -/
theorem exists_announcements (bs : Bytes) :
    ∃ cs rest, (∀ c ∈ cs, c.Announces) ∧ bs = image cs ++ rest ∧ EndsListening rest := by
  -- every announcement takes octets from the front, so there are fewer behind it
  induction hlen : bs.length using Nat.strongRecOn generalizing bs with
  | ind n ih =>
      rcases announces_or_ends bs with ⟨c, tail, hannounces, rfl⟩ | hends
      · rw [List.length_append, length_octets] at hlen
        obtain ⟨cs, rest, hcs, htail, hends⟩ := ih tail.length (by omega) tail rfl
        refine ⟨c :: cs, rest, ?_, ?_, hends⟩
        · intro d hd
          rcases List.mem_cons.mp hd with rfl | hd
          · exact hannounces
          · exact hcs d hd
        · rw [htail, image, image, List.flatMap_cons, List.append_assoc]
      · exact ⟨[], bs, List.forall_mem_nil _, rfl, hends⟩

theorem lastText_append (id : CommandId) (cs ds : List Command) :
    lastText id (cs ++ ds) = (lastText id ds).or (lastText id cs) := by
  rw [lastText, List.filter_append, List.getLast?_append, Option.map_or, lastText, lastText]

end Command

namespace Announced

/-- What a relay has heard that hears these commands as well. -/
def overlaid (a : Announced) (cs : List Command) : Announced :=
  ⟨(Command.lastText .userAddr cs).or a.userAddr, (Command.lastText .transport cs).or a.transport⟩

variable {a : Announced} {c : Command}

theorem overlaid_nil (a : Announced) : a.overlaid [] = a := rfl

theorem overlaid_overlaid (a : Announced) (cs ds : List Command) :
    (a.overlaid cs).overlaid ds = a.overlaid (cs ++ ds) := by
  simp only [overlaid, Command.lastText_append, Option.or_assoc]

theorem nothing_overlaid (cs : List Command) :
    nothing.overlaid cs = ⟨Command.lastText .userAddr cs, Command.lastText .transport cs⟩ := by
  simp only [overlaid, nothing, Option.or_none]

/-- **An announcement** takes the place of what was heard of its kind. -/
theorem hear_announces (h : c.Announces) : a.hear c = .more (a.overlaid [c]) := by
  obtain ⟨id, body⟩ := c
  rcases h.kind with hid | hid
  all_goals
    cases hid
    rfl

end Announced

namespace Endpoint

variable {a : Announced} {e e2 : Endpoint} {c : Command} {cs : List Command} {tail : Bytes}

/-- Listening is one reading, and what it comes to. -/
theorem listenOn_eq (a : Announced) (e : Endpoint) :
    e.listenOn a = match Command.read.hold .setup e with
      | (.done c, e2) =>
        match a.hear c with
        | .more a => e2.listenOn a
        | .complete a => (.done a, e2)
        | .breach err => (.failed (.protocol err), e2)
      | (.failed err, e2) => (.failed err, e2)
      | (.late, e2) => (.late, e2)
      | (.stuck, e2) => (.stuck, e2) := by
  rw [listenOn.eq_def]
  rcases Command.read.hold .setup e with ⟨c | err | _ | _, e2⟩ <;> rfl

/-- A relay that is sent an announcement goes on listening. -/
theorem listenOn_announces (h : e.Flowing) (hc : c.Announces)
    (hpending : e.pending = c.octets ++ tail) :
    ∃ e2, e.listenOn a = e2.listenOn (a.overlaid [c]) ∧ e.Given c.octets e2 := by
  obtain ⟨e2, hread, hgiven⟩ := Command.read_flowing .setup h hc.short hpending
  refine ⟨e2, ?_, hgiven⟩
  simp only [listenOn_eq a e, hread, Announced.hear_announces hc]

/-- **A relay that is sent announcements** has heard the last of each kind, and goes on
listening. -/
theorem listenOn_image (h : e.Flowing) (hcs : ∀ c ∈ cs, c.Announces)
    (hpending : e.pending = Command.image cs ++ tail) :
    ∃ e2, e.listenOn a = e2.listenOn (a.overlaid cs) ∧ e.Given (Command.image cs) e2 := by
  induction cs generalizing a e with
  | nil => exact ⟨e, by rw [Announced.overlaid_nil], .refl h⟩
  | cons c cs ih =>
      rw [Command.image, List.flatMap_cons, List.append_assoc] at hpending
      obtain ⟨e2, hlisten, hgiven⟩ :=
        listenOn_announces (a := a) h (hcs c List.mem_cons_self) hpending
      obtain ⟨e3, hlisten2, hgiven2⟩ := ih (a := a.overlaid [c]) hgiven.flowing
        (fun d hd => hcs d (List.mem_cons_of_mem c hd)) (hgiven.left hpending)
      refine ⟨e3, ?_, hgiven.trans hgiven2⟩
      rw [hlisten, hlisten2, Announced.overlaid_overlaid, List.singleton_append]

/-- A relay that was sent announcements stands where the rest begins. -/
theorem listen_image (h : e.Flowing) (hcs : ∀ c ∈ cs, c.Announces)
    (hpending : e.pending = Command.image cs ++ tail) :
    ∃ e2 : Endpoint,
      e.listen =
        e2.listenOn ⟨Command.lastText .userAddr cs, Command.lastText .transport cs⟩ ∧
      e2.Flowing ∧ e2.pending = tail := by
  obtain ⟨e2, hlisten, hgiven⟩ := listenOn_image (a := .nothing) h hcs hpending
  rw [Announced.nothing_overlaid] at hlisten
  exact ⟨e2, hlisten, hgiven.flowing, hgiven.left hpending⟩

/-! ## How long a relay listens -/

/-- Listens for at most so many readings; none if that is not the end. -/
def listenUpTo : Nat → Announced → Endpoint → Option (Ending Error Announced × Endpoint)
  | 0, _, _ => none
  | n + 1, heard, e =>
    match Command.read.hold .setup e with
    | (.done c, e) =>
      match heard.hear c with
      | .more heard => listenUpTo n heard e
      | .complete heard => some (.done heard, e)
      | .breach error => some (.failed (.protocol error), e)
    | (.failed error, e) => some (.failed error, e)
    | (.late, e) => some (.late, e)
    | (.stuck, e) => some (.stuck, e)

/-- One reading of a relay that listens: it goes on, or ends as listening does. -/
theorem listenUpTo_succ (n : Nat) (a : Announced) (e : Endpoint) :
    (∃ c a2 e2, Command.read.hold .setup e = (.done c, e2) ∧ a.hear c = .more a2 ∧
      e.listenOn a = e2.listenOn a2 ∧ listenUpTo (n + 1) a e = listenUpTo n a2 e2) ∨
    listenUpTo (n + 1) a e = some (e.listenOn a) := by
  rcases hread : Command.read.hold .setup e with ⟨c | err | _ | _, e2⟩
  case done =>
    rcases hhear : a.hear c with a2 | a2 | err
    case more =>
      refine .inl ⟨c, a2, e2, rfl, hhear, ?_, ?_⟩
      · simp only [listenOn_eq a e, hread, hhear]
      · simp only [listenUpTo, hread, hhear]
    all_goals
      refine .inr ?_
      simp only [listenUpTo, listenOn_eq a e, hread, hhear]
  all_goals
    refine .inr ?_
    simp only [listenUpTo, listenOn_eq a e, hread]

/-- **Listening ends** within one reading for each four octets that are pending, and one
more, whatever the wire does. -/
theorem listenUpTo_eq {n : Nat} (hn : e.unread < 4 * n) (a : Announced) :
    e.listenUpTo n a = some (e.listenOn a) := by
  induction n generalizing e a with
  | zero => omega
  | succ n ih =>
      rcases listenUpTo_succ n a e with ⟨c, a2, e2, hread, -, hlisten, hupTo⟩ | hends
      · have hlen := congrArg List.length (Command.read_done hread).2
        rw [List.length_append, Command.length_octets] at hlen
        rw [hupTo, hlisten]
        apply ih
        simp only [unread] at hn ⊢
        omega
      · exact hends

/-- **Each reading but one takes four octets** where octets flow, and that one only finds
the stream at its end. -/
theorem listenUpTo_eq_of_flowing {n : Nat} (h : e.Flowing) (hn : e.unread < 4 * (n + 1))
    (a : Announced) (hwhole : ∀ cause, (e.listenOn a).1 ≠ .failed (.network cause)) :
    e.listenUpTo n a = some (e.listenOn a) := by
  induction n generalizing e a with
  | zero =>
      obtain ⟨e2, hread, -⟩ := Command.read_cut .setup h (.inl (by simpa [unread] using hn))
      simp only [listenOn_eq a e, hread] at hwhole
      exact absurd rfl (hwhole _)
  | succ n ih =>
      rcases listenUpTo_succ n a e with ⟨c, a2, e2, hread, -, hlisten, hupTo⟩ | hends
      · obtain ⟨hshort, hpending⟩ := Command.read_done hread
        obtain ⟨e3, hread3, hgiven⟩ := Command.read_flowing .setup h hshort hpending
        obtain rfl : e2 = e3 := (Prod.mk.inj (hread.symm.trans hread3)).2
        rw [hlisten] at hwhole
        rw [hupTo, hlisten]
        apply ih hgiven.flowing _ a2 hwhole
        have hlen := congrArg List.length hpending
        rw [List.length_append, Command.length_octets] at hlen
        simp only [unread] at hn ⊢
        omega
      · exact hends

/-- What listening comes to at an endpoint, and what is left then.  `complete`, `refused`,
`unknown` and `cut`: after announcements `cs` it ends with the next frame, and has taken
that frame and nothing behind it; after a DONE a relay has heard the last text of each kind.
`decided`: one of these is the case.  `few` and `paid`: how many readings that takes.
`direct`: a party that reads nothing ahead leaves on the wire what it has not taken. -/
structure Hears (e : Endpoint) : Prop where
  complete : ∀ cs body tail, (∀ c ∈ cs, c.Announces) → body.length ≤ Command.maxBody →
    e.pending = Command.image cs ++ ((Command.mk .done body).octets ++ tail) →
    ∃ e2, e.listen =
        (.done ⟨Command.lastText .userAddr cs, Command.lastText .transport cs⟩, e2) ∧
      e2.pending = tail
  refused : ∀ cs (d : Command) tail, (∀ c ∈ cs, c.Announces) → d.body.length ≤ Command.maxBody →
    d.id = .okay ∨ d.id = .deny → e.pending = Command.image cs ++ (d.octets ++ tail) →
    ∃ e2, e.listen = (.failed (.protocol (.unexpectedCommand d.id.name .setup)), e2) ∧
      e2.pending = tail
  unknown : ∀ cs (f : Frame) tail, (∀ c ∈ cs, c.Announces) → f.Unknown →
    e.pending = Command.image cs ++ (f.octets ++ tail) →
    ∃ e2, e.listen = (.failed (.protocol (.unknownCommand f.code)), e2) ∧ e2.pending = tail
  cut : ∀ cs bs, (∀ c ∈ cs, c.Announces) → Command.Cut bs → e.pending = Command.image cs ++ bs →
    ∃ e2, e.listen = (.failed (.network (.io .setup .earlyEnd)), e2) ∧ e2.pending = []
  decided : ∃ cs rest, (∀ c ∈ cs, c.Announces) ∧ e.pending = Command.image cs ++ rest ∧
    Command.EndsListening rest
  few : e.listenUpTo (e.unread / 4 + 1) .nothing = some e.listen
  paid : (∀ cause, e.listen.1 ≠ .failed (.network cause)) →
    e.listenUpTo (e.unread / 4) .nothing = some e.listen
  direct : e.Direct → e.pending = e.wire.pending ∧ e.listen.2.pending = e.listen.2.wire.pending

/-- **What a relay hears.**  Whatever octets come before the stream ends, and however they
are cut, listening comes to what `Hears` says. -/
theorem listen_hears (h : e.Flowing) : e.Hears := by
  refine ⟨?_, ?_, ?_, ?_, ?_, ?_, ?_, ?_⟩
  · intro cs body tail hcs hshort hpending
    obtain ⟨e2, hlisten, hflowing, hpending2⟩ := listen_image h hcs hpending
    obtain ⟨e3, hread, hgiven⟩ := Command.read_flowing .setup hflowing hshort hpending2
    refine ⟨e3, ?_, hgiven.left hpending2⟩
    simp only [hlisten, listenOn_eq _ e2, hread, Announced.hear]
  · intro cs d tail hcs hshort hid hpending
    obtain ⟨e2, hlisten, hflowing, hpending2⟩ := listen_image h hcs hpending
    obtain ⟨e3, hread, hgiven⟩ := Command.read_flowing .setup hflowing hshort hpending2
    refine ⟨e3, ?_, hgiven.left hpending2⟩
    rcases hid with hid | hid <;> simp only [hlisten, listenOn_eq _ e2, hread, Announced.hear, hid]
  · intro cs f tail hcs hunknown hpending
    obtain ⟨e2, hlisten, hflowing, hpending2⟩ := listen_image h hcs hpending
    obtain ⟨e3, hread, hgiven⟩ := Command.read_frame .setup hflowing hpending2
    rw [hunknown.verdict] at hread
    refine ⟨e3, ?_, hgiven.left hpending2⟩
    simp only [hlisten, listenOn_eq _ e2, hread]
  · intro cs bs hcs hcut hpending
    obtain ⟨e2, hlisten, hflowing, rfl⟩ := listen_image h hcs hpending
    obtain ⟨e3, hread, hgiven⟩ := Command.read_cut .setup hflowing hcut
    refine ⟨e3, ?_, hgiven.left (List.append_nil _).symm⟩
    simp only [hlisten, listenOn_eq _ e2, hread]
  · exact Command.exists_announcements e.pending
  · exact listenUpTo_eq (by omega) .nothing
  · intro hwhole
    exact listenUpTo_eq_of_flowing h (by omega) .nothing hwhole
  · intro hdirect
    exact ⟨hdirect.pending_eq, (hdirect.listenOn .nothing).pending_eq⟩

/-- A party to which a transport is announced, an address, another transport, and then that
this was all, in pieces that keep to no boundary, with one more octet behind. -/
def toldTwice : Endpoint :=
  .ofWire (.ofArrivals [.data [0, 2, 0, 1, 0x61, 0], .pause 4, .data [1, 0, 1, 0x78, 0, 2, 0],
    .data [1, 0x62], .data [0, 0, 0, 1, 9, 7]]) (.fresh [])

/-- The second transport counts, and the octet behind is left. -/
theorem toldTwice_hears :
    toldTwice.listen.1 = .done ⟨some "x", some "b"⟩ ∧ toldTwice.listen.2.wire.pending = [7] := by
  have hflowing : toldTwice.Flowing := ⟨by simp [toldTwice, ofWire, Wire.ofArrivals,
    Wire.Flowing], rfl, Nat.one_pos⟩
  have hhears := listen_hears hflowing
  let cs : List Command := [⟨.transport, [0x61]⟩, ⟨.userAddr, [0x78]⟩, ⟨.transport, [0x62]⟩]
  have hcs : ∀ c ∈ cs, c.Announces := by
    intro c hc
    simp only [cs, List.mem_cons, List.not_mem_nil, or_false] at hc
    rcases hc with rfl | rfl | rfl
    · exact ⟨.inr rfl, by decide⟩
    · exact ⟨.inl rfl, by decide⟩
    · exact ⟨.inr rfl, by decide⟩
  have htexts : Command.lastText .userAddr cs = some "x" ∧
      Command.lastText .transport cs = some "b" := by decide
  obtain ⟨e2, hlisten, hleft⟩ := hhears.complete cs [9] [7] hcs (by decide) (by decide)
  obtain ⟨-, hdirect⟩ := hhears.direct ⟨rfl, rfl⟩
  rw [htexts.1, htexts.2] at hlisten
  rw [hlisten] at hdirect ⊢
  exact ⟨rfl, hdirect.symm.trans hleft⟩

end Endpoint

end ManagedTransport
