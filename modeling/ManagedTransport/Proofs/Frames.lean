import ManagedTransport.Proofs.Flowing
import ManagedTransport.Proofs.Intake
import ManagedTransport.Proofs.ListeningSide

/-!
# Frames

What stands on the wire for a command is a frame: a number, the length of a body, and that
body.  A frame may have a number that no command has.  Its end is told by its length alone,
so it is taken whole before the number is looked at, and a reader who goes on after an
unknown one finds the next where it begins.

* `cut_or_frame` — octets are cut short, or begin with a frame;
* `read_frame`, `read_cut` — what reading comes to in either case where octets flow;
* `read_cases` — on any wire, who comes to a verdict has taken a frame;
* `readings_frames` — so many readings come to the verdicts on so many frames, in order;
* `read_aligned` — all of this, for every stream.
-/

namespace ManagedTransport

open Dialogue

/-- A frame, whether or not a command has its number. -/
structure Frame where
  code : Nat
  body : Bytes
  numbered : code < 65536
  short : body.length ≤ Command.maxBody

/-- The frame of a command. -/
def Command.frame (c : Command) (short : c.body.length ≤ maxBody) : Frame :=
  ⟨c.id.code, c.body, c.id.code_lt, short⟩

namespace Frame

/-- The octets of a frame. -/
def octets (f : Frame) : Bytes := Bytes.ofWord f.code ++ Bytes.ofWord f.body.length ++ f.body

/-- The octets of frames, one behind the other. -/
def image (fs : List Frame) : Bytes := fs.flatMap octets

/-- What a reader makes of a frame. -/
def verdict (f : Frame) : Ending Error Command :=
  match CommandId.ofCode f.code with
  | .ok id => .done ⟨id, f.body⟩
  | .error err => .failed (.protocol err)

/-- No command has the frame's number. -/
def Unknown (f : Frame) : Prop := ∀ id : CommandId, id.code ≠ f.code

variable {f : Frame} {c : Command}

theorem verdict_frame (short : c.body.length ≤ Command.maxBody) :
    (c.frame short).verdict = .done c := by
  simp only [verdict, Command.frame, CommandId.ofCode_code]

/-- A frame that is read as a command is that command's. -/
theorem octets_of_verdict (h : f.verdict = .done c) :
    c.body.length ≤ Command.maxBody ∧ f.octets = c.octets := by
  rcases hcode : CommandId.ofCode f.code with err | id <;> simp only [verdict, hcode] at h
  · cases h
  · cases h
    refine ⟨f.short, ?_⟩
    rw [octets, Command.octets, CommandId.code_of_ofCode hcode]

/-- **An unknown number** is what the verdict on it tells. -/
theorem Unknown.verdict (h : f.Unknown) :
    f.verdict = .failed (.protocol (.unknownCommand f.code)) := by
  rcases hid : CommandId.ofCode? f.code with _ | id
  · simp only [Frame.verdict, CommandId.ofCode, hid]
  · exact absurd (CommandId.code_of_ofCode? hid) (h id)

/-- A frame is unknown or a command's. -/
theorem unknown_or_command (f : Frame) : f.Unknown ∨ ∃ c, f.verdict = .done c := by
  rcases hcode : CommandId.ofCode f.code with err | id
  · refine .inl ?_
    intro id hid
    rw [← hid, CommandId.ofCode_code] at hcode
    cases hcode
  · refine .inr ⟨⟨id, f.body⟩, ?_⟩
    simp only [Frame.verdict, hcode]

/-- The header of a frame, as a reader sees it. -/
theorem header_of_octets (f : Frame) :
    ∃ header, header.length = 4 ∧ f.octets = header ++ f.body ∧
      Command.headerCode header = f.code ∧ Command.headerLength header = f.body.length := by
  refine ⟨Bytes.ofWord f.code ++ Bytes.ofWord f.body.length, rfl, rfl, ?_, ?_⟩
  · exact Bytes.word_ofWord f.numbered
  · exact Bytes.word_ofWord (Nat.lt_succ_of_le f.short)

/-- Four octets and a body as long as they say are a frame. -/
theorem exists_of_header {header body : Bytes} (four : header.length = 4)
    (whole : body.length = Command.headerLength header) :
    ∃ f : Frame, f.octets = header ++ body ∧ f.code = Command.headerCode header ∧
      f.body = body := by
  have hshort : body.length ≤ Command.maxBody :=
    Nat.le_of_lt_succ (whole ▸ Command.headerLength_lt header)
  refine ⟨⟨Command.headerCode header, body, Bytes.word_lt _ _, hshort⟩, ?_, rfl, rfl⟩
  rw [octets, whole, Command.ofWord_header four]

end Frame

namespace Command

/-- There is no whole header, or not the whole body that it announces. -/
def Cut (bs : Bytes) : Prop := bs.length < 4 ∨ bs.length < 4 + headerLength bs

/-- **Octets are cut short, or begin with a frame.** -/
theorem cut_or_frame (bs : Bytes) : Cut bs ∨ ∃ f : Frame, ∃ rest, bs = f.octets ++ rest := by
  by_cases hcut : Cut bs
  · exact .inl hcut
  · simp only [Cut, not_or, Nat.not_lt] at hcut
    obtain ⟨hheader, hbody⟩ := hcut
    have hlength : headerLength (bs.take 4) = headerLength bs := by
      simp only [headerLength, List.getD_eq_getElem?_getD, List.getElem?_take]
      rfl
    have hwhole : ((bs.drop 4).take (headerLength bs)).length = headerLength (bs.take 4) := by
      rw [hlength, List.length_take, List.length_drop]
      omega
    obtain ⟨f, hf, -⟩ := Frame.exists_of_header (List.length_take_of_le hheader) hwhole
    refine .inr ⟨f, (bs.drop 4).drop (headerLength bs), ?_⟩
    rw [hf, List.append_assoc, List.take_append_drop, List.take_append_drop]

variable {phase : Phase} {e e2 : Endpoint} {c : Command}

/-- **A frame that is pending is taken whole**, whatever comes of it. -/
theorem read_frame (phase : Phase) (h : e.Flowing) {f : Frame} {rest : Bytes}
    (hpending : e.pending = f.octets ++ rest) :
    ∃ e2, read.hold phase e = (f.verdict, e2) ∧ e.Given f.octets e2 := by
  obtain ⟨header, four, hoctets, hcode, hlength⟩ := f.header_of_octets
  rw [hoctets, List.append_assoc] at hpending
  obtain ⟨e2, hheader, hgiven⟩ := Endpoint.take_flowing h hpending
  obtain ⟨e3, hbody, hgiven2⟩ := Endpoint.take_flowing hgiven.flowing (hgiven.left hpending)
  rw [four] at hheader
  refine ⟨e3, ?_, hoctets ▸ hgiven.trans hgiven2⟩
  simp only [read, Dialogue.read, bind_def, Dialogue.bind, hold, hheader, hlength, hbody, hcode,
    Frame.verdict]
  rcases CommandId.ofCode f.code with err | id <;> rfl

/-- **Where the stream is cut short** reading fails for that, also if the number is not
known, and what there is has been taken. -/
theorem read_cut (phase : Phase) (h : e.Flowing) (hcut : Cut e.pending) :
    ∃ e2, read.hold phase e = (.failed (.network (.io phase .earlyEnd)), e2) ∧
      e.Given e.pending e2 := by
  by_cases hheader : e.pending.length < 4
  · obtain ⟨e2, htake, hgiven⟩ := Endpoint.take_flowing_short h hheader
    refine ⟨e2, ?_, hgiven⟩
    simp only [read, Dialogue.read, bind_def, Dialogue.bind, hold, htake]
  · have hbody : e.pending.length < 4 + headerLength e.pending := hcut.resolve_left hheader
    obtain ⟨header, rest, four, hpending⟩ : ∃ header rest, header.length = 4 ∧
        e.pending = header ++ rest :=
      ⟨_, _, List.length_take_of_le (Nat.le_of_not_lt hheader), (List.take_append_drop 4 _).symm⟩
    have hlength : headerLength e.pending = headerLength header := by
      rw [hpending]
      simp only [headerLength, List.getD_eq_getElem?_getD]
      rw [List.getElem?_append_left (by omega), List.getElem?_append_left (by omega)]
    obtain ⟨e2, hheader2, hgiven⟩ := Endpoint.take_flowing h hpending
    have hshort : e2.pending.length < headerLength header := by
      rw [hlength, hpending, List.length_append, four] at hbody
      rw [hgiven.left hpending]
      omega
    obtain ⟨e3, htake, hgiven2⟩ := Endpoint.take_flowing_short hgiven.flowing hshort
    rw [four] at hheader2
    have hall : e.Given (header ++ e2.pending) e3 := hgiven.trans hgiven2
    rw [← hgiven.octets] at hall
    refine ⟨e3, ?_, hall⟩
    simp only [read, Dialogue.read, bind_def, Dialogue.bind, hold, hheader2, htake]

/-- **What reading can come to**, whatever the wire does: the verdict on a frame that was
taken, a failure of the wire, or no end in time. -/
theorem read_cases {r : Ending Error Command} (h : read.hold phase e = (r, e2)) :
    (∃ f : Frame, r = f.verdict ∧ e.pending = f.octets ++ e2.pending) ∨
      (∃ fault, r = .failed (.network (.io phase fault))) ∨ r = .late ∨ r = .stuck := by
  simp only [read, Dialogue.read, bind_def, Dialogue.bind, hold] at h
  rcases hheader : e.take 4 with ⟨header | fault | _ | _, e3⟩ <;> simp only [hheader] at h
  case done =>
    obtain ⟨hpending, four⟩ := Endpoint.pending_take_done hheader
    rcases hbody : e3.take (headerLength header) with ⟨body | fault | _ | _, e4⟩ <;>
      simp only [hbody] at h
    case done =>
      obtain ⟨hpending2, whole⟩ := Endpoint.pending_take_done hbody
      obtain ⟨f, hoctets, hcode, rfl⟩ := Frame.exists_of_header four whole
      refine .inl ⟨f, ?_⟩
      rw [hoctets, List.append_assoc, Frame.verdict, hcode, ← hpending, ← hpending2]
      rcases hid : CommandId.ofCode (headerCode header) with err | id <;>
        simp only [hid, pure_def, breach, hold] at h
      all_goals
        cases h
        exact ⟨rfl, rfl⟩
    case failed =>
      cases h
      exact .inr (.inl ⟨fault, rfl⟩)
    all_goals
      cases h
      simp
  case failed =>
    cases h
    exact .inr (.inl ⟨fault, rfl⟩)
  all_goals
    cases h
    simp

/-- The octets of a command that was read are those that were taken. -/
theorem read_done (h : read.hold phase e = (.done c, e2)) :
    c.body.length ≤ maxBody ∧ e.pending = c.octets ++ e2.pending := by
  rcases read_cases h with ⟨f, hverdict, hpending⟩ | ⟨fault, hr⟩ | hr | hr
  · obtain ⟨hshort, hoctets⟩ := Frame.octets_of_verdict hverdict.symm
    exact ⟨hshort, hoctets ▸ hpending⟩
  all_goals cases hr

/-! ## Reading on -/

/-- What so many readings come to, one after the other.  Whatever one of them comes to, the
next goes on from where it has ended. -/
def readings (phase : Phase) : Nat → Endpoint → List (Ending Error Command) × Endpoint
  | 0, e => ([], e)
  | n + 1, e =>
    let (r, e) := read.hold phase e
    let (rs, e) := readings phase n e
    (r :: rs, e)

/-- **So many readings come to the verdicts on so many frames**, in order, unknown ones
among them, and leave what stands behind. -/
theorem readings_frames (phase : Phase) (h : e.Flowing) {fs : List Frame} {tail : Bytes}
    (hpending : e.pending = Frame.image fs ++ tail) :
    ∃ e2, readings phase fs.length e = (fs.map Frame.verdict, e2) ∧
      e.Given (Frame.image fs) e2 := by
  induction fs generalizing e with
  | nil => exact ⟨e, rfl, .refl h⟩
  | cons f fs ih =>
      rw [Frame.image, List.flatMap_cons, List.append_assoc] at hpending
      obtain ⟨e2, hread, hgiven⟩ := read_frame phase h hpending
      have hpending2 : e2.pending = Frame.image fs ++ tail := hgiven.left hpending
      obtain ⟨e3, hreadings, hgiven2⟩ := ih hgiven.flowing hpending2
      refine ⟨e3, ?_, hgiven.trans hgiven2⟩
      simp only [List.length_cons, readings, hread, hreadings, List.map_cons]

/-- A party that reads nothing ahead does so however often it reads. -/
theorem readings_direct (phase : Phase) (n : Nat) (h : e.Direct) :
    (readings phase n e).2.Direct := by
  induction n generalizing e with
  | zero => exact h
  | succ n ih => exact ih (h.hold phase read)

end Command

/-- What reading a command comes to at an endpoint, and what has been taken then.  `command`:
it comes to a command exactly if the octets pending begin with its encoding, and `taken`:
that is what it takes.  `cut`: where a header or a body is cut short, reading fails for the
end of the stream.  `unknown`: a whole frame with another number is taken and refused.
`decided`: one of these is the case.  `aligned`: readings come to the verdicts on whole
frames one by one, whichever of them are known.  `direct`: a party that reads nothing ahead
leaves on the wire what it has not taken. -/
structure ReadAligned (phase : Phase) (e : Endpoint) : Prop where
  command : ∀ c, (∃ e2, Command.read.hold phase e = (.done c, e2)) ↔
    ∃ bs, c.encode = .ok bs ∧ bs <+: e.pending
  taken : ∀ c bs e2, Command.read.hold phase e = (.done c, e2) → c.encode = .ok bs →
    e.pending = bs ++ e2.pending
  cut : Command.Cut e.pending →
    ∃ e2, Command.read.hold phase e = (.failed (.network (.io phase .earlyEnd)), e2) ∧
      e2.pending = []
  unknown : ∀ (f : Frame) rest, f.Unknown → e.pending = f.octets ++ rest →
    ∃ e2, Command.read.hold phase e = (.failed (.protocol (.unknownCommand f.code)), e2) ∧
      e2.pending = rest
  decided : Command.Cut e.pending ∨
    ∃ (f : Frame) (rest : Bytes), e.pending = f.octets ++ rest ∧
      (f.Unknown ∨ ∃ c : Command, c.encode = .ok f.octets)
  aligned : ∀ (fs : List Frame) tail, e.pending = Frame.image fs ++ tail →
    ∃ e2, Command.readings phase fs.length e = (fs.map Frame.verdict, e2) ∧ e2.pending = tail
  direct : e.Direct → e.pending = e.wire.pending ∧
    (Command.read.hold phase e).2.pending = (Command.read.hold phase e).2.wire.pending ∧
    ∀ n, (Command.readings phase n e).2.pending = (Command.readings phase n e).2.wire.pending

/-- **Reading a command decides every stream and keeps to its frames.**  Whatever octets
come before the stream ends, and however they are cut, one reading of a command comes to
what `ReadAligned` says. -/
theorem read_aligned (phase : Phase) {e : Endpoint} (h : e.Flowing) : ReadAligned phase e := by
  refine ⟨?_, ?_, ?_, ?_, ?_, ?_, ?_⟩
  · intro c
    constructor
    · rintro ⟨e2, hread⟩
      obtain ⟨hshort, hpending⟩ := Command.read_done hread
      exact ⟨_, Command.encode_eq_ok_iff.mpr ⟨hshort, rfl⟩, e2.pending, hpending.symm⟩
    · rintro ⟨bs, hencode, rest, hpending⟩
      obtain ⟨hshort, rfl⟩ := Command.encode_eq_ok_iff.mp hencode
      obtain ⟨e2, hread, -⟩ := Command.read_frame phase h (f := c.frame hshort) hpending.symm
      exact ⟨e2, by rw [hread, Frame.verdict_frame]⟩
  · intro c bs e2 hread hencode
    obtain ⟨-, rfl⟩ := Command.encode_eq_ok_iff.mp hencode
    exact (Command.read_done hread).2
  · intro hcut
    obtain ⟨e2, hread, hgiven⟩ := Command.read_cut phase h hcut
    exact ⟨e2, hread, hgiven.left (List.append_nil _).symm⟩
  · intro f rest hunknown hpending
    obtain ⟨e2, hread, hgiven⟩ := Command.read_frame phase h hpending
    exact ⟨e2, by rw [hread, hunknown.verdict], hgiven.left hpending⟩
  · rcases Command.cut_or_frame e.pending with hcut | ⟨f, rest, hpending⟩
    · exact .inl hcut
    · refine .inr ⟨f, rest, hpending, ?_⟩
      rcases f.unknown_or_command with hunknown | ⟨c, hc⟩
      · exact .inl hunknown
      · obtain ⟨hshort, hoctets⟩ := Frame.octets_of_verdict hc
        exact .inr ⟨c, Command.encode_eq_ok_iff.mpr ⟨hshort, hoctets⟩⟩
  · intro fs tail hpending
    obtain ⟨e2, hreadings, hgiven⟩ := Command.readings_frames phase h hpending
    exact ⟨e2, hreadings, hgiven.left hpending⟩
  · intro hdirect
    refine ⟨hdirect.pending_eq, (hdirect.hold phase Command.read).pending_eq, ?_⟩
    intro n
    exact (Command.readings_direct phase n hdirect).pending_eq

/-- A party that is sent a frame with a number that no command has, a DONE, another unknown
frame, and one octet of a fourth, in pieces that keep to no boundary. -/
def amongStrangers : Endpoint :=
  .ofWire (.ofArrivals [.data [0xff], .pause 3, .data [0xff, 0, 1, 7, 0], .data [0, 0],
    .data [0, 0x10], .data [2, 0, 0, 9]]) (.fresh [])

/-- Three readings come to three verdicts, and the one octet is left. -/
theorem amongStrangers_aligned :
    ∃ e2, Command.readings .setup 3 amongStrangers =
        ([.failed (.protocol (.unknownCommand 0xffff)), .done ⟨.done, []⟩,
          .failed (.protocol (.unknownCommand 0x1002))], e2) ∧
      e2.wire.pending = [9] := by
  have hflowing : amongStrangers.Flowing := ⟨by simp [amongStrangers, Endpoint.ofWire,
    Wire.ofArrivals, Wire.Flowing], rfl, Nat.one_pos⟩
  have haligned := read_aligned .setup hflowing
  let fs : List Frame := [⟨0xffff, [7], by decide, by decide⟩, ⟨0, [], by decide, by decide⟩,
    ⟨0x1002, [], by decide, by decide⟩]
  obtain ⟨e2, hreadings, hleft⟩ := haligned.aligned fs [9] (by decide)
  have hdirect := (haligned.direct ⟨rfl, rfl⟩).2.2 fs.length
  rw [hreadings] at hdirect
  exact ⟨e2, hreadings, hdirect.symm.trans hleft⟩

end ManagedTransport
