import ManagedTransport.Proofs.Frames

/-!
# Commands one after the other

Commands that are written one after the other stand on the wire one behind the other, and
nothing marks where one ends but its own length.  Reading so many commands gives them back,
however the octets are cut, and leaves what stands behind them; and whatever commands are
read, theirs are the octets that were taken.

* `image` — what a list of commands is on the wire;
* `writeEach_taking`, `readEach_flowing` — writing puts the image on the wire, and reading
  it gives the commands;
* `readEach_done`, `image_inj` — what is read tells what was taken, so an image is the
  image of one list only;
* `framing_round_trip` — all of this, and what keeps a command from being written.
-/

namespace ManagedTransport

open Dialogue

namespace Command

/-- Writes commands, one after the other. -/
def writeEach : List Command → Dialogue Unit
  | [] => done ()
  | c :: cs => do
    c.write
    writeEach cs

/-- Reads so many commands, one after the other. -/
def readEach : Nat → Dialogue (List Command)
  | 0 => done []
  | n + 1 => do
    let c ← read
    let cs ← readEach n
    return c :: cs

/-- The octets of commands, one behind the other. -/
def image (cs : List Command) : Bytes := cs.flatMap octets

/-- Only a body that is too long keeps a command from being encoded, and the error tells
how long it is. -/
theorem encode_eq_error_iff {c : Command} {err : ProtocolError} :
    c.encode = .error err ↔ maxBody < c.body.length ∧ err = .commandTooLong c.body.length := by
  by_cases h : c.body.length ≤ maxBody
  · rw [encode, if_pos h]
    constructor
    · rintro ⟨⟩
    · rintro ⟨hlong, -⟩
      omega
  · rw [encode, if_neg h]
    constructor
    · rintro ⟨⟩
      exact ⟨Nat.lt_of_not_le h, rfl⟩
    · rintro ⟨-, rfl⟩
      rfl

variable {e e2 : Endpoint} {c : Command} {cs ds : List Command}

/-- **Commands that are written** are on the wire, and nothing else has changed. -/
theorem writeEach_taking (phase : Phase) (h : e.wire.Taking)
    (short : ∀ c ∈ cs, c.body.length ≤ maxBody) :
    (writeEach cs).hold phase e = (.done (), { e with wire := e.wire.push (image cs) }) := by
  induction cs generalizing e with
  | nil =>
      have hnil := Wire.write_taking h []
      rw [Wire.write, if_pos rfl] at hnil
      rw [writeEach, hold, image, List.flatMap_nil, ← (Prod.mk.inj hnil).2]
  | cons c cs ih =>
      have hc : c.body.length ≤ maxBody := short c List.mem_cons_self
      have hcs : ∀ d ∈ cs, d.body.length ≤ maxBody :=
        fun d hd => short d (List.mem_cons_of_mem c hd)
      have hpush := Wire.push_push e.wire c.octets (image cs)
      simp only [writeEach, bind_def, write_of_le hc, say, Dialogue.bind, hold,
        Wire.write_taking h]
      rw [ih (h.push c.octets) hcs, hpush, image, image, List.flatMap_cons]

/-- A command whose octets are pending is read from them. -/
theorem read_flowing (phase : Phase) {rest : Bytes} (h : e.Flowing)
    (short : c.body.length ≤ maxBody) (hpending : e.pending = c.octets ++ rest) :
    ∃ e2, read.hold phase e = (.done c, e2) ∧ e.Given c.octets e2 := by
  obtain ⟨e2, hread, hgiven⟩ := read_frame phase h (f := c.frame short) hpending
  rw [Frame.verdict_frame] at hread
  exact ⟨e2, hread, hgiven⟩

/-- **Commands whose octets are pending** are read from them, in order. -/
theorem readEach_flowing (phase : Phase) {tail : Bytes} (h : e.Flowing)
    (short : ∀ c ∈ cs, c.body.length ≤ maxBody) (hpending : e.pending = image cs ++ tail) :
    ∃ e2, (readEach cs.length).hold phase e = (.done cs, e2) ∧ e2.pending = tail := by
  induction cs generalizing e with
  | nil => exact ⟨e, rfl, hpending⟩
  | cons c cs ih =>
      have hc : c.body.length ≤ maxBody := short c List.mem_cons_self
      have hcs : ∀ d ∈ cs, d.body.length ≤ maxBody :=
        fun d hd => short d (List.mem_cons_of_mem c hd)
      rw [image, List.flatMap_cons, List.append_assoc] at hpending
      obtain ⟨e2, hread, hgiven⟩ := read_flowing phase h hc hpending
      have hpending2 : e2.pending = image cs ++ tail := hgiven.left hpending
      obtain ⟨e3, hreads, htail⟩ := ih hgiven.flowing hcs hpending2
      refine ⟨e3, ?_, htail⟩
      simp only [List.length_cons, readEach, bind_def, hold_bind, hread, hreads, pure_def, hold]

/-- **The octets of commands that were read** are those that were taken. -/
theorem readEach_done {phase : Phase} {n : Nat}
    (h : (readEach n).hold phase e = (.done cs, e2)) :
    cs.length = n ∧ (∀ c ∈ cs, c.body.length ≤ maxBody) ∧ e.pending = image cs ++ e2.pending := by
  induction n generalizing e cs with
  | zero =>
      cases h
      exact ⟨rfl, nofun, rfl⟩
  | succ n ih =>
      simp only [readEach, bind_def, hold_bind] at h
      rcases hread : read.hold phase e with ⟨c | err | _ | _, e3⟩ <;> simp only [hread] at h
      case done =>
        rcases hreads : (readEach n).hold phase e3 with ⟨ds | err | _ | _, e4⟩ <;>
          simp only [hreads] at h
        case done =>
          cases h
          obtain ⟨hshort, hpending⟩ := read_done hread
          obtain ⟨hlen, hshorts, hpending2⟩ := ih hreads
          refine ⟨congrArg Nat.succ hlen, ?_, ?_⟩
          · intro d hd
            rcases List.mem_cons.mp hd with rfl | hd
            · exact hshort
            · exact hshorts d hd
          · rw [hpending, hpending2, image, image, List.flatMap_cons, List.append_assoc]
        all_goals cases h
      all_goals cases h

/-- **An image is the image of one list of commands only.** -/
theorem image_inj (hcs : ∀ c ∈ cs, c.body.length ≤ maxBody)
    (hds : ∀ d ∈ ds, d.body.length ≤ maxBody) (h : image cs = image ds) : cs = ds := by
  have hcons : ∀ (c : Command) (xs : Bytes), [] ≠ c.octets ++ xs := by
    intro c xs hnil
    have hlen := congrArg List.length hnil
    rw [List.length_append, length_octets, List.length_nil] at hlen
    omega
  induction cs generalizing ds with
  | nil =>
      rcases ds with _ | ⟨d, ds⟩
      · rfl
      · exact absurd h (hcons d _)
  | cons c cs ih =>
      rcases ds with _ | ⟨d, ds⟩
      · exact absurd h.symm (hcons c _)
      · have hc := hcs c List.mem_cons_self
        have hd := hds d List.mem_cons_self
        obtain ⟨rfl, hrest⟩ := octets_append_inj hc hd h
        rw [ih (fun x hx => hcs x (List.mem_cons_of_mem c hx))
          (fun x hx => hds x (List.mem_cons_of_mem c hx)) hrest]

/-- **Framing.**  Commands that are written, each with a body that is not too long, are
their encodings on the wire, one behind the other.  Where these arrive, cut in whatever
way and with whatever behind them, so many commands are read, the same ones in the same
order, and what is behind them is left.  Whenever commands are read, from whatever wire,
the octets taken are their encodings; so no two lists of commands have the same image.
A body that is too long, and nothing else, keeps a command from being encoded, and then
writing it touches nothing. -/
theorem framing_round_trip (phase : Phase) :
    (∀ cs : List Command, (∀ c ∈ cs, c.body.length ≤ maxBody) →
      (∀ c ∈ cs, c.encode = .ok c.octets) ∧
      (∀ e : Endpoint, e.wire.Taking →
        (writeEach cs).hold phase e = (.done (), { e with wire := e.wire.push (image cs) }) ∧
          (e.wire.push (image cs)).sent = e.wire.sent ++ image cs) ∧
      ∀ (e : Endpoint) (tail : Bytes), e.Flowing → e.pending = image cs ++ tail →
        ∃ e2, (readEach cs.length).hold phase e = (.done cs, e2) ∧ e2.pending = tail ∧
          (e.Direct → e2.wire.pending = tail)) ∧
    (∀ n cs (e e2 : Endpoint), (readEach n).hold phase e = (.done cs, e2) →
      cs.length = n ∧ (∀ c ∈ cs, c.encode = .ok c.octets) ∧
        e.pending = image cs ++ e2.pending ∧
        (e.Direct → e.wire.pending = image cs ++ e2.wire.pending)) ∧
    (∀ cs ds : List Command, (∀ c ∈ cs, c.body.length ≤ maxBody) →
      (∀ d ∈ ds, d.body.length ≤ maxBody) → image cs = image ds → cs = ds) ∧
    (∀ (c : Command) err,
      c.encode = .error err ↔ maxBody < c.body.length ∧ err = .commandTooLong c.body.length) ∧
    ∀ (c : Command) (e : Endpoint), maxBody < c.body.length →
      c.write.hold phase e = (.failed (.protocol (.commandTooLong c.body.length)), e) := by
  have hencode : ∀ {c : Command}, c.body.length ≤ maxBody → c.encode = .ok c.octets :=
    fun short => encode_eq_ok_iff.mpr ⟨short, rfl⟩
  refine ⟨fun cs short => ⟨fun c hc => hencode (short c hc), ?_, ?_⟩, ?_, ?_, ?_, ?_⟩
  · intro e htaking
    exact ⟨writeEach_taking phase htaking short, Wire.sent_push _ _⟩
  · intro e tail hflowing hpending
    obtain ⟨e2, hreads, htail⟩ := readEach_flowing phase hflowing short hpending
    refine ⟨e2, hreads, htail, ?_⟩
    intro h
    have h2 := h.hold phase (readEach cs.length)
    rw [hreads] at h2
    rw [← h2.pending_eq, htail]
  · intro n cs e e2 hreads
    obtain ⟨hlen, short, hpending⟩ := readEach_done hreads
    refine ⟨hlen, fun c hc => hencode (short c hc), hpending, ?_⟩
    intro h
    have h2 := h.hold phase (readEach n)
    rw [hreads] at h2
    rw [← h.pending_eq, ← h2.pending_eq, hpending]
  · intro cs ds hcs hds
    exact image_inj hcs hds
  · intro c err
    exact encode_eq_error_iff
  · intro c e long
    rw [write_of_lt long]
    rfl

/-- Two commands, one of them without a body. -/
def twoCommands : List Command := [⟨.transport, [0x6f]⟩, ⟨.done, []⟩]

/-- A party that is sent two commands and one more octet, in pieces that keep to no
boundary, on a wire that takes one octet at a time. -/
def trickling : Endpoint :=
  .ofWire { Wire.ofArrivals [.data [0], .pause 5, .data [2, 0], .data [1, 0x6f, 0, 0, 0],
    .data [], .data [0, 7]] with atMost := some 1 } (.fresh [])

/-- The two commands go out and come in octet by octet; one with too long a body does not. -/
theorem trickling_framed :
    ((writeEach twoCommands).hold .setup trickling).2.wire.sent =
        [0, 2, 0, 1, 0x6f, 0, 0, 0, 0] ∧
      (∃ e2, (readEach 2).hold .setup trickling = (.done twoCommands, e2) ∧
        e2.wire.pending = [7]) ∧
      (Command.mk .okay (Bytes.zeros 65536)).write.hold .setup trickling =
        (.failed (.protocol (.commandTooLong 65536)), trickling) := by
  have hshort : ∀ c ∈ twoCommands, c.body.length ≤ maxBody := by decide
  have hflowing : trickling.Flowing := ⟨by simp [trickling, Endpoint.ofWire, Wire.ofArrivals,
    Wire.Flowing], rfl, Nat.one_pos⟩
  have hlong : (Bytes.zeros 65536).length = 65536 := List.length_replicate
  obtain ⟨hframes, -, -, -, hrefuses⟩ := framing_round_trip .setup
  obtain ⟨-, hwrites, hreads⟩ := hframes twoCommands hshort
  obtain ⟨hsends, hsent⟩ := hwrites trickling ⟨by decide, rfl, rfl⟩
  obtain ⟨e2, hread, -, hleft⟩ := hreads trickling [7] hflowing (by decide)
  refine ⟨?_, ⟨e2, hread, hleft ⟨rfl, rfl⟩⟩, ?_⟩
  · rw [hsends]
    exact hsent
  · have hwrite := hrefuses ⟨.okay, Bytes.zeros 65536⟩ trickling (by rw [hlong]; decide)
    rwa [hlong] at hwrite

end Command

end ManagedTransport
