import Mathlib.Data.List.Basic
import ManagedTransport.Proofs.Course
import ManagedTransport.Proofs.SetupSide
import ManagedTransport.Proofs.TextRoundTrip

/-!
# Where a relay can be once it has authenticated

A relay reads one command after the other, up to DONE, and answers.  `Told` says
what octets make it hear what, `ServingAt` lists the moments, and
`listening_keeps` and `answering_keeps` say that there are no others.

The octets of a command tell where it ends, so there is one way only to read
them; `told_of_announcement` says what comes of those that a client sends.
-/

namespace ManagedTransport

open Dialogue

namespace CommandId

theorem code_of_ofCode? {code : Nat} {id : CommandId} (h : ofCode? code = some id) :
    id.code = code := by
  fun_cases ofCode? code
  case case6 h0 h1 h2 h3 h4 => simp [ofCode?] at h
  all_goals
    cases h
    rfl

/-- A number that is known is the command's own. -/
theorem code_of_ofCode {code : Nat} {id : CommandId} (h : ofCode code = .ok id) :
    id.code = code := by
  rcases hid : ofCode? code with _ | id2
  · simp only [ofCode, hid] at h
    cases h
  · simp only [ofCode, hid] at h
    cases h
    exact code_of_ofCode? hid

theorem ofCode_code (id : CommandId) : ofCode id.code = .ok id := by
  rw [ofCode, ofCode?_code]

end CommandId

namespace Command

theorem headerLength_lt (header : Bytes) : headerLength header < 65536 := Bytes.word_lt _ _

/-- A header is its two numbers. -/
theorem ofWord_header {header : Bytes} (four : header.length = 4) :
    Bytes.ofWord (headerCode header) ++ Bytes.ofWord (headerLength header) = header := by
  obtain ⟨a, b, c, d, rfl⟩ := List.length_eq_four.mp four
  change Bytes.ofWord (Bytes.word a b) ++ Bytes.ofWord (Bytes.word c d) = _
  rw [Bytes.ofWord_word, Bytes.ofWord_word]
  rfl

/-- A header and a body that were read are the octets of the command. -/
theorem octets_of_read {header body : Bytes} {id : CommandId} (four : header.length = 4)
    (whole : body.length = headerLength header)
    (known : CommandId.ofCode (headerCode header) = .ok id) :
    (Command.mk id body).octets = header ++ body := by
  rw [octets, CommandId.code_of_ofCode known, whole, ofWord_header four]

/-- A header that begins the octets of a command is the command's. -/
theorem header_of_octets {c : Command} {header xs ys : Bytes} (short : c.body.length ≤ maxBody)
    (four : header.length = 4) (h : c.octets ++ xs = header ++ ys) :
    headerCode header = c.id.code ∧ headerLength header = c.body.length ∧ c.body ++ xs = ys := by
  have hcode := c.id.code_lt
  have hlen : c.body.length < 65536 := Nat.lt_succ_of_le short
  rw [octets, List.append_assoc] at h
  obtain ⟨rfl, hrest⟩ := List.append_inj h (by simp [four])
  refine ⟨?_, ?_, hrest⟩
  · exact Bytes.word_ofWord hcode
  · exact Bytes.word_ofWord hlen

/-- **The octets of a command tell where it ends.** -/
theorem octets_append_inj {c d : Command} {xs ys : Bytes} (hc : c.body.length ≤ maxBody)
    (hd : d.body.length ≤ maxBody) (h : c.octets ++ xs = d.octets ++ ys) : c = d ∧ xs = ys := by
  have hsplit : d.octets ++ ys =
      (Bytes.ofWord d.id.code ++ Bytes.ofWord d.body.length) ++ (d.body ++ ys) := by
    simp only [octets, List.append_assoc]
  rw [hsplit] at h
  obtain ⟨hcode, hlen, hrest⟩ := header_of_octets hc (by simp) h
  obtain ⟨hcode2, hlen2, -⟩ := header_of_octets hd (by simp) hsplit
  have hid : c.id = d.id := by
    have hsame := CommandId.ofCode_code c.id
    rw [← hcode, hcode2, CommandId.ofCode_code] at hsame
    exact (Except.ok.inj hsame).symm
  obtain ⟨hbody, hxs⟩ := List.append_inj hrest (by rw [← hlen, hlen2])
  refine ⟨?_, hxs⟩
  cases c
  cases d
  simp_all

end Command

namespace Announced

/-- Hearing these octets, from the end of authentication on, a relay has come to
listen having heard so much. -/
inductive Told : Bytes → Announced → Prop
  | nothing : Told [] .nothing
  | more {bs a c a2} (told : Told bs a) (short : c.body.length ≤ Command.maxBody)
      (hears : a.hear c = .more a2) : Told (bs ++ c.octets) a2

/-- Hearing these octets a relay has come to answer, having heard so much. -/
inductive ToldAll : Bytes → Announced → Prop
  | done {bs a c} (told : Told bs a) (short : c.body.length ≤ Command.maxBody)
      (hears : a.hear c = .complete a) : ToldAll (bs ++ c.octets) a

end Announced

/-- The moments of a relay that listens and answers.  `more` is what was heard of
a command that is not there yet. -/
inductive ServingAt (accept : Bool) : Moment (Next RelayCall Announced) → Account → Prop
  | inHeader {bs more a s l} (told : Announced.Told bs a) (short : more.length < 4) :
      ServingAt accept .waits ⟨bs ++ more, [], [], s, l⟩
  | inBody {bs header more a s l} (told : Announced.Told bs a) (four : header.length = 4)
      (short : more.length < Command.headerLength header) :
      ServingAt accept .waits ⟨bs ++ (header ++ more), [], [], s, l⟩
  | unknown {bs header body a e s l} (told : Announced.Told bs a) (four : header.length = 4)
      (other : CommandId.ofCode (Command.headerCode header) = .error e) :
      ServingAt accept (.gaveUp (.protocol e)) ⟨bs ++ (header ++ body), [], [], s, l⟩
  | breach {bs a c e s l} (told : Announced.Told bs a) (short : c.body.length ≤ Command.maxBody)
      (hears : a.hear c = .breach e) :
      ServingAt accept (.gaveUp (.protocol e)) ⟨bs ++ c.octets, [], [], s, l⟩
  | heard {bs a s l} (told : Announced.Told bs a) :
      ServingAt accept (.done (.stage (.listening a))) ⟨bs, [], [], s, l⟩
  | complete {bs a s l} (told : Announced.ToldAll bs a) :
      ServingAt accept (.done (.stage (.answering a))) ⟨bs, [], [], s, l⟩
  | answering {bs a p s l} (told : Announced.ToldAll bs a) (part : p <+: (verdict accept).octets) :
      ServingAt accept .writes ⟨bs, p, [], s, l⟩
  | answered {bs a s l} (told : Announced.ToldAll bs a) :
      ServingAt accept (.done (.ended a)) ⟨bs, (verdict accept).octets, [], s, l⟩

theorem Announced.hear_complete {a a2 : Announced} {c : Command} (h : a.hear c = .complete a2) :
    a2 = a := by
  unfold Announced.hear at h
  split at h <;> cases h
  rfl

theorem Announced.id_of_complete {a a2 : Announced} {c : Command}
    (h : a.hear c = .complete a2) : c.id = .done := by
  unfold Announced.hear at h
  split at h <;> cases h
  assumption

/-- A relay that listens is where `ServingAt` says. -/
theorem listening_keeps (accept : Bool) {bs : Bytes} {a : Announced} (told : Announced.Told bs a)
    (s : AuthStep) (l : Option Nat) :
    Keeps (ServingAt accept) (Command.read.bind a.after) ⟨bs, [], [], s, l⟩ := by
  refine keeps_bind (Command.read_keeps ?_ ?_ ?_ ?_)
  · intro more short
    exact .inHeader told short
  · intro header more four short
    exact .inBody told four short
  · intro header body id four whole known
    have hshort : body.length ≤ Command.maxBody :=
      Nat.le_of_lt_succ (whole ▸ Command.headerLength_lt header)
    have hoctets := Command.octets_of_read four whole known
    simp only [Account.hear, ← hoctets, Announced.after]
    rcases hhear : a.hear ⟨id, body⟩ with a2 | a2 | e
    · exact .heard (.more told hshort hhear)
    · obtain rfl := Announced.hear_complete hhear
      exact .complete (.done told hshort hhear)
    · exact .breach told hshort hhear
  · intro header body e four whole other
    exact .unknown told four other

/-- A relay that answers is where `ServingAt` says. -/
theorem answering_keeps {accept : Bool} {bs : Bytes} {a : Announced}
    (told : Announced.ToldAll bs a) (s : AuthStep) (l : Option Nat) :
    Keeps (ServingAt accept) ((giveVerdict accept).bind fun _ => .done (.ended a))
      ⟨bs, [], [], s, l⟩ := by
  have hshort : (verdict accept).body.length ≤ Command.maxBody := Nat.zero_le _
  simp only [giveVerdict, Command.write_of_le hshort, say, push, bind_def, Dialogue.bind, Keeps,
    Account.say, List.nil_append]
  exact ⟨fun p hp => .answering told hp, .answering told (List.prefix_refl _), .answered told⟩

/-- A relay that has heard nothing has said nothing. -/
theorem ServingAt.said_nothing {accept : Bool} {m : Moment (Next RelayCall Announced)}
    {h : Account} (hat : ServingAt accept m h) (hheard : h.heard = []) : h.said = [] := by
  have htoldAll : ∀ {bs a}, Announced.ToldAll bs a → bs ≠ [] := by
    rintro bs a ⟨told, short, hears⟩ hnil
    have hlen := congrArg List.length hnil
    rw [List.length_append, Command.length_octets, List.length_nil] at hlen
    omega
  cases hat with
  | inHeader | inBody | unknown | breach | heard | complete => rfl
  | answering told | answered told => exact absurd hheard (htoldAll told)

/-! ## Listening to a client -/

namespace SessionInfo

/-- What a relay has heard once everything is announced. -/
def announced (info : SessionInfo) : Announced := ⟨some info.userAddr.text, some info.method⟩

/-- What a relay has heard of a client's announcement, if that is how far it has
listened: nothing, the first command, or the first two. -/
theorem told_of_announcement {info : SessionInfo} (fits : info.Fits) {bs rest : Bytes}
    {a : Announced} (told : Announced.Told bs a) (h : bs ++ rest = info.announcement) :
    (bs = [] ∧ a = .nothing ∧
      rest = info.origin.octets ++ (info.carrier.octets ++ finish.octets)) ∨
    (bs = info.origin.octets ∧ a = ⟨some info.userAddr.text, none⟩ ∧
      rest = info.carrier.octets ++ finish.octets) ∨
    (bs = info.origin.octets ++ info.carrier.octets ∧ a = info.announced ∧
      rest = finish.octets) := by
  have hfinish : finish.body.length ≤ Command.maxBody := Nat.zero_le _
  induction told generalizing rest with
  | nothing =>
      rw [announcement, if_pos fits] at h
      exact .inl ⟨rfl, rfl, h⟩
  | @more bs a c a2 told short hears ih =>
      rw [List.append_assoc] at h
      rcases ih h with ⟨rfl, rfl, hrest⟩ | ⟨rfl, rfl, hrest⟩ | ⟨rfl, rfl, hrest⟩
      · obtain ⟨rfl, rfl⟩ := Command.octets_append_inj short info.origin_fits hrest
        simp only [Announced.hear, origin, Announced.nothing, Text.lossy_utf8] at hears
        cases hears
        exact .inr (.inl ⟨rfl, rfl, rfl⟩)
      · have hcarrier : info.carrier.body.length ≤ Command.maxBody := fits
        obtain ⟨rfl, rfl⟩ := Command.octets_append_inj short hcarrier hrest
        simp only [Announced.hear, carrier, Text.lossy_utf8] at hears
        cases hears
        exact .inr (.inr ⟨rfl, rfl, rfl⟩)
      · rw [← List.append_nil finish.octets] at hrest
        obtain ⟨rfl, rfl⟩ := Command.octets_append_inj short hfinish hrest
        simp only [Announced.hear, finish] at hears
        cases hears

/-- A command that the client announces comes next. -/
theorem next_of_told {info : SessionInfo} (fits : info.Fits) {bs rest : Bytes}
    {a : Announced} (told : Announced.Told bs a) (h : bs ++ rest = info.announcement) :
    ∃ c more, c.body.length ≤ Command.maxBody ∧ rest = c.octets ++ more ∧
      (c.id = .done → c = finish ∧ more = [] ∧ a = info.announced) ∧
      ∀ e, a.hear c ≠ .breach e := by
  rcases told_of_announcement fits told h with ⟨-, -, hrest⟩ | ⟨-, -, hrest⟩ | ⟨-, ha, hrest⟩
  · refine ⟨info.origin, _, info.origin_fits, hrest, by rintro ⟨⟩, ?_⟩
    intro e
    simp [Announced.hear, origin]
  · refine ⟨info.carrier, _, fits, hrest, by rintro ⟨⟩, ?_⟩
    intro e
    simp [Announced.hear, carrier]
  · refine ⟨finish, [], Nat.zero_le _, by simpa using hrest, fun _ => ⟨rfl, rfl, ha⟩, ?_⟩
    intro e
    simp [Announced.hear, finish]

end SessionInfo

/-- **A relay that is told what a client announces**, and nothing else, does not
give up; as long as it waits, not all of the announcement is there; and once it
has answered, it has heard all of it. -/
theorem ServingAt.of_announcement {accept : Bool} {info : SessionInfo} (fits : info.Fits)
    {m : Moment (Next RelayCall Announced)} {h : Account} {more : Bytes}
    (hat : ServingAt accept m h) (hheard : h.heard ++ more = info.announcement) :
    match m with
    | .waits => more ≠ []
    | .gaveUp _ => False
    | .done (.ended a) => a = info.announced ∧ more = [] ∧ h.said = (verdict accept).octets
    | _ => True := by
  cases hat with
  | @inHeader bs start a s l told short =>
      rintro rfl
      rw [List.append_nil] at hheard
      obtain ⟨c, xs, -, hrest, -⟩ := SessionInfo.next_of_told fits told hheard
      have hlen := congrArg List.length hrest
      simp only [List.length_append, Command.length_octets] at hlen
      omega
  | @inBody bs header start a s l told four short =>
      rintro rfl
      rw [List.append_nil] at hheard
      obtain ⟨c, xs, short2, hrest, -⟩ := SessionInfo.next_of_told fits told hheard
      obtain ⟨-, hlength, hbody⟩ := Command.header_of_octets short2 four hrest.symm
      have hlen := congrArg List.length hbody
      rw [List.length_append] at hlen
      omega
  | @unknown bs header body a e s l told four other =>
      simp only [List.append_assoc] at hheard
      obtain ⟨c, xs, short2, hrest, -⟩ := SessionInfo.next_of_told fits told hheard
      obtain ⟨hcode, -⟩ := Command.header_of_octets short2 four hrest.symm
      rw [hcode, CommandId.ofCode_code] at other
      cases other
  | @breach bs a c e s l told short hears =>
      rw [List.append_assoc] at hheard
      obtain ⟨c2, xs, short2, hrest, -, hno⟩ := SessionInfo.next_of_told fits told hheard
      obtain ⟨rfl, -⟩ := Command.octets_append_inj short short2 hrest
      exact absurd hears (hno e)
  | heard | complete | answering => trivial
  | @answered bs a s l told =>
      cases told with
      | @done bs a c told short hears =>
          rw [List.append_assoc] at hheard
          obtain ⟨c2, xs, short2, hrest, hlast, -⟩ := SessionInfo.next_of_told fits told hheard
          obtain ⟨rfl, rfl⟩ := Command.octets_append_inj short short2 hrest
          obtain ⟨-, hnil, ha⟩ := hlast (Announced.id_of_complete hears)
          exact ⟨ha, hnil, rfl⟩

end ManagedTransport
