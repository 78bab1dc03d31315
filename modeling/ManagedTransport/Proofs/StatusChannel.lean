import ManagedTransport.Proofs.Escaping
import ManagedTransport.Proofs.Telling
import ManagedTransport.Proofs.TextRoundTrip
import ManagedTransport.Text.Split

/-!
# Reading the status channel

Whoever reads what was told gets back every line with its arguments, whatever texts these are.
Lines end at newlines; the keyword goes up to the first blank and says how many arguments
follow; they are cut at blanks, and the last of them takes the rest of the line.  Blanks are not
escaped, so all arguments but the last must be without them; method names and versions of SOCKS
are, and messages come last.

* `StatusLine.readAll?` — the lines that octets are read as;
* `StatusLine.Legible` — a line of a known keyword, with as many arguments as it calls for;
* `StatusLine.readAll?_octets` — legible lines are read as they were written;
* `StatusCall` — all that a managed transport may have to tell;
* `channel_reads_back` — it is told apart by the octets alone.
-/

namespace ManagedTransport

open Text

namespace StatusLine

/-- How many arguments a keyword calls for. -/
def argCount? : String → Option Nat
  | "VERSION" | "ENV-ERROR" | "VERSION-ERROR" | "CMETHODS" | "SMETHODS" => some 1
  | "CMETHOD-ERROR" | "SMETHOD" | "SMETHOD-ERROR" => some 2
  | "CMETHOD" => some 3
  | _ => none

/-- So many pieces of a text, cut at its first blanks; the last piece is the rest. -/
def cutInto? : Nat → List Char → Option (List (List Char))
  | 0, _ => none
  | 1, cs => some [cs]
  | n + 2, cs => do
    let (piece, rest) ← cutFirst? ' ' cs
    return piece :: (← cutInto? (n + 1) rest)

/-- The line that a text without its newline is read as. -/
def read? (cs : List Char) : Option StatusLine := do
  let (keyword, rest) ← cutFirst? ' ' cs
  let count ← argCount? (String.ofList keyword)
  let pieces ← cutInto? count rest
  return ⟨String.ofList keyword, pieces.map fun piece => lossy (unescape piece)⟩

/-- The lines that pieces are read as, if nothing stands behind the last newline. -/
def readEach? : List Bytes → Option (List StatusLine)
  | [] => none
  | [rest] => if rest = [] then some [] else none
  | line :: lines => do
    return (← read? (lossy line).toList) :: (← readEach? lines)

/-- The lines that octets are read as. -/
def readAll? (out : Bytes) : Option (List StatusLine) := readEach? (out.splitOn 10)

/-- The keyword is known and has its arguments, of which only the last may hold blanks. -/
structure Legible (l : StatusLine) : Prop where
  counted : argCount? l.keyword = some l.args.length
  free : ∀ arg ∈ l.args.dropLast, ' ' ∉ arg.toList

/-- Every argument stands escaped behind a blank. -/
theorem toList_text (l : StatusLine) :
    l.text.toList =
      l.keyword.toList ++ (l.args.map fun arg => (escape arg).toList).flatMap (' ' :: ·) := by
  have hfold : ∀ (args : List String) (line : String),
      (args.foldl (fun line arg => line ++ " " ++ escape arg) line).toList =
        line.toList ++ (args.map fun arg => (escape arg).toList).flatMap (' ' :: ·) := by
    intro args
    induction args with
    | nil => intro line; simp
    | cons arg args ih => intro line; simp [ih]
  exact hfold l.args l.keyword

/-- A keyword that is known calls for an argument, and holds no blank. -/
theorem keyword_of_argCount? {keyword : String} {n : Nat} (h : argCount? keyword = some n) :
    0 < n ∧ ' ' ∉ keyword.toList ∧ ∀ c ∈ keyword.toList, Harmless c := by
  have hall : 0 < n ∧ ' ' ∉ keyword.toList ∧ keyword.toList.all fun c => decide (Harmless c) := by
    unfold argCount? at h
    split at h <;> cases h <;> decide
  obtain ⟨hpos, hblank, hharmless⟩ := hall
  refine ⟨hpos, hblank, ?_⟩
  intro c hc
  exact of_decide_eq_true (List.all_eq_true.mp hharmless c hc)

/-- Pieces that stand behind blanks are cut apart, if all but the last are without. -/
theorem cutInto?_pieces (p : List Char) (ps : List (List Char))
    (free : ∀ q ∈ (p :: ps).dropLast, ' ' ∉ q) :
    cutInto? (ps.length + 1) (p ++ ps.flatMap (' ' :: ·)) = some (p :: ps) := by
  induction ps generalizing p with
  | nil => simp [cutInto?]
  | cons q qs ih =>
      have hp : ' ' ∉ p := free p (by simp)
      have hqs : ∀ r ∈ (q :: qs).dropLast, ' ' ∉ r := by
        intro r hr
        apply free
        rw [List.dropLast_cons_of_ne_nil (List.cons_ne_nil q qs)]
        exact List.mem_cons_of_mem p hr
      simp [cutInto?, cutFirst?_append hp, ih q hqs]

namespace Legible

variable {l : StatusLine}

/-- A legible line has an argument. -/
theorem exists_args (h : l.Legible) : ∃ arg args, l.args = arg :: args := by
  have hpos := (keyword_of_argCount? h.counted).1
  exact List.exists_cons_of_length_pos hpos

/-- Its arguments are cut apart, and each is read as it was before it was escaped. -/
theorem cutInto?_args (h : l.Legible) :
    ∃ piece pieces, (l.args.map fun arg => (escape arg).toList) = piece :: pieces ∧
      cutInto? l.args.length (piece ++ pieces.flatMap (' ' :: ·)) = some (piece :: pieces) ∧
      ((piece :: pieces).map fun piece => lossy (unescape piece)) = l.args := by
  have hfree := h.free
  obtain ⟨arg, args, hargs⟩ := h.exists_args
  have hback : (fun piece => lossy (unescape piece)) ∘ (fun arg => (escape arg).toList) = id := by
    funext arg2
    simp [unescape_escape, lossy_utf8]
  refine ⟨_, _, congrArg (List.map _) hargs, ?_, ?_⟩
  · have hpieces : ∀ q ∈ ((arg :: args).map fun arg => (escape arg).toList).dropLast,
        ' ' ∉ q := by
      intro q hq
      rw [← List.map_dropLast, ← hargs] at hq
      obtain ⟨arg2, hmem, rfl⟩ := List.mem_map.mp hq
      exact blank_not_mem_escape (hfree arg2 hmem)
    have hcut := cutInto?_pieces _ _ hpieces
    rw [List.length_map] at hcut
    rw [hargs]
    exact hcut
  · rw [← List.map_cons (f := fun arg => (escape arg).toList), List.map_map, hback, hargs,
      List.map_id]

/-- **A legible line is read as it was written.** -/
theorem read?_text (h : l.Legible) : read? l.text.toList = some l := by
  obtain ⟨-, hblank, -⟩ := keyword_of_argCount? h.counted
  obtain ⟨piece, pieces, hargs, hcut, hback⟩ := h.cutInto?_args
  have hcount := h.counted
  rw [toList_text, hargs, List.flatMap_cons, List.cons_append, read?, cutFirst?_append hblank]
  simp only [Option.bind_eq_bind, Option.bind_some, String.ofList_toList, hcount, hcut, hback]
  rfl

/-- A legible line is harmless. -/
theorem harmless (h : l.Legible) : ∀ c ∈ l.text.toList, Harmless c := by
  intro c hc
  rw [toList_text] at hc
  rcases List.mem_append.mp hc with hkeyword | harg
  · exact (keyword_of_argCount? h.counted).2.2 c hkeyword
  · obtain ⟨piece, hpiece, hc2⟩ := List.mem_flatMap.mp harg
    obtain ⟨arg, -, rfl⟩ := List.mem_map.mp hpiece
    rcases List.mem_cons.mp hc2 with rfl | hescaped
    · decide
    · exact harmless_of_mem_escape hescaped

/-- The octets of a legible line are below 128, and none of them is zero or a newline. -/
theorem octets_range (h : l.Legible) {b : UInt8} (hb : b ∈ utf8 l.text) :
    1 ≤ b.toNat ∧ b.toNat ≤ 127 ∧ b ≠ 10 := by
  obtain ⟨c, hc, hoctet⟩ := List.mem_flatMap.mp hb
  obtain ⟨hlow, hhigh, hne⟩ := h.harmless c hc
  rw [utf8EncodeChar_ascii hhigh, List.mem_singleton] at hoctet
  have hnat : b.toNat = c.toNat := by
    rw [hoctet, UInt8.toNat_ofNat']
    omega
  refine ⟨by omega, by omega, ?_⟩
  intro hten
  apply hne
  rw [← Char.ofNat_toNat c, ← hnat, hten]
  rfl

end Legible

section

variable {ls : List StatusLine}

/-- Newlines divide legible lines, and nothing is left behind the last. -/
theorem splitOn_octets (legible : ∀ l ∈ ls, l.Legible) :
    (ls.flatMap octets).splitOn 10 = ls.map (fun l => utf8 l.text) ++ [[]] := by
  induction ls with
  | nil => rfl
  | cons l ls ih =>
      have hnewline : (10 : UInt8) ∉ utf8 l.text := by
        intro hmem
        exact ((legible l List.mem_cons_self).octets_range hmem).2.2 rfl
      have hrest := ih fun l2 hl2 => legible l2 (List.mem_cons_of_mem l hl2)
      rw [List.flatMap_cons, octets, List.append_assoc, List.singleton_append,
        List.splitOn_append_cons_self_of_not_mem hnewline, hrest]
      rfl

theorem readEach?_texts (legible : ∀ l ∈ ls, l.Legible) :
    readEach? (ls.map (fun l => utf8 l.text) ++ [[]]) = some ls := by
  induction ls with
  | nil => rfl
  | cons l ls ih =>
      have hfirst := (legible l List.mem_cons_self).read?_text
      have hrest := ih fun l2 hl2 => legible l2 (List.mem_cons_of_mem l hl2)
      rw [List.map_cons, List.cons_append, readEach?]
      · simp [lossy_utf8, hfirst, hrest]
      · simp

/-- **Legible lines are read as they were written.** -/
theorem readAll?_octets (legible : ∀ l ∈ ls, l.Legible) :
    readAll? (ls.flatMap octets) = some ls := by
  rw [readAll?, splitOn_octets legible, readEach?_texts legible]

/-- The octets of legible lines are all from 1 to 127. -/
theorem range_of_mem_octets (legible : ∀ l ∈ ls, l.Legible) {b : UInt8}
    (hb : b ∈ ls.flatMap octets) : 1 ≤ b.toNat ∧ b.toNat ≤ 127 := by
  obtain ⟨l, hl, hmem⟩ := List.mem_flatMap.mp hb
  rcases List.mem_append.mp hmem with htext | hnewline
  · obtain ⟨hlow, hhigh, -⟩ := (legible l hl).octets_range htext
    exact ⟨hlow, hhigh⟩
  · obtain rfl := List.mem_singleton.mp hnewline
    decide

end

end StatusLine

/-- All that a managed transport may have to tell. -/
inductive StatusCall where
  | version (v : String)
  | envError (words : String)
  | versionError (words : String)
  | clientMethod (name socks : String) (place : Address)
  | clientMethodError (name words : String)
  | clientMethodsDone
  | serverMethod (name : String) (place : Address)
  | serverMethodError (name words : String)
  | serverMethodsDone
  | configError (e : ConfigError)

namespace StatusCall

/-- The line that tells it. -/
def line : StatusCall → StatusLine
  | version v => .version v
  | envError words => .envError words
  | versionError words => .versionError words
  | clientMethod name socks place => .clientMethod name socks place
  | clientMethodError name words => .clientMethodError name words
  | clientMethodsDone => .clientMethodsDone
  | serverMethod name place => .serverMethod name place
  | serverMethodError name words => .serverMethodError name words
  | serverMethodsDone => .serverMethodsDone
  | configError e => .ofConfigError e

/-- The names of methods and of versions of SOCKS that are in it. -/
def names : StatusCall → List String
  | clientMethod name socks _ => [name, socks]
  | clientMethodError name _ | serverMethod name _ | serverMethodError name _ => [name]
  | _ => []

/-- The names have no blanks.  Nothing is asked of versions and messages. -/
def Proper (c : StatusCall) : Prop := ∀ name ∈ c.names, ' ' ∉ name.toList

instance (c : StatusCall) : Decidable c.Proper := inferInstanceAs (Decidable (∀ _ ∈ _, _))

/-- What is told is legible. -/
theorem Proper.legible {c : StatusCall} (h : c.Proper) : c.line.Legible := by
  cases c with
  | version | envError | versionError | clientMethodsDone | serverMethodsDone =>
      exact ⟨rfl, by simp [line, StatusLine.version, StatusLine.envError, StatusLine.versionError,
        StatusLine.clientMethodsDone, StatusLine.serverMethodsDone]⟩
  | clientMethod | clientMethodError | serverMethod | serverMethodError => exact ⟨rfl, h⟩
  | configError e => cases e <;> exact ⟨rfl, by simp [line, StatusLine.ofConfigError,
      StatusLine.envError, StatusLine.versionError]⟩

/-- The octets that a sink which takes everything holds once these calls are made. -/
def told (calls : List StatusCall) : Bytes := (Sink.unbounded.tellAll (calls.map line)).held

/-- What becomes of calls that are made to a sink which takes everything. -/
structure ReadsBack (calls : List StatusCall) : Prop where
  /-- Each of them succeeds. -/
  taken : ∀ before c after, calls = before ++ c :: after →
    ((Sink.unbounded.tellAll (before.map line)).line c.line).1 = .ok ()
  /-- The octets told are from 1 to 127. -/
  range : ∀ b ∈ told calls, 1 ≤ b.toNat ∧ b.toNat ≤ 127
  /-- Newlines divide them into one line for each call, in order. -/
  lines : (told calls).splitOn 10 = calls.map (fun c => utf8 c.line.text) ++ [[]]
  /-- They are read as the keywords and arguments that were told. -/
  read : StatusLine.readAll? (told calls) = some (calls.map line)
  /-- No other keywords and arguments give the same octets. -/
  apart : ∀ others : List StatusCall, (∀ c ∈ others, c.Proper) → told others = told calls →
    others.map line = calls.map line

section

variable {calls : List StatusCall} (proper : ∀ c ∈ calls, c.Proper)
include proper

theorem legible_lines : ∀ l ∈ calls.map line, l.Legible := by
  intro l hl
  obtain ⟨c, hc, rfl⟩ := List.mem_map.mp hl
  exact (proper c hc).legible

theorem readAll?_told : StatusLine.readAll? (told calls) = some (calls.map line) := by
  rw [told, Sink.held_tellAll_unbounded, StatusLine.readAll?_octets (legible_lines proper)]

end

/-- **The status channel is read back.**  Whatever versions and messages are told, and whatever
names without blanks, the octets alone give back every keyword and every argument, in order. -/
theorem channel_reads_back (calls : List StatusCall) (proper : ∀ c ∈ calls, c.Proper) :
    ReadsBack calls := by
  have legible := legible_lines proper
  have htold : told calls = (calls.map line).flatMap StatusLine.octets :=
    Sink.held_tellAll_unbounded (calls.map line)
  refine ⟨?_, ?_, ?_, readAll?_told proper, ?_⟩
  · intro before c after _
    exact Sink.line_unbounded _ _
  · intro b hb
    rw [htold] at hb
    exact StatusLine.range_of_mem_octets legible hb
  · rw [htold, StatusLine.splitOn_octets legible, List.map_map]
    rfl
  · intro others properOthers hsame
    have hread := readAll?_told properOthers
    rw [hsame, readAll?_told proper] at hread
    exact (Option.some.inj hread).symm

/-- Calls whose texts hold newlines, a NUL, backslashes, blanks and what looks like a line. -/
def unruly : List StatusCall :=
  [.version "1\nVERSION 2", .clientMethod "o\\n4" "socks5" (.v4 ⟨127, 0, 0, 1⟩ 1080),
    .serverMethodError "mé" "gone\x00 SMETHODS DONE", .configError (.missingVariable "A B")]

/-- What looks like a line inside a text is not read as one. -/
theorem unruly_reads_back :
    (∀ c ∈ unruly, c.Proper) ∧ StatusLine.readAll? (told unruly) = some (unruly.map line) ∧
      ((told unruly).splitOn 10).length = 5 := by
  have proper : ∀ c ∈ unruly, c.Proper := by decide
  have hback := channel_reads_back unruly proper
  refine ⟨proper, hback.read, ?_⟩
  rw [hback.lines]
  rfl

end StatusCall

end ManagedTransport
