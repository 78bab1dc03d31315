import ManagedTransport.Cookie

/-!
# What a cookie file is

A cookie file is the header and a secret, and nothing else is one.  What is wrong with anything
else is told by its length first, and by its header only where the length is right.  A file may
go on without end; a look at sixty-five octets of it tells as much as a look at all of it.

* `Cookie.Judged` — what there is to say of octets: whose cookie file they are, or what is wrong;
* `parse_eq_iff` — just this is said of them;
* `Cookie.judge` — what there is to say of a file by looking at all of it, and `judge_eq_front`
  — that a look at its front is enough;
* `Cookie.FileExact` — reading and writing undo each other, and nothing that is shorter than a
  cookie file, longer, or put together of several is one;
* `cookie_file_exact` — that this is so.
-/

namespace ManagedTransport.Cookie

/-- What there is to say of octets: they are the file of a cookie, or they are flawed. -/
inductive Judged (octets : Bytes) : Except CookieFlaw Cookie → Prop
  | cookie {c} (is : octets = c.file) : Judged octets (.ok c)
  | tooShort (short : octets.length < 64) : Judged octets (.error .tooShort)
  | tooLong (long : 64 < octets.length) : Judged octets (.error .tooLong)
  | noHeader (length : octets.length = 64) (other : ¬ header <+: octets) :
      Judged octets (.error .noHeader)

section

variable {octets : Bytes}

theorem header_prefix_iff : header <+: octets ↔ octets.take 32 = header := by
  rw [List.prefix_iff_eq_take, length_header]
  exact eq_comm

/-- What is said of octets is so. -/
theorem judged_parse (octets : Bytes) : Judged octets (parse octets) := by
  rcases hparse : parse octets with flaw | c
  · unfold parse at hparse
    split at hparse
    · next short =>
      cases hparse
      exact .tooShort short
    split at hparse
    · next length =>
      split at hparse
      · cases hparse
      · next other =>
        cases hparse
        exact .noHeader length (mt header_prefix_iff.mp other)
    · cases hparse
      exact .tooLong (by omega)
  · exact .cookie (parse_eq_ok_iff.mp hparse)

/-- **Octets are judged in one way**, and it is how they are read. -/
theorem parse_eq_iff {r : Except CookieFlaw Cookie} : parse octets = r ↔ Judged octets r := by
  constructor
  · intro h
    exact h ▸ judged_parse octets
  · intro h
    cases h with
    | cookie is => exact parse_eq_ok_iff.mpr is
    | tooShort short => exact if_pos short
    | tooLong long => rw [parse, if_neg (by omega), dif_neg (by omega)]
    | noHeader length other =>
        rw [parse, if_neg (by omega), dif_pos length, if_neg (mt header_prefix_iff.mpr other)]

theorem parse_eq_tooShort_iff : parse octets = .error .tooShort ↔ octets.length < 64 := by
  rw [parse_eq_iff]
  constructor
  · intro h
    cases h with
    | tooShort short => exact short
  · exact .tooShort

theorem parse_eq_tooLong_iff : parse octets = .error .tooLong ↔ 64 < octets.length := by
  rw [parse_eq_iff]
  constructor
  · intro h
    cases h with
    | tooLong long => exact long
  · exact .tooLong

theorem parse_eq_noHeader_iff :
    parse octets = .error .noHeader ↔ octets.length = 64 ∧ ¬ header <+: octets := by
  rw [parse_eq_iff]
  constructor
  · intro h
    cases h with
    | noHeader length other => exact ⟨length, other⟩
  · intro h
    exact .noHeader h.1 h.2

end

/-- What there is to say of a file by looking at all of it.  One without end is too long. -/
def judge : Contents → Except CookieFlaw Cookie
  | .finite octets => parse octets
  | .endless _ => .error .tooLong

/-- **A look at the front is enough**: one octet more than a cookie file has. -/
theorem judge_eq_front (contents : Contents) : judge contents = parse (contents.front 65) := by
  cases contents with
  | finite octets =>
      by_cases hall : octets.length ≤ 65
      · rw [Contents.front, List.take_of_length_le hall]
        rfl
      · have hlong : parse octets = .error .tooLong := parse_eq_tooLong_iff.mpr (by omega)
        have hfront : parse (octets.take 65) = .error .tooLong := by
          apply parse_eq_tooLong_iff.mpr
          rw [List.length_take]
          omega
        exact hlong.trans hfront.symm
  | endless octets =>
      have hfront : parse ((List.range 65).map octets) = .error .tooLong :=
        parse_eq_tooLong_iff.mpr (by simp)
      exact hfront.symm

/-- A file is loaded as what it is on the whole. -/
theorem load_eq_judge (path : String) (contents : Contents) :
    load path (.ok contents) =
      (judge contents).mapError fun flaw => .badCookie path flaw.message := by
  rw [judge_eq_front, load]
  rcases parse (contents.front 65) with flaw | c <;> rfl

/-- A part of a cookie file is too short to be one. -/
theorem parse_part {octets : Bytes} {c : Cookie} (hpart : octets <+: c.file)
    (hother : octets ≠ c.file) : parse octets = .error .tooShort := by
  apply parse_eq_tooShort_iff.mpr
  have hle := hpart.length_le
  rw [c.length_file] at hle
  have hne : octets.length ≠ 64 := by
    intro hlen
    apply hother
    exact hpart.eq_of_length (hlen.trans c.length_file.symm)
  omega

/-- A cookie file with something behind it is too long to be one. -/
theorem parse_extended {octets : Bytes} (c : Cookie) (hsome : octets ≠ []) :
    parse (c.file ++ octets) = .error .tooLong := by
  apply parse_eq_tooLong_iff.mpr
  have hpos : 0 < octets.length := List.length_pos_iff.mpr hsome
  rw [List.length_append, c.length_file]
  omega

theorem length_files (cs : List Cookie) : (cs.flatMap file).length = 64 * cs.length := by
  induction cs with
  | nil => rfl
  | cons c cs ih =>
      rw [List.flatMap_cons, List.length_append, c.length_file, ih, List.length_cons]
      omega

/-- Cookie files one behind the other are one only if there is just one. -/
theorem parse_files_eq_ok_iff {cs : List Cookie} {c : Cookie} :
    parse (cs.flatMap file) = .ok c ↔ cs = [c] := by
  constructor
  · intro h
    have hfiles := parse_eq_ok_iff.mp h
    have hlen := congrArg List.length hfiles
    rw [length_files, c.length_file] at hlen
    obtain ⟨c2, rfl⟩ := List.length_eq_one_iff.mp (show cs.length = 1 by omega)
    have hone : parse c2.file = .ok c2 := parse_eq_ok_iff.mpr rfl
    rw [List.flatMap_singleton, hone] at h
    rw [Except.ok.inj h]
  · intro h
    rw [h, List.flatMap_singleton]
    exact parse_eq_ok_iff.mpr rfl

/-- All about cookie files: how `contents` are loaded from `path`, how `octets` are read, and how
the file of `c` is written. -/
structure FileExact (path : String) (contents : Contents) (octets : Bytes) (c : Cookie) :
    Prop where
  /-- A file of any length, or without end, is loaded as what it is on the whole. -/
  load : load path (.ok contents) =
    (judge contents).mapError fun flaw => .badCookie path flaw.message
  /-- A cookie is read from its file, which is the header and its secret, and from nothing else. -/
  ok : parse octets = .ok c ↔ octets = header ++ c.secret
  /-- Anything shorter is refused for that, and anything longer for that. -/
  tooShort : parse octets = .error .tooShort ↔ octets.length < 64
  tooLong : parse octets = .error .tooLong ↔ 64 < octets.length
  /-- The header counts only where the length is right. -/
  noHeader : parse octets = .error .noHeader ↔ octets.length = 64 ∧ ¬ header <+: octets
  /-- What is written is read back. -/
  readBack : parse c.file = .ok c
  /-- What is read is written back. -/
  writtenBack : parse octets = .ok c → c.file = octets
  /-- A part of a cookie file is none. -/
  part : octets <+: c.file → octets ≠ c.file → parse octets = .error .tooShort
  /-- A cookie file with something behind it is none. -/
  extended : octets ≠ [] → parse (c.file ++ octets) = .error .tooLong
  /-- Several cookie files, or no file at all, are none. -/
  joined : ∀ cs : List Cookie, parse (cs.flatMap file) = .ok c ↔ cs = [c]

/-- **Cookie files are exact.** -/
theorem cookie_file_exact (path : String) (contents : Contents) (octets : Bytes) (c : Cookie) :
    FileExact path contents octets c where
  load := load_eq_judge path contents
  ok := parse_eq_ok_iff
  tooShort := parse_eq_tooShort_iff
  tooLong := parse_eq_tooLong_iff
  noHeader := parse_eq_noHeader_iff
  readBack := parse_eq_ok_iff.mpr rfl
  writtenBack := fun h => (parse_eq_ok_iff.mp h).symm
  part := parse_part
  extended := parse_extended c
  joined := fun _ => parse_files_eq_ok_iff

end ManagedTransport.Cookie
