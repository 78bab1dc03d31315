import ManagedTransport.Proofs.Escaping
import Mathlib.Data.List.Basic

/-!
# Which texts are escaped

A text falls into symbols from its beginning: escapes, and characters that begin none.  An escaped
text is one of which each symbol is what its octet is written as, and of which the octets are those
of a text.  There is one way only to write an octet, so no two texts are escaped alike.

* `symbols` — what a text is read as;
* `unescape_eq_map`, `flatMap_text_symbols` — the octets and the characters of its symbols;
* `WellEscaped`, `exists_escape_iff` — the texts that come of escaping;
* `escape_reversible` — all that escaping keeps.
-/

namespace ManagedTransport.Text

/-- The symbols of a text, from its beginning. -/
def symbols : List Char → List Symbol
  | '\\' :: 'n' :: cs => .newline :: symbols cs
  | '\\' :: '\\' :: cs => .backslash :: symbols cs
  | '\\' :: 'x' :: high :: low :: cs =>
    match hexOctet? high low with
    | some b => .hex b :: symbols cs
    | none => .plain '\\' :: symbols ('x' :: high :: low :: cs)
  | c :: cs => .plain c :: symbols cs
  | [] => []

theorem symbols_cons {c : Char} (h : c ≠ '\\') (cs : List Char) :
    symbols (c :: cs) = .plain c :: symbols cs := by
  rw [symbols] <;> grind

/-- What a text stands for is what its symbols stand for. -/
theorem unescape_eq_map (cs : List Char) : unescape cs = (symbols cs).map Symbol.octet := by
  fun_induction symbols cs with
  | case1 cs ih => simp [unescape, ih, Symbol.octet]
  | case2 cs ih => simp [unescape, ih, Symbol.octet]
  | case3 high low cs b hb ih => simp [unescape, hb, ih, Symbol.octet]
  | case4 high low cs hnone ih => simp [unescape, hnone, ih, Symbol.octet]
  | case5 c cs _ _ _ ih => rw [unescape, ih] <;> grind [Symbol.octet]
  | case6 => rfl

theorem digitChar_of_lowerHex? {c : Char} {n : Nat} (h : lowerHex? c = some n) :
    n < 16 ∧ Nat.digitChar n = c :=
  ⟨List.mem_range.mp (List.mem_of_find?_eq_some h), by simpa using List.find?_some h⟩

/-- Two digits that write an octet are its digits. -/
theorem digits_of_hexOctet? {high low : Char} {b : UInt8} (h : hexOctet? high low = some b) :
    Nat.digitChar (b.toNat / 16) = high ∧ Nat.digitChar (b.toNat % 16) = low := by
  simp only [hexOctet?, Option.bind_eq_bind, Option.bind_eq_some_iff] at h
  obtain ⟨m, hm, n, hn, hb⟩ := h
  obtain ⟨hmlt, rfl⟩ := digitChar_of_lowerHex? hm
  obtain ⟨hnlt, rfl⟩ := digitChar_of_lowerHex? hn
  cases hb
  rw [UInt8.toNat_ofNat', Nat.mod_eq_of_lt (by omega)]
  constructor
  · congr 1
    omega
  · congr 1
    omega

/-- **The symbols of a text make it up.** -/
theorem flatMap_text_symbols (cs : List Char) : (symbols cs).flatMap Symbol.text = cs := by
  fun_induction symbols cs with
  | case1 cs ih => simp [Symbol.text, ih]
  | case2 cs ih => simp [Symbol.text, ih]
  | case3 high low cs b hb ih =>
      obtain ⟨hhigh, hlow⟩ := digits_of_hexOctet? hb
      simp [Symbol.text, hhigh, hlow, ih]
  | case4 high low cs _ ih => simp [Symbol.text, ih]
  | case5 c cs _ _ _ ih => simp [Symbol.text, ih]
  | case6 => rfl

/-- A canonical symbol is read as such, whatever follows. -/
theorem symbols_text {symbol : Symbol} (h : symbol.Canonical) (cs : List Char) :
    symbols (symbol.text ++ cs) = symbol :: symbols cs := by
  cases symbol with
  | newline => simp [Symbol.text, symbols]
  | backslash => simp [Symbol.text, symbols]
  | hex b => simp [Symbol.text, symbols, hexOctet?_digits]
  | plain c => exact symbols_cons h.1 cs

/-- What octets are written as consists of canonical symbols. -/
theorem canonical_of_mem_symbols {bs : Bytes} {symbol : Symbol}
    (h : symbol ∈ symbols (escapeBytes bs)) : symbol.Canonical := by
  induction bs with
  | nil => cases h
  | cons b bs ih =>
      obtain ⟨first, hfirst, rfl⟩ := Symbol.exists_canonical b
      rw [escapeBytes, List.flatMap_cons, hfirst.escapeByte_octet, symbols_text hfirst,
        List.mem_cons] at h
      rcases h with rfl | hrest
      · exact hfirst
      · exact ih hrest

/-- **A text of canonical symbols is what its octets are written as.** -/
theorem escapeBytes_unescape {cs : List Char} (h : ∀ symbol ∈ symbols cs, symbol.Canonical) :
    escapeBytes (unescape cs) = cs :=
  calc escapeBytes (unescape cs)
      = (symbols cs).flatMap fun symbol => escapeByte symbol.octet := by
        rw [unescape_eq_map, escapeBytes, List.flatMap_map]
    _ = (symbols cs).flatMap Symbol.text :=
        List.flatMap_congr fun symbol hmem => (h symbol hmem).escapeByte_octet
    _ = cs := flatMap_text_symbols cs

/-- The octets of a text are its encoding. -/
theorem toByteArray_utf8 (s : String) : (utf8 s).toByteArray = s.toUTF8 := String.utf8Encode_toList

theorem utf8_injective : Function.Injective utf8 := by
  intro s t h
  apply String.toByteArray_inj.mp
  exact (toByteArray_utf8 s).symm.trans (h ▸ toByteArray_utf8 t)

/-- Octets that are those of some text. -/
theorem exists_utf8_iff {bs : Bytes} : (∃ s, utf8 s = bs) ↔ bs.toByteArray.IsValidUTF8 := by
  constructor
  · intro ⟨s, hs⟩
    rw [← hs, toByteArray_utf8]
    exact s.isValidUTF8
  · intro ⟨cs, hcs⟩
    refine ⟨String.ofList cs, ?_⟩
    rw [utf8, String.toList_ofList]
    exact (List.toByteArray_inj.mp hcs).symm

theorem escape_injective : Function.Injective escape := by
  intro s t h
  apply utf8_injective
  rw [← unescape_escape s, h, unescape_escape]

/-- What is to be seen of an escaped text, read from its beginning. -/
structure WellEscaped (e : String) : Prop where
  /-- Every backslash begins an escape. -/
  escapes : .plain '\\' ∉ symbols e.toList
  /-- Digits write zero or an octet from 128. -/
  digits : ∀ b, .hex b ∈ symbols e.toList → b = 0 ∨ 128 ≤ b.toNat
  /-- The other characters are from 1 to 127, and none of them is a newline. -/
  harmless : ∀ c, .plain c ∈ symbols e.toList → 1 ≤ c.toNat ∧ c.toNat ≤ 127 ∧ c ≠ '\n'
  /-- The octets are those of a text. -/
  valid : (unescape e.toList).toByteArray.IsValidUTF8

theorem wellEscaped_iff {e : String} :
    WellEscaped e ↔ (∀ symbol ∈ symbols e.toList, symbol.Canonical) ∧
      (unescape e.toList).toByteArray.IsValidUTF8 := by
  constructor
  · intro h
    refine ⟨?_, h.valid⟩
    intro symbol hmem
    cases symbol with
    | newline => trivial
    | backslash => trivial
    | hex b => exact h.digits b hmem
    | plain c =>
        refine ⟨?_, h.harmless c hmem⟩
        intro hbackslash
        exact h.escapes (hbackslash ▸ hmem)
  · intro ⟨hcanonical, hvalid⟩
    refine ⟨?_, ?_, ?_, hvalid⟩
    · intro hmem
      exact (hcanonical _ hmem).1 rfl
    · intro b hmem
      exact hcanonical _ hmem
    · intro c hmem
      exact (hcanonical _ hmem).2

/-- **The escaped texts** are those that are seen to be. -/
theorem exists_escape_iff {e : String} : (∃ s, escape s = e) ↔ WellEscaped e := by
  rw [wellEscaped_iff]
  constructor
  · intro ⟨s, hs⟩
    subst hs
    refine ⟨?_, ?_⟩
    · intro symbol hmem
      rw [toList_escape] at hmem
      exact canonical_of_mem_symbols hmem
    · exact exists_utf8_iff.mp ⟨s, (unescape_escape s).symm⟩
  · intro ⟨hcanonical, hvalid⟩
    obtain ⟨s, hs⟩ := exists_utf8_iff.mpr hvalid
    refine ⟨s, ?_⟩
    rw [escape, hs, escapeBytes_unescape hcanonical, String.ofList_toList]

/-- **Escaping is reversible** on all text.  What is written is harmless, is read as the octets of
the text, and is written part by part; and it is known by its looks. -/
theorem escape_reversible :
    (∀ s : String, (∀ c ∈ (escape s).toList, 1 ≤ c.toNat ∧ c.toNat ≤ 127 ∧ c ≠ '\n') ∧
      (unescape (escape s).toList).toByteArray = s.toUTF8) ∧
    (∀ s t : String, escape (s ++ t) = escape s ++ escape t) ∧
    Function.Injective escape ∧
    ∀ e : String, (∃ s, escape s = e) ↔ WellEscaped e := by
  refine ⟨?_, escape_append, escape_injective, fun e => exists_escape_iff⟩
  intro s
  refine ⟨fun c => harmless_of_mem_escape, ?_⟩
  rw [unescape_escape, toByteArray_utf8]

/-- A text that looks as if it were escaped, with a newline, a NUL and a letter past 127. -/
def lookalike : String := "\\x41\n\x00é"

/-- What looks like an escape is read back as it was. -/
theorem lookalike_reversible :
    escape lookalike = "\\\\x41\\n\\x00\\xc3\\xa9" ∧ WellEscaped (escape lookalike) ∧
      (unescape (escape lookalike).toList).toByteArray = lookalike.toUTF8 := by
  obtain ⟨hread, -, -, himage⟩ := escape_reversible
  exact ⟨rfl, (himage _).mp ⟨lookalike, rfl⟩, (hread lookalike).2⟩

/-- Digits that write a letter do not come of escaping. -/
example : ¬ WellEscaped "\\x41" := fun h => absurd (h.digits 65 (by decide)) (by decide)

end ManagedTransport.Text
