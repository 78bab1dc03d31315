import ManagedTransport.Text.Escape

/-!
# Reading escaped text

An escaped text is read from its beginning: a backslash begins an escape, and every other
character stands for the octet of its number.

* `unescape` — the octets that an escaped text stands for;
* `Symbol` — one step in reading, and `Symbol.Canonical` — it is what its octet is written as;
* `unescape_escape` — these are the octets of the text that was escaped, whatever it was;
* `Harmless` — what an escaped text consists of, and `blank_not_mem_escape` — that it has no
  blank of its own.
-/

namespace ManagedTransport.Text

/-- The number that a hexadecimal digit in lower case writes. -/
def lowerHex? (c : Char) : Option Nat := (List.range 16).find? (Nat.digitChar · = c)

/-- The octet that two hexadecimal digits in lower case write. -/
def hexOctet? (high low : Char) : Option UInt8 := do
  return UInt8.ofNat ((← lowerHex? high) * 16 + (← lowerHex? low))

/-- The octets that an escaped text stands for.  A backslash that begins no escape stands for
itself. -/
def unescape : List Char → Bytes
  | '\\' :: 'n' :: cs => 10 :: unescape cs
  | '\\' :: '\\' :: cs => 92 :: unescape cs
  | '\\' :: 'x' :: high :: low :: cs =>
    match hexOctet? high low with
    | some b => b :: unescape cs
    | none => 92 :: unescape ('x' :: high :: low :: cs)
  | c :: cs => UInt8.ofNat c.toNat :: unescape cs
  | [] => []

theorem unescape_cons {c : Char} (h : c ≠ '\\') (cs : List Char) :
    unescape (c :: cs) = UInt8.ofNat c.toNat :: unescape cs := by
  rw [unescape] <;> grind

theorem lowerHex?_digitChar {n : Nat} (h : n < 16) : lowerHex? (Nat.digitChar n) = some n := by
  revert n
  decide

/-- The two digits of an octet write it. -/
theorem hexOctet?_digits (b : UInt8) :
    hexOctet? (Nat.digitChar (b.toNat / 16)) (Nat.digitChar (b.toNat % 16)) = some b := by
  have hb := b.toNat_lt
  have hsum : b.toNat / 16 * 16 + b.toNat % 16 = b.toNat := by omega
  rw [hexOctet?, lowerHex?_digitChar (by omega), lowerHex?_digitChar (by omega)]
  show some (UInt8.ofNat (b.toNat / 16 * 16 + b.toNat % 16)) = some b
  rw [hsum, UInt8.ofNat_toNat]

theorem toNat_ofNat_ascii {n : Nat} (h : n < 128) : (Char.ofNat n).toNat = n := by
  have hvalid : n.isValidChar := .inl (by omega)
  rw [Char.ofNat, dif_pos hvalid]
  rfl

/-- A character that neither ends a line nor leaves the range from 1 to 127. -/
def Harmless (c : Char) : Prop := 1 ≤ c.toNat ∧ c.toNat ≤ 127 ∧ c ≠ '\n'

instance (c : Char) : Decidable (Harmless c) := inferInstanceAs (Decidable (_ ∧ _))

theorem harmless_digitChar {n : Nat} (h : n < 16) : Harmless (Nat.digitChar n) := by
  revert n
  decide

/-- One step in reading an escaped text. -/
inductive Symbol where
  /-- A backslash and an `n`. -/
  | newline
  /-- Two backslashes. -/
  | backslash
  /-- A backslash, an `x` and the two digits of an octet. -/
  | hex (b : UInt8)
  /-- A character that begins none of these. -/
  | plain (c : Char)
deriving DecidableEq

namespace Symbol

/-- The octet that a symbol stands for. -/
def octet : Symbol → UInt8
  | newline => 10
  | backslash => 92
  | hex b => b
  | plain c => UInt8.ofNat c.toNat

/-- The characters of a symbol. -/
def text : Symbol → List Char
  | newline => ['\\', 'n']
  | backslash => ['\\', '\\']
  | hex b => ['\\', 'x', Nat.digitChar (b.toNat / 16), Nat.digitChar (b.toNat % 16)]
  | plain c => [c]

/-- A symbol is what its octet is written as: digits are for those octets alone that no character
stands for, and a character stands for itself if it is harmless and no backslash. -/
def Canonical : Symbol → Prop
  | newline | backslash => True
  | hex b => b = 0 ∨ 128 ≤ b.toNat
  | plain c => c ≠ '\\' ∧ Harmless c

/-- Every octet is that of a canonical symbol. -/
theorem exists_canonical (b : UInt8) : ∃ symbol : Symbol, symbol.Canonical ∧ symbol.octet = b := by
  have hb := b.toNat_lt
  by_cases hnewline : b = 10
  · exact ⟨.newline, trivial, hnewline.symm⟩
  by_cases hbackslash : b = 92
  · exact ⟨.backslash, trivial, hbackslash.symm⟩
  by_cases hplain : 1 ≤ b.toNat ∧ b.toNat ≤ 127
  · have hnat := toNat_ofNat_ascii (n := b.toNat) (by omega)
    have hoctet : octet (.plain (Char.ofNat b.toNat)) = b := by
      rw [octet, hnat, UInt8.ofNat_toNat]
    refine ⟨.plain (Char.ofNat b.toNat), ⟨?_, by omega, by omega, ?_⟩, hoctet⟩
    · intro h
      rw [h] at hoctet
      exact hbackslash hoctet.symm
    · intro h
      rw [h] at hoctet
      exact hnewline hoctet.symm
  · refine ⟨.hex b, ?_, rfl⟩
    by_cases hzero : b.toNat = 0
    · exact .inl (UInt8.toNat_inj.mp hzero)
    · exact .inr (by omega)

namespace Canonical

variable {symbol : Symbol} (h : symbol.Canonical)
include h

/-- **An octet is written as its canonical symbol.** -/
theorem escapeByte_octet : escapeByte symbol.octet = symbol.text := by
  cases symbol with
  | newline => rfl
  | backslash => rfl
  | hex b =>
      rcases h with rfl | hhigh
      · rfl
      · rw [octet, text, escapeByte, if_neg (by omega), if_neg (by omega), if_neg (by omega)]
  | plain c =>
      obtain ⟨hbackslash, hlow, hhigh, hnewline⟩ := h
      have hnat : (UInt8.ofNat c.toNat).toNat = c.toNat := by
        rw [UInt8.toNat_ofNat']
        omega
      have hten : c.toNat ≠ 10 := fun h => hnewline (Char.toNat_inj.mp h)
      have hninetytwo : c.toNat ≠ 92 := fun h => hbackslash (Char.toNat_inj.mp h)
      simp only [octet, text, escapeByte, hnat]
      rw [if_neg hten, if_neg hninetytwo, if_pos ⟨hlow, hhigh⟩, Char.ofNat_toNat]

/-- A canonical symbol is read as its octet, whatever follows. -/
theorem unescape_text (cs : List Char) :
    unescape (symbol.text ++ cs) = symbol.octet :: unescape cs := by
  cases symbol with
  | newline => simp [text, octet, unescape]
  | backslash => simp [text, octet, unescape]
  | hex b => simp [text, octet, unescape, hexOctet?_digits]
  | plain c => exact unescape_cons h.1 cs

/-- A canonical symbol is harmless. -/
theorem harmless_of_mem_text {c : Char} (hc : c ∈ symbol.text) : Harmless c := by
  cases symbol with
  | newline =>
      simp only [text, List.mem_cons, List.not_mem_nil, or_false] at hc
      rcases hc with rfl | rfl
      · decide
      · decide
  | backslash =>
      simp only [text, List.mem_cons, List.not_mem_nil, or_false, or_self] at hc
      subst hc
      decide
  | hex b =>
      have hb := b.toNat_lt
      simp only [text, List.mem_cons, List.not_mem_nil, or_false] at hc
      rcases hc with rfl | rfl | rfl | rfl
      · decide
      · decide
      · exact harmless_digitChar (by omega)
      · exact harmless_digitChar (by omega)
  | plain c2 =>
      obtain rfl := List.mem_singleton.mp hc
      exact h.2

end Canonical

/-- Only a blank has a blank in it. -/
theorem octet_of_blank_mem_text {symbol : Symbol} (h : ' ' ∈ symbol.text) : symbol.octet = 32 := by
  have hdigit : ∀ n < 16, ' ' ≠ Nat.digitChar n := by decide
  cases symbol with
  | newline => simp [text] at h
  | backslash => simp [text] at h
  | hex b =>
      have hb := b.toNat_lt
      simp [text, hdigit (b.toNat / 16) (by omega), hdigit (b.toNat % 16) (by omega)] at h
  | plain c =>
      obtain rfl := List.mem_singleton.mp h
      rfl

end Symbol

/-- What an octet is written as is read as that octet, whatever follows. -/
theorem unescape_escapeByte (b : UInt8) (cs : List Char) :
    unescape (escapeByte b ++ cs) = b :: unescape cs := by
  obtain ⟨symbol, h, rfl⟩ := Symbol.exists_canonical b
  rw [h.escapeByte_octet, h.unescape_text]

/-- Escaping is undone, whatever the octets. -/
theorem unescape_escapeBytes (bs : Bytes) : unescape (escapeBytes bs) = bs := by
  induction bs with
  | nil => rfl
  | cons b bs ih => rw [escapeBytes, List.flatMap_cons, unescape_escapeByte, ← escapeBytes, ih]

theorem toList_escape (s : String) : (escape s).toList = escapeBytes (utf8 s) :=
  String.toList_ofList

/-- **Escaping a text is undone.** -/
theorem unescape_escape (s : String) : unescape (escape s).toList = utf8 s := by
  rw [toList_escape, unescape_escapeBytes]

/-- An octet is written with harmless characters. -/
theorem harmless_of_mem_escapeByte {b : UInt8} {c : Char} (hc : c ∈ escapeByte b) :
    Harmless c := by
  obtain ⟨symbol, h, rfl⟩ := Symbol.exists_canonical b
  rw [h.escapeByte_octet] at hc
  exact h.harmless_of_mem_text hc

/-- An escaped text is harmless. -/
theorem harmless_of_mem_escape {s : String} {c : Char} (h : c ∈ (escape s).toList) :
    Harmless c := by
  rw [toList_escape] at h
  obtain ⟨b, -, hc⟩ := List.mem_flatMap.mp h
  exact harmless_of_mem_escapeByte hc

/-- Only a blank is written with a blank. -/
theorem eq_of_blank_mem_escapeByte {b : UInt8} (hblank : ' ' ∈ escapeByte b) : b = 32 := by
  obtain ⟨symbol, h, rfl⟩ := Symbol.exists_canonical b
  rw [h.escapeByte_octet] at hblank
  exact Symbol.octet_of_blank_mem_text hblank

/-- A character below 128 is written as one octet. -/
theorem utf8EncodeChar_ascii {c : Char} (h : c.toNat ≤ 127) :
    String.utf8EncodeChar c = [UInt8.ofNat c.toNat] := by
  have hval : c.val.toNat ≤ 127 := h
  rw [String.utf8EncodeChar, if_pos hval]
  rfl

/-- An octet below 128 is all of the character it belongs to. -/
theorem toNat_of_mem_utf8EncodeChar {c : Char} {b : UInt8} (h : b ∈ String.utf8EncodeChar c)
    (hb : b.toNat < 128) : c.toNat = b.toNat := by
  by_cases hc : c.toNat ≤ 127
  · rw [utf8EncodeChar_ascii hc, List.mem_singleton] at h
    rw [h, UInt8.toNat_ofNat']
    omega
  · have hval : ¬ c.val.toNat ≤ 127 := hc
    rw [String.utf8EncodeChar, if_neg hval] at h
    -- every octet of a longer character is at least 128
    by_cases htwo : c.val.toNat ≤ 0x7ff
    · rw [if_pos htwo] at h
      simp only [List.mem_cons, List.not_mem_nil, or_false] at h
      rcases h with rfl | rfl <;> rw [UInt8.toNat_ofNat'] at hb <;> omega
    by_cases hthree : c.val.toNat ≤ 0xffff
    · rw [if_neg htwo, if_pos hthree] at h
      simp only [List.mem_cons, List.not_mem_nil, or_false] at h
      rcases h with rfl | rfl | rfl <;> rw [UInt8.toNat_ofNat'] at hb <;> omega
    · rw [if_neg htwo, if_neg hthree] at h
      simp only [List.mem_cons, List.not_mem_nil, or_false] at h
      rcases h with rfl | rfl | rfl | rfl <;> rw [UInt8.toNat_ofNat'] at hb <;> omega

/-- **A text without blanks is written without blanks.** -/
theorem blank_not_mem_escape {s : String} (h : ' ' ∉ s.toList) : ' ' ∉ (escape s).toList := by
  intro hmem
  rw [toList_escape] at hmem
  obtain ⟨b, hb, hblank⟩ := List.mem_flatMap.mp hmem
  obtain rfl := eq_of_blank_mem_escapeByte hblank
  obtain ⟨c, hc, hoctet⟩ := List.mem_flatMap.mp hb
  have hnat : c.toNat = 32 := toNat_of_mem_utf8EncodeChar hoctet (by decide)
  have hc2 : c = ' ' := by rw [← Char.ofNat_toNat c, hnat]
  exact h (hc2 ▸ hc)

end ManagedTransport.Text
