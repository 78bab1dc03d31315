import ManagedTransport.Text.Utf8

/-!
# Text survives the wire

A text written as octets is read back as it was: `lossy_utf8`.  The reader comes
to the beginning of a character with every character written.
-/

namespace ManagedTransport.Text

namespace Reader

/-- An octet in the range that a character begun calls for continues it. -/
theorem take_begun {read : List Char} {u : Unfinished} {b : UInt8} (hlow : u.low ≤ b.toNat)
    (hhigh : b.toNat ≤ u.high) :
    take ⟨read, some u⟩ b =
      if u.missing = 1 then ⟨Char.ofNat (u.bits * 64 + b.toNat % 64) :: read, none⟩
      else ⟨read, some ⟨u.bits * 64 + b.toNat % 64, u.missing - 1, 0x80, 0xBF⟩⟩ := by
  simp only [take]
  rw [if_pos ⟨hlow, hhigh⟩]

theorem toNat_octet {n : Nat} (h : n < 256) : (UInt8.ofNat n).toNat = n := by
  rw [UInt8.toNat_ofNat', Nat.mod_eq_of_lt h]

/-- The last octet of a character ends it. -/
theorem take_last {read : List Char} {bits low high m : Nat} (hlow : low ≤ m + 0x80)
    (hhigh : m + 0x80 ≤ high) (hm : m < 64) :
    take ⟨read, some ⟨bits, 1, low, high⟩⟩ (UInt8.ofNat (m + 0x80)) =
      ⟨Char.ofNat (bits * 64 + m) :: read, none⟩ := by
  have hb : (UInt8.ofNat (m + 0x80)).toNat = m + 0x80 := toNat_octet (by omega)
  rw [take_begun (by rw [hb]; exact hlow) (by rw [hb]; exact hhigh), if_pos rfl, hb]
  congr 4
  omega

/-- An octet before the last leaves fewer missing. -/
theorem take_next {read : List Char} {bits missing low high m : Nat} (hlow : low ≤ m + 0x80)
    (hhigh : m + 0x80 ≤ high) (hm : m < 64) :
    take ⟨read, some ⟨bits, missing + 2, low, high⟩⟩ (UInt8.ofNat (m + 0x80)) =
      ⟨read, some ⟨bits * 64 + m, missing + 1, 0x80, 0xBF⟩⟩ := by
  have hb : (UInt8.ofNat (m + 0x80)).toNat = m + 0x80 := toNat_octet (by omega)
  rw [take_begun (by rw [hb]; exact hlow) (by rw [hb]; exact hhigh), if_neg (by simp), hb]
  congr 4
  omega

/-- The first octet of a character of two. -/
theorem start_two {read : List Char} {m : Nat} (hlow : 2 ≤ m) (hm : m < 0x20) :
    start read (UInt8.ofNat (m + 0xC0)) = ⟨read, some ⟨m, 1, 0x80, 0xBF⟩⟩ := by
  have hb : (UInt8.ofNat (m + 0xC0)).toNat = m + 0xC0 := toNat_octet (by omega)
  simp only [start, hb]
  rw [if_neg (by omega), if_neg (by omega), if_pos (by omega)]
  congr 4
  omega

/-- The first octet of a character of three, which narrows the range of the second. -/
theorem start_three (read : List Char) {m : Nat} (hm : m < 0x10) :
    ∃ low high, start read (UInt8.ofNat (m + 0xE0)) = ⟨read, some ⟨m, 2, low, high⟩⟩ ∧
      ∀ k < 64, (m = 0 → 0x20 ≤ k) → (m = 0xD → k < 0x20) →
        low ≤ k + 0x80 ∧ k + 0x80 ≤ high := by
  have hb : (UInt8.ofNat (m + 0xE0)).toNat = m + 0xE0 := toNat_octet (by omega)
  simp only [start, hb]
  rw [if_neg (by omega), if_neg (by omega), if_neg (by omega)]
  by_cases h0 : m = 0
  · subst h0
    exact ⟨0xA0, 0xBF, rfl, fun k hk hlow _ => by have := hlow rfl; omega⟩
  by_cases hd : m = 0xD
  · subst hd
    exact ⟨0x80, 0x9F, rfl, fun k hk _ hhigh => by have := hhigh rfl; omega⟩
  · rw [if_neg (by omega), if_neg (by omega), if_pos (by omega)]
    refine ⟨0x80, 0xBF, ?_, fun k hk _ _ => by omega⟩
    congr 4
    omega

/-- The first octet of a character of four, which narrows the range of the second. -/
theorem start_four (read : List Char) {m : Nat} (hm : m < 5) :
    ∃ low high, start read (UInt8.ofNat (m + 0xF0)) = ⟨read, some ⟨m, 3, low, high⟩⟩ ∧
      ∀ k < 64, (m = 0 → 0x10 ≤ k) → (m = 4 → k < 0x10) →
        low ≤ k + 0x80 ∧ k + 0x80 ≤ high := by
  have hb : (UInt8.ofNat (m + 0xF0)).toNat = m + 0xF0 := toNat_octet (by omega)
  simp only [start, hb]
  rw [if_neg (by omega), if_neg (by omega), if_neg (by omega), if_neg (by omega),
    if_neg (by omega), if_neg (by omega)]
  by_cases h0 : m = 0
  · subst h0
    exact ⟨0x90, 0xBF, rfl, fun k hk hlow _ => by have := hlow rfl; omega⟩
  by_cases h4 : m = 4
  · subst h4
    exact ⟨0x80, 0x8F, rfl, fun k hk _ hhigh => by have := hhigh rfl; omega⟩
  · rw [if_neg (by omega), if_pos (by omega)]
    refine ⟨0x80, 0xBF, ?_, fun k hk _ _ => by omega⟩
    congr 4
    omega

/-- **The octets of a character are read as that character.** -/
theorem take_char (read : List Char) (c : Char) :
    (String.utf8EncodeChar c).foldl take ⟨read, none⟩ = ⟨c :: read, none⟩ := by
  have hchar : Char.ofNat c.val.toNat = c := Char.ofNat_toNat c
  have hvalid : c.val.toNat < 0xD800 ∨ 0xDFFF < c.val.toNat ∧ c.val.toNat < 0x110000 := c.valid
  unfold String.utf8EncodeChar
  generalize c.val.toNat = n at *
  dsimp only
  by_cases h1 : n ≤ 0x7f
  · rw [if_pos h1]
    have hb : (UInt8.ofNat n).toNat = n := toNat_octet (by omega)
    simp only [List.foldl_cons, List.foldl_nil, take, start, hb]
    rw [if_pos (by omega), hchar]
  rw [if_neg h1]
  by_cases h2 : n ≤ 0x7ff
  · have hn : n / 64 % 32 * 64 + n % 64 = n := by omega
    rw [if_pos h2, List.foldl_cons, take, start_two (by omega) (by omega), List.foldl_cons,
      take_last (by omega) (by omega) (by omega), hn, hchar, List.foldl_nil]
  rw [if_neg h2]
  by_cases h3 : n ≤ 0xffff
  · have hn : (n / 4096 % 16 * 64 + n / 64 % 64) * 64 + n % 64 = n := by omega
    obtain ⟨low, high, hstart, hrange⟩ :=
      start_three read (show n / 4096 % 16 < 16 by omega)
    obtain ⟨hlow, hhigh⟩ := hrange (n / 64 % 64) (by omega) (by omega) (by omega)
    rw [if_pos h3, List.foldl_cons, take, hstart, List.foldl_cons,
      take_next hlow hhigh (by omega), List.foldl_cons,
      take_last (by omega) (by omega) (by omega), hn, hchar, List.foldl_nil]
  · have hn : ((n / 262144 % 8 * 64 + n / 4096 % 64) * 64 + n / 64 % 64) * 64 + n % 64 = n := by
      omega
    obtain ⟨low, high, hstart, hrange⟩ :=
      start_four read (show n / 262144 % 8 < 5 by omega)
    obtain ⟨hlow, hhigh⟩ := hrange (n / 4096 % 64) (by omega) (by omega) (by omega)
    rw [if_neg h3, List.foldl_cons, take, hstart, List.foldl_cons,
      take_next hlow hhigh (by omega), List.foldl_cons,
      take_next (by omega) (by omega) (by omega), List.foldl_cons,
      take_last (by omega) (by omega) (by omega), hn, hchar, List.foldl_nil]

/-- The octets of characters are read as those characters. -/
theorem take_chars (read : List Char) (cs : List Char) :
    (cs.flatMap String.utf8EncodeChar).foldl take ⟨read, none⟩ = ⟨cs.reverse ++ read, none⟩ := by
  induction cs generalizing read with
  | nil => rfl
  | cons c cs ih =>
      rw [List.flatMap_cons, List.foldl_append, take_char, ih, List.reverse_cons,
        List.append_assoc]
      rfl

end Reader

/-- **Text survives the wire.** -/
theorem lossy_utf8 (s : String) : lossy (utf8 s) = s := by
  rw [lossy, utf8, Reader.empty, Reader.take_chars, List.append_nil, Reader.text]
  simp

end ManagedTransport.Text
