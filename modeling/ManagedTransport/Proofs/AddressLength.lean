import ManagedTransport.Address.Printer
import ManagedTransport.Text.Utf8
import Mathlib.Algebra.Group.Nat.Defs

/-!
# Addresses are short

The text of an address has at most 61 characters, so it always fits into the
body of a command.
-/

namespace ManagedTransport

open Text

theorem length_digits_le {radix n k : Nat} (hradix : 1 < radix) (hk : 0 < k)
    (hn : n < radix ^ k) : (digits radix n).length ≤ k :=
  (Nat.length_toDigits_le_iff hradix hk).mpr hn

theorem length_octet_le (b : UInt8) : (digits 10 b.toNat).length ≤ 3 :=
  length_digits_le (by decide) (by decide) (Nat.lt_trans b.toNat_lt (by decide))

theorem length_group_le (g : UInt16) : (digits 16 g.toNat).length ≤ 4 :=
  length_digits_le (by decide) (by decide) g.toNat_lt

theorem length_port_le (port : UInt16) : (digits 10 port.toNat).length ≤ 5 :=
  length_digits_le (by decide) (by decide) (Nat.lt_trans port.toNat_lt (by decide))

theorem Ip4.length_text_le (ip : Ip4) : ip.text.length ≤ 15 := by
  have ha := length_octet_le ip.a
  have hb := length_octet_le ip.b
  have hc := length_octet_le ip.c
  have hd := length_octet_le ip.d
  simp only [text, List.length_append, List.length_cons]
  omega

/-- Each group takes at most four digits and a colon. -/
theorem Ip6.length_groupsText_le (gs : List UInt16) : (groupsText gs).length ≤ 5 * gs.length := by
  fun_induction groupsText gs with
  | case1 => simp
  | case2 g =>
      have hg := length_group_le g
      simp only [List.length_singleton]
      omega
  | case3 g gs _ ih =>
      have hg := length_group_le g
      simp only [List.length_append, List.length_cons]
      omega

theorem Ip6.length_text_le (ip : Ip6) : ip.text.length ≤ 42 := by
  have hlen := ip.length_groups
  unfold text
  split
  · next v4 _ =>
    have hv4 := v4.length_text_le
    simp only [List.length_append, List.length_cons, List.length_nil]
    omega
  · by_cases hgap : (longestGap ip.groups).2 < 2
    · have hall := length_groupsText_le ip.groups
      simp only [if_pos hgap]
      omega
    · have hfront := length_groupsText_le (ip.groups.take (longestGap ip.groups).1)
      have hback := length_groupsText_le
        (ip.groups.drop ((longestGap ip.groups).1 + (longestGap ip.groups).2))
      simp only [List.length_take, List.length_drop] at hfront hback
      simp only [if_neg hgap, List.length_append, List.length_cons, List.length_nil]
      omega

namespace Address

theorem length_scopeText_le (scope : UInt32) : (scopeText scope).length ≤ 11 := by
  have hscope : (digits 10 scope.toNat).length ≤ 10 :=
    length_digits_le (by decide) (by decide) (Nat.lt_trans scope.toNat_lt (by decide))
  unfold scopeText
  split
  · simp
  · simp only [List.length_cons]
    omega

theorem length_chars_le (a : Address) : a.chars.length ≤ 61 := by
  cases a with
  | v4 host port =>
      have hhost := host.length_text_le
      have hport := length_port_le port
      simp only [chars, List.length_append, List.length_cons]
      omega
  | v6 host scope port =>
      have hhost := host.length_text_le
      have hscope := length_scopeText_le scope
      have hport := length_port_le port
      simp only [chars, List.length_append, List.length_cons, List.length_nil]
      omega

end Address

/-- A character takes at most four octets. -/
theorem Text.length_utf8_le (s : String) : (utf8 s).length ≤ 4 * s.toList.length := by
  have hflat : ∀ cs : List Char,
      (cs.flatMap String.utf8EncodeChar).length ≤ 4 * cs.length := by
    intro cs
    induction cs with
    | nil => simp
    | cons c cs ih =>
        have hc := c.utf8Size_le_four
        simp only [List.flatMap_cons, List.length_append, List.length_cons,
          String.length_utf8EncodeChar]
        omega
  exact hflat s.toList

/-- **The text of an address fits into a command.** -/
theorem Address.length_text_le (a : Address) : (utf8 a.text).length ≤ 244 := by
  have hchars := a.length_chars_le
  have hutf8 := length_utf8_le a.text
  rw [text, String.toList_ofList] at hutf8
  rw [text]
  omega

end ManagedTransport
