import ManagedTransport.Text.Numeral

/-!
# Reading numerals

A number is read back from its digits, in every radix up to sixteen, and whatever is read as a
number consists of digits.

* `natOf?_digits`, `decimalBelow?_digits` — a number is read back;
* `eq_zero_of_head?_digits` — no zero stands in front of another number;
* `isHex_of_natOf?`, `isHex_of_mem_digits` — what is read as a number, and so what is written as
  one, consists of digits.
-/

namespace ManagedTransport.Text

/-- A digit writes its value. -/
theorem digit?_digitChar {radix d : Nat} (hd : d < radix) (hradix : radix ≤ 16) :
    digit? radix (Nat.digitChar d) = some d := by
  have hvalue : ∀ n < 16, (Nat.digitChar n).toNat = if n < 10 then 48 + n else 87 + n := by decide
  have hnat := hvalue d (by omega)
  unfold digit?
  by_cases hten : d < 10
  · rw [if_pos hten] at hnat
    have hrange : 48 ≤ 48 + d ∧ 48 + d ≤ 57 := by omega
    simp [hnat, hrange, hd]
  · rw [if_neg hten] at hnat
    have hfirst : ¬ (48 ≤ 87 + d ∧ 87 + d ≤ 57) := by omega
    have hsecond : 97 ≤ 87 + d ∧ 87 + d ≤ 102 := by omega
    simp [hnat, hfirst, hsecond, hd]

/-- The digits of a number, taken one after the other, come to that number. -/
theorem foldlM_digits {radix : Nat} (hradix : 1 < radix) (hmax : radix ≤ 16) (n : Nat) :
    (digits radix n).foldlM (fun n c => (digit? radix c).map (n * radix + ·)) 0 = some n := by
  induction n using Nat.strongRecOn with
  | ind n ih =>
      rw [digits, Nat.toDigits_eq_if hradix]
      by_cases hone : n < radix
      · rw [if_pos hone]
        simp [digit?_digitChar hone hmax]
      · have hfront := ih (n / radix) (Nat.div_lt_self (by omega) hradix)
        have hlast := digit?_digitChar (Nat.mod_lt n (by omega)) hmax
        rw [digits] at hfront
        rw [if_neg hone, List.foldlM_append, hfront]
        simp [hlast, Nat.div_add_mod']

/-- **A number is read back from its digits.** -/
theorem natOf?_digits {radix : Nat} (hradix : 1 < radix) (hmax : radix ≤ 16) (n : Nat) :
    natOf? radix (digits radix n) = some n := by
  have hsome : (digits radix n).isEmpty = false := List.isEmpty_eq_false_iff.mpr Nat.toDigits_ne_nil
  rw [natOf?, hsome]
  exact foldlM_digits hradix hmax n

theorem decimalBelow?_digits {bound n : Nat} (h : n < bound) :
    decimalBelow? bound (digits 10 n) = some n := by
  rw [decimalBelow?, natOf?_digits (by decide) (by decide)]
  simp [h]

/-- A number with a zero in front is zero. -/
theorem eq_zero_of_head?_digits {radix n : Nat} (hradix : 1 < radix) (hmax : radix ≤ 16)
    (h : (digits radix n).head? = some '0') : n = 0 := by
  induction n using Nat.strongRecOn with
  | ind n ih =>
      rw [digits, Nat.toDigits_eq_if hradix] at h
      by_cases hone : n < radix
      · rw [if_pos hone, List.head?_cons, Option.some.injEq] at h
        have hn := digit?_digitChar hone hmax
        have hzero := digit?_digitChar (show 0 < radix by omega) hmax
        rw [h] at hn
        exact (Option.some.inj (hzero.symm.trans hn)).symm
      · -- the front is a number as well, and too large to be zero
        have hsome : Nat.toDigits radix (n / radix) ≠ [] := Nat.toDigits_ne_nil
        obtain ⟨c, cs, hcs⟩ := List.exists_cons_of_ne_nil hsome
        rw [if_neg hone, hcs, List.cons_append, List.head?_cons] at h
        have hfront := ih (n / radix) (Nat.div_lt_self (by omega) hradix) (by
          rw [digits, hcs]
          exact h)
        have hpos : 0 < n / radix := Nat.div_pos (by omega) (by omega)
        omega

/-- A hexadecimal digit. -/
def IsHex (c : Char) : Prop := (digit? 16 c).isSome

instance (c : Char) : Decidable (IsHex c) := inferInstanceAs (Decidable (_ = true))

/-- A digit in any radix is a hexadecimal digit. -/
theorem isHex_of_digit? {radix d : Nat} {c : Char} (h : digit? radix c = some d) : IsHex c := by
  simp only [IsHex, digit?] at h ⊢
  by_cases hdecimal : 48 ≤ c.toNat ∧ c.toNat ≤ 57
  · simp [hdecimal, show c.toNat - 48 < 16 by omega]
  by_cases hlower : 97 ≤ c.toNat ∧ c.toNat ≤ 102
  · simp [hdecimal, hlower, show c.toNat - 87 < 16 by omega]
  by_cases hupper : 65 ≤ c.toNat ∧ c.toNat ≤ 70
  · simp [hdecimal, hlower, hupper, show c.toNat - 55 < 16 by omega]
  · simp [hdecimal, hlower, hupper] at h

/-- **What is read as a number consists of digits.** -/
theorem isHex_of_natOf? {radix n : Nat} {cs : List Char} (h : natOf? radix cs = some n) :
    ∀ c ∈ cs, IsHex c := by
  have hfold : ∀ (cs : List Char) (start : Nat),
      cs.foldlM (fun n c => (digit? radix c).map (n * radix + ·)) start = some n →
        ∀ c ∈ cs, IsHex c := by
    intro cs
    induction cs with
    | nil =>
        intro _ _ c hc
        cases hc
    | cons c cs ih =>
        intro start hcs c2 hc2
        rw [List.foldlM_cons] at hcs
        obtain ⟨next, hnext, hrest⟩ := Option.bind_eq_some_iff.mp hcs
        obtain ⟨d, hd, -⟩ := Option.map_eq_some_iff.mp hnext
        rcases List.mem_cons.mp hc2 with rfl | hmem
        · exact isHex_of_digit? hd
        · exact ih next hrest c2 hmem
  unfold natOf? at h
  split at h
  · cases h
  · exact hfold cs 0 h

theorem isHex_of_mem_digits {radix n : Nat} {c : Char} (hradix : 1 < radix) (hmax : radix ≤ 16)
    (h : c ∈ digits radix n) : IsHex c :=
  isHex_of_natOf? (natOf?_digits hradix hmax n) c h

theorem isHex_of_decimalBelow? {bound n : Nat} {cs : List Char}
    (h : decimalBelow? bound cs = some n) : ∀ c ∈ cs, IsHex c :=
  isHex_of_natOf? (Option.filter_eq_some_iff.mp h).1

end ManagedTransport.Text
