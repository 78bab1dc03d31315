import ManagedTransport.Address.Literal
import ManagedTransport.Proofs.AddressLength
import ManagedTransport.Proofs.Numerals

/-!
# Reading hosts

A host is read back from its text.  An IPv6 host has many texts: any of its stretches of zero
groups may be left out, or none, and its last two groups may be written as four octets.  All of
them are read as the host, its canonical text among them.

* `Ip6.Written`, `Ip6.Named` — the texts of an IPv6 host, without and with its scope;
* `Ip6.written_text`, `Ip6.named_text` — the canonical text is one of them;
* `Ip6.Written.read?`, `Ip6.Named.readScoped?` — every one of them is read as the host;
* `Ip6.not_mem_of_readScoped?`, `Ip6.colon_mem_of_readScoped?` — what stands in no text that is
  read as a host, and what stands in every one.
-/

namespace ManagedTransport

open Text

/-- What is no hexadecimal digit is in no number. -/
theorem not_mem_digits {c : Char} (h : ¬ IsHex c) {radix : Nat} (hradix : 1 < radix)
    (hmax : radix ≤ 16) (n : Nat) : c ∉ digits radix n := fun hmem =>
  h (isHex_of_mem_digits hradix hmax hmem)

theorem digits_ne_nil (radix n : Nat) : digits radix n ≠ [] := Nat.toDigits_ne_nil

theorem octet?_digits (b : UInt8) : octet? (digits 10 b.toNat) = some b := by
  have hlen := length_octet_le b
  have hfront : (digits 10 b.toNat).length = 1 ∨ (digits 10 b.toNat).head? ≠ some '0' := by
    by_cases hzero : (digits 10 b.toNat).head? = some '0'
    · rw [eq_zero_of_head?_digits (by decide) (by decide) hzero]
      exact .inl rfl
    · exact .inr hzero
  rw [octet?, if_pos ⟨hlen, hfront⟩, decimalBelow?_digits b.toNat_lt]
  simp

/-- **An IPv4 host is read back.** -/
theorem Ip4.read?_text (ip : Ip4) : read? ip.text = some ip := by
  have hdot : ∀ n, '.' ∉ digits 10 n := not_mem_digits (by decide) (by decide) (by decide)
  have hsplit : split '.' ip.text = [digits 10 ip.a.toNat, digits 10 ip.b.toNat,
      digits 10 ip.c.toNat, digits 10 ip.d.toNat] := by
    simp only [text, List.append_assoc, List.cons_append]
    rw [split_append (hdot _), split_append (hdot _), split_append (hdot _),
      split_of_not_mem (hdot _)]
  simp [read?, hsplit, octet?_digits]

/-- There is no colon in the text of an IPv4 host. -/
theorem Ip4.colon_not_mem_text (ip : Ip4) : ':' ∉ ip.text := by
  have hcolon : ∀ n, ':' ∉ digits 10 n := not_mem_digits (by decide) (by decide) (by decide)
  simp [text, hcolon]

/-- An IPv4 host fills two groups and is found there. -/
theorem Ip4.groups_ofGroups (g h : UInt16) : (ofGroups g h).groups = [g, h] := by
  have hgroup : ∀ g : UInt16, UInt16.ofNat
      ((UInt8.ofNat (g.toNat / 256)).toNat * 256 + (UInt8.ofNat g.toNat).toNat) = g := by
    intro g
    have hg := g.toNat_lt
    have hsum : g.toNat / 256 % 2 ^ 8 * 256 + g.toNat % 2 ^ 8 = g.toNat := by omega
    rw [UInt8.toNat_ofNat', UInt8.toNat_ofNat', hsum, UInt16.ofNat_toNat]
  rw [groups, ofGroups, hgroup, hgroup]

namespace Ip6

/-! ### The texts of a host -/

/-- The texts of the last groups: in hexadecimal, or the last two of them as four octets. -/
inductive Ends : List UInt16 → List Char → Prop where
  | nothing : Ends [] []
  | last (g : UInt16) : Ends [g] (digits 16 g.toNat)
  | octets (ip : Ip4) : Ends ip.groups ip.text
  | more (g : UInt16) {g2 : UInt16} {gs : List UInt16} {cs : List Char} (h : Ends (g2 :: gs) cs) :
      Ends (g :: g2 :: gs) (digits 16 g.toNat ++ ':' :: cs)

/-- The texts of a host: all groups, or a gap in the place of some of its zeros. -/
inductive Written (ip : Ip6) : List Char → Prop where
  | full {cs : List Char} (h : Ends ip.groups cs) : Written ip cs
  | gap {front back : List UInt16} {n : Nat} {cs : List Char} (pos : 0 < n)
      (hgroups : ip.groups = front ++ List.replicate n 0 ++ back) (h : Ends back cs) :
      Written ip (groupsText front ++ ':' :: ':' :: cs)

/-- The texts of a host with its scope, which is zero where none is written. -/
inductive Named (ip : Ip6) : UInt32 → List Char → Prop where
  | alone {cs : List Char} (h : Written ip cs) : Named ip 0 cs
  | withScope (scope : UInt32) {cs : List Char} (h : Written ip cs) :
      Named ip scope (cs ++ '%' :: digits 10 scope.toNat)

/-! ### Canonical texts -/

theorem groupsText_cons_cons (g g2 : UInt16) (gs : List UInt16) :
    groupsText (g :: g2 :: gs) = digits 16 g.toNat ++ ':' :: groupsText (g2 :: gs) := by
  rw [groupsText]
  nofun

theorem ends_groupsText (gs : List UInt16) : Ends gs (groupsText gs) := by
  induction gs with
  | nil => exact .nothing
  | cons g gs ih =>
      cases gs with
      | nil => exact .last g
      | cons g2 gs =>
          rw [groupsText_cons_cons]
          exact .more g ih

/-- A host that maps an IPv4 host holds its octets after a fixed front. -/
theorem groups_of_mapped? {ip : Ip6} {v4 : Ip4} (h : ip.mapped? = some v4) :
    ip.groups = [] ++ List.replicate 5 0 ++ (0xFFFF :: v4.groups) := by
  unfold mapped? at h
  split at h
  · next a b c d e f g h2 hgroups =>
    split at h
    · next hfront =>
      obtain ⟨rfl, rfl, rfl, rfl, rfl, rfl⟩ := hfront
      cases h
      rw [hgroups, Ip4.groups_ofGroups]
      rfl
    · cases h
  · cases h

theorem leadingZeros_spec (gs : List UInt16) :
    gs = List.replicate (leadingZeros gs) 0 ++ gs.drop (leadingZeros gs) := by
  induction gs with
  | nil => rfl
  | cons g gs ih =>
      by_cases h : g = 0
      · rw [leadingZeros, if_pos h, List.replicate_succ, List.drop_succ_cons, List.cons_append,
          ← ih, h]
      · rw [leadingZeros, if_neg h]
        rfl

/-- There are zeros where the longest gap is. -/
theorem longestGap_spec (gs : List UInt16) :
    gs = gs.take (longestGap gs).1 ++ List.replicate (longestGap gs).2 0 ++
      gs.drop ((longestGap gs).1 + (longestGap gs).2) := by
  induction gs with
  | nil => rfl
  | cons g gs ih =>
      by_cases h : (longestGap gs).2 ≤ leadingZeros (g :: gs)
      · have hgap : longestGap (g :: gs) = (0, leadingZeros (g :: gs)) := by
          rw [longestGap, if_pos h]
        rw [hgap, List.take_zero, List.nil_append, Nat.zero_add]
        exact leadingZeros_spec (g :: gs)
      · have hgap : longestGap (g :: gs) = ((longestGap gs).1 + 1, (longestGap gs).2) := by
          rw [longestGap, if_neg h]
        rw [hgap, List.take_succ_cons, Nat.add_right_comm, List.drop_succ_cons, List.cons_append,
          List.cons_append, ← ih]

/-- **The canonical text of a host is one of its texts.** -/
theorem written_text (ip : Ip6) : ip.Written ip.text := by
  unfold text
  split
  · next v4 hmapped =>
    exact .gap (by decide) (groups_of_mapped? hmapped) (.more 0xFFFF (.octets v4))
  · by_cases hgap : (longestGap ip.groups).2 < 2
    · simp only [if_pos hgap]
      exact .full (ends_groupsText _)
    · simp only [if_neg hgap, List.append_assoc, List.cons_append, List.nil_append]
      exact .gap (by omega) (longestGap_spec ip.groups) (ends_groupsText _)

/-- With its scope, if it has one. -/
theorem named_text (ip : Ip6) (scope : UInt32) :
    ip.Named scope (ip.text ++ Address.scopeText scope) := by
  unfold Address.scopeText
  split
  · next h =>
    rw [List.append_nil, h]
    exact .alone ip.written_text
  · exact .withScope scope ip.written_text

/-! ### Reading groups -/

theorem group?_digits (g : UInt16) : group? (digits 16 g.toNat) = some g := by
  rw [group?, if_pos (length_group_le g), natOf?_digits (by decide) (by decide)]
  simp

theorem plainGroups?_digits (gs : List UInt16) :
    plainGroups? (gs.map fun g => digits 16 g.toNat) = some gs := by
  induction gs with
  | nil => rfl
  | cons g gs ih => simp [plainGroups?, group?_digits, ih]

theorem isHex_of_group? {cs : List Char} {g : UInt16} (h : group? cs = some g) :
    ∀ c ∈ cs, IsHex c := by
  unfold group? at h
  split at h
  · obtain ⟨n, hn, -⟩ := Option.map_eq_some_iff.mp h
    exact isHex_of_natOf? hn
  · cases h

/-- A colon stands in no group. -/
theorem colon_not_mem_digits (n : Nat) : ':' ∉ digits 16 n :=
  not_mem_digits (by decide) (by decide) (by decide) n

/-- The text of groups begins with a digit. -/
theorem Ends.exists_cons {gs : List UInt16} {cs : List Char} (h : Ends gs cs) (hne : gs ≠ []) :
    ∃ c rest, cs = c :: rest ∧ c ≠ ':' := by
  have hfirst : ∀ (number rest : List Char), number ≠ [] → ':' ∉ number →
      ∃ c rest2, number ++ rest = c :: rest2 ∧ c ≠ ':' := by
    intro number rest hsome hcolon
    obtain ⟨c, cs, rfl⟩ := List.exists_cons_of_ne_nil hsome
    exact ⟨c, cs ++ rest, rfl, fun hc => hcolon (by rw [hc]; exact List.mem_cons_self)⟩
  cases h with
  | nothing => exact absurd rfl hne
  | last g =>
      have h := hfirst _ [] (digits_ne_nil 16 g.toNat) (colon_not_mem_digits _)
      rwa [List.append_nil] at h
  | octets ip =>
      have h := hfirst ip.text [] (by simp [Ip4.text]) ip.colon_not_mem_text
      rwa [List.append_nil] at h
  | more g h => exact hfirst _ _ (digits_ne_nil 16 g.toNat) (colon_not_mem_digits _)

theorem pieces_cons (c : Char) (cs : List Char) : pieces (c :: cs) = split ':' (c :: cs) := rfl

/-- Colons divide groups. -/
theorem pieces_groupsText (gs : List UInt16) :
    pieces (groupsText gs) = gs.map fun g => digits 16 g.toNat := by
  have hsplit : ∀ (gs : List UInt16) (g : UInt16),
      split ':' (groupsText (g :: gs)) = (g :: gs).map fun g => digits 16 g.toNat := by
    intro gs
    induction gs with
    | nil =>
        intro g
        exact split_of_not_mem (colon_not_mem_digits _)
    | cons g2 gs ih =>
        intro g
        rw [groupsText_cons_cons, split_append (colon_not_mem_digits _), ih g2]
        rfl
  cases gs with
  | nil => rfl
  | cons g gs =>
      obtain ⟨c, cs, hcs, -⟩ := (ends_groupsText (g :: gs)).exists_cons (List.cons_ne_nil g gs)
      rw [← hsplit gs g, hcs, pieces_cons]

/-- **The last groups are read from their text.** -/
theorem Ends.finalGroups? {gs : List UInt16} {cs : List Char} (h : Ends gs cs) :
    finalGroups? (pieces cs) = some gs := by
  have hsplit : gs ≠ [] → Ip6.finalGroups? (split ':' cs) = some gs := by
    induction h with
    | nothing => exact fun hne => absurd rfl hne
    | last g =>
        intro _
        rw [split_of_not_mem (colon_not_mem_digits _)]
        simp [Ip6.finalGroups?, group?_digits]
    | octets ip =>
        intro _
        have hgroup : group? ip.text = none := by
          refine Option.eq_none_iff_forall_ne_some.mpr fun g hg => ?_
          have hdot := isHex_of_group? hg '.' (by simp [Ip4.text])
          exact absurd hdot (by decide)
        rw [split_of_not_mem ip.colon_not_mem_text]
        simp [Ip6.finalGroups?, hgroup, Ip4.read?_text]
    | @more g g2 gs cs h ih =>
        intro _
        have hrest := ih (List.cons_ne_nil g2 gs)
        obtain ⟨p, ps, hps⟩ := List.exists_cons_of_ne_nil (split_ne_nil ':' cs)
        rw [split_append (colon_not_mem_digits _), hps]
        rw [hps] at hrest
        simp [Ip6.finalGroups?, group?_digits, hrest]
  by_cases hne : gs = []
  · cases h with
    | nothing => rfl
    | octets ip => cases hne
    | _ => cases hne
  · obtain ⟨c, rest, hcs, -⟩ := h.exists_cons hne
    rw [hcs, pieces_cons, ← hcs]
    exact hsplit hne

/-! ### Finding the gap -/

theorem cutGap?_cons {c : Char} (h : c ≠ ':') (cs : List Char) :
    cutGap? (c :: cs) = (cutGap? cs).map fun r => (c :: r.1, r.2) := by
  rw [cutGap?]
  intro cs2 hcs
  cases hcs
  exact absurd rfl h

theorem cutGap?_colon_cons {c : Char} (h : c ≠ ':') (cs : List Char) :
    cutGap? (':' :: c :: cs) = (cutGap? (c :: cs)).map fun r => (':' :: r.1, r.2) := by
  rw [cutGap?]
  intro cs2 _ hcs
  cases hcs
  exact h rfl

/-- There is no gap where there is no colon. -/
theorem cutGap?_append {front : List Char} (h : ':' ∉ front) (cs : List Char) :
    cutGap? (front ++ cs) = (cutGap? cs).map fun r => (front ++ r.1, r.2) := by
  induction front with
  | nil => simp
  | cons c front ih =>
      obtain ⟨hne, hrest⟩ := not_or.mp (mt List.mem_cons.mpr h)
      rw [List.cons_append, cutGap?_cons (Ne.symm hne), ih hrest, Option.map_map]
      rfl

/-- **Groups have no gap of their own**, whatever follows them. -/
theorem Ends.cutGap?_append {gs : List UInt16} {cs : List Char} (h : Ends gs cs)
    (rest : List Char) :
    cutGap? (cs ++ rest) = (cutGap? rest).map fun r => (cs ++ r.1, r.2) := by
  induction h with
  | nothing => simp
  | last g => exact Ip6.cutGap?_append (colon_not_mem_digits _) rest
  | octets ip => exact Ip6.cutGap?_append ip.colon_not_mem_text rest
  | @more g g2 gs cs h ih =>
      obtain ⟨c, cs2, hcs, hc⟩ := h.exists_cons (List.cons_ne_nil g2 gs)
      have hlater : cutGap? (':' :: (cs ++ rest)) =
          (cutGap? (cs ++ rest)).map fun r => (':' :: r.1, r.2) := by
        rw [hcs, List.cons_append]
        exact cutGap?_colon_cons hc _
      rw [List.append_assoc, List.cons_append, Ip6.cutGap?_append (colon_not_mem_digits _), hlater,
        ih, Option.map_map, Option.map_map]
      simp [Function.comp_def]

/-! ### Reading hosts -/

theorem ofGroups?_groups (ip : Ip6) : ofGroups? ip.groups = some ip := by
  rw [ofGroups?, dif_pos ip.length_groups]

/-- **Every text of a host is read as the host.** -/
theorem Written.read? {ip : Ip6} {cs : List Char} (h : ip.Written cs) : read? cs = some ip := by
  cases h with
  | full h =>
      have hgap : cutGap? cs = none := by
        have h := h.cutGap?_append []
        rwa [List.append_nil] at h
      rw [Ip6.read?, hgap]
      simp [h.finalGroups?, ofGroups?_groups]
  | @gap front back n cs pos hgroups h =>
      have hgap : cutGap? (groupsText front ++ ':' :: ':' :: cs) = some (groupsText front, cs) := by
        rw [(ends_groupsText front).cutGap?_append, cutGap?]
        simp
      have hsum : front.length + n + back.length = 8 := by
        rw [← ip.length_groups, hgroups, List.length_append, List.length_append,
          List.length_replicate]
      have hn : 8 - front.length - back.length = n := by omega
      have hroom : front.length + back.length ≤ 7 := by omega
      rw [Ip6.read?, hgap]
      simp only [pieces_groupsText, plainGroups?_digits, h.finalGroups?, Option.bind_eq_bind,
        Option.bind_some, if_pos hroom, hn]
      rw [← hgroups]
      exact ofGroups?_groups ip

end Ip6

/-! ### What a host consists of -/

/-- A character that stands in the text of some host, apart from its scope. -/
def IsHostChar (c : Char) : Prop := IsHex c ∨ c = ':' ∨ c = '.'

instance (c : Char) : Decidable (IsHostChar c) := inferInstanceAs (Decidable (_ ∨ _))

theorem isHostChar_of_ip4 {cs : List Char} {ip : Ip4} (h : Ip4.read? cs = some ip) :
    ∀ c ∈ cs, IsHostChar c := by
  have hoctet : ∀ {p : List Char} {b : UInt8}, octet? p = some b → ∀ c ∈ p, IsHex c := by
    intro p b hp
    unfold octet? at hp
    split at hp
    · obtain ⟨n, hn, -⟩ := Option.map_eq_some_iff.mp hp
      exact isHex_of_decimalBelow? hn
    · cases hp
  intro c hc
  unfold Ip4.read? at h
  split at h
  · next w x y z hsplit =>
    simp only [Option.bind_eq_bind, Option.bind_eq_some_iff] at h
    obtain ⟨_, hw, _, hx, _, hy, _, hz, -⟩ := h
    obtain hdot | ⟨p, hp, hmem⟩ := mem_split '.' hc
    · exact .inr (.inr hdot)
    · left
      rw [hsplit] at hp
      simp only [List.mem_cons, List.not_mem_nil, or_false] at hp
      rcases hp with rfl | rfl | rfl | rfl
      · exact hoctet hw c hmem
      · exact hoctet hx c hmem
      · exact hoctet hy c hmem
      · exact hoctet hz c hmem
  · cases h

namespace Ip6

theorem isHostChar_of_plainGroups? {ps : List (List Char)} {gs : List UInt16}
    (h : plainGroups? ps = some gs) : ∀ p ∈ ps, ∀ c ∈ p, IsHostChar c := by
  induction ps generalizing gs with
  | nil =>
      intro p hp
      cases hp
  | cons q ps ih =>
      simp only [plainGroups?, Option.bind_eq_bind, Option.bind_eq_some_iff] at h
      obtain ⟨g, hg, hs, hhs, -⟩ := h
      intro p hp c hc
      rcases List.mem_cons.mp hp with rfl | hlater
      · exact .inl (isHex_of_group? hg c hc)
      · exact ih hhs p hlater c hc

theorem isHostChar_of_finalGroups? {ps : List (List Char)} {gs : List UInt16}
    (h : finalGroups? ps = some gs) : ∀ p ∈ ps, ∀ c ∈ p, IsHostChar c := by
  fun_induction finalGroups? ps generalizing gs with
  | case1 =>
      intro p hp
      cases hp
  | case2 q g hg =>
      intro p hp c hc
      rw [List.mem_singleton.mp hp] at hc
      exact .inl (isHex_of_group? hg c hc)
  | case3 q hg =>
      intro p hp c hc
      rw [List.mem_singleton.mp hp] at hc
      obtain ⟨ip, hip, -⟩ := Option.map_eq_some_iff.mp h
      exact isHostChar_of_ip4 hip c hc
  | case4 q ps _ ih =>
      simp only [Option.bind_eq_bind, Option.bind_eq_some_iff] at h
      obtain ⟨g, hg, hs, hhs, -⟩ := h
      intro p hp c hc
      rcases List.mem_cons.mp hp with rfl | hlater
      · exact .inl (isHex_of_group? hg c hc)
      · exact ih hhs p hlater c hc

/-- What groups are read from consists of their pieces and of colons. -/
theorem isHostChar_of_pieces {cs : List Char} (h : ∀ p ∈ pieces cs, ∀ c ∈ p, IsHostChar c) :
    ∀ c ∈ cs, IsHostChar c := by
  intro c hc
  cases cs with
  | nil => cases hc
  | cons c2 cs =>
      obtain hcolon | ⟨p, hp, hmem⟩ := mem_split ':' hc
      · exact .inr (.inl hcolon)
      · exact h p hp c hmem

theorem eq_of_cutGap? {cs front back : List Char} (h : cutGap? cs = some (front, back)) :
    cs = front ++ ':' :: ':' :: back := by
  fun_induction cutGap? cs generalizing front with
  | case1 cs =>
      cases h
      rfl
  | case2 c cs _ ih =>
      obtain ⟨⟨front2, back2⟩, hcut, hsame⟩ := Option.map_eq_some_iff.mp h
      cases hsame
      rw [ih hcut, List.cons_append]
  | case3 => cases h

theorem isHostChar_of_read? {cs : List Char} {ip : Ip6} (h : read? cs = some ip) :
    ∀ c ∈ cs, IsHostChar c := by
  unfold read? at h
  split at h
  · obtain ⟨gs, hgs, -⟩ := Option.bind_eq_some_iff.mp h
    exact isHostChar_of_pieces (isHostChar_of_finalGroups? hgs)
  · next front back hcut =>
    simp only [Option.bind_eq_bind, Option.bind_eq_some_iff] at h
    obtain ⟨gs, hgs, hs, hhs, -⟩ := h
    have hfront := isHostChar_of_pieces (isHostChar_of_plainGroups? hgs)
    have hback := isHostChar_of_pieces (isHostChar_of_finalGroups? hhs)
    intro c hc
    rw [eq_of_cutGap? hcut, List.mem_append, List.mem_cons, List.mem_cons] at hc
    rcases hc with hc | hc | hc | hc
    · exact hfront c hc
    · exact .inr (.inl hc)
    · exact .inr (.inl hc)
    · exact hback c hc

/-- Without a colon there are too few groups for a host. -/
theorem colon_mem_of_read? {cs : List Char} {ip : Ip6} (h : read? cs = some ip) : ':' ∈ cs := by
  refine Decidable.byContradiction fun hcolon => ?_
  have hgap : cutGap? cs = none := by
    have h := cutGap?_append hcolon []
    rwa [List.append_nil] at h
  rw [read?, hgap] at h
  obtain ⟨gs, hgs, hip⟩ := Option.bind_eq_some_iff.mp h
  have hfew : gs.length ≤ 2 := by
    cases cs with
    | nil =>
        cases hgs
        exact Nat.zero_le 2
    | cons c cs =>
        rw [pieces_cons, split_of_not_mem hcolon, finalGroups?] at hgs
        split at hgs
        · cases hgs
          exact Nat.le_succ 1
        · obtain ⟨v4, -, rfl⟩ := Option.map_eq_some_iff.mp hgs
          exact Nat.le_refl 2
  unfold ofGroups? at hip
  split at hip
  · omega
  · cases hip

/-! ### Scopes -/

/-- What stands before a scope is a host. -/
theorem readScoped?_cases {cs : List Char} {ip : Ip6} {scope : UInt32}
    (h : readScoped? cs = some (ip, scope)) :
    ∃ host rest, cs = host ++ rest ∧ read? host = some ip ∧
      ∀ c ∈ rest, IsHostChar c ∨ c = '%' := by
  unfold readScoped? at h
  split at h
  · obtain ⟨ip2, hip, hsame⟩ := Option.map_eq_some_iff.mp h
    cases hsame
    refine ⟨cs, [], (List.append_nil cs).symm, hip, ?_⟩
    intro c hc
    cases hc
  · next host rest hcut =>
    simp only [Option.bind_eq_bind, Option.bind_eq_some_iff] at h
    obtain ⟨ip2, hip, n, hn, hsame⟩ := h
    cases hsame
    refine ⟨host, '%' :: rest, (cutFirst?_eq_some_iff.mp hcut).1, hip, ?_⟩
    intro c hc
    rcases List.mem_cons.mp hc with hpercent | hrest
    · exact .inr hpercent
    · exact .inl (.inl (isHex_of_decimalBelow? hn c hrest))

/-- **What is read as a host consists of digits, colons, dots and percent signs.** -/
theorem not_mem_of_readScoped? {cs : List Char} {ip : Ip6} {scope : UInt32}
    (h : readScoped? cs = some (ip, scope)) {c : Char} (hc : ¬ (IsHostChar c ∨ c = '%')) :
    c ∉ cs := by
  obtain ⟨host, rest, rfl, hip, hrest⟩ := readScoped?_cases h
  intro hmem
  rcases List.mem_append.mp hmem with hhost | hscope
  · exact hc (.inl (isHostChar_of_read? hip c hhost))
  · exact hc (hrest c hscope)

theorem colon_mem_of_readScoped? {cs : List Char} {ip : Ip6} {scope : UInt32}
    (h : readScoped? cs = some (ip, scope)) : ':' ∈ cs := by
  obtain ⟨host, rest, rfl, hip, -⟩ := readScoped?_cases h
  exact List.mem_append_left rest (colon_mem_of_read? hip)

/-- **Every text of a host with its scope is read as these.** -/
theorem Named.readScoped? {ip : Ip6} {scope : UInt32} {cs : List Char}
    (h : ip.Named scope cs) : readScoped? cs = some (ip, scope) := by
  have hpercent : ∀ {cs : List Char}, ip.Written cs → '%' ∉ cs := by
    intro cs h hmem
    have hchar := isHostChar_of_read? h.read? '%' hmem
    exact absurd hchar (by decide)
  cases h with
  | alone h => simp [Ip6.readScoped?, cutFirst?_eq_none_iff.mpr (hpercent h), h.read?]
  | withScope scope h =>
      simp [Ip6.readScoped?, cutFirst?_append (hpercent h), h.read?,
        decimalBelow?_digits scope.toNat_lt]

end Ip6
end ManagedTransport
