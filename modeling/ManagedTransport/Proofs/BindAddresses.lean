import ManagedTransport.Address.Printer
import ManagedTransport.Address.Resolve
import ManagedTransport.Proofs.HostTexts

/-!
# Bind addresses without brackets

A bind address may leave out the brackets around an IPv6 host, and this changes nothing else.
What the host of a text names is left to the system where the text is no literal.  Systems differ
in the hosts they know: one reads IPv6 hosts without brackets by itself, another does not.  All
that is said here holds on each of them.

* `HostReader` — a system that knows no brackets, of which `HostReader.numeric` is one;
* `resolveChars_bracketed`, `resolveBindChars_bare` — an IPv6 host is the same with brackets and
  without;
* `resolveBindChars_of_count` — nothing changes where there is one colon at most;
* `of_resolveChars_bracketed` — what brackets add is an IPv6 host before the last colon;
* `BracketsOptional` — all this about two ways to resolve, and `brackets_optional` — that it is so.
-/

namespace ManagedTransport

open Text

/-! ### Ports -/

namespace Address

theorem isHex_of_port? {cs : List Char} {port : UInt16} (h : port? cs = some port) :
    ∀ c ∈ cs, IsHex c := by
  obtain ⟨n, hn, -⟩ := Option.map_eq_some_iff.mp h
  exact isHex_of_decimalBelow? hn

theorem port?_digits (port : UInt16) : port? (digits 10 port.toNat) = some port := by
  rw [port?, decimalBelow?_digits port.toNat_lt]
  simp

theorem colon_not_mem_port {cs : List Char} {port : UInt16} (h : port? cs = some port) :
    ':' ∉ cs := fun hmem => absurd (isHex_of_port? h ':' hmem) (by decide)

end Address

open Address in
/-- A port of digits needs no sign. -/
theorem signedPort?_of_port? {cs : List Char} {port : UInt16} (h : port? cs = some port) :
    signedPort? cs = some port := by
  unfold signedPort?
  split
  · have hplus := isHex_of_port? h '+' List.mem_cons_self
    exact absurd hplus (by decide)
  · exact h

/-! ### Dotted hosts -/

namespace Ip4

/-- A character that stands in a part of a dotted host. -/
def IsPartChar (c : Char) : Prop := IsHex c ∨ c = 'x' ∨ c = 'X'

instance (c : Char) : Decidable (IsPartChar c) := inferInstanceAs (Decidable (_ ∨ _))

theorem isPartChar_of_part? {cs : List Char} {n : Nat} (h : part? cs = some n) :
    ∀ c ∈ cs, IsPartChar c := by
  have hmarked : ∀ {x : Char} {rest : List Char}, IsPartChar x → natOf? 16 rest = some n →
      ∀ c ∈ '0' :: x :: rest, IsPartChar c := by
    intro x rest hx hrest c hc
    rcases List.mem_cons.mp hc with rfl | hc
    · decide
    · rcases List.mem_cons.mp hc with rfl | hc
      · exact hx
      · exact .inl (isHex_of_natOf? hrest c hc)
  unfold part? at h
  split at h
  · exact hmarked (by decide) h
  · exact hmarked (by decide) h
  · exact fun c hc => .inl (isHex_of_natOf? h c hc)
  · exact fun c hc => .inl (isHex_of_natOf? h c hc)

theorem isPartChar_of_join? {room n : Nat} {ps : List (List Char)} (h : join? room ps = some n) :
    ∀ p ∈ ps, ∀ c ∈ p, IsPartChar c := by
  fun_induction join? room ps generalizing n with
  | case1 => cases h
  | case2 room q =>
      intro p hp
      rw [List.mem_singleton.mp hp]
      exact isPartChar_of_part? (Option.filter_eq_some_iff.mp h).1
  | case3 room q ps _ ih =>
      simp only [Option.bind_eq_bind, Option.bind_eq_some_iff] at h
      obtain ⟨first, hfirst, rest, hrest, -⟩ := h
      intro p hp
      rcases List.mem_cons.mp hp with rfl | hlater
      · exact isPartChar_of_part? (Option.filter_eq_some_iff.mp hfirst).1
      · exact ih hrest p hlater

/-- **A dotted host consists of its parts and of dots.** -/
theorem isPartChar_of_readShort? {cs : List Char} {ip : Ip4} (h : readShort? cs = some ip) :
    ∀ c ∈ cs, c = '.' ∨ IsPartChar c := by
  intro c hc
  unfold readShort? at h
  simp only at h
  split at h
  · obtain ⟨n, hn, -⟩ := Option.map_eq_some_iff.mp h
    obtain hdot | ⟨p, hp, hmem⟩ := mem_split '.' hc
    · exact .inl hdot
    · exact .inr (isPartChar_of_join? hn p hp c hmem)
  · cases h

theorem readShort?_eq_none {c : Char} {cs : List Char} (hc : ¬ (c = '.' ∨ IsPartChar c))
    (hmem : c ∈ cs) : readShort? cs = none :=
  Option.eq_none_iff_forall_ne_some.mpr fun _ h => hc (isPartChar_of_readShort? h c hmem)

end Ip4

/-! ### Literals -/

namespace Address

/-- A host in brackets with its port is a literal. -/
theorem literal?_bracketed {host port : List Char} {ip : Ip6} {scope : UInt32} {p : UInt16}
    (hhost : Ip6.readScoped? host = some (ip, scope)) (hport : port? port = some p) :
    literal? ('[' :: host ++ [']', ':'] ++ port) = some (.v6 ip scope p) := by
  have hbracket : ']' ∉ host := Ip6.not_mem_of_readScoped? hhost (by decide)
  have hcut : cutFirst? ']' (host ++ [']', ':'] ++ port) = some (host, ':' :: port) := by
    rw [List.append_assoc]
    exact cutFirst?_append hbracket (':' :: port)
  rw [List.cons_append, List.cons_append, literal?, hcut]
  simp [hhost, hport]

/-- A literal in brackets is what stands in them with the port behind them. -/
theorem of_literal?_bracketed {host port : List Char} {a : Address} (hcolon : ':' ∉ port)
    (h : literal? ('[' :: host ++ [']', ':'] ++ port) = some a) :
    ∃ ip scope p, Ip6.readScoped? host = some (ip, scope) ∧ port? port = some p ∧
      a = .v6 ip scope p := by
  rw [List.cons_append, List.cons_append, literal?] at h
  split at h
  · next inside port2 hcut =>
    simp only [Option.bind_eq_bind, Option.bind_eq_some_iff] at h
    obtain ⟨⟨ip, scope⟩, hhost, p, hport, hsame⟩ := h
    -- the last colon is before the port, wherever the first closing bracket is
    have hfirst := (cutFirst?_eq_some_iff.mp hcut).1
    have hlast := cutLast?_append (colon_not_mem_port hport) (inside ++ [']'])
    have hlast2 := cutLast?_append hcolon (host ++ [']'])
    simp only [List.append_assoc, List.cons_append, List.nil_append] at hfirst hlast hlast2
    rw [← hfirst, hlast2, Option.some.injEq, Prod.mk.injEq, List.append_cancel_right_eq] at hlast
    obtain ⟨rfl, rfl⟩ := hlast
    cases hsame
    exact ⟨ip, scope, p, hhost, hport, rfl⟩
  · cases h

/-- A text with several colons and without brackets is no literal. -/
theorem literal?_bare {host : List Char} (hcolon : ':' ∈ host) (hbracket : '[' ∉ host)
    (port : List Char) : literal? (host ++ ':' :: port) = none := by
  obtain ⟨front, back, rfl, hfront⟩ := List.eq_append_cons_of_mem hcolon
  have hport : port? (back ++ ':' :: port) = none :=
    Option.eq_none_iff_forall_ne_some.mpr fun p hp => colon_not_mem_port hp (by simp)
  have hcut : cutFirst? ':' (front ++ ':' :: back ++ ':' :: port) =
      some (front, back ++ ':' :: port) := by
    rw [List.append_assoc, List.cons_append]
    exact cutFirst?_append hfront (back ++ ':' :: port)
  unfold literal?
  split
  · next cs htext =>
    -- the text begins with the host, whose first colon is there
    have hmem : '[' ∈ front ++ ':' :: back := by
      cases front with
      | nil => cases htext
      | cons c front =>
          cases htext
          exact List.mem_cons_self
    exact absurd hmem hbracket
  · rw [hcut]
    simp [hport]

end Address

/-! ### Systems -/

/-- A system that knows no brackets, and for which an IPv6 host stands for itself if it stands for
anything. -/
structure HostReader extends Resolver where
  lookup_bracket : ∀ host port a as, lookup ('[' :: host) port ≠ .ok (a :: as)
  lookup_host6 : ∀ {host ip scope}, Ip6.readScoped? host = some (ip, scope) → ∀ port a as,
    lookup host port = .ok (a :: as) → a = .v6 ip scope port

namespace HostReader

/-- A system that reads the short dotted forms and IPv6 hosts. -/
def numeric : HostReader where
  toResolver := .numeric
  lookup_bracket host port a as := by
    have hdotted : Ip4.readShort? ('[' :: host) = none :=
      Ip4.readShort?_eq_none (c := '[') (by decide) List.mem_cons_self
    have hhost : Ip6.readScoped? ('[' :: host) = none :=
      Option.eq_none_iff_forall_ne_some.mpr fun _ h =>
        Ip6.not_mem_of_readScoped? h (c := '[') (by decide) List.mem_cons_self
    simp [Resolver.numeric, Address.ofHost?, hdotted, hhost]
  lookup_host6 {host ip scope} h port a as hfound := by
    have hdotted : Ip4.readShort? host = none :=
      Ip4.readShort?_eq_none (c := ':') (by decide) (Ip6.colon_mem_of_readScoped? h)
    simp only [Resolver.numeric, Address.ofHost?, hdotted, h, Option.map_some, Except.ok.injEq,
      List.cons.injEq] at hfound
    exact hfound.1.symm

/-- A system that reads the short dotted forms alone. -/
def dotted : HostReader where
  lookup host port := .ok ((Ip4.readShort? host).map (.v4 · port)).toList
  lookup_bracket host port a as := by
    rw [Ip4.readShort?_eq_none (c := '[') (by decide) List.mem_cons_self]
    nofun
  lookup_host6 {host ip scope} h port a as hfound := by
    rw [Ip4.readShort?_eq_none (c := ':') (by decide) (Ip6.colon_mem_of_readScoped? h)] at hfound
    cases hfound

end HostReader

/-! ### What is resolved -/

section

variable {host port : List Char} {ip : Ip6} {scope : UInt32} {p : UInt16}

namespace Resolver

variable (system : Resolver)

/-- The first of the addresses that the system gives is taken. -/
theorem first_eq_ok_iff {system : Resolver} {a : Address} :
    system.first host p = .ok a ↔ ∃ as, system.lookup host p = .ok (a :: as) := by
  unfold first
  split
  · next a2 as hfound => simp [hfound]
  · next hnone => simp [hnone]
  · next words herror => simp [herror]

/-- What resolves in general resolves to the same for binding. -/
theorem resolveBindChars_of_ok {cs : List Char} {a : Address}
    (h : system.resolveChars cs = .ok a) : system.resolveBindChars cs = .ok a := by
  rw [resolveBindChars, h]

/-- A host in brackets is a literal on every system. -/
theorem resolveChars_bracketed (hhost : Ip6.readScoped? host = some (ip, scope))
    (hport : Address.port? port = some p) :
    system.resolveChars ('[' :: host ++ [']', ':'] ++ port) = .ok (.v6 ip scope p) := by
  rw [resolveChars, Address.literal?_bracketed hhost hport]

/-- With one colon at most there is nothing to put into brackets. -/
theorem resolveBindChars_of_count {cs : List Char} (h : cs.count ':' ≤ 1) :
    system.resolveBindChars cs = system.resolveChars cs := by
  rw [resolveBindChars]
  split
  · next a ha => exact ha.symm
  · next e he =>
    split
    · exact he.symm
    · next host port hcut =>
      have hcs := (cutLast?_eq_some_iff.mp hcut).1
      have hcolon : ':' ∉ host := by
        intro hmem
        have hpos := List.count_pos_iff.mpr hmem
        rw [hcs, List.count_append, List.count_cons_self] at h
        omega
      simp [hcolon, he]

end Resolver

namespace HostReader

variable (system : HostReader)

/-- **Without brackets the host is the same**, whether the system reads it or not. -/
theorem resolveBindChars_bare (hhost : Ip6.readScoped? host = some (ip, scope))
    (hport : Address.port? port = some p) :
    system.resolveBindChars (host ++ ':' :: port) = .ok (.v6 ip scope p) := by
  have hcolon := Ip6.colon_mem_of_readScoped? hhost
  have hbracket : '[' ∉ host := Ip6.not_mem_of_readScoped? hhost (by decide)
  have hnul : '\x00' ∉ host := Ip6.not_mem_of_readScoped? hhost (by decide)
  have hcut := cutLast?_append (Address.colon_not_mem_port hport) host
  have hgeneral : system.resolveChars (host ++ ':' :: port) = system.first host p := by
    simp [Resolver.resolveChars, Address.literal?_bare hcolon hbracket, hcut,
      signedPort?_of_port? hport, hnul]
  rcases hfirst : system.first host p with e | a
  · rw [Resolver.resolveBindChars, hgeneral, hfirst, hcut]
    simp only [List.contains_iff_mem.mpr hcolon, if_pos]
    exact system.resolveChars_bracketed hhost hport
  · obtain ⟨as, hfound⟩ := Resolver.first_eq_ok_iff.mp hfirst
    rw [system.lookup_host6 hhost p a as hfound] at hfirst
    exact system.resolveBindChars_of_ok (hgeneral.trans hfirst)

/-- What resolves in brackets is an IPv6 host: a system knows no brackets. -/
theorem of_resolveChars_bracketed {a : Address} (hcolon : ':' ∉ port)
    (h : system.resolveChars ('[' :: host ++ [']', ':'] ++ port) = .ok a) :
    ∃ ip scope p, Ip6.readScoped? host = some (ip, scope) ∧ Address.port? port = some p ∧
      a = .v6 ip scope p := by
  rcases hliteral : Address.literal? ('[' :: host ++ [']', ':'] ++ port) with _ | a2
  · -- what is no literal is left to the system, brackets and all
    have hcut : cutLast? ':' ('[' :: host ++ [']', ':'] ++ port) =
        some ('[' :: (host ++ [']']), port) := by
      have hlast := cutLast?_append hcolon ('[' :: (host ++ [']']))
      simpa only [List.cons_append, List.append_assoc, List.nil_append] using hlast
    rw [Resolver.resolveChars, hliteral] at h
    simp only [hcut] at h
    split at h
    · cases h
    · split at h
      · cases h
      · obtain ⟨as, hfound⟩ := Resolver.first_eq_ok_iff.mp h
        exact absurd hfound (system.lookup_bracket _ _ _ _)
  · rw [Resolver.resolveChars, hliteral] at h
    cases h
    exact Address.of_literal?_bracketed hcolon hliteral

end HostReader

end

/-! ### Bind addresses -/

/-- Bind addresses resolve as other addresses do, but for the brackets. -/
structure BracketsOptional (resolve resolveBind : String → Except Unresolved Address) : Prop where
  /-- Every text of an IPv6 host, with or without its scope, needs no brackets before its port. -/
  bare : ∀ {ip : Ip6} {scope : UInt32} {host : List Char}, ip.Named scope host →
    ∀ port : UInt16, resolveBind (String.ofList (host ++ ':' :: digits 10 port.toNat)) =
      .ok (.v6 ip scope port)
  /-- It may have them. -/
  bracketed : ∀ {ip : Ip6} {scope : UInt32} {host : List Char}, ip.Named scope host →
    ∀ port : UInt16, resolveBind
      (String.ofList ('[' :: host ++ [']', ':'] ++ digits 10 port.toNat)) = .ok (.v6 ip scope port)
  /-- The canonical text of a host is one of these. -/
  canonical : ∀ (ip : Ip6) (scope : UInt32), ip.Named scope (ip.text ++ Address.scopeText scope)
  /-- What resolves in general resolves to the same address. -/
  agrees : ∀ {value : String} {a : Address}, resolve value = .ok a → resolveBind value = .ok a
  /-- With one colon at most there is no difference, nor is there one between the errors. -/
  one_colon : ∀ {value : String}, value.toList.count ':' ≤ 1 → resolveBind value = resolve value
  /-- What resolves for binding alone is an IPv6 host before the last colon, a port after it. -/
  added : ∀ {value : String} {e : Unresolved} {a : Address}, resolve value = .error e →
    resolveBind value = .ok a → ∃ host port ip scope p, value.toList = host ++ ':' :: port ∧
      ':' ∉ port ∧ Ip6.readScoped? host = some (ip, scope) ∧ Address.port? port = some p ∧
      a = .v6 ip scope p

theorem HostReader.bracketsOptional (system : HostReader) :
    BracketsOptional system.resolve system.resolveBind where
  bare {ip scope host} h port := by
    rw [Resolver.resolveBind, String.toList_ofList]
    exact system.resolveBindChars_bare h.readScoped? (Address.port?_digits port)
  bracketed {ip scope host} h port := by
    rw [Resolver.resolveBind, String.toList_ofList]
    apply system.resolveBindChars_of_ok
    exact system.resolveChars_bracketed h.readScoped? (Address.port?_digits port)
  canonical := Ip6.named_text
  agrees h := system.resolveBindChars_of_ok h
  one_colon h := system.resolveBindChars_of_count h
  added {value e a} hgeneral hbind := by
    rw [Resolver.resolve] at hgeneral
    rw [Resolver.resolveBind, Resolver.resolveBindChars, hgeneral] at hbind
    simp only at hbind
    split at hbind
    · cases hbind
    · next host port hcut =>
      obtain ⟨hvalue, hcolon⟩ := cutLast?_eq_some_iff.mp hcut
      split at hbind
      · obtain ⟨ip, scope, p, hhost, hport, ha⟩ := system.of_resolveChars_bracketed hcolon hbind
        exact ⟨host, port, ip, scope, p, hvalue, hcolon, hhost, hport, ha⟩
      · cases hbind

/-- **Bind addresses need no brackets**, and nothing else is different about them: so it is with
numeric hosts, and on every system that knows no brackets itself. -/
theorem brackets_optional : BracketsOptional resolve resolveBind ∧
    ∀ system : HostReader, BracketsOptional system.resolve system.resolveBind := by
  constructor
  · exact HostReader.numeric.bracketsOptional
  · exact HostReader.bracketsOptional

/-- Where only dotted hosts are read, brackets make the difference. -/
example : HostReader.dotted.resolve "::1:4443" = .error .noAddress ∧
    HostReader.dotted.resolveBind "::1:4443" =
      .ok (.v6 ⟨[0, 0, 0, 0, 0, 0, 0, 1], rfl⟩ 0 4443) := ⟨rfl, rfl⟩

end ManagedTransport
