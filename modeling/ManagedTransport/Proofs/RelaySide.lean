import ManagedTransport.Proofs.Account
import ManagedTransport.SafeCookie.Relay

/-!
# Where a relay can be while it authenticates

`RelayAt` lists the moments of the relay's side of authentication, each with
the account that the relay can then give.  `relay_keeps` says that there are no
others, whatever the client sends and however the wire fails.
-/

namespace ManagedTransport.SafeCookie

open Dialogue

/-- The moments of the relay's side of authentication.  `nc` and `ns` are the
client's and the server's nonce, `hash` is the client's hash, and `p` is the
part of a message that is written. -/
inductive RelayAt (cookie : Cookie) : Moment Unit → Account → Prop
  | offering {p s l} (part : p <+: [safeCookie, 0]) :
      RelayAt cookie .writes ⟨[], p, [], s, l⟩
  | awaitingSelection {s l} :
      RelayAt cookie .waits ⟨[], [safeCookie, 0], [], s, l⟩
  | unsupported {selected s l} (other : selected ≠ safeCookie) :
      RelayAt cookie (.gaveUp (.auth (.unsupportedSelection selected.toNat)))
        ⟨[selected], [safeCookie, 0], [], s, l⟩
  | awaitingNonce {bs s l} (short : bs.length < 32) :
      RelayAt cookie .waits ⟨safeCookie :: bs, [safeCookie, 0], [], s, l⟩
  | challenged {nc s l} (long : nc.length = 32) :
      RelayAt cookie .thinks ⟨safeCookie :: nc, [safeCookie, 0], [], s, l⟩
  | proving {nc ns p s l} (long : nc.length = 32) (longNonce : ns.length = 32)
      (part : p <+: serverHash cookie.secret nc ns ++ ns) :
      RelayAt cookie .writes ⟨safeCookie :: nc, safeCookie :: 0 :: p, [ns], s, l⟩
  | awaitingHash {nc ns bs s l} (long : nc.length = 32) (longNonce : ns.length = 32)
      (short : bs.length < 32) :
      RelayAt cookie .waits
        ⟨safeCookie :: (nc ++ bs), safeCookie :: 0 :: (serverHash cookie.secret nc ns ++ ns),
          [ns], s, l⟩
  | accepting {nc ns p s l} (long : nc.length = 32) (longNonce : ns.length = 32)
      (part : p <+: [success]) :
      RelayAt cookie .writes
        ⟨safeCookie :: (nc ++ clientHash cookie.secret nc ns),
          safeCookie :: 0 :: (serverHash cookie.secret nc ns ++ (ns ++ p)), [ns], s, l⟩
  | through {nc ns s l} (long : nc.length = 32) (longNonce : ns.length = 32) :
      RelayAt cookie (.done ())
        ⟨safeCookie :: (nc ++ clientHash cookie.secret nc ns),
          safeCookie :: 0 :: (serverHash cookie.secret nc ns ++ (ns ++ [success])), [ns], s, l⟩
  | refusing {nc ns hash p s l} (long : nc.length = 32) (longNonce : ns.length = 32)
      (longHash : hash.length = 32) (wrong : hash ≠ clientHash cookie.secret nc ns)
      (part : p <+: [failure]) :
      RelayAt cookie .writes
        ⟨safeCookie :: (nc ++ hash),
          safeCookie :: 0 :: (serverHash cookie.secret nc ns ++ (ns ++ p)), [ns], s, l⟩
  | refused {nc ns hash s l} (long : nc.length = 32) (longNonce : ns.length = 32)
      (longHash : hash.length = 32) (wrong : hash ≠ clientHash cookie.secret nc ns) :
      RelayAt cookie (.gaveUp (.auth .clientHashMismatch))
        ⟨safeCookie :: (nc ++ hash),
          safeCookie :: 0 :: (serverHash cookie.secret nc ns ++ (ns ++ [failure])), [ns], s, l⟩

/-- **A relay is where `RelayAt` says**, at every moment, whatever it is told. -/
theorem relay_keeps (cookie : Cookie) (s : AuthStep) :
    Keeps (RelayAt cookie) (relay cookie) (.fresh s) := by
  simp only [relay, say, push, readOctet, nonce, Dialogue.read, bind_def, Dialogue.bind, Keeps,
    Account.fresh, Account.say, Account.hear, List.nil_append]
  refine ⟨fun p hp => .offering hp, .offering (List.prefix_refl _), .awaitingSelection,
    fun selected => ?_⟩
  by_cases hsel : selected = safeCookie
  · subst hsel
    simp only [if_true, Keeps, Account.hear, Account.draw, Account.say, List.nil_append,
      List.cons_append]
    refine ⟨fun bs short => .awaitingNonce short, fun nc long => ⟨.challenged long,
      fun ns longNonce => ⟨fun p hp => .proving long longNonce hp,
      .proving long longNonce (List.prefix_refl _),
      fun bs short => .awaitingHash long longNonce short, fun hash longHash => ?_⟩⟩⟩
    by_cases hsame : sameHash hash (clientHash cookie.secret nc ns) = true
    · obtain rfl := sameHash_iff.mp hsame
      simp only [hsame, if_true, sendStatus, say, push, bind_def, Dialogue.bind, Keeps,
        Account.say, List.append_assoc, List.cons_append]
      exact ⟨fun p hp => .accepting long longNonce hp,
        .accepting long longNonce (List.prefix_refl _), .through long longNonce⟩
    · have wrong := mt sameHash_iff.mpr hsame
      simp only [if_neg hsame, sendStatus, say, push, refuse, bind_def, Dialogue.bind, Keeps,
        Account.say, List.append_assoc, List.cons_append]
      exact ⟨fun p hp => .refusing long longNonce longHash wrong hp,
        .refusing long longNonce longHash wrong (List.prefix_refl _),
        .refused long longNonce longHash wrong⟩
  · rw [if_neg hsel]
    exact .unsupported hsel

/-- What a relay has said at any moment: octets of its offer; or, once it was
given a nonce and drew one, octets of its proof; or, once it was given a hash,
all of its proof and the status that the hash deserves. -/
theorem RelayAt.said_cases {cookie : Cookie} {m : Moment Unit} {h : Account}
    (hat : RelayAt cookie m h) :
    (h.said <+: [safeCookie, 0] ∧ h.drawn = []) ∨
    ∃ nc ns rest, nc.length = 32 ∧ ns.length = 32 ∧ h.drawn = [ns] ∧
      h.heard = safeCookie :: (nc ++ rest) ∧
      ((∃ p, p <+: serverHash cookie.secret nc ns ++ ns ∧ h.said = safeCookie :: 0 :: p) ∨
        ∃ p, h.said = safeCookie :: 0 :: (serverHash cookie.secret nc ns ++ (ns ++ p)) ∧
          (rest = clientHash cookie.secret nc ns ∧ p <+: [success] ∨ p <+: [failure])) := by
  cases hat with
  | offering part => exact .inl ⟨part, rfl⟩
  | awaitingSelection | unsupported | awaitingNonce | challenged =>
      exact .inl ⟨List.prefix_refl _, rfl⟩
  | @proving nc ns p s l long longNonce part =>
      exact .inr ⟨nc, ns, [], long, longNonce, rfl, by simp, .inl ⟨p, part, rfl⟩⟩
  | @awaitingHash nc ns bs s l long longNonce short =>
      exact .inr ⟨nc, ns, bs, long, longNonce, rfl, rfl, .inl ⟨_, List.prefix_refl _, rfl⟩⟩
  | @accepting nc ns p s l long longNonce part =>
      exact .inr ⟨nc, ns, _, long, longNonce, rfl, rfl, .inr ⟨p, rfl, .inl ⟨rfl, part⟩⟩⟩
  | @through nc ns s l long longNonce =>
      exact .inr ⟨nc, ns, _, long, longNonce, rfl, rfl,
        .inr ⟨_, rfl, .inl ⟨rfl, List.prefix_refl _⟩⟩⟩
  | @refusing nc ns hash p s l long longNonce longHash wrong part =>
      exact .inr ⟨nc, ns, hash, long, longNonce, rfl, rfl, .inr ⟨p, rfl, .inr part⟩⟩
  | @refused nc ns hash s l long longNonce longHash wrong =>
      exact .inr ⟨nc, ns, hash, long, longNonce, rfl, rfl,
        .inr ⟨_, rfl, .inr (List.prefix_refl _)⟩⟩

end ManagedTransport.SafeCookie
