import ManagedTransport.Proofs.Approach
import ManagedTransport.Proofs.Deadline
import ManagedTransport.Proofs.Likeness

/-!
# What a client gives away

A client that has not verified the server has used its cookie for one comparison only, and
all that is left of that is that the hashes differ.  So a peer that cannot prove possession
of the cookie learns nothing about it: clients with different cookies do the same, and so
does a client that is sent another wrong hash, wherever it is wrong.

* `negotiate_unproved` — a client that does not get past the verification does what the
  approach does, and then gives up;
* `approach_parallel` — the approach makes the same moves whatever comes behind the list of
  auth types;
* `negotiate_discreet` — hence nothing is given away.
-/

namespace ManagedTransport

open Dialogue

/-- The octets up to the first zero: all that a list of auth types says. -/
def Bytes.upToZero (came : Bytes) : Bytes := came.takeWhile (· ≠ 0)

/-- Strings with the same octets up to the first zero have both a zero in front or neither,
and then begin alike and go on so. -/
theorem Bytes.upToZero_cons {b c : UInt8} {rest rest2 : Bytes}
    (same : upToZero (b :: rest) = upToZero (c :: rest2)) :
    b = 0 ∧ c = 0 ∨ b ≠ 0 ∧ b = c ∧ upToZero rest = upToZero rest2 := by
  by_cases hb : b = 0 <;> by_cases hc : c = 0 <;>
    simp only [upToZero, List.takeWhile_cons, hb, hc, ne_eq, not_true, not_false_eq_true,
      decide_true, decide_false, Bool.false_eq_true, if_true, if_false, List.cons.injEq,
      reduceCtorEq] at same
  · exact .inl ⟨hb, hc⟩
  · exact .inr ⟨hb, same⟩

namespace SafeCookie

variable {came came2 : Bytes}

/-- Reading auth types is the same whatever stands behind them. -/
theorem authTypesFrom_parallel {R : Bytes → Bytes → Bytes → Bytes → Prop} (room : Nat)
    (seen : Bytes) (same : came.upToZero = came2.upToZero)
    (results : ∀ offered rest rest2, R offered offered rest rest2) :
    Parallel R (authTypesFrom room seen) (authTypesFrom room seen) came came2 := by
  induction room generalizing came came2 seen with
  | zero => exact rfl
  | succ room ih =>
      rintro b c rest rest2 rfl rfl
      rcases Bytes.upToZero_cons same with ⟨rfl, rfl⟩ | ⟨hb, rfl, hrest⟩
      · exact results seen.reverse rest rest2
      · simp only [if_neg hb]
        exact ih (b :: seen) hrest

/-- The challenge is the same whatever the answer is. -/
theorem challenge_parallel :
    Parallel (fun _ _ _ _ => True) challenge challenge came came2 := by
  refine ⟨rfl, rfl, rfl, fun nc => ⟨rfl, rfl, rfl, ?_⟩⟩
  intro hash hash2 rest rest2 _ _ _ _
  exact ⟨rfl, fun _ _ _ _ _ _ _ _ => ⟨rfl, trivial⟩⟩

/-- **The approach is the same** whatever stands behind the list of auth types. -/
theorem approach_parallel (same : came.upToZero = came2.upToZero) :
    Parallel (fun _ _ _ _ => True) approach approach came came2 := by
  refine parallel_bind (authTypesFrom_parallel maxAuthTypes [] same fun offered rest rest2 => ?_)
  by_cases h : offered.contains safeCookie = true
  · simp only [if_pos h]
    exact challenge_parallel
  · simp only [if_neg h]
    rfl

end SafeCookie

namespace Endpoint

open SafeCookie

variable {cookie cookie2 : Cookie} {info : SessionInfo} {limit : Nat} {e e2 : Endpoint}

/-- A client that negotiates does not get past the verification of the server. -/
def Unproved (cookie : Cookie) (info : SessionInfo) (limit : Nat) (e : Endpoint) : Prop :=
  (e.negotiate cookie info limit).2.step.verified = false

/-- A client that has negotiated. -/
def resting (e : Endpoint) : Endpoint := { e.dropAhead with deadline := none }

/-- What becomes of a client that does not get past the verification, after its approach:
an answer is wrong, and a wait that is too long is a timeout. -/
def givingUp (millis : Nat) : Ending Error Answer × Endpoint → Ending Error Unit × Endpoint
  | (.done _, e) => (.failed (.auth .serverHashMismatch), e.resting)
  | (.failed err, e) => (.failed err, e.resting)
  | (.late, e) => (.failed (.timeout millis), e.resting)
  | (.stuck, e) => (.failed (.timeout millis), e.resting)

/-- Setting the session up leaves the step. -/
theorem step_setup (info : SessionInfo) (e : Endpoint) : (e.setup info).2.step = e.step :=
  step_hold .setup (info.setup_notes (· = e.step)) rfl

/-- The step of a client that has negotiated is the one that it authenticated to. -/
theorem step_negotiate (cookie : Cookie) (info : SessionInfo) (limit : Nat) (e : Endpoint) :
    (e.negotiate cookie info limit).2.step = ((e.hurried limit).handshake cookie).2.step := by
  have hsetup := step_setup info ((e.hurried limit).handshake cookie).2.dropAhead
  rw [hurried] at hsetup ⊢
  rcases hh : handshake cookie { e with deadline := some limit } with ⟨_ | err | _ | _, mid⟩ <;>
    rw [hh] at hsetup <;> simp only [negotiate, exchange, authenticate, hh]
  · rcases hs : mid.dropAhead.setup info with ⟨_ | err | _ | _, after⟩ <;> rw [hs] at hsetup <;>
      exact hsetup
  all_goals rfl

/-- **A client that does not get past the verification** does what the approach does, and
then gives up.  The cookie has no part in that. -/
theorem negotiate_unproved (h : e.Unproved cookie info limit) :
    e.negotiate cookie info limit =
      givingUp (limit - e.wire.clock)
        (approach.hold .authentication (e.hurried limit).settingOut) := by
  rw [Unproved, step_negotiate] at h
  have hsplit : (e.hurried limit).handshake cookie =
      (approach.bind (conclude cookie)).hold .authentication (e.hurried limit).settingOut := by
    rw [handshake_eq, client_eq]
  rw [hold_bind] at hsplit
  rcases ha : approach.hold .authentication (e.hurried limit).settingOut with
    ⟨a | err | _ | _, mid⟩ <;> rw [ha] at hsplit
  case done =>
    -- a client with a right answer goes on, so it cannot have stopped before
    by_cases right : a.Right cookie
    · rw [hsplit, conclude_right right] at h
      cases h
    · simp only [conclude_wrong right, hurried] at hsplit
      simp only [negotiate, exchange, authenticate, hsplit]
      rfl
  all_goals
    rw [hurried] at hsplit
    simp only [negotiate, exchange, authenticate, hsplit]
    rfl

theorem Like.settingOut (h : e.Like e2) (limit : Nat) :
    (e.hurried limit).settingOut.Like (e2.hurried limit).settingOut :=
  congrArg (fun x : Endpoint => (x.hurried limit).settingOut) h

theorem Like.resting (h : e.Like e2) : e.resting.Like e2.resting := congrArg Endpoint.resting h

/-- What is seen of two clients is the same: what each reports, what it has written, how
much it has taken from the wire and when, the step it has reached, and its draws. -/
structure Indistinguishable (x y : Ending Error Unit × Endpoint) : Prop where
  result : x.1 = y.1
  sent : x.2.wire.sent = y.2.wire.sent
  unread : x.2.wire.unread = y.2.wire.unread
  clock : x.2.wire.clock = y.2.wire.clock
  step : x.2.step = y.2.step
  supply : x.2.supply = y.2.supply

theorem Like.indistinguishable {r r2 : Ending Error Unit} (h : e.Like e2) (hr : r = r2) :
    Indistinguishable (r, e) (r2, e2) :=
  ⟨hr, h.sent, h.unread, h.clock, h.step, h.supply⟩

/-- Clients whose approaches are held alike give up alike. -/
theorem givingUp_alike {x y : Ending Error Answer × Endpoint} (millis : Nat)
    (h : HeldAlike (fun _ _ _ _ => True) x y) :
    Indistinguishable (givingUp millis x) (givingUp millis y) := by
  obtain ⟨r, a⟩ := x
  obtain ⟨r2, a2⟩ := y
  obtain ⟨hends, hlike⟩ := h
  cases hends <;> exact hlike.resting.indistinguishable rfl

/-- **Nothing is given away.**  Of two clients that do not get past the verification of the
server, neither tells its peer more about its cookie than the other.  On the same wire,
whatever happens there, they come to the same in everything.  On wires that are alike, and
that differ only in octets behind the list of auth types, no difference is seen: the first
octet of the server's hash may be wrong, or the last. -/
theorem negotiate_discreet (info : SessionInfo) (limit : Nat) :
    (∀ cookie cookie2 e, Unproved cookie info limit e → Unproved cookie2 info limit e →
      e.negotiate cookie info limit = e.negotiate cookie2 info limit) ∧
    ∀ cookie cookie2 (e e2 : Endpoint), e.Like e2 →
      e.wire.pending.upToZero = e2.wire.pending.upToZero →
      Unproved cookie info limit e → Unproved cookie2 info limit e2 →
      Indistinguishable (e.negotiate cookie info limit) (e2.negotiate cookie2 info limit) := by
  refine ⟨?_, ?_⟩
  · intro cookie cookie2 e h h2
    rw [negotiate_unproved h, negotiate_unproved h2]
  · intro cookie cookie2 e e2 hlike same h h2
    rw [negotiate_unproved h, negotiate_unproved h2, hlike.clock]
    have hparallel : Parallel (fun _ _ _ _ => True) approach approach
        (e.hurried limit).settingOut.pending (e2.hurried limit).settingOut.pending :=
      approach_parallel same
    exact givingUp_alike _ (hparallel.hold .authentication (hlike.settingOut limit))

/-- A client that faces a server without the cookie: it offers the safe cookie among others
and answers with this hash, in two pieces, and a nonce of zeros. -/
def duped (hash : Bytes) : Endpoint :=
  .ofWire (.ofArrivals [.data [7, 1, 0], .pause 3, .data (hash.take 5), .pause 2,
    .data (hash.drop 5 ++ Bytes.zeros 32)]) (.fresh [4])

/-- Whether the cookie is this one or that one, or the last octet of the hash this one or that
one, makes no difference. -/
theorem duped_alike :
    (duped (Bytes.zeros 32)).negotiate (.monotone 0) .nearby 50 =
        (duped (Bytes.zeros 32)).negotiate (.monotone 9) .nearby 50 ∧
      Indistinguishable ((duped (Bytes.zeros 32)).negotiate (.monotone 0) .nearby 50)
        ((duped (Bytes.zeros 31 ++ [1])).negotiate (.monotone 0) .nearby 50) := by
  have hwrong : Unproved (.monotone 0) .nearby 50 (duped (Bytes.zeros 32)) ∧
      Unproved (.monotone 9) .nearby 50 (duped (Bytes.zeros 32)) ∧
      Unproved (.monotone 0) .nearby 50 (duped (Bytes.zeros 31 ++ [1])) := by
    unfold Unproved
    decide +kernel
  obtain ⟨hthis, hthat, hlast⟩ := hwrong
  exact ⟨(negotiate_discreet .nearby 50).1 _ _ _ hthis hthat,
    (negotiate_discreet .nearby 50).2 _ _ _ _ rfl rfl hthis hlast⟩

end Endpoint

end ManagedTransport
