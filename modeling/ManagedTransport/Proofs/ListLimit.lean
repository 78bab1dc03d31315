import ManagedTransport.Proofs.Verdict

/-!
# How long a list of auth types may be

There is room for 256 auth types, and a client looks for the zero that ends them only while
there is room for one more.  So a list of 255 types is taken up, and one of 256 is refused,
also if its zero comes next.

* `authTypes_ended`, `authTypes_crowded` — a list that is short enough, and one that is not;
* `authTypes_limit` — reading gives the list exactly if there are fewer types than there is
  room for, and so does a client that it is offered to go on; on no wire is a list refused
  for its length that has fewer;
* `full_list_refused` — a list that just fills the room is refused.
-/

namespace ManagedTransport

namespace SafeCookie

variable {e : Endpoint} {types rest : Bytes}

/-- A list with fewer types than there is room for is taken up where octets flow. -/
theorem authTypes_ended (h : e.Flowing) (nonzero : 0 ∉ types) (room : types.length < maxAuthTypes)
    (hpending : e.pending = types ++ 0 :: rest) :
    ∃ e2, authTypes.hold .authentication e = (.done types, e2) ∧ e2.pending = rest := by
  obtain ⟨mid, htake, hgiven⟩ := Endpoint.take_flowing h hpending
  have hpending2 : mid.pending = 0 :: rest := hgiven.left hpending
  obtain ⟨e2, hnext, hgiven2⟩ := Endpoint.next_flowing_cons hgiven.flowing hpending2
  exact ⟨e2, authTypes_of_take nonzero room htake hnext, hgiven2.left hpending2⟩

/-- A list with as many types as there is room for, or more, is refused where octets flow.
As many types as there is room for have been taken then. -/
theorem authTypes_crowded (h : e.Flowing) (nonzero : 0 ∉ types)
    (full : maxAuthTypes ≤ types.length) (hpending : e.pending = types ++ rest) :
    ∃ e2, authTypes.hold .authentication e =
        (.failed (.protocol (.authTypesTooLong maxAuthTypes)), e2) ∧
      e2.pending = types.drop maxAuthTypes ++ rest := by
  have hlen : (types.take maxAuthTypes).length = maxAuthTypes := List.length_take_of_le full
  have nonzero2 : 0 ∉ types.take maxAuthTypes := fun hmem => nonzero (List.mem_of_mem_take hmem)
  have hpending2 : e.pending = types.take maxAuthTypes ++ (types.drop maxAuthTypes ++ rest) := by
    rw [← List.append_assoc, List.take_append_drop, hpending]
  obtain ⟨e2, htake, hgiven⟩ := Endpoint.take_flowing h hpending2
  exact ⟨e2, authTypes_of_full nonzero2 hlen htake, hgiven.left hpending2⟩

/-- Who has said nothing has not said anything more. -/
theorem not_prefix_of_silent {sent : Bytes} (b : UInt8) : ¬ sent ++ [b] <+: sent ++ [] := by
  intro hprefix
  have hlen := hprefix.length_le
  simp only [List.length_append, List.length_cons, List.length_nil] at hlen
  omega

/-- A client that is offered the safe cookie selects it exactly if the list is short enough. -/
theorem selects_iff (cookie : Cookie) (flowing : Wire.Flowing e.wire.arrivals)
    (taking : e.wire.Taking) (patient : e.deadline = none) (nonzero : 0 ∉ types)
    (offered : safeCookie ∈ types) (hpending : e.wire.pending = types ++ 0 :: rest) :
    e.wire.sent ++ [safeCookie] <+: (e.handshake cookie).2.wire.sent ↔
      types.length < maxAuthTypes := by
  constructor
  · intro hsent
    apply Nat.lt_of_not_le
    intro full
    obtain ⟨front, back, rfl, hfront⟩ := Bytes.exists_front full
    have nonzero2 : 0 ∉ front := fun hmem => nonzero (List.mem_append_left back hmem)
    rw [List.append_assoc] at hpending
    have verdict : Verdict cookie e.supply.draw.1 (fun n => Wire.behind n e.wire.arrivals)
        (front ++ (back ++ 0 :: rest)) _ := .tooLong nonzero2 hfront
    rw [← hpending] at verdict
    have hreports := Endpoint.handshake_reports flowing taking patient verdict
    rw [hreports.said] at hsent
    exact not_prefix_of_silent safeCookie hsent
  · intro room
    obtain ⟨r, verdict, p, hsaid⟩ : ∃ r, Verdict cookie e.supply.draw.1
        (fun n => Wire.behind n e.wire.arrivals) (types ++ 0 :: rest) r ∧
        safeCookie :: e.supply.draw.1 <+: r.said :=
      Verdict.exists_of_offered ⟨⟨nonzero, room⟩, offered⟩ rest
    rw [← hpending] at verdict
    have hreports := Endpoint.handshake_reports flowing taking patient verdict
    rw [hreports.said, ← hsaid, List.cons_append, List.prefix_append_right_inj]
    exact ⟨_, rfl⟩

/-- **The limit on auth types.**  Where octets flow, and whatever stands behind it, a list is
read exactly if it has fewer types than there is room for, and else it is refused when as
many as there is room for have been taken, its zero being left where it stands.  A client
that the safe cookie is offered to in it selects that in the first case only.  On any wire a
list is refused for its length only when that many octets other than zero have come. -/
theorem authTypes_limit (e : Endpoint) :
    (∀ types rest : Bytes, e.Flowing → 0 ∉ types → e.pending = types ++ 0 :: rest →
      ((∃ e2, authTypes.hold .authentication e = (.done types, e2) ∧ e2.pending = rest) ↔
        types.length < maxAuthTypes) ∧
      (maxAuthTypes ≤ types.length → ∃ e2, authTypes.hold .authentication e =
          (.failed (.protocol (.authTypesTooLong maxAuthTypes)), e2) ∧
        e2.pending = types.drop maxAuthTypes ++ 0 :: rest)) ∧
    (∀ (cookie : Cookie) (types rest : Bytes), Wire.Flowing e.wire.arrivals →
      e.wire.Taking → e.deadline = none → 0 ∉ types → safeCookie ∈ types →
      e.wire.pending = types ++ 0 :: rest →
      (e.wire.sent ++ [safeCookie] <+: (e.handshake cookie).2.wire.sent ↔
        types.length < maxAuthTypes)) ∧
    ∀ (e2 : Endpoint) (n : Nat), authTypes.hold .authentication e =
        (.failed (.protocol (.authTypesTooLong n)), e2) →
      n = maxAuthTypes ∧ ∃ types : Bytes, 0 ∉ types ∧ types.length = maxAuthTypes ∧
        e.pending = types ++ e2.pending := by
  refine ⟨?_, ?_, ?_⟩
  · intro types rest h nonzero hpending
    refine ⟨⟨?_, fun room => authTypes_ended h nonzero room hpending⟩,
      fun full => authTypes_crowded h nonzero full hpending⟩
    intro hread
    obtain ⟨e2, hread, -⟩ := hread
    apply Nat.lt_of_not_le
    intro full
    obtain ⟨e3, hrefused, -⟩ := authTypes_crowded h nonzero full hpending
    rw [hread] at hrefused
    cases hrefused
  · intro cookie types rest flowing taking patient nonzero offered hpending
    exact selects_iff cookie flowing taking patient nonzero offered hpending
  · intro e2 n hrefused
    obtain ⟨types, nonzero, hcases⟩ := authTypesFrom_cases hrefused
    rcases hcases with ⟨hr, -⟩ | ⟨hr, hlen, hpending⟩ | ⟨fault, hr⟩ | hr | hr
    case inr.inl =>
      cases hr
      exact ⟨Nat.zero_add _, types, nonzero, hlen, hpending⟩
    all_goals cases hr

/-- A party that is sent so many auth types, all of them the safe cookie, and then a zero. -/
def offeredOften (n : Nat) : Endpoint :=
  .ofWire (.ofArrivals [.data (List.replicate n safeCookie), .data [0]]) (.fresh [])

theorem offeredOften_flowing (n : Nat) :
    (offeredOften n).Flowing ∧ (offeredOften n).wire.Taking ∧
      (0 : UInt8) ∉ List.replicate n safeCookie ∧
      (offeredOften n).wire.pending = List.replicate n safeCookie ++ 0 :: [] := by
  refine ⟨⟨?_, rfl, Nat.one_pos⟩, ⟨nofun, rfl, rfl⟩, ?_, rfl⟩
  · simp [offeredOften, Endpoint.ofWire, Wire.ofArrivals, Wire.Flowing]
  · intro hmem
    exact absurd (List.eq_of_mem_replicate hmem) (by decide)

theorem offeredOften_offers {n : Nat} (h : n ≠ 0) :
    safeCookie ∈ List.replicate n safeCookie :=
  List.mem_replicate.mpr ⟨h, rfl⟩

/-- Of 255 types the list is read; a client selects the safe cookie from it. -/
theorem almost_full_list_read :
    (authTypes.hold .authentication (offeredOften 255)).1 =
        .done (List.replicate 255 safeCookie) ∧
      [safeCookie] <+: ((offeredOften 255).handshake (.monotone 0)).2.wire.sent := by
  obtain ⟨hflowing, htaking, nonzero, hpending⟩ := offeredOften_flowing 255
  have hlen : (List.replicate 255 safeCookie).length < maxAuthTypes := by
    rw [List.length_replicate]
    decide
  obtain ⟨hread, hselects, -⟩ := authTypes_limit (offeredOften 255)
  obtain ⟨e2, hdone, -⟩ := (hread _ _ hflowing nonzero hpending).1.mpr hlen
  refine ⟨congrArg Prod.fst hdone, ?_⟩
  exact (hselects (.monotone 0) _ _ hflowing.arrivals htaking rfl nonzero
    (offeredOften_offers (by decide)) hpending).mpr hlen

/-- **A list that just fills the room is refused**, and nothing is selected from it. -/
theorem full_list_refused :
    (List.replicate 256 safeCookie).length ≤ maxAuthTypes ∧
      (0 : UInt8) ∉ List.replicate 256 safeCookie ∧
      (offeredOften 256).pending = List.replicate 256 safeCookie ++ [0] ∧
      (authTypes.hold .authentication (offeredOften 256)).1 =
        .failed (.protocol (.authTypesTooLong 256)) ∧
      ¬ [safeCookie] <+: ((offeredOften 256).handshake (.monotone 0)).2.wire.sent := by
  obtain ⟨hflowing, htaking, nonzero, hpending⟩ := offeredOften_flowing 256
  have hlen : (List.replicate 256 safeCookie).length = maxAuthTypes := List.length_replicate
  obtain ⟨e2, hrefused, -⟩ :=
    authTypes_crowded hflowing nonzero (Nat.le_of_eq hlen.symm) hpending
  refine ⟨Nat.le_of_eq hlen, nonzero, hpending, congrArg Prod.fst hrefused, ?_⟩
  intro hselects
  have hlt := (selects_iff (.monotone 0) hflowing.arrivals htaking rfl nonzero
    (offeredOften_offers (by decide)) hpending).mp hselects
  omega

end SafeCookie

end ManagedTransport
