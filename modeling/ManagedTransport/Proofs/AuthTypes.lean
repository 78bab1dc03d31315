import ManagedTransport.Proofs.Flowing
import ManagedTransport.SafeCookie.Client

/-!
# Reading the list of auth types

A client reads auth types one by one, up to the zero that ends them, and there is room for
so many.  It looks for the zero only while there is room for one more type.

* `authTypesFrom_take` — auth types that come are taken up, as far as there is room;
* `authTypes_of_take`, `authTypes_of_full` — a list that ends in time, and one that does not;
* `authTypesFrom_cases` — what reading a list can come to, whatever the wire does.
-/

namespace ManagedTransport

namespace Endpoint

variable {e e2 : Endpoint} {n : Nat} {b : UInt8} {bs : Bytes}

/-- Who takes several octets takes one, and then the others. -/
theorem next_of_take (h : e.take (n + 1) = (.done (b :: bs), e2)) :
    ∃ mid, e.next = (.done (some b), mid) ∧ mid.take n = (.done bs, e2) := by
  rw [take, takeOnto] at h
  rcases hnext : e.next with ⟨(_ | c) | f | _ | _, mid⟩ <;> simp only [hnext] at h
  case done.some =>
    have hcons := Dialogue.takeOnto_cons n c [] mid
    rw [List.nil_append, h] at hcons
    rcases htake : takeOnto n [] mid with ⟨cs | f | _ | _, last⟩ <;> simp only [htake] at hcons
    case done =>
      cases hcons
      exact ⟨mid, rfl, htake⟩
    all_goals cases hcons
  all_goals cases h

end Endpoint

namespace SafeCookie

open Dialogue

variable {e mid e2 : Endpoint} {types : Bytes} {phase : Phase}

/-- **Auth types that are not zero** are taken up one after the other, as far as there is
room. -/
theorem authTypesFrom_take (nonzero : 0 ∉ types) (h : e.take types.length = (.done types, mid))
    (room : Nat) (seen : Bytes) :
    (authTypesFrom (types.length + room) seen).hold phase e =
      (authTypesFrom room (types.reverse ++ seen)).hold phase mid := by
  induction types generalizing e seen with
  | nil =>
      cases h
      rw [List.length_nil, Nat.zero_add]
      rfl
  | cons t types ih =>
      obtain ⟨ht, nonzero⟩ := not_or.mp (mt List.mem_cons.mpr nonzero)
      obtain ⟨e2, hnext, htake⟩ := Endpoint.next_of_take h
      rw [List.length_cons, Nat.add_right_comm, authTypesFrom]
      simp only [hold, hnext, if_neg (Ne.symm ht), ih nonzero htake (t :: seen), List.reverse_cons,
        List.append_assoc, List.singleton_append]

/-- A list that ends while there is room for one more type is taken up. -/
theorem authTypes_of_take (nonzero : 0 ∉ types) (room : types.length < maxAuthTypes)
    (h : e.take types.length = (.done types, mid)) (hend : mid.next = (.done (some 0), e2)) :
    authTypes.hold phase e = (.done types, e2) := by
  obtain ⟨more, hmore⟩ := Nat.exists_eq_add_of_lt room
  rw [authTypes, hmore, Nat.add_assoc, authTypesFrom_take nonzero h, authTypesFrom]
  simp only [hold, hend, if_true, List.append_nil, List.reverse_reverse]

/-- A list that takes all the room is given up, and it is not looked what comes next. -/
theorem authTypes_of_full (nonzero : 0 ∉ types) (full : types.length = maxAuthTypes)
    (h : e.take types.length = (.done types, e2)) :
    authTypes.hold phase e = (.failed (.protocol (.authTypesTooLong maxAuthTypes)), e2) := by
  rw [authTypes, ← full, ← Nat.add_zero types.length, authTypesFrom_take nonzero h]
  simp only [authTypesFrom, breach, hold, List.append_nil, List.length_reverse, Nat.add_zero]

/-- **What reading a list can come to**, whatever the wire does.  Octets other than zero were
taken, and then a zero while there was room for one more; or they took all the room; or
the wire fails, or does not answer in time. -/
theorem authTypesFrom_cases {room : Nat} {seen : Bytes} {r : Ending Error Bytes}
    (h : (authTypesFrom room seen).hold phase e = (r, e2)) :
    ∃ types, 0 ∉ types ∧
      (r = .done (seen.reverse ++ types) ∧ types.length < room ∧
          e.pending = types ++ 0 :: e2.pending ∨
        r = .failed (.protocol (.authTypesTooLong (seen.length + room))) ∧ types.length = room ∧
          e.pending = types ++ e2.pending ∨
        (∃ fault, r = .failed (.network (.io phase fault))) ∨ r = .late ∨ r = .stuck) := by
  induction room generalizing e seen with
  | zero =>
      cases h
      exact ⟨[], List.not_mem_nil, .inr (.inl ⟨rfl, rfl, rfl⟩)⟩
  | succ room ih =>
      rcases hnext : e.next with ⟨(_ | b) | fault | _ | _, mid⟩ <;>
        simp only [authTypesFrom, hold, hnext] at h
      case done.some =>
        have hpending := Endpoint.pending_next_some hnext
        by_cases hb : b = 0
        · subst hb
          rw [if_pos rfl] at h
          cases h
          exact ⟨[], List.not_mem_nil, .inl ⟨by simp, Nat.succ_pos room, hpending.symm⟩⟩
        · rw [if_neg hb] at h
          obtain ⟨types, nonzero, hcases⟩ := ih h
          refine ⟨b :: types, ?_, ?_⟩
          · intro hmem
            rcases List.mem_cons.mp hmem with hzero | hmem
            · exact hb hzero.symm
            · exact nonzero hmem
          · rcases hcases with ⟨hr, hlen, hrest⟩ | ⟨hr, hlen, hrest⟩ | hlost
            · refine .inl ⟨?_, Nat.succ_lt_succ hlen, ?_⟩
              · rw [hr, List.reverse_cons, List.append_assoc, List.singleton_append]
              · rw [← hpending, hrest, List.cons_append]
            · refine .inr (.inl ⟨?_, congrArg Nat.succ hlen, ?_⟩)
              · rw [hr, List.length_cons, Nat.add_right_comm, Nat.add_assoc]
              · rw [← hpending, hrest, List.cons_append]
            · exact .inr (.inr hlost)
      case done.none =>
        cases h
        exact ⟨[], List.not_mem_nil, .inr (.inr (.inl ⟨_, rfl⟩))⟩
      case failed =>
        cases h
        exact ⟨[], List.not_mem_nil, .inr (.inr (.inl ⟨fault, rfl⟩))⟩
      all_goals
        cases h
        exact ⟨[], List.not_mem_nil, by simp⟩

end SafeCookie

end ManagedTransport
