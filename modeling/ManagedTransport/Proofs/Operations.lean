import ManagedTransport.Proofs.Moves

/-!
# Operations on a wire

A party meets its wire in single operations: a read of at most so many octets, a write of
which the wire takes a part, a flush.  Operations that go well move the dialogue on; one
that does not halts it.

* `Wire.Undergoes`, `Wire.Undergone` — what one operation does to a wire, and a row of them;
* `Dialogue.operations` — the operations of a dialogue that is held at an endpoint, in order;
* `undergone_hold` — these, and no others, lead from the wire before to the wire after.
-/

namespace ManagedTransport

/-- One operation on a wire, with what came of it. -/
inductive Operation where
  /-- A read; `short` is what the end of the stream is to the one who reads. -/
  | read (window : Nat) (short : Fault) (outcome : Ending Fault Bytes)
  /-- A write of these octets, of which so many were taken. -/
  | write (octets : Bytes) (outcome : Except Fault Nat)
  | flush (outcome : Except Fault Unit)

/-- How an operation keeps a dialogue from going on. -/
inductive Halt where
  | fault (fault : Fault)
  | late
  | stuck
deriving DecidableEq

/-- How a dialogue ends that was halted. -/
def Halt.ending {α : Type} (phase : Phase) : Halt → Ending Error α
  | fault f => .failed (.network (.io phase f))
  | late => .late
  | stuck => .stuck

namespace Operation

/-- What there is to halt a dialogue: a fault, a wait that is not over in time, a read that
meets the end of the stream, a write that takes nothing. -/
def halt? : Operation → Option Halt
  | read _ short (.done []) => some (.fault short)
  | read _ _ (.done (_ :: _)) => none
  | read _ _ (.failed f) => some (.fault f)
  | read _ _ .late => some .late
  | read _ _ .stuck => some .stuck
  | write _ (.error f) => some (.fault f)
  | write _ (.ok 0) => some (.fault .nothingTaken)
  | write _ (.ok (_ + 1)) => none
  | flush (.error f) => some (.fault f)
  | flush (.ok ()) => none

/-- The operation moves the dialogue on. -/
def Passes (op : Operation) : Prop := op.halt? = none

/-- The operation fails by this fault. -/
def FailsBy (op : Operation) (f : Fault) : Prop := op.halt? = some (.fault f)

theorem FailsBy.not_passes {op : Operation} {f : Fault} (h : op.FailsBy f) : ¬ op.Passes := by
  intro hpass
  rw [FailsBy, hpass] at h
  cases h

end Operation

namespace Wire

/-- What an operation does to a wire. -/
inductive Undergoes (deadline : Option Nat) : Wire → Operation → Wire → Prop
  | read {w window short} : Undergoes deadline w
      (.read window short (w.read window deadline).1) (w.read window deadline).2
  | write {w bs n} (accepts : w.accepts bs.length = .ok n) :
      Undergoes deadline w (.write bs (.ok n)) (w.push (bs.take n))
  | refuse {w bs f} (accepts : w.accepts bs.length = .error f) :
      Undergoes deadline w (.write bs (.error f)) w
  | flush {w} : Undergoes deadline w (.flush w.flush.1) w.flush.2

/-- What operations do to a wire one after the other. -/
inductive Undergone (deadline : Option Nat) : Wire → List Operation → Wire → Prop
  | nil {w} : Undergone deadline w [] w
  | cons {w w2 w3 op ops} (first : Undergoes deadline w op w2)
      (rest : Undergone deadline w2 ops w3) : Undergone deadline w (op :: ops) w3

variable {deadline : Option Nat} {w w2 w3 : Wire} {ops ops2 : List Operation}

theorem Undergone.append (h : Undergone deadline w ops w2) (h2 : Undergone deadline w2 ops2 w3) :
    Undergone deadline w (ops ++ ops2) w3 := by
  induction h with
  | nil => exact h2
  | cons first _ ih => exact .cons first (ih h2)

/-- The writes by which octets go out. -/
def writeOperations (w : Wire) (bs : Bytes) : List Operation :=
  if bs = [] then []
  else
    match w.accepts bs.length with
    | .error f => [.write bs (.error f)]
    | .ok 0 => [.write bs (.ok 0)]
    | .ok (k + 1) =>
      .write bs (.ok (k + 1)) :: (w.push (bs.take (k + 1))).writeOperations (bs.drop (k + 1))
termination_by bs.length
decreasing_by
  have : bs.length ≠ 0 := by simpa using ‹¬bs = []›
  simp only [List.length_drop]
  omega

theorem undergone_write (deadline : Option Nat) (w : Wire) (bs : Bytes) :
    Undergone deadline w (w.writeOperations bs) (w.write bs).2 := by
  fun_induction write w bs with
  | case1 w =>
      rw [writeOperations, if_pos rfl]
      exact .nil
  | case2 w bs hne f hf =>
      simp only [writeOperations, if_neg hne, hf]
      exact .cons (.refuse hf) .nil
  | case3 w bs hne hk =>
      simp only [writeOperations, if_neg hne, hk]
      have hfirst : Undergoes deadline w _ _ := .write hk
      rw [List.take_zero, push_nil] at hfirst
      exact .cons hfirst .nil
  | case4 w bs hne k hk ih =>
      rw [writeOperations, if_neg hne]
      simp only [hk]
      exact .cons (.write hk) ih

end Wire

namespace Endpoint

/-- The operation, if any is needed, by which the next octet is taken. -/
def nextOperations (short : Fault) (e : Endpoint) : List Operation :=
  match e.held with
  | _ :: _ => []
  | [] => [.read e.window short (e.wire.read e.window e.deadline).1]

/-- The operations by which `n` octets are taken, as far as they come. -/
def takeOperations : Nat → Endpoint → List Operation
  | 0, _ => []
  | n + 1, e => e.nextOperations .earlyEnd ++
    match e.next with
    | (.done (some _), e) => takeOperations n e
    | _ => []

end Endpoint

/-- The operations of a dialogue, up to the one that halts it if one does. -/
def Dialogue.operations {α : Type} : Dialogue α → Endpoint → List Operation
  | done _, _ => []
  | fail _, _ => []
  | octet k, e => e.nextOperations .noOctet ++
    match e.next with
    | (.done (some b), e) => (k b).operations e
    | _ => []
  | octets n k, e => e.takeOperations n ++
    match e.take n with
    | (.done bs, e) => (k bs).operations e
    | _ => []
  | send bs k, e => e.wire.writeOperations bs ++
    match e.wire.write bs with
    | (.ok (), w) => k.operations { e with wire := w }
    | _ => []
  | flush k, e => .flush e.wire.flush.1 ::
    match e.wire.flush with
    | (.ok (), w) => k.operations { e with wire := w }
    | _ => []
  | draw k, e => (k e.supply.draw.1).operations { e with supply := e.supply.draw.2 }
  | mark s k, e => k.operations { e with step := s }
  | ahead k, e => (k e.held.length).operations e

/-- What operations do to an endpoint one after the other, its patience being the same. -/
structure Endpoint.Undergone (e : Endpoint) (ops : List Operation) (e2 : Endpoint) : Prop where
  wire : Wire.Undergone e.deadline e.wire ops e2.wire
  deadline : e2.deadline = e.deadline

namespace Endpoint

theorem Undergone.refl (e : Endpoint) : e.Undergone [] e := ⟨.nil, rfl⟩

theorem Undergone.trans {e e2 e3 : Endpoint} {ops ops2 : List Operation}
    (h : e.Undergone ops e2) (h2 : e2.Undergone ops2 e3) : e.Undergone (ops ++ ops2) e3 :=
  ⟨h.wire.append (h.deadline ▸ h2.wire), h2.deadline.trans h.deadline⟩

theorem undergone_next (short : Fault) (e : Endpoint) :
    e.Undergone (e.nextOperations short) e.next.2 := by
  refine ⟨?_, e.next_frame.2.2.2.2⟩
  rcases hh : e.held with _ | ⟨b, bs⟩
  · have hread : Wire.Undergoes e.deadline e.wire (.read e.window short _) _ := .read
    rcases hr : e.wire.read e.window e.deadline with ⟨(_ | ⟨b, bs⟩) | f | _ | _, w⟩ <;>
    · rw [hr] at hread
      simp only [nextOperations, next, hh, hr]
      exact .cons hread .nil
  · simp only [nextOperations, next, hh]
    exact .nil

theorem undergone_takeOnto (n : Nat) (taken : Bytes) (e : Endpoint) :
    e.Undergone (e.takeOperations n) (takeOnto n taken e).2 := by
  induction n generalizing taken e with
  | zero => exact .refl e
  | succ n ih =>
      have hfirst := e.undergone_next .earlyEnd
      rcases hn : e.next with ⟨(_ | b) | f | _ | _, e2⟩ <;> rw [hn] at hfirst <;>
        simp only [takeOperations, takeOnto, hn, List.append_nil]
      case done.some => exact hfirst.trans (ih (b :: taken) e2)
      all_goals exact hfirst

theorem undergone_take (n : Nat) (e : Endpoint) : e.Undergone (e.takeOperations n) (e.take n).2 :=
  undergone_takeOnto n [] e

end Endpoint

/-- **The operations of a dialogue** lead from the wire as it was to the wire as the dialogue
leaves it. -/
theorem Dialogue.undergone_hold {α : Type} (phase : Phase) (d : Dialogue α) (e : Endpoint) :
    e.Undergone (d.operations e) (d.hold phase e).2 := by
  induction d generalizing e with
  | done a => exact .refl e
  | fail err => exact .refl e
  | octet k ih =>
      have hfirst := e.undergone_next .noOctet
      rcases hn : e.next with ⟨(_ | b) | f | _ | _, e2⟩ <;> rw [hn] at hfirst <;>
        simp only [operations, hold, hn, List.append_nil]
      case done.some => exact hfirst.trans (ih b e2)
      all_goals exact hfirst
  | octets n k ih =>
      have hfirst := e.undergone_take n
      rcases ht : e.take n with ⟨bs | f | _ | _, e2⟩ <;> rw [ht] at hfirst <;>
        simp only [operations, hold, ht, List.append_nil]
      case done => exact hfirst.trans (ih bs e2)
      all_goals exact hfirst
  | send bs k ih =>
      have hfirst := Wire.undergone_write e.deadline e.wire bs
      rcases hw : e.wire.write bs with ⟨f | _, w⟩ <;> rw [hw] at hfirst <;>
        simp only [operations, hold, hw, List.append_nil]
      · exact ⟨hfirst, rfl⟩
      · have hsent : e.Undergone _ { e with wire := w } := ⟨hfirst, rfl⟩
        exact hsent.trans (ih _)
  | flush k ih =>
      have hfirst : Wire.Undergoes e.deadline e.wire _ _ := .flush
      rcases hw : e.wire.flush with ⟨f | _, w⟩ <;> rw [hw] at hfirst <;>
        simp only [operations, hold, hw]
      · exact ⟨.cons hfirst .nil, rfl⟩
      · have hflushed : e.Undergone _ { e with wire := w } := ⟨.cons hfirst .nil, rfl⟩
        exact hflushed.trans (ih _)
  | draw k ih =>
      have hrest := ih e.supply.draw.1 { e with supply := e.supply.draw.2 }
      exact ⟨hrest.wire, hrest.deadline⟩
  | mark s k ih =>
      have hrest := ih { e with step := s }
      exact ⟨hrest.wire, hrest.deadline⟩
  | ahead k ih => exact ih e.held.length e

end ManagedTransport
