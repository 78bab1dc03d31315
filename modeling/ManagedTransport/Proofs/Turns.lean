import ManagedTransport.Proofs.Account
import ManagedTransport.Proofs.Operations

/-!
# Turns

A dialogue asks one thing after the other of its wire: an octet, several octets, that a
message goes out, a flush.  Each is a turn, and the operations of the dialogue serve one turn
after the other.

* `Turns P d h` — from account `h` on, `P` holds of each turn of dialogue `d` and of the
  account with which the turn begins, whatever the dialogue is told;
* `Serves` — an operation serves a turn of which this much is done already;
* `Turns.hold` — all operations of a dialogue that is held pass, and it comes to an end of
  its own; or one of them halts it, which is the last, and serves the turn that it is at.
-/

namespace ManagedTransport

/-- What a party asks of its wire, or how it ends by itself. -/
inductive Turn (α : Type) where
  | octet
  | octets (count : Nat)
  | send (octets : Bytes)
  | flush
  | done (result : α)
  | gaveUp (error : Error)

/-- An operation serves a turn of which these octets were heard and said before. -/
inductive Operation.Serves {α : Type} : Operation → Turn α → (heard said : Bytes) → Prop
  | octet {window outcome} : Serves (.read window .noOctet outcome) .octet [] []
  | octets {window outcome n heard} (short : heard.length < n) :
      Serves (.read window .earlyEnd outcome) (.octets n) heard []
  | send {bs said rest outcome} (whole : said ++ rest = bs) (unsent : rest ≠ []) :
      Serves (.write rest outcome) (.send bs) [] said
  | flush {outcome} : Serves (.flush outcome) .flush [] []

/-- What is brought to one who is halted. -/
def Halt.cut {α : Type} : Halt → Ending Fault α
  | fault f => .failed f
  | late => .late
  | stuck => .stuck

namespace Wire

/-- The writes by which all octets go out pass. -/
theorem passes_writeOperations {w : Wire} {bs : Bytes} (h : (w.write bs).1 = .ok ()) :
    ∀ op ∈ w.writeOperations bs, op.Passes := by
  fun_induction write w bs with
  | case1 w => simp [writeOperations]
  | case2 w bs hne f hf => cases h
  | case3 w bs hne hk => cases h
  | case4 w bs hne k hk ih =>
      rw [writeOperations, if_neg hne]
      simp only [hk]
      intro op hop
      rcases List.mem_cons.mp hop with rfl | hop
      · rfl
      · exact ih h op hop

/-- Of the writes by which not all octets go out the last fails, and leaves its octets unsent. -/
theorem fails_writeOperations {w : Wire} {bs : Bytes} {f : Fault}
    (h : (w.write bs).1 = .error f) :
    ∃ first said rest outcome, w.writeOperations bs = first ++ [.write rest outcome] ∧
      (∀ op ∈ first, op.Passes) ∧ (Operation.write rest outcome).FailsBy f ∧
      said ++ rest = bs ∧ rest ≠ [] ∧ (w.write bs).2.sent = w.sent ++ said := by
  fun_induction write w bs with
  | case1 w => cases h
  | case2 w bs hne f2 hf =>
      obtain rfl : f2 = f := Except.error.inj h
      refine ⟨[], [], bs, .error f2, ?_, by simp, rfl, rfl, hne, by simp⟩
      simp only [writeOperations, if_neg hne, hf, List.nil_append]
  | case3 w bs hne hk =>
      obtain rfl : Fault.nothingTaken = f := Except.error.inj h
      refine ⟨[], [], bs, .ok 0, ?_, by simp, rfl, rfl, hne, by simp⟩
      simp only [writeOperations, if_neg hne, hk, List.nil_append]
  | case4 w bs hne k hk ih =>
      obtain ⟨first, said, rest, outcome, hops, hpass, hfails, hwhole, hunsent, hsent⟩ := ih h
      refine ⟨.write bs (.ok (k + 1)) :: first, bs.take (k + 1) ++ said, rest, outcome, ?_, ?_,
        hfails, ?_, hunsent, ?_⟩
      · rw [writeOperations, if_neg hne]
        simp only [hk, hops, List.cons_append]
      · intro op hop
        rcases List.mem_cons.mp hop with rfl | hop
        · rfl
        · exact hpass op hop
      · rw [List.append_assoc, hwhole, List.take_append_drop]
      · rw [hsent, sent_push, List.append_assoc]

end Wire

namespace Endpoint

variable {e e2 : Endpoint} {short : Fault}

/-- What is needed to take an octet passes if there is one. -/
theorem passes_nextOperations {b : UInt8} (h : e.next = (.done (some b), e2)) :
    ∀ op ∈ e.nextOperations short, op.Passes := by
  rcases hh : e.held with _ | ⟨c, cs⟩
  · rcases hr : e.wire.read e.window e.deadline with ⟨(_ | ⟨c, cs⟩) | f | _ | _, w⟩ <;>
      simp only [next, hh, hr] at h
    case done.cons =>
      simp only [nextOperations, hh, hr, List.mem_singleton]
      rintro op rfl
      rfl
    all_goals cases h
  · simp [nextOperations, hh]

/-- Where no octet is taken one read was made, which halts. -/
theorem halts_nextOperations (short : Fault) (h : ∀ b, e.next.1 ≠ .done (some b)) :
    ∃ outcome halt, e.nextOperations short = [.read e.window short outcome] ∧
      (Operation.read e.window short outcome).halt? = some halt ∧
      (e.next.1 = .done none ∧ halt = .fault short ∨ e.next.1 = halt.cut) := by
  rcases hh : e.held with _ | ⟨c, cs⟩
  · rcases hr : e.wire.read e.window e.deadline with ⟨(_ | ⟨c, cs⟩) | f | _ | _, w⟩ <;>
      simp only [next, hh, hr] at h <;> simp only [nextOperations, next, hh, hr]
    · exact ⟨_, _, rfl, rfl, .inl ⟨trivial, rfl⟩⟩
    · exact absurd rfl (h c)
    · exact ⟨_, _, rfl, rfl, .inr rfl⟩
    · exact ⟨_, _, rfl, rfl, .inr rfl⟩
    · exact ⟨_, _, rfl, rfl, .inr rfl⟩
  · simp only [next, hh] at h
    exact absurd rfl (h c)

/-- Who is halted by the next octet of several is halted. -/
theorem takeOnto_of_halt {halt : Halt} (n : Nat) (taken : Bytes)
    (h : e.next.1 = .done none ∧ halt = .fault .earlyEnd ∨ e.next.1 = halt.cut) :
    takeOnto (n + 1) taken e = (halt.cut, e.next.2) := by
  rcases hn : e.next with ⟨r, e3⟩
  rw [hn] at h
  rcases h with ⟨rfl, rfl⟩ | rfl
  · simp only [takeOnto, hn, Halt.cut]
  · cases halt <;> simp only [takeOnto, hn, Halt.cut]

section

variable {came before : Bytes} {source : Supply} {h : Account}

/-- Octets that are taken are heard, and the reads that brought them passed. -/
theorem takeOnto_passes {n : Nat} {taken bs : Bytes} (hf : Account.Fits came before source h e)
    (ht : takeOnto n taken e = (.done bs, e2)) :
    (∀ op ∈ e.takeOperations n, op.Passes) ∧ ∃ heard, heard.length = n ∧
      bs = taken.reverse ++ heard ∧ Account.Fits came before source (h.hear heard) e2 := by
  induction n generalizing taken e h with
  | zero =>
      cases ht
      exact ⟨by simp [takeOperations], [], rfl, by simp, by simpa using hf⟩
  | succ n ih =>
      rcases hn : e.next with ⟨(_ | b) | f | _ | _, e3⟩ <;> simp only [takeOnto, hn] at ht
      case done.some =>
        obtain ⟨hpass, heard, hlen, hbs, hfits⟩ := ih (hf.next hn) ht
        refine ⟨?_, b :: heard, by simp [hlen], by simp [hbs], ?_⟩
        · simp only [takeOperations, hn, List.mem_append]
          rintro op (hop | hop)
          · exact passes_nextOperations hn op hop
          · exact hpass op hop
        · rw [Account.hear_hear] at hfits
          exact hfits
      all_goals cases ht

/-- Where too few octets are taken the last read has halted, and those before it passed. -/
theorem takeOnto_halts {n : Nat} {taken : Bytes} {r : Ending Fault Bytes}
    (hf : Account.Fits came before source h e) (ht : takeOnto n taken e = (r, e2))
    (hr : ∀ bs, r ≠ .done bs) :
    ∃ first outcome heard halt,
      e.takeOperations n = first ++ [.read e.window .earlyEnd outcome] ∧
      (∀ op ∈ first, op.Passes) ∧
      (Operation.read e.window .earlyEnd outcome).halt? = some halt ∧ r = halt.cut ∧
      heard.length < n ∧ Account.Fits came before source (h.hear heard) e2 := by
  induction n generalizing taken e h with
  | zero =>
      cases ht
      exact absurd rfl (hr _)
  | succ n ih =>
      by_cases hsome : ∃ b, e.next.1 = .done (some b)
      · obtain ⟨b, hb⟩ := hsome
        obtain ⟨e3, hn⟩ : ∃ e3, e.next = (.done (some b), e3) := ⟨_, Prod.ext hb rfl⟩
        have hwindow := e.next_frame.2.2.2.1
        rw [hn] at hwindow
        simp only [takeOnto, hn] at ht
        obtain ⟨first, outcome, heard, halt, hops, hpass, hhalt, hcut, hlen, hfits⟩ :=
          ih (hf.next hn) ht
        rw [show e3.window = e.window from hwindow] at hops hhalt
        refine ⟨e.nextOperations .earlyEnd ++ first, outcome, b :: heard, halt, ?_, ?_, hhalt, hcut,
          by simpa using hlen, ?_⟩
        · simp only [takeOperations, hn, hops, List.append_assoc]
        · simp only [List.mem_append]
          rintro op (hop | hop)
          · exact passes_nextOperations hn op hop
          · exact hpass op hop
        · rw [Account.hear_hear] at hfits
          exact hfits
      · have hnone : ∀ b, e.next.1 ≠ .done (some b) := fun b hb => hsome ⟨b, hb⟩
        have hfits := hf.next_nothing hnone
        obtain ⟨outcome, halt, hops, hhalt, hends⟩ := halts_nextOperations .earlyEnd hnone
        obtain ⟨rfl, rfl⟩ := Prod.mk.inj ((takeOnto_of_halt n taken hends).symm.trans ht)
        refine ⟨[], outcome, [], halt, ?_, by simp, hhalt, rfl, Nat.succ_pos n, ?_⟩
        · rcases hn : e.next with ⟨(_ | b) | f | _ | _, e3⟩ <;>
            simp only [takeOperations, hn, hops, List.append_nil, List.nil_append]
          exact absurd (congrArg Prod.fst hn) (hnone b)
        · simpa using hfits

end

end Endpoint

/-- What was said so far and went out is said. -/
theorem Account.Fits.sends {came before p : Bytes} {source : Supply} {h : Account} {e : Endpoint}
    {w : Wire} (hf : Fits came before source h e) (hpending : w.pending = e.wire.pending)
    (hsent : w.sent = e.wire.sent ++ p) :
    Fits came before source (h.say p) { e with wire := w } := by
  refine ⟨?_, ?_, hf.drawn, hf.supply, hf.step, hf.left⟩
  · show h.heard ++ (e.held ++ w.pending) = came
    rw [hpending]
    exact hf.heard
  · rw [hsent, hf.said, Account.say, List.append_assoc]

namespace Dialogue

variable {α β : Type}

/-- Whatever a party is told, `P` holds of every turn of its dialogue and of the account with
which the turn begins. -/
def Turns (P : Turn α → Account → Prop) : Dialogue α → Account → Prop
  | done a, h => P (.done a) h
  | fail err, h => P (.gaveUp err) h
  | octet k, h => P .octet h ∧ ∀ b, Turns P (k b) (h.hear [b])
  | octets n k, h => P (.octets n) h ∧ ∀ bs, bs.length = n → Turns P (k bs) (h.hear bs)
  | send bs k, h => P (.send bs) h ∧ Turns P k (h.say bs)
  | flush k, h => P .flush h ∧ Turns P k h
  | draw k, h => ∀ block, block.length = 32 → Turns P (k block) (h.draw block)
  | mark s k, h => Turns P k (h.mark s)
  | ahead k, h => ∀ n, Turns P (k n) (h.look n)

/-- The turns of dialogues one after the other. -/
theorem turns_bind {P : Turn β → Account → Prop} {d : Dialogue α} {f : α → Dialogue β}
    {h : Account}
    (hd : Turns (fun t h => match t with
      | .done a => Turns P (f a) h
      | .octet => P .octet h
      | .octets n => P (.octets n) h
      | .send bs => P (.send bs) h
      | .flush => P .flush h
      | .gaveUp err => P (.gaveUp err) h) d h) :
    Turns P (d.bind f) h := by
  induction d generalizing h with
  | done a => exact hd
  | fail err => exact hd
  | octet k ih => exact ⟨hd.1, fun b => ih b (hd.2 b)⟩
  | octets n k ih => exact ⟨hd.1, fun bs hn => ih bs (hd.2 bs hn)⟩
  | send bs k ih => exact ⟨hd.1, ih hd.2⟩
  | flush k ih => exact ⟨hd.1, ih hd.2⟩
  | draw k ih => exact fun block hn => ih block (hd block hn)
  | mark s k ih => exact ih hd
  | ahead k ih => exact fun n => ih n (hd n)

/-- How a dialogue ends, its operations being these: all of them pass and it ends of its own;
or one, the last, halts it at some turn.  `P` holds of the turn at which it ends. -/
inductive Concludes (phase : Phase) (P : Turn α → Account → Prop) (came before : Bytes)
    (source : Supply) : List Operation → Ending Error α × Endpoint → Prop
  | done {ops a h e} (passes : ∀ op ∈ ops, op.Passes) (stands : P (.done a) h)
      (fits : Account.Fits came before source h e) :
      Concludes phase P came before source ops (.done a, e)
  | gaveUp {ops err h e} (passes : ∀ op ∈ ops, op.Passes) (stands : P (.gaveUp err) h)
      (fits : Account.Fits came before source h e) :
      Concludes phase P came before source ops (.failed err, e)
  | halted {first op halt turn h heard said e} (passes : ∀ op ∈ first, op.Passes)
      (halts : op.halt? = some halt) (stands : P turn h) (serves : op.Serves turn heard said)
      (fits : Account.Fits came before source ((h.hear heard).say said) e) :
      Concludes phase P came before source (first ++ [op]) (halt.ending phase, e)

section

variable {phase : Phase} {P : Turn α → Account → Prop} {came before : Bytes} {source : Supply}
  {h : Account} {e : Endpoint} {ops : List Operation} {r : Ending Error α × Endpoint}

/-- Operations that pass may come before. -/
theorem Concludes.after (hc : Concludes phase P came before source ops r)
    {first : List Operation} (hfirst : ∀ op ∈ first, op.Passes) :
    Concludes phase P came before source (first ++ ops) r := by
  have hboth : ∀ {rest : List Operation}, (∀ op ∈ rest, op.Passes) →
      ∀ op ∈ first ++ rest, op.Passes := by
    intro rest hrest op hop
    exact (List.mem_append.mp hop).elim (hfirst op) (hrest op)
  cases hc with
  | done passes turn fits => exact .done (hboth passes) turn fits
  | gaveUp passes turn fits => exact .gaveUp (hboth passes) turn fits
  | halted passes halts turn serves fits =>
      rw [← List.append_assoc]
      exact .halted (hboth passes) halts turn serves fits

/-- A dialogue whose last operation fails is halted. -/
theorem Concludes.failed {first : List Operation} {op : Operation} {turn : Turn α} {f : Fault}
    {heard said : Bytes} (hpass : ∀ op ∈ first, op.Passes) (hfails : op.FailsBy f)
    (stands : P turn h) (serves : op.Serves turn heard said)
    (hfits : Account.Fits came before source ((h.hear heard).say said) e) :
    Concludes phase P came before source (first ++ [op])
      (.failed (.network (.io phase f)), e) :=
  .halted hpass hfails stands serves hfits

/-- A dialogue that waits for an octet and gets none is halted. -/
theorem concludes_octet {k : UInt8 → Dialogue α} (stands : P .octet h)
    (hf : Account.Fits came before source h e) (hnone : ∀ b, e.next.1 ≠ .done (some b)) :
    Concludes phase P came before source ((octet k).operations e) ((octet k).hold phase e) := by
  have hfits := hf.next_nothing hnone
  obtain ⟨outcome, halt, hops, hhalt, hends⟩ := Endpoint.halts_nextOperations .noOctet hnone
  have hconcludes : Concludes phase P came before source
      ([] ++ [.read e.window .noOctet outcome]) (halt.ending phase, e.next.2) :=
    .halted (by simp) hhalt stands .octet (by simpa using hfits)
  rcases hn : e.next with ⟨r, e2⟩
  rw [hn] at hends hconcludes
  rcases hends with ⟨rfl, rfl⟩ | rfl
  · simp only [operations, Dialogue.hold, hn, hops]
    exact hconcludes
  · cases halt <;> simp only [operations, Dialogue.hold, hn, hops, Halt.cut] <;> exact hconcludes

/-- A dialogue that waits for octets and gets too few is halted. -/
theorem concludes_octets {n : Nat} {k : Bytes → Dialogue α} (stands : P (.octets n) h)
    (hf : Account.Fits came before source h e) (hfew : ∀ bs, (e.take n).1 ≠ .done bs) :
    Concludes phase P came before source ((octets n k).operations e)
      ((octets n k).hold phase e) := by
  rcases ht : e.take n with ⟨r, e2⟩
  rw [ht] at hfew
  obtain ⟨first, outcome, heard, halt, hops, hpass, hhalt, rfl, hlen, hfits⟩ :=
    Endpoint.takeOnto_halts hf ht hfew
  have hconcludes : Concludes phase P came before source
      (first ++ [.read e.window .earlyEnd outcome]) (halt.ending phase, e2) :=
    .halted hpass hhalt stands (.octets hlen) (by simpa using hfits)
  cases halt <;> simp only [operations, Dialogue.hold, ht, hops, Halt.cut, List.append_nil] <;>
    exact hconcludes

/-- A dialogue that sends octets of which not all go out is halted. -/
theorem concludes_send {bs : Bytes} {k : Dialogue α} {f : Fault} {w : Wire}
    (stands : P (.send bs) h) (hf : Account.Fits came before source h e)
    (hw : e.wire.write bs = (.error f, w)) :
    Concludes phase P came before source ((send bs k).operations e)
      ((send bs k).hold phase e) := by
  have hpending := Wire.pending_write e.wire bs
  obtain ⟨first, said, rest, outcome, hops, hpass, hfails, hwhole, hunsent, hsent⟩ :=
    Wire.fails_writeOperations (congrArg Prod.fst hw)
  rw [hw] at hpending hsent
  simp only [operations, Dialogue.hold, hw, hops, List.append_nil]
  exact .failed hpass hfails stands (.send hwhole hunsent) (by simpa using hf.sends hpending hsent)

/-- **A dialogue that is held** ends of its own, all its operations having passed, or is
halted by the last of them, which serves the turn that the dialogue is at. -/
theorem Turns.hold {d : Dialogue α} (phase : Phase) (hd : Turns P d h)
    (hf : Account.Fits came before source h e) :
    Concludes phase P came before source (d.operations e) (d.hold phase e) := by
  induction d generalizing e h with
  | done a => exact .done (by simp [operations]) hd hf
  | fail err => exact .gaveUp (by simp [operations]) hd hf
  | octet k ih =>
      by_cases hsome : ∃ b, e.next.1 = .done (some b)
      · obtain ⟨b, hb⟩ := hsome
        obtain ⟨e2, hn⟩ : ∃ e2, e.next = (.done (some b), e2) := ⟨_, Prod.ext hb rfl⟩
        simp only [operations, Dialogue.hold, hn]
        exact (ih b (hd.2 b) (hf.next hn)).after (Endpoint.passes_nextOperations hn)
      · exact concludes_octet hd.1 hf fun b hb => hsome ⟨b, hb⟩
  | octets n k ih =>
      by_cases hdone : ∃ bs, (e.take n).1 = .done bs
      · obtain ⟨bs, hbs⟩ := hdone
        obtain ⟨e2, ht⟩ : ∃ e2, e.take n = (.done bs, e2) := ⟨_, Prod.ext hbs rfl⟩
        obtain ⟨hpass, heard, hlen, hheard, hfits⟩ := Endpoint.takeOnto_passes hf ht
        obtain rfl : bs = heard := by simpa using hheard
        simp only [operations, Dialogue.hold, ht]
        exact (ih bs (hd.2 bs hlen) hfits).after hpass
      · exact concludes_octets hd.1 hf fun bs hbs => hdone ⟨bs, hbs⟩
  | send bs k ih =>
      rcases hw : e.wire.write bs with ⟨f | _, w⟩
      · exact concludes_send hd.1 hf hw
      · have hpending := Wire.pending_write e.wire bs
        obtain ⟨p, -, hsent, hall⟩ := Wire.write_sent e.wire bs
        rw [hw] at hpending hsent hall
        obtain rfl := hall rfl
        simp only [operations, Dialogue.hold, hw]
        exact (ih hd.2 (hf.sends hpending hsent)).after
          (Wire.passes_writeOperations (congrArg Prod.fst hw))
  | flush k ih =>
      have hfits := hf.flush
      rcases hw : e.wire.flush with ⟨f | _, w⟩ <;> rw [hw] at hfits <;>
        simp only [operations, Dialogue.hold, hw]
      · have hfails : (Operation.flush (.error f)).FailsBy f := rfl
        have hpass : ∀ op ∈ ([] : List Operation), op.Passes := by simp
        exact .failed hpass hfails hd.1 .flush (by simpa using hfits)
      · have hpass : ∀ op ∈ [Operation.flush (.ok ())], op.Passes := by
          simp [Operation.Passes, Operation.halt?]
        exact (ih hd.2 hfits).after hpass
  | draw k ih => exact ih _ (hd _ (by simp)) hf.draw
  | mark s k ih => exact ih hd (hf.mark s)
  | ahead k ih => exact ih _ (hd _) hf.look

end

end Dialogue

end ManagedTransport
