import ManagedTransport.Proofs.Moves

/-!
# Accounts

An account tells what a party has heard, said and drawn since some beginning,
which step it has reached, and what it last saw when it looked how much was
read ahead.  Whatever a peer, the wire and the clock may do, all that a
dialogue can come to is then a statement about accounts.

* `Keeps P d h` — from account `h` on, dialogue `d` stays within `P`: whatever
  it is told, `P` holds at each moment of it;
* `Keeps.move`, `Keeps.hold` — what is kept holds of the endpoint at which the
  dialogue is carried out, move by move and as a whole;
* `keeps_bind`, `Keeps.imp`, `Keeps.after` — dialogues one after the other,
  weaker statements, and statements about what was before.
-/

namespace ManagedTransport

/-- What a party has done since some beginning. -/
structure Account where
  /-- The octets it was given. -/
  heard : Bytes
  /-- The octets it sent. -/
  said : Bytes
  /-- The random blocks it drew. -/
  drawn : List Bytes
  step : AuthStep
  /-- How many octets were read ahead, if it has looked and not read since. -/
  left : Option Nat

namespace Account

/-- Nothing has been done since a step. -/
def fresh (s : AuthStep) : Account := ⟨[], [], [], s, none⟩

/-- The party is given octets. -/
def hear (bs : Bytes) (h : Account) : Account :=
  { h with heard := h.heard ++ bs, left := if bs = [] then h.left else none }

/-- The party sends octets. -/
def say (bs : Bytes) (h : Account) : Account := { h with said := h.said ++ bs }

/-- The party draws a block. -/
def draw (block : Bytes) (h : Account) : Account := { h with drawn := h.drawn ++ [block] }

/-- The party reaches a step. -/
def mark (s : AuthStep) (h : Account) : Account := { h with step := s }

/-- The party sees that `n` octets were read ahead. -/
def look (n : Nat) (h : Account) : Account := { h with left := some n }

/-- Nothing more has been done, but it is known which step was reached and what
was seen to be left. -/
def renew (h : Account) : Account := ⟨[], [], [], h.step, h.left⟩

/-- What was done first, and then the rest. -/
def andThen (first h : Account) : Account :=
  ⟨first.heard ++ h.heard, first.said ++ h.said, first.drawn ++ h.drawn, h.step, h.left⟩

theorem andThen_renew (h : Account) : h.andThen h.renew = h := by
  simp [andThen, renew]

theorem andThen_hear (first h : Account) (bs : Bytes) :
    (first.andThen h).hear bs = first.andThen (h.hear bs) := by
  simp only [andThen, hear, List.append_assoc]

theorem andThen_say (first h : Account) (bs : Bytes) :
    (first.andThen h).say bs = first.andThen (h.say bs) := by
  simp only [andThen, say, List.append_assoc]

theorem andThen_draw (first h : Account) (block : Bytes) :
    (first.andThen h).draw block = first.andThen (h.draw block) := by
  simp only [andThen, draw, List.append_assoc]

@[simp] theorem hear_nil (h : Account) : h.hear [] = h := by simp [hear]

@[simp] theorem say_nil (h : Account) : h.say [] = h := by simp [say]

/-- Octets heard one after the other are heard together. -/
theorem hear_hear (as bs : Bytes) (h : Account) : (h.hear as).hear bs = h.hear (as ++ bs) := by
  by_cases hbs : bs = []
  · simp [hear, hbs]
  · simp [hear, hbs]

/-- An endpoint bears an account out: of all that came, what was not heard is
still pending, what was said came after what was sent before, and the blocks
come from the supply in order. -/
structure Fits (came before : Bytes) (source : Supply) (h : Account) (e : Endpoint) : Prop where
  heard : h.heard ++ e.pending = came
  said : e.wire.sent = before ++ h.said
  drawn : h.drawn = (List.range h.drawn.length).map fun i => source.block (source.drawn + i)
  supply : e.supply = ⟨source.octets, source.drawn + h.drawn.length⟩
  step : e.step = h.step
  left : ∀ n, h.left = some n → e.held.length = n

/-- An endpoint bears out that nothing was done since now. -/
theorem Fits.begin (e : Endpoint) :
    Fits e.pending e.wire.sent e.supply (fresh e.step) e :=
  ⟨rfl, by simp [fresh], rfl, rfl, rfl, by simp [fresh]⟩

section

variable {came before : Bytes} {source : Supply} {h : Account} {e e2 : Endpoint}

/-- The first block drawn is the one that stood next in the supply. -/
theorem Fits.nonce {block : Bytes} (hf : Fits came before source h e)
    (hd : h.drawn = [block]) : block = source.draw.1 := by
  have hdrawn := hf.drawn
  rw [hd] at hdrawn
  simpa using hdrawn

/-- An octet that is taken is heard. -/
theorem Fits.next {b : UInt8} (hf : Fits came before source h e)
    (hn : e.next = (.done (some b), e2)) : Fits came before source (h.hear [b]) e2 := by
  have hframe := e.next_frame
  rw [hn] at hframe
  obtain ⟨hsent, hsupply, hstep, -, -⟩ := hframe
  exact {
    heard := by
      rw [hear, List.append_assoc, List.singleton_append, Endpoint.pending_next_some hn]
      exact hf.heard
    said := hsent.trans hf.said
    drawn := hf.drawn
    supply := hsupply.trans hf.supply
    step := hstep.trans hf.step
    left := by simp [hear] }

/-- Where no octet is taken nothing is heard. -/
theorem Fits.next_nothing (hf : Fits came before source h e)
    (hn : ∀ b, e.next.1 ≠ .done (some b)) : Fits came before source h e.next.2 := by
  obtain ⟨hsent, hsupply, hstep, -, -⟩ := e.next_frame
  exact {
    heard := by rw [Endpoint.pending_next e hn]; exact hf.heard
    said := hsent.trans hf.said
    drawn := hf.drawn
    supply := hsupply.trans hf.supply
    step := hstep.trans hf.step
    left := by rw [Endpoint.held_next e hn]; exact hf.left }

/-- A write says octets from the front, and all of them if it succeeds. -/
theorem Fits.write (hf : Fits came before source h e) (bs : Bytes) :
    ∃ p, p <+: bs ∧ ((e.wire.write bs).1 = .ok () → p = bs) ∧
      Fits came before source (h.say p) { e with wire := (e.wire.write bs).2 } := by
  obtain ⟨p, hp, hsent, hall⟩ := Wire.write_sent e.wire bs
  refine ⟨p, hp, hall, ?_, ?_, hf.drawn, hf.supply, hf.step, hf.left⟩
  · show h.heard ++ (e.held ++ (e.wire.write bs).2.pending) = came
    rw [Wire.pending_write]
    exact hf.heard
  · rw [hsent, hf.said, say, List.append_assoc]

theorem Fits.flush (hf : Fits came before source h e) :
    Fits came before source h { e with wire := e.wire.flush.2 } := by
  refine ⟨?_, ?_, hf.drawn, hf.supply, hf.step, hf.left⟩
  · show h.heard ++ (e.held ++ e.wire.flush.2.pending) = came
    rw [Wire.pending_flush]
    exact hf.heard
  · rw [Wire.sent_flush]
    exact hf.said

theorem Fits.draw (hf : Fits came before source h e) :
    Fits came before source (h.draw e.supply.draw.1) { e with supply := e.supply.draw.2 } := by
  refine ⟨hf.heard, hf.said, ?_, ?_, hf.step, hf.left⟩
  · rw [Account.draw, List.length_append, List.length_singleton, List.range_succ,
      List.map_append, ← hf.drawn, hf.supply]
    rfl
  · rw [Account.draw, List.length_append, List.length_singleton, hf.supply]
    rfl

theorem Fits.mark (hf : Fits came before source h e) (s : AuthStep) :
    Fits came before source (h.mark s) { e with step := s } :=
  ⟨hf.heard, hf.said, hf.drawn, hf.supply, rfl, hf.left⟩

theorem Fits.look (hf : Fits came before source h e) :
    Fits came before source (h.look e.held.length) e :=
  ⟨hf.heard, hf.said, hf.drawn, hf.supply, hf.step, fun _ hn => Option.some.inj hn⟩

end

end Account

/-- What a party is about at some moment. -/
inductive Moment (α : Type) where
  /-- It waits for octets. -/
  | waits
  /-- It writes or flushes. -/
  | writes
  /-- It does what concerns nobody else. -/
  | thinks
  /-- It is done. -/
  | done (result : α)
  /-- It has given up, through no fault of the wire. -/
  | gaveUp (error : Error)

/-- The moment of a party whose result is made into another. -/
def Moment.map {α β : Type} (f : α → β) : Moment α → Moment β
  | waits => .waits
  | writes => .writes
  | thinks => .thinks
  | done a => .done (f a)
  | gaveUp err => .gaveUp err

namespace Dialogue

variable {α β : Type}

/-- Whatever a party is told, `P` holds at every moment of its dialogue. -/
def Keeps (P : Moment α → Account → Prop) : Dialogue α → Account → Prop
  | done a, h => P (.done a) h
  | fail err, h => P (.gaveUp err) h
  | octet k, h => P .waits h ∧ ∀ b, Keeps P (k b) (h.hear [b])
  | octets n k, h =>
    (∀ bs, bs.length < n → P .waits (h.hear bs)) ∧
      ∀ bs, bs.length = n → Keeps P (k bs) (h.hear bs)
  | send bs k, h => (∀ p, p <+: bs → P .writes (h.say p)) ∧ Keeps P k (h.say bs)
  | flush k, h => P .writes h ∧ Keeps P k h
  | draw k, h => P .thinks h ∧ ∀ block, block.length = 32 → Keeps P (k block) (h.draw block)
  | mark s k, h => P .thinks h ∧ Keeps P k (h.mark s)
  | ahead k, h => P .thinks h ∧ ∀ n, Keeps P (k n) (h.look n)

/-- What is kept through the first dialogue, with the second kept from its
result on, is kept through both. -/
theorem keeps_bind {P : Moment β → Account → Prop} {d : Dialogue α} {f : α → Dialogue β}
    {h : Account}
    (hd : Keeps (fun m h => match m with
      | .done a => Keeps P (f a) h
      | .waits => P .waits h
      | .writes => P .writes h
      | .thinks => P .thinks h
      | .gaveUp err => P (.gaveUp err) h) d h) :
    Keeps P (d.bind f) h := by
  induction d generalizing h with
  | done a => exact hd
  | fail err => exact hd
  | octet k ih => exact ⟨hd.1, fun b => ih b (hd.2 b)⟩
  | octets n k ih => exact ⟨hd.1, fun bs hn => ih bs (hd.2 bs hn)⟩
  | send bs k ih => exact ⟨hd.1, ih hd.2⟩
  | flush k ih => exact ⟨hd.1, ih hd.2⟩
  | draw k ih => exact ⟨hd.1, fun block hn => ih block (hd.2 block hn)⟩
  | mark s k ih => exact ⟨hd.1, ih hd.2⟩
  | ahead k ih => exact ⟨hd.1, fun n => ih n (hd.2 n)⟩

/-- What is kept may be weakened. -/
theorem Keeps.imp {P Q : Moment α → Account → Prop} {d : Dialogue α} {h : Account}
    (hd : Keeps P d h) (himp : ∀ m h, P m h → Q m h) : Keeps Q d h := by
  induction d generalizing h with
  | done a => exact himp _ _ hd
  | fail err => exact himp _ _ hd
  | octet k ih => exact ⟨himp _ _ hd.1, fun b => ih b (hd.2 b)⟩
  | octets n k ih =>
      exact ⟨fun bs hn => himp _ _ (hd.1 bs hn), fun bs hn => ih bs (hd.2 bs hn)⟩
  | send bs k ih => exact ⟨fun p hp => himp _ _ (hd.1 p hp), ih hd.2⟩
  | flush k ih => exact ⟨himp _ _ hd.1, ih hd.2⟩
  | draw k ih => exact ⟨himp _ _ hd.1, fun block hn => ih block (hd.2 block hn)⟩
  | mark s k ih => exact ⟨himp _ _ hd.1, ih hd.2⟩
  | ahead k ih => exact ⟨himp _ _ hd.1, fun n => ih n (hd.2 n)⟩

/-- What is kept from nothing on is kept, of the rest, after whatever was done first. -/
theorem Keeps.after {P : Moment α → Account → Prop} {d : Dialogue α} {h : Account}
    (hd : Keeps P d h) (first : Account) :
    Keeps (fun m h => ∃ rest, P m rest ∧ h = first.andThen rest) d (first.andThen h) := by
  induction d generalizing h with
  | done a => exact ⟨h, hd, rfl⟩
  | fail err => exact ⟨h, hd, rfl⟩
  | octet k ih =>
      refine ⟨⟨h, hd.1, rfl⟩, ?_⟩
      intro b
      rw [Account.andThen_hear]
      exact ih b (hd.2 b)
  | octets n k ih =>
      refine ⟨fun bs hn => ⟨_, hd.1 bs hn, Account.andThen_hear _ _ _⟩, ?_⟩
      intro bs hn
      rw [Account.andThen_hear]
      exact ih bs (hd.2 bs hn)
  | send bs k ih =>
      refine ⟨fun p hp => ⟨_, hd.1 p hp, Account.andThen_say _ _ _⟩, ?_⟩
      rw [Account.andThen_say]
      exact ih hd.2
  | flush k ih => exact ⟨⟨h, hd.1, rfl⟩, ih hd.2⟩
  | draw k ih =>
      refine ⟨⟨h, hd.1, rfl⟩, ?_⟩
      intro block hn
      rw [Account.andThen_draw]
      exact ih block (hd.2 block hn)
  | mark s k ih => exact ⟨⟨h, hd.1, rfl⟩, ih hd.2⟩
  | ahead k ih => exact ⟨⟨h, hd.1, rfl⟩, fun n => ih n (hd.2 n)⟩

/-- A dialogue whose result is made into another keeps the same. -/
theorem Keeps.map {P : Moment α → Account → Prop} {Q : Moment β → Account → Prop}
    {d : Dialogue α} {h : Account} (hd : Keeps P d h) (f : α → β)
    (himp : ∀ m h, P m h → Q (m.map f) h) : Keeps Q (d.bind fun a => .done (f a)) h :=
  keeps_bind (hd.imp fun m h hp => by
    cases m with
    | waits | writes | thinks | done | gaveUp => exact himp _ _ hp)

/-- At each moment of a dialogue something that is kept holds. -/
theorem Keeps.now {P : Moment α → Account → Prop} {d : Dialogue α} {h : Account}
    (hd : Keeps P d h) : ∃ m, P m h := by
  induction d generalizing h with
  | done a => exact ⟨_, hd⟩
  | fail err => exact ⟨_, hd⟩
  | octets n k ih =>
      cases n with
      | zero => simpa using ih [] (hd.2 [] rfl)
      | succ n => exact ⟨_, by simpa using hd.1 [] (Nat.succ_pos n)⟩
  | send bs k ih => exact ⟨_, by simpa using hd.1 [] List.nil_prefix⟩
  | octet k ih => exact ⟨_, hd.1⟩
  | flush k ih => exact ⟨_, hd.1⟩
  | draw k ih => exact ⟨_, hd.1⟩
  | mark s k ih => exact ⟨_, hd.1⟩
  | ahead k ih => exact ⟨_, hd.1⟩

/-- What is kept of a request for several octets is kept of the rest of it
once one is there. -/
theorem Keeps.octets_succ {P : Moment α → Account → Prop} {n : Nat} {k : Bytes → Dialogue α}
    {h : Account} (hd : Keeps P (octets (n + 1) k) h) (b : UInt8) :
    Keeps P (octets n fun bs => k (b :: bs)) (h.hear [b]) := by
  constructor
  · intro bs hn
    rw [Account.hear_hear]
    exact hd.1 (b :: bs) (by simpa using hn)
  · intro bs hn
    rw [Account.hear_hear]
    exact hd.2 (b :: bs) (by simpa using hn)

/-- What holds of the account when a dialogue has ended in this way: a failure
is one that the party declares, or the wire's while it waited or wrote. -/
def Rests (phase : Phase) (P : Moment α → Account → Prop) : Ending Error α → Account → Prop
  | .done a, h => P (.done a) h
  | .failed err, h =>
    P (.gaveUp err) h ∨
      ∃ f, err = .network (.io phase f) ∧ (P .waits h ∨ P .writes h)
  | .late, h => P .waits h
  | .stuck, h => P .waits h

/-- However a dialogue has ended, something that is kept holds. -/
theorem Rests.now {phase : Phase} {P : Moment α → Account → Prop} {r : Ending Error α}
    {h : Account} (hr : Rests phase P r h) : ∃ m, P m h := by
  rcases r with a | err | _ | _
  · exact ⟨_, hr⟩
  · rcases hr with hr | ⟨f, -, hr | hr⟩
    · exact ⟨_, hr⟩
    · exact ⟨_, hr⟩
    · exact ⟨_, hr⟩
  · exact ⟨_, hr⟩
  · exact ⟨_, hr⟩

section

variable {phase : Phase} {P : Moment α → Account → Prop} {came before : Bytes}
  {source : Supply} {h : Account} {e : Endpoint}

/-- What has come of a move: the dialogue goes on and keeps what it kept, or it
has ended within it. -/
def Goes (phase : Phase) (P : Moment α → Account → Prop) (came before : Bytes)
    (source : Supply) : Ending Error (Dialogue α) × Endpoint → Prop
  | (.done d, e) => ∃ h, Keeps P d h ∧ Account.Fits came before source h e
  | (.failed err, e) =>
    ∃ h, Rests phase P (.failed err) h ∧ Account.Fits came before source h e
  | (.late, e) => ∃ h, P .waits h ∧ Account.Fits came before source h e
  | (.stuck, e) => ∃ h, P .waits h ∧ Account.Fits came before source h e

/-- Asking for one octet keeps what is kept while waiting and on any octet. -/
theorem goes_hear {short : Fault} {k : UInt8 → Dialogue α}
    (hf : Account.Fits came before source h e) (hwaits : P .waits h)
    (hk : ∀ b, Keeps P (k b) (h.hear [b])) :
    Goes phase P came before source (hear phase short k e) := by
  have hnothing := hf.next_nothing
  rcases hn : e.next with ⟨(_ | b) | f | _ | _, e2⟩
  case done.some =>
    simp only [hear, hn]
    exact ⟨_, hk b, hf.next hn⟩
  all_goals
    rw [hn] at hnothing
    have hfits := hnothing (by simp)
    simp only [hear, hn]
  · exact ⟨h, .inr ⟨_, rfl, .inl hwaits⟩, hfits⟩
  · exact ⟨h, .inr ⟨_, rfl, .inl hwaits⟩, hfits⟩
  · exact ⟨h, hwaits, hfits⟩
  · exact ⟨h, hwaits, hfits⟩

/-- **A move keeps what is kept.** -/
theorem Keeps.move {d : Dialogue α} (phase : Phase) (hd : Keeps P d h)
    (hf : Account.Fits came before source h e) :
    Goes phase P came before source (d.move phase e) := by
  match d, hd with
  | done a, hd => exact ⟨h, hd, hf⟩
  | fail err, hd => exact ⟨h, .inl hd, hf⟩
  | octet k, hd => exact goes_hear hf hd.1 hd.2
  | octets 0 k, hd => exact ⟨h, by simpa using hd.2 [] rfl, hf⟩
  | octets (n + 1) k, hd =>
      refine goes_hear hf ?_ hd.octets_succ
      simpa using hd.1 [] (Nat.succ_pos n)
  | send bs k, hd =>
      obtain ⟨p, hp, hall, hfits⟩ := hf.write bs
      rcases hw : e.wire.write bs with ⟨f | _, w⟩
      · rw [hw] at hfits
        simp only [Dialogue.move, hw]
        exact ⟨_, .inr ⟨f, rfl, .inr (hd.1 p hp)⟩, hfits⟩
      · rw [hw] at hfits hall
        obtain rfl := hall rfl
        simp only [Dialogue.move, hw]
        exact ⟨_, hd.2, hfits⟩
  | flush k, hd =>
      have hfits := hf.flush
      rcases hw : e.wire.flush with ⟨f | _, w⟩ <;>
        rw [hw] at hfits <;> simp only [Dialogue.move, hw]
      · exact ⟨h, .inr ⟨f, rfl, .inr hd.1⟩, hfits⟩
      · exact ⟨h, hd.2, hfits⟩
  | draw k, hd => exact ⟨_, hd.2 _ (by simp), hf.draw⟩
  | mark s k, hd => exact ⟨_, hd.2, hf.mark s⟩
  | ahead k, hd => exact ⟨_, hd.2 _, hf.look⟩

/-- What is kept is kept by any number of moves. -/
theorem Keeps.reaches {d d2 : Dialogue α} {e2 : Endpoint} (hd : Keeps P d h)
    (hf : Account.Fits came before source h e) (hr : Reaches phase (d, e) (d2, e2)) :
    ∃ h2, Keeps P d2 h2 ∧ Account.Fits came before source h2 e2 := by
  generalize hx : (d, e) = x at hr
  generalize hy : (d2, e2) = y at hr
  induction hr using Relation.ReflTransGen.head_induction_on generalizing d e h with
  | refl =>
      cases hx.trans hy.symm
      exact ⟨h, hd, hf⟩
  | head hlead _ ih =>
      subst hx
      have hgoes := hd.move phase hf
      rw [show d.move phase e = _ from hlead] at hgoes
      obtain ⟨h3, hd3, hf3⟩ := hgoes
      exact ih hd3 hf3 rfl

/-- **Holding a dialogue keeps what is kept.** -/
theorem Keeps.hold {d : Dialogue α} (phase : Phase) (hd : Keeps P d h)
    (hf : Account.Fits came before source h e) :
    ∃ h2, Rests phase P (d.hold phase e).1 h2 ∧
      Account.Fits came before source h2 (d.hold phase e).2 := by
  obtain ⟨⟨d2, e2⟩, hreach, hend⟩ := hold_reaches phase d e
  obtain ⟨h2, hd2, hf2⟩ := hd.reaches hf hreach
  have hgoes := hd2.move phase hf2
  rcases hr : d.hold phase e with ⟨a | err | _ | _, e3⟩ <;> rw [hr] at hend
  · cases hend
    exact ⟨h2, hd2, hf2⟩
  all_goals
    rw [show d2.move phase e2 = _ from hend] at hgoes
    exact hgoes

end

end Dialogue

end ManagedTransport
