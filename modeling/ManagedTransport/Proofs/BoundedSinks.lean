import ManagedTransport.Proofs.Telling

/-!
# Sinks with a bound

A sink that takes so many octets in all cuts the line that reaches its bound, perhaps between the
text and the newline, and refuses every line from then on.  Flushes come last: where there was no
room for the line, nobody asks whether a flush would have failed.

* `Sink.bounded` — a sink with a bound, before anything is told;
* `line_of_room` — what a line is answered, by the room that is left;
* `tellAll_bounded` — what becomes of the sink when lines are told;
* `writes_bounded` — no write to it is tried for ever;
* `Sink.Answered` — what a call is answered and what is held after it, by all that was told so far;
* `bounded_answers` — every call is answered in that way, whatever was told before it.
-/

namespace ManagedTransport

theorem StatusLine.length_octets (l : StatusLine) :
    l.octets.length = (Text.utf8 l.text).length + 1 := List.length_append

namespace Sink

/-- A sink that takes `limit` octets in all and refuses every write from then on, and no write is
tried for ever.  Its flushes all succeed, or are all refused. -/
def bounded (limit : Nat) (refusal : Fault.Final) (flushRefusal : Option Fault) : Sink where
  room := some limit
  refusal := refusal.1
  flushRefusal := flushRefusal
  held := []

/-- A line is answered by its flush if there is room for the whole of it, newline included. -/
theorem line_of_room {s : Sink} {room : Nat} (h : s.room = some room) (l : StatusLine) :
    (s.line l).1 = if l.octets.length ≤ room then s.flush else .error s.refusal := by
  obtain ⟨_, refusal, flushRefusal, held⟩ := s
  subst h
  have hlen := l.length_octets
  by_cases htext : (Text.utf8 l.text).length ≤ room
  · by_cases hnewline : 1 ≤ room - (Text.utf8 l.text).length
    · have hall : l.octets.length ≤ room := by omega
      simp [line, write, flush, htext, hnewline, hall]
    · have hcut : ¬ l.octets.length ≤ room := by omega
      simp [line, write, htext, hnewline, hcut]
  · have hcut : ¬ l.octets.length ≤ room := by omega
    simp [line, write, htext, hcut]

/-- **Telling lines uses up the bound**, and changes nothing else. -/
theorem tellAll_bounded (limit : Nat) (refusal : Fault.Final) (flushRefusal : Option Fault)
    (ls : List StatusLine) :
    (bounded limit refusal flushRefusal).tellAll ls =
      { room := some (limit - (ls.flatMap StatusLine.octets).length)
        refusal := refusal.1
        flushRefusal := flushRefusal
        held := (ls.flatMap StatusLine.octets).take limit } := by
  rw [tellAll_eq_write]
  rfl

/-- Every write to a sink with a bound comes to an end, whatever was told before it. -/
theorem writes_bounded (limit : Nat) (refusal : Fault.Final) (flushRefusal : Option Fault)
    (ls : List StatusLine) {bs : Bytes} {o : Except Fault Unit × Sink} :
    ((bounded limit refusal flushRefusal).tellAll ls).Writes bs o ↔
      o = ((bounded limit refusal flushRefusal).tellAll ls).write bs := by
  have hsteady : ((bounded limit refusal flushRefusal).tellAll ls).Steady := by
    rw [tellAll_bounded]
    exact refusal.2
  exact writes_iff.trans (and_iff_right (.inl hsteady))

/-- What the call that completes `told` is answered by a sink with a bound, and what the sink
holds after it. -/
structure Answered (limit : Nat) (refusal : Fault.Final) (flushRefusal : Option Fault)
    (told : Bytes) (answer : Except Fault Unit) (held : Bytes) : Prop where
  /-- The sink holds as much of what was told, from the front, as it may take. -/
  front : held = told.take (min limit told.length)
  /-- The call succeeds if and only if all that was told fits and flushes succeed. -/
  ok_iff : answer = .ok () ↔ told.length ≤ limit ∧ flushRefusal = none
  /-- What does not fit is refused, however flushes go. -/
  cut : limit < told.length → answer = .error refusal.1
  /-- What fits and cannot be flushed fails by that. -/
  unflushed : ∀ f, told.length ≤ limit → flushRefusal = some f → answer = .error f

/-- A call is answered so if it is by its flush where all fits, and is refused elsewhere. -/
theorem answered_of_eq {limit : Nat} {refusal : Fault.Final} {flushRefusal : Option Fault}
    {told : Bytes} {answer : Except Fault Unit} {held : Bytes}
    (hheld : held = told.take limit)
    (hanswer : answer =
      if told.length ≤ limit then (bounded limit refusal flushRefusal).flush
      else .error refusal.1) :
    Answered limit refusal flushRefusal told answer held := by
  refine ⟨?_, ?_, ?_, ?_⟩
  · rw [hheld, List.take_eq_take_min]
  · by_cases hfits : told.length ≤ limit
    · rw [hanswer, if_pos hfits]
      cases flushRefusal <;> simp [flush, bounded, hfits]
    · simp [hanswer, hfits]
  · intro hcut
    rw [hanswer, if_neg (by omega)]
  · intro f hfits hflush
    rw [hanswer, if_pos hfits, hflush]
    rfl

/-- **The front of what is told.**  Whatever has been told before, and whatever line is told now,
the sink then holds the front of all that was told, and the answer says whether that is all of it.
Once a line has been cut nothing more is taken, so that no other follows it. -/
theorem bounded_answers (limit : Nat) (refusal : Fault.Final) (flushRefusal : Option Fault)
    (before : List StatusLine) (l : StatusLine) :
    let sink := bounded limit refusal flushRefusal
    let told := (before ++ [l]).flatMap StatusLine.octets
    Answered limit refusal flushRefusal told ((sink.tellAll before).line l).1
        (sink.tellAll (before ++ [l])).held ∧
      (limit < told.length → ∀ later : List StatusLine,
        (sink.tellAll (before ++ l :: later)).held = (sink.tellAll (before ++ [l])).held) := by
  intro sink told
  constructor
  · apply answered_of_eq
    · rw [tellAll_bounded]
    · -- a line is never without octets, so where the room is used up it is refused
      have hline := l.length_octets
      have hlen : told.length = (before.flatMap StatusLine.octets).length + l.octets.length := by
        simp [told]
      rw [tellAll_bounded, line_of_room rfl]
      by_cases hfits : told.length ≤ limit
      · rw [if_pos hfits, if_pos (by omega)]
        rfl
      · rw [if_neg hfits, if_neg (by omega)]
  · intro hcut later
    have happend : (before ++ l :: later).flatMap StatusLine.octets =
        told ++ later.flatMap StatusLine.octets := by
      simp [told]
    rw [tellAll_bounded, tellAll_bounded, happend]
    exact List.take_append_of_le_length (Nat.le_of_lt hcut)

/-- There is room for the text, and none for its newline. -/
example :
    (bounded 9 ⟨.noSpace, nofun⟩ none).line (.version "1") =
      (.error .noSpace, ⟨some 0, .noSpace, none, Text.utf8 "VERSION 1"⟩) := rfl

end Sink

end ManagedTransport
