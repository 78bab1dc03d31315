import ManagedTransport.Status.Sink

/-!
# Telling one line after the other

Whatever is told, a sink holds the front of it: all that there was room for.  How a line is
divided into writes, and which of them fail, makes no difference to that.

* `StatusLine.octets` — a line as it goes out;
* `writes_iff` — the tries that a write makes come to what `write` says, or to no end at all;
* `tellAll_eq_write` — telling lines leaves a sink as one write of all their octets would;
* `held_tellAll` — hence the sink holds as much of them, from the front, as it has room for;
* `line_unbounded` — every line is taken by a sink that takes everything.
-/

namespace ManagedTransport

/-- The octets of a status line, with its newline. -/
def StatusLine.octets (l : StatusLine) : Bytes := Text.utf8 l.text ++ [10]

namespace Sink

/-- Writes status lines one after the other, whatever comes of each. -/
def tellAll (s : Sink) (ls : List StatusLine) : Sink := ls.foldl tell s

/-- As many octets from the front as there is room for. -/
def front (s : Sink) (bs : Bytes) : Bytes :=
  match s.room with
  | none => bs
  | some room => bs.take room

theorem front_prefix (s : Sink) (bs : Bytes) : s.front bs <+: bs := by
  unfold front
  split
  · exact List.prefix_refl _
  · exact List.take_prefix _ _

theorem held_write (s : Sink) (bs : Bytes) : (s.write bs).2.held = s.held ++ s.front bs := by
  rcases s with ⟨_ | room, refusal, flushRefusal, held⟩ <;> rfl

/-- Octets written one part after the other are written together. -/
theorem write_write (s : Sink) (as bs : Bytes) :
    ((s.write as).2.write bs).2 = (s.write (as ++ bs)).2 := by
  rcases s with ⟨_ | room, refusal, flushRefusal, held⟩
  · simp [write]
  · simp [write, List.take_append, Nat.sub_sub]

theorem write_nil (s : Sink) : s.write [] = (.ok (), s) := by
  rcases s with ⟨_ | room, refusal, flushRefusal, held⟩ <;> simp [write]

/-- A sink that has refused a write takes nothing more. -/
theorem write_of_refused {s : Sink} {as : Bytes} {f : Fault} (h : (s.write as).1 = .error f)
    (bs : Bytes) : ((s.write as).2.write bs).2 = (s.write as).2 := by
  rcases s with ⟨_ | room, refusal, flushRefusal, held⟩
  · cases h
  · by_cases hfits : as.length ≤ room
    · simp [write, hfits] at h
    · have hnone : room - as.length = 0 := by omega
      simp [write, hnone]

/-- A try and the write of what it leaves are the write of the whole. -/
theorem write_of_attempt {s s2 : Sink} {bs rest : Bytes} (h : s.attempt bs = .ok (rest, s2)) :
    s2.write rest = s.write bs ∧ s2.refusal = s.refusal := by
  obtain ⟨_ | _ | room, refusal, flushRefusal, held⟩ := s
  · cases h
    simp [write]
  · cases h
  · cases h
    refine ⟨?_, rfl⟩
    by_cases hfits : bs.length ≤ room + 1
    · simp [write, hfits]
    · have hnone : room + 1 - bs.length = 0 := by omega
      have hmore : ¬ bs.length - (room + 1) = 0 := by omega
      simp [write, hfits, hnone, hmore]

/-- A try that is not refused leaves less than it was given. -/
theorem length_of_attempt {s s2 : Sink} {bs rest : Bytes} (some : bs ≠ [])
    (h : s.attempt bs = .ok (rest, s2)) : rest.length < bs.length := by
  have hlen : 0 < bs.length := List.length_pos_iff.mpr some
  obtain ⟨_ | _ | room, refusal, flushRefusal, held⟩ := s
  · cases h
    exact hlen
  · cases h
  · cases h
    rw [List.length_drop]
    omega

/-- A try is refused where there is no room, and so is then the write. -/
theorem write_of_attempt_error {s : Sink} {bs : Bytes} {f : Fault} (some : bs ≠ [])
    (h : s.attempt bs = .error f) : f = s.refusal ∧ s.write bs = (.error f, s) := by
  obtain ⟨_ | _ | room, refusal, flushRefusal, held⟩ := s
  · cases h
  · cases h
    exact ⟨rfl, by simp [write, some]⟩
  · cases h

/-- **Writing in tries.**  The tries come to an end on a steady sink, and where there is room for
everything; then they come to what `write` says. -/
theorem writes_iff {s : Sink} {bs : Bytes} {o : Except Fault Unit × Sink} :
    s.Writes bs o ↔ (s.Steady ∨ (s.write bs).1 = .ok ()) ∧ o = s.write bs := by
  constructor
  · intro h
    induction h with
    | nothing => simp [write_nil]
    | taken _ taken _ ih =>
        obtain ⟨hwrite, hrefusal⟩ := write_of_attempt taken
        rwa [hwrite, Steady, hrefusal] at ih
    | interrupted _ _ _ ih => exact ih
    | refused some refused final =>
        obtain ⟨rfl, hwrite⟩ := write_of_attempt_error some refused
        exact ⟨.inl final, hwrite.symm⟩
  · rintro ⟨hends, rfl⟩
    induction hlen : bs.length using Nat.strongRecOn generalizing s bs with
    | ind n ih =>
    subst hlen
    by_cases hnil : bs = []
    · rw [hnil, write_nil]
      exact .nothing
    rcases htry : s.attempt bs with f | ⟨rest, s2⟩
    · obtain ⟨rfl, hwrite⟩ := write_of_attempt_error hnil htry
      rw [hwrite] at hends ⊢
      exact .refused hnil htry (hends.resolve_right nofun)
    · obtain ⟨hwrite, hrefusal⟩ := write_of_attempt htry
      rw [← hwrite, Steady, ← hrefusal] at hends
      rw [← hwrite]
      exact .taken hnil htry (ih _ (length_of_attempt hnil htry) hends rfl)

/-- A line that stops at a write that fails has written no less than one that goes on. -/
theorem tell_eq_write (s : Sink) (l : StatusLine) : s.tell l = (s.write l.octets).2 := by
  rw [StatusLine.octets, ← write_write, tell, line]
  rcases ht : s.write (Text.utf8 l.text) with ⟨f | _, s2⟩
  · have hnothing := write_of_refused (congrArg Prod.fst ht) [10]
    rw [ht] at hnothing
    exact hnothing.symm
  · rcases hn : s2.write [10] with ⟨f | _, s3⟩ <;> simp only [hn]

/-- **Lines are told as one write of all their octets.** -/
theorem tellAll_eq_write (s : Sink) (ls : List StatusLine) :
    s.tellAll ls = (s.write (ls.flatMap StatusLine.octets)).2 := by
  induction ls generalizing s with
  | nil =>
      rw [List.flatMap_nil, write_nil]
      rfl
  | cons l ls ih =>
      rw [List.flatMap_cons, ← write_write, ← tell_eq_write]
      exact ih (s.tell l)

/-- **A sink holds the front of what is told.** -/
theorem held_tellAll (s : Sink) (ls : List StatusLine) :
    (s.tellAll ls).held = s.held ++ s.front (ls.flatMap StatusLine.octets) := by
  rw [tellAll_eq_write, held_write]

/-- A sink that takes everything holds all that is told. -/
theorem held_tellAll_unbounded (ls : List StatusLine) :
    (unbounded.tellAll ls).held = ls.flatMap StatusLine.octets := held_tellAll unbounded ls

/-- A sink that takes everything takes every line, whatever it was told before. -/
theorem line_unbounded (ls : List StatusLine) (l : StatusLine) :
    ((unbounded.tellAll ls).line l).1 = .ok () := by
  rw [tellAll_eq_write]
  rfl

end Sink

end ManagedTransport
