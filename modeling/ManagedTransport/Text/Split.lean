/-!
# Splitting text

Lists in the environment are separated by commas, addresses by dots and
colons.  `split` cuts at every separator, so it always yields at least one
piece and `join` puts the text together again; `cutFirst?` and `cutLast?` cut
once.
-/

namespace ManagedTransport.Text

/-- The pieces between the separators, in order; empty ones count. -/
def split (sep : Char) : List Char → List (List Char)
  | [] => [[]]
  | c :: cs =>
    if c = sep then [] :: split sep cs
    else
      match split sep cs with
      | [] => [[c]]
      | p :: ps => (c :: p) :: ps

/-- Where there is no separator there is one piece. -/
theorem split_of_not_mem {sep : Char} {cs : List Char} (h : sep ∉ cs) : split sep cs = [cs] := by
  induction cs with
  | nil => rfl
  | cons c cs ih =>
    obtain ⟨hne, hrest⟩ := not_or.mp (mt List.mem_cons.mpr h)
    rw [split, if_neg (Ne.symm hne), ih hrest]

/-- Up to the first separator there is one piece, whatever follows. -/
theorem split_append {sep : Char} {piece : List Char} (h : sep ∉ piece) (cs : List Char) :
    split sep (piece ++ sep :: cs) = piece :: split sep cs := by
  induction piece with
  | nil => rw [List.nil_append, split, if_pos rfl]
  | cons c piece ih =>
    obtain ⟨hne, hrest⟩ := not_or.mp (mt List.mem_cons.mpr h)
    rw [List.cons_append, split, if_neg (Ne.symm hne), ih hrest]

/-- The pieces with one separator between any two. -/
def join (sep : Char) : List (List Char) → List Char
  | [] => []
  | [p] => p
  | p :: ps => p ++ sep :: join sep ps

theorem split_ne_nil (sep : Char) (cs : List Char) : split sep cs ≠ [] := by
  cases cs with
  | nil => simp [split]
  | cons c cs =>
    simp only [split]
    split
    · simp
    · split <;> simp

theorem join_split (sep : Char) (cs : List Char) : join sep (split sep cs) = cs := by
  induction cs with
  | nil => rfl
  | cons c cs ih =>
    have ne := split_ne_nil sep cs
    by_cases h : c = sep
    · cases e : split sep cs with
      | nil => exact absurd e ne
      | cons p ps => simp_all [split, join]
    · cases e : split sep cs with
      | nil => exact absurd e ne
      | cons p ps => cases ps <;> simp_all [split, join]

theorem mem_join {sep c : Char} {ps : List (List Char)} (h : c ∈ join sep ps) :
    c = sep ∨ ∃ p ∈ ps, c ∈ p := by
  fun_induction join sep ps with
  | case1 => cases h
  | case2 p => exact .inr ⟨p, List.mem_singleton_self p, h⟩
  | case3 p ps _ ih =>
    rcases List.mem_append.mp h with hp | hrest
    · exact .inr ⟨p, List.mem_cons_self, hp⟩
    · rcases List.mem_cons.mp hrest with hsep | hps
      · exact .inl hsep
      · obtain hsep | ⟨q, hq, hc⟩ := ih hps
        · exact .inl hsep
        · exact .inr ⟨q, List.mem_cons_of_mem p hq, hc⟩

/-- Every character is a separator or in a piece. -/
theorem mem_split (sep : Char) {c : Char} {cs : List Char} (h : c ∈ cs) :
    c = sep ∨ ∃ p ∈ split sep cs, c ∈ p := by
  rw [← join_split sep cs] at h
  exact mem_join h

/-- What stands before and after the first separator, if there is one. -/
def cutFirst? (sep : Char) : List Char → Option (List Char × List Char)
  | [] => none
  | c :: cs =>
    if c = sep then some ([], cs)
    else (cutFirst? sep cs).map fun r => (c :: r.1, r.2)

/-- A cut is made at the first separator, whatever follows it. -/
theorem cutFirst?_append {sep : Char} {front : List Char} (h : sep ∉ front) (back : List Char) :
    cutFirst? sep (front ++ sep :: back) = some (front, back) := by
  induction front with
  | nil => simp [cutFirst?]
  | cons c cs ih =>
    obtain ⟨hne, hrest⟩ := not_or.mp (mt List.mem_cons.mpr h)
    simp [cutFirst?, Ne.symm hne, ih hrest]

theorem cutFirst?_eq_none_iff {sep : Char} {cs : List Char} :
    cutFirst? sep cs = none ↔ sep ∉ cs := by
  induction cs with
  | nil => simp [cutFirst?]
  | cons c cs ih =>
    by_cases h : c = sep
    · simp [cutFirst?, h]
    · simp [cutFirst?, h, ih, Ne.symm h]

theorem cutFirst?_eq_some_iff {sep : Char} {cs front back : List Char} :
    cutFirst? sep cs = some (front, back) ↔ cs = front ++ sep :: back ∧ sep ∉ front := by
  constructor
  · intro h
    induction cs generalizing front with
    | nil => cases h
    | cons c cs ih =>
      by_cases hc : c = sep
      · rw [cutFirst?, if_pos hc] at h
        cases h
        exact ⟨by rw [hc, List.nil_append], List.not_mem_nil⟩
      · rw [cutFirst?, if_neg hc] at h
        obtain ⟨⟨front2, back2⟩, hcut, hsame⟩ := Option.map_eq_some_iff.mp h
        cases hsame
        obtain ⟨rfl, hfront⟩ := ih hcut
        exact ⟨rfl, List.not_mem_cons_of_ne_of_not_mem (Ne.symm hc) hfront⟩
  · intro ⟨hcs, h⟩
    rw [hcs]
    exact cutFirst?_append h back

/-- What stands before and after the last separator, if there is one. -/
def cutLast? (sep : Char) : List Char → Option (List Char × List Char)
  | [] => none
  | c :: cs =>
    match cutLast? sep cs with
    | some r => some (c :: r.1, r.2)
    | none => if c = sep then some ([], cs) else none

theorem cutLast?_eq_none_iff {sep : Char} {cs : List Char} :
    cutLast? sep cs = none ↔ sep ∉ cs := by
  induction cs with
  | nil => simp [cutLast?]
  | cons c cs ih =>
    rw [cutLast?]
    rcases hcut : cutLast? sep cs with _ | r
    · have hrest := ih.mp hcut
      by_cases h : c = sep
      · simp [h]
      · simp [h, Ne.symm h, hrest]
    · have hrest : sep ∈ cs := by
        refine Decidable.byContradiction fun hnone => ?_
        rw [ih.mpr hnone] at hcut
        cases hcut
      simp [hrest]

/-- A cut is made at the last separator, whatever stands before it. -/
theorem cutLast?_append {sep : Char} {back : List Char} (h : sep ∉ back) (front : List Char) :
    cutLast? sep (front ++ sep :: back) = some (front, back) := by
  induction front with
  | nil => rw [List.nil_append, cutLast?, cutLast?_eq_none_iff.mpr h, if_pos rfl]
  | cons c front ih => rw [List.cons_append, cutLast?, ih]

theorem cutLast?_eq_some_iff {sep : Char} {cs front back : List Char} :
    cutLast? sep cs = some (front, back) ↔ cs = front ++ sep :: back ∧ sep ∉ back := by
  constructor
  · intro h
    induction cs generalizing front with
    | nil => cases h
    | cons c cs ih =>
      rw [cutLast?] at h
      rcases hcut : cutLast? sep cs with _ | ⟨front2, back2⟩
      · rw [hcut] at h
        by_cases hc : c = sep
        · rw [if_pos hc] at h
          cases h
          exact ⟨by rw [hc, List.nil_append], cutLast?_eq_none_iff.mp hcut⟩
        · rw [if_neg hc] at h
          cases h
      · rw [hcut] at h
        cases h
        obtain ⟨rfl, hback⟩ := ih hcut
        exact ⟨rfl, hback⟩
  · intro ⟨hcs, h⟩
    rw [hcs]
    exact cutLast?_append h front

/-- The comma-separated entries of a text. -/
def entries (s : String) : List String := (split ',' s.toList).map String.ofList

end ManagedTransport.Text
