import ManagedTransport.Folder

/-!
# Entries of the working directory

A path of one component is a name in the working directory, if it can be a name at all.  What
reading and writing such a path come to depends on the entry of that name and on what the process
is let do with it, and only this entry is changed.

* `Nameable` — what can be the name of an entry;
* `Folder.Plain` — a working directory that holds files and directories only;
* `Folder.Written` — all that can come of a write to an entry: it is refused, it breaks off, or
  the entry is written; and `written_write`, that one of these comes of it;
* `read_eq_ok_iff` — what is read of an entry.
-/

namespace ManagedTransport

open Text

/-- A path that can be the name of an entry in the working directory. -/
structure Nameable (name : String) : Prop where
  single : '/' ∉ name.toList
  noNul : '\x00' ∉ name.toList
  nonempty : name ≠ ""
  noDots : Folder.isDots name = false
  short : (utf8 name).length ≤ 255

namespace Folder

variable {f g : Folder} {name : String} {contents : Bytes} {mode : Nat}

/-- What is put somewhere is there, and all else is where it was. -/
theorem node?_put (f : Folder) (place place2 : Location) (n : Node) :
    (f.put place n).node? place2 = if place2 = place then some n else f.node? place2 := by
  by_cases h : place2 = place
  · subst h
    simp [put, node?]
  · rw [if_neg h]
    have hother : (f.nodes.filter (·.1 ≠ place)).find? (·.1 = place2) =
        f.nodes.find? (·.1 = place2) := by
      rw [List.find?_filter]
      congr 1
      funext n2
      by_cases hn : n2.1 = place2
      · simp [hn, h]
      · simp [hn]
    simp only [put, node?, List.find?_cons, Ne.symm h, decide_false, hother]

@[simp] theorem access_put (f : Folder) (place : Location) (n : Node) :
    (f.put place n).access = f.access := rfl

theorem put_put (f : Folder) (place : Location) (n n2 : Node) :
    (f.put place n).put place n2 = f.put place n2 := by
  simp [put]

/-- A working directory with nothing in it but files that have a proper name, and
directories. -/
structure Plain (f : Folder) : Prop where
  root : f.node? [] = some .directory
  entries : ∀ name n, f.node? [name] = some n →
    n = .directory ∨ Nameable name ∧ ∃ contents mode, n = .file contents mode

theorem plain_empty : Plain empty := by
  refine ⟨rfl, ?_⟩
  intro name n hn
  simp only [empty, node?, List.find?_nil] at hn
  by_cases hdots : [name].all (· = "..")
  · simp only [hdots, if_true, Option.some.injEq] at hn
    exact .inl hn.symm
  · by_cases hslash : name = "/"
    · simp only [hslash, if_true, true_or] at hn
      exact .inl (Option.some.inj hn).symm
    · simp [hdots, hslash] at hn

/-- A plain working directory stays so when a file or a directory is put into it. -/
theorem Plain.put {n : Node} (h : f.Plain)
    (hn : n = .directory ∨ Nameable name ∧ ∃ contents mode, n = .file contents mode) :
    (f.put [name] n).Plain := by
  refine ⟨?_, ?_⟩
  · rw [node?_put, if_neg (by simp)]
    exact h.root
  · intro name2 n2 hn2
    rw [node?_put] at hn2
    split at hn2
    next hsame =>
      obtain rfl := List.singleton_inj.mp hsame
      obtain rfl := Option.some.inj hn2
      exact hn
    next => exact h.entries name2 n2 hn2

theorem Plain.put_file (h : f.Plain) (proper : Nameable name) :
    (f.put [name] (.file contents mode)).Plain :=
  h.put (.inr ⟨proper, contents, mode, rfl⟩)

/-- A path without a slash has one step. -/
theorem steps_of_single (single : '/' ∉ name.toList) : steps name = ([], [name]) := by
  have hone : (split '/' name.toList).map String.ofList = [name] := by
    rw [split_of_not_mem single, List.map_singleton, String.ofList_toList]
  rw [steps]
  split
  next rest hslash =>
    rw [hslash] at single
    exact absurd List.mem_cons_self single
  next => rw [hone]

theorem pathFault?_of_nameable (h : Nameable name) : pathFault? name = none := by
  have hshort := h.short
  rw [pathFault?, if_neg (by simpa using h.noNul), if_neg h.nonempty, if_neg (by omega)]

theorem nameable_of_pathFault? (single : '/' ∉ name.toList) (fine : pathFault? name = none)
    (noDots : isDots name = false) (short : (utf8 name).length ≤ 255) : Nameable name := by
  refine ⟨single, ?_, ?_, noDots, short⟩
  · intro hnul
    rw [pathFault?, if_pos (by simpa using hnul)] at fine
    cases fine
  · rintro rfl
    revert fine
    decide

/-- Where a write to a path without a slash goes. -/
theorem target_single (root : f.node? [] = some .directory) (single : '/' ∉ name.toList) :
    f.target name =
      match pathFault? name with
      | some fault => .error fault
      | none =>
        if isDots name then .error .isDirectory
        else if 255 < (utf8 name).length then .error .nameTooLong
        else .ok [name] := by
  rw [target]
  rcases hfault : pathFault? name with _ | fault
  · have nonempty : name ≠ "" := by
      rintro rfl
      revert hfault
      decide
    simp [steps_of_single single, nonempty, walk, root]
  · rfl

theorem target_of_nameable (h : f.Plain) (proper : Nameable name) : f.target name = .ok [name] := by
  have hshort := proper.short
  rw [target_single h.root proper.single, pathFault?_of_nameable proper]
  simp only [proper.noDots, if_neg (Nat.not_lt.mpr hshort), Bool.false_eq_true, if_false]

theorem target_of_not_nameable (h : f.Plain) (single : '/' ∉ name.toList)
    (improper : ¬ Nameable name) : ∃ fault, f.target name = .error fault := by
  rw [target_single h.root single]
  rcases hfault : pathFault? name with _ | fault
  · by_cases hdots : isDots name
    · exact ⟨.isDirectory, if_pos hdots⟩
    · by_cases hlong : 255 < (utf8 name).length
      · exact ⟨.nameTooLong, by simp [hdots, hlong]⟩
      · have hnodots : isDots name = false := by simpa using hdots
        exact absurd (nameable_of_pathFault? single hfault hnodots (by omega)) improper
  · exact ⟨fault, rfl⟩

/-- What opening an entry for writing meets. -/
theorem opening?_eq_none_iff (h : f.Plain) :
    f.opening? [name] = none ↔
      (∃ contents mode, f.node? [name] = some (.file contents mode) ∧
        f.access.writing [name] mode = none) ∨
      f.node? [name] = none ∧ f.access.making [name] = none := by
  rcases hn : f.node? [name] with _ | n
  · simp [opening?, hn]
  · rcases h.entries name n hn with rfl | ⟨-, contents, mode, rfl⟩
    · simp [opening?, hn]
    · simp [opening?, hn, and_assoc]

/-- Everything can be opened but a directory, if nothing hinders the process. -/
theorem opening?_of_full (plain : f.Plain) (full : f.access = .full) :
    f.opening? [name] = none ↔ f.node? [name] ≠ some .directory := by
  rw [opening?_eq_none_iff plain, full]
  rcases hn : f.node? [name] with _ | n
  · simp [Access.full]
  · rcases plain.entries name n hn with rfl | ⟨-, contents, mode, rfl⟩
    · simp
    · simp [Access.full]

/-- An entry that was opened takes what there is room for. -/
theorem fill_of_opening? (h : f.Plain) (opens : f.opening? [name] = none) :
    f.fill [name] contents =
      match f.access.room [name] with
      | none => (.ok (), f.put [name] (.file contents (f.modeAt [name])))
      | some (room, fault) =>
        (if contents.length ≤ room then .ok () else .error fault,
          f.put [name] (.file (contents.take room) (f.modeAt [name]))) := by
  rw [fill]
  rcases (opening?_eq_none_iff h).mp opens with ⟨before, mode2, hn, -⟩ | ⟨hn, -⟩
  · rcases f.access.room [name] with _ | ⟨room, fault⟩ <;> simp only [hn]
  · rcases f.access.room [name] with _ | ⟨room, fault⟩ <;> simp only [hn]

theorem chmod_put_file (h : f.Plain) (proper : Nameable name) (mode2 : Nat) :
    (f.put [name] (.file contents mode)).chmod name mode2 =
      match f.access.changing [name] with
      | none => (.ok (), f.put [name] (.file contents mode2))
      | some fault => (.error fault, f.put [name] (.file contents mode)) := by
  have hplain : (f.put [name] (.file contents mode)).Plain := h.put_file proper
  have hnode : (f.put [name] (.file contents mode)).node? [name] = some (.file contents mode) :=
    (node?_put _ _ _ _).trans (if_pos rfl)
  rw [chmod, target_of_nameable hplain proper]
  rcases hchange : f.access.changing [name] with _ | fault <;>
    simp only [hnode, access_put, hchange, put_put]

/-- A write that has begun is not stopped: all of it finds room, and the mode can be set. -/
structure Unbroken (f : Folder) (name : String) (contents : Bytes) : Prop where
  fits : ∀ room fault, f.access.room [name] = some (room, fault) → contents.length ≤ room
  changes : f.access.changing [name] = none

/-- Nothing that nothing hinders is stopped. -/
theorem unbroken_of_full (full : f.access = .full) (name : String) (contents : Bytes) :
    f.Unbroken name contents := by
  refine ⟨?_, ?_⟩
  · rw [full]
    nofun
  · rw [full]
    rfl

/-- What may come of a write to a name. -/
inductive Written (f : Folder) (name : String) (contents : Bytes) (mode : Nat) :
    Except Fault Unit × Folder → Prop
  /-- There is no such entry to be opened, and nothing is changed. -/
  | refused {fault} (shut : ¬ (Nameable name ∧ f.opening? [name] = none)) :
      Written f name contents mode (.error fault, f)
  /-- The write is stopped after it has begun: the front of the contents is there, perhaps all of
  them, with the mode that the file had. -/
  | broken {fault front} (proper : Nameable name) (opens : f.opening? [name] = none)
      (stopped : ¬ f.Unbroken name contents) (part : front <+: contents) :
      Written f name contents mode (.error fault, f.put [name] (.file front (f.modeAt [name])))
  /-- The entry is written and has its mode. -/
  | whole (proper : Nameable name) (opens : f.opening? [name] = none)
      (unbroken : f.Unbroken name contents) :
      Written f name contents mode (.ok (), f.put [name] (.file contents mode))

/-- What comes of a write to an entry that was opened and has taken all the contents. -/
theorem written_chmod (h : f.Plain) (proper : Nameable name) (opens : f.opening? [name] = none)
    (fits : ∀ room fault, f.access.room [name] = some (room, fault) → contents.length ≤ room) :
    f.Written name contents mode
      ((f.put [name] (.file contents (f.modeAt [name]))).chmod name mode) := by
  rw [chmod_put_file h proper]
  rcases hchange : f.access.changing [name] with _ | fault
  · exact .whole proper opens ⟨fits, hchange⟩
  · refine .broken proper opens ?_ (List.prefix_refl contents)
    intro unbroken
    rw [unbroken.changes] at hchange
    cases hchange

/-- **One of these comes of a write.** -/
theorem written_write (h : f.Plain) (single : '/' ∉ name.toList) :
    f.Written name contents mode (f.write name contents mode) := by
  by_cases proper : Nameable name
  · rw [write, overwrite, target_of_nameable h proper]
    rcases hopen : f.opening? [name] with _ | fault
    · simp only [hopen, fill_of_opening? h hopen]
      rcases hroom : f.access.room [name] with _ | ⟨room, fault⟩
      · apply written_chmod h proper hopen
        rw [hroom]
        nofun
      · by_cases fits : contents.length ≤ room
        · simp only [if_pos fits, List.take_of_length_le fits]
          apply written_chmod h proper hopen
          rintro room2 fault2 hroom2
          cases hroom.symm.trans hroom2
          exact fits
        · simp only [if_neg fits]
          refine .broken proper hopen ?_ (List.take_prefix room contents)
          intro unbroken
          exact fits (unbroken.fits room fault hroom)
    · simp only [hopen]
      refine .refused ?_
      rintro ⟨-, opens⟩
      rw [hopen] at opens
      cases opens
  · obtain ⟨fault, hfault⟩ := target_of_not_nameable h single proper
    simp only [write, overwrite, hfault]
    exact .refused fun opens => proper opens.1

/-- A process that may not set the mode of a file leaves what it wrote to all who may read it. -/
example :
    let f := (Folder.mk [] { Access.full with changing := fun _ => some ⟨.os 1, nofun⟩ }).put
      ["cookie"] (.file [1, 2, 3] 0o644)
    f.write "cookie" [7] 0o600 = (.error (.os 1), f.put ["cookie"] (.file [7] 0o644)) := rfl

/-- One step from the working directory. -/
theorem enter_root (root : f.node? [] = some .directory) :
    f.enter [] name =
      if name = "" ∨ name = "." then .ok []
      else if name = ".." then .ok [".."]
      else if 255 < (utf8 name).length then .error .nameTooLong
      else if (f.node? [name]).isSome then .ok [name]
      else .error .missing := by
  rw [enter, root]
  rfl

/-- What a step to an entry leads to. -/
theorem walk_of_nameable (h : f.Plain) (proper : Nameable name) :
    f.walk [] [name] = if (f.node? [name]).isSome then .ok [name] else .error .missing := by
  have hdots := proper.noDots
  have hshort := proper.short
  simp only [isDots, Bool.or_eq_false_iff, decide_eq_false_iff_not] at hdots
  rw [walk, enter_root h.root, if_neg (by simp [proper.nonempty, hdots.1]), if_neg hdots.2,
    if_neg (by omega)]
  by_cases there : (f.node? [name]).isSome
  · simp only [there, if_true, walk]
  · simp only [if_neg there]

/-- A step that leads to no entry leads to a directory or nowhere. -/
theorem walk_of_not_nameable (h : f.Plain) (single : '/' ∉ name.toList)
    (fine : pathFault? name = none) (improper : ¬ Nameable name) :
    (∃ fault, f.walk [] [name] = .error fault) ∨
      ∃ place, f.walk [] [name] = .ok place ∧ ∀ n, f.node? place = some n → n = .directory := by
  rw [walk, enter_root h.root]
  by_cases hhere : name = "" ∨ name = "."
  · rw [if_pos hhere]
    refine .inr ⟨[], rfl, ?_⟩
    intro n hn
    exact Option.some.inj (hn.symm.trans h.root)
  · rw [if_neg hhere]
    by_cases habove : name = ".."
    · rw [if_pos habove]
      refine .inr ⟨[".."], rfl, ?_⟩
      intro n hn
      rcases h.entries ".." n hn with rfl | ⟨proper, -⟩
      · rfl
      · exact absurd proper.noDots (by decide)
    · rw [if_neg habove]
      have hnodots : isDots name = false := by
        simp only [not_or] at hhere
        simp [isDots, hhere.2, habove]
      by_cases hlong : 255 < (utf8 name).length
      · exact .inl ⟨.nameTooLong, by rw [if_pos hlong]⟩
      · exact absurd (nameable_of_pathFault? single fine hnodots (by omega)) improper

/-- **What is read** under a name is the file that has it, if the process may read that. -/
theorem read_eq_ok_iff (h : f.Plain) (single : '/' ∉ name.toList) {opened : Contents} :
    f.read name = .ok opened ↔
      ∃ contents mode, f.node? [name] = some (.file contents mode) ∧
        f.access.reading [name] mode = none ∧ opened = .finite contents := by
  by_cases proper : Nameable name
  · simp only [read, pathFault?_of_nameable proper, steps_of_single single,
      walk_of_nameable h proper]
    rcases hn : f.node? [name] with _ | n
    · simp
    · rcases h.entries name n hn with rfl | ⟨-, contents, mode, rfl⟩
      · simp [hn]
      · rcases hreading : f.access.reading [name] mode with _ | fault <;>
          simp [hn, hreading, and_assoc, eq_comm]
  · have hnone : ¬ ∃ contents mode, f.node? [name] = some (.file contents mode) ∧
        f.access.reading [name] mode = none ∧ opened = .finite contents := by
      rintro ⟨contents, mode, hn, -⟩
      rcases h.entries name _ hn with hdir | ⟨proper2, -⟩
      · cases hdir
      · exact proper proper2
    refine iff_of_false ?_ hnone
    rcases hfault : pathFault? name with _ | fault
    · simp only [read, hfault, steps_of_single single]
      rcases walk_of_not_nameable h single hfault proper with
        ⟨fault, hwalk⟩ | ⟨place, hwalk, hplace⟩
      · simp [hwalk]
      · rcases hn : f.node? place with _ | n
        · simp [hwalk, hn]
        · simp [hwalk, hn, hplace n hn]
    · simp [read, hfault]

end Folder

end ManagedTransport
