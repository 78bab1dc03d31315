import ManagedTransport.Proofs.Configuration
import ManagedTransport.Proofs.FolderEntries

/-!
# Cookie files as a store

Cookies are loaded from files, written to files and made afresh, and others write the same
files, one after the other in one working directory.  The process that has the cookies may be
hindered: it may not be let read or write a file, and a write that has begun may be stopped, so
that the file is left cut or with the mode that it had.

* `FileStep.perform`, `FileStep.history` — what comes of one step, and of one after the other;
* `perform_of_writes?` — all that can come of a step that writes;
* `KeepsCookies` — a file holds the cookie that was last written to it, whole and private, and
  just this cookie is loaded from it; the rest stays as it is;
* `Unhindered` — what more is true if nothing hinders the process: it loads what is there, and a
  step that fails changes nothing;
* `keeps_cookies` — all this holds of every row of steps.
-/

namespace ManagedTransport

namespace Folder

/-- The folder as a process finds it that is let do so much. -/
def under (f : Folder) (access : Access) : Folder := { f with access := access }

variable {f : Folder}

theorem Plain.under (h : f.Plain) (access : Access) : (f.under access).Plain :=
  ⟨h.root, h.entries⟩

end Folder

/-- A working directory, and the random octets for fresh cookies. -/
structure Shelf where
  folder : Folder
  supply : Supply

/-- What may be done with a file. -/
inductive FileStep where
  | load (name : String)
  | store (cookie : Cookie) (name : String)
  /-- Makes a fresh cookie and stores it. -/
  | generate (name : String)
  /-- Somebody else, whom nothing hinders, writes the file and leaves it with this mode. -/
  | foreign (contents : Bytes) (mode : Nat) (name : String)

/-- What comes of a step. -/
inductive FileResult where
  | loaded (result : Except ConfigError Cookie)
  | wrote (result : Except Fault Unit)

namespace Shelf

/-- Loads the cookie of a file. -/
def load (s : Shelf) (name : String) : Except ConfigError Cookie :=
  Cookie.load name (s.folder.read name)

/-- The shelf after a write, which may have failed.  What the process is let do stays. -/
def keep (s : Shelf) (outcome : Except Fault Unit × Folder) : FileResult × Shelf :=
  (.wrote outcome.1, { s with folder := outcome.2.under s.folder.access })

/-- The shelf after a cookie was drawn. -/
def draw (s : Shelf) : Cookie × Shelf :=
  ((Cookie.generate s.supply).1, { s with supply := (Cookie.generate s.supply).2 })

end Shelf

namespace FileStep

/-- The file that a step is about. -/
def name : FileStep → String
  | load name | store _ name | generate name | foreign _ _ name => name

/-- The file is named by a path of one component. -/
def Single (step : FileStep) : Prop := '/' ∉ step.name.toList

/-- What comes of a step. -/
def perform (step : FileStep) (s : Shelf) : FileResult × Shelf :=
  match step with
  | load name => (.loaded (s.load name), s)
  | store cookie name => s.keep (cookie.writeFile s.folder name)
  | generate name => s.draw.2.keep (s.draw.1.writeFile s.folder name)
  | foreign contents mode name => s.keep ((s.folder.under .full).write name contents mode)

/-- The folder as the one finds it who takes a step. -/
def found (s : Shelf) : FileStep → Folder
  | load _ | store _ _ | generate _ => s.folder
  | foreign _ _ _ => s.folder.under .full

/-- The cookie that a step is to write. -/
def cookie? (s : Shelf) : FileStep → Option Cookie
  | store cookie _ => some cookie
  | generate _ => some s.draw.1
  | load _ | foreign _ _ _ => none

/-- The contents and the mode that a step is to give the file. -/
def writes? (s : Shelf) : FileStep → Option (Bytes × Nat)
  | load _ => none
  | store cookie _ => some (cookie.file, Cookie.fileMode)
  | generate _ => some (s.draw.1.file, Cookie.fileMode)
  | foreign contents mode _ => some (contents, mode)

/-- A step that makes a fresh cookie. -/
def generates : FileStep → Bool
  | generate _ => true
  | load _ | store _ _ | foreign _ _ _ => false

/-- The supply after a step. -/
def supplyAfter (step : FileStep) (s : Supply) : Supply :=
  if step.generates then s.draw.2 else s

/-- The shelf after steps one after the other. -/
def run (steps : List FileStep) (s : Shelf) : Shelf :=
  steps.foldl (fun s step => (step.perform s).2) s

end FileStep

/-- A step that was taken, and the shelf that it found. -/
structure FileEvent where
  step : FileStep
  before : Shelf

namespace FileEvent

def result (e : FileEvent) : FileResult := (e.step.perform e.before).1

def after (e : FileEvent) : Shelf := (e.step.perform e.before).2

/-- The folder as the one found it who took the step. -/
def found (e : FileEvent) : Folder := e.step.found e.before

/-- A write succeeded. -/
def Succeeded (e : FileEvent) : Prop := e.result = .wrote (.ok ())

/-- The file of the step is as it was. -/
def Spares (e : FileEvent) : Prop :=
  e.after.folder.node? [e.step.name] = e.before.folder.node? [e.step.name]

end FileEvent

/-- The steps that are taken one after the other, each on the shelf that the last one left. -/
def FileStep.history : List FileStep → Shelf → List FileEvent
  | [], _ => []
  | step :: steps, s => ⟨step, s⟩ :: history steps (step.perform s).2

/-- What comes of steps that are taken one after the other by a process that nothing hinders. -/
structure Unhindered (start : Shelf) (steps : List FileStep) : Prop where
  /-- What was last written to a file as a cookie is loaded. -/
  last : ∀ earlier e later c, FileStep.history steps start = earlier ++ e :: later →
    e.step.cookie? e.before = some c → e.Succeeded →
    (∀ e2 ∈ later, e2.step.name = e.step.name → ¬ e2.Succeeded) →
    (FileStep.run steps start).folder.node? [e.step.name] =
        some (.file (Cookie.header ++ c.secret) 0o600) ∧
      (FileStep.run steps start).load e.step.name = .ok c
  /-- A cookie is loaded if and only if the file is there and holds just the header and the
  secret. -/
  loads : ∀ name, '/' ∉ name.toList → ∀ c, (FileStep.run steps start).load name = .ok c ↔
    ∃ mode, (FileStep.run steps start).folder.node? [name] =
      some (.file (Cookie.header ++ c.secret) mode)
  /-- A write succeeds if and only if the name can be a file's and is not a directory's. -/
  written : ∀ e ∈ FileStep.history steps start, ∀ contents mode,
    e.step.writes? e.before = some (contents, mode) →
    (e.Succeeded ↔ Nameable e.step.name ∧
      e.before.folder.node? [e.step.name] ≠ some .directory)
  /-- A step that fails leaves everything as it was. -/
  failed : ∀ e ∈ FileStep.history steps start, ¬ e.Succeeded → e.after.folder = e.before.folder

/-- What comes of steps that are taken one after the other. -/
structure KeepsCookies (start : Shelf) (steps : List FileStep) : Prop where
  /-- What was last written to a file as a cookie is there, and nothing else, and nobody but the
  owner may read it, as long as no step changes the file again. -/
  last : ∀ earlier e later c, FileStep.history steps start = earlier ++ e :: later →
    e.step.cookie? e.before = some c → e.Succeeded →
    (∀ e2 ∈ later, e2.step.name = e.step.name → e2.Spares) →
    (Cookie.header ++ c.secret).length = 64 ∧
      (FileStep.run steps start).folder.node? [e.step.name] =
        some (.file (Cookie.header ++ c.secret) 0o600)
  /-- A cookie is loaded if and only if the file is there and holds just the header and the
  secret, and may be read. -/
  loads : ∀ name, '/' ∉ name.toList → ∀ c, (FileStep.run steps start).load name = .ok c ↔
    ∃ mode, (FileStep.run steps start).folder.node? [name] =
        some (.file (Cookie.header ++ c.secret) mode) ∧
      start.folder.access.reading [name] mode = none
  /-- Each fresh cookie is made of the next block of the supply, whatever came of those
  before. -/
  draws : ∀ earlier e later, FileStep.history steps start = earlier ++ e :: later →
    e.step.generates → ∃ c, e.step.cookie? e.before = some c ∧
      c.secret = start.supply.block
        (start.supply.drawn + earlier.countP fun e2 => e2.step.generates)
  /-- A write succeeds if and only if the name can be a file's, the file can be opened, and the
  write is not stopped; and then the file is as it was to be. -/
  written : ∀ e ∈ FileStep.history steps start, ∀ contents mode,
    e.step.writes? e.before = some (contents, mode) →
    (e.Succeeded ↔ Nameable e.step.name ∧ e.found.opening? [e.step.name] = none ∧
      e.found.Unbroken e.step.name contents) ∧
    (e.Succeeded → e.after.folder.node? [e.step.name] = some (.file contents mode))
  /-- A step that loads changes nothing. -/
  loading : ∀ e ∈ FileStep.history steps start, ∀ name, e.step = .load name →
    e.result = .loaded (e.before.load name) ∧ e.after = e.before
  /-- A step that fails leaves everything as it was, unless it is stopped when it writes: then
  the file holds the front of what was to be written, with the mode that it had. -/
  failed : ∀ e ∈ FileStep.history steps start, ¬ e.Succeeded →
    e.after.folder = e.before.folder ∨
      ∃ contents mode front, e.step.writes? e.before = some (contents, mode) ∧
        ¬ e.found.Unbroken e.step.name contents ∧ front <+: contents ∧
        e.after.folder =
          e.before.folder.put [e.step.name] (.file front (e.found.modeAt [e.step.name]))
  /-- No step touches anything but its own file. -/
  others : ∀ e ∈ FileStep.history steps start, ∀ place ≠ [e.step.name],
    e.after.folder.node? place = e.before.folder.node? place
  /-- There is more to say of a process that nothing hinders. -/
  unhindered : start.folder.access = .full → Unhindered start steps

namespace FileStep

variable {s : Shelf} {step : FileStep} {steps : List FileStep}

/-- **All that can come of a step that writes**: a write comes to what it can come to for the one
who takes the step. -/
theorem perform_of_writes? (plain : s.folder.Plain) (single : step.Single) {contents : Bytes}
    {mode : Nat} (h : step.writes? s = some (contents, mode)) :
    ∃ r g, (step.found s).Written step.name contents mode (r, g) ∧
      step.perform s = (.wrote r, ⟨g.under s.folder.access, step.supplyAfter s.supply⟩) := by
  cases step with
  | load name => cases h
  | store cookie name | generate name =>
      cases h
      exact ⟨_, _, Folder.written_write plain single, rfl⟩
  | foreign contents mode name =>
      cases h
      exact ⟨_, _, Folder.written_write (plain.under .full) single, rfl⟩

/-- A step that writes nothing loads. -/
theorem perform_of_loads (h : step.writes? s = none) :
    step.perform s = (.loaded (s.load step.name), s) := by
  cases step with
  | load name => rfl
  | store | generate | foreign => cases h

theorem supply_perform (step : FileStep) (s : Shelf) :
    (step.perform s).2.supply = step.supplyAfter s.supply := by
  cases step <;> rfl

/-- A step does not change what the process is let do. -/
theorem access_perform (step : FileStep) (s : Shelf) :
    (step.perform s).2.folder.access = s.folder.access := by
  cases step <;> rfl

theorem found_under (step : FileStep) (s : Shelf) :
    (step.found s).under s.folder.access = s.folder := by
  cases step <;> rfl

theorem put_found_under (step : FileStep) (s : Shelf) (place : Location) (n : Node) :
    ((step.found s).put place n).under s.folder.access = s.folder.put place n := by
  cases step <;> rfl

/-- A step keeps a working directory plain. -/
theorem plain_perform (plain : s.folder.Plain) (single : step.Single) :
    (step.perform s).2.folder.Plain := by
  rcases hwrites : step.writes? s with _ | ⟨contents, mode⟩
  · rw [perform_of_loads hwrites]
    exact plain
  · obtain ⟨r, g, written, h⟩ := perform_of_writes? plain single hwrites
    rw [h]
    cases written with
    | refused =>
        rw [found_under]
        exact plain
    | broken proper | whole proper =>
        rw [put_found_under]
        exact plain.put_file proper

theorem run_cons (step : FileStep) (steps : List FileStep) (s : Shelf) :
    run (step :: steps) s = run steps (step.perform s).2 := rfl

/-- Steps keep a working directory plain. -/
theorem plain_run (plain : s.folder.Plain) (single : ∀ step ∈ steps, step.Single) :
    (run steps s).folder.Plain := by
  induction steps generalizing s with
  | nil => exact plain
  | cons step steps ih =>
      rw [run_cons]
      refine ih (plain_perform plain (single step (by simp))) ?_
      intro step2 hmem
      exact single step2 (by simp [hmem])

theorem access_run (steps : List FileStep) (s : Shelf) :
    (run steps s).folder.access = s.folder.access := by
  induction steps generalizing s with
  | nil => rfl
  | cons step steps ih => rw [run_cons, ih, access_perform]

/-- The steps so far have drawn as many blocks as they have made cookies. -/
theorem supply_run (steps : List FileStep) (s : Shelf) :
    (run steps s).supply = ⟨s.supply.octets, s.supply.drawn + steps.countP generates⟩ := by
  induction steps generalizing s with
  | nil => rfl
  | cons step steps ih =>
      rw [run_cons, ih, supply_perform, supplyAfter, List.countP_cons]
      by_cases hfresh : step.generates
      · simp [hfresh]
        omega
      · simp [hfresh]

theorem countP_history (steps : List FileStep) (s : Shelf) :
    (history steps s).countP (fun e => e.step.generates) = steps.countP generates := by
  induction steps generalizing s with
  | nil => rfl
  | cons step steps ih => rw [history, List.countP_cons, List.countP_cons, ih]

/-- Where a history is cut, the steps are: what comes before an event has led to the shelf that
it found, and what comes after it goes on from the shelf that it left. -/
theorem of_history {earlier later : List FileEvent} {e : FileEvent}
    (h : history steps s = earlier ++ e :: later) :
    ∃ first rest, steps = first ++ e.step :: rest ∧ earlier = history first s ∧
      e.before = run first s ∧ later = history rest e.after ∧ run steps s = run rest e.after := by
  induction steps generalizing s earlier with
  | nil => simp [history] at h
  | cons step steps ih =>
      rw [history] at h
      rcases earlier with _ | ⟨e2, earlier⟩
      · obtain ⟨rfl, rfl⟩ := List.cons.inj h
        exact ⟨[], steps, rfl, rfl, rfl, rfl, rfl⟩
      · obtain ⟨rfl, hrest⟩ := List.cons.inj h
        obtain ⟨first, rest, rfl, rfl, hbefore, hlater, hrun⟩ := ih hrest
        exact ⟨step :: first, rest, rfl, rfl, hbefore, hlater, hrun⟩

/-- Every event of a history is a step from a plain working directory, in which the process is let
do what it was let do at first. -/
theorem of_mem_history (plain : s.folder.Plain) (single : ∀ step ∈ steps, step.Single)
    {e : FileEvent} (h : e ∈ history steps s) :
    e.before.folder.Plain ∧ e.step.Single ∧ e.before.folder.access = s.folder.access := by
  obtain ⟨earlier, later, hcut⟩ := List.append_of_mem h
  obtain ⟨first, rest, rfl, -, hbefore, -, -⟩ := of_history hcut
  refine ⟨?_, single e.step (by simp), ?_⟩
  · rw [hbefore]
    exact plain_run plain fun step hmem => single step (by simp [hmem])
  · rw [hbefore, access_run]

end FileStep

namespace FileEvent

variable {e : FileEvent} {contents : Bytes} {mode : Nat}

/-- An event that writes, by what came of the write. -/
theorem exists_written (plain : e.before.folder.Plain) (single : e.step.Single)
    (writes : e.step.writes? e.before = some (contents, mode)) :
    ∃ r g, e.found.Written e.step.name contents mode (r, g) ∧ e.result = .wrote r ∧
      e.after.folder = g.under e.before.folder.access := by
  obtain ⟨r, g, written, h⟩ := FileStep.perform_of_writes? plain single writes
  refine ⟨r, g, written, ?_, ?_⟩
  · rw [result, h]
  · rw [after, h]

/-- An event that writes nothing changes nothing. -/
theorem after_of_loads (loads : e.step.writes? e.before = none) : e.after = e.before := by
  rw [after, FileStep.perform_of_loads loads]

/-- **What an event leaves that has failed**: everything as it was, or a file that was not written
to the end. -/
theorem folder_of_failed (plain : e.before.folder.Plain) (single : e.step.Single)
    (failed : ¬ e.Succeeded) :
    e.after.folder = e.before.folder ∨
      ∃ contents mode front, e.step.writes? e.before = some (contents, mode) ∧
        ¬ e.found.Unbroken e.step.name contents ∧ front <+: contents ∧
        e.after.folder =
          e.before.folder.put [e.step.name] (.file front (e.found.modeAt [e.step.name])) := by
  rcases hwrites : e.step.writes? e.before with _ | ⟨contents, mode⟩
  · exact .inl (congrArg Shelf.folder (after_of_loads hwrites))
  · obtain ⟨r, g, written, hresult, hafter⟩ := exists_written plain single hwrites
    cases written with
    | refused => exact .inl (hafter.trans (FileStep.found_under _ _))
    | broken proper opens stopped part =>
        exact .inr ⟨contents, mode, _, rfl, stopped, part,
          hafter.trans (FileStep.put_found_under _ _ _ _)⟩
    | whole => exact absurd hresult failed

/-- An event touches nothing but its own file. -/
theorem node?_after (plain : e.before.folder.Plain) (single : e.step.Single) {place : Location}
    (other : place ≠ [e.step.name]) :
    e.after.folder.node? place = e.before.folder.node? place := by
  rcases hwrites : e.step.writes? e.before with _ | ⟨contents, mode⟩
  · rw [after_of_loads hwrites]
  · obtain ⟨r, g, written, -, hafter⟩ := exists_written plain single hwrites
    rw [hafter]
    cases written with
    | refused => rw [found, FileStep.found_under]
    | broken | whole => rw [found, FileStep.put_found_under, Folder.node?_put, if_neg other]

/-- A write succeeds where a file can be opened, and where it is not stopped. -/
theorem succeeded_iff (plain : e.before.folder.Plain) (single : e.step.Single)
    (writes : e.step.writes? e.before = some (contents, mode)) :
    e.Succeeded ↔ Nameable e.step.name ∧ e.found.opening? [e.step.name] = none ∧
      e.found.Unbroken e.step.name contents := by
  obtain ⟨r, g, written, hresult, -⟩ := exists_written plain single writes
  rw [Succeeded, hresult]
  cases written with
  | refused shut => exact iff_of_false nofun fun opens => shut ⟨opens.1, opens.2.1⟩
  | broken proper opens stopped => exact iff_of_false nofun fun unbroken => stopped unbroken.2.2
  | whole proper opens unbroken => exact iff_of_true rfl ⟨proper, opens, unbroken⟩

/-- The file is there that a write has succeeded in writing. -/
theorem node?_of_succeeded (plain : e.before.folder.Plain) (single : e.step.Single)
    (writes : e.step.writes? e.before = some (contents, mode)) (succeeded : e.Succeeded) :
    e.after.folder.node? [e.step.name] = some (.file contents mode) := by
  obtain ⟨r, g, written, hresult, hafter⟩ := exists_written plain single writes
  rw [hafter]
  cases written with
  | refused | broken =>
      rw [Succeeded, hresult] at succeeded
      cases succeeded
  | whole =>
      rw [found, FileStep.put_found_under]
      exact (Folder.node?_put _ _ _ _).trans (if_pos rfl)

end FileEvent

namespace FileStep

variable {s : Shelf} {steps : List FileStep}

/-- **What nobody changes** is as it was. -/
theorem node?_run (plain : s.folder.Plain) (single : ∀ step ∈ steps, step.Single)
    {place : Location} (spared : ∀ e ∈ history steps s, [e.step.name] = place → e.Spares) :
    (run steps s).folder.node? place = s.folder.node? place := by
  induction steps generalizing s with
  | nil => rfl
  | cons step steps ih =>
      have hsingle : step.Single := single step (by simp)
      have hfirst : (step.perform s).2.folder.node? place = s.folder.node? place := by
        by_cases hplace : [step.name] = place
        · have hspares := spared ⟨step, s⟩ (by simp [history]) hplace
          rw [← hplace]
          exact hspares
        · exact FileEvent.node?_after (e := ⟨step, s⟩) plain hsingle (Ne.symm hplace)
      rw [run_cons, ih (plain_perform plain hsingle), hfirst]
      · exact fun step2 hmem => single step2 (by simp [hmem])
      · exact fun e hmem => spared e (by simp [history, hmem])

end FileStep

/-- A cookie is loaded from a name if and only if the file has it and may be read. -/
theorem Shelf.load_eq_ok_iff {s : Shelf} {name : String} {c : Cookie} (plain : s.folder.Plain)
    (single : '/' ∉ name.toList) :
    s.load name = .ok c ↔ ∃ mode, s.folder.node? [name] = some (.file c.file mode) ∧
      s.folder.access.reading [name] mode = none := by
  rw [load, Cookie.load_eq_ok_iff, Folder.read_eq_ok_iff plain single]
  constructor
  · rintro ⟨contents, mode, hnode, hreading, hcontents⟩
    cases hcontents
    exact ⟨mode, hnode, hreading⟩
  · rintro ⟨mode, hnode, hreading⟩
    exact ⟨c.file, mode, hnode, hreading, rfl⟩

/-- A step that is to write a cookie is to write a cookie file. -/
theorem FileStep.writes?_of_cookie? {step : FileStep} {s : Shelf} {c : Cookie}
    (h : step.cookie? s = some c) : step.writes? s = some (c.file, Cookie.fileMode) := by
  cases step with
  | load | foreign => cases h
  | store | generate =>
      cases h
      rfl

theorem FileStep.cookie?_of_generates {step : FileStep} {s : Shelf} (h : step.generates) :
    step.cookie? s = some s.draw.1 := by
  cases step with
  | load | store | foreign => cases h
  | generate => rfl

section

variable {start : Shelf} {steps : List FileStep}

/-- The file that a cookie was written to holds it to the end, if no step changes it again. -/
theorem node?_of_last (plain : start.folder.Plain) (single : ∀ step ∈ steps, step.Single)
    {earlier later : List FileEvent} {e : FileEvent} {c : Cookie}
    (hcut : FileStep.history steps start = earlier ++ e :: later)
    (hcookie : e.step.cookie? e.before = some c) (succeeded : e.Succeeded)
    (spared : ∀ e2 ∈ later, e2.step.name = e.step.name → e2.Spares) :
    (FileStep.run steps start).folder.node? [e.step.name] =
      some (.file c.file Cookie.fileMode) := by
  have hmem : e ∈ FileStep.history steps start := by simp [hcut]
  obtain ⟨hbefore, hsingle, -⟩ := FileStep.of_mem_history plain single hmem
  obtain ⟨first, rest, rfl, -, -, rfl, hrun⟩ := FileStep.of_history hcut
  have hkept : (FileStep.run rest e.after).folder.node? [e.step.name] =
      e.after.folder.node? [e.step.name] := by
    refine FileStep.node?_run (FileStep.plain_perform hbefore hsingle) ?_ ?_
    · exact fun step hmem => single step (by simp [hmem])
    · exact fun e2 hmem hname => spared e2 hmem (List.singleton_inj.mp hname)
  rw [hrun, hkept]
  exact FileEvent.node?_of_succeeded hbefore hsingle (FileStep.writes?_of_cookie? hcookie) succeeded

/-- Nothing hinders anybody where nothing hinders the process. -/
theorem FileStep.found_of_full (step : FileStep) {s : Shelf} (full : s.folder.access = .full) :
    step.found s = s.folder := by
  cases step with
  | load | store | generate => rfl
  | foreign =>
      rw [found, ← full]
      rfl

/-- **A process that nothing hinders** loads what is there, and fails without a trace. -/
theorem unhindered_of_full (plain : start.folder.Plain) (single : ∀ step ∈ steps, step.Single)
    (full : start.folder.access = .full) : Unhindered start steps := by
  have hevent : ∀ e ∈ FileStep.history steps start, e.before.folder.Plain ∧ e.step.Single ∧
      e.found = e.before.folder ∧ e.before.folder.access = .full := by
    intro e he
    obtain ⟨hbefore, hsingle, haccess⟩ := FileStep.of_mem_history plain single he
    exact ⟨hbefore, hsingle, e.step.found_of_full (haccess.trans full), haccess.trans full⟩
  have hloads : ∀ name, '/' ∉ name.toList → ∀ c, (FileStep.run steps start).load name = .ok c ↔
      ∃ mode, (FileStep.run steps start).folder.node? [name] =
        some (.file (Cookie.header ++ c.secret) mode) := by
    intro name hname c
    rw [Shelf.load_eq_ok_iff (FileStep.plain_run plain single) hname, FileStep.access_run, full]
    exact exists_congr fun mode => and_iff_left rfl
  have hfailed : ∀ e ∈ FileStep.history steps start, ¬ e.Succeeded →
      e.after.folder = e.before.folder := by
    intro e he failed
    obtain ⟨hbefore, hsingle, hfound, hfull⟩ := hevent e he
    rcases FileEvent.folder_of_failed hbefore hsingle failed with hsame | ⟨_, _, _, -, stopped, -⟩
    · exact hsame
    · rw [hfound] at stopped
      exact absurd (Folder.unbroken_of_full hfull _ _) stopped
  refine ⟨?_, hloads, ?_, hfailed⟩
  · intro earlier e later c hcut hcookie succeeded unwritten
    have hlast := node?_of_last plain single hcut hcookie succeeded fun e2 hmem hname =>
      congrArg (Folder.node? · [e2.step.name]) (hfailed e2 (by simp [hcut, hmem])
        (unwritten e2 hmem hname))
    obtain ⟨-, hsingle, -⟩ := hevent e (by simp [hcut])
    exact ⟨hlast, (hloads _ hsingle c).mpr ⟨_, hlast⟩⟩
  · intro e he contents mode writes
    obtain ⟨hbefore, hsingle, hfound, hfull⟩ := hevent e he
    rw [FileEvent.succeeded_iff hbefore hsingle writes, hfound,
      Folder.opening?_of_full hbefore hfull]
    exact and_congr_right fun _ => and_iff_left (Folder.unbroken_of_full hfull _ _)

end

/-- **Cookie files are a store.**  Whatever is done to the files of a working directory, whatever
hinders the process, and whatever fails, they keep their cookies as `KeepsCookies` says. -/
theorem keeps_cookies {start : Shelf} {steps : List FileStep} (plain : start.folder.Plain)
    (single : ∀ step ∈ steps, step.Single) : KeepsCookies start steps := by
  have hplain : (FileStep.run steps start).folder.Plain := FileStep.plain_run plain single
  have hevent : ∀ e ∈ FileStep.history steps start, e.before.folder.Plain ∧ e.step.Single :=
    fun e he => (FileStep.of_mem_history plain single he).imp id And.left
  refine ⟨?_, ?_, ?_, ?_, ?_, ?_, ?_, unhindered_of_full plain single⟩
  · intro earlier e later c hcut hcookie succeeded spared
    exact ⟨c.length_file, node?_of_last plain single hcut hcookie succeeded spared⟩
  · intro name hname c
    rw [Shelf.load_eq_ok_iff hplain hname, FileStep.access_run]
    rfl
  · intro earlier e later hcut hfresh
    obtain ⟨first, rest, -, rfl, hbefore, -⟩ := FileStep.of_history hcut
    rw [FileStep.countP_history]
    refine ⟨e.before.draw.1, FileStep.cookie?_of_generates hfresh, ?_⟩
    have hsupply := FileStep.supply_run first start
    rw [← hbefore] at hsupply
    show e.before.supply.draw.1 = _
    rw [hsupply]
    rfl
  · intro e he contents mode writes
    obtain ⟨hbefore, hsingle⟩ := hevent e he
    exact ⟨FileEvent.succeeded_iff hbefore hsingle writes,
      FileEvent.node?_of_succeeded hbefore hsingle writes⟩
  · intro e he name hload
    rw [FileEvent.result, FileEvent.after, hload]
    exact ⟨rfl, rfl⟩
  · intro e he failed
    obtain ⟨hbefore, hsingle⟩ := hevent e he
    exact FileEvent.folder_of_failed hbefore hsingle failed
  · intro e he place other
    obtain ⟨hbefore, hsingle⟩ := hevent e he
    exact FileEvent.node?_after hbefore hsingle other

/-- A working directory with a directory `shut`, and a file `cookie` that is longer than a cookie
and that everybody may read. -/
def crowded : Shelf where
  folder := (Folder.empty.put ["shut"] .directory).put ["cookie"]
    (.file (List.replicate 70 7) 0o644)
  supply := .fresh (List.replicate 32 1 ++ List.replicate 32 2)

/-- A cookie is made for `shut`, which cannot be written, and one for `cookie`; then somebody
else writes another file. -/
def crowding : List FileStep :=
  [.generate "shut", .generate "cookie", .foreign [3] 0o644 "other", .load "shut"]

/-- The cookie made second is loaded, and it is of the second block of the supply. -/
theorem crowded_keeps :
    crowded.folder.Plain ∧ (∀ step ∈ crowding, step.Single) ∧ crowded.folder.access = .full ∧
      ∃ c, (FileStep.run crowding crowded).load "cookie" = .ok c ∧
        c.secret = List.replicate 32 2 := by
  have proper : Nameable "cookie" :=
    ⟨by decide, by decide, by decide, by decide, by decide⟩
  have plain : crowded.folder.Plain := (Folder.plain_empty.put (.inl rfl)).put_file proper
  have single : ∀ step ∈ crowding, step.Single := by
    unfold crowding FileStep.Single
    decide
  refine ⟨plain, single, rfl, ?_⟩
  have hkeeps := keeps_cookies plain single
  have hfree := hkeeps.unhindered rfl
  have hcut : FileStep.history crowding crowded = [⟨.generate "shut", crowded⟩] ++
      ⟨.generate "cookie", ((FileStep.generate "shut").perform crowded).2⟩ ::
        FileStep.history (crowding.drop 2) (FileStep.run (crowding.take 2) crowded) := rfl
  have hthere : ((FileStep.generate "shut").perform crowded).2.folder.node? ["cookie"] ≠
      some .directory := by
    have hsame := hkeeps.others ⟨.generate "shut", crowded⟩ (by simp [hcut]) ["cookie"] (by decide)
    rw [FileEvent.after] at hsame
    rw [hsame, crowded, Folder.node?_put, if_pos rfl]
    nofun
  obtain ⟨c, hcookie, hsecret⟩ := hkeeps.draws _ _ _ hcut rfl
  have hwritten := (hfree.written _ (by rw [hcut]; simp) _ _
    (FileStep.writes?_of_cookie? hcookie)).mpr ⟨proper, hthere⟩
  have hlater : ∀ e ∈ FileStep.history (crowding.drop 2) (FileStep.run (crowding.take 2) crowded),
      e.step.name ≠ "cookie" := by
    simp [crowding, FileStep.history, FileStep.name]
  obtain ⟨-, hload⟩ := hfree.last _ _ _ c hcut hcookie hwritten
    fun e he hname => absurd hname (hlater e he)
  refine ⟨c, hload, ?_⟩
  rw [hsecret]
  decide

end ManagedTransport
