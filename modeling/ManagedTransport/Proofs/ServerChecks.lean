import ManagedTransport.Proofs.SetupReport

/-!
# The checks of a server's environment

A server's environment is checked in a fixed order, and the first check that fails says what is
wrong; whatever comes after it is not looked at.  What a host stands for is what the system says.

* `ServerCheck`, `ServerCheck.Fails` — the checks, and how each of them fails;
* `ServerCheck.inOrder` — the order in which they are made;
* `ServerCheck.FailsFirst` — the first of several that fails, of which there is one only;
* `ServerCheck.Performs` — a computation makes checks one after the other, with its rules, and
  `ServerConfig.ofEnvironment_performs` — that the configuration does.
-/

namespace ManagedTransport

open Text

/-- The checks of a server's environment. -/
inductive ServerCheck where
  /-- The version spoken is offered. -/
  | version
  /-- A variable is set to something. -/
  | isSet (v : Variable)
  /-- What a variable is set to, if it is, resolves. -/
  | resolves (v : Variable)
  /-- A bind entry has a dash. -/
  | hasDash (entry : String)
  /-- What stands behind the first dash of a bind entry resolves. -/
  | bindResolves (entry : String)
  /-- The cookie file, if one is named, is one. -/
  | cookieLoads

namespace ServerCheck

section

variable (env : Environment) (files : String → Except Fault Contents) (system : Resolver)

/-- A check fails by an error. -/
inductive Fails : ServerCheck → ConfigError → Prop
  | noVersions (lacks : env.Lacks .transportVersion) :
      Fails .version (.missingVariable Variable.transportVersion.name)
  | otherVersions {offered} (sets : env.Sets .transportVersion offered)
      (other : Environment.spokenVersion ∉ entries offered) :
      Fails .version (.unsupportedVersion offered)
  | unset {v} (lacks : env.Lacks v) : Fails (.isSet v) (.missingVariable v.name)
  | unresolved {v value reason} (sets : env.Sets v value)
      (fails : system.resolve value = .error reason) :
      Fails (.resolves v) (.unresolved v.name value reason.message)
  | noDash {entry} (none : '-' ∉ entry.toList) :
      Fails (.hasDash entry) (.badBindEntry entry "doesn't contain \"-\"")
  | badBind {entry method addr reason} (cut : entry.toList = method ++ '-' :: addr)
      (first : '-' ∉ method) (fails : system.resolveBindChars addr = .error reason) :
      Fails (.bindResolves entry) (.badBindEntry entry reason.message)
  | badCookie {path e} (sets : env.Sets .authCookieFile path)
      (fails : Cookie.load path (files path) = .error e) : Fails .cookieLoads e

/-- A check does not fail. -/
def Passes (check : ServerCheck) : Prop := ∀ e, ¬ check.Fails env files system e

/-- Of these checks, made one after the other, the first that fails does so by this error. -/
inductive FailsFirst : List ServerCheck → ConfigError → Prop
  | here {check later e} (fails : check.Fails env files system e) : FailsFirst (check :: later) e
  | later {check later e} (passes : check.Passes env files system) (rest : FailsFirst later e) :
      FailsFirst (check :: later) e

/-- The checks of a bind entry. -/
def ofEntry (entry : String) : List ServerCheck := [.hasDash entry, .bindResolves entry]

/-- The bind entries, if there are any. -/
def bindEntries : List String := (env.value? .serverBindAddr).toList.flatMap entries

/-- The checks that are made before the cookie file is read. -/
def beforeCookie : List ServerCheck :=
  [.version, .isSet .orPort, .resolves .orPort, .isSet .serverBindAddr] ++
    (bindEntries env).flatMap ofEntry ++
    [.isSet .serverTransports, .resolves .extendedServerPort]

/-- All the checks in the order in which they are made. -/
def inOrder : List ServerCheck := beforeCookie env ++ [.cookieLoads]

end

variable {env : Environment} {files : String → Except Fault Contents} {system : Resolver}

theorem bindEntries_of_sets {list : String} (sets : env.Sets .serverBindAddr list) :
    bindEntries env = entries list := by
  rw [bindEntries, Environment.value?_eq_some_iff.mpr sets]
  exact List.flatMap_singleton _ _

/-- A check fails in one way. -/
theorem Fails.unique {check : ServerCheck} {e e2 : ConfigError} (h : check.Fails env files system e)
    (h2 : check.Fails env files system e2) : e = e2 := by
  cases h with
  | noVersions lacks =>
      cases h2 with
      | noVersions => rfl
      | otherVersions sets => exact absurd lacks sets.not_lacks
  | otherVersions sets =>
      cases h2 with
      | noVersions lacks => exact absurd lacks sets.not_lacks
      | otherVersions sets2 => rw [sets.unique sets2]
  | unset | noDash =>
      cases h2
      rfl
  | unresolved sets fails =>
      cases h2 with
      | unresolved sets2 fails2 =>
          obtain rfl := sets.unique sets2
          rw [Except.error.inj (fails.symm.trans fails2)]
  | badBind cut first fails =>
      cases h2 with
      | badBind cut2 first2 fails2 =>
          have hcut := cutFirst?_eq_some_iff.mpr ⟨cut, first⟩
          rw [cutFirst?_eq_some_iff.mpr ⟨cut2, first2⟩] at hcut
          cases hcut
          rw [Except.error.inj (fails.symm.trans fails2)]
  | badCookie sets fails =>
      cases h2 with
      | badCookie sets2 fails2 =>
          obtain rfl := sets.unique sets2
          exact Except.error.inj (fails.symm.trans fails2)

/-- Only one check looks at a file. -/
theorem Fails.of_files {check : ServerCheck} {e : ConfigError} (h : check.Fails env files system e)
    (hne : check ≠ .cookieLoads) {files2 : String → Except Fault Contents} :
    check.Fails env files2 system e := by
  cases h with
  | noVersions lacks => exact .noVersions lacks
  | otherVersions sets other => exact .otherVersions sets other
  | unset lacks => exact .unset lacks
  | unresolved sets fails => exact .unresolved sets fails
  | noDash none => exact .noDash none
  | badBind cut first fails => exact .badBind cut first fails
  | badCookie => exact absurd rfl hne

theorem cookieLoads_not_mem (env : Environment) : .cookieLoads ∉ beforeCookie env := by
  simp [beforeCookie, ofEntry]

theorem Fails.not_passes {check : ServerCheck} {e : ConfigError}
    (h : check.Fails env files system e) :
    ¬ check.Passes env files system := fun passes => passes e h

namespace FailsFirst

variable {checks more : List ServerCheck} {e e2 : ConfigError}

theorem unique (h : FailsFirst env files system checks e)
    (h2 : FailsFirst env files system checks e2) : e = e2 := by
  induction h with
  | here fails =>
      cases h2 with
      | here fails2 => exact fails.unique fails2
      | later passes => exact absurd passes fails.not_passes
  | later passes _ ih =>
      cases h2 with
      | here fails2 => exact absurd passes fails2.not_passes
      | later _ rest2 => exact ih rest2

/-- Later checks have no influence. -/
theorem append (h : FailsFirst env files system checks e) :
    FailsFirst env files system (checks ++ more) e := by
  induction h with
  | here fails => exact .here fails
  | later passes _ ih => exact .later passes ih

theorem prepend (passed : ∀ check ∈ more, check.Passes env files system)
    (h : FailsFirst env files system checks e) :
    FailsFirst env files system (more ++ checks) e := by
  induction more with
  | nil => exact h
  | cons check more ih =>
      apply later (passed check List.mem_cons_self)
      exact ih fun check2 hmem => passed check2 (List.mem_cons_of_mem check hmem)

/-- Checks that look at no file fail alike, whatever is in the files. -/
theorem of_files (h : FailsFirst env files system checks e) (none : .cookieLoads ∉ checks)
    {files2 : String → Except Fault Contents} : FailsFirst env files2 system checks e := by
  induction h with
  | here fails =>
      obtain ⟨hne, -⟩ := not_or.mp (mt List.mem_cons.mpr none)
      exact .here (fails.of_files (Ne.symm hne))
  | later passes _ ih =>
      obtain ⟨hne, hrest⟩ := not_or.mp (mt List.mem_cons.mpr none)
      refine .later ?_ (ih hrest)
      intro e2 fails2
      exact passes e2 (fails2.of_files (Ne.symm hne))

theorem exists_fails (h : FailsFirst env files system checks e) :
    ∃ check ∈ checks, check.Fails env files system e := by
  induction h with
  | here fails => exact ⟨_, List.mem_cons_self, fails⟩
  | later _ _ ih =>
      obtain ⟨check, hmem, fails⟩ := ih
      exact ⟨check, List.mem_cons_of_mem _ hmem, fails⟩

end FailsFirst

/-- A computation makes these checks one after the other, and fails by the first that does. -/
structure Performs (env : Environment) (files : String → Except Fault Contents)
    (system : Resolver) {α : Type} (checks : List ServerCheck) (x : Except ConfigError α) :
    Prop where
  ok : ∀ a, x = .ok a → ∀ check ∈ checks, check.Passes env files system
  error : ∀ e, x = .error e → FailsFirst env files system checks e

namespace Performs

variable {α β : Type} {checks more : List ServerCheck} {check : ServerCheck}
  {x : Except ConfigError α}

theorem nothing (a : α) : Performs env files system [] (.ok a : Except ConfigError α) := by
  refine ⟨?_, ?_⟩
  · intro _ _ check hmem
    cases hmem
  · intro e h
    cases h

theorem passed (passes : check.Passes env files system)
    (rest : Performs env files system checks x) :
    Performs env files system (check :: checks) x := by
  refine ⟨?_, ?_⟩
  · intro a h check2 hmem
    rcases List.mem_cons.mp hmem with rfl | hrest
    · exact passes
    · exact rest.ok a h check2 hrest
  · intro e h
    exact .later passes (rest.error e h)

theorem failed {e : ConfigError} (fails : check.Fails env files system e) :
    Performs env files system (check :: checks) (.error e : Except ConfigError α) := by
  refine ⟨?_, ?_⟩
  · intro a h
    cases h
  · intro e2 h
    cases h
    exact .here fails

theorem bind {f : α → Except ConfigError β} (hx : Performs env files system checks x)
    (hf : ∀ a, x = .ok a → Performs env files system more (f a)) :
    Performs env files system (checks ++ more) (x >>= f) := by
  rcases x with e | a
  · refine ⟨?_, ?_⟩
    · intro b h
      cases h
    · intro e2 h
      cases h
      exact (hx.error e rfl).append
  · refine ⟨?_, ?_⟩
    · intro b h check hmem
      rcases List.mem_append.mp hmem with hfirst | hmore
      · exact hx.ok a rfl check hfirst
      · exact (hf a rfl).ok b h check hmore
    · intro e h
      exact ((hf a rfl).error e h).prepend (hx.ok a rfl)

theorem map {f : α → β} (hx : Performs env files system checks x) :
    Performs env files system checks (x.map f) := by
  have h := hx.bind (f := fun a => .ok (f a)) fun a _ => nothing (f a)
  rw [List.append_nil] at h
  rcases x with e | a <;> exact h

/-- What is checked of each of several is checked of one after the other. -/
theorem mapM {f : α → Except ConfigError β} {checksOf : α → List ServerCheck}
    (hf : ∀ a, Performs env files system (checksOf a) (f a)) (as : List α) :
    Performs env files system (as.flatMap checksOf) (as.mapM f) := by
  induction as with
  | nil => exact nothing []
  | cons a as ih =>
      rw [List.mapM_cons, List.flatMap_cons]
      apply bind (hf a)
      intro b _
      exact ih.map (f := (b :: ·))

end Performs

end ServerCheck

open ServerCheck (Performs FailsFirst)

variable {env : Environment} {files : String → Except Fault Contents} {system : Resolver}

namespace Environment

theorem version_performs : Performs env files system [.version] env.version := by
  rcases env.sets_or_lacks .transportVersion with ⟨offered, sets⟩ | lacks
  · rw [version_of_sets sets]
    by_cases offers : spokenVersion ∈ entries offered
    · rw [if_pos offers]
      refine .passed ?_ (.nothing _)
      intro e fails
      cases fails with
      | noVersions lacks => exact sets.not_lacks lacks
      | otherVersions sets2 other => exact other (sets.unique sets2 ▸ offers)
    · rw [if_neg offers]
      exact .failed (.otherVersions sets offers)
  · rw [version_of_lacks lacks]
    exact .failed (.noVersions lacks)

theorem required_performs (v : Variable) :
    Performs env files system [.isSet v] (env.required v) := by
  rcases env.sets_or_lacks v with ⟨value, sets⟩ | lacks
  · rw [required_eq_ok_iff.mpr sets]
    refine .passed ?_ (.nothing _)
    intro e fails
    cases fails with
    | unset lacks => exact sets.not_lacks lacks
  · rw [required_of_lacks lacks]
    exact .failed (.unset lacks)

end Environment

namespace Bind

/-- A bind entry gives a name, up to its first dash, and an address. -/
def Gives (system : Resolver) (entry : String) (b : Bind) : Prop :=
  ∃ addr, entry.toList = b.method.toList ++ '-' :: addr ∧ '-' ∉ b.method.toList ∧
    system.resolveBindChars addr = .ok b.addr

theorem gives_of_parse {entry : String} {b : Bind} (h : parse system entry = .ok b) :
    Gives system entry b := by
  rw [parse] at h
  rcases hcut : cutFirst? '-' entry.toList with _ | ⟨method, addr⟩
  · simp [hcut] at h
  · rcases hresolve : system.resolveBindChars addr with reason | a
    · simp [hcut, hresolve] at h
    · simp only [hcut, hresolve, Except.ok.injEq] at h
      subst h
      obtain ⟨hentry, hfirst⟩ := cutFirst?_eq_some_iff.mp hcut
      rw [Gives, String.toList_ofList]
      exact ⟨addr, hentry, hfirst, hresolve⟩

theorem parse_performs (entry : String) :
    Performs env files system [.hasDash entry, .bindResolves entry] (parse system entry) := by
  rw [parse]
  rcases hcut : cutFirst? '-' entry.toList with _ | ⟨method, addr⟩
  · exact .failed (.noDash (cutFirst?_eq_none_iff.mp hcut))
  · obtain ⟨hentry, hfirst⟩ := cutFirst?_eq_some_iff.mp hcut
    have hdash : (ServerCheck.hasDash entry).Passes env files system := by
      intro e fails
      cases fails with
      | noDash none => simp [hentry] at none
    rcases hresolve : system.resolveBindChars addr with reason | a
    · simp only [hresolve]
      exact .passed hdash (.failed (.badBind hentry hfirst hresolve))
    · simp only [hresolve]
      refine .passed hdash (.passed ?_ (.nothing _))
      intro e fails
      cases fails with
      | badBind hentry2 hfirst2 fails2 =>
          have hsame := cutFirst?_eq_some_iff.mpr ⟨hentry2, hfirst2⟩
          rw [hcut] at hsame
          cases hsame
          rw [hresolve] at fails2
          cases fails2

end Bind

namespace ServerConfig

theorem addressOf_performs {v : Variable} {value : String} (sets : env.Sets v value) :
    Performs env files system [.resolves v] (addressOf system v value) := by
  rw [addressOf]
  rcases hresolve : system.resolve value with reason | a
  · exact .failed (.unresolved sets hresolve)
  · refine .passed ?_ (.nothing _)
    intro e fails
    cases fails with
    | unresolved sets2 fails2 =>
        rw [sets.unique sets2, fails2] at hresolve
        cases hresolve

theorem extendedPortOf_performs :
    Performs env files system [.resolves .extendedServerPort] (extendedPortOf system env) := by
  rw [extendedPortOf]
  rcases env.sets_or_lacks .extendedServerPort with ⟨value, sets⟩ | lacks
  · rw [Environment.value?_eq_some_iff.mpr sets]
    exact (addressOf_performs sets).map
  · rw [Environment.value?_eq_none_iff.mpr lacks]
    refine .passed ?_ (.nothing _)
    intro e fails
    cases fails with
    | unresolved sets => exact sets.not_lacks lacks

theorem cookieOf_performs : Performs env files system [.cookieLoads] (cookieOf env files) := by
  rcases env.sets_or_lacks .authCookieFile with ⟨path, sets⟩ | lacks
  · rw [cookieOf_of_sets sets]
    rcases hload : Cookie.load path (files path) with e | c
    · exact .failed (.badCookie sets hload)
    · refine .passed ?_ (.nothing _)
      intro e fails
      cases fails with
      | badCookie sets2 fails2 =>
          rw [← sets.unique sets2, hload] at fails2
          cases fails2
  · rw [cookieOf_of_lacks lacks]
    refine .passed ?_ (.nothing _)
    intro e fails
    cases fails with
    | badCookie sets => exact sets.not_lacks lacks

theorem bindsOf_performs (supported : List String) :
    Performs env files system
      ([.isSet .serverBindAddr] ++ ((ServerCheck.bindEntries env).flatMap ServerCheck.ofEntry ++
        [.isSet .serverTransports]))
      (bindsOf system env supported) := by
  apply Performs.bind (env.required_performs _)
  intro list hlist
  rw [ServerCheck.bindEntries_of_sets (Environment.required_eq_ok_iff.mp hlist)]
  apply Performs.bind (Performs.mapM Bind.parse_performs _)
  intro binds _
  exact (env.required_performs _).map

/-- **A server's configuration** makes all the checks in order. -/
theorem ofEnvironment_performs (supported : List String) :
    Performs env files system (ServerCheck.inOrder env)
      (ofEnvironment env supported files system) := by
  -- the checks, divided as the computation goes
  have horder : ServerCheck.inOrder env =
      [.version] ++ ([.isSet .orPort] ++ ([.resolves .orPort] ++
        (([.isSet .serverBindAddr] ++ ((ServerCheck.bindEntries env).flatMap ServerCheck.ofEntry ++
          [.isSet .serverTransports])) ++ ([.resolves .extendedServerPort] ++
            [.cookieLoads])))) := by
    simp [ServerCheck.inOrder, ServerCheck.beforeCookie]
  rw [horder]
  apply Performs.bind env.version_performs
  intro version _
  apply Performs.bind (env.required_performs _)
  intro value hvalue
  apply Performs.bind (addressOf_performs (Environment.required_eq_ok_iff.mp hvalue))
  intro plain _
  apply Performs.bind (bindsOf_performs supported)
  intro binds _
  apply Performs.bind extendedPortOf_performs
  intro extended _
  exact cookieOf_performs.map

end ServerConfig
end ManagedTransport
