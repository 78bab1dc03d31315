import ManagedTransport.Proofs.ServerChecks
import Mathlib.Data.List.Forall2

/-!
# Filtering comes last

Which transports are supported, and which of them are enabled, decides what binds a server's
configuration has, and nothing else: whether there is a configuration, all else that is in it, and
what is wrong where there is none, is the same for all of them.

* `ServerConfig.unfiltered` — the configuration with all its binds;
* `ServerConfig.ofEnvironment_of_sets` — only these are filtered;
* `ServerConfig.ofEnvironment_eq_error_iff` — the error is that of the first check that fails;
* `ServerConfig.FiltersLast` — all this about an environment, and `filters_last` — that it is so.
-/

namespace ManagedTransport

open Text

open ServerCheck (Performs FailsFirst)

/-- The environment with this list of enabled transports in place of its own. -/
def Environment.enabling (env : Environment) (list : String) : Environment := fun v =>
  if v = .serverTransports then some list else env v

theorem Environment.enabling_sets (env : Environment) {list : String} (h : list ≠ "") :
    (env.enabling list).Sets .serverTransports list := ⟨rfl, h⟩

/-- What comes of each of several comes of it when they are taken one after the other. -/
theorem forall₂_of_mapM {ε α β : Type} {f : α → Except ε β} {as : List α} {bs : List β}
    (h : as.mapM f = .ok bs) : List.Forall₂ (fun a b => f a = .ok b) as bs := by
  induction as generalizing bs with
  | nil =>
      cases h
      exact .nil
  | cons a as ih =>
      rw [List.mapM_cons] at h
      obtain ⟨b, hb, h⟩ := bind_eq_ok_iff.mp h
      obtain ⟨rest, hrest, h⟩ := bind_eq_ok_iff.mp h
      cases h
      exact .cons hb (ih hrest)

/-- A bind is of a transport that is supported and enabled. -/
def Bind.Wanted (enabled : String) (supported : List String) (b : Bind) : Prop :=
  b.method ∈ supported ∧ (enabled = "*" ∨ b.method ∈ entries enabled)

instance (enabled : String) (supported : List String) :
    DecidablePred (Bind.Wanted enabled supported) :=
  fun _ => inferInstanceAs (Decidable (_ ∧ _))

theorem Bind.enables_and_contains (enabled : String) (supported : List String) (b : Bind) :
    (enables enabled b.method && supported.contains b.method) =
      decide (b.Wanted enabled supported) := by
  rw [Bool.eq_iff_iff, decide_eq_true_iff]
  simp [enables, Wanted, and_comm]

namespace ServerConfig

/-- All the binds that an environment lists. -/
def allBindsOf (system : Resolver) (env : Environment) : Except ConfigError (List Bind) := do
  (entries (← env.required .serverBindAddr)).mapM (Bind.parse system)

/-- The configuration with all its binds. -/
def unfiltered (env : Environment) (files : String → Except Fault Contents) (system : Resolver) :
    Except ConfigError ServerConfig := do
  let version ← env.version
  let orPort ← addressOf system .orPort (← env.required .orPort)
  let binds ← allBindsOf system env
  let extendedPort ← extendedPortOf system env
  let cookie ← cookieOf env files
  return ⟨version, binds, orPort, extendedPort, cookie⟩

/-- The configuration with the binds of transports that are enabled and supported. -/
def filtered (enabled : String) (supported : List String) (c : ServerConfig) : ServerConfig :=
  { c with binds := c.binds.filter (Bind.Wanted enabled supported) }

variable {env : Environment} {files : String → Except Fault Contents} {system : Resolver}

/-- The binds are filtered once all of them are there. -/
theorem bindsOf_of_sets {enabled : String} (sets : env.Sets .serverTransports enabled)
    (supported : List String) :
    bindsOf system env supported =
      (allBindsOf system env).map fun binds => binds.filter (Bind.Wanted enabled supported) := by
  rw [bindsOf, allBindsOf]
  rcases env.required .serverBindAddr with e | list
  · rfl
  · simp only [bind, Except.bind, pure, Except.pure, Environment.required_eq_ok_iff.mpr sets,
      Bind.enables_and_contains]
    rcases (entries list).mapM (Bind.parse system) with e | binds <;> rfl

/-- **Only the binds are filtered.** -/
theorem ofEnvironment_of_sets {enabled : String} (sets : env.Sets .serverTransports enabled)
    (supported : List String) :
    ofEnvironment env supported files system =
      (unfiltered env files system).map (filtered enabled supported) := by
  rw [ofEnvironment, unfiltered, bindsOf_of_sets sets]
  simp only [bind, Except.bind, pure, Except.pure]
  rcases env.version with e | version
  · rfl
  rcases env.required .orPort with e | value
  · rfl
  rcases hplain : addressOf system .orPort value with e | plain
  · simp [hplain, Except.map]
  rcases allBindsOf system env with e | binds
  · simp [hplain, Except.map]
  rcases extendedPortOf system env with e | extended
  · simp [hplain, Except.map]
  rcases cookieOf env files with e | cookie
  · simp [hplain, Except.map]
  · simp [hplain, Except.map, filtered]

/-- The list of enabled transports has no part in what is filtered by it. -/
theorem unfiltered_enabling (env : Environment) (files : String → Except Fault Contents)
    (system : Resolver) (list : String) :
    unfiltered (env.enabling list) files system = unfiltered env files system := rfl

/-- The binds that are filtered are those that the bind entries give. -/
theorem gives_of_unfiltered {c : ServerConfig} (h : unfiltered env files system = .ok c) :
    ∃ list, env.Sets .serverBindAddr list ∧
      List.Forall₂ (Bind.Gives system) (entries list) c.binds := by
  obtain ⟨version, -, h⟩ := bind_eq_ok_iff.mp h
  obtain ⟨value, -, h⟩ := bind_eq_ok_iff.mp h
  obtain ⟨plain, -, h⟩ := bind_eq_ok_iff.mp h
  obtain ⟨binds, hbinds, h⟩ := bind_eq_ok_iff.mp h
  obtain ⟨extended, -, h⟩ := bind_eq_ok_iff.mp h
  obtain ⟨cookie, -, h⟩ := bind_eq_ok_iff.mp h
  cases h
  obtain ⟨list, hlist, hparse⟩ := bind_eq_ok_iff.mp hbinds
  refine ⟨list, Environment.required_eq_ok_iff.mp hlist, ?_⟩
  apply (forall₂_of_mapM hparse).imp
  intro entry b
  exact Bind.gives_of_parse

/-- **The error is that of the first check that fails.** -/
theorem ofEnvironment_eq_error_iff {supported : List String} {e : ConfigError} :
    ofEnvironment env supported files system = .error e ↔
      FailsFirst env files system (ServerCheck.inOrder env) e := by
  have hperforms : Performs env files system (ServerCheck.inOrder env)
      (ofEnvironment env supported files system) := ofEnvironment_performs supported
  constructor
  · exact hperforms.error e
  · intro hfirst
    rcases hresult : ofEnvironment env supported files system with e2 | c
    · rw [(hperforms.error e2 hresult).unique hfirst]
    · obtain ⟨check, hmem, fails⟩ := hfirst.exists_fails
      exact absurd (hperforms.ok c hresult check hmem) fails.not_passes

/-- There is a configuration if all checks pass. -/
theorem exists_ofEnvironment_iff {supported : List String} :
    (∃ c, ofEnvironment env supported files system = .ok c) ↔
      ∀ check ∈ ServerCheck.inOrder env, check.Passes env files system := by
  have hperforms : Performs env files system (ServerCheck.inOrder env)
      (ofEnvironment env supported files system) := ofEnvironment_performs supported
  constructor
  · intro ⟨c, hc⟩
    exact hperforms.ok c hc
  · intro passes
    rcases hresult : ofEnvironment env supported files system with e | c
    · obtain ⟨check, hmem, fails⟩ := (hperforms.error e hresult).exists_fails
      exact absurd (passes check hmem) fails.not_passes
    · exact ⟨c, rfl⟩

/-- In an environment that gives a configuration, transports are enabled. -/
theorem sets_of_ofEnvironment {supported : List String} {c : ServerConfig}
    (h : ofEnvironment env supported files system = .ok c) :
    ∃ enabled, env.Sets .serverTransports enabled := by
  rcases env.sets_or_lacks .serverTransports with hsets | lacks
  · exact hsets
  · have passes := exists_ofEnvironment_iff.mp ⟨c, h⟩ (.isSet .serverTransports)
      (by simp [ServerCheck.inOrder, ServerCheck.beforeCookie])
    exact absurd passes (ServerCheck.Fails.unset lacks).not_passes

/-- Two outcomes are the same, but perhaps for the binds. -/
inductive SameVerdict : Except ConfigError ServerConfig → Except ConfigError ServerConfig → Prop
  | error (e : ConfigError) : SameVerdict (.error e) (.error e)
  | ok {c c2 : ServerConfig} (version : c.version = c2.version) (orPort : c.orPort = c2.orPort)
      (extendedPort : c.extendedPort = c2.extendedPort) (cookie : c.cookie = c2.cookie) :
      SameVerdict (.ok c) (.ok c2)

/-- What has a part in a server's configuration. -/
structure FiltersLast (env : Environment) (files : String → Except Fault Contents)
    (system : Resolver) : Prop where
  /-- Whatever is supported and whatever is enabled, the verdict is the same. -/
  verdict : ∀ (supported supported2 : List String) (enabled enabled2 : String),
    enabled ≠ "" → enabled2 ≠ "" →
      SameVerdict (ofEnvironment (env.enabling enabled) supported files system)
        (ofEnvironment (env.enabling enabled2) supported2 files system)
  /-- An error is that of the first check that fails. -/
  error_iff : ∀ supported e, ofEnvironment env supported files system = .error e ↔
    FailsFirst env files system (ServerCheck.inOrder env) e
  /-- If no check fails there is a configuration. -/
  ok_iff : ∀ supported, (∃ c, ofEnvironment env supported files system = .ok c) ↔
    ∀ check ∈ ServerCheck.inOrder env, check.Passes env files system
  /-- If a check fails before the cookie file is read, then by the same error whatever is in the
  files. -/
  unread : ∀ supported e, FailsFirst env files system (ServerCheck.beforeCookie env) e →
    ∀ files2, ofEnvironment env supported files2 system = .error e
  /-- The binds are those of the bind entries, in order and as often as they are listed, whose
  transports are supported and are enabled by name or by a lone star. -/
  binds : ∀ supported c, ofEnvironment env supported files system = .ok c →
    ∃ list enabled all, env.Sets .serverBindAddr list ∧ env.Sets .serverTransports enabled ∧
      List.Forall₂ (Bind.Gives system) (entries list) all ∧
      c.binds = all.filter fun b =>
        b.method ∈ supported ∧ (enabled = "*" ∨ b.method ∈ entries enabled)

/-- **Filtering comes last**, whatever the files hold and whatever the system says of hosts. -/
theorem filters_last (env : Environment) (files : String → Except Fault Contents)
    (system : Resolver) : FiltersLast env files system := by
  refine ⟨?_, ?_, ?_, ?_, ?_⟩
  · intro supported supported2 enabled enabled2 hne hne2
    rw [ofEnvironment_of_sets (env.enabling_sets hne),
      ofEnvironment_of_sets (env.enabling_sets hne2), unfiltered_enabling, unfiltered_enabling]
    rcases unfiltered env files system with e | c
    · exact .error e
    · exact .ok rfl rfl rfl rfl
  · intro supported e
    exact ofEnvironment_eq_error_iff
  · intro supported
    exact exists_ofEnvironment_iff
  · intro supported e hfirst files2
    apply ofEnvironment_eq_error_iff.mpr
    exact (hfirst.of_files (ServerCheck.cookieLoads_not_mem env)).append
  · intro supported c hc
    obtain ⟨enabled, sets⟩ := sets_of_ofEnvironment hc
    rw [ofEnvironment_of_sets sets] at hc
    rcases hall : unfiltered env files system with e | all
    · simp [hall, Except.map] at hc
    · simp only [hall, Except.map, Except.ok.injEq] at hc
      obtain ⟨list, hlist, hgives⟩ := gives_of_unfiltered hall
      exact ⟨list, enabled, all.binds, hlist, sets, hgives, hc ▸ rfl⟩

/-- A bind entry of a transport that is not enabled is checked all the same. -/
example (files : String → Except Fault Contents) (system : Resolver) :
    ofEnvironment
      (fun
        | .transportVersion => some "1"
        | .orPort => some "127.0.0.1:9001"
        | .serverBindAddr => some "obfs4-nowhere"
        | .serverTransports => some "meek"
        | _ => none)
      ["meek"] files system = .error (.badBindEntry "obfs4-nowhere" "invalid socket address") := rfl

end ServerConfig

end ManagedTransport
