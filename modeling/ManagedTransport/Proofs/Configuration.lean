import ManagedTransport.Config.Server

/-!
# What an environment configures

A variable is set to something, or it is lacking: not set, or set to nothing.  A server's
configuration comes of an environment that is in order, and of the cookie in the file that
the environment names.  Hosts are what the system says they are, whatever system it is.

* `Environment.InOrder` — an environment with nothing wrong but perhaps its cookie;
* `Cookie.load_eq_ok_iff` — a cookie is loaded from a file that holds it and nothing else;
* `ServerConfig.inOrder_of_ofEnvironment`, `ServerConfig.ofEnvironment_of_inOrder` — there is
  a configuration if the environment is in order and so is its cookie;
* `ServerConfig.target_eq_ok_iff` — where a configuration leads.
-/

namespace ManagedTransport

theorem bind_eq_ok_iff {ε α β : Type} {x : Except ε α} {f : α → Except ε β} {b : β} :
    x >>= f = .ok b ↔ ∃ a, x = .ok a ∧ f a = .ok b := by
  cases x <;> simp [bind, Except.bind]

/-- A system that knows no host but itself, at two addresses. -/
def Resolver.homely : Resolver where
  lookup host port :=
    if host = "localhost".toList then .ok [.v4 ⟨127, 0, 0, 1⟩ port, .v4 ⟨127, 0, 0, 2⟩ port]
    else .error "no such host"

namespace Environment

variable {env : Environment} {v : Variable} {value : String}

/-- A variable is set to something. -/
def Sets (env : Environment) (v : Variable) (value : String) : Prop :=
  env v = some value ∧ value ≠ ""

/-- A variable is not set, or set to nothing. -/
def Lacks (env : Environment) (v : Variable) : Prop := env v = none ∨ env v = some ""

theorem value?_eq_some_iff : env.value? v = some value ↔ env.Sets v value := by
  simp [value?, Sets, Option.filter_eq_some_iff]

theorem required_eq_ok_iff : env.required v = .ok value ↔ env.Sets v value := by
  rw [← value?_eq_some_iff, required]
  rcases env.value? v with _ | value2 <;> simp

theorem value?_eq_none_iff : env.value? v = none ↔ env.Lacks v := by
  rcases h : env v with _ | value <;> simp [value?, Lacks, h, Option.filter]

theorem sets_or_lacks (env : Environment) (v : Variable) :
    (∃ value, env.Sets v value) ∨ env.Lacks v := by
  rcases h : env.value? v with _ | value
  · exact .inr (value?_eq_none_iff.mp h)
  · exact .inl ⟨value, value?_eq_some_iff.mp h⟩

theorem Sets.not_lacks (h : env.Sets v value) : ¬ env.Lacks v := by
  rintro (hnone | hempty)
  · simp [h.1] at hnone
  · exact h.2 (Option.some.inj (h.1.symm.trans hempty))

theorem Sets.unique {value2 : String} (h : env.Sets v value) (h2 : env.Sets v value2) :
    value = value2 := Option.some.inj (h.1.symm.trans h2.1)

/-- Everything in a server's environment but its cookie is in order: it leads to the plain
port at `plain` and to the extended port, if there is one, at `extended`. -/
structure InOrder (env : Environment) (supported : List String) (system : Resolver)
    (plain : Address) (extended : Option Address) : Prop where
  version : ∃ version, env.version = .ok version
  plain : ∃ value, env.Sets .orPort value ∧ system.resolve value = .ok plain
  binds : ∃ binds, ServerConfig.bindsOf system env supported = .ok binds
  extended : extended = none ∧ env.Lacks .extendedServerPort ∨
    ∃ value a, env.Sets .extendedServerPort value ∧ system.resolve value = .ok a ∧
      extended = some a

/-- The environment names a file that holds this cookie, and nothing else. -/
def NamesCookie (env : Environment) (files : String → Except Fault Contents) (cookie : Cookie) :
    Prop :=
  ∃ path, env.Sets .authCookieFile path ∧ files path = .ok (.finite cookie.file)

end Environment

namespace Cookie

/-- What is read from the front of a file is a cookie file only if all of the file is. -/
theorem front_eq_file_iff {contents : Contents} {c : Cookie} :
    contents.front 65 = c.file ↔ contents = .finite c.file := by
  cases contents with
  | finite octets =>
      constructor
      · intro h
        have hlen := congrArg List.length h
        simp only [Contents.front, List.length_take, c.length_file] at hlen
        rw [← h, Contents.front, List.take_of_length_le (by omega)]
      · intro h
        cases h
        exact List.take_of_length_le (by simp [c.length_file])
  | endless octets =>
      constructor
      · intro h
        have hlen := congrArg List.length h
        simp [Contents.front, c.length_file] at hlen
      · intro h
        cases h

/-- **A cookie is loaded** only from a file that holds it and nothing else. -/
theorem load_eq_ok_iff {path : String} {opened : Except Fault Contents} {c : Cookie} :
    load path opened = .ok c ↔ opened = .ok (.finite c.file) := by
  rcases opened with fault | contents
  · simp [load]
  · simp only [load, Except.ok.injEq, ← front_eq_file_iff, ← parse_eq_ok_iff]
    rcases hp : parse (contents.front 65) with flaw | cookie <;> simp

end Cookie

namespace ServerConfig

variable {env : Environment} {supported : List String} {files : String → Except Fault Contents}
  {system : Resolver}

theorem cookieOf_of_lacks (h : env.Lacks .authCookieFile) : cookieOf env files = .ok none := by
  rw [cookieOf, Environment.value?_eq_none_iff.mpr h]

theorem cookieOf_of_sets {path : String} (h : env.Sets .authCookieFile path) :
    cookieOf env files = (Cookie.load path (files path)).map some := by
  rw [cookieOf, Environment.value?_eq_some_iff.mpr h]

/-- The cookie is the one of the file that the environment names. -/
theorem cookieOf_eq_some_iff {cookie : Cookie} :
    cookieOf env files = .ok (some cookie) ↔ env.NamesCookie files cookie := by
  rcases env.sets_or_lacks .authCookieFile with ⟨path, hsets⟩ | hlacks
  · rw [cookieOf_of_sets hsets]
    constructor
    · intro h
      refine ⟨path, hsets, ?_⟩
      rcases hl : Cookie.load path (files path) with e | c
      · simp [hl, Except.map] at h
      · simp only [hl, Except.map, Except.ok.injEq, Option.some.injEq] at h
        exact Cookie.load_eq_ok_iff.mp (h ▸ hl)
    · rintro ⟨path2, hsets2, hfile⟩
      obtain rfl := hsets.unique hsets2
      rw [Cookie.load_eq_ok_iff.mpr hfile]
      rfl
  · rw [cookieOf_of_lacks hlacks]
    constructor
    · intro h
      cases h
    · rintro ⟨path, hsets, -⟩
      exact absurd hlacks hsets.not_lacks

theorem extendedPortOf_eq_ok_iff {extended : Option Address} :
    extendedPortOf system env = .ok extended ↔
      extended = none ∧ env.Lacks .extendedServerPort ∨
        ∃ value a, env.Sets .extendedServerPort value ∧ system.resolve value = .ok a ∧
          extended = some a := by
  rw [extendedPortOf]
  rcases env.sets_or_lacks .extendedServerPort with ⟨value, hsets⟩ | hlacks
  · rw [Environment.value?_eq_some_iff.mpr hsets]
    constructor
    · intro h
      refine .inr ⟨value, ?_⟩
      rcases hr : system.resolve value with e | a
      · simp [addressOf, hr, Except.map] at h
      · simp only [addressOf, hr, Except.map, Except.ok.injEq] at h
        exact ⟨a, hsets, rfl, h.symm⟩
    · rintro (⟨-, hlacks⟩ | ⟨value2, a, hsets2, hr, rfl⟩)
      · exact absurd hlacks hsets.not_lacks
      · obtain rfl := hsets.unique hsets2
        simp [addressOf, hr, Except.map]
  · rw [Environment.value?_eq_none_iff.mpr hlacks]
    constructor
    · intro h
      cases h
      exact .inl ⟨rfl, hlacks⟩
    · rintro (⟨rfl, -⟩ | ⟨value, a, hsets, -⟩)
      · rfl
      · exact absurd hlacks hsets.not_lacks

theorem addressOf_eq_ok_iff {v : Variable} {value : String} {a : Address} :
    addressOf system v value = .ok a ↔ system.resolve value = .ok a := by
  rw [addressOf]
  rcases system.resolve value with e | a2 <;> simp

/-- A configuration comes of an environment that is in order and of its cookie. -/
theorem inOrder_of_ofEnvironment {config : ServerConfig}
    (h : ofEnvironment env supported files system = .ok config) :
    env.InOrder supported system config.orPort config.extendedPort ∧
      cookieOf env files = .ok config.cookie := by
  obtain ⟨version, hversion, h⟩ := bind_eq_ok_iff.mp h
  obtain ⟨value, hvalue, h⟩ := bind_eq_ok_iff.mp h
  obtain ⟨plain, hplain, h⟩ := bind_eq_ok_iff.mp h
  obtain ⟨binds, hbinds, h⟩ := bind_eq_ok_iff.mp h
  obtain ⟨extended, hextended, h⟩ := bind_eq_ok_iff.mp h
  obtain ⟨cookie, hcookie, h⟩ := bind_eq_ok_iff.mp h
  cases h
  exact ⟨⟨⟨version, hversion⟩, ⟨value, Environment.required_eq_ok_iff.mp hvalue,
    addressOf_eq_ok_iff.mp hplain⟩, ⟨binds, hbinds⟩, extendedPortOf_eq_ok_iff.mp hextended⟩,
    hcookie⟩

/-- **In an environment that is in order** the cookie alone decides whether there is a
configuration. -/
theorem ofEnvironment_of_inOrder {plain : Address} {extended : Option Address}
    (h : env.InOrder supported system plain extended) :
    ∃ version binds, ∀ files, ofEnvironment env supported files system =
      (cookieOf env files).map fun cookie => ⟨version, binds, plain, extended, cookie⟩ := by
  obtain ⟨⟨version, hversion⟩, ⟨value, hsets, hplain⟩, ⟨binds, hbinds⟩, hextended⟩ := h
  refine ⟨version, binds, fun files => ?_⟩
  rw [ofEnvironment, hversion, Environment.required_eq_ok_iff.mpr hsets,
    hbinds, extendedPortOf_eq_ok_iff.mpr hextended]
  simp only [bind, Except.bind, addressOf_eq_ok_iff.mpr hplain]
  rcases cookieOf env files with e | cookie <;> rfl

/-- Where a configuration leads. -/
theorem target_eq_ok_iff {config : ServerConfig} {t : Target} :
    config.target = .ok t ↔
      config.extendedPort = none ∧ t = .direct config.orPort ∨
        ∃ a cookie, config.extendedPort = some a ∧ config.cookie = some cookie ∧
          t = .extended a cookie := by
  obtain ⟨version, binds, plain, _ | a, _ | cookie⟩ := config <;> simp [target, eq_comm]

end ServerConfig

end ManagedTransport
