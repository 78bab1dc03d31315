import ManagedTransport.Proofs.Configuration
import ManagedTransport.Proofs.StatusChannel
import ManagedTransport.Setup

/-!
# What tor is told of a setup

What comes of a setup is decided before anything is told, and tor is told just that: the version
if one was agreed on, and the error if there is one.  So it is whatever the files hold and whatever
the system says of the hosts in the environment.

* `FailsOnly P x` — if `x` fails, then by an error of which `P` holds;
* `ConfigError.Later` — an error that is found once a version is agreed on, and
  `Role.check_later` — that no other can be found then;
* `Role.outcome`, `Role.told` — what comes of a setup, and the lines that tell it, and
  `Role.report_eq` — that these are reported, to whatever sink;
* `report_matches` — what tor is told matches the outcome, and no sink changes the outcome.
-/

namespace ManagedTransport

open Text

/-- If it fails, then by an error of which `P` holds. -/
def FailsOnly {ε α : Type} (P : ε → Prop) (x : Except ε α) : Prop := ∀ e, x = .error e → P e

namespace FailsOnly

variable {ε α β : Type} {P : ε → Prop} {x : Except ε α}

theorem ok (a : α) : FailsOnly P (.ok a) := by
  intro e h
  cases h

theorem of_ok {a : α} (h : x = .ok a) : FailsOnly P x := h ▸ ok a

theorem error {e : ε} (h : P e) : FailsOnly P (.error e : Except ε α) := by
  intro e2 h2
  cases h2
  exact h

theorem bind {f : α → Except ε β} (hx : FailsOnly P x) (hf : ∀ a, FailsOnly P (f a)) :
    FailsOnly P (x >>= f) := by
  intro e h
  rcases x with e2 | a
  · cases h
    exact hx e rfl
  · exact hf a e h

theorem map {f : α → β} (hx : FailsOnly P x) : FailsOnly P (x.map f) := by
  intro e h
  rcases x with e2 | a
  · cases h
    exact hx e rfl
  · cases h

theorem mapM {f : α → Except ε β} (hf : ∀ a, FailsOnly P (f a)) (as : List α) :
    FailsOnly P (as.mapM f) := by
  induction as with
  | nil => exact ok []
  | cons a as ih =>
      rw [List.mapM_cons]
      apply bind (hf a)
      intro b
      apply bind ih
      intro bs
      exact ok (b :: bs)

end FailsOnly

/-- An error that is found once a version is agreed on. -/
def ConfigError.Later : ConfigError → Prop
  | unsupportedVersion _ => False
  | _ => True

/-- It is told as a flaw of the environment. -/
theorem ConfigError.Later.line {e : ConfigError} (h : e.Later) :
    StatusLine.ofConfigError e = .envError e.message := by
  cases e with
  | unsupportedVersion => exact h.elim
  | _ => rfl

namespace Environment

variable {env : Environment} {v : Variable}

theorem required_of_lacks (h : env.Lacks v) :
    env.required v = .error (.missingVariable v.name) := by
  rw [required, value?_eq_none_iff.mpr h]

/-- The version spoken is agreed on if it is offered. -/
theorem version_of_sets {offered : String} (h : env.Sets .transportVersion offered) :
    env.version =
      if spokenVersion ∈ entries offered then .ok spokenVersion
      else .error (.unsupportedVersion offered) := by
  rw [version, required_eq_ok_iff.mpr h]
  rfl

theorem version_of_lacks (h : env.Lacks .transportVersion) :
    env.version = .error (.missingVariable Variable.transportVersion.name) := by
  rw [version, required_of_lacks h]
  rfl

theorem required_later (env : Environment) (v : Variable) :
    FailsOnly ConfigError.Later (env.required v) := by
  unfold required
  split
  · exact .ok _
  · exact .error trivial

end Environment

theorem Bind.parse_later (system : Resolver) (entry : String) :
    FailsOnly ConfigError.Later (parse system entry) := by
  unfold parse
  split
  · exact .error trivial
  · split
    · exact .ok _
    · exact .error trivial

theorem Cookie.load_later (path : String) (opened : Except Fault Contents) :
    FailsOnly ConfigError.Later (load path opened) := by
  unfold load
  split
  · exact .error trivial
  · split
    · exact .error trivial
    · exact .ok _

namespace ServerConfig

variable (env : Environment) (supported : List String) (opened : String → Except Fault Contents)
  (system : Resolver)

theorem addressOf_later (v : Variable) (value : String) :
    FailsOnly ConfigError.Later (addressOf system v value) := by
  unfold addressOf
  split
  · exact .ok _
  · exact .error trivial

theorem bindsOf_later : FailsOnly ConfigError.Later (bindsOf system env supported) := by
  apply FailsOnly.bind (env.required_later _)
  intro list
  apply FailsOnly.bind (FailsOnly.mapM (Bind.parse_later system) _)
  intro binds
  apply FailsOnly.bind (env.required_later _)
  intro enabled
  exact .ok _

theorem extendedPortOf_later : FailsOnly ConfigError.Later (extendedPortOf system env) := by
  unfold extendedPortOf
  split
  · exact .ok _
  · exact (addressOf_later _ _ _).map

theorem cookieOf_later : FailsOnly ConfigError.Later (cookieOf env opened) := by
  unfold cookieOf
  split
  · exact .ok _
  · exact (Cookie.load_later _ _).map

theorem target_later (config : ServerConfig) : FailsOnly ConfigError.Later config.target := by
  unfold target
  split
  · exact .ok _
  · exact .ok _
  · exact .error trivial

theorem ofEnvironment_later {v : String} (agreed : env.version = .ok v) :
    FailsOnly ConfigError.Later (ofEnvironment env supported opened system) := by
  -- the version is looked at again, and is the one that was agreed on
  have hversion : FailsOnly ConfigError.Later env.version := .of_ok agreed
  apply FailsOnly.bind hversion
  intro version
  apply FailsOnly.bind (env.required_later _)
  intro value
  apply FailsOnly.bind (addressOf_later _ _ _)
  intro plain
  apply FailsOnly.bind (bindsOf_later env supported system)
  intro binds
  apply FailsOnly.bind (extendedPortOf_later env system)
  intro extended
  apply FailsOnly.bind (cookieOf_later env opened)
  intro cookie
  exact .ok _

end ServerConfig

theorem ClientConfig.ofEnvironment_later {env : Environment} (supported : List String)
    {v : String} (agreed : env.version = .ok v) :
    FailsOnly ConfigError.Later (ofEnvironment env supported) := by
  have hversion : FailsOnly ConfigError.Later env.version := .of_ok agreed
  apply FailsOnly.bind hversion
  intro version
  apply FailsOnly.bind (env.required_later _)
  intro requested
  exact .ok _

namespace Role

variable (role : Role) (env : Environment) (supported : List String)
  (opened : String → Except Fault Contents) (system : Resolver)

/-- **Once a version is agreed on**, nothing that a role checks complains of the version. -/
theorem check_later {v : String} (agreed : env.version = .ok v) :
    FailsOnly ConfigError.Later (role.check env supported opened system) := by
  cases role with
  | client =>
      apply FailsOnly.bind (ClientConfig.ofEnvironment_later supported agreed)
      intro config
      exact .ok ()
  | server =>
      apply FailsOnly.bind (ServerConfig.ofEnvironment_later env supported opened system agreed)
      intro config
      apply FailsOnly.bind config.target_later
      intro target
      exact .ok ()

/-- What comes of a setup: a version is agreed on, and all that the role needs is checked. -/
def outcome : Except ConfigError Unit := do
  let _ ← env.version
  role.check env supported opened system

/-- The lines that tell it. -/
def told : List StatusLine :=
  match env.version with
  | .error e => [.ofConfigError e]
  | .ok v =>
    .version v ::
      match role.check env supported opened system with
      | .error e => [.ofConfigError e]
      | .ok () => []

/-- **What comes of a setup is reported by its lines**, whatever the sink makes of them. -/
theorem report_eq (sink : Sink) :
    role.report env supported opened system sink =
      (role.outcome env supported opened system,
        sink.tellAll (role.told env supported opened system)) := by
  unfold report outcome told
  rcases hversion : env.version with e | v
  · rfl
  · rcases hcheck : role.check env supported opened system with e | _ <;> rfl

end Role

/-- What may come of a setup in an environment, and how it is told. -/
inductive Tells (env : Environment) : Except ConfigError Unit → List StatusLine → Prop
  | ok {offered} (sets : env.Sets .transportVersion offered)
      (offers : Environment.spokenVersion ∈ entries offered) :
      Tells env (.ok ()) [.version Environment.spokenVersion]
  | flawed {offered e} (sets : env.Sets .transportVersion offered)
      (offers : Environment.spokenVersion ∈ entries offered) :
      Tells env (.error e) [.version Environment.spokenVersion, .envError e.message]
  | refused {offered} (sets : env.Sets .transportVersion offered)
      (other : Environment.spokenVersion ∉ entries offered) :
      Tells env (.error (.unsupportedVersion offered)) [.versionError "no-version"]
  | unset (lacks : env.Lacks .transportVersion) :
      Tells env (.error (.missingVariable Variable.transportVersion.name))
        [.envError (ConfigError.missingVariable Variable.transportVersion.name).message]

/-- What comes of a setup is told in one of these ways. -/
theorem Role.tells (role : Role) (env : Environment) (supported : List String)
    (opened : String → Except Fault Contents) (system : Resolver) :
    Tells env (role.outcome env supported opened system)
      (role.told env supported opened system) := by
  unfold outcome told
  rcases env.sets_or_lacks .transportVersion with ⟨offered, sets⟩ | lacks
  · have hversion := Environment.version_of_sets sets
    by_cases offers : Environment.spokenVersion ∈ entries offered
    · rw [if_pos offers] at hversion
      have hlater := role.check_later env supported opened system hversion
      rw [hversion]
      rcases hcheck : role.check env supported opened system with e | _
      · have hflawed : Tells env (.error e) _ := .flawed sets offers
        rw [← (hlater e hcheck).line] at hflawed
        exact hflawed
      · exact .ok sets offers
    · rw [if_neg offers] at hversion
      rw [hversion]
      exact .refused sets offers
  · rw [Environment.version_of_lacks lacks]
    exact .unset lacks

/-- The line tells of an error. -/
def StatusLine.IsError (l : StatusLine) : Prop :=
  l.keyword = "ENV-ERROR" ∨ l.keyword = "VERSION-ERROR"

namespace Tells

variable {env : Environment} {r : Except ConfigError Unit} {ls : List StatusLine}

theorem legible (h : Tells env r ls) : ∀ l ∈ ls, l.Legible := by
  have hone : ∀ l : StatusLine, ∀ arg, StatusLine.argCount? l.keyword = some 1 → l.args = [arg] →
      l.Legible := by
    intro l arg hcount hargs
    exact ⟨by rw [hcount, hargs]; rfl, by simp [hargs]⟩
  intro l hl
  cases h with
  | ok | refused | unset =>
      obtain rfl := List.mem_singleton.mp hl
      exact hone _ _ rfl rfl
  | flawed =>
      rcases List.mem_cons.mp hl with rfl | hl
      · exact hone _ _ rfl rfl
      · obtain rfl := List.mem_singleton.mp hl
        exact hone _ _ rfl rfl

theorem length_le (h : Tells env r ls) : ls.length ≤ 2 := by
  cases h with
  | ok | refused | unset => exact Nat.le_succ 1
  | flawed => exact Nat.le_refl 2

/-- An error is told if and only if there is one. -/
theorem isError_iff (h : Tells env r ls) : (∃ l ∈ ls, l.IsError) ↔ ∃ e, r = .error e := by
  cases h with
  | ok =>
      simp [StatusLine.IsError, StatusLine.version]
  | flawed | unset =>
      simp [StatusLine.IsError, StatusLine.envError]
  | refused =>
      simp [StatusLine.IsError, StatusLine.versionError]

/-- No version is told to be lacking once one was told. -/
theorem pairwise (h : Tells env r ls) :
    ls.Pairwise fun l l2 => ¬ (l.keyword = "VERSION" ∧ l2.keyword = "VERSION-ERROR") := by
  cases h with
  | ok | refused | unset => exact List.pairwise_singleton _ _
  | flawed => simp [StatusLine.envError]

end Tells

/-- A line goes out as its text and a newline. -/
theorem StatusLine.octets_eq (l : StatusLine) : l.octets = utf8 (l.text ++ "\n") := by
  rw [utf8_append]
  rfl

theorem StatusLine.octets_version : (version "1").octets = utf8 "VERSION 1\n" := octets_eq _

theorem StatusLine.octets_envError (words : String) :
    (envError words).octets = utf8 ("ENV-ERROR " ++ escape words ++ "\n") :=
  octets_eq _

/-- What tor is told of a setup by a sink that takes everything, and what other sinks make of it. -/
structure Role.ReportMatches (role : Role) (env : Environment) (supported : List String)
    (opened : String → Except Fault Contents) (system : Resolver) (r : Except ConfigError Unit)
    (out : Bytes) : Prop where
  /-- If all is well the version is told, and nothing else. -/
  ok : r = .ok () → out = utf8 "VERSION 1\n"
  /-- If a version is agreed on and there is an error, both are told. -/
  flawed : ∀ offered, env.Sets .transportVersion offered → "1" ∈ entries offered →
    ∀ e, r = .error e →
      out = utf8 ("VERSION 1\n" ++ ("ENV-ERROR " ++ escape e.message ++ "\n"))
  /-- If versions are offered and the one spoken is not, no more is told than that. -/
  refused : ∀ offered, env.Sets .transportVersion offered → "1" ∉ entries offered →
    r = .error (.unsupportedVersion offered) ∧ out = utf8 "VERSION-ERROR no-version\n"
  /-- If no versions are offered, the variable that lacks is told, and nothing else. -/
  unset : env.Lacks .transportVersion →
    r = .error (.missingVariable "TOR_PT_MANAGED_TRANSPORT_VER") ∧
      out = utf8 "ENV-ERROR no TOR_PT_MANAGED_TRANSPORT_VER environment variable\n"
  /-- At most two lines are read, with an error among them if and only if there is one. -/
  lines : ∃ lines, StatusLine.readAll? out = some lines ∧ lines.length ≤ 2 ∧
    ((∃ l ∈ lines, l.IsError) ↔ ∃ e, r = .error e) ∧
    lines.Pairwise fun l l2 => ¬ (l.keyword = "VERSION" ∧ l2.keyword = "VERSION-ERROR")
  /-- A sink that takes less, or whose flushes fail, changes nothing but how much it holds. -/
  anySink : ∀ sink : Sink, sink.Steady → (role.report env supported opened system sink).1 = r ∧
    ∃ p, p <+: out ∧ (role.report env supported opened system sink).2.held = sink.held ++ p

/-- **What tor is told matches the outcome**, and no sink changes the outcome. -/
theorem report_matches (role : Role) (env : Environment) (supported : List String)
    (opened : String → Except Fault Contents) (system : Resolver) :
    role.ReportMatches env supported opened system
      (role.report env supported opened system .unbounded).1
      (role.report env supported opened system .unbounded).2.held := by
  have hsinks := role.report_eq env supported opened system
  rw [hsinks, Sink.held_tellAll_unbounded]
  have htells := role.tells env supported opened system
  revert htells
  generalize role.outcome env supported opened system = r at hsinks ⊢
  generalize role.told env supported opened system = ls at hsinks ⊢
  intro htells
  refine ⟨?_, ?_, ?_, ?_, ?_, ?_⟩
  · intro hok
    subst hok
    cases htells
    rfl
  · intro offered sets offers e herror
    subst herror
    cases htells with
    | flawed =>
        rw [utf8_append, ← StatusLine.octets_version, ← StatusLine.octets_envError,
          List.flatMap_cons, List.flatMap_singleton]
        rfl
    | refused sets2 other => exact absurd (sets.unique sets2 ▸ offers) other
    | unset lacks => exact absurd lacks sets.not_lacks
  · intro offered sets other
    cases htells with
    | ok sets2 offers | flawed sets2 offers => exact absurd (sets.unique sets2 ▸ offers) other
    | refused sets2 => exact ⟨by rw [sets.unique sets2], rfl⟩
    | unset lacks => exact absurd lacks sets.not_lacks
  · intro lacks
    cases htells with
    | ok sets | flawed sets | refused sets => exact absurd lacks sets.not_lacks
    | unset => exact ⟨rfl, rfl⟩
  · exact ⟨ls, StatusLine.readAll?_octets htells.legible, htells.length_le, htells.isError_iff,
      htells.pairwise⟩
  · intro sink _
    rw [hsinks sink]
    exact ⟨rfl, _, sink.front_prefix _, sink.held_tellAll ls⟩

end ManagedTransport
