import ManagedTransport.Config.Client
import ManagedTransport.Proofs.Filtering

/-!
# A lone star

Where tor lists transports, a lone star stands for all that are supported, and it is as good as a
list of their names.  What is supported, in turn, only narrows down what is listed: it decides
neither the order of what is left nor how often it is there.

* `Text.entries_intercalate` — names that are listed with commas are read back as they were;
* `Listable` — names that a variable can list;
* `ClientConfig.ofEnvironment_common`, `ServerConfig.ofEnvironment_common` — to support what two
  lists have in common is to support the one and to narrow the outcome down to the other;
* `StarListsAll` — all this about an environment, and `star_lists_all` — that it is so.
-/

namespace ManagedTransport

namespace Text

theorem split_eq_splitOn (sep : Char) (cs : List Char) : split sep cs = cs.splitOn sep := by
  induction cs with
  | nil => rfl
  | cons c cs ih =>
      rw [List.splitOn_cons_eq_if_modifyHead, ← ih, split]
      by_cases h : c = sep
      · simp [h]
      · rcases hrest : split sep cs with _ | ⟨p, ps⟩
        · exact absurd hrest (split_ne_nil sep cs)
        · simp [h]

/-- **Names that are listed are read back**, in order and as often as they are listed. -/
theorem entries_intercalate {names : List String} (ne_nil : names ≠ [])
    (free : ∀ name ∈ names, ',' ∉ name.toList) : entries (",".intercalate names) = names := by
  have hfree : ∀ cs ∈ names.map String.toList, ',' ∉ cs := by
    intro cs hcs
    obtain ⟨name, hname, rfl⟩ := List.mem_map.mp hcs
    exact free name hname
  have hcomma : ",".toList = [','] := rfl
  rw [entries, String.toList_intercalate, hcomma, split_eq_splitOn,
    List.splitOn_intercalate ',' hfree (by simpa using ne_nil), List.map_map]
  simp [Function.comp_def]

end Text

open Text

namespace Environment

/-- The environment with a variable set to this value, whatever it was before. -/
def setting (env : Environment) (v : Variable) (value : String) : Environment := fun v2 =>
  if v2 = v then some value else env v2

theorem setting_sets (env : Environment) (v : Variable) {value : String} (h : value ≠ "") :
    (env.setting v value).Sets v value := ⟨if_pos rfl, h⟩

end Environment

/-- The names can be listed: what lists them is neither taken for nothing nor for a lone star,
and no comma is part of a name. -/
structure Listable (names : List String) : Prop where
  ne_nil : names ≠ []
  free : ∀ name ∈ names, ',' ∉ name.toList
  ne_nothing : ",".intercalate names ≠ ""
  ne_star : ",".intercalate names ≠ "*"

/-- These are the names that two lists have in common, in any order and any number. -/
def Common (supported supported2 common : List String) : Prop :=
  ∀ name, name ∈ common ↔ name ∈ supported ∧ name ∈ supported2

theorem Common.of_same {supported supported2 : List String}
    (same : ∀ name, name ∈ supported ↔ name ∈ supported2) :
    Common supported supported supported2 := by
  intro name
  rw [and_self, same]

/-- Of some things, those whose name is common to two lists are those that are left by the one
list and then by the other. -/
theorem Common.filter {α : Type} {supported supported2 common : List String}
    (h : Common supported supported2 common) (nameOf : α → String) (as : List α) :
    as.filter (nameOf · ∈ common) =
      (as.filter (nameOf · ∈ supported)).filter (nameOf · ∈ supported2) := by
  rw [List.filter_filter]
  apply List.filter_congr
  intro a _
  simp [h (nameOf a), Bool.and_comm]

namespace ClientConfig

variable {env : Environment} {supported supported2 common : List String}

/-- The configuration with those of its transports that have these names. -/
def restrictedTo (names : List String) (c : ClientConfig) : ClientConfig :=
  { c with methods := c.methods.filter (· ∈ names) }

theorem restrictedTo_common (h : Common supported supported2 common) (c : ClientConfig) :
    restrictedTo common c = restrictedTo supported2 (restrictedTo supported c) := by
  rw [restrictedTo, h.filter fun name => name]
  rfl

theorem ofEnvironment_of_sets {requested : String} (sets : env.Sets .clientTransports requested)
    (supported : List String) :
    ofEnvironment env supported =
      env.version.map fun version => ⟨version, select requested supported⟩ := by
  rw [ofEnvironment, Environment.required_eq_ok_iff.mpr sets]
  rcases env.version with e | version <;> rfl

/-- A request by name is restricted to what is supported. -/
theorem ofEnvironment_of_ne {requested : String} (sets : env.Sets .clientTransports requested)
    (hne : requested ≠ "*") (supported : List String) :
    ofEnvironment env supported =
      (env.version.map fun version => ⟨version, entries requested⟩).map
        (restrictedTo supported) := by
  rw [ofEnvironment_of_sets sets]
  rcases env.version with e | version
  · rfl
  · simp [Except.map, select, restrictedTo, hne]

theorem ofEnvironment_of_lacks (lacks : env.Lacks .clientTransports) (supported : List String) :
    ofEnvironment env supported =
      env.version.bind fun _ => .error (.missingVariable Variable.clientTransports.name) := by
  rw [ofEnvironment, Environment.required_of_lacks lacks]
  rfl

/-- All names are selected by a star. -/
theorem select_star (supported : List String) : select "*" supported = supported := if_pos rfl

/-- All names are selected by a list of them. -/
theorem select_intercalate (h : Listable supported) :
    select (",".intercalate supported) supported = supported := by
  rw [select, if_neg h.ne_star, entries_intercalate h.ne_nil h.free]
  simp

/-- **A star is as good as all names.** -/
theorem ofEnvironment_star (h : Listable supported) :
    ofEnvironment (env.setting .clientTransports "*") supported =
      ofEnvironment (env.setting .clientTransports (",".intercalate supported)) supported := by
  rw [ofEnvironment_of_sets (env.setting_sets _ (by decide)),
    ofEnvironment_of_sets (env.setting_sets _ h.ne_nothing), select_star, select_intercalate h]
  rfl

/-- A star asks for what is supported, in order and as often as it is. -/
theorem methods_of_star {c : ClientConfig}
    (h : ofEnvironment (env.setting .clientTransports "*") supported = .ok c) :
    c.methods = supported := by
  rw [ofEnvironment_of_sets (env.setting_sets _ (by decide)), select_star] at h
  rcases hversion : (env.setting .clientTransports "*").version with e | version
  · simp [hversion, Except.map] at h
  · simp only [hversion, Except.map, Except.ok.injEq] at h
    rw [← h]

/-- **To support what is common** to two lists is to support the one and to keep what is in the
other, but where a star asks for all that is supported. -/
theorem ofEnvironment_common (h : Common supported supported2 common)
    (named : ¬ env.Sets .clientTransports "*") :
    ofEnvironment env common = (ofEnvironment env supported).map (restrictedTo supported2) := by
  rcases env.sets_or_lacks .clientTransports with ⟨requested, sets⟩ | lacks
  · have hne : requested ≠ "*" := fun hstar => named (hstar ▸ sets)
    rw [ofEnvironment_of_ne sets hne, ofEnvironment_of_ne sets hne]
    rcases env.version with e | version
    · rfl
    · exact congrArg Except.ok (restrictedTo_common h _)
  · rw [ofEnvironment_of_lacks lacks, ofEnvironment_of_lacks lacks]
    rcases env.version with e | version <;> rfl

/-- The order and the number of the supported names are not seen. -/
theorem ofEnvironment_same (same : ∀ name, name ∈ supported ↔ name ∈ supported2)
    (named : ¬ env.Sets .clientTransports "*") :
    ofEnvironment env supported = ofEnvironment env supported2 :=
  (ofEnvironment_common (.of_same fun _ => .rfl) named).trans
    (ofEnvironment_common (.of_same same) named).symm

/-- What is supported of a request is kept, in its order and as often as it is there. -/
theorem methods_of_ofEnvironment {c : ClientConfig} (h : ofEnvironment env supported = .ok c)
    (named : ¬ env.Sets .clientTransports "*") :
    ∃ requested, env.Sets .clientTransports requested ∧
      c.methods = (entries requested).filter (· ∈ supported) := by
  obtain ⟨version, -, h⟩ := bind_eq_ok_iff.mp h
  obtain ⟨requested, hrequested, h⟩ := bind_eq_ok_iff.mp h
  cases h
  have sets := Environment.required_eq_ok_iff.mp hrequested
  have hne : requested ≠ "*" := fun hstar => named (hstar ▸ sets)
  refine ⟨requested, sets, ?_⟩
  simp [select, hne]

end ClientConfig

namespace ServerConfig

variable {env : Environment} {files : String → Except Fault Contents} {system : Resolver}
  {supported supported2 common : List String}

/-- The configuration with those of its binds whose transports have these names. -/
def restrictedTo (names : List String) (c : ServerConfig) : ServerConfig :=
  { c with binds := c.binds.filter (·.method ∈ names) }

theorem restrictedTo_common (h : Common supported supported2 common) (c : ServerConfig) :
    restrictedTo common c = restrictedTo supported2 (restrictedTo supported c) := by
  rw [restrictedTo, h.filter Bind.method]
  rfl

/-- What is enabled is restricted to what is supported. -/
theorem filtered_eq (enabled : String) (supported : List String) (c : ServerConfig) :
    filtered enabled supported c = restrictedTo supported
      { c with binds := c.binds.filter fun b => enabled = "*" ∨ b.method ∈ entries enabled } := by
  have hboth : ∀ b ∈ c.binds, decide (b.Wanted enabled supported) =
      (decide (b.method ∈ supported) && decide (enabled = "*" ∨ b.method ∈ entries enabled)) :=
    fun b _ => Bool.decide_and _ _
  rw [filtered, restrictedTo, List.filter_filter, List.filter_congr hboth]

theorem filtered_star (h : Listable supported) (c : ServerConfig) :
    filtered "*" supported c = filtered (",".intercalate supported) supported c := by
  have hsame : ∀ b ∈ c.binds, decide (b.Wanted "*" supported) =
      decide (b.Wanted (",".intercalate supported) supported) := by
    intro b _
    simp +contextual [Bind.Wanted, entries_intercalate h.ne_nil h.free]
  rw [filtered, filtered, List.filter_congr hsame]

/-- **A star is as good as all names.** -/
theorem ofEnvironment_star (h : Listable supported) :
    ofEnvironment (env.setting .serverTransports "*") supported files system =
      ofEnvironment (env.setting .serverTransports (",".intercalate supported)) supported
        files system := by
  rw [ofEnvironment_of_sets (env.setting_sets _ (by decide)),
    ofEnvironment_of_sets (env.setting_sets _ h.ne_nothing), funext (filtered_star h)]
  rfl

/-- Where nothing is said of what is enabled there is the same error for all supported lists. -/
theorem exists_error_of_lacks (lacks : env.Lacks .serverTransports) :
    ∃ e, ∀ supported, ofEnvironment env supported files system = .error e := by
  rcases h : ofEnvironment env [] files system with e | c
  · refine ⟨e, fun supported => ?_⟩
    exact ofEnvironment_eq_error_iff.mpr (ofEnvironment_eq_error_iff.mp h)
  · obtain ⟨enabled, sets⟩ := sets_of_ofEnvironment h
    exact absurd lacks sets.not_lacks

/-- **To support what is common** to two lists is to support the one and to keep what is in the
other, whatever is enabled. -/
theorem ofEnvironment_common (h : Common supported supported2 common) :
    ofEnvironment env common files system =
      (ofEnvironment env supported files system).map (restrictedTo supported2) := by
  rcases env.sets_or_lacks .serverTransports with ⟨enabled, sets⟩ | lacks
  · rw [ofEnvironment_of_sets sets, ofEnvironment_of_sets sets]
    rcases unfiltered env files system with e | c
    · rfl
    · simp only [Except.map, filtered_eq, restrictedTo_common h]
  · obtain ⟨e, he⟩ := exists_error_of_lacks lacks
    rw [he, he]
    rfl

/-- The order and the number of the supported names are not seen. -/
theorem ofEnvironment_same (same : ∀ name, name ∈ supported ↔ name ∈ supported2) :
    ofEnvironment env supported files system = ofEnvironment env supported2 files system :=
  (ofEnvironment_common (.of_same fun _ => .rfl)).trans
    (ofEnvironment_common (.of_same same)).symm

/-- What is enabled and supported of the bind entries is kept, in their order and as often as it is
there. -/
theorem binds_of_ofEnvironment {c : ServerConfig}
    (h : ofEnvironment env supported files system = .ok c) :
    ∃ list enabled all, env.Sets .serverBindAddr list ∧ env.Sets .serverTransports enabled ∧
      List.Forall₂ (Bind.Gives system) (entries list) all ∧
      c.binds = all.filter (Bind.Wanted enabled supported) := by
  obtain ⟨enabled, sets⟩ := sets_of_ofEnvironment h
  rw [ofEnvironment_of_sets sets] at h
  rcases hall : unfiltered env files system with e | all
  · simp [hall, Except.map] at h
  · simp only [hall, Except.map, Except.ok.injEq] at h
    obtain ⟨list, hlist, hgives⟩ := gives_of_unfiltered hall
    exact ⟨list, enabled, all.binds, hlist, sets, hgives, h ▸ rfl⟩

end ServerConfig

/-- What a lone star and the supported names have to do with what an environment gives. -/
structure StarListsAll (env : Environment) (files : String → Except Fault Contents)
    (system : Resolver) : Prop where
  /-- A star asks a client for what a list of all names asks it for. -/
  client_star : ∀ supported, Listable supported →
    ClientConfig.ofEnvironment (env.setting .clientTransports "*") supported =
      ClientConfig.ofEnvironment (env.setting .clientTransports (",".intercalate supported))
        supported
  /-- These are the names in order, and as often as they are supported. -/
  client_names : ∀ supported c,
    ClientConfig.ofEnvironment (env.setting .clientTransports "*") supported = .ok c →
      c.methods = supported
  /-- A star enables for a server what a list of all names enables. -/
  server_star : ∀ supported, Listable supported →
    ServerConfig.ofEnvironment (env.setting .serverTransports "*") supported files system =
      ServerConfig.ofEnvironment (env.setting .serverTransports (",".intercalate supported))
        supported files system
  /-- Unless a client is asked for all, what it supports narrows down what it is asked for. -/
  client_common : ¬ env.Sets .clientTransports "*" →
    ∀ supported supported2 common, Common supported supported2 common →
      ClientConfig.ofEnvironment env common =
        (ClientConfig.ofEnvironment env supported).map (ClientConfig.restrictedTo supported2)
  /-- What a server supports narrows down what is enabled, by names or by a star. -/
  server_common : ∀ supported supported2 common, Common supported supported2 common →
    ServerConfig.ofEnvironment env common files system =
      (ServerConfig.ofEnvironment env supported files system).map
        (ServerConfig.restrictedTo supported2)
  /-- Unless a client is asked for all, what is kept is in the order of the request, and is there
  as often as it is asked for. -/
  client_order : ¬ env.Sets .clientTransports "*" →
    ∀ supported c, ClientConfig.ofEnvironment env supported = .ok c →
      ∃ requested, env.Sets .clientTransports requested ∧
        c.methods = (entries requested).filter (· ∈ supported)
  /-- What is kept of the bind entries is in their order, and is there as often as it is listed. -/
  server_order : ∀ supported c, ServerConfig.ofEnvironment env supported files system = .ok c →
    ∃ list enabled all, env.Sets .serverBindAddr list ∧ env.Sets .serverTransports enabled ∧
      List.Forall₂ (Bind.Gives system) (entries list) all ∧
      c.binds = all.filter (Bind.Wanted enabled supported)
  /-- Unless a client is asked for all, the order of what is supported, and how often it is, are
  not seen. -/
  client_same : ¬ env.Sets .clientTransports "*" →
    ∀ supported supported2, (∀ name, name ∈ supported ↔ name ∈ supported2) →
      ClientConfig.ofEnvironment env supported = ClientConfig.ofEnvironment env supported2
  /-- Nor are they by a server. -/
  server_same : ∀ supported supported2, (∀ name, name ∈ supported ↔ name ∈ supported2) →
    ServerConfig.ofEnvironment env supported files system =
      ServerConfig.ofEnvironment env supported2 files system

/-- **A lone star lists all that is supported**, and what is supported does no more than narrow
down what is listed. -/
theorem star_lists_all (env : Environment) (files : String → Except Fault Contents)
    (system : Resolver) : StarListsAll env files system where
  client_star _ := ClientConfig.ofEnvironment_star
  client_names _ _ := ClientConfig.methods_of_star
  server_star _ := ServerConfig.ofEnvironment_star
  client_common named _ _ _ h := ClientConfig.ofEnvironment_common h named
  server_common _ _ _ := ServerConfig.ofEnvironment_common
  client_order named _ _ h := ClientConfig.methods_of_ofEnvironment h named
  server_order _ _ := ServerConfig.binds_of_ofEnvironment
  client_same named _ _ same := ClientConfig.ofEnvironment_same same named
  server_same _ _ := ServerConfig.ofEnvironment_same

/-- A name of no characters, a name that is a star, and a name that is there twice. -/
def oddNames : List String := ["", "meek", "*", "meek"]

/-- An environment that binds each of these names, and one that is not supported. -/
def oddlyBound : Environment
  | .transportVersion => some "1"
  | .orPort => some "localhost:9001"
  | .serverBindAddr => some "meek-127.0.0.1:1,obfs4-127.0.0.1:2,-127.0.0.1:3,*-127.0.0.1:4"
  | _ => none

/-- Odd names are listed by a star as well. -/
theorem oddNames_starred :
    Listable oddNames ∧ ",".intercalate oddNames = ",meek,*,meek" ∧
      ClientConfig.ofEnvironment (oddlyBound.setting .clientTransports ",meek,*,meek") oddNames =
        .ok ⟨"1", oddNames⟩ ∧
      (ServerConfig.ofEnvironment (oddlyBound.setting .serverTransports ",meek,*,meek") oddNames
        (fun _ => .error .missing) .homely).map (·.binds.map Bind.method) =
          .ok ["meek", "", "*"] := by
  have hlist : ",".intercalate oddNames = ",meek,*,meek" := rfl
  have hlistable : Listable oddNames := ⟨by decide, by decide, by decide, by decide⟩
  have hstar := star_lists_all oddlyBound (fun _ => .error .missing) .homely
  refine ⟨hlistable, hlist, ?_, ?_⟩
  · rw [← hlist, ← hstar.client_star oddNames hlistable]
    rfl
  · rw [← hlist, ← hstar.server_star oddNames hlistable]
    rfl

/-- A lone name of no characters cannot be listed: the list would be taken for nothing. -/
example : ¬ Listable [""] := fun h => h.ne_nothing rfl

end ManagedTransport
