import ManagedTransport.Program
import ManagedTransport.Proofs.Configuration
import ManagedTransport.Proofs.Lines

/-!
# No way around the extended port

A server that is told of an extended port goes there, with the cookie that it is told of, or
nowhere.  Only an environment without an extended port leads to the plain port.  All this holds
whatever the system makes of the hosts that are named.

* `upstream` — opens a connection to where an environment says that the relay is;
* `LeadsTo.of_extended`, `LeadsTo.of_plain` — where an environment leads;
* `Host.noting` — a host that notes what is dialled, and `run_noting`, that it does as the
  host does;
* `no_downgrade` — what is dialled and what is opened, whatever the files hold and whoever
  answers.
-/

namespace ManagedTransport

/-- Opens a connection to where an environment says that the relay is; `files` tells what
opening a file gives, and `system` is asked for hosts. -/
def upstream (net : Answers) (env : Environment) (supported : List String)
    (files : String → Except Fault Contents) (system : Resolver) (info : SessionInfo)
    (limit : Nat) : StateM (List Address) (Except Error Line) :=
  match ServerConfig.ofEnvironment env supported files system with
  | .error e => return .error (.config e)
  | .ok config =>
    match config.target with
    | .error e => return .error (.config e)
    | .ok t => t.connect net info limit

/-- On a network, the connection is opened as the network opens it. -/
theorem upstream_network (n : Network) (env : Environment) (supported : List String)
    (files : String → Except Fault Contents) (system : Resolver) (info : SessionInfo)
    (limit : Nat) (payload : Bytes) (supply : Supply) (dialled : List Address) :
    (((upstream (n.answers supply) env supported files system info limit).run dialled).1.map
        fun _ => ()) =
      match ServerConfig.ofEnvironment env supported files system with
      | .error e => .error (.config e)
      | .ok config =>
        match config.target with
        | .error e => .error (.config e)
        | .ok t => (n.connect ⟨t, limit⟩ info payload supply).1 := by
  unfold upstream
  rcases ServerConfig.ofEnvironment env supported files system with e | config
  · rfl
  · rcases htarget : config.target with e | t <;> simp only [htarget]
    · rfl
    · exact (n.connect_eq ⟨t, limit⟩ info payload supply dialled).symm

/-- A configuration of this environment leads to this target. -/
def LeadsTo (env : Environment) (supported : List String) (files : String → Except Fault Contents)
    (system : Resolver) (t : Target) : Prop :=
  ∃ config, ServerConfig.ofEnvironment env supported files system = .ok config ∧
    config.target = .ok t

section

variable {net : Answers} {env : Environment} {supported : List String}
  {files : String → Except Fault Contents} {system : Resolver} {info : SessionInfo} {limit : Nat}
  {t : Target}

/-- An environment leads nowhere, and then nothing is dialled, or it leads to a target, and
then that is dialled. -/
theorem upstream_cases (net : Answers) (env : Environment) (supported : List String)
    (files : String → Except Fault Contents) (system : Resolver) (info : SessionInfo)
    (limit : Nat) :
    (∃ e, (upstream net env supported files system info limit).run [] =
        (.error (.config e), [])) ∨
      ∃ t, LeadsTo env supported files system t ∧
        (upstream net env supported files system info limit).run [] =
          (t.opened info limit (net t.addr), [t.addr]) := by
  unfold upstream
  rcases hconfig : ServerConfig.ofEnvironment env supported files system with e | config
  · exact .inl ⟨e, rfl⟩
  · rcases htarget : config.target with e | t
    · refine .inl ⟨e, ?_⟩
      simp only [htarget]
      rfl
    · refine .inr ⟨t, ⟨config, hconfig, htarget⟩, ?_⟩
      simp only [htarget]
      rw [Target.connect_run, List.nil_append]

/-- **Where an extended port is set**, an environment leads there, with the cookie that it
names. -/
theorem LeadsTo.of_extended {value : String} (h : LeadsTo env supported files system t)
    (hsets : env.Sets .extendedServerPort value) :
    ∃ a cookie, t = .extended a cookie ∧ system.resolve value = .ok a ∧
      env.NamesCookie files cookie := by
  obtain ⟨config, hconfig, htarget⟩ := h
  obtain ⟨horder, hcookie⟩ := ServerConfig.inOrder_of_ofEnvironment hconfig
  -- of the four ways to combine a target and a variable only one agrees with both
  rcases ServerConfig.target_eq_ok_iff.mp htarget with
    ⟨hnone, -⟩ | ⟨a, cookie, hport, hsome, rfl⟩ <;>
  rcases horder.extended with ⟨hport2, hlacks⟩ | ⟨value2, a2, hsets2, hresolved, hport2⟩
  · exact absurd hlacks hsets.not_lacks
  · simp [hnone] at hport2
  · exact absurd hlacks hsets.not_lacks
  · obtain rfl := hsets.unique hsets2
    obtain rfl : a = a2 := by simpa [hport] using hport2
    exact ⟨a, cookie, rfl, hresolved, ServerConfig.cookieOf_eq_some_iff.mp (hsome ▸ hcookie)⟩

/-- **Where no extended port is set**, an environment leads to the plain port. -/
theorem LeadsTo.of_plain (h : LeadsTo env supported files system t)
    (hlacks : env.Lacks .extendedServerPort) :
    ∃ value a, t = .direct a ∧ env.Sets .orPort value ∧ system.resolve value = .ok a := by
  obtain ⟨config, hconfig, htarget⟩ := h
  obtain ⟨horder, -⟩ := ServerConfig.inOrder_of_ofEnvironment hconfig
  obtain ⟨value, hsets, hresolved⟩ := horder.plain
  rcases ServerConfig.target_eq_ok_iff.mp htarget with ⟨-, rfl⟩ | ⟨a, cookie, hport, -⟩
  · exact ⟨value, config.orPort, rfl, hsets, hresolved⟩
  · rcases horder.extended with ⟨hport2, -⟩ | ⟨value2, a2, hsets2, -⟩
    · simp [hport] at hport2
    · exact absurd hlacks hsets2.not_lacks

/-- An environment that names a file leads somewhere only if that is a cookie file. -/
theorem LeadsTo.names_cookie {path : String} (h : LeadsTo env supported files system t)
    (hsets : env.Sets .authCookieFile path) : ∃ cookie, env.NamesCookie files cookie := by
  obtain ⟨config, hconfig, -⟩ := h
  obtain ⟨-, hcookie⟩ := ServerConfig.inOrder_of_ofEnvironment hconfig
  rcases hc : config.cookie with _ | cookie
  · rw [hc, ServerConfig.cookieOf_of_sets hsets] at hcookie
    rcases hl : Cookie.load path (files path) with e | cookie <;> simp [hl, Except.map] at hcookie
  · exact ⟨cookie, ServerConfig.cookieOf_eq_some_iff.mp (hc ▸ hcookie)⟩

/-- An environment that is in order but for a cookie that cannot be loaded leads to the
error that loading it gives. -/
theorem upstream_of_load_error {plain : Address} {extended : Option Address} {path : String}
    {e : ConfigError} (horder : env.InOrder supported system plain extended)
    (hsets : env.Sets .authCookieFile path) (hload : Cookie.load path (files path) = .error e) :
    (upstream net env supported files system info limit).run [] =
      (.error (.config e), []) := by
  obtain ⟨version, binds, hconfig⟩ := ServerConfig.ofEnvironment_of_inOrder horder
  rw [upstream, hconfig, ServerConfig.cookieOf_of_sets hsets, hload]
  rfl

/-- An environment that is in order but names no cookie for its extended port leads to that
error. -/
theorem upstream_of_lacks {plain a : Address}
    (horder : env.InOrder supported system plain (some a))
    (hlacks : env.Lacks .authCookieFile) :
    (upstream net env supported files system info limit).run [] =
      (.error (.config (.noCookie a.text)), []) := by
  obtain ⟨version, binds, hconfig⟩ := ServerConfig.ofEnvironment_of_inOrder horder
  rw [upstream, hconfig, ServerConfig.cookieOf_of_lacks hlacks]
  rfl

end

/-- What may come of an environment: a result, and the addresses that were dialled. -/
structure Guarded (net : Answers) (env : Environment) (supported : List String)
    (files : String → Except Fault Contents) (system : Resolver) (info : SessionInfo)
    (r : Except Error Line) (dialled : List Address) : Prop where
  /-- If an extended port is set, nothing but the address that it resolves to is dialled. -/
  dials : ∀ value, env.Sets .extendedServerPort value →
    dialled = [] ∨ ∃ a, system.resolve value = .ok a ∧ dialled = [a]
  /-- It gives a connection only if a cookie file is named, and the one who answered there
  has shown that it has the cookie, has let the client in and accepted its session. -/
  opens : ∀ value l, env.Sets .extendedServerPort value → r = .ok l →
    ∃ a cookie c, system.resolve value = .ok a ∧ env.NamesCookie files cookie ∧ dialled = [a] ∧
      net a = .ok c ∧ c.Admits cookie info l
  /-- If an extended port or a cookie is set, but no cookie file named, nothing is dialled. -/
  refuses : ∀ v value, v = .extendedServerPort ∨ v = .authCookieFile → env.Sets v value →
    (∀ cookie, ¬ env.NamesCookie files cookie) → (∃ e, r = .error (.config e)) ∧ dialled = []
  /-- The extended port lacks a cookie. -/
  missing : ∀ plain a, env.InOrder supported system plain (some a) → env.Lacks .authCookieFile →
    r = .error (.config (.noCookie a.text)) ∧ dialled = []
  /-- The file cannot be read. -/
  unreadable : ∀ plain extended path fault, env.InOrder supported system plain extended →
    env.Sets .authCookieFile path → files path = .error fault →
    r = .error (.config (.unreadableCookie path fault)) ∧ dialled = []
  /-- The file is no cookie file. -/
  malformed : ∀ plain extended path contents, env.InOrder supported system plain extended →
    env.Sets .authCookieFile path → files path = .ok contents →
    (∀ cookie : Cookie, contents ≠ .finite cookie.file) →
    ∃ flaw, Cookie.parse (contents.front 65) = .error flaw ∧
      r = .error (.config (.badCookie path flaw.message)) ∧ dialled = []
  /-- If no extended port is set, nothing but the plain port is dialled, and there is
  nothing to negotiate. -/
  plain : env.Lacks .extendedServerPort →
    ((∃ e, r = .error (.config e)) ∧ dialled = []) ∨
      ∃ value a, env.Sets .orPort value ∧ system.resolve value = .ok a ∧ dialled = [a] ∧
        r = match net a with
          | .error f => .error (.network (.connectFailed a.text f))
          | .ok c => .ok c.line

/-- **There is no way around the extended port**, whatever the environment and the files
hold, whatever the system says of hosts, and whoever answers. -/
theorem upstream_guarded (net : Answers) (env : Environment) (supported : List String)
    (files : String → Except Fault Contents) (system : Resolver) (info : SessionInfo)
    (limit : Nat) :
    Guarded net env supported files system info
      ((upstream net env supported files system info limit).run []).1
      ((upstream net env supported files system info limit).run []).2 where
  dials := by
    intro value hsets
    rcases upstream_cases net env supported files system info limit with
      ⟨e, hrun⟩ | ⟨t, hleads, hrun⟩ <;>
      rw [hrun]
    · exact .inl rfl
    · obtain ⟨a, cookie, rfl, hresolved, -⟩ := hleads.of_extended hsets
      exact .inr ⟨a, hresolved, rfl⟩
  opens := by
    intro value l hsets hok
    rcases upstream_cases net env supported files system info limit with
      ⟨e, hrun⟩ | ⟨t, hleads, hrun⟩ <;>
      rw [hrun] at hok ⊢
    · cases hok
    · obtain ⟨a, cookie, rfl, hresolved, hnames⟩ := hleads.of_extended hsets
      obtain ⟨c, hanswer, hadmits⟩ := Target.admits_of_opened hok
      exact ⟨a, cookie, c, hresolved, hnames, rfl, hanswer, hadmits⟩
  refuses := by
    intro v value hv hsets hnames
    rcases upstream_cases net env supported files system info limit with
      ⟨e, hrun⟩ | ⟨t, hleads, -⟩
    · rw [hrun]
      exact ⟨⟨e, rfl⟩, rfl⟩
    · rcases hv with rfl | rfl
      · obtain ⟨a, cookie, -, -, hcookie⟩ := hleads.of_extended hsets
        exact absurd hcookie (hnames cookie)
      · obtain ⟨cookie, hcookie⟩ := hleads.names_cookie hsets
        exact absurd hcookie (hnames cookie)
  missing := by
    intro plain a horder hlacks
    rw [upstream_of_lacks horder hlacks]
    exact ⟨rfl, rfl⟩
  unreadable := by
    intro plain extended path fault horder hsets hfile
    have hload : Cookie.load path (files path) = .error (.unreadableCookie path fault) := by
      rw [hfile, Cookie.load]
    rw [upstream_of_load_error horder hsets hload]
    exact ⟨rfl, rfl⟩
  malformed := by
    intro plain extended path contents horder hsets hfile hbad
    rcases hp : Cookie.parse (contents.front 65) with flaw | cookie
    · have hload : Cookie.load path (files path) = .error (.badCookie path flaw.message) := by
        simp only [hfile, Cookie.load, hp]
      rw [upstream_of_load_error horder hsets hload]
      exact ⟨flaw, rfl, rfl, rfl⟩
    · exact absurd (Cookie.front_eq_file_iff.mp (Cookie.parse_eq_ok_iff.mp hp)) (hbad cookie)
  plain := by
    intro hlacks
    rcases upstream_cases net env supported files system info limit with
      ⟨e, hrun⟩ | ⟨t, hleads, hrun⟩ <;>
      rw [hrun]
    · exact .inl ⟨⟨e, rfl⟩, rfl⟩
    · obtain ⟨value, a, rfl, hsets, hresolved⟩ := hleads.of_plain hlacks
      refine .inr ⟨value, a, hsets, hresolved, rfl, ?_⟩
      rcases hanswer : net a with f | c <;> simp only [Target.addr, hanswer, Target.opened]

/-! ### Hosts that note what is dialled -/

section

variable {m : Type → Type} [Monad m]

/-- A host that notes each address to which a connection is opened. -/
def Host.noting (host : Host m) : Host (StateT (List Address) m) where
  environment := StateT.lift host.environment
  resolver env := StateT.lift (host.resolver env)
  openFile path := StateT.lift (host.openFile path)
  storeFile path contents := StateT.lift (host.storeFile path contents)
  freshCookie := StateT.lift host.freshCookie
  tell bs := StateT.lift (host.tell bs)
  complain words := StateT.lift (host.complain words)
  connect c info := do
    modify (· ++ [c.target.addr])
    StateT.lift (host.connect c info)

/-- Whatever was noted before, an action does what another does and only adds notes. -/
def Retells {α : Type} (x : StateT (List Address) m α) (y : m α) : Prop :=
  ∀ noted, Prod.fst <$> x.run noted = y

variable [LawfulMonad m] {α β : Type}

theorem retells_pure (a : α) : Retells (pure a) (pure a : m α) := by
  intro noted
  simp

theorem retells_lift (y : m α) : Retells (StateT.lift y) y := by
  intro noted
  simp [StateT.run_lift]

theorem Retells.bind {x : StateT (List Address) m α} {y : m α}
    {f : α → StateT (List Address) m β} {g : α → m β} (hx : Retells x y)
    (hf : ∀ a, Retells (f a) (g a)) : Retells (x >>= f) (y >>= g) := by
  intro noted
  have hstep : ∀ p : α × List Address, Prod.fst <$> (f p.1).run p.2 = g p.1 := fun p => hf p.1 p.2
  calc Prod.fst <$> (x >>= f).run noted
      = x.run noted >>= fun p => Prod.fst <$> (f p.1).run p.2 := by
        rw [StateT.run_bind, map_bind]
    _ = x.run noted >>= fun p => g p.1 := by simp only [hstep]
    _ = (Prod.fst <$> x.run noted) >>= g := by rw [bind_map_left]
    _ = y >>= g := by rw [hx noted]

theorem retells_connect (host : Host m) (c : Connector) (info : SessionInfo) :
    Retells (host.noting.connect c info) (host.connect c info) := by
  intro noted
  simp [Host.noting, StateT.run_lift]

/-- A command that is carried out on a host that notes does what it does on the host. -/
theorem perform_noting (host : Host m) (inv : Invocation) :
    Retells (Program.perform host.noting inv) (Program.perform host inv) := by
  cases inv with
  | version => exact (retells_lift _).bind fun _ => retells_pure _
  | cookieCheck path =>
      refine (retells_lift _).bind fun opened => ?_
      rcases Cookie.load path opened with e | cookie <;> exact retells_pure _
  | cookieGenerate path =>
      refine (retells_lift _).bind fun cookie => (retells_lift _).bind fun stored => ?_
      rcases stored with fault | _ <;> exact retells_pure _
  | setup role methods =>
      refine (retells_lift _).bind fun env => Retells.bind ?_ fun opened => ?_
      · unfold Program.openCookieFile
        split
        · exact retells_lift _
        · exact retells_pure _
      · refine (retells_lift _).bind fun system => (retells_lift _).bind fun _ => ?_
        split <;> exact retells_pure _
  | probe ext path method userAddr timeout =>
      refine (retells_lift _).bind fun opened => ?_
      rcases Cookie.load path opened with e | cookie
      · exact retells_pure _
      · exact retells_connect host _ _

/-- **A host that notes** what is dialled does as the host does. -/
theorem run_noting (host : Host m) (args : List String) :
    Retells (Program.run host.noting args) (Program.run host args) := by
  unfold Program.run
  rcases CommandLine.parse args with _ | inv
  · exact retells_pure _
  · refine (perform_noting host inv).bind fun r => ?_
    rcases r with e | _
    · exact (retells_lift _).bind fun _ => retells_pure _
    · exact retells_pure _

end

/-- The machine after a complaint. -/
def Machine.complain (words : String) (m : Machine) : Machine :=
  { m with complaints := m.complaints ++ words }

/-- **A probe without a cookie file** notes nothing dialled, complains and exits with one. -/
theorem Machine.probe_refused {m : Machine} {args : List String} {extOrPort userAddr : Address}
    {path method : String} {timeout : Nat} {e : ConfigError}
    (hargs : CommandLine.parse args = some (.probe extOrPort path method userAddr timeout))
    (hload : Cookie.load path (m.folder.read path) = .error e) :
    ((Program.run Machine.host.noting args).run []).run m =
      ((some 1, []), m.complain s!"Error: {(Error.config e).userMessage}\n") := by
  have hopened : ((Machine.host.noting.openFile path).run []).run m =
      (pure ((m.folder.read path, []), m) : Id _) := rfl
  have hperform : ((Program.perform Machine.host.noting
      (.probe extOrPort path method userAddr timeout)).run []).run m =
        (pure ((.error (.config e), []), m) : Id _) := by
    rw [Program.perform, Program.probe, StateT.run_bind, StateT.run_bind, hopened, pure_bind]
    simp only [hload]
    rfl
  rw [Program.run, hargs]
  simp only
  rw [StateT.run_bind, StateT.run_bind, hperform, pure_bind]
  rfl

/-- **No downgrade.**  Whatever the environment and the files hold, whatever the system says of
hosts, and whoever answers, there is no way around the extended port; nor does a probe dial
without a cookie file. -/
theorem no_downgrade (net : Answers) (env : Environment) (supported : List String)
    (files : String → Except Fault Contents) (system : Resolver) (info : SessionInfo)
    (limit : Nat) :
    Guarded net env supported files system info
      ((upstream net env supported files system info limit).run []).1
      ((upstream net env supported files system info limit).run []).2 ∧
    ∀ (m : Machine) (args : List String) (extOrPort userAddr : Address) (path method : String)
      (timeout : Nat),
      CommandLine.parse args = some (.probe extOrPort path method userAddr timeout) →
      (∀ cookie : Cookie, m.folder.read path ≠ .ok (.finite cookie.file)) →
      ∃ words, ((Program.run Machine.host.noting args).run []).run m =
          ((some 1, []), m.complain words) ∧
        m.run args = (some 1, m.complain words) := by
  refine ⟨upstream_guarded net env supported files system info limit, ?_⟩
  intro m args extOrPort userAddr path method timeout hargs hbad
  rcases hload : Cookie.load path (m.folder.read path) with e | cookie
  · have hnoted := Machine.probe_refused hargs hload
    refine ⟨_, hnoted, ?_⟩
    rw [Machine.run, ← run_noting Machine.host args [], StateT.run_map, hnoted]
    rfl
  · exact absurd (Cookie.load_eq_ok_iff.mp hload) (hbad cookie)

/-- An environment with a plain port, an extended port at a named host, and a cookie file. -/
def Environment.bridge : Environment
  | .transportVersion => some "1"
  | .serverBindAddr => some "plain-0.0.0.0:4443"
  | .serverTransports => some "*"
  | .orPort => some "127.0.0.1:9001"
  | .extendedServerPort => some "localhost:9002"
  | .authCookieFile => some "cookie"
  | .clientTransports => none

/-- Every file is a cookie file of zeros. -/
def zeroFiles (_ : String) : Except Fault Contents := .ok (.finite (Cookie.monotone 0).file)

/-- Everywhere a server answers that lets the client in and accepts it. -/
def hospitable : Answers := fun _ => .ok (.wire Endpoint.accepted)

/-- There the extended port is reached, and the plain port is not dialled. -/
theorem bridge_no_downgrade :
    ∃ a cookie c l,
      ((upstream hospitable .bridge ["plain"] zeroFiles .homely .nearby 50).run []).1 = .ok l ∧
      Resolver.homely.resolve "localhost:9002" = .ok a ∧
      Environment.bridge.NamesCookie zeroFiles cookie ∧
      ((upstream hospitable .bridge ["plain"] zeroFiles .homely .nearby 50).run []).2 = [a] ∧
      hospitable a = .ok c ∧ c.Admits cookie .nearby l := by
  have hguarded := (no_downgrade hospitable .bridge ["plain"] zeroFiles .homely .nearby 50).1
  have hsets : Environment.bridge.Sets .extendedServerPort "localhost:9002" := ⟨rfl, by decide⟩
  have hopen :
      ((upstream hospitable .bridge ["plain"] zeroFiles .homely .nearby 50).run []).1.toBool =
        true := by
    decide +kernel
  rcases hr : ((upstream hospitable .bridge ["plain"] zeroFiles .homely .nearby 50).run []).1
    with e | l
  · rw [hr] at hopen
    cases hopen
  · obtain ⟨a, cookie, c, hopens⟩ := hguarded.opens _ l hsets hr
    exact ⟨a, cookie, c, l, rfl, hopens⟩

end ManagedTransport
