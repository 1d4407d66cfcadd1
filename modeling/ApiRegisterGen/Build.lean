import ApiRegisterGen.GoStrings

/-!
# Building the executables (parser.go:703-789)

The file ends with a second package, `build`: the `executables` command of
`apiserver-boot`. `AddBuildExecutables` defines the command's four flags, each bound to a
package variable that defining the flag sets to the flag's default, so the variables'
initial values never reach a build. `RunBuildExecutables` regenerates the code when asked
to, then runs `go build` for the apiserver and, once that has succeeded, for the
controller manager, each printing its command line first and exiting on its error.

The command is a list of actions run in turn until one exits. What it does is the list of
effects they have: log lines, printed lines, the commands run and the exit, with the
caller's environment, the outcome of `RunGenerate` and that of each command given by a
`World`. A process sees, for a key its environment lists more than once, the last value
(`envValue`).
-/

namespace ApiRegisterGen

namespace Build

/-! ### Flags -/

/-- The package variables of `build` (parser.go:716-719). -/
structure BuildVars where
  generateForBuild : Bool
  goos : String
  goarch : String
  outputdir : String
  deriving DecidableEq, Repr

/-- Their initial values. -/
def BuildVars.initial : BuildVars := ⟨true, "linux", "amd64", "bin"⟩

/-- The variables a flag can be bound to. -/
inductive BuildVar
  | generateForBuild
  | goos
  | goarch
  | outputdir
  deriving DecidableEq, Repr

/-- A flag's value. -/
inductive FlagValue
  | bool (b : Bool)
  | string (s : String)
  deriving DecidableEq, Repr

/-- Storing a value in a variable: `BoolVar` binds a `bool`, `StringVar` a `string`, and
pflag stores only a value of the variable's kind. -/
def BuildVars.store (v : BuildVars) : BuildVar → FlagValue → Option BuildVars
  | .generateForBuild, .bool b => some { v with generateForBuild := b }
  | .goos, .string s => some { v with goos := s }
  | .goarch, .string s => some { v with goarch := s }
  | .outputdir, .string s => some { v with outputdir := s }
  | _, _ => none

/-- A flag: its name, the variable it is bound to, and its default. -/
structure Flag where
  name : String
  var : BuildVar
  default : FlagValue
  deriving DecidableEq, Repr

/-- The flags of `executables` (parser.go:737-740). -/
def executablesFlags : List Flag :=
  [⟨"generate", .generateForBuild, .bool true⟩, ⟨"goos", .goos, .string ""⟩,
    ⟨"goarch", .goarch, .string ""⟩, ⟨"output", .outputdir, .string "bin"⟩]

/-- `AddBuildExecutables` (parser.go:734-741): defining a flag stores its default in its
variable. -/
def addBuildExecutables (v : BuildVars) : BuildVars :=
  executablesFlags.foldl (fun v f => (v.store f.var f.default).getD v) v

/-- Parsing the command line, its flags given as names and values in order: each stores
its value in the variable of the flag of that name; an unknown flag or a value of the
wrong kind stops the command before it runs. -/
def parseFlags : List (String × FlagValue) → BuildVars → Option BuildVars
  | [], v => some v
  | (name, x) :: args, v => do
    let f ← executablesFlags.find? (·.name = name)
    parseFlags args (← v.store f.var x)

/-- The value a variable holds. -/
def BuildVars.read (v : BuildVars) : BuildVar → FlagValue
  | .generateForBuild => .bool v.generateForBuild
  | .goos => .string v.goos
  | .goarch => .string v.goarch
  | .outputdir => .string v.outputdir

/-- Defining the flags overwrites every variable, whatever it held. -/
theorem addBuildExecutables_eq (v : BuildVars) :
    addBuildExecutables v = ⟨true, "", "", "bin"⟩ := rfl

theorem BuildVars.read_store {v w : BuildVars} {r : BuildVar} {x : FlagValue}
    (h : v.store r x = some w) {r' : BuildVar} (hne : r ≠ r') : w.read r' = v.read r' := by
  cases r <;> cases x <;> cases h <;> cases r' <;> first | rfl | exact absurd rfl hne

/-- No two flags are bound to one variable. -/
theorem executablesFlags_var_inj :
    ∀ f ∈ executablesFlags, ∀ g ∈ executablesFlags, g.var = f.var → g.name = f.name := by
  decide

/-- A command line that does not give a flag leaves its variable as it was. -/
theorem parseFlags_read_of_not_given {f : Flag} (hf : f ∈ executablesFlags) :
    ∀ (args : List (String × FlagValue)) (v v' : BuildVars), parseFlags args v = some v' →
      (∀ a ∈ args, a.1 ≠ f.name) → v'.read f.var = v.read f.var
  | [], _, _, h, _ => by cases h; rfl
  | (name, x) :: args, v, v', h, hgiven => by
    obtain ⟨g, hg, h⟩ := Option.bind_eq_some.mp h
    obtain ⟨w, hw, h⟩ := Option.bind_eq_some.mp h
    have hname : g.name = name := by simpa using List.find?_some hg
    rw [parseFlags_read_of_not_given hf args w v' h fun a ha => hgiven a (List.mem_cons_of_mem _ ha)]
    refine BuildVars.read_store hw fun hvar => hgiven _ (List.mem_cons_self _ _) ?_
    rw [← hname]
    exact executablesFlags_var_inj f hf g (List.mem_of_find?_eq_some hg) hvar

/-! ### The environment of a command -/

/-- The key of an environment entry: its text before the first `=`. -/
def envKey (entry : String) : String := ⟨entry.data.takeWhile (· != '=')⟩

/-- The value of an environment entry: its text after the first `=`. -/
def envVal (entry : String) : String := ⟨(entry.data.dropWhile (· != '=')).drop 1⟩

/-- The value a process sees for `key`: that of the last entry with the key, as `os/exec`
passes only the last of the entries of one key. -/
def envValue (env : List String) (key : String) : Option String :=
  (env.reverse.find? fun e => envKey e = key).map envVal

/-- `if len(value) > 0 { env = append(env, fmt.Sprintf("KEY=%s", value)) }`. -/
def appendIfSet (env : List String) (key value : String) : List String :=
  if value.length > 0 then env ++ [key ++ "=" ++ value] else env

theorem envValue_append_singleton (env : List String) (e key : String) :
    envValue (env ++ [e]) key = if envKey e = key then some (envVal e) else envValue env key := by
  unfold envValue
  by_cases h : envKey e = key <;> simp [h]

/-- The entry `k=x`, for a key without `=`, has key `k` and value `x`. -/
theorem envKey_envVal_assign {k : String} (hk : '=' ∉ k.data) (x : String) :
    envKey (k ++ "=" ++ x) = k ∧ envVal (k ++ "=" ++ x) = x := by
  have hall : ∀ c ∈ k.data, (c != '=') = true := fun c hc => by
    simpa using fun h : c = '=' => hk (h ▸ hc)
  constructor
  · show (⟨(k.data ++ ['='] ++ x.data).takeWhile (· != '=')⟩ : String) = k
    rw [List.append_assoc, List.takeWhile_append_of_pos hall]
    simp
  · show (⟨((k.data ++ ['='] ++ x.data).dropWhile (· != '=')).drop 1⟩ : String) = x
    rw [List.append_assoc, List.dropWhile_append_of_pos hall]
    simp

/-- Appending `k=x` to an environment makes a process see `x` for `k`, and leaves every
other key as it was. -/
theorem envValue_assign (env : List String) {k : String} (hk : '=' ∉ k.data) (x key : String) :
    envValue (env ++ [k ++ "=" ++ x]) key = if k = key then some x else envValue env key := by
  rw [envValue_append_singleton, (envKey_envVal_assign hk x).1, (envKey_envVal_assign hk x).2]

theorem envValue_appendIfSet (env : List String) {k : String} (hk : '=' ∉ k.data)
    (x key : String) :
    envValue (appendIfSet env k x) key =
      if k = key ∧ x ≠ "" then some x else envValue env key := by
  unfold appendIfSet
  by_cases hx : x = ""
  · rw [if_neg (by simp [hx]), if_neg fun h => h.2 hx]
  · rw [if_pos (Nat.pos_of_ne_zero (mt Strings.length_eq_zero.mp hx)), envValue_assign env hk]
    simp only [hx, ne_eq, not_false_eq_true, and_true]

/-! ### The run -/

/-- A command `exec.Command` builds: its arguments, the program's name first, and its
environment. -/
structure Cmd where
  args : List String
  env : List String
  deriving DecidableEq, Repr

/-- What the command does, in order. -/
inductive Effect
  /-- `log.Printf(format)`, with the format it is given. -/
  | log (format : String)
  /-- `RunGenerate(cmd, args)`. -/
  | generate
  /-- A line written to standard output. -/
  | print (line : String)
  /-- `c.Run()`. -/
  | run (c : Cmd)
  /-- `log.Fatal(err)`: the error is logged and the process exits. -/
  | fatal (err : String)
  deriving DecidableEq, Repr

/-- What the world outside the command answers: the caller's environment (`os.Environ()`),
whether `RunGenerate` returns, and the error of each command run, `none` when it
succeeds. -/
structure World where
  environ : List String
  generateReturns : Bool
  result : Cmd → Option String

/-- One action of the command. -/
inductive Action
  /-- `log.Printf(format)`. -/
  | log (format : String)
  /-- `RunGenerate(cmd, args)`. -/
  | generate
  /-- Printing a command's arguments joined by spaces, running it, and `log.Fatal` on its
  error (parser.go:763-769, 782-788: `Printf("%s\n", ...)` and `Println(...)` print the
  same line). -/
  | build (c : Cmd)

/-- What an action does, and whether the process goes on after it. -/
def Action.perform (w : World) : Action → List Effect × Bool
  | .log format => ([.log format], true)
  | .generate => ([.generate], w.generateReturns)
  | .build c =>
    let shown := Effect.print (Strings.join c.args " " ++ "\n")
    match w.result c with
    | some err => ([shown, .run c, .fatal err], false)
    | none => ([shown, .run c], true)

/-- Running actions in turn until one exits. -/
def execute (w : World) : List Action → List Effect
  | [] => []
  | a :: as => (a.perform w).1 ++ if (a.perform w).2 then execute w as else []

/-- The environment of both builds (parser.go:752-761, 774-780): the caller's, then
`CGO_ENABLED=0`, then `GOOS` and `GOARCH` when set. -/
def buildEnv (environ : List String) (v : BuildVars) : List String :=
  appendIfSet (appendIfSet (environ ++ ["CGO_ENABLED=0"]) "GOOS" v.goos) "GOARCH" v.goarch

/-- The `go build` of `cmd/<name>/main.go` into `<outputdir>/<name>` (parser.go:750-751,
772-773). -/
def goBuild (environ : List String) (v : BuildVars) (name : String) : Cmd :=
  { args := ["go", "build", "-o", Filepath.join [v.outputdir, name],
      Filepath.join ["cmd", name, "main.go"]],
    env := buildEnv environ v }

/-- The log line `RunBuildExecutables` writes before regenerating. -/
def regenerateMessage : String :=
  "regenerating generated code.  To disable regeneration, run with --generate=false."

/-- What `RunBuildExecutables` does before its first build (parser.go:744-761): regenerate
when asked to, and log the apiserver build's environment; the controller manager's build
logs none. -/
def setupActions (v : BuildVars) : List Action :=
  (if v.generateForBuild then [.log regenerateMessage, .generate] else []) ++
    [.log "CGO_ENABLED=0"] ++ (if v.goos.length > 0 then [.log ("GOOS=" ++ v.goos)] else []) ++
    (if v.goarch.length > 0 then [.log ("GOARCH=" ++ v.goarch)] else [])

/-- The actions of `RunBuildExecutables` (parser.go:743-789). -/
def buildActions (environ : List String) (v : BuildVars) : List Action :=
  setupActions v ++
    [.build (goBuild environ v "apiserver"), .build (goBuild environ v "controller-manager")]

theorem mem_setupActions {v : BuildVars} {a : Action} (h : a ∈ setupActions v) :
    a = .generate ∧ v.generateForBuild = true ∨ ∃ f, a = .log f := by
  unfold setupActions at h
  split_ifs at h <;> simp only [List.nil_append, List.cons_append, List.singleton_append,
    List.append_nil, List.mem_cons, List.not_mem_nil, or_false] at h <;>
    rcases h with rfl | rfl | rfl | rfl | rfl <;>
    first | exact .inr ⟨_, rfl⟩ | exact .inl ⟨rfl, ‹_›⟩

/-- `RunBuildExecutables` (parser.go:743-789). -/
def runBuildExecutables (w : World) (v : BuildVars) : List Effect :=
  execute w (buildActions w.environ v)

/-! ### What a run reaches -/

/-- The command an effect runs. -/
def Effect.ran : Effect → Option Cmd
  | .run c => some c
  | _ => none

/-- The command an action builds. -/
def Action.built : Action → Option Cmd
  | .build c => some c
  | _ => none

/-- The actions a run reaches: those up to the first that exits, that one included. -/
def reached (w : World) : List Action → List Action
  | [] => []
  | a :: as => a :: if (a.perform w).2 then reached w as else []

theorem perform_ran (w : World) (a : Action) :
    (a.perform w).1.filterMap Effect.ran = a.built.toList := by
  cases a with
  | log f => rfl
  | generate => rfl
  | build c => simp only [Action.perform]; cases w.result c <;> rfl

/-- A run runs the commands of the actions it reaches. -/
theorem execute_ran (w : World) : ∀ as : List Action,
    (execute w as).filterMap Effect.ran = (reached w as).filterMap Action.built
  | [] => rfl
  | a :: as => by
    rw [execute, reached, List.filterMap_append, perform_ran, List.filterMap_cons]
    cases a.built <;> split <;> simp [execute_ran w as]

theorem reached_append (w : World) {as₁ : List Action} (h : ∀ a ∈ as₁, (a.perform w).2 = true)
    (as₂ : List Action) : reached w (as₁ ++ as₂) = as₁ ++ reached w as₂ := by
  induction as₁ with
  | nil => rfl
  | cons a as ih =>
    rw [List.cons_append, reached, if_pos (h a (List.mem_cons_self a as)),
      ih fun b hb => h b (List.mem_cons_of_mem a hb), List.cons_append]

/-! ### The builds -/

/-- Both builds see `CGO_ENABLED=0` whatever the caller's environment holds, and `GOOS`
and `GOARCH` from the variables when set, else as the caller has them. -/
theorem buildEnv_envValue (environ : List String) (v : BuildVars) :
    envValue (buildEnv environ v) "CGO_ENABLED" = some "0" ∧
    envValue (buildEnv environ v) "GOOS" =
      (if v.goos = "" then envValue environ "GOOS" else some v.goos) ∧
    envValue (buildEnv environ v) "GOARCH" =
      (if v.goarch = "" then envValue environ "GOARCH" else some v.goarch) := by
  have hcgo : ∀ key, envValue (environ ++ ["CGO_ENABLED=0"]) key =
      if "CGO_ENABLED" = key then some "0" else envValue environ key :=
    envValue_assign environ (k := "CGO_ENABLED") (by decide) "0"
  have hne : ∀ (a b : String) (P : Prop), a ≠ b → (a = b ∧ P) = False := fun a b _ h => by
    simp [h]
  simp only [buildEnv, envValue_appendIfSet _ (show '=' ∉ "GOOS".data by decide),
    envValue_appendIfSet _ (show '=' ∉ "GOARCH".data by decide), hcgo,
    hne "GOOS" "CGO_ENABLED" _ (by decide), hne "GOARCH" "CGO_ENABLED" _ (by decide),
    hne "GOOS" "GOARCH" _ (by decide), hne "GOARCH" "GOOS" _ (by decide),
    if_neg (show ¬"CGO_ENABLED" = "GOOS" by decide),
    if_neg (show ¬"CGO_ENABLED" = "GOARCH" by decide), true_and, if_false, if_true, ne_eq,
    ite_not, and_self]

/-- The source of a command: `cmd/<name>/main.go`. -/
theorem join_cmd {name : String} (hn : Path.NormalElem name.data) :
    Filepath.join ["cmd", name, "main.go"] = "cmd/" ++ name ++ "/main.go" := by
  have hcmd := (Path.CleanRelative.append (R := "cmd") (L := name)
    ⟨["cmd".data], by simp, by decide, rfl⟩ hn).append (L := "main.go") (by decide)
  have heq : "cmd" ++ "/" ++ name ++ "/" ++ "main.go" = "cmd/" ++ name ++ "/main.go" := by
    simp [String.ext_iff]
  rw [Filepath.join, if_neg (by decide), ← heq, ← hcmd.clean_eq]
  exact congrArg Path.clean (String.ext (by simp [Strings.join]))

/-- The commands a run of `RunBuildExecutables` runs: none when `RunGenerate` exits, else
the apiserver build, then the controller manager's once the apiserver's has succeeded. -/
theorem runBuildExecutables_ran (w : World) (v : BuildVars) :
    (runBuildExecutables w v).filterMap Effect.ran =
      if v.generateForBuild = true ∧ w.generateReturns = false then [] else
        goBuild w.environ v "apiserver" ::
          if w.result (goBuild w.environ v "apiserver") = none
          then [goBuild w.environ v "controller-manager"] else [] := by
  rw [runBuildExecutables, execute_ran, buildActions]
  by_cases hg : v.generateForBuild = true ∧ w.generateReturns = false
  · simp [hg, setupActions, reached, Action.perform, Action.built]
  · have hsetup : ∀ a ∈ setupActions v, (a.perform w).2 = true ∧ a.built = none := by
      intro a ha
      rcases mem_setupActions ha with ⟨rfl, hgen⟩ | ⟨f, rfl⟩
      · exact ⟨by simpa [Action.perform, hgen] using hg, rfl⟩
      · exact ⟨rfl, rfl⟩
    rw [if_neg hg, reached_append w fun a ha => (hsetup a ha).1, List.filterMap_append,
      List.filterMap_eq_nil_iff.mpr fun a ha => (hsetup a ha).2, List.nil_append]
    cases hapi : w.result (goBuild w.environ v "apiserver") <;>
      simp [hapi, reached, Action.perform, Action.built]

/-- **What RunBuildExecutables builds.** Unless `RunGenerate` exits, the command runs the
apiserver build and, only once that has succeeded, the controller manager's. Into a clean
relative output directory `R`, each runs `go build -o R/<name> cmd/<name>/main.go`, and sees
`CGO_ENABLED=0` whatever the caller's environment holds, and `GOOS` and `GOARCH` from the
variables when set, else as the caller has them. -/
theorem runBuildExecutables_builds (w : World) (v : BuildVars)
    (hR : Path.CleanRelative v.outputdir) :
    (runBuildExecutables w v).filterMap Effect.ran =
      (if v.generateForBuild = true ∧ w.generateReturns = false then [] else
        goBuild w.environ v "apiserver" ::
          if w.result (goBuild w.environ v "apiserver") = none
          then [goBuild w.environ v "controller-manager"] else []) ∧
    ∀ name ∈ ["apiserver", "controller-manager"],
      (goBuild w.environ v name).args =
        ["go", "build", "-o", v.outputdir ++ "/" ++ name, "cmd/" ++ name ++ "/main.go"] ∧
      envValue (goBuild w.environ v name).env "CGO_ENABLED" = some "0" ∧
      envValue (goBuild w.environ v name).env "GOOS" =
        (if v.goos = "" then envValue w.environ "GOOS" else some v.goos) ∧
      envValue (goBuild w.environ v name).env "GOARCH" =
        (if v.goarch = "" then envValue w.environ "GOARCH" else some v.goarch) := by
  refine ⟨runBuildExecutables_ran w v, fun name hname => ⟨?_, buildEnv_envValue w.environ v⟩⟩
  have hn : Path.NormalElem name.data := by
    rcases List.mem_pair.mp hname with rfl | rfl <;> decide
  rw [goBuild, Filepath.join_pair hR hn, join_cmd hn]

/-- A caller with `GOOS=darwin` set, for whom every command succeeds. -/
def darwinWorld : World := ⟨["GOOS=darwin"], true, fun _ => none⟩

theorem runBuildExecutables_builds_bin :
    Path.CleanRelative "bin" ∧
      (runBuildExecutables darwinWorld ⟨true, "", "", "bin"⟩).filterMap Effect.ran =
        [goBuild ["GOOS=darwin"] ⟨true, "", "", "bin"⟩ "apiserver",
          goBuild ["GOOS=darwin"] ⟨true, "", "", "bin"⟩ "controller-manager"] ∧
      (goBuild ["GOOS=darwin"] ⟨true, "", "", "bin"⟩ "apiserver").args =
        ["go", "build", "-o", "bin/apiserver", "cmd/apiserver/main.go"] := by
  have hbin : Path.CleanRelative "bin" := ⟨["bin".data], by simp, by decide, rfl⟩
  have h := runBuildExecutables_builds darwinWorld ⟨true, "", "", "bin"⟩ hbin
  exact ⟨hbin, h.1, (h.2 "apiserver" (by simp)).1⟩

/-- **The variables' initial values never reach a build.** Defining the flags stores their
defaults in the variables, so after any command line without `--goos` (`--goarch`) every
build sees the caller's `GOOS` (`GOARCH`), and never the initial `linux` (`amd64`). -/
theorem runBuildExecutables_inherits (w : World) (v₀ v : BuildVars)
    (args : List (String × FlagValue)) (hv : parseFlags args (addBuildExecutables v₀) = some v) :
    ((∀ a ∈ args, a.1 ≠ "goos") → ∀ c ∈ (runBuildExecutables w v).filterMap Effect.ran,
        envValue c.env "GOOS" = envValue w.environ "GOOS") ∧
    ((∀ a ∈ args, a.1 ≠ "goarch") → ∀ c ∈ (runBuildExecutables w v).filterMap Effect.ran,
        envValue c.env "GOARCH" = envValue w.environ "GOARCH") := by
  have henv : ∀ c ∈ (runBuildExecutables w v).filterMap Effect.ran, c.env = buildEnv w.environ v := by
    intro c hc
    rw [runBuildExecutables_ran] at hc
    split at hc
    · exact absurd hc (List.not_mem_nil c)
    · rcases List.mem_cons.mp hc with rfl | hc
      · rfl
      · split at hc
        · rw [List.mem_singleton.mp hc]; rfl
        · exact absurd hc (List.not_mem_nil c)
  refine ⟨fun hgoos c hc => ?_, fun hgoarch c hc => ?_⟩
  · have h := parseFlags_read_of_not_given (f := ⟨"goos", .goos, .string ""⟩) (by decide) args _ v hv
      hgoos
    simp only [BuildVars.read, addBuildExecutables_eq, FlagValue.string.injEq] at h
    rw [henv c hc, (buildEnv_envValue w.environ v).2.1, if_pos h]
  · have h := parseFlags_read_of_not_given (f := ⟨"goarch", .goarch, .string ""⟩) (by decide) args _ v
      hv hgoarch
    simp only [BuildVars.read, addBuildExecutables_eq, FlagValue.string.injEq] at h
    rw [henv c hc, (buildEnv_envValue w.environ v).2.2, if_pos h]

theorem runBuildExecutables_inherits_darwin :
    parseFlags [] (addBuildExecutables BuildVars.initial) = some ⟨true, "", "", "bin"⟩ ∧
      ∀ c ∈ (runBuildExecutables darwinWorld ⟨true, "", "", "bin"⟩).filterMap Effect.ran,
        envValue c.env "GOOS" = some "darwin" :=
  ⟨rfl, (runBuildExecutables_inherits darwinWorld BuildVars.initial _ [] rfl).1
    (fun _ h => absurd h (List.not_mem_nil _))⟩

end Build

end ApiRegisterGen
