import ApiRegisterGen.Packages
import ApiRegisterGen.Index
import ApiRegisterGen.Apis

/-!
# The builder (parser.go:179-204)

`NewAPIsBuilder` runs the phases in order: packages and the apis root, domain, group
names, index, controllers, API model. The pipeline theorem puts together what each phase
is proved to do: when a builder is returned, all resources share one apis root, the
domain comes from the apis package, every controller type has its controller, and the API
model holds, under the group, version and kind of each resource declaration, the resource
built from the last such declaration, and nothing under any other triple. A builder is
returned exactly when the declarations meet `BuilderAccepts`; when no two resources share
a triple, neither that nor the model's answers depend on the order of the declarations.
-/

namespace ApiRegisterGen

variable {ι : Type}

/-! ### The model -/

/-- `GetControllerTag` (parser.go:504-511). -/
def getControllerTag : Classifier ι → APIsBuilder ι → ι → Except Abort String :=
  getRequiredTag "controller"

/-- The `Controller` of a `+controller` type (parser.go:197-202): its repository is the
package path before `/pkg/controller`. -/
def controllerOf (ctx : Context ι) (c : ι) (tags : ControllerTags) : Controller :=
  { target := tags.gvk, resource := tags.resource,
    pkg := ctx.packages (ctx.types c).name.package,
    repo := (Strings.split (ctx.types c).name.package "/pkg/controller").getD 0 "" }

/-- One declaration of `ParseControllers` (parser.go:195-203). -/
def parseControllersStep (cl : Classifier ι) (b : APIsBuilder ι) (controllers : List Controller)
    (c : ι) : Except Abort (List Controller) :=
  if cl.isController c then do
    let tags ← parseControllerTag (← getControllerTag cl b c)
    pure (controllers ++ [controllerOf b.context c tags])
  else pure controllers

/-- `APIsBuilder.ParseControllers` (parser.go:194-204). -/
def parseControllers (cl : Classifier ι) (b : APIsBuilder ι) : Except Abort (APIsBuilder ι) := do
  let controllers ← b.context.order.foldlM (parseControllersStep cl b) b.controllers
  pure { b with controllers := controllers }

/-- `NewAPIsBuilder` (parser.go:179-192). -/
def newAPIsBuilder [Fintype ι] (cl : Classifier ι) (context : Context ι) :
    Except Abort (APIsBuilder ι) := do
  let b ← parsePackages cl (APIsBuilder.init context)
  let b ← parseDomain cl b
  let b ← parseIndex cl (parseGroupNames b)
  let b ← parseControllers cl b
  parseAPIs cl b

/-- The `+controller` tag text of a type. -/
def controllerTag (cl : Classifier ι) (ctx : Context ι) (c : ι) : String :=
  requiredTag "controller" cl ctx c

/-- A declaration `ParseControllers` accepts: not a controller, or a controller whose tag
is present and well formed. -/
def ControllerTagged (cl : Classifier ι) (ctx : Context ι) (c : ι) : Prop :=
  cl.isController c = true → controllerTag cl ctx c ≠ "" ∧ TagWellFormed (controllerTag cl ctx c)

/-- The controller recorded for an accepted controller type. -/
def controllerFor (cl : Classifier ι) (ctx : Context ι) (c : ι) : Controller :=
  controllerOf ctx c (controllerTagsOf (Strings.split (controllerTag cl ctx c) ","))

instance (cl : Classifier ι) (ctx : Context ι) : DecidablePred (ControllerTagged cl ctx) :=
  fun c => inferInstanceAs (Decidable (cl.isController c = true →
    controllerTag cl ctx c ≠ "" ∧ TagWellFormed (controllerTag cl ctx c)))

/-! ### A resource and its controller -/

/-- A `Widget` resource of `core/v1` and its controller, with the apis packages in the
universe. -/
def widgetApp : Context Bool :=
  ⟨fun t => if t then ⟨⟨"example.com/apis/core/v1", "Widget"⟩, [], none, []⟩
      else ⟨⟨"example.com/pkg/controller/widget", "WidgetController"⟩, [], none, []⟩,
    [true, false], fun p => some ⟨p, []⟩⟩

/-- `true` is the resource and `false` its controller; every tag reads as set. -/
def widgetAppClassifier : Classifier Bool :=
  { (default : Classifier Bool) with
    isAPIResource := id, isController := not, getGroup := fun _ => "core",
    getVersion := fun _ _ => "v1", getKind := fun _ _ => "Widget",
    getTag := fun _ name _ =>
      if name = "domain" then "example.com"
      else if name = "resource" then "path=widgets"
      else "group=core,version=v1,kind=Widget,resource=widgets" }

/-! ### Controllers -/

section Controllers

variable (cl : Classifier ι) (b : APIsBuilder ι)

theorem parseControllersStep_tagged {c : ι} (h : ControllerTagged cl b.context c)
    (cs : List Controller) :
    parseControllersStep cl b cs c =
      .ok (if cl.isController c then cs ++ [controllerFor cl b.context c] else cs) := by
  unfold parseControllersStep
  cases hc : cl.isController c
  · rfl
  · obtain ⟨hne, hwf⟩ := h hc
    unfold controllerTag requiredTag at hne
    rw [if_pos rfl, if_pos rfl, getControllerTag, getRequiredTag_eq, if_neg hne]
    show (parseControllerTag (controllerTag cl b.context c)).bind _ = _
    rw [parseControllerTag_eq, if_pos hwf]
    rfl

theorem parseControllersStep_untagged {c : ι} (h : ¬ControllerTagged cl b.context c)
    (cs : List Controller) : ∃ e, parseControllersStep cl b cs c = .error e := by
  unfold ControllerTagged at h
  push_neg at h
  obtain ⟨hc, hbad⟩ := h
  unfold parseControllersStep
  rw [if_pos hc, getControllerTag, getRequiredTag_eq]
  by_cases hne : cl.getTag (b.context.types c).commentLines "controller" ":" = ""
  · exact ⟨_, by rw [if_pos hne]; rfl⟩
  · rw [if_neg hne]
    show ∃ e, (parseControllerTag (controllerTag cl b.context c)).bind _ = _
    rw [parseControllerTag_eq, if_neg (hbad hne)]
    exact ⟨_, rfl⟩

theorem foldlM_parseControllersStep :
    ∀ (l : List ι) (cs : List Controller), (∀ c ∈ l, ControllerTagged cl b.context c) →
      l.foldlM (parseControllersStep cl b) cs =
        .ok (cs ++ (l.filter cl.isController).map (controllerFor cl b.context))
  | [], cs, _ => by rw [List.filter_nil, List.map_nil, List.append_nil]; rfl
  | c :: l, cs, h => by
    rw [List.foldlM_cons, parseControllersStep_tagged cl b (h c (List.mem_cons_self c l))]
    refine (foldlM_parseControllersStep l _ fun x hx => h x (List.mem_cons_of_mem c hx)).trans ?_
    cases hc : cl.isController c <;> simp [List.filter_cons, hc]

/-- **ParseControllers.** A run completes exactly when every controller type has a present,
well-formed `+controller` tag, and it then appends the controllers of the types in
declaration order. -/
theorem parseControllers_eq_ok {b' : APIsBuilder ι} :
    parseControllers cl b = .ok b' ↔ (∀ c ∈ b.context.order, ControllerTagged cl b.context c) ∧
      b' = { b with controllers := b.controllers ++
        (b.context.order.filter cl.isController).map (controllerFor cl b.context) } := by
  have hok : (∀ c ∈ b.context.order, ControllerTagged cl b.context c) →
      parseControllers cl b = .ok { b with controllers := b.controllers ++
        (b.context.order.filter cl.isController).map (controllerFor cl b.context) } := fun h => by
    rw [parseControllers, foldlM_parseControllersStep cl b _ _ h]
    rfl
  have htagged : parseControllers cl b = .ok b' →
      ∀ c ∈ b.context.order, ControllerTagged cl b.context c := fun h c hc => by
    by_contra hbad
    obtain ⟨e, he⟩ := foldlM_error_of_mem (parseControllersStep_untagged cl b hbad)
      b.context.order b.controllers hc
    rw [parseControllers, he] at h
    exact nomatch h
  refine ⟨fun h => ⟨htagged h, Except.ok.inj (h.symm.trans (hok (htagged h)))⟩, ?_⟩
  rintro ⟨h, rfl⟩
  exact hok h

theorem parseControllersStep_eq_error {c : ι} (hc : cl.isController c = true)
    (cs : List Controller) (e : Abort) :
    parseControllersStep cl b cs c = .error e ↔
      TagDefect "controller" controllerTagMessage cl b.context c e := by
  rw [parseControllersStep, if_pos hc, getControllerTag, getRequiredTag_parse_eq_error cl b c
    "controller" controllerTagMessage parseControllerTag_eq]
  exact or_iff_left fun h => nomatch h.2.2

/-- The abort of `ParseControllers`: the one of the first controller type whose
`+controller` tag is missing or malformed. -/
theorem parseControllers_eq_error (e : Abort) :
    parseControllers cl b = .error e ↔
      FirstFailing (ControllerTagged cl b.context)
        (fun c => TagDefect "controller" controllerTagMessage cl b.context c e) b.context.order := by
  rw [parseControllers, Except.bind_pure_eq_error]
  exact foldlM_eq_error_iff (fun _ => True) _
    (fun c e => TagDefect "controller" controllerTagMessage cl b.context c e)
    (fun cs _ _ hc => ⟨_, parseControllersStep_tagged cl b hc cs, trivial⟩)
    (fun cs _ e _ hc => parseControllersStep_eq_error cl b (Classical.not_imp.mp hc).1 cs e)
    (fun _ hc => let ⟨e, he⟩ := parseControllersStep_untagged cl b hc []
      ⟨e, (parseControllersStep_eq_error cl b (Classical.not_imp.mp hc).1 [] e).mp he⟩)
    _ _ trivial e

example :
    (parseControllers widgetAppClassifier (APIsBuilder.init widgetApp)).toOption.map
      (fun b => b.controllers.map Controller.target) = some [⟨"core", "v1", "Widget"⟩] := by
  rw [(parseControllers_eq_ok widgetAppClassifier (APIsBuilder.init widgetApp)).mpr ⟨by decide, rfl⟩]
  decide

end Controllers

/-- The repository of a controller is its package path up to the first `/pkg/controller`,
and the whole path when there is none. -/
theorem controllerOf_repo (ctx : Context ι) (c : ι) (tags : ControllerTags) (r rest : String) :
    ((ctx.types c).name.package.data = r.data ++ "/pkg/controller".data ++ rest.data →
      (∀ i < r.data.length, ¬"/pkg/controller".data <+: (ctx.types c).name.package.data.drop i) →
      (controllerOf ctx c tags).repo = r) ∧
    (¬"/pkg/controller".data <:+: (ctx.types c).name.package.data →
      (controllerOf ctx c tags).repo = (ctx.types c).name.package) := by
  refine ⟨fun hs hfirst => Strings.split_head r rest (by decide) hs hfirst, fun h => ?_⟩
  rw [controllerOf, Strings.split_of_not_infix (by decide) h]
  rfl

theorem controllerOf_repo_widget :
    (controllerOf widgetApp false ⟨⟨"core", "v1", "Widget"⟩, "widgets"⟩).repo = "example.com" :=
  (controllerOf_repo widgetApp false _ "example.com" "/widget").1 (by decide) (by decide)

/-! ### The pipeline -/

/-- What the API model `apis` of the builder `b` holds, for the declarations of `ctx`. -/
structure ModelOutcome (cl : Classifier ι) (ctx : Context ι) (b : APIsBuilder ι) (apis : APIs ι) :
    Prop where
  lookupIsSome : ∀ g v k, (apis.lookup g v k).isSome ↔
    ∃ c ∈ ctx.order, cl.isAPIResource c = true ∧ gvkOf cl c = (g, v, k)
  lookupLast : ∀ g v k c, lastDecl cl cl.isAPIResource ctx.order g v k = some c →
    ∃ r, apis.lookup g v k = some r ∧ BuiltFrom cl b c r
  resourceStructs : ∀ g v k c, lastDecl cl cl.isAPIResource ctx.order g v k = some c →
    ∃ ag, apis.groups.lookup g = some ag ∧ ∃ st ∈ ag.structs, st.name = typeName ctx c
  subresourceStructs : ∀ g ag, apis.groups.lookup g = some ag → ∀ v k c,
    b.subByGroupVersionKind.lookup3 g v k = some c → ∃ st ∈ ag.structs, st.name = typeName ctx c
  packages : ∀ g ag, apis.groups.lookup g = some ag →
    (∃ v k r, apis.lookup g v k = some r ∧ ∃ p, ctx.packages (groupPackage ctx r) = some p ∧
      ag.pkg = some p ∧ ag.pkgPath = p.path) ∧
    ∀ v av, ag.versions.lookup v = some av → ∃ k r, apis.lookup g v k = some r ∧
      av.pkg = ctx.packages (ctx.types r.type).name.package

/-- `ParseAPIs` after a completed `ParseIndex` run from `b₀`: the model answers each triple
with the resource built from its last declaration, each group has the structs of its
resources and subresource requests, and each group and version the package of one of its
resources. -/
theorem modelOutcome_parseAPIs [Fintype ι] {cl : Classifier ι} {b₀ b b' : APIsBuilder ι}
    (h : parseAPIs cl b = .ok b') (hi : IndexInv cl b₀ b₀.context.order b) :
    ∃ apis, b' = { b with apis := some apis } ∧ ModelOutcome cl b₀.context b' apis := by
  obtain ⟨apis, rfl, hlookup⟩ := parseAPIs_lookup cl b _ h
  obtain ⟨apis', hapis', hstructs⟩ := parseAPIs_structs cl b _ h
  cases hapis'
  obtain ⟨apis', hapis', hpk⟩ := parseAPIs_packages cl b _ hi.resources.noEmptyVersionKind h
  cases hapis'
  have hlast : ∀ g v k c, lastDecl cl cl.isAPIResource b₀.context.order g v k = some c →
      ∃ r, apis.lookup g v k = some r ∧ BuiltFrom cl { b with apis := some apis } c r := by
    intro g v k c hc
    obtain ⟨r, hr, -, -, -, hb⟩ := hi.resources.lookup3_builtFrom hc
    exact ⟨r, (hlookup g v k).trans hr, hb.congr hi.context.symm hi.domain.symm⟩
  refine ⟨apis, rfl, fun g v k => ?_, hlast, fun g v k c hc => ?_, fun g ag hag => ?_,
    fun g ag hag => ?_⟩
  · rw [hlookup]
    exact hi.resources.lookup3_isSome_iff g v k
  · obtain ⟨r, hr, hb⟩ := hlast g v k c hc
    obtain ⟨ag, hag, -⟩ := Option.bind_eq_some.mp hr
    obtain ⟨st, hst, hname⟩ := (hstructs g ag hag).1 v k r hr
    exact ⟨ag, hag, st, hst, by rw [hname, hb.type, hi.context]⟩
  · rw [← hi.context]
    exact (hstructs g ag hag).2
  · obtain ⟨⟨v, k, r, hr, p, hp, h1, h2⟩, hv⟩ := hpk g ag hag
    refine ⟨⟨v, k, r, (hlookup g v k).trans hr, p, by rwa [← hi.context], h1, h2⟩,
      fun v av hav => ?_⟩
    obtain ⟨k, r, hr, h1⟩ := hv v av hav
    exact ⟨k, r, (hlookup g v k).trans hr, by rw [h1, hi.context]⟩

/-- The builder `ParseDomain` returns in `NewAPIsBuilder`, for the apis package `pkg`. -/
def domainBuilder (cl : Classifier ι) (ctx : Context ι) (pkg : Package) : APIsBuilder ι :=
  { APIsBuilder.init ctx with
    versionedPkgs := (resourcePackages cl ctx ctx.order).toFinset,
    unversionedPkgs := ((resourcePackages cl ctx ctx.order).map Filepath.dir).toFinset,
    apisPkg := commonRoot (resourcePackages cl ctx ctx.order),
    domain := cl.getTag pkg.comments "domain" "=" }

/-- Everything a run of `NewAPIsBuilder` can do: the first two phases succeed exactly when
the resources agree on a root whose package carries a `+domain` tag, and then return
`domainBuilder`; the last three are run in turn. -/
theorem newAPIsBuilder_eq_ok [Fintype ι] {cl : Classifier ι} {ctx : Context ι} {b : APIsBuilder ι} :
    newAPIsBuilder cl ctx = .ok b ↔
      (∀ p ∈ resourcePackages cl ctx ctx.order,
        ∀ q ∈ resourcePackages cl ctx ctx.order, apisRoot p = apisRoot q) ∧
      ∃ pkg, ctx.packages (commonRoot (resourcePackages cl ctx ctx.order)) = some pkg ∧
        cl.getTag pkg.comments "domain" "=" ≠ "" ∧
        ∃ b₃ b₄, parseIndex cl (parseGroupNames (domainBuilder cl ctx pkg)) = .ok b₃ ∧
          parseControllers cl b₃ = .ok b₄ ∧ parseAPIs cl b₄ = .ok b := by
  constructor
  · intro h
    obtain ⟨b₁, h₁, h⟩ := Except.bind_eq_ok.mp h
    obtain ⟨b₂, h₂, h⟩ := Except.bind_eq_ok.mp h
    obtain ⟨b₃, h₃, h⟩ := Except.bind_eq_ok.mp h
    obtain ⟨b₄, h₄, h₅⟩ := Except.bind_eq_ok.mp h
    obtain ⟨hroot, rfl⟩ := parsePackages_ok rfl h₁
    obtain ⟨pkg, hpkg, hdom, rfl⟩ := parseDomain_ok h₂
    exact ⟨hroot, pkg, hpkg, hdom, b₃, b₄, h₃, h₄, h₅⟩
  · rintro ⟨hroot, pkg, hpkg, hdom, b₃, b₄, h₃, h₄, h₅⟩
    unfold newAPIsBuilder
    exact Except.bind_eq_ok.mpr ⟨_, (parsePackages_eq cl (APIsBuilder.init ctx) rfl).1 hroot,
      Except.bind_eq_ok.mpr ⟨_, parseDomain_of_tag hpkg hdom,
        Except.bind_eq_ok.mpr ⟨b₃, h₃, Except.bind_eq_ok.mpr ⟨b₄, h₄, h₅⟩⟩⟩⟩

/-- What a builder returned by `NewAPIsBuilder` holds, phase by phase. -/
structure BuilderOutcome (cl : Classifier ι) (ctx : Context ι) (b : APIsBuilder ι) : Prop where
  context : b.context = ctx
  sameRoot : ∀ p ∈ resourcePackages cl ctx ctx.order,
    ∀ q ∈ resourcePackages cl ctx ctx.order, apisRoot p = apisRoot q
  apisPkg : b.apisPkg = commonRoot (resourcePackages cl ctx ctx.order)
  versionedPkgs : b.versionedPkgs = (resourcePackages cl ctx ctx.order).toFinset
  unversionedPkgs :
    b.unversionedPkgs = ((resourcePackages cl ctx ctx.order).map Filepath.dir).toFinset
  domain : ∃ pkg, ctx.packages b.apisPkg = some pkg ∧
    b.domain = cl.getTag pkg.comments "domain" "=" ∧ b.domain ≠ ""
  groupNames :
    b.groupNames = (b.unversionedPkgs.filter fun p => (ctx.packages p).isSome).image Filepath.base
  controllersTagged : ∀ c ∈ ctx.order, ControllerTagged cl ctx c
  controllers : b.controllers = (ctx.order.filter cl.isController).map (controllerFor cl ctx)
  subresources : ∀ g v k,
    b.subByGroupVersionKind.lookup3 g v k = lastDecl cl cl.isAPISubresource ctx.order g v k
  apis : ∃ apis, b.apis = some apis ∧ ModelOutcome cl ctx b apis

/-- **NewAPIsBuilder.** A returned builder is the composition of the phases' results: the
API resources share one apis root, the domain is the apis package's non-empty `+domain`
tag, every controller type is tagged and has its controller, and the API model answers
each group, version and kind with the resource built from the last declaration filed
there, and nothing where there is none, with a struct of that declaration's name in its
group, and gives each group and version the package of one of its resources. -/
theorem newAPIsBuilder_spec [Fintype ι] (cl : Classifier ι) (ctx : Context ι) (b : APIsBuilder ι)
    (h : newAPIsBuilder cl ctx = .ok b) : BuilderOutcome cl ctx b := by
  obtain ⟨hroot, pkg, hpkg, hdom, b₃, b₄, h₃, h₄, h₅⟩ := newAPIsBuilder_eq_ok.mp h
  have hi := indexInv_parseIndex h₃
  have he := eraseIndex_parseIndex h₃
  obtain ⟨htagged, rfl⟩ := (parseControllers_eq_ok cl b₃).mp h₄
  obtain ⟨apis, rfl, hm⟩ :=
    modelOutcome_parseAPIs h₅ ⟨hi.context, hi.domain, hi.resources, hi.subresources⟩
  have hctx : b₃.context = ctx := hi.context
  have hpk : b₃.apisPkg = commonRoot (resourcePackages cl ctx ctx.order) :=
    congrArg APIsBuilder.apisPkg he
  have hun : b₃.unversionedPkgs = ((resourcePackages cl ctx ctx.order).map Filepath.dir).toFinset :=
    congrArg APIsBuilder.unversionedPkgs he
  have hd : b₃.domain = cl.getTag pkg.comments "domain" "=" := congrArg APIsBuilder.domain he
  have hcs : b₃.controllers = [] := congrArg APIsBuilder.controllers he
  rw [hctx] at htagged
  refine ⟨hctx, hroot, hpk, congrArg APIsBuilder.versionedPkgs he, hun,
    ⟨pkg, (congrArg ctx.packages hpk).trans hpkg, hd, hd ▸ hdom⟩, ?_, htagged, ?_,
    hi.subresources, ⟨apis, rfl, hm⟩⟩
  · show b₃.groupNames = _
    rw [hun]
    exact congrArg APIsBuilder.groupNames he
  · show b₃.controllers ++ _ = _
    rw [hcs, hctx]
    rfl

theorem newAPIsBuilder_widget_app :
    ∃ b, newAPIsBuilder widgetAppClassifier widgetApp = .ok b ∧
      b.controllers.map Controller.repo = ["example.com"] := by
  refine ⟨_, rfl, ?_⟩
  rw [(newAPIsBuilder_spec widgetAppClassifier widgetApp _ rfl).controllers]
  decide

/-! ### When a builder is returned -/

/-- What `NewAPIsBuilder` needs of the declarations to return a builder. -/
structure BuilderAccepts (cl : Classifier ι) (ctx : Context ι) : Prop where
  sameRoot : ∀ p ∈ resourcePackages cl ctx ctx.order,
    ∀ q ∈ resourcePackages cl ctx ctx.order, apisRoot p = apisRoot q
  apisPackage : ∃ pkg, ctx.packages (commonRoot (resourcePackages cl ctx ctx.order)) = some pkg ∧
    cl.getTag pkg.comments "domain" "=" ≠ "" ∧
    ∀ c ∈ ctx.order, cl.isAPIResource c = true → ResourceTagged cl (domainBuilder cl ctx pkg) c
  controllersTagged : ∀ c ∈ ctx.order, ControllerTagged cl ctx c
  groupPackages : ∀ g v k c, lastDecl cl cl.isAPIResource ctx.order g v k = some c →
    (ctx.packages (Filepath.dir (ctx.types c).name.package)).isSome = true

/-- **When NewAPIsBuilder returns.** It returns a builder exactly when the API resources
agree on an apis root whose package is in the universe with a `+domain` tag, every
resource declaration has a well-formed `+resource` tag and well-formed, distinct
subresource directives, every controller type a well-formed `+controller` tag, and the
group package of each resource `ParseAPIs` reads is in the universe; otherwise it panics or
exits. -/
theorem newAPIsBuilder_ok_iff [Fintype ι] (cl : Classifier ι) (ctx : Context ι) :
    (∃ b, newAPIsBuilder cl ctx = .ok b) ↔ BuilderAccepts cl ctx := by
  constructor
  · rintro ⟨b, h⟩
    obtain ⟨hroot, pkg, hpkg, hdom, b₃, b₄, h₃, h₄, h₅⟩ := newAPIsBuilder_eq_ok.mp h
    have hi := indexInv_parseIndex h₃
    have hctx : b₃.context = ctx := hi.context
    obtain ⟨htagged, rfl⟩ := (parseControllers_eq_ok cl b₃).mp h₄
    refine ⟨hroot, ⟨pkg, hpkg, hdom, (parseIndex_ok_iff cl _).mp ⟨b₃, h₃⟩⟩,
      by rwa [hctx] at htagged, fun g v k c hc => ?_⟩
    obtain ⟨r, hr, -, -, -, hb⟩ := hi.resources.lookup3_builtFrom hc
    have hgp := (parseAPIs_ok_iff cl _).mp ⟨b, h₅⟩ g v k r hr
    rw [HasGroupPackage, groupPackage, hb.type] at hgp
    rw [← hctx]
    exact hgp
  · rintro ⟨hroot, ⟨pkg, hpkg, hdom, hres⟩, htagged, hgp⟩
    obtain ⟨b₃, h₃⟩ := (parseIndex_ok_iff cl (parseGroupNames (domainBuilder cl ctx pkg))).mpr hres
    have hi := indexInv_parseIndex h₃
    have hctx : b₃.context = ctx := hi.context
    have h₄ := (parseControllers_eq_ok cl b₃).mpr ⟨by rwa [hctx], rfl⟩
    obtain ⟨b, h₅⟩ := (parseAPIs_ok_iff cl { b₃ with controllers := b₃.controllers ++
        (b₃.context.order.filter cl.isController).map (controllerFor cl b₃.context) }).mpr
      fun g v k r hr => by
      obtain ⟨c, hc, hb⟩ := hi.resources.lastDecl_of_lookup3 hr
      show (b₃.context.packages (Filepath.dir (b₃.context.types r.type).name.package)).isSome = true
      rw [hb.type, hctx]
      exact hgp g v k c hc
    exact ⟨b, newAPIsBuilder_eq_ok.mpr ⟨hroot, pkg, hpkg, hdom, b₃, _, h₃, h₄, h₅⟩⟩

/-! ### Declaration order -/

/-- Acceptance carries over to a reordering of the declarations when the API resources have
distinct triples. -/
theorem BuilderAccepts.perm {cl : Classifier ι} {ctx : Context ι} (h : BuilderAccepts cl ctx)
    {order : List ι} (hp : order.Perm ctx.order)
    (huniq : ((ctx.order.filter cl.isAPIResource).map (gvkOf cl)).Nodup) :
    BuilderAccepts cl { ctx with order := order } := by
  obtain ⟨hroot, ⟨pkg, hpkg, hdom, hres⟩, htagged, hgp⟩ := h
  have hpp := resourcePackages_perm cl ctx hp
  exact ⟨fun p hp' q hq => hroot p (hpp.subset hp') q (hpp.subset hq),
    ⟨pkg, (congrArg ctx.packages (commonRoot_perm hpp hroot)).trans hpkg, hdom,
      fun c hc => hres c (hp.subset hc)⟩,
    fun c hc => htagged c (hp.subset hc),
    fun g v k c hc => hgp g v k c ((lastDecl_perm hp huniq g v k).symm.trans hc)⟩

/-- **Declaration order.** When no two API resource declarations share a group, version and
kind, whether `NewAPIsBuilder` returns a builder does not depend on the order the
declarations are visited in. -/
theorem builderAccepts_perm (cl : Classifier ι) (ctx : Context ι) (order : List ι)
    (hp : order.Perm ctx.order)
    (huniq : ((ctx.order.filter cl.isAPIResource).map (gvkOf cl)).Nodup) :
    BuilderAccepts cl { ctx with order := order } ↔ BuilderAccepts cl ctx :=
  ⟨fun h => h.perm hp.symm (((hp.filter _).map _).nodup_iff.mpr huniq), fun h => h.perm hp huniq⟩

theorem builderAccepts_widget_app_reversed :
    BuilderAccepts widgetAppClassifier { widgetApp with order := widgetApp.order.reverse } ↔
      BuilderAccepts widgetAppClassifier widgetApp :=
  builderAccepts_perm widgetAppClassifier widgetApp _ (List.reverse_perm _) (by decide)

/-- The API model of a returned builder answers each triple with the resource built, from the
builder `ParseDomain` returned, for the triple's last declaration. -/
theorem newAPIsBuilder_lookup_eq [Fintype ι] {cl : Classifier ι} {ctx : Context ι}
    {b : APIsBuilder ι} (h : newAPIsBuilder cl ctx = .ok b) :
    ∃ pkg, ctx.packages (commonRoot (resourcePackages cl ctx ctx.order)) = some pkg ∧
      ∃ apis, b.apis = some apis ∧ ∀ g v k, apis.lookup g v k =
        (lastDecl cl cl.isAPIResource ctx.order g v k).bind fun c =>
          (indexResource cl (domainBuilder cl ctx pkg) c).toOption := by
  obtain ⟨-, pkg, hpkg, -, b₃, b₄, h₃, h₄, h₅⟩ := newAPIsBuilder_eq_ok.mp h
  have hi := indexInv_parseIndex h₃
  obtain ⟨-, rfl⟩ := (parseControllers_eq_ok cl b₃).mp h₄
  obtain ⟨apis, rfl, hlookup⟩ := parseAPIs_lookup cl _ _ h₅
  refine ⟨pkg, hpkg, apis, rfl, fun g v k => ?_⟩
  rw [hlookup]
  cases hl : lastDecl cl cl.isAPIResource ctx.order g v k with
  | none => exact hi.resources.absent g v k hl
  | some c =>
    obtain ⟨r, hr, hlk⟩ := hi.resources.present g v k c hl
    have hr' : indexResource cl (domainBuilder cl ctx pkg) c = .ok r :=
      (indexResource_congr cl c rfl rfl).trans hr
    rw [hlk, Option.some_bind, hr']
    rfl

/-- **The model does not depend on the declaration order.** When no two API resource
declarations share a group, version and kind, runs of `NewAPIsBuilder` over the same
declarations in two orders that both return give API models that answer every group,
version and kind alike. -/
theorem newAPIsBuilder_lookup_perm [Fintype ι] (cl : Classifier ι) (ctx : Context ι)
    (order : List ι) (hp : order.Perm ctx.order)
    (huniq : ((ctx.order.filter cl.isAPIResource).map (gvkOf cl)).Nodup) {b b' : APIsBuilder ι}
    (h : newAPIsBuilder cl ctx = .ok b)
    (h' : newAPIsBuilder cl { ctx with order := order } = .ok b') :
    ∃ apis apis', b.apis = some apis ∧ b'.apis = some apis' ∧
      ∀ g v k, apis.lookup g v k = apis'.lookup g v k := by
  obtain ⟨pkg, hpkg, apis, happ, hl⟩ := newAPIsBuilder_lookup_eq h
  obtain ⟨pkg', hpkg', apis', happ', hl'⟩ := newAPIsBuilder_lookup_eq h'
  have hroot := (newAPIsBuilder_eq_ok.mp h).1
  obtain rfl : pkg' = pkg := Option.some.inj (hpkg'.symm.trans
    ((congrArg ctx.packages (commonRoot_perm (resourcePackages_perm cl ctx hp) hroot)).trans hpkg))
  refine ⟨apis, apis', happ, happ', fun g v k => ?_⟩
  rw [hl, hl' g v k]
  show _ = (lastDecl cl cl.isAPIResource order g v k).bind _
  rw [lastDecl_perm hp huniq g v k]
  exact congrArg _ (funext fun c => congrArg Except.toOption (indexResource_congr cl c rfl rfl))

theorem newAPIsBuilder_widget_app_reversed :
    ∃ b b', newAPIsBuilder widgetAppClassifier widgetApp = .ok b ∧
      newAPIsBuilder widgetAppClassifier { widgetApp with order := widgetApp.order.reverse } =
        .ok b' ∧
      ∃ apis apis', b.apis = some apis ∧ b'.apis = some apis' ∧
        ∀ g v k, apis.lookup g v k = apis'.lookup g v k :=
  ⟨_, _, rfl, rfl, newAPIsBuilder_lookup_perm widgetAppClassifier widgetApp _
    (List.reverse_perm _) (by decide) rfl rfl⟩

/-- Two declarations of `core/v1/Widget` in the packages of groups `core` and `other`, whose
group package `other` is missing from the universe. -/
def twinWidgets : Context Bool :=
  ⟨fun t => ⟨⟨if t then "example.com/apis/core/v1" else "example.com/apis/other/v1", "Widget"⟩,
      [], none, []⟩,
    [false, true], fun p => if p = "example.com/apis/other" then none else some ⟨p, []⟩⟩

/-- Without distinct triples the order matters: the group package checked for a triple is
that of its last declaration. -/
example :
    (∃ b, newAPIsBuilder { widgetAppClassifier with
      isAPIResource := fun _ => true, isController := fun _ => false } twinWidgets = .ok b) ∧
    ∃ msg, newAPIsBuilder { widgetAppClassifier with
      isAPIResource := fun _ => true, isController := fun _ => false }
      { twinWidgets with order := [true, false] } = .error (.panic msg) :=
  ⟨⟨_, rfl⟩, ⟨_, rfl⟩⟩

end ApiRegisterGen
