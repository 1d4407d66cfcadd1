import ApiRegisterGen.Builder

/-!
# Why NewAPIsBuilder aborts (parser.go:179-260, 337-370, 483-567)

`NewAPIsBuilder` stops at the first phase that fails, and each phase at the first
declaration it cannot handle. `Diagnosis` names that phase and that declaration, each
phase read on what the phases before it returned, and the abort reported for it: the two
apis roots of the first resource that disagrees, the missing apis package or `+domain`
tag, the first resource with a missing or malformed `+resource` tag or a defective
subresource directive, the first controller with a missing or malformed `+controller`
tag, or the nil dereference of a missing group package.
-/

namespace ApiRegisterGen

variable {ι : Type}

/-- The API resources of `ctx` agree on an apis root. -/
def SameRoot (cl : Classifier ι) (ctx : Context ι) : Prop :=
  ∀ p ∈ resourcePackages cl ctx ctx.order, ∀ q ∈ resourcePackages cl ctx ctx.order,
    apisRoot p = apisRoot q

/-- The phase of `NewAPIsBuilder` that fails on the declarations of `ctx`, with the abort
`e` it reports. -/
inductive Diagnosis (cl : Classifier ι) (ctx : Context ι) (e : Abort) : Prop
  /-- `ParsePackages`: the first API resource whose apis root is not that of the first
  one. -/
  | multipleApis (p : String) (rest : List String) :
      resourcePackages cl ctx ctx.order = p :: rest →
      FirstFailing (fun q => apisRoot q = apisRoot p)
        (fun q => e = .panic (multipleApisMessage (apisRoot p) (apisRoot q))) rest →
      Diagnosis cl ctx e
  /-- `ParseDomain`: the apis package is not in the universe. -/
  | missingApisPackage : SameRoot cl ctx →
      ctx.packages (commonRoot (resourcePackages cl ctx ctx.order)) = none →
      e = .panic "Missing apis package." → Diagnosis cl ctx e
  /-- `ParseDomain`: the apis package has no `+domain=` tag. -/
  | missingDomain (pkg : Package) : SameRoot cl ctx →
      ctx.packages (commonRoot (resourcePackages cl ctx ctx.order)) = some pkg →
      cl.getTag pkg.comments "domain" "=" = "" →
      e = .panic "Could not find string matching // +domain=.+ in apis/doc.go" →
      Diagnosis cl ctx e
  /-- `ParseIndex`: the first API resource whose resource cannot be built. -/
  | resource (pkg : Package) : SameRoot cl ctx →
      ctx.packages (commonRoot (resourcePackages cl ctx ctx.order)) = some pkg →
      cl.getTag pkg.comments "domain" "=" ≠ "" →
      FirstFailing (fun c => cl.isAPIResource c = true → ResourceTagged cl (domainBuilder cl ctx pkg) c)
        (fun c => ResourceDefect cl (domainBuilder cl ctx pkg) c e) ctx.order →
      Diagnosis cl ctx e
  /-- `ParseControllers`: the first controller whose `+controller` tag is missing or
  malformed. -/
  | controller (pkg : Package) : SameRoot cl ctx →
      ctx.packages (commonRoot (resourcePackages cl ctx ctx.order)) = some pkg →
      cl.getTag pkg.comments "domain" "=" ≠ "" →
      (∀ c ∈ ctx.order, cl.isAPIResource c = true → ResourceTagged cl (domainBuilder cl ctx pkg) c) →
      FirstFailing (ControllerTagged cl ctx)
        (fun c => TagDefect "controller" controllerTagMessage cl ctx c e) ctx.order →
      Diagnosis cl ctx e
  /-- `ParseAPIs`: the group package of the last declaration of a triple is not in the
  universe. -/
  | groupPackage (pkg : Package) (g v k : String) (c : ι) : SameRoot cl ctx →
      ctx.packages (commonRoot (resourcePackages cl ctx ctx.order)) = some pkg →
      cl.getTag pkg.comments "domain" "=" ≠ "" →
      (∀ c ∈ ctx.order, cl.isAPIResource c = true → ResourceTagged cl (domainBuilder cl ctx pkg) c) →
      (∀ c ∈ ctx.order, ControllerTagged cl ctx c) →
      lastDecl cl cl.isAPIResource ctx.order g v k = some c →
      ctx.packages (Filepath.dir (ctx.types c).name.package) = none →
      e = .panic nilDereference → Diagnosis cl ctx e

/-- **Why NewAPIsBuilder aborts.** `NewAPIsBuilder` aborts with `e` exactly when `e` is the
abort of the first phase that fails, at the first declaration that phase cannot handle. -/
theorem newAPIsBuilder_eq_error [Fintype ι] (cl : Classifier ι) (ctx : Context ι) (e : Abort) :
    newAPIsBuilder cl ctx = .error e ↔ Diagnosis cl ctx e := by
  constructor
  · intro h
    rcases Except.bind_eq_error.mp h with h₁ | ⟨b₁, h₁, h⟩
    · obtain ⟨p, rest, hp, hf⟩ := (parsePackages_eq_error cl _ rfl e).mp h₁
      exact .multipleApis p rest hp hf
    obtain ⟨hroot, rfl⟩ := parsePackages_ok rfl h₁
    rcases Except.bind_eq_error.mp h with h₂ | ⟨b₂, h₂, h⟩
    · rcases (parseDomain_eq_error cl _ e).mp h₂ with ⟨hnone, he⟩ | ⟨pkg, hpkg, hdom, he⟩
      · exact .missingApisPackage hroot hnone he
      · exact .missingDomain pkg hroot hpkg hdom he
    obtain ⟨pkg, hpkg, hdom, rfl⟩ := parseDomain_ok h₂
    rcases Except.bind_eq_error.mp h with h₃ | ⟨b₃, h₃, h⟩
    · exact .resource pkg hroot hpkg hdom
        ((parseIndex_eq_error cl (parseGroupNames (domainBuilder cl ctx pkg)) e).mp h₃)
    have hres := (parseIndex_ok_iff cl _).mp ⟨b₃, h₃⟩
    have hi := indexInv_parseIndex h₃
    have hctx : b₃.context = ctx := hi.context
    rcases Except.bind_eq_error.mp h with h₄ | ⟨b₄, h₄, h₅⟩
    · have hf := (parseControllers_eq_error cl b₃ e).mp h₄
      rw [hctx] at hf
      exact .controller pkg hroot hpkg hdom hres hf
    obtain ⟨htagged, rfl⟩ := (parseControllers_eq_ok cl b₃).mp h₄
    obtain ⟨⟨g, v, k, r, hr, hno⟩, he⟩ := (parseAPIs_eq_error cl _ e).mp h₅
    obtain ⟨c, hc, hb⟩ := hi.resources.lastDecl_of_lookup3 hr
    rw [HasGroupPackage, groupPackage, hb.type, Option.not_isSome_iff_eq_none] at hno
    rw [hctx] at htagged hno
    exact .groupPackage pkg g v k c hroot hpkg hdom hres htagged hc hno he
  · have hpkgs := (parsePackages_eq cl (APIsBuilder.init ctx) rfl).1
    rintro (⟨p, rest, hp, hf⟩ | ⟨hroot, hnone, he⟩ | ⟨pkg, hroot, hpkg, hdom, he⟩ |
      ⟨pkg, hroot, hpkg, hdom, hf⟩ | ⟨pkg, hroot, hpkg, hdom, hres, hf⟩ |
      ⟨pkg, g, v, k, c, hroot, hpkg, hdom, hres, htagged, hc, hno, he⟩)
    · exact Except.bind_eq_error.mpr (.inl ((parsePackages_eq_error cl _ rfl e).mpr ⟨p, rest, hp, hf⟩))
    · exact Except.bind_eq_error.mpr (.inr ⟨_, hpkgs hroot, Except.bind_eq_error.mpr
        (.inl ((parseDomain_eq_error cl _ e).mpr (.inl ⟨hnone, he⟩)))⟩)
    · exact Except.bind_eq_error.mpr (.inr ⟨_, hpkgs hroot, Except.bind_eq_error.mpr
        (.inl ((parseDomain_eq_error cl _ e).mpr (.inr ⟨pkg, hpkg, hdom, he⟩)))⟩)
    · exact Except.bind_eq_error.mpr (.inr ⟨_, hpkgs hroot, Except.bind_eq_error.mpr
        (.inr ⟨_, parseDomain_of_tag hpkg hdom, Except.bind_eq_error.mpr
          (.inl ((parseIndex_eq_error cl _ e).mpr hf))⟩)⟩)
    all_goals
      obtain ⟨b₃, h₃⟩ := (parseIndex_ok_iff cl (parseGroupNames (domainBuilder cl ctx pkg))).mpr hres
      have hi := indexInv_parseIndex h₃
      have hctx : b₃.context = ctx := hi.context
      refine Except.bind_eq_error.mpr (.inr ⟨_, hpkgs hroot, Except.bind_eq_error.mpr
        (.inr ⟨_, parseDomain_of_tag hpkg hdom, Except.bind_eq_error.mpr
          (.inr ⟨b₃, h₃, Except.bind_eq_error.mpr ?_⟩)⟩)⟩)
    · rw [← hctx] at hf
      exact .inl ((parseControllers_eq_error cl b₃ e).mpr hf)
    · rw [← hctx] at htagged
      obtain ⟨r, hr, -, -, -, hb⟩ := hi.resources.lookup3_builtFrom hc
      refine .inr ⟨_, (parseControllers_eq_ok cl b₃).mpr ⟨htagged, rfl⟩,
        (parseAPIs_eq_error cl _ e).mpr ⟨⟨g, v, k, r, hr, ?_⟩, he⟩⟩
      rw [HasGroupPackage, groupPackage, hb.type, Option.not_isSome_iff_eq_none, hctx]
      exact hno

end ApiRegisterGen
