import Mathlib.Data.Finset.Image
import ApiRegisterGen.Records

/-!
# Packages, domain and group names (parser.go:518-567)

`ParsePackages` collects the package of every API resource and its parent directory, and
takes the grandparent as the apis root; it panics when two resources disagree on that
root. `""` marks the root as not yet set, which is sound because `filepath.Dir` never
returns `""`.
-/

namespace ApiRegisterGen

variable {ι : Type}

/-- The panic text for a second apis root. -/
def multipleApisMessage (apisPkg apis : String) : String :=
  "Found multiple apis directory paths: " ++ apisPkg ++ " and " ++ apis ++ ".  " ++
    "Do you have a +resource tag on a resource that is not in a version directory?"

/-- One declaration of `ParsePackages` (parser.go:536-550). -/
def parsePackagesStep (cl : Classifier ι) (b : APIsBuilder ι) (o : ι) :
    Except Abort (APIsBuilder ι) :=
  if cl.isAPIResource o then
    let versioned := (b.context.types o).name.package
    let unversioned := Filepath.dir versioned
    let b := { b with versionedPkgs := insert versioned b.versionedPkgs,
                      unversionedPkgs := insert unversioned b.unversionedPkgs }
    let apis := Filepath.dir unversioned
    if apis ≠ b.apisPkg ∧ b.apisPkg.length > 0 then
      throw (.panic (multipleApisMessage b.apisPkg apis))
    else pure { b with apisPkg := apis }
  else pure b

/-- `ParsePackages` (parser.go:532-553). -/
def parsePackages (cl : Classifier ι) (b : APIsBuilder ι) : Except Abort (APIsBuilder ι) :=
  b.context.order.foldlM (parsePackagesStep cl) { b with versionedPkgs := ∅, unversionedPkgs := ∅ }

/-- `ParseDomain` (parser.go:556-567): the `+domain=` tag of the apis package. -/
def parseDomain (cl : Classifier ι) (b : APIsBuilder ι) : Except Abort (APIsBuilder ι) :=
  match b.context.packages b.apisPkg with
  | none => throw (.panic "Missing apis package.")
  | some pkg =>
    let domain := cl.getTag pkg.comments "domain" "="
    if domain.length = 0 then
      throw (.panic "Could not find string matching // +domain=.+ in apis/doc.go")
    else pure { b with domain := domain }

/-- `ParseGroupNames` (parser.go:519-529): the base name of every unversioned package that
the universe holds. -/
def parseGroupNames (b : APIsBuilder ι) : APIsBuilder ι :=
  { b with groupNames :=
      (b.unversionedPkgs.filter fun p => (b.context.packages p).isSome).image Filepath.base }

/-! ### The apis root -/

/-- The packages of the API resources among `l`, in order. -/
def resourcePackages (cl : Classifier ι) (ctx : Context ι) (l : List ι) : List String :=
  (l.filter cl.isAPIResource).map fun o => (ctx.types o).name.package

/-- The apis root a package implies: its grandparent directory. -/
def apisRoot (p : String) : String := Filepath.dir (Filepath.dir p)

theorem apisRoot_ne_empty (p : String) : apisRoot p ≠ "" := Filepath.dir_ne_empty _

/-- The builder after recording the packages `ps`. -/
def addPackages (b : APIsBuilder ι) (ps : List String) : APIsBuilder ι :=
  { b with versionedPkgs := b.versionedPkgs ∪ ps.toFinset,
           unversionedPkgs := b.unversionedPkgs ∪ (ps.map Filepath.dir).toFinset }

theorem addPackages_nil (b : APIsBuilder ι) : addPackages b [] = b := by
  simp only [addPackages, List.toFinset_nil, List.map_nil, Finset.union_empty]

theorem addPackages_apisPkg (b : APIsBuilder ι) (ps : List String) (r : String) :
    { addPackages b ps with apisPkg := r } = addPackages { b with apisPkg := r } ps := rfl

theorem addPackages_cons (b : APIsBuilder ι) (p : String) (ps : List String) :
    addPackages b (p :: ps) = addPackages { b with
      versionedPkgs := insert p b.versionedPkgs,
      unversionedPkgs := insert (Filepath.dir p) b.unversionedPkgs } ps := by
  simp only [addPackages, List.toFinset_cons, List.map_cons, Finset.union_insert,
    Finset.insert_union]

theorem parsePackagesStep_skip (cl : Classifier ι) (b : APIsBuilder ι) {o : ι}
    (h : cl.isAPIResource o = false) : parsePackagesStep cl b o = .ok b := by
  simp only [parsePackagesStep, h, Bool.false_eq_true, if_false]; rfl

/-- A resource whose root agrees with the one set, or with none set yet, records its
packages and sets the root. -/
theorem parsePackagesStep_record (cl : Classifier ι) (b : APIsBuilder ι) {o : ι}
    (h : cl.isAPIResource o = true)
    (hroot : b.apisPkg = "" ∨ apisRoot (b.context.types o).name.package = b.apisPkg) :
    parsePackagesStep cl b o = .ok { b with
      versionedPkgs := insert (b.context.types o).name.package b.versionedPkgs,
      unversionedPkgs := insert (Filepath.dir (b.context.types o).name.package) b.unversionedPkgs,
      apisPkg := apisRoot (b.context.types o).name.package } := by
  have hno : ¬(apisRoot (b.context.types o).name.package ≠ b.apisPkg ∧ b.apisPkg.length > 0) := by
    rintro ⟨hne, hlen⟩
    rcases hroot with h0 | heq
    · simp [h0] at hlen
    · exact hne heq
  simp only [apisRoot] at hno ⊢
  simp only [parsePackagesStep, h, if_true]
  rw [if_neg hno]
  rfl

theorem parsePackagesStep_panic (cl : Classifier ι) (b : APIsBuilder ι) {o : ι}
    (h : cl.isAPIResource o = true) (hset : b.apisPkg ≠ "")
    (hne : apisRoot (b.context.types o).name.package ≠ b.apisPkg) :
    parsePackagesStep cl b o =
      .error (.panic (multipleApisMessage b.apisPkg (apisRoot (b.context.types o).name.package))) := by
  have hlen : b.apisPkg.length > 0 :=
    Nat.pos_of_ne_zero (mt Strings.length_eq_zero.mp hset)
  simp only [apisRoot] at hne ⊢
  simp only [parsePackagesStep, h, if_true]
  rw [if_pos ⟨hne, hlen⟩]
  rfl

/-- Once a root is set, the loop panics exactly when a later resource has another root,
and otherwise only adds the packages. -/
theorem foldlM_parsePackagesStep_set (cl : Classifier ι) :
    ∀ (l : List ι) (b : APIsBuilder ι), b.apisPkg ≠ "" →
      ((∀ p ∈ resourcePackages cl b.context l, apisRoot p = b.apisPkg) →
        l.foldlM (parsePackagesStep cl) b = .ok (addPackages b (resourcePackages cl b.context l))) ∧
      ((∃ p ∈ resourcePackages cl b.context l, apisRoot p ≠ b.apisPkg) →
        ∃ msg, l.foldlM (parsePackagesStep cl) b = .error (.panic msg))
  | [], b, _ => ⟨fun _ => (addPackages_nil b).symm ▸ rfl,
      fun ⟨_, hp, _⟩ => absurd hp (List.not_mem_nil _)⟩
  | o :: l, b, hset => by
    rw [List.foldlM_cons]
    cases hr : cl.isAPIResource o
    · rw [parsePackagesStep_skip cl b hr]
      simpa only [resourcePackages, List.filter_cons, hr, Bool.false_eq_true, if_false] using
        foldlM_parsePackagesStep_set cl l b hset
    · simp only [resourcePackages, List.filter_cons, hr, if_true, List.map_cons, List.mem_cons,
        forall_eq_or_imp, exists_eq_or_imp]
      by_cases h0 : apisRoot (b.context.types o).name.package = b.apisPkg
      · rw [parsePackagesStep_record cl b hr (Or.inr h0), h0]
        have ih := foldlM_parsePackagesStep_set cl l { b with
          versionedPkgs := insert (b.context.types o).name.package b.versionedPkgs,
          unversionedPkgs := insert (Filepath.dir (b.context.types o).name.package) b.unversionedPkgs,
          apisPkg := b.apisPkg } hset
        rw [addPackages_cons]
        exact ⟨fun ⟨_, hrest⟩ => ih.1 hrest, fun hbad => ih.2 (hbad.resolve_left (not_not.mpr rfl))⟩
      · rw [parsePackagesStep_panic cl b hr hset h0]
        exact ⟨fun h => absurd h.1 h0, fun _ => ⟨_, rfl⟩⟩

/-- The apis root the packages agree on, `""` when there are none. -/
def commonRoot : List String → String
  | [] => ""
  | p :: _ => apisRoot p

theorem commonRoot_cons (p : String) (ps : List String) : commonRoot (p :: ps) = apisRoot p := rfl

theorem commonRoot_eq {ps : List String} (hall : ∀ p ∈ ps, ∀ q ∈ ps, apisRoot p = apisRoot q)
    {p : String} (hp : p ∈ ps) : commonRoot ps = apisRoot p := by
  cases ps with
  | nil => exact absurd hp (List.not_mem_nil p)
  | cons q _ => exact hall q (List.mem_cons_self q _) p hp

theorem resourcePackages_perm (cl : Classifier ι) (ctx : Context ι) {l l' : List ι}
    (hp : l'.Perm l) : (resourcePackages cl ctx l').Perm (resourcePackages cl ctx l) :=
  (hp.filter _).map _

/-- Packages that agree on a root have it as their common root in every order. -/
theorem commonRoot_perm {ps ps' : List String} (hp : ps'.Perm ps)
    (hall : ∀ p ∈ ps, ∀ q ∈ ps, apisRoot p = apisRoot q) : commonRoot ps' = commonRoot ps := by
  cases ps' with
  | nil => rw [List.nil_perm.mp hp]
  | cons p _ => rw [commonRoot_cons, commonRoot_eq hall (hp.subset (List.mem_cons_self p _))]

/-- Before a root is set, the loop panics exactly when two resources have different
roots, and otherwise records every package and sets their common root. -/
theorem foldlM_parsePackagesStep_unset (cl : Classifier ι) :
    ∀ (l : List ι) (b : APIsBuilder ι), b.apisPkg = "" →
      ((∀ p ∈ resourcePackages cl b.context l, ∀ q ∈ resourcePackages cl b.context l,
          apisRoot p = apisRoot q) →
        l.foldlM (parsePackagesStep cl) b =
          .ok { addPackages b (resourcePackages cl b.context l) with
            apisPkg := commonRoot (resourcePackages cl b.context l) }) ∧
      ((∃ p ∈ resourcePackages cl b.context l, ∃ q ∈ resourcePackages cl b.context l,
          apisRoot p ≠ apisRoot q) →
        ∃ msg, l.foldlM (parsePackagesStep cl) b = .error (.panic msg))
  | [], b, hb => ⟨fun _ => by
        show _ = .ok { addPackages b [] with apisPkg := commonRoot [] }
        rw [addPackages_nil]; cases b; subst hb; rfl,
      fun ⟨_, hp, _⟩ => absurd hp (List.not_mem_nil _)⟩
  | o :: l, b, hb => by
    rw [List.foldlM_cons]
    cases hr : cl.isAPIResource o
    · rw [parsePackagesStep_skip cl b hr]
      simpa only [resourcePackages, List.filter_cons, hr, Bool.false_eq_true, if_false] using
        foldlM_parsePackagesStep_unset cl l b hb
    · rw [parsePackagesStep_record cl b hr (Or.inl hb)]
      have hset := foldlM_parsePackagesStep_set cl l { b with
          versionedPkgs := insert (b.context.types o).name.package b.versionedPkgs,
          unversionedPkgs := insert (Filepath.dir (b.context.types o).name.package) b.unversionedPkgs,
          apisPkg := apisRoot (b.context.types o).name.package }
        (by dsimp only; exact apisRoot_ne_empty _)
      simp only [resourcePackages, List.filter_cons, hr, if_true, List.map_cons] at hset ⊢
      generalize (b.context.types o).name.package = p at hset ⊢
      generalize (List.filter cl.isAPIResource l).map (fun o => (b.context.types o).name.package)
        = rest at hset ⊢
      have hfirst : (∀ q ∈ rest, apisRoot q = apisRoot p) →
          ∀ x ∈ p :: rest, apisRoot x = apisRoot p := fun h x hx =>
        (List.mem_cons.mp hx).elim (fun hxp => hxp ▸ rfl) (h x)
      refine ⟨fun hall => ?_, fun ⟨x, hx, y, hy, hne⟩ => hset.2 ?_⟩
      · rw [addPackages_cons, addPackages_apisPkg, commonRoot_cons]
        exact hset.1 fun q hq => hall q (List.mem_cons_of_mem p hq) p (List.mem_cons_self p rest)
      · by_contra hc
        push_neg at hc
        exact hne ((hfirst hc x hx).trans (hfirst hc y hy).symm)

/-- `ParsePackages` from an unset root: a panic when two resources have different roots,
and otherwise the packages, their parent directories and the common root. -/
theorem parsePackages_eq (cl : Classifier ι) (b : APIsBuilder ι) (hb : b.apisPkg = "") :
    ((∀ p ∈ resourcePackages cl b.context b.context.order,
        ∀ q ∈ resourcePackages cl b.context b.context.order, apisRoot p = apisRoot q) →
      parsePackages cl b = .ok { b with
        versionedPkgs := (resourcePackages cl b.context b.context.order).toFinset,
        unversionedPkgs := ((resourcePackages cl b.context b.context.order).map Filepath.dir).toFinset,
        apisPkg := commonRoot (resourcePackages cl b.context b.context.order) }) ∧
    ((∃ p ∈ resourcePackages cl b.context b.context.order,
        ∃ q ∈ resourcePackages cl b.context b.context.order, apisRoot p ≠ apisRoot q) →
      ∃ msg, parsePackages cl b = .error (.panic msg)) := by
  have h := foldlM_parsePackagesStep_unset cl b.context.order
    { b with versionedPkgs := ∅, unversionedPkgs := ∅ } hb
  simp only [addPackages, Finset.empty_union] at h
  exact h

/-- A completed run from an unset root: the API resources agree on a root, and the
packages, their parent directories and that root are set. -/
theorem parsePackages_ok {cl : Classifier ι} {b b' : APIsBuilder ι} (hb : b.apisPkg = "")
    (h : parsePackages cl b = .ok b') :
    (∀ p ∈ resourcePackages cl b.context b.context.order,
        ∀ q ∈ resourcePackages cl b.context b.context.order, apisRoot p = apisRoot q) ∧
      b' = { b with
        versionedPkgs := (resourcePackages cl b.context b.context.order).toFinset,
        unversionedPkgs := ((resourcePackages cl b.context b.context.order).map Filepath.dir).toFinset,
        apisPkg := commonRoot (resourcePackages cl b.context b.context.order) } := by
  have hall : ∀ p ∈ resourcePackages cl b.context b.context.order,
      ∀ q ∈ resourcePackages cl b.context b.context.order, apisRoot p = apisRoot q := by
    by_contra hc
    push_neg at hc
    obtain ⟨msg, hmsg⟩ := (parsePackages_eq cl b hb).2 hc
    exact nomatch h.symm.trans hmsg
  exact ⟨hall, Except.ok.inj (h.symm.trans ((parsePackages_eq cl b hb).1 hall))⟩

/-- A completed `ParseDomain` found the apis package and a non-empty `+domain` tag in its
comments, and set nothing else. -/
theorem parseDomain_ok {cl : Classifier ι} {b b' : APIsBuilder ι} (h : parseDomain cl b = .ok b') :
    ∃ pkg, b.context.packages b.apisPkg = some pkg ∧ cl.getTag pkg.comments "domain" "=" ≠ "" ∧
      b' = { b with domain := cl.getTag pkg.comments "domain" "=" } := by
  unfold parseDomain at h
  split at h
  · exact nomatch h
  · rename_i pkg hpkg
    by_cases hd : cl.getTag pkg.comments "domain" "=" = ""
    · rw [if_pos (Strings.length_eq_zero.mpr hd)] at h
      exact nomatch h
    · rw [if_neg (mt Strings.length_eq_zero.mp hd)] at h
      exact ⟨pkg, hpkg, hd, (Except.ok.inj h).symm⟩

theorem parseDomain_of_tag {cl : Classifier ι} {b : APIsBuilder ι} {pkg : Package}
    (hpkg : b.context.packages b.apisPkg = some pkg) (hd : cl.getTag pkg.comments "domain" "=" ≠ "") :
    parseDomain cl b = .ok { b with domain := cl.getTag pkg.comments "domain" "=" } := by
  simp only [parseDomain, hpkg]
  rw [if_neg (mt Strings.length_eq_zero.mp hd)]
  rfl

/-- From an unset root, `ParsePackages` panics exactly when two API resources have
different grandparent directories; otherwise it sets the versioned packages, their
parent directories and the common root, and changes nothing else. -/
theorem parsePackages_apis_root (cl : Classifier ι) (b : APIsBuilder ι) (hb : b.apisPkg = "") :
    ((∃ msg, parsePackages cl b = .error (.panic msg)) ↔
      ∃ p ∈ resourcePackages cl b.context b.context.order,
        ∃ q ∈ resourcePackages cl b.context b.context.order, apisRoot p ≠ apisRoot q) ∧
    ((∀ p ∈ resourcePackages cl b.context b.context.order,
        ∀ q ∈ resourcePackages cl b.context b.context.order, apisRoot p = apisRoot q) →
      parsePackages cl b = .ok { b with
        versionedPkgs := (resourcePackages cl b.context b.context.order).toFinset,
        unversionedPkgs := ((resourcePackages cl b.context b.context.order).map Filepath.dir).toFinset,
        apisPkg := commonRoot (resourcePackages cl b.context b.context.order) }) := by
  have h := parsePackages_eq cl b hb
  refine ⟨⟨fun ⟨msg, hmsg⟩ => ?_, h.2⟩, h.1⟩
  by_contra hc
  push_neg at hc
  exact nomatch hmsg.symm.trans (h.1 hc)

/-! ### Which resource aborts -/

/-- Once a root is set, the loop aborts at the first API resource with another root, naming
both roots. -/
theorem foldlM_parsePackagesStep_set_eq_error (cl : Classifier ι) (l : List ι)
    (b : APIsBuilder ι) (hset : b.apisPkg ≠ "") (e : Abort) :
    l.foldlM (parsePackagesStep cl) b = .error e ↔
      FirstFailing (fun p => apisRoot p = b.apisPkg)
        (fun p => e = .panic (multipleApisMessage b.apisPkg (apisRoot p)))
        (resourcePackages cl b.context l) := by
  rw [resourcePackages, firstFailing_filter_map]
  refine foldlM_eq_error_iff (fun s => s.apisPkg = b.apisPkg ∧ s.context = b.context)
    (fun o => cl.isAPIResource o = true → apisRoot (b.context.types o).name.package = b.apisPkg)
    (fun o e => e = .panic (multipleApisMessage b.apisPkg
      (apisRoot (b.context.types o).name.package)))
    (fun s o hs ho => ?_) (fun s o e hs ho => ?_) (fun _ _ => ⟨_, rfl⟩) l b ⟨rfl, rfl⟩ e
  · cases hr : cl.isAPIResource o
    · exact ⟨s, parsePackagesStep_skip cl s hr, hs⟩
    · rw [parsePackagesStep_record cl s hr (.inr (by rw [hs.1, hs.2]; exact ho hr))]
      exact ⟨_, rfl, by dsimp only; rw [hs.2]; exact ho hr, hs.2⟩
  · obtain ⟨hr, hne⟩ := Classical.not_imp.mp ho
    rw [parsePackagesStep_panic cl s hr (hs.1 ▸ hset) (by rw [hs.1, hs.2]; exact hne), hs.1, hs.2,
      Except.error.injEq, eq_comm]

theorem foldlM_parsePackagesStep_unset_eq_error (cl : Classifier ι) (e : Abort) :
    ∀ (l : List ι) (b : APIsBuilder ι), b.apisPkg = "" →
      (l.foldlM (parsePackagesStep cl) b = .error e ↔
        ∃ p rest, resourcePackages cl b.context l = p :: rest ∧
          FirstFailing (fun q => apisRoot q = apisRoot p)
            (fun q => e = .panic (multipleApisMessage (apisRoot p) (apisRoot q))) rest)
  | [], _, _ => iff_of_false (fun h => nomatch h) fun ⟨_, _, h, _⟩ => nomatch h
  | o :: l, b, hb => by
    rw [List.foldlM_cons]
    cases hr : cl.isAPIResource o
    · rw [parsePackagesStep_skip cl b hr]
      simpa only [resourcePackages, List.filter_cons, hr, Bool.false_eq_true, if_false] using
        foldlM_parsePackagesStep_unset_eq_error cl e l b hb
    · rw [parsePackagesStep_record cl b hr (.inl hb)]
      refine (foldlM_parsePackagesStep_set_eq_error cl l _
        (by dsimp only; exact apisRoot_ne_empty _) e).trans ?_
      simp only [resourcePackages, List.filter_cons, hr, if_true, List.map_cons, List.cons.injEq]
      exact ⟨fun h => ⟨_, _, ⟨rfl, rfl⟩, h⟩, fun ⟨_, _, ⟨hp, hrest⟩, h⟩ => hp ▸ hrest ▸ h⟩

/-- The abort of `ParsePackages` from an unset root: the panic at the first API resource
whose grandparent directory differs from that of the first API resource, naming both. -/
theorem parsePackages_eq_error (cl : Classifier ι) (b : APIsBuilder ι) (hb : b.apisPkg = "")
    (e : Abort) :
    parsePackages cl b = .error e ↔
      ∃ p rest, resourcePackages cl b.context b.context.order = p :: rest ∧
        FirstFailing (fun q => apisRoot q = apisRoot p)
          (fun q => e = .panic (multipleApisMessage (apisRoot p) (apisRoot q))) rest :=
  foldlM_parsePackagesStep_unset_eq_error cl e _ _ hb

/-- `ParseDomain` panics when the universe lacks the apis package, and when the package's
comments carry no `+domain=` tag. -/
theorem parseDomain_eq_error (cl : Classifier ι) (b : APIsBuilder ι) (e : Abort) :
    parseDomain cl b = .error e ↔
      b.context.packages b.apisPkg = none ∧ e = .panic "Missing apis package." ∨
        ∃ pkg, b.context.packages b.apisPkg = some pkg ∧ cl.getTag pkg.comments "domain" "=" = "" ∧
          e = .panic "Could not find string matching // +domain=.+ in apis/doc.go" := by
  unfold parseDomain
  cases hpkg : b.context.packages b.apisPkg with
  | none => simp [throw, throwThe, MonadExceptOf.throw, eq_comm]
  | some pkg =>
    by_cases hd : cl.getTag pkg.comments "domain" "=" = ""
    · simp [Strings.length_eq_zero.mpr hd, hd, throw, throwThe, MonadExceptOf.throw, eq_comm]
    · simp [mt Strings.length_eq_zero.mp hd, hd, pure, Except.pure]

/-- Two resources, versions `v1` and `v2` of one group. -/
def coreVersions : Context Bool :=
  ⟨fun v => ⟨⟨if v then "example.com/apis/core/v1" else "example.com/apis/core/v2", "Widget"⟩,
    [], none, []⟩, [true, false], fun _ => none⟩

theorem parsePackages_core_versions :
    (APIsBuilder.init coreVersions).apisPkg = "" ∧
      (parsePackages { (default : Classifier Bool) with isAPIResource := fun _ => true }
        (APIsBuilder.init coreVersions)).toOption.map APIsBuilder.apisPkg =
        some "example.com/apis" := by
  refine ⟨rfl, ?_⟩
  rw [(parsePackages_apis_root { (default : Classifier Bool) with isAPIResource := fun _ => true }
    (APIsBuilder.init coreVersions) rfl).2 (by decide)]
  decide

end ApiRegisterGen
