import ApiRegisterGen.Index
import ApiRegisterGen.Worklist

/-!
# Assembling the API model (parser.go:206-260)

`ParseAPIs` walks the index `ByGroupVersionKind`, group by group and version by version.
Each group gets an `APIGroup`, each version an `APIVersion` holding a copy of every
resource of the version, and the group's `UnversionedResources` collects the resources of
all its versions by kind, the last version visited winning. Looking up the package of a
resource's parent directory dereferences a nil `*types.Package` when the universe does
not hold it, which panics. The groups then go through `ParseStructs`.

Go visits a map in an unspecified order; a `GoMap` is visited in the order of its
entries, and every result below holds whatever that order is.
-/

namespace ApiRegisterGen

variable {ι : Type}

/-! ### A run of inserts -/

/-- The map after inserting the entries of `l` in order. -/
def insertEntries {V : Type} (m : GoMap V) (l : List (Σ _ : String, V)) : GoMap V :=
  l.foldl (fun m e => m.insert e.1 e.2) m

theorem insertEntries_append_singleton {V : Type} (m : GoMap V) (l : List (Σ _ : String, V))
    (e : Σ _ : String, V) : insertEntries m (l ++ [e]) = (insertEntries m l).insert e.1 e.2 := by
  simp only [insertEntries, List.foldl_append, List.foldl_cons, List.foldl_nil]

/-- The last insert of a key wins; keys never inserted keep their value. -/
theorem lookup_insertEntries {V : Type} (l : List (Σ _ : String, V)) :
    ∀ (m : GoMap V) (k : String), (insertEntries m l).lookup k = (l.reverse.dlookup k).or (m.lookup k) := by
  induction l with
  | nil => intro m k; rfl
  | cons e l ih =>
    intro m k
    obtain ⟨a, v⟩ := e
    show (insertEntries (m.insert a v) l).lookup k = _
    rw [ih, List.reverse_cons, List.dlookup_append, Option.or_assoc, GoMap.lookup_insert_eq]
    by_cases hk : k = a
    · subst hk
      rw [if_pos rfl, List.dlookup_cons_eq]
      rfl
    · rw [if_neg hk, List.dlookup_cons_ne _ _ hk]
      rfl

/-- Inserting every entry of a map into an empty one gives back its lookups. -/
theorem lookup_insertEntries_entries {V : Type} (m : GoMap V) (k : String) :
    (insertEntries ∅ m.entries).lookup k = m.lookup k := by
  rw [lookup_insertEntries, AList.lookup_empty, Option.or_none]
  exact List.perm_dlookup k ((List.perm_nodupKeys (List.reverse_perm _)).mpr m.nodupKeys)
    m.nodupKeys (List.reverse_perm _)

theorem lookup_insertEntries_isSome {V : Type} (m : GoMap V) (l : List (Σ _ : String, V))
    (k : String) :
    ((insertEntries m l).lookup k).isSome ↔ (m.lookup k).isSome ∨ ∃ e ∈ l, e.1 = k := by
  rw [lookup_insertEntries]
  cases h : l.reverse.dlookup k with
  | none =>
    rw [List.dlookup_eq_none, List.keys, List.map_reverse, List.mem_reverse, List.mem_map] at h
    simp only [Option.none_or, Option.isSome_none, h, or_false]
  | some v =>
    have hk : k ∈ l.keys := by
      rw [List.keys, ← List.mem_reverse, ← List.map_reverse, ← List.keys, ← List.dlookup_isSome, h]
      rfl
    rw [List.keys, List.mem_map] at hk
    simp only [Option.or_some, Option.isSome_some, true_iff]
    exact .inr hk

theorem mem_of_lookup_insertEntries {V : Type} {m : GoMap V} {l : List (Σ _ : String, V)}
    {k : String} {v : V} (h : (insertEntries m l).lookup k = some v) :
    m.lookup k = some v ∨ ⟨k, v⟩ ∈ l := by
  rw [lookup_insertEntries] at h
  cases hl : l.reverse.dlookup k with
  | none => rw [hl, Option.none_or] at h; exact .inl h
  | some w =>
    rw [hl, Option.or_some] at h
    cases h
    exact .inr (List.mem_reverse.mp (List.of_mem_dlookup hl))

/-! ### The model -/

/-- The copy of an index entry `ParseAPIs` stores (parser.go:232-244). -/
def copyResource (r : APIResource ι) : APIResource ι :=
  { domain := r.domain, version := r.version, group := r.group, resource := r.resource,
    type := r.type, rest := r.rest, kind := r.kind, subresources := r.subresources,
    statusStrategy := r.statusStrategy, strategy := r.strategy, nonNamespaced := r.nonNamespaced }

/-- The text of Go's nil-pointer panic. -/
def nilDereference : String := "runtime error: invalid memory address or nil pointer dereference"

/-- One resource of a version (parser.go:231-253): the group and the version, updated;
`apiGroup.Pkg.Path` panics when the parent package is not in the universe. -/
def parseAPIsResource (ctx : Context ι) (acc : APIGroup ι × APIVersion ι)
    (e : Σ _ : String, APIResource ι) : Except Abort (APIGroup ι × APIVersion ι) :=
  let kind := e.1
  let apiResource := copyResource e.2
  let apiVersion := { acc.2 with resources := acc.2.resources.insert kind apiResource,
                                 pkg := ctx.packages (ctx.types e.2.type).name.package }
  match ctx.packages (Filepath.dir (ctx.types e.2.type).name.package) with
  | none => throw (.panic nilDereference)
  | some pkg =>
    let apiGroup :=
      { acc.1 with pkg := some pkg, pkgPath := pkg.path,
                   unversionedResources := acc.1.unversionedResources.insert kind apiResource }
    pure (apiGroup, apiVersion)

/-- One version of a group (parser.go:224-256). -/
def parseAPIsVersion (b : APIsBuilder ι) (group : String) (apiGroup : APIGroup ι)
    (e : Σ _ : String, GoMap (APIResource ι)) : Except Abort (APIGroup ι) := do
  let apiVersion : APIVersion ι :=
    { domain := b.domain, group := group, version := e.1, resources := ∅, pkg := none }
  let acc ← e.2.entries.foldlM (parseAPIsResource b.context) (apiGroup, apiVersion)
  pure { acc.1 with versions := acc.1.versions.insert e.1 acc.2 }

/-- The `APIGroup` of one group of the index, its structs flattened (parser.go:214-258). -/
def parseAPIsGroup [Fintype ι] (cl : Classifier ι) (b : APIsBuilder ι)
    (e : Σ _ : String, GoMap (GoMap (APIResource ι))) : Except Abort (APIGroup ι) := do
  let apiGroup : APIGroup ι :=
    { package := "", domain := b.domain, group := e.1,
      groupTitle := Strings.title cl.titleCase e.1, versions := ∅, unversionedResources := ∅,
      structs := [], pkg := none, pkgPath := "" }
  let apiGroup ← e.2.entries.foldlM (parseAPIsVersion b e.1) apiGroup
  pure (parseStructs cl b apiGroup)

/-- Filing one group of the index (parser.go:213-259). -/
def parseAPIsGroupStep [Fintype ι] (cl : Classifier ι) (b : APIsBuilder ι)
    (groups : GoMap (APIGroup ι)) (e : Σ _ : String, GoMap (GoMap (APIResource ι))) :
    Except Abort (GoMap (APIGroup ι)) := do
  let apiGroup ← parseAPIsGroup cl b e
  pure (groups.insert e.1 apiGroup)

/-- `APIsBuilder.ParseAPIs` (parser.go:206-260). -/
def parseAPIs [Fintype ι] (cl : Classifier ι) (b : APIsBuilder ι) :
    Except Abort (APIsBuilder ι) := do
  let groups ← b.byGroupVersionKind.entries.foldlM (parseAPIsGroupStep cl b) ∅
  pure { b with apis := some { domain := b.domain, package := b.apisPkg,
                               pkg := b.context.packages b.apisPkg, groups := groups } }

/-! ### One version -/

theorem copyResource_eq (r : APIResource ι) : copyResource r = r := rfl

/-- The package `ParseAPIs` takes as a resource's group package: the parent directory of its
type's package. -/
def groupPackage (ctx : Context ι) (r : APIResource ι) : String :=
  Filepath.dir (ctx.types r.type).name.package

/-- Everything one resource step can do: fail when the group package is not in the
universe, and otherwise file the resource in the version and in the group's unversioned
resources and set both packages. -/
theorem parseAPIsResource_eq_ok {ctx : Context ι} {acc acc' : APIGroup ι × APIVersion ι}
    {e : Σ _ : String, APIResource ι} :
    parseAPIsResource ctx acc e = .ok acc' ↔ ∃ p, ctx.packages (groupPackage ctx e.2) = some p ∧
      acc' = ({ acc.1 with pkg := some p, pkgPath := p.path,
                           unversionedResources := acc.1.unversionedResources.insert e.1 e.2 },
              { acc.2 with resources := acc.2.resources.insert e.1 e.2,
                           pkg := ctx.packages (ctx.types e.2.type).name.package }) := by
  unfold parseAPIsResource groupPackage
  split
  · rename_i hn
    exact iff_of_false (fun h => nomatch h) fun ⟨p, hp, _⟩ => nomatch hp.symm.trans hn
  · rename_i p hp
    refine ⟨fun h => ⟨p, hp, (Except.ok.inj h).symm⟩, ?_⟩
    rintro ⟨p', hp', rfl⟩
    cases hp.symm.trans hp'
    rfl

/-- The resource loop of a version inserts its entries into the version's resources and
the group's unversioned resources, and changes nothing else of either that is read. -/
theorem foldlM_parseAPIsResource (ctx : Context ι) (l : List (Σ _ : String, APIResource ι))
    (acc acc' : APIGroup ι × APIVersion ι)
    (h : l.foldlM (parseAPIsResource ctx) acc = .ok acc') :
    acc'.1.group = acc.1.group ∧ acc'.1.versions = acc.1.versions ∧
      acc'.1.unversionedResources = insertEntries acc.1.unversionedResources l ∧
      acc'.2.group = acc.2.group ∧ acc'.2.version = acc.2.version ∧
      acc'.2.resources = insertEntries acc.2.resources l := by
  refine foldlM_ok_induction (fun pre (a : APIGroup ι × APIVersion ι) =>
      a.1.group = acc.1.group ∧ a.1.versions = acc.1.versions ∧
      a.1.unversionedResources = insertEntries acc.1.unversionedResources pre ∧
      a.2.group = acc.2.group ∧ a.2.version = acc.2.version ∧
      a.2.resources = insertEntries acc.2.resources pre)
    (fun pre e a a' ha hs => ?_) l [] acc acc' ⟨rfl, rfl, rfl, rfl, rfl, rfl⟩ h
  obtain ⟨-, -, rfl⟩ := parseAPIsResource_eq_ok.mp hs
  obtain ⟨h1, h2, h3, h4, h5, h6⟩ := ha
  exact ⟨h1, h2, by rw [insertEntries_append_singleton, h3], h4, h5,
    by rw [insertEntries_append_singleton, h6]⟩

/-- What the version loop of a group has built after the versions `pre`, from a group
with no versions and no unversioned resources. -/
structure VersionsInv (g : String) (pre : List (Σ _ : String, GoMap (APIResource ι)))
    (ag : APIGroup ι) : Prop where
  group : ag.group = g
  versions : ∀ v, (ag.versions.lookup v).isSome ↔ ∃ e ∈ pre, e.1 = v
  version : ∀ v av, ag.versions.lookup v = some av →
    av.group = g ∧ av.version = v ∧ ∃ km, ⟨v, km⟩ ∈ pre ∧ ∀ k, av.resources.lookup k = km.lookup k
  unversionedKeys : ∀ k, (ag.unversionedResources.lookup k).isSome ↔
    ∃ e ∈ pre, (e.2.lookup k).isSome
  unversioned : ∀ k r, ag.unversionedResources.lookup k = some r →
    ∃ e ∈ pre, e.2.lookup k = some r

theorem versionsInv_step (b : APIsBuilder ι) {g : String}
    {pre : List (Σ _ : String, GoMap (APIResource ι))} {ag ag' : APIGroup ι}
    {e : Σ _ : String, GoMap (APIResource ι)} (h : VersionsInv g pre ag)
    (hs : parseAPIsVersion b g ag e = .ok ag') : VersionsInv g (pre ++ [e]) ag' := by
  obtain ⟨acc, hacc, hs⟩ := Except.bind_eq_ok.mp hs
  cases hs
  obtain ⟨hg, hv, hu, hvg, hvv, hr⟩ := foldlM_parseAPIsResource _ _ _ _ hacc
  have hmem : ∀ {x : Σ _ : String, GoMap (APIResource ι)}, x ∈ pre ++ [e] ↔ x ∈ pre ∨ x = e := by
    simp only [List.mem_append, List.mem_singleton, implies_true]
  refine ⟨hg.trans h.group, fun v => ?_, fun v av hav => ?_, fun k => ?_, fun k r hr' => ?_⟩
  · rw [hv]
    exact GoMap.lookup_isSome_insert_snoc h.versions e _ v
  · rcases GoMap.lookup_insert_eq_some.mp hav with ⟨rfl, rfl⟩ | ⟨-, hav⟩
    · exact ⟨hvg, hvv, e.2, hmem.mpr (.inr rfl), fun k => by
        rw [hr]; exact lookup_insertEntries_entries e.2 k⟩
    · rw [hv] at hav
      obtain ⟨h1, h2, km, hkm, hk⟩ := h.version v av hav
      exact ⟨h1, h2, km, hmem.mpr (.inl hkm), hk⟩
  · rw [hu, lookup_insertEntries_isSome, h.unversionedKeys]
    simp only [hmem, or_and_right, exists_or, exists_eq_left, AList.lookup_isSome, AList.mem_keys,
      AList.keys, List.keys, List.mem_map]
  · rw [hu] at hr'
    rcases mem_of_lookup_insertEntries hr' with hr' | hr'
    · obtain ⟨x, hx, hxk⟩ := h.unversioned k r hr'
      exact ⟨x, hmem.mpr (.inl hx), hxk⟩
    · exact ⟨e, hmem.mpr (.inr rfl), AList.mem_lookup_iff.mpr hr'⟩

/-! ### Groups -/

theorem versionsInv_parseAPIsGroup [Fintype ι] (cl : Classifier ι) (b : APIsBuilder ι)
    {e : Σ _ : String, GoMap (GoMap (APIResource ι))} {ag : APIGroup ι}
    (h : parseAPIsGroup cl b e = .ok ag) : VersionsInv e.1 e.2.entries ag := by
  obtain ⟨ag₀, hfold, hs⟩ := Except.bind_eq_ok.mp h
  cases hs
  have hv := foldlM_ok_induction (VersionsInv e.1) (fun _ _ _ _ ha hs => versionsInv_step b ha hs)
    e.2.entries [] _ ag₀
    ⟨rfl, fun _ => by simp, fun _ _ h => by simp at h, fun _ => by simp, fun _ _ h => by simp at h⟩
    hfold
  exact ⟨hv.group, hv.versions, hv.version, hv.unversionedKeys, hv.unversioned⟩

/-- The groups `ParseAPIs` has built after the index entries `pre`. -/
def GroupsInv [Fintype ι] (cl : Classifier ι) (b : APIsBuilder ι)
    (pre : List (Σ _ : String, GoMap (GoMap (APIResource ι)))) (groups : GoMap (APIGroup ι)) :
    Prop :=
  (∀ g, (groups.lookup g).isSome ↔ ∃ e ∈ pre, e.1 = g) ∧
    ∀ g ag, groups.lookup g = some ag → ∃ vm, ⟨g, vm⟩ ∈ pre ∧ parseAPIsGroup cl b ⟨g, vm⟩ = .ok ag

theorem groupsInv_parseAPIs [Fintype ι] (cl : Classifier ι) (b : APIsBuilder ι)
    {groups : GoMap (APIGroup ι)}
    (h : b.byGroupVersionKind.entries.foldlM (parseAPIsGroupStep cl b) ∅ = .ok groups) :
    GroupsInv cl b b.byGroupVersionKind.entries groups := by
  refine foldlM_ok_induction (GroupsInv cl b) (fun pre e gs gs' hi hs => ?_) _ [] ∅ groups
    ⟨fun _ => by simp, fun _ _ h => by simp at h⟩ h
  obtain ⟨ag, hag, hs⟩ := Except.bind_eq_ok.mp hs
  cases hs
  refine ⟨GoMap.lookup_isSome_insert_snoc hi.1 e ag, fun g ag' hg => ?_⟩
  rcases GoMap.lookup_insert_eq_some.mp hg with ⟨rfl, rfl⟩ | ⟨-, hg⟩
  · exact ⟨e.2, List.mem_append_right _ (List.mem_singleton_self e), hag⟩
  · obtain ⟨vm, hvm, hp⟩ := hi.2 g ag' hg
    exact ⟨vm, List.mem_append_left _ hvm, hp⟩

/-- The version loop of a group keeps its title: each step rebuilds the group from itself. -/
theorem foldlM_parseAPIsVersion_groupTitle (b : APIsBuilder ι) (g : String)
    (l : List (Σ _ : String, GoMap (APIResource ι))) {ag ag' : APIGroup ι}
    (h : l.foldlM (parseAPIsVersion b g) ag = .ok ag') : ag'.groupTitle = ag.groupTitle := by
  refine foldlM_ok_induction (fun _ a => a.groupTitle = ag.groupTitle)
    (fun _ _ a a' ha hs => ?_) l [] ag ag' rfl h
  obtain ⟨acc, hacc, hs⟩ := Except.bind_eq_ok.mp hs
  cases hs
  refine (foldlM_ok_induction (fun _ (x : APIGroup ι × APIVersion ι) => x.1.groupTitle = a.groupTitle)
    (fun _ _ _ _ hx hs => ?_) _ [] _ acc rfl hacc).trans ha
  obtain ⟨-, -, rfl⟩ := parseAPIsResource_eq_ok.mp hs
  exact hx

/-- Every group of the assembled model is titled `strings.Title` of its name, with the
classifier's case tables (`Strings.title_alphanum`: a name of ASCII letters and digits has
its first letter upper-cased, whatever the tables). -/
theorem parseAPIs_groupTitle [Fintype ι] (cl : Classifier ι) (b b' : APIsBuilder ι)
    (h : parseAPIs cl b = .ok b') :
    ∃ apis, b'.apis = some apis ∧ ∀ g ag, apis.groups.lookup g = some ag →
      ag.groupTitle = Strings.title cl.titleCase g := by
  obtain ⟨groups, hgroups, hs⟩ := Except.bind_eq_ok.mp h
  cases hs
  refine ⟨_, rfl, fun g ag hag => ?_⟩
  obtain ⟨vm, -, hp⟩ := (groupsInv_parseAPIs cl b hgroups).2 g ag hag
  obtain ⟨ag₀, hfold, hs⟩ := Except.bind_eq_ok.mp hp
  cases hs
  exact foldlM_parseAPIsVersion_groupTitle b g vm.entries hfold

section Lookup

variable {g v : String} {vm : GoMap (GoMap (APIResource ι))} {km : GoMap (APIResource ι)}
  {ag : APIGroup ι}

theorem VersionsInv.lookup_some (hv : VersionsInv g vm.entries ag) (hkm : vm.lookup v = some km) :
    ∃ av, ag.versions.lookup v = some av ∧ av.group = g ∧ av.version = v ∧
      ∀ k, av.resources.lookup k = km.lookup k := by
  obtain ⟨av, hav⟩ := Option.isSome_iff_exists.mp
    ((hv.versions v).mpr ((GoMap.lookup_isSome_iff _ v).mp (by rw [hkm]; rfl)))
  obtain ⟨h1, h2, km', hkm', hk⟩ := hv.version v av hav
  obtain rfl : km = km' := Option.some.inj (hkm.symm.trans ((GoMap.mem_entries_iff _ v km').mp hkm'))
  exact ⟨av, hav, h1, h2, hk⟩

theorem VersionsInv.lookup_none (hv : VersionsInv g vm.entries ag) (h : vm.lookup v = none) :
    ag.versions.lookup v = none := by
  rw [← Option.not_isSome_iff_eq_none, hv.versions v, ← GoMap.lookup_isSome_iff, h]
  exact Bool.false_ne_true

variable [Fintype ι] {cl : Classifier ι} {b : APIsBuilder ι} {groups : GoMap (APIGroup ι)}


theorem GroupsInv.lookup_some (hi : GroupsInv cl b b.byGroupVersionKind.entries groups)
    (hvm : b.byGroupVersionKind.lookup g = some vm) :
    ∃ ag, groups.lookup g = some ag ∧ VersionsInv g vm.entries ag := by
  obtain ⟨ag, hag⟩ := Option.isSome_iff_exists.mp
    ((hi.1 g).mpr ((GoMap.lookup_isSome_iff _ g).mp (by rw [hvm]; rfl)))
  obtain ⟨vm', hvm', hp⟩ := hi.2 g ag hag
  obtain rfl : vm = vm' := Option.some.inj (hvm.symm.trans ((GoMap.mem_entries_iff _ g vm').mp hvm'))
  exact ⟨ag, hag, versionsInv_parseAPIsGroup cl b hp⟩

theorem GroupsInv.lookup_none (hi : GroupsInv cl b b.byGroupVersionKind.entries groups)
    (h : b.byGroupVersionKind.lookup g = none) : groups.lookup g = none := by
  rw [← Option.not_isSome_iff_eq_none, hi.1 g, ← GoMap.lookup_isSome_iff, h]
  exact Bool.false_ne_true

end Lookup

/-- **ParseAPIs mirrors the index.** After a completed run, the groups are exactly those of
the index; a group has exactly the versions of its index entry, each holding the index's
resources of that version, and its unversioned resources are keyed by exactly the kinds of
its versions, each the resource of one of its versions; whatever the order the maps are
visited in. -/
theorem parseAPIs_mirrors_index [Fintype ι] (cl : Classifier ι) (b b' : APIsBuilder ι)
    (h : parseAPIs cl b = .ok b') :
    ∃ apis, b'.apis = some apis ∧
      (∀ g, (apis.groups.lookup g).isSome ↔ (b.byGroupVersionKind.lookup g).isSome) ∧
      ∀ g vm, b.byGroupVersionKind.lookup g = some vm →
        ∃ ag, apis.groups.lookup g = some ag ∧ ag.group = g ∧
          (∀ v, (ag.versions.lookup v).isSome ↔ (vm.lookup v).isSome) ∧
          (∀ v km, vm.lookup v = some km → ∃ av, ag.versions.lookup v = some av ∧
            av.group = g ∧ av.version = v ∧ ∀ k, av.resources.lookup k = km.lookup k) ∧
          (∀ k, (ag.unversionedResources.lookup k).isSome ↔
            ∃ v km, vm.lookup v = some km ∧ (km.lookup k).isSome) ∧
          (∀ k r, ag.unversionedResources.lookup k = some r →
            ∃ v av, ag.versions.lookup v = some av ∧ av.resources.lookup k = some r) := by
  obtain ⟨groups, hgroups, hs⟩ := Except.bind_eq_ok.mp h
  cases hs
  have hi := groupsInv_parseAPIs cl b hgroups
  refine ⟨_, rfl, fun g => by rw [hi.1 g, GoMap.lookup_isSome_iff], fun g vm hvm => ?_⟩
  obtain ⟨ag, hag, hv⟩ := hi.lookup_some hvm
  refine ⟨ag, hag, hv.group, fun v => by rw [hv.versions v, GoMap.lookup_isSome_iff],
    fun v km hkm => hv.lookup_some hkm, fun k => ?_, fun k r hr => ?_⟩
  · rw [hv.unversionedKeys k]
    exact ⟨fun ⟨⟨v, km⟩, he, hk⟩ => ⟨v, km, (GoMap.mem_entries_iff _ v km).mp he, hk⟩,
      fun ⟨v, km, hkm, hk⟩ => ⟨⟨v, km⟩, (GoMap.mem_entries_iff _ v km).mpr hkm, hk⟩⟩
  · obtain ⟨⟨v, km⟩, he, hk⟩ := hv.unversioned k r hr
    obtain ⟨av, hav, -, -, hres⟩ := hv.lookup_some ((GoMap.mem_entries_iff _ v km).mp he)
    exact ⟨v, av, hav, (hres k).trans hk⟩

/-- The `core` group's `Widget` of versions `v1` and `v2`, with the group's package in the
universe. -/
def coreIndex : APIsBuilder Bool :=
  { APIsBuilder.init ⟨fun v => ⟨⟨if v then "example.com/apis/core/v1" else "example.com/apis/core/v2",
      "Widget"⟩, [], none, []⟩, [true, false],
      fun p => if p = "example.com/apis/core" then some ⟨p, []⟩ else none⟩ with
    byGroupVersionKind :=
      ((∅ : GoMap (GoMap (GoMap (APIResource Bool)))).set3 "core" "v1" "Widget"
        ⟨"example.com", "core", "v1", "Widget", "widgets", "", ∅, true, "", "", false⟩).set3
        "core" "v2" "Widget"
        ⟨"example.com", "core", "v2", "Widget", "widgets", "", ∅, false, "", "", false⟩ }

theorem parseAPIs_core_index :
    ∃ b', parseAPIs default coreIndex = .ok b' ∧ ∃ apis, b'.apis = some apis ∧
      ∀ ag, apis.groups.lookup "core" = some ag → (ag.unversionedResources.lookup "Widget").isSome := by
  refine ⟨_, rfl, ?_⟩
  obtain ⟨apis, hapis, -, hgroups⟩ := parseAPIs_mirrors_index default coreIndex _ rfl
  refine ⟨apis, hapis, fun ag hag => ?_⟩
  obtain ⟨ag', hag', -, -, -, hunv, -⟩ := hgroups "core" _ rfl
  cases hag.symm.trans hag'
  exact (hunv "Widget").mpr ⟨"v1", _, rfl, rfl⟩

/-- The resource the assembled model holds under a group, a version and a kind. -/
def APIs.lookup (apis : APIs ι) (g v k : String) : Option (APIResource ι) :=
  (apis.groups.lookup g).bind fun ag => (ag.versions.lookup v).bind fun av => av.resources.lookup k

/-- `ParseAPIs` sets the API model and nothing else, and the model answers every
group/version/kind lookup as the index does. -/
theorem parseAPIs_lookup [Fintype ι] (cl : Classifier ι) (b b' : APIsBuilder ι)
    (h : parseAPIs cl b = .ok b') :
    ∃ apis, b' = { b with apis := some apis } ∧
      ∀ g v k, apis.lookup g v k = b.byGroupVersionKind.lookup3 g v k := by
  obtain ⟨groups, hgroups, hs⟩ := Except.bind_eq_ok.mp h
  cases hs
  have hi := groupsInv_parseAPIs cl b hgroups
  refine ⟨_, rfl, fun g v k => ?_⟩
  simp only [APIs.lookup, GoMap.lookup3]
  cases hvm : b.byGroupVersionKind.lookup g with
  | none => rw [hi.lookup_none hvm]; rfl
  | some vm =>
    obtain ⟨ag, hag, hv⟩ := hi.lookup_some hvm
    rw [hag]
    cases hkm : vm.lookup v with
    | none => simp only [Option.some_bind, hv.lookup_none hkm, hkm, Option.none_bind]
    | some km =>
      obtain ⟨av, hav, -, -, hres⟩ := hv.lookup_some hkm
      simp only [Option.some_bind, hav, hres, hkm]

/-! ### When ParseAPIs completes -/

/-- The group package of a resource is in the universe, so `apiGroup.Pkg.Path` does not
dereference nil. -/
def HasGroupPackage (ctx : Context ι) (r : APIResource ι) : Prop :=
  (ctx.packages (groupPackage ctx r)).isSome = true

theorem parseAPIsResource_ok_iff (ctx : Context ι) (acc : APIGroup ι × APIVersion ι)
    (e : Σ _ : String, APIResource ι) :
    (∃ acc', parseAPIsResource ctx acc e = .ok acc') ↔ HasGroupPackage ctx e.2 := by
  simp only [parseAPIsResource_eq_ok, HasGroupPackage, Option.isSome_iff_exists]
  exact ⟨fun ⟨_, p, hp, _⟩ => ⟨p, hp⟩, fun ⟨p, hp⟩ => ⟨_, p, hp, rfl⟩⟩

theorem parseAPIsVersion_ok_iff (b : APIsBuilder ι) (g : String) (ag : APIGroup ι)
    (e : Σ _ : String, GoMap (APIResource ι)) :
    (∃ ag', parseAPIsVersion b g ag e = .ok ag') ↔
      ∀ r ∈ e.2.entries, HasGroupPackage b.context r.2 :=
  (Except.exists_bind_ok_iff fun _ => ⟨_, rfl⟩).trans
    (foldlM_ok_iff_of_step (parseAPIsResource_ok_iff b.context) _ _)

theorem parseAPIsGroup_ok_iff [Fintype ι] (cl : Classifier ι) (b : APIsBuilder ι)
    (e : Σ _ : String, GoMap (GoMap (APIResource ι))) :
    (∃ ag, parseAPIsGroup cl b e = .ok ag) ↔
      ∀ v ∈ e.2.entries, ∀ r ∈ v.2.entries, HasGroupPackage b.context r.2 :=
  (Except.exists_bind_ok_iff fun _ => ⟨_, rfl⟩).trans
    (foldlM_ok_iff_of_step (parseAPIsVersion_ok_iff b e.1) _ _)

/-- `ParseAPIs` completes exactly when the group package of every resource of the index is
in the universe; one that is missing panics, whatever the order the maps are visited in. -/
theorem parseAPIs_ok_iff [Fintype ι] (cl : Classifier ι) (b : APIsBuilder ι) :
    (∃ b', parseAPIs cl b = .ok b') ↔
      ∀ g v k r, b.byGroupVersionKind.lookup3 g v k = some r → HasGroupPackage b.context r := by
  rw [GoMap.forall_lookup3_iff]
  exact (Except.exists_bind_ok_iff fun _ => ⟨_, rfl⟩).trans (foldlM_ok_iff_of_step
    (fun _ e => (Except.exists_bind_ok_iff fun _ => ⟨_, rfl⟩).trans (parseAPIsGroup_ok_iff cl b e))
    _ _)

/-- The only abort of `ParseAPIs` is the nil dereference of a missing group package. -/
theorem parseAPIs_error [Fintype ι] {cl : Classifier ι} {b : APIsBuilder ι} {e : Abort}
    (h : parseAPIs cl b = .error e) : e = .panic nilDereference := by
  have hres : ∀ acc r e, parseAPIsResource b.context acc r = .error e →
      e = .panic nilDereference := fun acc r e h => by
    unfold parseAPIsResource at h
    split at h
    · cases h; rfl
    · cases h
  have hver : ∀ g ag v e, parseAPIsVersion b g ag v = .error e → e = .panic nilDereference :=
    fun _ _ _ _ h => foldlM_error_of_step _ hres _ _ _ (Except.bind_pure_eq_error.mp h)
  have hgrp : ∀ groups x e, parseAPIsGroupStep cl b groups x = .error e →
      e = .panic nilDereference := fun _ x _ h =>
    foldlM_error_of_step _ (hver x.1) _ _ _
      (Except.bind_pure_eq_error.mp (Except.bind_pure_eq_error.mp h))
  exact foldlM_error_of_step _ hgrp _ _ _ (Except.bind_pure_eq_error.mp h)

/-- `ParseAPIs` aborts exactly when the group package of some resource of the index is
missing from the universe, and then with the nil dereference. -/
theorem parseAPIs_eq_error [Fintype ι] (cl : Classifier ι) (b : APIsBuilder ι) (e : Abort) :
    parseAPIs cl b = .error e ↔
      (∃ g v k r, b.byGroupVersionKind.lookup3 g v k = some r ∧ ¬HasGroupPackage b.context r) ∧
        e = .panic nilDereference := by
  have hnot : (¬∃ b', parseAPIs cl b = .ok b') ↔
      ∃ g v k r, b.byGroupVersionKind.lookup3 g v k = some r ∧ ¬HasGroupPackage b.context r := by
    rw [parseAPIs_ok_iff]
    push_neg
    rfl
  refine ⟨fun h => ⟨hnot.mp fun ⟨_, h'⟩ => (nomatch h'.symm.trans h), parseAPIs_error h⟩,
    fun ⟨hmiss, he⟩ => ?_⟩
  obtain ⟨e', he'⟩ := Except.exists_error_of_not_ok (hnot.mpr hmiss)
  rw [he', parseAPIs_error he', he]

/-! ### Generated structs -/

theorem mem_structSeeds_of_resource (b : APIsBuilder ι) (g : APIGroup ι) {v k : String}
    {av : APIVersion ι} {r : APIResource ι} (hv : g.versions.lookup v = some av)
    (hk : av.resources.lookup k = some r) : r.type ∈ structSeeds b g :=
  List.mem_append_left _ (List.mem_flatMap.mpr ⟨⟨v, av⟩, (GoMap.mem_entries_iff _ v av).mpr hv,
    List.mem_map.mpr ⟨⟨k, r⟩, (GoMap.mem_entries_iff _ k r).mpr hk, rfl⟩⟩)

theorem mem_structSeeds_of_subresource (b : APIsBuilder ι) (g : APIGroup ι) {v k : String} {c : ι}
    (h : b.subByGroupVersionKind.lookup3 g.group v k = some c) : c ∈ structSeeds b g := by
  obtain ⟨vm, hvm, h⟩ := Option.bind_eq_some.mp h
  obtain ⟨km, hkm, hc⟩ := Option.bind_eq_some.mp h
  refine List.mem_append_right _ (List.mem_flatMap.mpr ⟨⟨v, km⟩, ?_,
    List.mem_map.mpr ⟨⟨k, c⟩, (GoMap.mem_entries_iff _ k c).mpr hc, rfl⟩⟩)
  rw [hvm]
  exact (GoMap.mem_entries_iff _ v km).mpr hkm

/-- A group gets a struct of the bare name of each of its resources' types and of each
subresource request filed under it. -/
theorem parseAPIsGroup_structs [Fintype ι] (cl : Classifier ι) (b : APIsBuilder ι)
    {e : Σ _ : String, GoMap (GoMap (APIResource ι))} {ag : APIGroup ι}
    (h : parseAPIsGroup cl b e = .ok ag) :
    (∀ v av k r, ag.versions.lookup v = some av → av.resources.lookup k = some r →
      ∃ st ∈ ag.structs, st.name = typeName b.context r.type) ∧
    ∀ v k c, b.subByGroupVersionKind.lookup3 e.1 v k = some c →
      ∃ st ∈ ag.structs, st.name = typeName b.context c := by
  have hg := (versionsInv_parseAPIsGroup cl b h).group
  obtain ⟨ag₀, -, hs⟩ := Except.bind_eq_ok.mp h
  cases hs
  have hg : ag₀.group = e.1 := hg
  exact ⟨fun v av k r hv hk => parseStructs_seed cl b ag₀ (mem_structSeeds_of_resource b ag₀ hv hk),
    fun v k c hc => parseStructs_seed cl b ag₀ (mem_structSeeds_of_subresource b ag₀ (hg ▸ hc))⟩

/-- Every resource the assembled model holds has a struct of its type's bare name in its
group, and so has every subresource request filed under a group of the model. -/
theorem parseAPIs_structs [Fintype ι] (cl : Classifier ι) (b b' : APIsBuilder ι)
    (h : parseAPIs cl b = .ok b') :
    ∃ apis, b'.apis = some apis ∧ ∀ g ag, apis.groups.lookup g = some ag →
      (∀ v k r, apis.lookup g v k = some r →
        ∃ st ∈ ag.structs, st.name = typeName b.context r.type) ∧
      ∀ v k c, b.subByGroupVersionKind.lookup3 g v k = some c →
        ∃ st ∈ ag.structs, st.name = typeName b.context c := by
  obtain ⟨groups, hgroups, hs⟩ := Except.bind_eq_ok.mp h
  cases hs
  refine ⟨_, rfl, fun g ag hag => ?_⟩
  obtain ⟨vm, -, hp⟩ := (groupsInv_parseAPIs cl b hgroups).2 g ag hag
  obtain ⟨hres, hsub⟩ := parseAPIsGroup_structs cl b hp
  refine ⟨fun v k r hr => ?_, hsub⟩
  obtain ⟨ag', hag', hr⟩ := Option.bind_eq_some.mp hr
  cases hag.symm.trans hag'
  obtain ⟨av, hav, hr⟩ := Option.bind_eq_some.mp hr
  exact hres v av k r hav hr

/-! ### Packages -/

theorem parseAPIsResource_pkg {ctx : Context ι} {acc acc' : APIGroup ι × APIVersion ι}
    {e : Σ _ : String, APIResource ι} (h : parseAPIsResource ctx acc e = .ok acc') :
    ∃ p, ctx.packages (groupPackage ctx e.2) = some p ∧ acc'.1.pkg = some p ∧
      acc'.1.pkgPath = p.path ∧ acc'.2.pkg = ctx.packages (ctx.types e.2.type).name.package := by
  obtain ⟨p, hp, rfl⟩ := parseAPIsResource_eq_ok.mp h
  exact ⟨p, hp, rfl, rfl, rfl⟩

/-- The resource loop of a version leaves the packages when it visits no resource, and
otherwise sets those of a resource it visits: the last one. -/
theorem foldlM_parseAPIsResource_pkg (ctx : Context ι) (l : List (Σ _ : String, APIResource ι))
    (acc acc' : APIGroup ι × APIVersion ι) (h : l.foldlM (parseAPIsResource ctx) acc = .ok acc') :
    (l = [] ∧ acc' = acc) ∨ ∃ e ∈ l, ∃ p, ctx.packages (groupPackage ctx e.2) = some p ∧
      acc'.1.pkg = some p ∧ acc'.1.pkgPath = p.path ∧
      acc'.2.pkg = ctx.packages (ctx.types e.2.type).name.package := by
  simpa only [List.nil_append] using foldlM_ok_induction (f := parseAPIsResource ctx)
    (fun pre (a : APIGroup ι × APIVersion ι) => (pre = [] ∧ a = acc) ∨
      ∃ e ∈ pre, ∃ p, ctx.packages (groupPackage ctx e.2) = some p ∧ a.1.pkg = some p ∧
        a.1.pkgPath = p.path ∧ a.2.pkg = ctx.packages (ctx.types e.2.type).name.package)
    (fun _ e _ _ _ hs => .inr ⟨e, List.mem_append_right _ (List.mem_singleton_self e),
      parseAPIsResource_pkg hs⟩) l [] acc acc' (.inl ⟨rfl, rfl⟩) h

theorem parseAPIsVersion_pkg {b : APIsBuilder ι} {g : String} {ag ag' : APIGroup ι}
    {e : Σ _ : String, GoMap (APIResource ι)} (h : parseAPIsVersion b g ag e = .ok ag') :
    ((e.2.entries = [] ∧ ag'.pkg = ag.pkg ∧ ag'.pkgPath = ag.pkgPath) ∨
      ∃ r ∈ e.2.entries, ∃ p, b.context.packages (groupPackage b.context r.2) = some p ∧
        ag'.pkg = some p ∧ ag'.pkgPath = p.path) ∧
    ∃ av, ag'.versions = ag.versions.insert e.1 av ∧ ((e.2.entries = [] ∧ av.pkg = none) ∨
      ∃ r ∈ e.2.entries, av.pkg = b.context.packages (b.context.types r.2.type).name.package) := by
  obtain ⟨acc, hacc, hs⟩ := Except.bind_eq_ok.mp h
  cases hs
  have hv := (foldlM_parseAPIsResource _ _ _ _ hacc).2.1
  rcases foldlM_parseAPIsResource_pkg _ _ _ _ hacc with ⟨he, rfl⟩ | ⟨r, hr, p, hp, h1, h2, h3⟩
  · exact ⟨.inl ⟨he, rfl, rfl⟩, _, rfl, .inl ⟨he, rfl⟩⟩
  · exact ⟨.inr ⟨r, hr, p, hp, h1, h2⟩, acc.2, by rw [← hv], .inr ⟨r, hr, h3⟩⟩

/-- The packages the version loop of a group has set after the versions `pre`, from a group
with none. -/
structure PackagesInv (ctx : Context ι) (pre : List (Σ _ : String, GoMap (APIResource ι)))
    (ag : APIGroup ι) : Prop where
  group : ((∀ v ∈ pre, v.2.entries = []) ∧ ag.pkg = none ∧ ag.pkgPath = "") ∨
    ∃ v ∈ pre, ∃ r ∈ v.2.entries, ∃ p, ctx.packages (groupPackage ctx r.2) = some p ∧
      ag.pkg = some p ∧ ag.pkgPath = p.path
  version : ∀ v av, ag.versions.lookup v = some av → ∃ km, ⟨v, km⟩ ∈ pre ∧
    ((km.entries = [] ∧ av.pkg = none) ∨
      ∃ r ∈ km.entries, av.pkg = ctx.packages (ctx.types r.2.type).name.package)

theorem packagesInv_step {b : APIsBuilder ι} {g : String}
    {pre : List (Σ _ : String, GoMap (APIResource ι))} {ag ag' : APIGroup ι}
    {e : Σ _ : String, GoMap (APIResource ι)} (h : PackagesInv b.context pre ag)
    (hs : parseAPIsVersion b g ag e = .ok ag') : PackagesInv b.context (pre ++ [e]) ag' := by
  obtain ⟨hg, av, hvs, hav⟩ := parseAPIsVersion_pkg hs
  have hmem : ∀ {x : Σ _ : String, GoMap (APIResource ι)}, x ∈ pre ++ [e] ↔ x ∈ pre ∨ x = e := by
    simp only [List.mem_append, List.mem_singleton, implies_true]
  refine ⟨?_, fun v av' hv => ?_⟩
  · rcases hg with ⟨he, h1, h2⟩ | ⟨r, hr, p, hp, h1, h2⟩
    · rcases h.group with ⟨hall, h3, h4⟩ | ⟨v, hv, r, hr, p, hp, h3, h4⟩
      · exact .inl ⟨fun v hv => (hmem.mp hv).elim (hall v) fun hve => hve ▸ he,
          h1.trans h3, h2.trans h4⟩
      · exact .inr ⟨v, hmem.mpr (.inl hv), r, hr, p, hp, h1.trans h3, h2.trans h4⟩
    · exact .inr ⟨e, hmem.mpr (.inr rfl), r, hr, p, hp, h1, h2⟩
  · rw [hvs] at hv
    rcases GoMap.lookup_insert_eq_some.mp hv with ⟨rfl, rfl⟩ | ⟨-, hv⟩
    · exact ⟨e.2, hmem.mpr (.inr rfl), hav⟩
    · obtain ⟨km, hkm, hk⟩ := h.version v av' hv
      exact ⟨km, hmem.mpr (.inl hkm), hk⟩

theorem packagesInv_parseAPIsGroup [Fintype ι] (cl : Classifier ι) (b : APIsBuilder ι)
    {e : Σ _ : String, GoMap (GoMap (APIResource ι))} {ag : APIGroup ι}
    (h : parseAPIsGroup cl b e = .ok ag) : PackagesInv b.context e.2.entries ag := by
  obtain ⟨ag₀, hfold, hs⟩ := Except.bind_eq_ok.mp h
  cases hs
  have hp := foldlM_ok_induction (PackagesInv b.context) (fun _ _ _ _ hi hs => packagesInv_step hi hs)
    e.2.entries [] _ ag₀ ⟨.inl ⟨fun _ h => absurd h (List.not_mem_nil _), rfl, rfl⟩,
      fun _ _ h => by simp at h⟩ hfold
  exact ⟨hp.group, hp.version⟩

/-- Every group of the assembled model has as package the group package of one of its
resources, and every version the package of one of its resources; which one, when they
differ, depends on the order the maps are visited in, so the packages are determined only
when the resources of a group, or of a version, agree on them. -/
theorem parseAPIs_packages [Fintype ι] (cl : Classifier ι) (b b' : APIsBuilder ι)
    (hne : NoEmptyInner b.byGroupVersionKind) (h : parseAPIs cl b = .ok b') :
    ∃ apis, b'.apis = some apis ∧ ∀ g ag, apis.groups.lookup g = some ag →
      (∃ v k r, b.byGroupVersionKind.lookup3 g v k = some r ∧
        ∃ p, b.context.packages (groupPackage b.context r) = some p ∧
          ag.pkg = some p ∧ ag.pkgPath = p.path) ∧
      ∀ v av, ag.versions.lookup v = some av → ∃ k r,
        b.byGroupVersionKind.lookup3 g v k = some r ∧
          av.pkg = b.context.packages (b.context.types r.type).name.package := by
  obtain ⟨groups, hgroups, hs⟩ := Except.bind_eq_ok.mp h
  cases hs
  refine ⟨_, rfl, fun g ag hag => ?_⟩
  obtain ⟨vm, hvm, hp⟩ := (groupsInv_parseAPIs cl b hgroups).2 g ag hag
  have hvm' := (GoMap.mem_entries_iff _ _ _).mp hvm
  obtain ⟨hvne, hkne⟩ := hne g vm hvm'
  have hpk := packagesInv_parseAPIsGroup cl b hp
  have hlookup3 : ∀ {v km k r}, (⟨v, km⟩ : Σ _ : String, GoMap (APIResource ι)) ∈ vm.entries →
      (⟨k, r⟩ : Σ _ : String, APIResource ι) ∈ km.entries →
      b.byGroupVersionKind.lookup3 g v k = some r := fun hv hr => by
    simp only [GoMap.lookup3, hvm', Option.some_bind, (GoMap.mem_entries_iff _ _ _).mp hv,
      (GoMap.mem_entries_iff _ _ _).mp hr]
  refine ⟨?_, fun v av hav => ?_⟩
  · rcases hpk.group with ⟨hall, -⟩ | ⟨⟨v, km⟩, hv, ⟨k, r⟩, hr, p, hp, h1, h2⟩
    · obtain ⟨x, hx⟩ := List.exists_mem_of_ne_nil _ hvne
      exact absurd (hall x hx) (hkne x.1 x.2 ((GoMap.mem_entries_iff _ _ _).mp hx))
    · exact ⟨v, k, r, hlookup3 hv hr, p, hp, h1, h2⟩
  · obtain ⟨km, hkm, ⟨he, -⟩ | ⟨⟨k, r⟩, hr, h1⟩⟩ := hpk.version v av hav
    · exact absurd he (hkne v km ((GoMap.mem_entries_iff _ _ _).mp hkm))
    · exact ⟨k, r, hlookup3 hkm hr, h1⟩

end ApiRegisterGen
