import ApiRegisterGen.Subresources

/-!
# The resource index (parser.go:262-335, 483-491)

`ParseIndex` walks the declarations once. A `+subresource-request` type is filed under
its group, version and kind in `SubByGroupVersionKind`; a `+resource` type becomes an
`APIResource` stored in two indices, by group/version/kind and by group/kind/version.
The source stores one `*APIResource` in both and fills in its `Subresources` afterwards,
which both entries see, so the model stores the finished value in both.

A completed run holds, at every triple: the two indices agree, they hold the resource
built from the last declaration with that triple, no inner map is empty, and the
subresource index holds the last subresource declaration.
-/

namespace ApiRegisterGen

variable {ι : Type}

/-- The value of a `+tag:` comment a type must carry, as `GetResourceTag` and
`GetControllerTag` read it (parser.go:483-491, 504-511). -/
def getRequiredTag (tag : String) (cl : Classifier ι) (b : APIsBuilder ι) (c : ι) :
    Except Abort String :=
  let resource := cl.getTag (b.context.types c).commentLines tag ":"
  if resource.length = 0 then
    throw (.panic ("Must specify +" ++ tag ++ " comment for type " ++ (b.context.types c).name.string))
  else pure resource

/-- `GetResourceTag` (parser.go:483-491). -/
def getResourceTag : Classifier ι → APIsBuilder ι → ι → Except Abort String :=
  getRequiredTag "resource"

/-- A required tag is read when present, and its absence panics naming the tag and the
type. -/
theorem getRequiredTag_eq (tag : String) (cl : Classifier ι) (b : APIsBuilder ι) (c : ι) :
    getRequiredTag tag cl b c =
      if cl.getTag (b.context.types c).commentLines tag ":" = "" then
        .error (.panic ("Must specify +" ++ tag ++ " comment for type " ++
          (b.context.types c).name.string))
      else .ok (cl.getTag (b.context.types c).commentLines tag ":") := by
  unfold getRequiredTag
  by_cases h : cl.getTag (b.context.types c).commentLines tag ":" = ""
  · rw [if_pos h, if_pos (Strings.length_eq_zero.mpr h)]; rfl
  · rw [if_neg h, if_neg (mt Strings.length_eq_zero.mp h)]; rfl

/-- The text of a type's `+tag:` comment. -/
def requiredTag (tag : String) (cl : Classifier ι) (ctx : Context ι) (c : ι) : String :=
  cl.getTag (ctx.types c).commentLines tag ":"

/-- The triple a declaration is filed under: `GetGroup`, then `GetVersion` and `GetKind`
of that group. -/
def gvkOf (cl : Classifier ι) (c : ι) : String × String × String :=
  (cl.getGroup c, cl.getVersion c (cl.getGroup c), cl.getKind c (cl.getGroup c))

/-- The resource of an API resource declaration, before its subresources
(parser.go:287-310). -/
def baseResource (cl : Classifier ι) (b : APIsBuilder ι) (c : ι) (rt : ResourceTags) :
    APIResource ι :=
  let group := cl.getGroup c
  let kind := cl.getKind c group
  let strategy := if rt.strategy.length = 0 then group ++ "." ++ kind ++ "Strategy" else rt.strategy
  { domain := b.domain, group := group, version := cl.getVersion c group, kind := kind,
    resource := rt.resource, rest := rt.rest, subresources := ∅, type := c,
    strategy := strategy,
    statusStrategy := Strings.trimSuffix strategy "Strategy" ++ "StatusStrategy",
    nonNamespaced := cl.isNonNamespaced c }

/-- The resource `ParseIndex` stores for an API resource declaration, subresources
included (parser.go:287-334). -/
def indexResource (cl : Classifier ι) (b : APIsBuilder ι) (c : ι) :
    Except Abort (APIResource ι) := do
  let rt ← parseResourceTag (← getResourceTag cl b c)
  let r := baseResource cl b c rt
  if cl.hasSubresource c then
    let subresources ← getSubresources cl b r
    pure { r with subresources := subresources }
  else pure r

/-- A resource declaration whose resource can be built: a present, well-formed `+resource`
tag, and, when the type has subresources, well-formed directives resolving to distinct
paths. -/
def ResourceTagged (cl : Classifier ι) (b : APIsBuilder ι) (c : ι) : Prop :=
  requiredTag "resource" cl b.context c ≠ "" ∧ TagWellFormed (requiredTag "resource" cl b.context c) ∧
    (cl.hasSubresource c = true → (∀ d ∈ getSubresourceTags cl b c, TagWellFormed d) ∧
      (directivePaths (baseResource cl b c
          (resourceTagsOf (Strings.split (requiredTag "resource" cl b.context c) ",")))
        (getSubresourceTags cl b c)).Nodup)

/-- Filing a subresource declaration (parser.go:267-279). -/
def indexSubresource (cl : Classifier ι) (b : APIsBuilder ι) (c : ι) : APIsBuilder ι :=
  if cl.isAPISubresource c then
    let group := cl.getGroup c
    { b with subByGroupVersionKind :=
        b.subByGroupVersionKind.set3 group (cl.getVersion c group) (cl.getKind c group) c }
  else b

/-- Storing a resource in both indices (parser.go:312-327). -/
def insertResource (b : APIsBuilder ι) (r : APIResource ι) : APIsBuilder ι :=
  { b with byGroupKindVersion := b.byGroupKindVersion.set3 r.group r.kind r.version r,
           byGroupVersionKind := b.byGroupVersionKind.set3 r.group r.version r.kind r }

/-- One declaration of `ParseIndex` (parser.go:266-334). -/
def parseIndexStep (cl : Classifier ι) (b : APIsBuilder ι) (c : ι) :
    Except Abort (APIsBuilder ι) :=
  let b := indexSubresource cl b c
  if cl.isAPIResource c then do
    let r ← indexResource cl b c
    pure (insertResource b r)
  else pure b

/-- `ParseIndex` (parser.go:262-335). -/
def parseIndex (cl : Classifier ι) (b : APIsBuilder ι) : Except Abort (APIsBuilder ι) :=
  b.context.order.foldlM (parseIndexStep cl)
    { b with byGroupVersionKind := ∅, byGroupKindVersion := ∅, subByGroupVersionKind := ∅ }

/-! ### One step -/

section Step

variable (cl : Classifier ι) (b : APIsBuilder ι) (c : ι)

@[simp] theorem indexSubresource_context : (indexSubresource cl b c).context = b.context := by
  unfold indexSubresource; split <;> rfl

@[simp] theorem indexSubresource_domain : (indexSubresource cl b c).domain = b.domain := by
  unfold indexSubresource; split <;> rfl

@[simp] theorem indexSubresource_byGroupVersionKind :
    (indexSubresource cl b c).byGroupVersionKind = b.byGroupVersionKind := by
  unfold indexSubresource; split <;> rfl

@[simp] theorem indexSubresource_byGroupKindVersion :
    (indexSubresource cl b c).byGroupKindVersion = b.byGroupKindVersion := by
  unfold indexSubresource; split <;> rfl

theorem indexSubresource_lookup3 (g v k : String) :
    (indexSubresource cl b c).subByGroupVersionKind.lookup3 g v k =
      if cl.isAPISubresource c = true ∧ gvkOf cl c = (g, v, k) then some c
      else b.subByGroupVersionKind.lookup3 g v k := by
  unfold indexSubresource
  cases cl.isAPISubresource c
  · simp only [Bool.false_eq_true, if_false, false_and]
  · simp only [if_true, GoMap.lookup3_set3, gvkOf, Prod.mk.injEq, true_and, eq_comm]

variable (r : APIResource ι)

@[simp] theorem insertResource_context : (insertResource b r).context = b.context := rfl

@[simp] theorem insertResource_domain : (insertResource b r).domain = b.domain := rfl

@[simp] theorem insertResource_subByGroupVersionKind :
    (insertResource b r).subByGroupVersionKind = b.subByGroupVersionKind := rfl

/-- `indexResource` reads the builder's types and domain only. -/
theorem indexResource_congr {b b' : APIsBuilder ι} (hc : b.context.types = b'.context.types)
    (hd : b.domain = b'.domain) : indexResource cl b c = indexResource cl b' c := by
  simp only [indexResource, getResourceTag, getRequiredTag, baseResource, getSubresources,
    getSubresourceTags, hc, hd]

/-- Building a resource fails exactly on a missing or malformed `+resource` tag, or on
malformed or colliding subresource directives. -/
theorem indexResource_ok_iff : (∃ r, indexResource cl b c = .ok r) ↔ ResourceTagged cl b c := by
  unfold indexResource ResourceTagged requiredTag
  rw [getResourceTag, getRequiredTag_eq]
  by_cases hne : cl.getTag (b.context.types c).commentLines "resource" ":" = ""
  · rw [if_pos hne]
    exact iff_of_false (fun ⟨_, h⟩ => nomatch h) fun h => h.1 hne
  · rw [if_neg hne]
    show (∃ r, (parseResourceTag _).bind _ = _) ↔ _
    rw [parseResourceTag_eq]
    by_cases hwf : TagWellFormed (cl.getTag (b.context.types c).commentLines "resource" ":")
    · rw [if_pos hwf, and_iff_right hne, and_iff_right hwf]
      show (∃ r, (if cl.hasSubresource c = true then _ else _) = _) ↔ _
      cases cl.hasSubresource c
      · exact iff_of_true ⟨_, rfl⟩ fun h => nomatch h
      · rw [if_pos rfl]
        exact (Except.exists_bind_ok_iff fun _ => ⟨_, rfl⟩).trans
          ((getSubresourcesOf_ok_iff _ _ _).trans ⟨fun h _ => h, fun h => h rfl⟩)
    · rw [if_neg hwf]
      exact iff_of_false (fun ⟨_, h⟩ => nomatch h) fun h => hwf h.2.1

/-- The abort reading a type's required `+tag` comment and parsing it reports: a panic
naming the tag and the type when the comment is missing, the parser's `message` when it is
malformed. -/
def TagDefect (tag : String) (message : String → String) (cl : Classifier ι) (ctx : Context ι)
    (c : ι) (e : Abort) : Prop :=
  requiredTag tag cl ctx c = "" ∧
      e = .panic ("Must specify +" ++ tag ++ " comment for type " ++ (ctx.types c).name.string) ∨
    requiredTag tag cl ctx c ≠ "" ∧ ¬TagWellFormed (requiredTag tag cl ctx c) ∧
      e = .fatal (message (requiredTag tag cl ctx c))

/-- Reading a required tag, parsing it and going on with `k` aborts with the tag's abort,
or, for a present and well-formed tag, with the abort of `k`. -/
theorem getRequiredTag_parse_eq_error {α β : Type} (tag : String) (message : String → String)
    {parse : String → Except Abort α} {tagsOf : List String → α}
    (hparse : ∀ t, parse t = if TagWellFormed t then .ok (tagsOf (Strings.split t ","))
      else .error (.fatal (message t)))
    (k : α → Except Abort β) (e : Abort) :
    (getRequiredTag tag cl b c >>= fun t => parse t >>= k) = .error e ↔
      TagDefect tag message cl b.context c e ∨
        requiredTag tag cl b.context c ≠ "" ∧ TagWellFormed (requiredTag tag cl b.context c) ∧
          k (tagsOf (Strings.split (requiredTag tag cl b.context c) ",")) = .error e := by
  simp only [Except.bind_eq_error, getRequiredTag_eq, hparse, TagDefect, requiredTag]
  by_cases hne : cl.getTag (b.context.types c).commentLines tag ":" = ""
  · simp [hne, eq_comm]
  · by_cases hwf : TagWellFormed (cl.getTag (b.context.types c).commentLines tag ":")
    · simp [hne, hwf]
    · simp [hne, hwf, eq_comm]

/-- The abort building the resource of declaration `c` reports: its `+resource` tag's, or,
when the type has subresources, the one of its first defective directive. -/
def ResourceDefect (cl : Classifier ι) (b : APIsBuilder ι) (c : ι) (e : Abort) : Prop :=
  TagDefect "resource" resourceTagMessage cl b.context c e ∨
    requiredTag "resource" cl b.context c ≠ "" ∧
      TagWellFormed (requiredTag "resource" cl b.context c) ∧ cl.hasSubresource c = true ∧
      DirectiveDefect b.domain (baseResource cl b c
          (resourceTagsOf (Strings.split (requiredTag "resource" cl b.context c) ",")))
        (getSubresourceTags cl b c) e

theorem indexResource_eq_error (e : Abort) :
    indexResource cl b c = .error e ↔ ResourceDefect cl b c e := by
  unfold indexResource
  rw [getResourceTag, getRequiredTag_parse_eq_error cl b c "resource" resourceTagMessage
    parseResourceTag_eq, ResourceDefect]
  refine or_congr_right (and_congr_right fun _ => and_congr_right fun _ => ?_)
  cases cl.hasSubresource c
  · exact iff_of_false (fun h => nomatch h) fun h => nomatch h.1
  · rw [if_pos rfl, Except.bind_pure_eq_error, getSubresources, getSubresourcesOf_eq_error]
    exact (and_iff_right rfl).symm

theorem resourceDefect_of_not_resourceTagged (h : ¬ResourceTagged cl b c) :
    ∃ e, ResourceDefect cl b c e :=
  let ⟨e, he⟩ := Except.exists_error_of_not_ok (mt (indexResource_ok_iff cl b c).mp h)
  ⟨e, (indexResource_eq_error cl b c e).mp he⟩

/-- Everything one step can do. -/
theorem parseIndexStep_eq_ok {b' : APIsBuilder ι} (h : parseIndexStep cl b c = .ok b') :
    (cl.isAPIResource c = false ∧ b' = indexSubresource cl b c) ∨
    (cl.isAPIResource c = true ∧ ∃ r, indexResource cl (indexSubresource cl b c) c = .ok r ∧
      b' = insertResource (indexSubresource cl b c) r) := by
  unfold parseIndexStep at h
  cases hr : cl.isAPIResource c
  · rw [hr] at h
    exact .inl ⟨rfl, (Except.ok.inj h).symm⟩
  · rw [if_pos hr] at h
    obtain ⟨r, hir, h⟩ := Except.bind_eq_ok.mp h
    exact .inr ⟨rfl, r, hir, (Except.ok.inj h).symm⟩

end Step

/-! ### The stored resource -/

/-- What parser.go:287-334 puts in the resource of declaration `c`. -/
structure BuiltFrom (cl : Classifier ι) (b : APIsBuilder ι) (c : ι) (r : APIResource ι) :
    Prop where
  gvk : (r.group, r.version, r.kind) = gvkOf cl c
  type : r.type = c
  domain : r.domain = b.domain
  nonNamespaced : r.nonNamespaced = cl.isNonNamespaced c
  tag : ∃ tag rt, getResourceTag cl b c = .ok tag ∧ parseResourceTag tag = .ok rt ∧
    r.resource = rt.resource ∧ r.rest = rt.rest ∧
    r.strategy = if rt.strategy.length = 0 then r.group ++ "." ++ r.kind ++ "Strategy"
      else rt.strategy
  statusStrategy : r.statusStrategy = Strings.trimSuffix r.strategy "Strategy" ++ "StatusStrategy"
  subresources : if cl.hasSubresource c then
      getSubresources cl b { r with subresources := ∅ } = .ok r.subresources
    else r.subresources = ∅

theorem builtFrom_of_indexResource {cl : Classifier ι} {b : APIsBuilder ι} {c : ι}
    {r : APIResource ι} (h : indexResource cl b c = .ok r) : BuiltFrom cl b c r := by
  obtain ⟨tag, htag, h⟩ := Except.bind_eq_ok.mp h
  obtain ⟨rt, hrt, h⟩ := Except.bind_eq_ok.mp h
  by_cases hs : cl.hasSubresource c = true
  · rw [if_pos hs] at h
    obtain ⟨subs, hsubs, h⟩ := Except.bind_eq_ok.mp h
    cases h
    exact ⟨rfl, rfl, rfl, rfl, ⟨tag, rt, htag, hrt, rfl, rfl, rfl⟩, rfl, by rw [if_pos hs]; exact hsubs⟩
  · rw [if_neg hs] at h
    cases h
    exact ⟨rfl, rfl, rfl, rfl, ⟨tag, rt, htag, hrt, rfl, rfl, rfl⟩, rfl, by rw [if_neg hs]; rfl⟩

/-- What is built from a declaration depends on the builder's context and domain only. -/
theorem BuiltFrom.congr {cl : Classifier ι} {b b' : APIsBuilder ι} {c : ι} {r : APIResource ι}
    (hc : b.context = b'.context) (hd : b.domain = b'.domain) (h : BuiltFrom cl b c r) :
    BuiltFrom cl b' c r := by
  have htag : getResourceTag cl b c = getResourceTag cl b' c := by
    simp only [getResourceTag, getRequiredTag, hc]
  have hsub : ∀ r', getSubresources cl b r' = getSubresources cl b' r' := by
    simp only [getSubresources, getSubresourceTags, hc, hd, implies_true]
  obtain ⟨tag, rt, h1, h2⟩ := h.tag
  exact ⟨h.gvk, h.type, h.domain.trans hd, h.nonNamespaced, ⟨tag, rt, htag ▸ h1, h2⟩,
    h.statusStrategy, hsub _ ▸ h.subresources⟩

/-! ### Last declarations and nested maps -/

/-- The last declaration of `l` satisfying `p` that is filed under `(g, v, k)`. -/
def lastDecl (cl : Classifier ι) (p : ι → Bool) (l : List ι) (g v k : String) : Option ι :=
  (l.filter fun c => p c && decide (gvkOf cl c = (g, v, k))).getLast?

theorem lastDecl_append_singleton (cl : Classifier ι) (p : ι → Bool) (l : List ι) (c : ι)
    (g v k : String) :
    lastDecl cl p (l ++ [c]) g v k =
      if p c = true ∧ gvkOf cl c = (g, v, k) then some c else lastDecl cl p l g v k := by
  unfold lastDecl
  rw [List.filter_append, List.getLast?_append, List.filter_cons, List.filter_nil]
  by_cases h : p c = true ∧ gvkOf cl c = (g, v, k)
  · rw [if_pos (by simp [h]), if_pos h]; rfl
  · rw [if_neg (by simpa using h), if_neg h]; rfl

theorem lastDecl_isSome_iff (cl : Classifier ι) (p : ι → Bool) (l : List ι) (g v k : String) :
    (lastDecl cl p l g v k).isSome ↔ ∃ c ∈ l, p c = true ∧ gvkOf cl c = (g, v, k) := by
  simp only [lastDecl, List.getLast?_isSome, ne_eq, List.filter_eq_nil_iff, Bool.and_eq_true,
    decide_eq_true_eq, not_forall, not_not, exists_prop]

theorem perm_eq_of_length_le_one {α : Type} {l l' : List α} (hp : l'.Perm l)
    (h : l.length ≤ 1) : l' = l :=
  match l, h with
  | [], _ => hp.eq_nil
  | [_], _ => List.perm_singleton.mp hp

/-- With distinct triples among the declarations `p` selects, the last declaration of a
triple is its only one, whatever the order of the declarations. -/
theorem lastDecl_perm {cl : Classifier ι} {p : ι → Bool} {l l' : List ι} (hp : l'.Perm l)
    (huniq : ((l.filter p).map (gvkOf cl)).Nodup) (g v k : String) :
    lastDecl cl p l' g v k = lastDecl cl p l g v k := by
  set F := l.filter fun c => p c && decide (gvkOf cl c = (g, v, k)) with hF
  have hsub : F.Sublist (l.filter p) := by
    rw [hF, ← List.filter_filter]
    exact (List.filter_sublist l).filter p
  have hsame : ∀ x ∈ F.map (gvkOf cl), x = (g, v, k) := fun x hx => by
    obtain ⟨c, hc, rfl⟩ := List.mem_map.mp hx
    exact of_decide_eq_true ((Bool.and_eq_true _ _).mp (List.mem_filter.mp hc).2).2
  have hlen : F.length ≤ 1 := by
    have hnd := huniq.sublist (hsub.map (gvkOf cl))
    rw [List.eq_replicate_iff.mpr ⟨List.length_map _ _, hsame⟩] at hnd
    exact List.nodup_replicate.mp hnd
  unfold lastDecl
  rw [perm_eq_of_length_le_one (hp.filter _) hlen]

theorem gvkOf_of_lastDecl {cl : Classifier ι} {p : ι → Bool} {l : List ι} {g v k : String}
    {c : ι} (h : lastDecl cl p l g v k = some c) : gvkOf cl c = (g, v, k) := by
  have hc := List.mem_of_getLast?_eq_some h
  simp only [List.mem_filter, Bool.and_eq_true, decide_eq_true_eq] at hc
  exact hc.2.2

@[simp] theorem lookup3_empty {V : Type} (g v k : String) :
    GoMap.lookup3 (∅ : GoMap (GoMap (GoMap V))) g v k = none := rfl

/-- Every inner map of a nested map has an entry. -/
def NoEmptyInner {V : Type} (m : GoMap (GoMap (GoMap V))) : Prop :=
  ∀ a m₁, m.lookup a = some m₁ →
    m₁.entries ≠ [] ∧ ∀ b m₂, m₁.lookup b = some m₂ → m₂.entries ≠ []

theorem noEmptyInner_set3 {V : Type} {m : GoMap (GoMap (GoMap V))} (h : NoEmptyInner m)
    (a b c : String) (x : V) : NoEmptyInner (m.set3 a b c x) := by
  intro a' m₁ ha'
  rcases GoMap.lookup_insert_eq_some.mp ha' with ⟨rfl, rfl⟩ | ⟨-, ha'⟩
  · refine ⟨by simp [AList.insert_entries], fun b' m₂ hb' => ?_⟩
    rcases GoMap.lookup_insert_eq_some.mp hb' with ⟨rfl, rfl⟩ | ⟨-, hb'⟩
    · simp [AList.insert_entries]
    · rw [GoMap.lookup_getD_empty] at hb'
      obtain ⟨m₁, hm₁, hb'⟩ := Option.bind_eq_some.mp hb'
      exact (h a' m₁ hm₁).2 b' m₂ hb'
  · exact h a' m₁ ha'

/-! ### The run invariant -/

/-- The two resource indices after the declarations `pre`, for the builder `b₀` the run
started from. -/
structure ResourceIndex (cl : Classifier ι) (b₀ : APIsBuilder ι) (pre : List ι)
    (byGVK byGKV : GoMap (GoMap (GoMap (APIResource ι)))) : Prop where
  dual : ∀ g v k, byGVK.lookup3 g v k = byGKV.lookup3 g k v
  absent : ∀ g v k, lastDecl cl cl.isAPIResource pre g v k = none → byGVK.lookup3 g v k = none
  present : ∀ g v k c, lastDecl cl cl.isAPIResource pre g v k = some c →
    ∃ r, indexResource cl b₀ c = .ok r ∧ byGVK.lookup3 g v k = some r
  noEmptyVersionKind : NoEmptyInner byGVK
  noEmptyKindVersion : NoEmptyInner byGKV

section ResourceIndex

variable {cl : Classifier ι} {b₀ : APIsBuilder ι} {pre : List ι} {c : ι}
  {byGVK byGKV : GoMap (GoMap (GoMap (APIResource ι)))}

theorem resourceIndex_skip (h : ResourceIndex cl b₀ pre byGVK byGKV)
    (hres : cl.isAPIResource c = false) : ResourceIndex cl b₀ (pre ++ [c]) byGVK byGKV := by
  have hlast : ∀ g v k, lastDecl cl cl.isAPIResource (pre ++ [c]) g v k =
      lastDecl cl cl.isAPIResource pre g v k := by
    simp [lastDecl_append_singleton, hres]
  exact ⟨h.dual, fun g v k => hlast g v k ▸ h.absent g v k,
    fun g v k => hlast g v k ▸ h.present g v k, h.noEmptyVersionKind, h.noEmptyKindVersion⟩

/-- A resource declaration replaces the entry of its triple in both indices. -/
theorem resourceIndex_insert (h : ResourceIndex cl b₀ pre byGVK byGKV)
    (hres : cl.isAPIResource c = true) {r : APIResource ι} (hr : indexResource cl b₀ c = .ok r) :
    ResourceIndex cl b₀ (pre ++ [c]) (byGVK.set3 r.group r.version r.kind r)
      (byGKV.set3 r.group r.kind r.version r) := by
  have hgvk := (builtFrom_of_indexResource hr).gvk
  have hcond : ∀ g v k, (g = r.group ∧ v = r.version ∧ k = r.kind) ↔ gvkOf cl c = (g, v, k) := by
    intro g v k
    rw [← hgvk, Prod.mk.injEq, Prod.mk.injEq]
    exact ⟨fun ⟨h1, h2, h3⟩ => ⟨h1.symm, h2.symm, h3.symm⟩,
      fun ⟨h1, h2, h3⟩ => ⟨h1.symm, h2.symm, h3.symm⟩⟩
  have hlast : ∀ g v k, lastDecl cl cl.isAPIResource (pre ++ [c]) g v k =
      if gvkOf cl c = (g, v, k) then some c else lastDecl cl cl.isAPIResource pre g v k := by
    simp only [lastDecl_append_singleton, hres, true_and, implies_true]
  have hlookup : ∀ g v k, (byGVK.set3 r.group r.version r.kind r).lookup3 g v k =
      if gvkOf cl c = (g, v, k) then some r else byGVK.lookup3 g v k := by
    simp only [GoMap.lookup3_set3, hcond, implies_true]
  refine ⟨fun g v k => ?_, fun g v k => ?_, fun g v k c' => ?_,
    noEmptyInner_set3 h.noEmptyVersionKind _ _ _ _, noEmptyInner_set3 h.noEmptyKindVersion _ _ _ _⟩
  · simp only [GoMap.lookup3_set3, h.dual g v k]
    by_cases hgv : g = r.group ∧ v = r.version ∧ k = r.kind
    · rw [if_pos hgv, if_pos ⟨hgv.1, hgv.2.2, hgv.2.1⟩]
    · rw [if_neg hgv, if_neg fun ⟨h1, h2, h3⟩ => hgv ⟨h1, h3, h2⟩]
  · rw [hlast, hlookup]
    split
    · exact fun h => nomatch h
    · exact h.absent g v k
  · rw [hlast, hlookup]
    split
    · exact fun hc => ⟨r, (Option.some.inj hc) ▸ hr, rfl⟩
    · exact h.present g v k c'

/-- There is an entry at a triple exactly when some resource declaration has it. -/
theorem ResourceIndex.lookup3_isSome_iff (h : ResourceIndex cl b₀ pre byGVK byGKV)
    (g v k : String) : (byGVK.lookup3 g v k).isSome ↔
      ∃ c ∈ pre, cl.isAPIResource c = true ∧ gvkOf cl c = (g, v, k) := by
  rw [← lastDecl_isSome_iff]
  cases hl : lastDecl cl cl.isAPIResource pre g v k with
  | none => simp [h.absent g v k hl]
  | some c =>
    obtain ⟨r, -, hr⟩ := h.present g v k c hl
    simp [hr]

/-- The entry at a triple is built from the last resource declaration with that triple. -/
theorem ResourceIndex.lookup3_builtFrom (h : ResourceIndex cl b₀ pre byGVK byGKV)
    {g v k : String} (hc : lastDecl cl cl.isAPIResource pre g v k = some c) :
    ∃ r, byGVK.lookup3 g v k = some r ∧
      r.group = g ∧ r.version = v ∧ r.kind = k ∧ BuiltFrom cl b₀ c r := by
  obtain ⟨r, hr, hl⟩ := h.present g v k c hc
  have hb := builtFrom_of_indexResource hr
  have hgvk : (r.group, r.version, r.kind) = (g, v, k) := hb.gvk.trans (gvkOf_of_lastDecl hc)
  simp only [Prod.mk.injEq] at hgvk
  exact ⟨r, hl, hgvk.1, hgvk.2.1, hgvk.2.2, hb⟩

/-- An entry of the index is built from the last resource declaration of its triple. -/
theorem ResourceIndex.lastDecl_of_lookup3 (h : ResourceIndex cl b₀ pre byGVK byGKV)
    {g v k : String} {r : APIResource ι} (hr : byGVK.lookup3 g v k = some r) :
    ∃ c, lastDecl cl cl.isAPIResource pre g v k = some c ∧ BuiltFrom cl b₀ c r := by
  cases hl : lastDecl cl cl.isAPIResource pre g v k with
  | none => exact absurd (hr.symm.trans (h.absent g v k hl)) (Option.some_ne_none r)
  | some c =>
    obtain ⟨r', hr', -, -, -, hb⟩ := h.lookup3_builtFrom hl
    cases hr.symm.trans hr'
    exact ⟨c, rfl, hb⟩

end ResourceIndex

/-- What `ParseIndex` has built after the declarations `pre`, started from `b₀`. -/
structure IndexInv (cl : Classifier ι) (b₀ : APIsBuilder ι) (pre : List ι) (b : APIsBuilder ι) :
    Prop where
  context : b.context = b₀.context
  domain : b.domain = b₀.domain
  resources : ResourceIndex cl b₀ pre b.byGroupVersionKind b.byGroupKindVersion
  subresources : ∀ g v k,
    b.subByGroupVersionKind.lookup3 g v k = lastDecl cl cl.isAPISubresource pre g v k

theorem indexInv_init (cl : Classifier ι) (b : APIsBuilder ι) :
    IndexInv cl b []
      { b with byGroupVersionKind := ∅, byGroupKindVersion := ∅, subByGroupVersionKind := ∅ } :=
  ⟨rfl, rfl, ⟨fun _ _ _ => rfl, fun _ _ _ _ => rfl, fun _ _ _ _ h => (nomatch h),
    fun _ _ h => (nomatch h), fun _ _ h => (nomatch h)⟩, fun _ _ _ => rfl⟩

theorem indexInv_step {cl : Classifier ι} {b₀ b b' : APIsBuilder ι} {pre : List ι} {c : ι}
    (h : IndexInv cl b₀ pre b) (hs : parseIndexStep cl b c = .ok b') :
    IndexInv cl b₀ (pre ++ [c]) b' := by
  have hsub : ∀ g v k, (indexSubresource cl b c).subByGroupVersionKind.lookup3 g v k =
      lastDecl cl cl.isAPISubresource (pre ++ [c]) g v k := by
    intro g v k
    rw [indexSubresource_lookup3, lastDecl_append_singleton, h.subresources]
  rcases parseIndexStep_eq_ok cl b c hs with ⟨hres, rfl⟩ | ⟨hres, r, hr, rfl⟩
  · refine ⟨?_, ?_, ?_, hsub⟩
    · rw [indexSubresource_context, h.context]
    · rw [indexSubresource_domain, h.domain]
    · simpa only [indexSubresource_byGroupVersionKind, indexSubresource_byGroupKindVersion] using
        resourceIndex_skip h.resources hres
  · have hr₀ : indexResource cl b₀ c = .ok r := by
      rw [← hr]
      exact indexResource_congr cl c
        (congrArg Context.types (h.context.symm.trans (indexSubresource_context cl b c).symm))
        (h.domain.symm.trans (indexSubresource_domain cl b c).symm)
    refine ⟨?_, ?_, ?_, hsub⟩
    · rw [insertResource_context, indexSubresource_context, h.context]
    · rw [insertResource_domain, indexSubresource_domain, h.domain]
    · simpa only [insertResource, indexSubresource_byGroupVersionKind,
        indexSubresource_byGroupKindVersion] using resourceIndex_insert h.resources hres hr₀

/-- The invariant holds after every completed run. -/
theorem indexInv_parseIndex {cl : Classifier ι} {b b' : APIsBuilder ι}
    (h : parseIndex cl b = .ok b') : IndexInv cl b b.context.order b' :=
  foldlM_ok_induction (IndexInv cl b) (fun _ _ _ _ hi hs => indexInv_step hi hs)
    b.context.order [] _ b' (indexInv_init cl b) h

/-- The builder without its three indices: what `ParseIndex` leaves as it found it. -/
def eraseIndex (b : APIsBuilder ι) : APIsBuilder ι :=
  { b with byGroupVersionKind := ∅, byGroupKindVersion := ∅, subByGroupVersionKind := ∅ }

theorem eraseIndex_parseIndex {cl : Classifier ι} {b b' : APIsBuilder ι}
    (h : parseIndex cl b = .ok b') : eraseIndex b' = eraseIndex b := by
  refine foldlM_ok_induction (f := parseIndexStep cl) (fun _ x => eraseIndex x = eraseIndex b)
    (fun _ c x x' hx hs => ?_) b.context.order [] (eraseIndex b) b' rfl h
  have hsub : eraseIndex (indexSubresource cl x c) = eraseIndex x := by
    unfold indexSubresource; split <;> rfl
  rcases parseIndexStep_eq_ok cl x c hs with ⟨-, rfl⟩ | ⟨-, r, -, rfl⟩
  · exact hsub.trans hx
  · exact hsub.trans hx

section Run

variable (cl : Classifier ι) (b : APIsBuilder ι) {s : APIsBuilder ι}
  (hs : s.context = b.context ∧ s.domain = b.domain)
include hs

/-- Along a run from `b`, a resource is built as from `b` itself. -/
theorem indexResource_indexSubresource (c : ι) :
    indexResource cl (indexSubresource cl s c) c = indexResource cl b c :=
  indexResource_congr cl c (by rw [indexSubresource_context, hs.1])
    (by rw [indexSubresource_domain, hs.2])

theorem parseIndexStep_ok_of_tagged {c : ι}
    (hc : cl.isAPIResource c = true → ResourceTagged cl b c) :
    ∃ s', parseIndexStep cl s c = .ok s' ∧ s'.context = b.context ∧ s'.domain = b.domain := by
  unfold parseIndexStep
  cases hr : cl.isAPIResource c
  · exact ⟨_, rfl, by simpa only [indexSubresource_context, indexSubresource_domain] using hs⟩
  · obtain ⟨r, hr'⟩ := (indexResource_ok_iff cl b c).mpr (hc hr)
    rw [if_pos rfl, indexResource_indexSubresource cl b hs, hr']
    exact ⟨_, rfl, by simpa only [insertResource_context, insertResource_domain,
      indexSubresource_context, indexSubresource_domain] using hs⟩

theorem parseIndexStep_eq_error {c : ι} (hc : cl.isAPIResource c = true) (e : Abort) :
    parseIndexStep cl s c = .error e ↔ ResourceDefect cl b c e := by
  rw [parseIndexStep, if_pos hc, Except.bind_pure_eq_error,
    indexResource_indexSubresource cl b hs, indexResource_eq_error]

end Run

/-- `ParseIndex` completes exactly when every API resource declaration has its resource
built: one that fails aborts the run, whatever comes before it. -/
theorem parseIndex_ok_iff (cl : Classifier ι) (b : APIsBuilder ι) :
    (∃ b', parseIndex cl b = .ok b') ↔
      ∀ c ∈ b.context.order, cl.isAPIResource c = true → ResourceTagged cl b c :=
  foldlM_ok_iff (fun s => s.context = b.context ∧ s.domain = b.domain) _
    (fun _ _ hs hc => parseIndexStep_ok_of_tagged cl b hs hc)
    (fun _ c hs hc =>
      let ⟨e, he⟩ := resourceDefect_of_not_resourceTagged cl b c (Classical.not_imp.mp hc).2
      ⟨e, (parseIndexStep_eq_error cl b hs (Classical.not_imp.mp hc).1 e).mpr he⟩)
    _ _ ⟨rfl, rfl⟩

/-- The abort of `ParseIndex`: the one reported for the first API resource declaration
whose resource cannot be built. -/
theorem parseIndex_eq_error (cl : Classifier ι) (b : APIsBuilder ι) (e : Abort) :
    parseIndex cl b = .error e ↔
      FirstFailing (fun c => cl.isAPIResource c = true → ResourceTagged cl b c)
        (fun c => ResourceDefect cl b c e) b.context.order :=
  foldlM_eq_error_iff (fun s => s.context = b.context ∧ s.domain = b.domain) _
    (fun c e => ResourceDefect cl b c e)
    (fun _ _ hs hc => parseIndexStep_ok_of_tagged cl b hs hc)
    (fun _ _ e hs hc => parseIndexStep_eq_error cl b hs (Classical.not_imp.mp hc).1 e)
    (fun c hc => resourceDefect_of_not_resourceTagged cl b c (Classical.not_imp.mp hc).2)
    _ _ ⟨rfl, rfl⟩ e

/-- **ParseIndex.** After a completed run, at every triple: the two indices hold the same
entry; there is one exactly when some API resource declaration has that triple; it is
the resource built from the last such declaration; no inner map of either index is
empty; and the subresource index holds the last subresource declaration with the
triple. -/
theorem parseIndex_spec (cl : Classifier ι) (b b' : APIsBuilder ι) (h : parseIndex cl b = .ok b')
    (g v k : String) :
    b'.byGroupVersionKind.lookup3 g v k = b'.byGroupKindVersion.lookup3 g k v ∧
    ((b'.byGroupVersionKind.lookup3 g v k).isSome ↔
      ∃ c ∈ b.context.order, cl.isAPIResource c = true ∧ gvkOf cl c = (g, v, k)) ∧
    (∀ c, lastDecl cl cl.isAPIResource b.context.order g v k = some c →
      ∃ r, b'.byGroupVersionKind.lookup3 g v k = some r ∧
        r.group = g ∧ r.version = v ∧ r.kind = k ∧ BuiltFrom cl b c r) ∧
    NoEmptyInner b'.byGroupVersionKind ∧ NoEmptyInner b'.byGroupKindVersion ∧
    b'.subByGroupVersionKind.lookup3 g v k = lastDecl cl cl.isAPISubresource b.context.order g v k := by
  have hi := indexInv_parseIndex h
  exact ⟨hi.resources.dual g v k, hi.resources.lookup3_isSome_iff g v k,
    fun _ hc => hi.resources.lookup3_builtFrom hc, hi.resources.noEmptyVersionKind,
    hi.resources.noEmptyKindVersion, hi.subresources g v k⟩

/-- Versions `v1` and `v2` of a `Widget` type. -/
def widgetVersions : Context Bool :=
  ⟨fun v => ⟨⟨if v then "example.com/apis/core/v1" else "example.com/apis/core/v2", "Widget"⟩,
    [], none, []⟩, [true, false], fun _ => none⟩

/-- Both declarations read as `+resource=widgets` resources of group `core`. -/
def widgetClassifier : Classifier Bool :=
  { (default : Classifier Bool) with
    isAPIResource := fun _ => true, getGroup := fun _ => "core",
    getVersion := fun v _ => if v then "v1" else "v2", getKind := fun _ _ => "Widget",
    getTag := fun _ _ _ => "resource=widgets,rest=WidgetREST" }

theorem parseIndex_widget_versions :
    ∃ b', parseIndex widgetClassifier (APIsBuilder.init widgetVersions) = .ok b' ∧
      (b'.byGroupVersionKind.lookup3 "core" "v2" "Widget").isSome := by
  refine ⟨_, rfl, ?_⟩
  exact (parseIndex_spec widgetClassifier (APIsBuilder.init widgetVersions) _ rfl
    "core" "v2" "Widget").2.1.mpr ⟨false, by decide, rfl, rfl⟩

end ApiRegisterGen
