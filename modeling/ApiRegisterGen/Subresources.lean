import ApiRegisterGen.Tags

/-!
# Subresource resolution (parser.go:337-388)

`GetSubresources` parses every `+subresource` directive on a resource's type, builds an
`APISubresource` for it, resolves a request type written `importpath.Name` into
`pkg.Name` and its import, and ends the run with `log.Fatalf` when a second directive
resolves to a path already registered.
-/

namespace ApiRegisterGen

variable {ι : Type}

/-- `GetSubresourceTags`: the `+subresource:` directives in a type's comments. -/
def getSubresourceTags (cl : Classifier ι) (b : APIsBuilder ι) (c : ι) : List String :=
  cl.getTags (b.context.types c).commentLines "subresource" ":"

/-- `IsInPackage`: a request type without a `.` is in the resource's package. -/
def isInPackage (tags : SubresourceTags) : Bool := !Strings.contains tags.requestKind "."

/-- `GetNameAndImport`: the request type as `pkg.Name`, and its import path. It is called
only when the request type holds a `.`, so `last` is a position. -/
def getNameAndImport (tags : SubresourceTags) : String × String :=
  let last := Strings.lastIndex tags.requestKind "."
  let importPackage : String := ⟨tags.requestKind.data.take last.toNat⟩
  let requestKind : String := ⟨tags.requestKind.data.drop (last + 1).toNat⟩
  (Strings.join [Filepath.base importPackage, requestKind] ".", importPackage)

/-- The `APISubresource` built for one parsed directive (parser.go:348-362). -/
def subresourceOf (domain : String) (c : APIResource ι) (tags : SubresourceTags) :
    APISubresource :=
  let sr : APISubresource :=
    { kind := tags.kind, request := tags.requestKind, path := tags.path, rest := tags.rest,
      domain := domain, version := c.version, resource := c.resource, group := c.group,
      importPackage := "" }
  if !isInPackage tags then
    { sr with request := (getNameAndImport tags).1, importPackage := (getNameAndImport tags).2 }
  else sr

/-- `%v` of an `*APISubresource`: `&{...}` with the fields in declaration order, the two
type pointers, never set, printing as `<nil>`. -/
def formatSubresource (v : APISubresource) : String :=
  "&\x7b" ++ v.domain ++ " " ++ v.group ++ " " ++ v.version ++ " " ++ v.kind ++ " " ++
    v.resource ++ " " ++ v.request ++ " " ++ v.rest ++ " " ++ v.path ++ " " ++
    v.importPackage ++ " <nil> <nil>\x7d"

/-- The `log.Fatalf` text for a directive whose path is already registered. -/
def duplicateSubresourceMessage (path : String) (v : APISubresource) (subresource : String) :
    String :=
  "Multiple subresources registered for path " ++ path ++ ": " ++ formatSubresource v ++ " " ++
    subresource

/-- One directive of the loop of `GetSubresources` (parser.go:345-368). -/
def subresourceStep (domain : String) (c : APIResource ι) (r : GoMap APISubresource)
    (subresource : String) : Except Abort (GoMap APISubresource) := do
  let sr := subresourceOf domain c (← parseSubresourceTag c subresource)
  match r.lookup sr.path with
  | some v => throw (.fatal (duplicateSubresourceMessage sr.path v subresource))
  | none => pure (r.insert sr.path sr)

/-- `GetSubresources` over the directives `subresources` found on the resource's type. -/
def getSubresourcesOf (domain : String) (c : APIResource ι) (subresources : List String) :
    Except Abort (GoMap APISubresource) :=
  if subresources.length = 0 then pure ∅
  else subresources.foldlM (subresourceStep domain c) ∅

/-- `GetSubresources` (parser.go:337-370). -/
def getSubresources (cl : Classifier ι) (b : APIsBuilder ι) (c : APIResource ι) :
    Except Abort (GoMap APISubresource) :=
  getSubresourcesOf b.domain c (getSubresourceTags cl b c.type)

/-! ### Request types -/

theorem isInPackage_iff (tags : SubresourceTags) :
    isInPackage tags = true ↔ '.' ∉ tags.requestKind.data := by
  simp [isInPackage, Strings.contains_of_data_eq (show (".":String).data = ['.'] from rfl)]

/-- A request type `I.N` with no `.` in `N` is imported from `I` and named `base(I).N`. -/
theorem getNameAndImport_eq (tags : SubresourceTags) (I N : String)
    (h : tags.requestKind = I ++ "." ++ N) (hN : '.' ∉ N.data) :
    getNameAndImport tags = (Filepath.base I ++ "." ++ N, I) := by
  have hdata : tags.requestKind.data = I.data ++ '.' :: N.data := by
    rw [h, String.data_append, String.data_append, List.append_assoc]; rfl
  have hlast := Strings.lastIndex_last (show (".":String).data = ['.'] from rfl) I N hdata hN
  have hlen : I.length = I.data.length := rfl
  have htake : tags.requestKind.data.take (Strings.lastIndex tags.requestKind ".").toNat =
      I.data := by
    rw [hlast, hdata, Int.toNat_ofNat, hlen, List.take_left' rfl]
  have hdrop : tags.requestKind.data.drop (Strings.lastIndex tags.requestKind "." + 1).toNat =
      N.data := by
    rw [hlast, hdata, show ((I.length : Int) + 1).toNat = I.data.length + 1 by rw [hlen]; omega,
      List.drop_append]
    rfl
  simp only [getNameAndImport, htake, hdrop]
  simp [Strings.join]

/-! ### The loop -/

/-- The tags of a well-formed directive. -/
def directiveTags (c : APIResource ι) (d : String) : SubresourceTags :=
  subresourceTagsOf c.resource (Strings.split d ",")

theorem subresourceStep_of_wellFormed (domain : String) (c : APIResource ι)
    (r : GoMap APISubresource) {d : String} (hd : TagWellFormed d) :
    subresourceStep domain c r d =
      match r.lookup (directiveTags c d).path with
      | some v => .error (.fatal (duplicateSubresourceMessage (directiveTags c d).path v d))
      | none => .ok (r.insert (directiveTags c d).path (subresourceOf domain c (directiveTags c d))) := by
  have hpath : ∀ t, (subresourceOf domain c t).path = t.path := by
    intro t; unfold subresourceOf; split <;> rfl
  simp only [subresourceStep, parseSubresourceTag_eq, if_pos hd]
  dsimp only [bind, Except.bind]
  rw [hpath]
  rfl

theorem subresourceStep_of_not_wellFormed (domain : String) (c : APIResource ι)
    (r : GoMap APISubresource) {d : String} (hd : ¬TagWellFormed d) :
    subresourceStep domain c r d = .error (.fatal (subresourceTagMessage d)) := by
  simp only [subresourceStep, parseSubresourceTag_eq, if_neg hd]
  rfl

/-- Inserting the directives of `L` one by one into `acc`. -/
def insertAll (domain : String) (c : APIResource ι) (acc : GoMap APISubresource)
    (L : List String) : GoMap APISubresource :=
  L.foldl (fun r d => r.insert (directiveTags c d).path (subresourceOf domain c (directiveTags c d)))
    acc

theorem foldlM_subresourceStep_ok (domain : String) (c : APIResource ι) :
    ∀ (L : List String) (acc : GoMap APISubresource), (∀ d ∈ L, TagWellFormed d) →
      (L.map fun d => (directiveTags c d).path).Nodup →
      (∀ d ∈ L, (directiveTags c d).path ∉ acc) →
      L.foldlM (subresourceStep domain c) acc = .ok (insertAll domain c acc L)
  | [], _, _, _, _ => rfl
  | d :: L, acc, hwf, hnd, hfresh => by
    have hnone : acc.lookup (directiveTags c d).path = none :=
      AList.lookup_eq_none.mpr (hfresh d (List.mem_cons_self _ _))
    rw [List.foldlM_cons, subresourceStep_of_wellFormed _ _ _ (hwf d (List.mem_cons_self _ _)),
      hnone]
    simp only [List.map_cons, List.nodup_cons, List.mem_map] at hnd
    refine foldlM_subresourceStep_ok domain c L _ (fun e he => hwf e (List.mem_cons_of_mem _ he))
      hnd.2 (fun e he hmem => ?_)
    rcases (AList.mem_insert _).mp hmem with heq | hmem
    · exact hnd.1 ⟨e, he, heq⟩
    · exact hfresh e (List.mem_cons_of_mem _ he) hmem

theorem foldlM_subresourceStep_error (domain : String) (c : APIResource ι) :
    ∀ (L : List String) (acc : GoMap APISubresource), (∀ d ∈ L, TagWellFormed d) →
      ¬((L.map fun d => (directiveTags c d).path).Nodup ∧
        ∀ d ∈ L, (directiveTags c d).path ∉ acc) →
      ∃ msg, L.foldlM (subresourceStep domain c) acc = .error (.fatal msg)
  | [], _, _, h => absurd ⟨List.nodup_nil, fun _ h => absurd h (List.not_mem_nil _)⟩ h
  | d :: L, acc, hwf, h => by
    rw [List.foldlM_cons, subresourceStep_of_wellFormed _ _ _ (hwf d (List.mem_cons_self _ _))]
    cases hl : acc.lookup (directiveTags c d).path with
    | some v => exact ⟨_, rfl⟩
    | none =>
      refine foldlM_subresourceStep_error domain c L _
        (fun e he => hwf e (List.mem_cons_of_mem _ he)) (fun ⟨hnd, hfresh⟩ => h ⟨?_, ?_⟩)
      · refine List.nodup_cons.mpr ⟨fun hm => ?_, hnd⟩
        obtain ⟨e, he, heq⟩ := List.mem_map.mp hm
        exact hfresh e he ((AList.mem_insert _).mpr (Or.inl heq))
      · intro e he
        rcases List.mem_cons.mp he with rfl | he
        · exact AList.lookup_eq_none.mp hl
        · exact fun hm => hfresh e he ((AList.mem_insert _).mpr (Or.inr hm))

theorem insertAll_length (domain : String) (c : APIResource ι) :
    ∀ (L : List String) (acc : GoMap APISubresource),
      (L.map fun d => (directiveTags c d).path).Nodup →
      (∀ d ∈ L, (directiveTags c d).path ∉ acc) →
      (insertAll domain c acc L).entries.length = acc.entries.length + L.length
  | [], _, _, _ => rfl
  | d :: L, acc, hnd, hfresh => by
    simp only [List.map_cons, List.nodup_cons, List.mem_map] at hnd
    have hstep := insertAll_length domain c L
      (acc.insert (directiveTags c d).path (subresourceOf domain c (directiveTags c d))) hnd.2
      (fun e he hmem => by
        rcases (AList.mem_insert _).mp hmem with heq | hmem
        · exact hnd.1 ⟨e, he, heq⟩
        · exact hfresh e (List.mem_cons_of_mem _ he) hmem)
    rw [insertAll, List.foldl_cons, ← insertAll, hstep,
      AList.insert_entries_of_neg (hfresh d (List.mem_cons_self _ _))]
    simp only [List.length_cons]
    omega

theorem insertAll_lookup_of_not_mem (domain : String) (c : APIResource ι) (p : String) :
    ∀ (L : List String) (acc : GoMap APISubresource), (∀ e ∈ L, (directiveTags c e).path ≠ p) →
      (insertAll domain c acc L).lookup p = acc.lookup p
  | [], _, _ => rfl
  | e :: L, acc, h => by
    rw [insertAll, List.foldl_cons, ← insertAll,
      insertAll_lookup_of_not_mem domain c p L _ (fun f hf => h f (List.mem_cons_of_mem _ hf)),
      GoMap.lookup_insert_eq, if_neg (Ne.symm (h e (List.mem_cons_self _ _)))]

theorem insertAll_lookup (domain : String) (c : APIResource ι) :
    ∀ (L : List String) (acc : GoMap APISubresource),
      (L.map fun d => (directiveTags c d).path).Nodup → ∀ d ∈ L,
      (insertAll domain c acc L).lookup (directiveTags c d).path =
        some (subresourceOf domain c (directiveTags c d))
  | [], _, _, _, h => absurd h (List.not_mem_nil _)
  | e :: L, acc, hnd, d, hd => by
    simp only [List.map_cons, List.nodup_cons, List.mem_map] at hnd
    rw [insertAll, List.foldl_cons, ← insertAll]
    rcases List.mem_cons.mp hd with rfl | hd
    · rw [insertAll_lookup_of_not_mem _ _ _ L _ (fun f hf heq => hnd.1 ⟨f, hf, heq⟩),
        AList.lookup_insert]
    · exact insertAll_lookup domain c L _ hnd.2 d hd

/-- What the subresource built for a directive carries (parser.go:348-362). -/
theorem subresourceOf_fields (domain : String) (c : APIResource ι) (t : SubresourceTags) :
    (subresourceOf domain c t).rest = t.rest ∧ (subresourceOf domain c t).path = t.path ∧
    (subresourceOf domain c t).version = c.version ∧
    (subresourceOf domain c t).resource = c.resource ∧
    (subresourceOf domain c t).group = c.group ∧ (subresourceOf domain c t).domain = domain ∧
    ('.' ∉ t.requestKind.data →
      (subresourceOf domain c t).request = t.requestKind ∧
      (subresourceOf domain c t).importPackage = "") ∧
    (∀ I N, t.requestKind = I ++ "." ++ N → '.' ∉ N.data →
      (subresourceOf domain c t).request = Filepath.base I ++ "." ++ N ∧
      (subresourceOf domain c t).importPackage = I) := by
  by_cases h : isInPackage t = true
  · have hdot := (isInPackage_iff t).mp h
    dsimp only [subresourceOf]
    rw [if_neg (by simp [h])]
    refine ⟨rfl, rfl, rfl, rfl, rfl, rfl, fun _ => ⟨rfl, rfl⟩, fun I N hIN _ => ?_⟩
    exact absurd (by simp [hIN]) hdot
  · dsimp only [subresourceOf]
    rw [if_pos (by simpa using h)]
    refine ⟨rfl, rfl, rfl, rfl, rfl, rfl, fun hdot => ?_, fun I N hIN hN => ?_⟩
    · exact absurd ((isInPackage_iff t).mpr hdot) h
    · rw [getNameAndImport_eq t I N hIN hN]
      exact ⟨rfl, rfl⟩

/-- The paths the directives of `L` resolve to. -/
def directivePaths (c : APIResource ι) (L : List String) : List String :=
  L.map fun d => (directiveTags c d).path

theorem getSubresourcesOf_ok (domain : String) (c : APIResource ι) (L : List String)
    (hwf : ∀ d ∈ L, TagWellFormed d) (hnd : (directivePaths c L).Nodup) :
    getSubresourcesOf domain c L = .ok (insertAll domain c ∅ L) := by
  unfold getSubresourcesOf
  by_cases h : L.length = 0
  · rw [if_pos h, List.length_eq_zero.mp h]; rfl
  · rw [if_neg h]
    exact foldlM_subresourceStep_ok domain c L ∅ hwf hnd (fun _ _ => AList.not_mem_empty _)

theorem getSubresourcesOf_error (domain : String) (c : APIResource ι) (L : List String)
    (hwf : ∀ d ∈ L, TagWellFormed d) (hnd : ¬(directivePaths c L).Nodup) :
    ∃ msg, getSubresourcesOf domain c L = .error (.fatal msg) := by
  unfold getSubresourcesOf
  by_cases h : L.length = 0
  · rw [List.length_eq_zero.mp h] at hnd
    exact absurd List.nodup_nil hnd
  · rw [if_neg h]
    exact foldlM_subresourceStep_error domain c L ∅ hwf (fun h => hnd h.1)

/-- `GetSubresources` over the directives `L` succeeds exactly when every directive is
well formed and no two resolve to one path. -/
theorem getSubresourcesOf_ok_iff (domain : String) (c : APIResource ι) (L : List String) :
    (∃ m, getSubresourcesOf domain c L = .ok m) ↔
      (∀ d ∈ L, TagWellFormed d) ∧ (directivePaths c L).Nodup := by
  by_cases hwf : ∀ d ∈ L, TagWellFormed d
  · rw [and_iff_right hwf]
    refine ⟨fun ⟨m, hm⟩ => by_contra fun hnd => ?_, fun hnd => ⟨_, getSubresourcesOf_ok domain c L hwf hnd⟩⟩
    obtain ⟨msg, he⟩ := getSubresourcesOf_error domain c L hwf hnd
    exact nomatch hm.symm.trans he
  · refine iff_of_false (fun ⟨m, hm⟩ => ?_) fun h => hwf h.1
    push_neg at hwf
    obtain ⟨d, hd, hbad⟩ := hwf
    have hL : L.length ≠ 0 := List.length_pos_of_mem hd |>.ne'
    rw [getSubresourcesOf, if_neg hL] at hm
    obtain ⟨e, he⟩ := foldlM_error_of_mem
      (fun r => ⟨_, subresourceStep_of_not_wellFormed domain c r hbad⟩) L ∅ hd
    exact nomatch hm.symm.trans he

/-- Subresource resolution: for well-formed directives on the resource's type,
`GetSubresources` is fatal exactly when two of them resolve to one path; otherwise it
returns one entry per directive, keyed by its path, carrying its REST and path, the
resource's version, resource and group, the builder's domain, and the request type either
as written (no `.`) or as `base(I).N` imported from `I`. -/
theorem getSubresources_spec (cl : Classifier ι) (b : APIsBuilder ι) (c : APIResource ι)
    (hwf : ∀ d ∈ getSubresourceTags cl b c.type, TagWellFormed d) :
    ((∃ msg, getSubresources cl b c = .error (.fatal msg)) ↔
      ¬(directivePaths c (getSubresourceTags cl b c.type)).Nodup) ∧
    ((directivePaths c (getSubresourceTags cl b c.type)).Nodup →
      ∃ m, getSubresources cl b c = .ok m ∧
        m.entries.length = (getSubresourceTags cl b c.type).length ∧
        ∀ d ∈ getSubresourceTags cl b c.type, ∃ sr,
          m.lookup (directiveTags c d).path = some sr ∧
          sr.rest = (directiveTags c d).rest ∧ sr.path = (directiveTags c d).path ∧
          sr.version = c.version ∧ sr.resource = c.resource ∧ sr.group = c.group ∧
          sr.domain = b.domain ∧
          ('.' ∉ (directiveTags c d).requestKind.data →
            sr.request = (directiveTags c d).requestKind ∧ sr.importPackage = "") ∧
          (∀ I N, (directiveTags c d).requestKind = I ++ "." ++ N → '.' ∉ N.data →
            sr.request = Filepath.base I ++ "." ++ N ∧ sr.importPackage = I)) := by
  have hok := getSubresourcesOf_ok b.domain c _ hwf
  refine ⟨⟨fun ⟨msg, h⟩ hnd => ?_, getSubresourcesOf_error b.domain c _ hwf⟩, fun hnd => ?_⟩
  · rw [getSubresources, hok hnd] at h
    cases h
  · refine ⟨_, hok hnd, ?_, fun d hd => ⟨_, insertAll_lookup b.domain c _ ∅ hnd d hd,
      subresourceOf_fields b.domain c (directiveTags c d)⟩⟩
    rw [insertAll_length b.domain c _ ∅ hnd (fun _ _ => AList.not_mem_empty _),
      AList.empty_entries, List.length_nil, Nat.zero_add]

/-- Directives for a `widgets` resource: a local request type and an imported one. -/
def widgetDirectives : List String :=
  ["request=ScaleRequest,rest=ScaleREST,path=widgets/scale",
    "request=k8s.io/api/autoscaling/v1.Scale,path=widgets/status,rest=StatusREST"]

/-- The `Widget` resource of group `core`, version `v1`, on a one-type universe. -/
def widgetResource : APIResource Unit :=
  { domain := "example.com", group := "core", version := "v1", kind := "Widget",
    resource := "widgets", rest := "", subresources := ∅, type := (), strategy := "",
    statusStrategy := "", nonNamespaced := false }

theorem getSubresources_widgets :
    (∀ d ∈ getSubresourceTags { (default : Classifier Unit) with
        getTags := fun _ _ _ => widgetDirectives }
        (APIsBuilder.init ⟨fun _ => ⟨⟨"", ""⟩, [], none, []⟩, [], fun _ => none⟩) (),
      TagWellFormed d) ∧
    ∃ m, getSubresources { (default : Classifier Unit) with
        getTags := fun _ _ _ => widgetDirectives }
        (APIsBuilder.init ⟨fun _ => ⟨⟨"", ""⟩, [], none, []⟩, [], fun _ => none⟩)
        widgetResource = .ok m ∧ m.entries.length = 2 := by
  have h := getSubresources_spec { (default : Classifier Unit) with
    getTags := fun _ _ _ => widgetDirectives }
    (APIsBuilder.init ⟨fun _ => ⟨⟨"", ""⟩, [], none, []⟩, [], fun _ => none⟩)
    widgetResource (by decide)
  obtain ⟨m, hm, hlen, -⟩ := h.2 (by decide)
  exact ⟨by decide, m, hm, hlen⟩

/-! ### Which directive aborts -/

/-- Directive `d`, read after the directives `done`, is malformed or resolves to the path of
one of them, and `e` is the abort the loop reports for it: a duplicate's message prints the
subresource already stored under the path. -/
def DirectiveClash (domain : String) (c : APIResource ι) (done : List String) (d : String)
    (e : Abort) : Prop :=
  ¬TagWellFormed d ∧ e = .fatal (subresourceTagMessage d) ∨
    TagWellFormed d ∧ ∃ d' ∈ done, (directiveTags c d').path = (directiveTags c d).path ∧
      e = .fatal (duplicateSubresourceMessage (directiveTags c d).path
        (subresourceOf domain c (directiveTags c d')) d)

/-- `e` is reported for the first directive of `L` that clashes with those before it. -/
def DirectiveDefect (domain : String) (c : APIResource ι) (L : List String) (e : Abort) :
    Prop :=
  ∃ pre d suf, L = pre ++ d :: suf ∧ (∀ x ∈ pre, TagWellFormed x) ∧
    (directivePaths c pre).Nodup ∧ DirectiveClash domain c pre d e

theorem subresourceStep_insertAll_fresh (domain : String) (c : APIResource ι)
    (done : List String) {d : String} (hd : TagWellFormed d)
    (hfresh : (directiveTags c d).path ∉ directivePaths c done) :
    subresourceStep domain c (insertAll domain c ∅ done) d =
      .ok (insertAll domain c ∅ (done ++ [d])) := by
  rw [subresourceStep_of_wellFormed _ _ _ hd, insertAll_lookup_of_not_mem _ _ _ _ _
    (fun e he heq => hfresh (List.mem_map.mpr ⟨e, he, heq⟩)), AList.lookup_empty,
    insertAll, insertAll, List.foldl_append]
  rfl

section Clash

variable (domain : String) (c : APIResource ι) {done : List String}
  (hnd : (directivePaths c done).Nodup) {d : String}
  (hd : ¬(TagWellFormed d ∧ (directiveTags c d).path ∉ directivePaths c done))
include hnd hd

theorem subresourceStep_insertAll_error :
    ∃ e, subresourceStep domain c (insertAll domain c ∅ done) d = .error e := by
  by_cases hwf : TagWellFormed d
  · obtain ⟨d', hd', hpath⟩ := List.mem_map.mp (not_not.mp fun h => hd ⟨hwf, h⟩)
    rw [subresourceStep_of_wellFormed _ _ _ hwf, ← hpath,
      insertAll_lookup domain c done ∅ hnd d' hd']
    exact ⟨_, rfl⟩
  · exact ⟨_, subresourceStep_of_not_wellFormed _ _ _ hwf⟩

theorem subresourceStep_insertAll_eq_error (e : Abort) :
    subresourceStep domain c (insertAll domain c ∅ done) d = .error e ↔
      DirectiveClash domain c done d e := by
  by_cases hwf : TagWellFormed d
  · obtain ⟨d', hd', hpath⟩ := List.mem_map.mp (not_not.mp fun h => hd ⟨hwf, h⟩)
    have hlookup : ∀ d'' ∈ done, (directiveTags c d'').path = (directiveTags c d).path →
        (insertAll domain c ∅ done).lookup (directiveTags c d).path =
          some (subresourceOf domain c (directiveTags c d'')) := fun d'' hd'' h =>
      h ▸ insertAll_lookup domain c done ∅ hnd d'' hd''
    rw [subresourceStep_of_wellFormed _ _ _ hwf, hlookup d' hd' hpath, DirectiveClash,
      or_iff_right fun h => h.1 hwf, and_iff_right hwf]
    refine ⟨fun h => ⟨d', hd', hpath, by cases h; rfl⟩, fun ⟨d'', hd'', hpath', he⟩ => ?_⟩
    rw [he, Option.some.inj ((hlookup d'' hd'' hpath').symm.trans (hlookup d' hd' hpath))]
  · rw [subresourceStep_of_not_wellFormed _ _ _ hwf, DirectiveClash, or_iff_left fun h => hwf h.1,
      and_iff_right hwf, Except.error.injEq, eq_comm]

end Clash

theorem foldlM_subresourceStep_eq_error (domain : String) (c : APIResource ι) (e : Abort) :
    ∀ (L done : List String), (directivePaths c done).Nodup →
      (L.foldlM (subresourceStep domain c) (insertAll domain c ∅ done) = .error e ↔
        ∃ pre d suf, L = pre ++ d :: suf ∧ (∀ x ∈ pre, TagWellFormed x) ∧
          (directivePaths c (done ++ pre)).Nodup ∧ DirectiveClash domain c (done ++ pre) d e)
  | [], _, _ => iff_of_false (fun h => nomatch h) fun ⟨pre, _, _, h, _⟩ => by cases pre <;> cases h
  | d :: L, done, hnd => by
    rw [List.foldlM_cons, exists_cons_eq_append_cons]
    simp only [List.append_nil, List.not_mem_nil, false_implies, implies_true, true_and, hnd,
      List.forall_mem_cons]
    by_cases hcl : TagWellFormed d ∧ (directiveTags c d).path ∉ directivePaths c done
    · have hnd' : (directivePaths c (done ++ [d])).Nodup := by
        simp only [directivePaths, List.map_append, List.map_singleton, List.nodup_append,
          List.nodup_singleton, List.disjoint_singleton, true_and]
        exact ⟨hnd, hcl.2⟩
      have hno : ¬DirectiveClash domain c done d e := by
        rintro (⟨h, -⟩ | ⟨-, d', hd', hpath, -⟩)
        · exact h hcl.1
        · exact hcl.2 (List.mem_map.mpr ⟨d', hd', hpath⟩)
      rw [subresourceStep_insertAll_fresh domain c done hcl.1 hcl.2, or_iff_right hno]
      refine (foldlM_subresourceStep_eq_error domain c e L _ hnd').trans ?_
      simp only [List.append_assoc, List.singleton_append, hcl.1, true_and]
    · obtain ⟨e₀, he₀⟩ := subresourceStep_insertAll_error domain c hnd hcl
      have hfresh : ∀ pre, (directivePaths c (done ++ d :: pre)).Nodup →
          (directiveTags c d).path ∉ directivePaths c done := fun pre h => by
        simp only [directivePaths, List.map_append, List.map_cons, List.nodup_append,
          List.disjoint_cons_right] at h
        exact h.2.2.1
      rw [he₀, or_iff_left fun ⟨pre, _, _, _, hwf, hnd', _⟩ => hcl ⟨hwf.1, hfresh pre hnd'⟩,
        ← subresourceStep_insertAll_eq_error domain c hnd hcl, he₀]
      rfl

/-- The abort of `GetSubresources`: the one reported for the first directive that is
malformed or that resolves to the path of an earlier one. -/
theorem getSubresourcesOf_eq_error (domain : String) (c : APIResource ι) (L : List String)
    (e : Abort) : getSubresourcesOf domain c L = .error e ↔ DirectiveDefect domain c L e := by
  unfold getSubresourcesOf
  by_cases h : L.length = 0
  · rw [if_pos h, List.length_eq_zero.mp h]
    exact iff_of_false (fun h => nomatch h) fun ⟨pre, _, _, h, _⟩ => by cases pre <;> cases h
  · rw [if_neg h]
    exact foldlM_subresourceStep_eq_error domain c e L [] List.nodup_nil

end ApiRegisterGen
