import ApiRegisterGen.Records

/-!
# The directive tag grammar (parser.go:390-481)

`ParseResourceTag`, `ParseControllerTag` and `ParseSubresourceTag` run one loop: split the
tag on `,`, split each element on `=`, end the run with `log.Fatalf` unless that gives
exactly two parts, and otherwise let the key pick the field the value is written to.
The loop is `parseTag`; each parser supplies its `switch` as a `set` function. The
results: a parse is fatal exactly when some element does not hold exactly one `=`, and
otherwise each recognised field holds the value of the last element with its key.
-/

namespace ApiRegisterGen

/-- `ResourceTags`. -/
@[ext]
structure ResourceTags where
  resource : String
  rest : String
  strategy : String
  deriving DecidableEq, Repr

/-- `ControllerTags`. -/
@[ext]
structure ControllerTags where
  gvk : GroupVersionKind
  resource : String
  deriving DecidableEq, Repr

/-- `SubresourceTags`; no key sets `Kind`. -/
@[ext]
structure SubresourceTags where
  path : String
  kind : String
  requestKind : String
  rest : String
  deriving DecidableEq, Repr

/-! ### The shared loop -/

/-- One element of the loop (parser.go:401-407): abort with `message` unless the element
splits on `=` into exactly two parts, else record key and value with `set`. -/
def tagStep {R : Type} (set : String → String → R → R) (message : String) (result : R)
    (elem : String) : Except Abort R :=
  let kv := Strings.split elem "="
  if kv.length ≠ 2 then throw (.fatal message) else pure (set (kv.getD 0 "") (kv.getD 1 "") result)

/-- The loop of the three tag parsers, from the zero record `init`. -/
def parseTag {R : Type} (set : String → String → R → R) (message : String) (init : R)
    (tag : String) : Except Abort R :=
  (Strings.split tag ",").foldlM (tagStep set message) init

/-- The switch of `ParseResourceTag`. -/
def ResourceTags.set (key value : String) (result : ResourceTags) : ResourceTags :=
  if key = "rest" then { result with rest := value }
  else if key = "path" then { result with resource := value }
  else if key = "strategy" then { result with strategy := value }
  else result

/-- The `log.Fatalf` text of `ParseResourceTag`. -/
def resourceTagMessage (tag : String) : String :=
  "// +resource: tags must be key value pairs.  Expected keys [path=<subresourcepath>] " ++
    "Got string: [" ++ tag ++ "]"

/-- `ParseResourceTag` (parser.go:397-418). -/
def parseResourceTag (tag : String) : Except Abort ResourceTags :=
  parseTag ResourceTags.set (resourceTagMessage tag) ⟨"", "", ""⟩ tag

/-- The switch of `ParseControllerTag`. -/
def ControllerTags.set (key value : String) (result : ControllerTags) : ControllerTags :=
  if key = "group" then { result with gvk := { result.gvk with group := value } }
  else if key = "version" then { result with gvk := { result.gvk with version := value } }
  else if key = "kind" then { result with gvk := { result.gvk with kind := value } }
  else if key = "resource" then { result with resource := value }
  else result

/-- The `log.Fatalf` text of `ParseControllerTag`. -/
def controllerTagMessage (tag : String) : String :=
  "// +controller: tags must be key value pairs.  Expected " ++
    "keys [group=<group>,version=<version>,kind=<kind>,resource=<resource>] " ++
    "Got string: [" ++ tag ++ "]"

/-- `ParseControllerTag` (parser.go:427-449). -/
def parseControllerTag (tag : String) : Except Abort ControllerTags :=
  parseTag ControllerTags.set (controllerTagMessage tag) ⟨⟨"", "", ""⟩, ""⟩ tag

/-- The switch of `ParseSubresourceTag`; a path has its parent resource stripped. -/
def SubresourceTags.set (parent key value : String) (result : SubresourceTags) :
    SubresourceTags :=
  if key = "request" then { result with requestKind := value }
  else if key = "rest" then { result with rest := value }
  else if key = "path" then { result with path := Strings.replace value (parent ++ "/") "" (-1) }
  else result

/-- The `log.Fatalf` text of `ParseSubresourceTag`. -/
def subresourceTagMessage (tag : String) : String :=
  "// +subresource: tags must be key value pairs.  Expected " ++
    "keys [request=<requestType>,rest=<restImplType>,path=<subresourcepath>] " ++
    "Got string: [" ++ tag ++ "]"

/-- `ParseSubresourceTag` (parser.go:460-481). -/
def parseSubresourceTag {ι : Type} (c : APIResource ι) (tag : String) :
    Except Abort SubresourceTags :=
  parseTag (SubresourceTags.set c.resource) (subresourceTagMessage tag) ⟨"", "", "", ""⟩ tag

/-! ### Elements -/

/-- The key of an element: its text before the `=`. -/
def elemKey (elem : String) : String := (Strings.split elem "=").getD 0 ""

/-- The value of an element: its text after the `=`. -/
def elemValue (elem : String) : String := (Strings.split elem "=").getD 1 ""

/-- The value of the last element whose key is `key`. -/
def lastValue (key : String) (elems : List String) : Option String :=
  ((elems.filter fun e => elemKey e = key).getLast?).map elemValue

theorem tagStep_eq {R : Type} (set : String → String → R → R) (message : String) (r : R)
    (e : String) : tagStep set message r e =
      if e.data.count '=' = 1 then .ok (set (elemKey e) (elemValue e) r)
      else .error (.fatal message) := by
  have h : (Strings.split e "=").length = e.data.count '=' + 1 :=
    Strings.length_split_eq_count rfl
  dsimp only [tagStep]
  rw [h]
  by_cases hc : e.data.count '=' = 1
  · rw [if_neg (by omega), if_pos hc]; rfl
  · rw [if_pos (by omega), if_neg hc]; rfl

theorem foldlM_tagStep {R : Type} (set : String → String → R → R) (message : String)
    (elems : List String) (init : R) :
    elems.foldlM (tagStep set message) init =
      if ∀ e ∈ elems, e.data.count '=' = 1 then
        .ok (elems.foldl (fun r e => set (elemKey e) (elemValue e) r) init)
      else .error (.fatal message) := by
  induction elems generalizing init with
  | nil => rfl
  | cons e es ih =>
    rw [List.foldlM_cons, tagStep_eq]
    by_cases he : e.data.count '=' = 1
    · simp only [he, if_true, List.forall_mem_cons, true_and, List.foldl_cons]
      exact ih _
    · simp only [he, if_false, List.forall_mem_cons, false_and]; rfl

/-- The grammar accepts a tag when every element holds exactly one `=`. -/
def TagWellFormed (tag : String) : Prop := ∀ e ∈ Strings.split tag ",", e.data.count '=' = 1

instance : DecidablePred TagWellFormed := fun tag =>
  inferInstanceAs (Decidable (∀ e ∈ Strings.split tag ",", e.data.count '=' = 1))

/-- The loop as one equation: fatal with `message` exactly when an element does not hold
exactly one `=`, and otherwise the fold of `set` over the elements. -/
theorem parseTag_eq {R : Type} (set : String → String → R → R) (message : String) (init : R)
    (tag : String) : parseTag set message init tag =
      if TagWellFormed tag then
        .ok ((Strings.split tag ",").foldl (fun r e => set (elemKey e) (elemValue e) r) init)
      else .error (.fatal message) :=
  foldlM_tagStep set message _ init

/-- A field that `set` writes under `key` (through `f`) and keeps under other keys ends as
`f` of the last value given under `key`. -/
theorem foldl_set_field {R : Type} (set : String → String → R → R) (π : R → String)
    (key : String) (f : String → String)
    (hset : ∀ k v r, π (set k v r) = if k = key then f v else π r) (elems : List String)
    (init : R) : π (elems.foldl (fun r e => set (elemKey e) (elemValue e) r) init) =
      ((lastValue key elems).map f).getD (π init) := by
  induction elems generalizing init with
  | nil => rfl
  | cons e es ih =>
    rw [List.foldl_cons, ih, hset]
    unfold lastValue
    by_cases he : elemKey e = key
    · simp only [he, if_true, List.filter_cons_of_pos (p := fun e => decide (elemKey e = key))
        (by simpa using he), List.getLast?_cons]
      cases (es.filter fun e => decide (elemKey e = key)).getLast? <;> rfl
    · simp only [he, if_false, List.filter_cons_of_neg (p := fun e => decide (elemKey e = key))
        (by simpa using he)]

/-- A field that `set` never writes keeps its zero value. -/
theorem foldl_set_const {R : Type} (set : String → String → R → R) (π : R → String)
    (hset : ∀ k v r, π (set k v r) = π r) (elems : List String) (init : R) :
    π (elems.foldl (fun r e => set (elemKey e) (elemValue e) r) init) = π init := by
  induction elems generalizing init with
  | nil => rfl
  | cons e es ih => rw [List.foldl_cons, ih, hset]

/-! ### What each parser returns -/

/-- Each recognised field of `ParseResourceTag`'s result: the last value given under its key. -/
def resourceTagsOf (elems : List String) : ResourceTags :=
  { resource := (lastValue "path" elems).getD ""
    rest := (lastValue "rest" elems).getD ""
    strategy := (lastValue "strategy" elems).getD "" }

/-- Each recognised field of `ParseControllerTag`'s result. -/
def controllerTagsOf (elems : List String) : ControllerTags :=
  { gvk := { group := (lastValue "group" elems).getD ""
             version := (lastValue "version" elems).getD ""
             kind := (lastValue "kind" elems).getD "" }
    resource := (lastValue "resource" elems).getD "" }

/-- Each recognised field of `ParseSubresourceTag`'s result; the path without its parent. -/
def subresourceTagsOf (parent : String) (elems : List String) : SubresourceTags :=
  { path := ((lastValue "path" elems).map fun v => Strings.replace v (parent ++ "/") "" (-1)).getD ""
    kind := ""
    requestKind := (lastValue "request" elems).getD ""
    rest := (lastValue "rest" elems).getD "" }

theorem ResourceTags.set_resource (k v : String) (r : ResourceTags) :
    (ResourceTags.set k v r).resource = if k = "path" then v else r.resource := by
  unfold ResourceTags.set; split_ifs <;> simp_all

theorem ResourceTags.set_rest (k v : String) (r : ResourceTags) :
    (ResourceTags.set k v r).rest = if k = "rest" then v else r.rest := by
  unfold ResourceTags.set; split_ifs <;> simp_all

theorem ResourceTags.set_strategy (k v : String) (r : ResourceTags) :
    (ResourceTags.set k v r).strategy = if k = "strategy" then v else r.strategy := by
  unfold ResourceTags.set; split_ifs <;> simp_all

theorem ControllerTags.set_group (k v : String) (r : ControllerTags) :
    (ControllerTags.set k v r).gvk.group = if k = "group" then v else r.gvk.group := by
  unfold ControllerTags.set; split_ifs <;> simp_all

theorem ControllerTags.set_version (k v : String) (r : ControllerTags) :
    (ControllerTags.set k v r).gvk.version = if k = "version" then v else r.gvk.version := by
  unfold ControllerTags.set; split_ifs <;> simp_all

theorem ControllerTags.set_kind (k v : String) (r : ControllerTags) :
    (ControllerTags.set k v r).gvk.kind = if k = "kind" then v else r.gvk.kind := by
  unfold ControllerTags.set; split_ifs <;> simp_all

theorem ControllerTags.set_resource (k v : String) (r : ControllerTags) :
    (ControllerTags.set k v r).resource = if k = "resource" then v else r.resource := by
  unfold ControllerTags.set; split_ifs <;> simp_all

theorem SubresourceTags.set_path (p k v : String) (r : SubresourceTags) :
    (SubresourceTags.set p k v r).path =
      if k = "path" then Strings.replace v (p ++ "/") "" (-1) else r.path := by
  unfold SubresourceTags.set; split_ifs <;> simp_all

theorem SubresourceTags.set_kind (p k v : String) (r : SubresourceTags) :
    (SubresourceTags.set p k v r).kind = r.kind := by
  unfold SubresourceTags.set; split_ifs <;> rfl

theorem SubresourceTags.set_requestKind (p k v : String) (r : SubresourceTags) :
    (SubresourceTags.set p k v r).requestKind = if k = "request" then v else r.requestKind := by
  unfold SubresourceTags.set; split_ifs <;> simp_all

theorem SubresourceTags.set_rest (p k v : String) (r : SubresourceTags) :
    (SubresourceTags.set p k v r).rest = if k = "rest" then v else r.rest := by
  unfold SubresourceTags.set; split_ifs <;> simp_all

theorem parseResourceTag_eq (tag : String) : parseResourceTag tag =
    if TagWellFormed tag then .ok (resourceTagsOf (Strings.split tag ","))
    else .error (.fatal (resourceTagMessage tag)) := by
  rw [parseResourceTag, parseTag_eq]
  by_cases h : TagWellFormed tag
  · simp only [if_pos h]
    refine congrArg _ (ResourceTags.ext ?_ ?_ ?_)
    · simpa using foldl_set_field _ _ _ id ResourceTags.set_resource _ _
    · simpa using foldl_set_field _ _ _ id ResourceTags.set_rest _ _
    · simpa using foldl_set_field _ _ _ id ResourceTags.set_strategy _ _
  · simp only [if_neg h]

theorem parseControllerTag_eq (tag : String) : parseControllerTag tag =
    if TagWellFormed tag then .ok (controllerTagsOf (Strings.split tag ","))
    else .error (.fatal (controllerTagMessage tag)) := by
  rw [parseControllerTag, parseTag_eq]
  by_cases h : TagWellFormed tag
  · simp only [if_pos h]
    refine congrArg _ (ControllerTags.ext (GroupVersionKind.ext ?_ ?_ ?_) ?_)
    · simpa using foldl_set_field _ (fun r : ControllerTags => r.gvk.group) _ id ControllerTags.set_group _ _
    · simpa using foldl_set_field _ (fun r : ControllerTags => r.gvk.version) _ id ControllerTags.set_version _ _
    · simpa using foldl_set_field _ (fun r : ControllerTags => r.gvk.kind) _ id ControllerTags.set_kind _ _
    · simpa using foldl_set_field _ _ _ id ControllerTags.set_resource _ _
  · simp only [if_neg h]

theorem parseSubresourceTag_eq {ι : Type} (c : APIResource ι) (tag : String) :
    parseSubresourceTag c tag =
      if TagWellFormed tag then .ok (subresourceTagsOf c.resource (Strings.split tag ","))
      else .error (.fatal (subresourceTagMessage tag)) := by
  rw [parseSubresourceTag, parseTag_eq]
  by_cases h : TagWellFormed tag
  · simp only [if_pos h]
    refine congrArg _ (SubresourceTags.ext ?_ ?_ ?_ ?_)
    · exact foldl_set_field _ _ _ _ (SubresourceTags.set_path c.resource) _ _
    · exact foldl_set_const _ _ (SubresourceTags.set_kind c.resource) _ _
    · simpa using foldl_set_field _ _ _ id (SubresourceTags.set_requestKind c.resource) _ _
    · simpa using foldl_set_field _ _ _ id (SubresourceTags.set_rest c.resource) _ _
  · simp only [if_neg h]

/-! ### Key/value text: order and round trip -/

/-- Key/value pairs as tag text: `k1=v1,k2=v2,...`. -/
def serialize (kvs : List (String × String)) : String :=
  Strings.join (kvs.map fun kv => kv.1 ++ "=" ++ kv.2) ","

/-- Text that can stand as a key or a value: free of `,` and `=`. -/
def Plain (s : String) : Prop := ',' ∉ s.data ∧ '=' ∉ s.data

/-- A `+resource` tag giving each field of `r`. -/
def ResourceTags.toTag (r : ResourceTags) : String :=
  serialize [("path", r.resource), ("rest", r.rest), ("strategy", r.strategy)]

/-- A `+controller` tag giving each field of `r`. -/
def ControllerTags.toTag (r : ControllerTags) : String :=
  serialize [("group", r.gvk.group), ("version", r.gvk.version), ("kind", r.gvk.kind),
    ("resource", r.resource)]

/-- A `+subresource` tag giving each recognised field of `t`, the path under `parent`. -/
def SubresourceTags.toTag (parent : String) (t : SubresourceTags) : String :=
  serialize [("request", t.requestKind), ("rest", t.rest), ("path", parent ++ "/" ++ t.path)]

theorem split_kv {k v : String} (hk : '=' ∉ k.data) (hv : '=' ∉ v.data) :
    Strings.split (k ++ "=" ++ v) "=" = [k, v] := by
  simpa [Strings.join] using
    @Strings.split_join [k, v] "=" '=' rfl (by simp) (by simp [hk, hv])

theorem count_kv {k v : String} (hk : '=' ∉ k.data) (hv : '=' ∉ v.data) :
    (k ++ "=" ++ v).data.count '=' = 1 := by
  simp [List.count_eq_zero_of_not_mem hk, List.count_eq_zero_of_not_mem hv]

theorem plain_kv {k v : String} (hk : Plain k) (hv : Plain v) : ',' ∉ (k ++ "=" ++ v).data := by
  simp [hk.1, hv.1]

theorem split_serialize {kvs : List (String × String)} (hne : kvs ≠ [])
    (hp : ∀ kv ∈ kvs, Plain kv.1 ∧ Plain kv.2) :
    Strings.split (serialize kvs) "," = kvs.map fun kv => kv.1 ++ "=" ++ kv.2 :=
  Strings.split_join rfl (by simpa using hne) (by
    simp only [List.mem_map]
    rintro _ ⟨kv, hkv, rfl⟩
    exact plain_kv (hp kv hkv).1 (hp kv hkv).2)

theorem wellFormed_serialize {kvs : List (String × String)} (hne : kvs ≠ [])
    (hp : ∀ kv ∈ kvs, Plain kv.1 ∧ Plain kv.2) : TagWellFormed (serialize kvs) := by
  simp only [TagWellFormed, split_serialize hne hp, List.mem_map]
  rintro _ ⟨kv, hkv, rfl⟩
  exact count_kv (hp kv hkv).1.2 (hp kv hkv).2.2

theorem lastValue_serialize {kvs : List (String × String)} (hne : kvs ≠ [])
    (hp : ∀ kv ∈ kvs, Plain kv.1 ∧ Plain kv.2) (key : String) :
    lastValue key (Strings.split (serialize kvs) ",") =
      ((kvs.filter fun kv => kv.1 = key).getLast?).map Prod.snd := by
  have hkv : ∀ kv ∈ kvs, Strings.split (kv.1 ++ "=" ++ kv.2) "=" = [kv.1, kv.2] :=
    fun kv h => split_kv (hp kv h).1.2 (hp kv h).2.2
  have hf : kvs.filter ((fun e => decide (elemKey e = key)) ∘ fun kv => kv.1 ++ "=" ++ kv.2) =
      kvs.filter fun kv => kv.1 = key :=
    List.filter_congr fun kv h => by simp [elemKey, hkv kv h]
  rw [split_serialize hne hp, lastValue, List.filter_map, List.getLast?_map, Option.map_map, hf]
  cases h : (kvs.filter fun kv => kv.1 = key).getLast? with
  | none => rfl
  | some kv =>
    have hmem := List.mem_of_mem_filter (List.mem_of_getLast?_eq_some h)
    simp [elemValue, hkv kv hmem]

/-- With pairwise distinct keys, the pairs under one key are the same in every order. -/
theorem filter_key_perm {kvs kvs' : List (String × String)} (hp : kvs.Perm kvs')
    (hk : (kvs.map Prod.fst).Nodup) (key : String) :
    kvs.filter (fun kv => kv.1 = key) = kvs'.filter (fun kv => kv.1 = key) := by
  have hperm := hp.filter (fun kv => decide (kv.1 = key))
  have hnd : ((kvs.filter fun kv => kv.1 = key).map Prod.fst).Nodup :=
    hk.sublist ((List.filter_sublist _).map _)
  have hrep : (kvs.filter fun kv => kv.1 = key).map Prod.fst =
      List.replicate (kvs.filter fun kv => kv.1 = key).length key :=
    List.eq_replicate_iff.mpr ⟨by simp, by simp⟩
  rw [hrep, List.nodup_replicate] at hnd
  revert hperm hnd
  cases kvs.filter (fun kv => kv.1 = key) with
  | nil => exact fun hperm _ => (List.Perm.eq_nil hperm.symm).symm
  | cons a t =>
    cases t with
    | nil => exact fun hperm _ => (List.perm_singleton.mp hperm.symm).symm
    | cons b t => simp

theorem lastValue_serialize_perm {kvs kvs' : List (String × String)} (hp : kvs.Perm kvs')
    (hk : (kvs.map Prod.fst).Nodup) (hplain : ∀ kv ∈ kvs, Plain kv.1 ∧ Plain kv.2)
    (hne : kvs ≠ []) (key : String) :
    lastValue key (Strings.split (serialize kvs) ",") =
      lastValue key (Strings.split (serialize kvs') ",") := by
  have hne' : kvs' ≠ [] := fun h => hne (hp.trans (h ▸ List.Perm.refl _)).eq_nil
  have hplain' : ∀ kv ∈ kvs', Plain kv.1 ∧ Plain kv.2 := fun kv h => hplain kv (hp.mem_iff.mpr h)
  rw [lastValue_serialize hne hplain, lastValue_serialize hne' hplain', filter_key_perm hp hk]

theorem wellFormed_serialize_perm {kvs kvs' : List (String × String)} (hp : kvs.Perm kvs')
    (hplain : ∀ kv ∈ kvs, Plain kv.1 ∧ Plain kv.2) (hne : kvs ≠ []) :
    TagWellFormed (serialize kvs) ∧ TagWellFormed (serialize kvs') :=
  ⟨wellFormed_serialize hne hplain,
    wellFormed_serialize (fun h => hne (hp.trans (h ▸ List.Perm.refl _)).eq_nil)
      fun kv h => hplain kv (hp.mem_iff.mpr h)⟩

theorem parseResourceTag_toTag (r : ResourceTags) (h1 : Plain r.resource) (h2 : Plain r.rest)
    (h3 : Plain r.strategy) : parseResourceTag r.toTag = .ok r := by
  have hp : ∀ kv ∈ [("path", r.resource), ("rest", r.rest), ("strategy", r.strategy)],
      Plain kv.1 ∧ Plain kv.2 := by
    simp only [Plain] at h1 h2 h3; simp [Plain, h1, h2, h3]
  rw [ResourceTags.toTag, parseResourceTag_eq, if_pos (wellFormed_serialize (by simp) hp)]
  simp [resourceTagsOf, lastValue_serialize (by simp) hp]

theorem parseControllerTag_toTag (r : ControllerTags) (h1 : Plain r.gvk.group)
    (h2 : Plain r.gvk.version) (h3 : Plain r.gvk.kind) (h4 : Plain r.resource) :
    parseControllerTag r.toTag = .ok r := by
  have hp : ∀ kv ∈ [("group", r.gvk.group), ("version", r.gvk.version), ("kind", r.gvk.kind),
      ("resource", r.resource)], Plain kv.1 ∧ Plain kv.2 := by
    simp only [Plain] at h1 h2 h3 h4; simp [Plain, h1, h2, h3, h4]
  rw [ControllerTags.toTag, parseControllerTag_eq, if_pos (wellFormed_serialize (by simp) hp)]
  simp [controllerTagsOf, lastValue_serialize (by simp) hp]

/-- The subresource round trip: the path comes back without its parent, and `Kind`, which
no key sets, comes back empty. -/
theorem parseSubresourceTag_toTag {ι : Type} (c : APIResource ι) (t : SubresourceTags)
    (h0 : Plain c.resource) (h1 : Plain t.requestKind) (h2 : Plain t.rest) (h3 : Plain t.path)
    (hx : ¬(c.resource ++ "/").data <:+: t.path.data) :
    parseSubresourceTag c (t.toTag c.resource) = .ok { t with kind := "" } := by
  have hp : ∀ kv ∈ [("request", t.requestKind), ("rest", t.rest),
      ("path", c.resource ++ "/" ++ t.path)], Plain kv.1 ∧ Plain kv.2 := by
    simp only [List.mem_cons, List.mem_singleton, List.not_mem_nil, or_false]
    rintro kv (rfl | rfl | rfl) <;> simp_all [Plain]
  rw [SubresourceTags.toTag, parseSubresourceTag_eq, if_pos (wellFormed_serialize (by simp) hp)]
  simp only [subresourceTagsOf, lastValue_serialize (by simp) hp]
  have hne : c.resource ++ "/" ≠ "" := fun h => by simpa using congrArg String.data h
  simp [Strings.replace_prefix (c.resource ++ "/") t.path hne hx]

/-- With pairwise distinct plain keys, no parser depends on the order of the pairs. -/
theorem parseTags_perm {kvs kvs' : List (String × String)} (hp : kvs.Perm kvs')
    (hk : (kvs.map Prod.fst).Nodup) (hplain : ∀ kv ∈ kvs, Plain kv.1 ∧ Plain kv.2) {ι : Type}
    (c : APIResource ι) :
    parseResourceTag (serialize kvs) = parseResourceTag (serialize kvs') ∧
      parseControllerTag (serialize kvs) = parseControllerTag (serialize kvs') ∧
      parseSubresourceTag c (serialize kvs) = parseSubresourceTag c (serialize kvs') := by
  rcases eq_or_ne kvs [] with rfl | hne
  · rw [← List.Perm.nil_eq hp]
    exact ⟨rfl, rfl, rfl⟩
  · obtain ⟨w, w'⟩ := wellFormed_serialize_perm hp hplain hne
    simp only [parseResourceTag_eq, parseControllerTag_eq, parseSubresourceTag_eq, if_pos w,
      if_pos w', resourceTagsOf, controllerTagsOf, subresourceTagsOf,
      lastValue_serialize_perm hp hk hplain hne, and_self]

/-- The tag grammar of the three parsers: each is fatal, with its message, exactly when an
element of the tag does not hold exactly one `=`, and otherwise returns each recognised
field as the last value given under its key (a subresource path without its parent
prefix); with distinct plain keys the order of the pairs does not matter; and writing a
record out and parsing it gives the record back, except the subresource `Kind`, which no
key sets and which comes back empty. -/
theorem tag_grammar {ι : Type} :
    (∀ tag, parseResourceTag tag =
      if TagWellFormed tag then .ok (resourceTagsOf (Strings.split tag ","))
      else .error (.fatal (resourceTagMessage tag))) ∧
    (∀ tag, parseControllerTag tag =
      if TagWellFormed tag then .ok (controllerTagsOf (Strings.split tag ","))
      else .error (.fatal (controllerTagMessage tag))) ∧
    (∀ (c : APIResource ι) tag, parseSubresourceTag c tag =
      if TagWellFormed tag then .ok (subresourceTagsOf c.resource (Strings.split tag ","))
      else .error (.fatal (subresourceTagMessage tag))) ∧
    (∀ kvs kvs' : List (String × String), kvs.Perm kvs' → (kvs.map Prod.fst).Nodup →
      (∀ kv ∈ kvs, Plain kv.1 ∧ Plain kv.2) → ∀ c : APIResource ι,
        parseResourceTag (serialize kvs) = parseResourceTag (serialize kvs') ∧
        parseControllerTag (serialize kvs) = parseControllerTag (serialize kvs') ∧
        parseSubresourceTag c (serialize kvs) = parseSubresourceTag c (serialize kvs')) ∧
    (∀ r : ResourceTags, Plain r.resource → Plain r.rest → Plain r.strategy →
      parseResourceTag r.toTag = .ok r) ∧
    (∀ r : ControllerTags, Plain r.gvk.group → Plain r.gvk.version → Plain r.gvk.kind →
      Plain r.resource → parseControllerTag r.toTag = .ok r) ∧
    (∀ (c : APIResource ι) (t : SubresourceTags), Plain c.resource → Plain t.requestKind →
      Plain t.rest → Plain t.path → ¬(c.resource ++ "/").data <:+: t.path.data →
      parseSubresourceTag c (t.toTag c.resource) = .ok { t with kind := "" }) :=
  ⟨parseResourceTag_eq, parseControllerTag_eq, parseSubresourceTag_eq,
    fun _ _ hp hk hplain c => parseTags_perm hp hk hplain c, parseResourceTag_toTag,
    parseControllerTag_toTag, parseSubresourceTag_toTag⟩

/-- A subresource record with a `Kind` does not survive being written out and parsed back. -/
theorem subresourceTag_roundtrip_drops_kind :
    parseSubresourceTag
        ({ domain := "example.com", group := "core", version := "v1", kind := "Widget",
           resource := "widgets", rest := "", subresources := ∅, type := (), strategy := "",
           statusStrategy := "", nonNamespaced := false } : APIResource Unit)
        (SubresourceTags.toTag "widgets" ⟨"scale", "Scale", "ScaleRequest", "ScaleREST"⟩) ≠
      .ok ⟨"scale", "Scale", "ScaleRequest", "ScaleREST"⟩ := by
  rw [parseSubresourceTag_toTag _ _ ⟨by decide, by decide⟩ ⟨by decide, by decide⟩
    ⟨by decide, by decide⟩ ⟨by decide, by decide⟩ (by decide)]
  simp

end ApiRegisterGen
