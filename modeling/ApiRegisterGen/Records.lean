import Mathlib.Data.List.AList
import Mathlib.Data.Finset.Basic
import ApiRegisterGen.GoStrings

/-!
# The generator's data model (parser.go:34-177)

gengo's `*types.Type` values point at each other (a member's type, a pointer's element)
and may form cycles, so types are given by identities `ι` and a universe `ι → Ty ι`.
The predicates and accessors of the generator's util.go, which is not in the model, are
the fields of `Classifier`. Go maps are association lists whose entry order stands for
Go's unspecified iteration order.
-/

namespace ApiRegisterGen

/-- A Go `map[string]V`; `range` visits `entries` in list order. -/
abbrev GoMap (V : Type) := AList (fun _ : String => V)

/-- How a run ends early: `log.Fatalf` or `panic`, with the message. -/
inductive Abort
  | fatal (message : String)
  | panic (message : String)
  deriving DecidableEq, Repr

/-- `types.Name`. -/
structure Name where
  package : String
  name : String
  deriving DecidableEq, Repr

/-- `Name.String()`: `Package.Name`, or `Name` alone when there is no package, as for
builtins and for pointer, slice and map types, whose `Name` is their whole spelling. -/
def Name.string (n : Name) : String := if n.package = "" then n.name else n.package ++ "." ++ n.name

/-- `types.Member`, the fields DoType reads. -/
structure Member (ι : Type) where
  name : String
  embedded : Bool
  type : ι

/-- `types.Type`, the fields parser.go reads; `elem` is the pointee, slice element or map
value. -/
structure Ty (ι : Type) where
  name : Name
  members : List (Member ι)
  elem : Option ι
  commentLines : List String

/-- `types.Package`, the fields parser.go reads. -/
structure Package where
  path : String
  comments : List String
  deriving DecidableEq, Repr

/-- `generator.Context`: the types, `Order` (every type, in the loader's order) and
`Universe`, the packages by path (`universe` is a Lean keyword). -/
structure Context (ι : Type) where
  types : ι → Ty ι
  order : List ι
  packages : String → Option Package

/-- The generator's util.go, outside this model: predicates and accessors of a type, gengo's
`IsPrimitive`, and the comment-directive readers `Comments.GetTag`, `GetTags` and `HasTag`
(comment lines, name, separator); and `titleCase`, the title-case mapping of Unicode's case
tables, which `unicode.ToTitle` applies beyond ASCII. -/
structure Classifier (ι : Type) where
  isAPIResource : ι → Bool
  isController : ι → Bool
  isAPISubresource : ι → Bool
  hasSubresource : ι → Bool
  isNonNamespaced : ι → Bool
  getGroup : ι → String
  getVersion : ι → String → String
  getKind : ι → String → String
  isPrimitive : ι → Bool
  getTag : List String → String → String → String
  getTags : List String → String → String → List String
  hasTag : List String → String → Bool
  titleCase : Char → Char
  deriving Inhabited

/-- `APISubresource`; `RequestType` and `RESTType` are never set by parser.go. -/
structure APISubresource where
  domain : String
  group : String
  version : String
  kind : String
  resource : String
  request : String
  rest : String
  path : String
  importPackage : String
  deriving DecidableEq, Repr

/-- `APIResource`. -/
structure APIResource (ι : Type) where
  domain : String
  group : String
  version : String
  kind : String
  resource : String
  rest : String
  subresources : GoMap APISubresource
  type : ι
  strategy : String
  statusStrategy : String
  nonNamespaced : Bool

/-- `Field`. -/
structure Field where
  name : String
  versionedPackage : String
  unversionedImport : String
  unversionedType : String
  deriving DecidableEq, Repr

/-- `Struct`. -/
structure Struct where
  name : String
  genClient : Bool
  genDeepCopy : Bool
  genUnversioned : Bool
  fields : List Field
  deriving DecidableEq, Repr

/-- `APIVersion`. -/
structure APIVersion (ι : Type) where
  domain : String
  group : String
  version : String
  resources : GoMap (APIResource ι)
  pkg : Option Package

/-- `APIGroup`; `Package` is never set by parser.go and stays `""`. -/
structure APIGroup (ι : Type) where
  package : String
  domain : String
  group : String
  groupTitle : String
  versions : GoMap (APIVersion ι)
  unversionedResources : GoMap (APIResource ι)
  structs : List Struct
  pkg : Option Package
  pkgPath : String

/-- `APIs`. -/
structure APIs (ι : Type) where
  domain : String
  package : String
  pkg : Option Package
  groups : GoMap (APIGroup ι)

/-- `schema.GroupVersionKind`. -/
@[ext]
structure GroupVersionKind where
  group : String
  version : String
  kind : String
  deriving DecidableEq, Repr

/-- `Controller`. -/
structure Controller where
  target : GroupVersionKind
  resource : String
  pkg : Option Package
  repo : String
  deriving DecidableEq, Repr

/-- `APIsBuilder`; `arguments`, `APIsPkgRaw` and `Groups` are never read or set by
parser.go. `apis` is `nil` until ParseAPIs. -/
structure APIsBuilder (ι : Type) where
  context : Context ι
  domain : String
  versionedPkgs : Finset String
  unversionedPkgs : Finset String
  apisPkg : String
  groupNames : Finset String
  apis : Option (APIs ι)
  controllers : List Controller
  byGroupKindVersion : GoMap (GoMap (GoMap (APIResource ι)))
  byGroupVersionKind : GoMap (GoMap (GoMap (APIResource ι)))
  subByGroupVersionKind : GoMap (GoMap (GoMap ι))

/-- `NewAPIsBuilder`'s `&APIsBuilder{context: context}`: every other field at its zero value. -/
def APIsBuilder.init (context : Context ι) : APIsBuilder ι :=
  ⟨context, "", ∅, ∅, "", ∅, none, [], ∅, ∅, ∅⟩

/-! ### Nested maps -/

namespace GoMap

variable {V : Type}

/-- `m[a][b][c]` with every missing level read as absent. -/
def lookup3 (m : GoMap (GoMap (GoMap V))) (a b c : String) : Option V :=
  (m.lookup a).bind fun m => (m.lookup b).bind fun m => m.lookup c

/-- Create `m[a]` and `m[a][b]` when missing, then `m[a][b][c] = x` (parser.go:274-280). -/
def set3 (m : GoMap (GoMap (GoMap V))) (a b c : String) (x : V) : GoMap (GoMap (GoMap V)) :=
  let m1 := (m.lookup a).getD ∅
  let m2 := (m1.lookup b).getD ∅
  m.insert a (m1.insert b (m2.insert c x))

theorem lookup_insert_eq (m : GoMap V) (a a' : String) (x : V) :
    (m.insert a x).lookup a' = if a' = a then some x else m.lookup a' := by
  split
  · subst a'; exact AList.lookup_insert m
  · exact AList.lookup_insert_ne ‹_›

theorem lookup_insert_eq_some {m : GoMap V} {a a' : String} {x y : V} :
    (m.insert a x).lookup a' = some y ↔ a' = a ∧ x = y ∨ a' ≠ a ∧ m.lookup a' = some y := by
  by_cases ha : a' = a <;> simp [lookup_insert_eq, ha]

/-- A loop that inserts one key per visited entry holds exactly the keys visited. -/
theorem lookup_isSome_insert_snoc {W : Type} {m : GoMap V} {pre : List (Σ _ : String, W)}
    (h : ∀ k, (m.lookup k).isSome ↔ ∃ x ∈ pre, x.1 = k) (e : Σ _ : String, W) (a : V)
    (k : String) : ((m.insert e.1 a).lookup k).isSome ↔ ∃ x ∈ pre ++ [e], x.1 = k := by
  rw [lookup_insert_eq]
  split
  · exact iff_of_true rfl ⟨e, List.mem_append_right _ (List.mem_singleton_self e), ‹k = e.1›.symm⟩
  · rw [h k]
    simp only [List.mem_append, List.mem_singleton, or_and_right, exists_or, exists_eq_left]
    exact ⟨.inl, fun h => h.resolve_right fun h' => ‹¬k = e.1› h'.symm⟩

theorem lookup_isSome_iff (m : GoMap V) (k : String) :
    (m.lookup k).isSome ↔ ∃ e ∈ m.entries, e.1 = k := by
  rw [AList.lookup_isSome, AList.mem_keys, AList.keys, List.keys, List.mem_map]

theorem mem_entries_iff (m : GoMap V) (k : String) (v : V) :
    ⟨k, v⟩ ∈ m.entries ↔ m.lookup k = some v :=
  AList.mem_lookup_iff.symm

theorem lookup_getD_empty (m : Option (GoMap V)) (a : String) :
    (m.getD ∅).lookup a = m.bind (·.lookup a) := by
  cases m <;> rfl

theorem lookup3_set3 (m : GoMap (GoMap (GoMap V))) (a b c a' b' c' : String) (x : V) :
    (m.set3 a b c x).lookup3 a' b' c' =
      if a' = a ∧ b' = b ∧ c' = c then some x else m.lookup3 a' b' c' := by
  unfold lookup3 set3
  by_cases ha : a' = a
  · subst ha
    by_cases hb : b' = b
    · subst hb
      by_cases hc : c' = c
      · simp [lookup_insert_eq, hc]
      · simp [lookup_insert_eq, hc, lookup_getD_empty, Option.bind_assoc]
    · simp [lookup_insert_eq, hb, lookup_getD_empty, Option.bind_assoc]
  · simp [lookup_insert_eq, ha]

/-- A property of every entry of a nested map, read through `lookup3` or through the
entries of each level. -/
theorem forall_lookup3_iff (m : GoMap (GoMap (GoMap V))) (P : V → Prop) :
    (∀ a b c x, m.lookup3 a b c = some x → P x) ↔
      ∀ e₁ ∈ m.entries, ∀ e₂ ∈ e₁.2.entries, ∀ e₃ ∈ e₂.2.entries, P e₃.2 := by
  constructor
  · rintro h ⟨a, m₁⟩ h₁ ⟨b, m₂⟩ h₂ ⟨c, x⟩ h₃
    rw [mem_entries_iff] at h₁ h₂ h₃
    exact h a b c x (by simp only [lookup3, h₁, h₂, h₃, Option.some_bind])
  · intro h a b c x hx
    obtain ⟨m₁, h₁, hx⟩ := Option.bind_eq_some.mp hx
    obtain ⟨m₂, h₂, h₃⟩ := Option.bind_eq_some.mp hx
    exact h ⟨a, m₁⟩ ((mem_entries_iff _ _ _).mpr h₁) ⟨b, m₂⟩ ((mem_entries_iff _ _ _).mpr h₂)
      ⟨c, x⟩ ((mem_entries_iff _ _ _).mpr h₃)

end GoMap

/-! ### Runs of fallible loops -/

theorem Except.bind_eq_ok {ε α β : Type} {x : Except ε α} {f : α → Except ε β} {b : β} :
    x >>= f = .ok b ↔ ∃ a, x = .ok a ∧ f a = .ok b := by
  cases x <;> simp [bind, Except.bind]

theorem Except.bind_eq_error {ε α β : Type} {x : Except ε α} {f : α → Except ε β} {e : ε} :
    x >>= f = .error e ↔ x = .error e ∨ ∃ a, x = .ok a ∧ f a = .error e := by
  cases x <;> simp [bind, Except.bind]

/-- A computation followed by a step that cannot fail fails exactly as the computation. -/
theorem Except.bind_pure_eq_error {ε α β : Type} {x : Except ε α} {g : α → β} {e : ε} :
    (x >>= fun a => pure (g a)) = .error e ↔ x = .error e := by
  cases x <;> simp [bind, Except.bind, pure, Except.pure]

theorem Except.exists_bind_ok {ε α β : Type} {x : Except ε α} {f : α → Except ε β} :
    (∃ b, x >>= f = .ok b) ↔ ∃ a, x = .ok a ∧ ∃ b, f a = .ok b := by
  simp only [Except.bind_eq_ok]
  exact ⟨fun ⟨b, a, h, hf⟩ => ⟨a, h, b, hf⟩, fun ⟨a, h, b, hf⟩ => ⟨b, a, h, hf⟩⟩

theorem Except.exists_bind_ok_iff {ε α β : Type} {x : Except ε α} {f : α → Except ε β}
    (hf : ∀ a, ∃ b, f a = .ok b) : (∃ b, x >>= f = .ok b) ↔ ∃ a, x = .ok a :=
  Except.exists_bind_ok.trans (exists_congr fun a => and_iff_left (hf a))

theorem Except.exists_error_of_not_ok {ε α : Type} {x : Except ε α} (h : ¬∃ a, x = .ok a) :
    ∃ e, x = .error e := by
  cases x with
  | error e => exact ⟨e, rfl⟩
  | ok a => exact absurd ⟨a, rfl⟩ h

/-- A property of a fallible fold, from its step: `P pre s` holds of the state after the
prefix `pre`. -/
theorem foldlM_ok_induction {ε σ α : Type} {f : σ → α → Except ε σ} (P : List α → σ → Prop)
    (step : ∀ pre x s s', P pre s → f s x = .ok s' → P (pre ++ [x]) s') :
    ∀ (l pre : List α) (s s' : σ), P pre s → l.foldlM f s = .ok s' → P (pre ++ l) s'
  | [], pre, s, s', h, run => by
    cases run
    simpa using h
  | x :: xs, pre, s, s', h, run => by
    obtain ⟨t, ht, rest⟩ := Except.bind_eq_ok.mp run
    simpa using foldlM_ok_induction P step xs (pre ++ [x]) t s' (step pre x s t h ht) rest

/-- A fallible fold fails when one of its elements fails from every state. -/
theorem foldlM_error_of_mem {ε σ α : Type} {f : σ → α → Except ε σ} {x : α}
    (hx : ∀ s, ∃ e, f s x = .error e) :
    ∀ (l : List α) (s : σ), x ∈ l → ∃ e, l.foldlM f s = .error e
  | [], _, h => absurd h (List.not_mem_nil x)
  | y :: ys, s, h => by
    rw [List.foldlM_cons]
    cases hf : f s y with
    | error e => exact ⟨e, rfl⟩
    | ok s' =>
      rcases List.mem_cons.mp h with rfl | h
      · obtain ⟨e, he⟩ := hx s
        rw [he] at hf
        cases hf
      · exact foldlM_error_of_mem hx ys s' h

/-- A fallible fold fails only with an error its step fails with. -/
theorem foldlM_error_of_step {ε σ α : Type} {f : σ → α → Except ε σ} (E : ε → Prop)
    (h : ∀ s x e, f s x = .error e → E e) :
    ∀ (l : List α) (s : σ) (e : ε), l.foldlM f s = .error e → E e
  | [], _, _, hl => nomatch hl
  | x :: xs, s, e, hl => by
    rw [List.foldlM_cons] at hl
    rcases Except.bind_eq_error.mp hl with hx | ⟨s', -, hl⟩
    · exact h s x e hx
    · exact foldlM_error_of_step E h xs s' e hl

/-- A fallible fold succeeds exactly when every element satisfies `p`, when from every
state of an invariant `I` a step succeeds, keeping `I`, on the elements satisfying `p` and
fails on the others. -/
theorem foldlM_ok_iff {ε σ α : Type} {f : σ → α → Except ε σ} (I : σ → Prop) (p : α → Prop)
    (hok : ∀ s x, I s → p x → ∃ s', f s x = .ok s' ∧ I s')
    (herr : ∀ s x, I s → ¬p x → ∃ e, f s x = .error e) :
    ∀ (l : List α) (s : σ), I s → ((∃ s', l.foldlM f s = .ok s') ↔ ∀ x ∈ l, p x)
  | [], s, _ => iff_of_true ⟨s, rfl⟩ fun _ h => absurd h (List.not_mem_nil _)
  | x :: xs, s, hs => by
    rw [List.forall_mem_cons, List.foldlM_cons]
    by_cases hx : p x
    · obtain ⟨s', hs', hI⟩ := hok s x hs hx
      rw [hs', and_iff_right hx]
      exact foldlM_ok_iff I p hok herr xs s' hI
    · obtain ⟨e, he⟩ := herr s x hs hx
      rw [he]
      exact iff_of_false (fun ⟨_, h⟩ => nomatch h) fun h => hx h.1

/-- The stateless case: whether a step succeeds depends on its element only. -/
theorem foldlM_ok_iff_of_step {ε σ α : Type} {f : σ → α → Except ε σ} {p : α → Prop}
    (h : ∀ s x, (∃ s', f s x = .ok s') ↔ p x) (l : List α) (s : σ) :
    (∃ s', l.foldlM f s = .ok s') ↔ ∀ x ∈ l, p x :=
  foldlM_ok_iff (fun _ => True) p
    (fun s x _ hx => let ⟨s', hs'⟩ := (h s x).mpr hx; ⟨s', hs', trivial⟩)
    (fun s x _ hx => Except.exists_error_of_not_ok (mt (h s x).mp hx)) l s trivial

/-! ### The first failing element -/

/-- Splitting `x :: l` around one of its elements: at `x` itself, or inside `l`. -/
theorem exists_cons_eq_append_cons {α : Type} (P : List α → α → List α → Prop) (x : α)
    (l : List α) :
    (∃ pre y suf, x :: l = pre ++ y :: suf ∧ P pre y suf) ↔
      P [] x l ∨ ∃ pre y suf, l = pre ++ y :: suf ∧ P (x :: pre) y suf := by
  constructor
  · rintro ⟨_ | ⟨z, pre⟩, y, suf, h, hP⟩
    · cases h
      exact .inl hP
    · simp only [List.cons_append, List.cons.injEq] at h
      obtain ⟨rfl, rfl⟩ := h
      exact .inr ⟨pre, y, suf, rfl, hP⟩
  · rintro (hP | ⟨pre, y, suf, rfl, hP⟩)
    · exact ⟨[], x, l, rfl, hP⟩
    · exact ⟨x :: pre, y, suf, rfl, hP⟩

/-- `l` has a first element failing `p`, and that element satisfies `q`. -/
def FirstFailing {α : Type} (p q : α → Prop) (l : List α) : Prop :=
  ∃ pre x suf, l = pre ++ x :: suf ∧ (∀ y ∈ pre, p y) ∧ ¬p x ∧ q x

theorem firstFailing_nil {α : Type} (p q : α → Prop) : ¬FirstFailing p q [] :=
  fun ⟨pre, _, _, h, _⟩ => by cases pre <;> cases h

theorem firstFailing_cons {α : Type} (p q : α → Prop) (x : α) (l : List α) :
    FirstFailing p q (x :: l) ↔ ¬p x ∧ q x ∨ p x ∧ FirstFailing p q l := by
  unfold FirstFailing
  rw [exists_cons_eq_append_cons fun pre y _ => (∀ z ∈ pre, p z) ∧ ¬p y ∧ q y]
  simp only [List.not_mem_nil, false_implies, implies_true, true_and, List.forall_mem_cons,
    and_assoc, ← exists_and_left, @and_left_comm (p x)]

/-- The first failing element of the selected and mapped elements of a list, read on the
list itself. -/
theorem firstFailing_filter_map {α β : Type} (f : α → Bool) (g : α → β) (p q : β → Prop) :
    ∀ l : List α, FirstFailing p q ((l.filter f).map g) ↔
      FirstFailing (fun x => f x = true → p (g x)) (fun x => q (g x)) l
  | [] => iff_of_false (firstFailing_nil _ _) (firstFailing_nil _ _)
  | x :: l => by
    rw [firstFailing_cons, ← firstFailing_filter_map f g p q l]
    cases hx : f x
    · simp only [List.filter_cons, hx, Bool.false_eq_true, if_false, false_implies,
        not_true_eq_false, false_and, true_and, false_or]
    · simp only [List.filter_cons, hx, if_true, List.map_cons, firstFailing_cons, true_implies]

/-- The error of a fallible fold, when from every state of an invariant `I` a step on an
element satisfying `p` succeeds and keeps `I`, and on any other element fails exactly with
the errors `err` describes: the error of the first element failing `p`. -/
theorem foldlM_eq_error_iff {ε σ α : Type} {f : σ → α → Except ε σ} (I : σ → Prop)
    (p : α → Prop) (err : α → ε → Prop) (hok : ∀ s x, I s → p x → ∃ s', f s x = .ok s' ∧ I s')
    (herr : ∀ s x e, I s → ¬p x → (f s x = .error e ↔ err x e))
    (hex : ∀ x, ¬p x → ∃ e, err x e) :
    ∀ (l : List α) (s : σ), I s → ∀ e, l.foldlM f s = .error e ↔ FirstFailing p (err · e) l
  | [], _, _, _ => iff_of_false (fun h => nomatch h) (firstFailing_nil _ _)
  | x :: xs, s, hs, e => by
    rw [List.foldlM_cons, firstFailing_cons]
    by_cases hx : p x
    · obtain ⟨s', hs', hI⟩ := hok s x hs hx
      rw [hs']
      exact (foldlM_eq_error_iff I p err hok herr hex xs s' hI e).trans
        ⟨fun h => .inr ⟨hx, h⟩, fun h => (h.resolve_left fun h => h.1 hx).2⟩
    · obtain ⟨e₀, he₀⟩ := hex x hx
      rw [(herr s x e₀ hs hx).mpr he₀, ← herr s x e hs hx, (herr s x e₀ hs hx).mpr he₀]
      exact ⟨fun h => .inl ⟨hx, h⟩, fun h => (h.resolve_right fun h => hx h.1).2⟩

end ApiRegisterGen
