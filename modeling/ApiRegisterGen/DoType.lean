import Mathlib.Tactic.DeriveFintype
import ApiRegisterGen.Records

/-!
# Flattening one type (parser.go:614-686)

`DoType` turns a type into an unversioned `Struct`, one `Field` per member, and returns
the member types to visit next: those that are not primitive and whose group is the
owner's. A member from another package gets an unversioned import and type: the
`k8s.io/apimachinery/pkg/apis/meta/v1` package keeps its versioned types under the
`metav1` alias; any other is replaced by its parent directory, after one `Elem` step
through a pointer, slice or map.

gengo names a pointer, slice or map type by its whole spelling with an empty package
(`*k8s.io/apimachinery/pkg/apis/meta/v1.Time`), so both the `meta/v1` test and the
`Elem` step read that empty package when a member is wrapped.
-/

namespace ApiRegisterGen

variable {ι : Type}

/-- `types.Type.String()`. -/
def Ty.string (t : Ty ι) : String := t.name.string

/-- The package path `DoType` keeps versioned. -/
def metaV1 : String := "k8s.io/apimachinery/pkg/apis/meta/v1"

/-- The unversioned import and type of a member of type `mt` in a struct of package
`pkg` (parser.go:637-672). -/
def unversioned (ctx : Context ι) (pkg : String) (mt : Ty ι) : String × String :=
  let base := Filepath.base mt.string
  let samepkg := pkg = mt.name.package
  if !samepkg then
    let parts := Strings.split base "."
    if parts.length > 1 then
      if mt.name.package = metaV1 then
        ("metav1 \"k8s.io/apimachinery/pkg/apis/meta/v1\"", "metav1." ++ parts.getD 1 "")
      else
        let (t, hasElem) := match mt.elem with
          | some e => (ctx.types e, true)
          | none => (mt, false)
        let uImportName := Path.base (Path.dir t.name.package)
        let uImport := Path.dir t.name.package
        if hasElem then
          let uType := Strings.replace mt.string (Path.dir uImport ++ "/") "" 1
          (uImport, Strings.replace uType ("/" ++ Path.base t.name.package) "" 1)
        else (uImport, uImportName ++ "." ++ t.name.name)
    else ("", mt.name.name)
  else ("", mt.name.name)

/-- The `Field` of member `m` of a struct of package `pkg` (parser.go:632-678). -/
def memberField (ctx : Context ι) (pkg : String) (m : Member ι) : Field :=
  let mt := ctx.types m.type
  { name := if m.embedded then "" else m.name,
    versionedPackage := mt.name.package,
    unversionedImport := (unversioned ctx pkg mt).1,
    unversionedType := (unversioned ctx pkg mt).2 }

/-- Whether `DoType` visits a member's type next (parser.go:680-683). -/
def enqueues (cl : Classifier ι) (t : ι) (m : Member ι) : Bool :=
  !cl.isPrimitive m.type && decide (cl.getGroup m.type = cl.getGroup t)

/-- `APIGroup.DoType` (parser.go:614-686). The debug `Printf` is left out. -/
def doType (cl : Classifier ι) (ctx : Context ι) (t : ι) : Struct × List ι :=
  let ty := ctx.types t
  ({ name := ty.name.name, genClient := false, genDeepCopy := false,
     genUnversioned :=
       !ty.commentLines.any fun c => Strings.contains c "+genregister:unversioned=false",
     fields := ty.members.map (memberField ctx ty.name.package) },
   (ty.members.filter (enqueues cl t)).map Member.type)

@[simp] theorem doType_name (cl : Classifier ι) (ctx : Context ι) (t : ι) :
    (doType cl ctx t).1.name = (ctx.types t).name.name := rfl

@[simp] theorem doType_fields (cl : Classifier ι) (ctx : Context ι) (t : ι) :
    (doType cl ctx t).1.fields = (ctx.types t).members.map (memberField ctx (ctx.types t).name.package) :=
  rfl

theorem mem_doType_iff (cl : Classifier ι) (ctx : Context ι) (t u : ι) :
    u ∈ (doType cl ctx t).2 ↔ ∃ m ∈ (ctx.types t).members, m.type = u ∧
      cl.isPrimitive u = false ∧ cl.getGroup u = cl.getGroup t := by
  simp only [doType, List.mem_map, List.mem_filter, enqueues, Bool.and_eq_true, Bool.not_eq_true',
    decide_eq_true_eq]
  constructor
  · rintro ⟨m, ⟨hm, hp, hg⟩, rfl⟩
    exact ⟨m, hm, rfl, hp, hg⟩
  · rintro ⟨m, hm, rfl, hp, hg⟩
    exact ⟨m, ⟨hm, hp, hg⟩, rfl⟩

/-- `DoType` visits next at most one type per member. -/
theorem length_doType_le (cl : Classifier ι) (ctx : Context ι) (t : ι) :
    (doType cl ctx t).2.length ≤ (ctx.types t).members.length := by
  simp only [doType, List.length_map]
  exact List.length_filter_le _ _

/-- Every member's field carries its name, blank when embedded, and its type's package. -/
theorem memberField_name_package (ctx : Context ι) (pkg : String) (m : Member ι) :
    (memberField ctx pkg m).name = (if m.embedded then "" else m.name) ∧
      (memberField ctx pkg m).versionedPackage = (ctx.types m.type).name.package :=
  ⟨rfl, rfl⟩

/-- A member of the struct's own package keeps its bare type name and needs no import. -/
theorem unversioned_samepkg (ctx : Context ι) (mt : Ty ι) :
    unversioned ctx mt.name.package mt = ("", mt.name.name) := by
  simp [unversioned]

/-! ### Wrapped members -/

/-- The types of a `Widget` with a `*metav1.Time` member and a `[]*WidgetItem` member,
named as gengo names them. -/
inductive WidgetType
  | widget | lastUpdate | time | items | itemPtr | item
  deriving DecidableEq, Repr, Fintype

/-- The universe of `WidgetType`s. -/
def widgetTypes : WidgetType → Ty WidgetType
  | .widget => ⟨⟨"example.com/apis/core/v1", "Widget"⟩,
      [⟨"LastUpdate", false, .lastUpdate⟩, ⟨"Items", false, .items⟩], none, []⟩
  | .lastUpdate => ⟨⟨"", "*k8s.io/apimachinery/pkg/apis/meta/v1.Time"⟩, [], some .time, []⟩
  | .time => ⟨⟨metaV1, "Time"⟩, [], none, []⟩
  | .items => ⟨⟨"", "[]*example.com/apis/core/v1.WidgetItem"⟩, [], some .itemPtr, []⟩
  | .itemPtr => ⟨⟨"", "*example.com/apis/core/v1.WidgetItem"⟩, [], some .item, []⟩
  | .item => ⟨⟨"example.com/apis/core/v1", "WidgetItem"⟩, [], none, []⟩

/-- The `Widget` type in its universe, with no packages. -/
def widgetContext : Context WidgetType := ⟨widgetTypes, [.widget], fun _ => none⟩

/-- `*metav1.Time` is resolved as the unversioned `meta.Time` of package
`k8s.io/apimachinery/pkg/apis/meta`, and `[]*WidgetItem` keeps its full versioned spelling
with the import `.`. -/
theorem doType_wrapped_members (cl : Classifier WidgetType) :
    (doType cl widgetContext .widget).1.fields =
      [⟨"LastUpdate", "", "k8s.io/apimachinery/pkg/apis/meta", "*meta.Time"⟩,
       ⟨"Items", "", ".", "[]*example.com/apis/core/v1.WidgetItem"⟩] := by
  rw [doType_fields]
  decide

/-! ### Direct members -/

/-- A type of a non-empty package is named `package.Name`. -/
theorem Ty.string_of_package {mt : Ty ι} (h : mt.name.package ≠ "") :
    mt.string = mt.name.package ++ "." ++ mt.name.name := by
  simp [Ty.string, Name.string, h]

/-- The last element `V.N` of a spelling `pre/V.N` splits at `.` into at least two parts. -/
theorem one_lt_split_base (pre V N : String) (hV : '/' ∉ V.data) (hN : '/' ∉ N.data) :
    1 < (Strings.split (Filepath.base (pre ++ "/" ++ (V ++ "." ++ N))) ".").length := by
  rw [Filepath.base, Path.base_append_last pre _ (by simp) (by simp [hV, hN]),
    Strings.length_split_eq_count rfl]
  simp only [String.data_append, List.count_append, List.count_cons_self, List.count_nil]
  omega

/-- A type `N` of a version package `R/g/v` of another group is imported from the group
package `R/g` and named `g.N`, when it is no pointer, slice or map. -/
theorem unversioned_other (ctx : Context ι) (pkg : String) (mt : Ty ι) {R G V : String}
    (hR : Path.CleanRelative R) (hG : Path.NormalElem G.data) (hV : '/' ∉ V.data)
    (hP : mt.name.package = R ++ "/" ++ G ++ "/" ++ V) (hN : '/' ∉ mt.name.name.data)
    (hdiff : pkg ≠ mt.name.package) (hmeta : mt.name.package ≠ metaV1) (helem : mt.elem = none) :
    unversioned ctx pkg mt = (R ++ "/" ++ G, G ++ "." ++ mt.name.name) := by
  have hstr : mt.string = R ++ "/" ++ G ++ "/" ++ (V ++ "." ++ mt.name.name) := by
    rw [Ty.string_of_package fun h => by simpa [hP] using congrArg String.data h, hP]
    simp only [String.append_assoc]
  have hdir : Path.dir mt.name.package = R ++ "/" ++ G := by
    rw [hP]
    exact Path.dir_append_last (hR.append hG) hV
  unfold unversioned
  simp only [hstr, one_lt_split_base _ V _ hV hN, hmeta, helem, hdir,
    Path.base_append_last R G hG.1 hG.2.2.2, hdiff, decide_False, Bool.not_false,
    Bool.false_eq_true, if_true, if_false]

/-- A type `N` of `meta/v1` keeps its version under the `metav1` alias. -/
theorem unversioned_metaV1 (ctx : Context ι) (pkg : String) (mt : Ty ι)
    (hP : mt.name.package = metaV1) (hN : '/' ∉ mt.name.name.data ∧ '.' ∉ mt.name.name.data)
    (hdiff : pkg ≠ metaV1) :
    unversioned ctx pkg mt =
      ("metav1 \"k8s.io/apimachinery/pkg/apis/meta/v1\"", "metav1." ++ mt.name.name) := by
  have hbase : Filepath.base mt.string = "v1" ++ "." ++ mt.name.name := by
    rw [Ty.string_of_package (by rw [hP]; decide)]
    refine (Path.base_of_last "k8s.io/apimachinery/pkg/apis/meta".data
      ("v1" ++ "." ++ mt.name.name).data (by simp) ?_ ?_).trans rfl
    · simp [hN.1]
    · rw [hP]
      simp [metaV1]
  have hsplit : Strings.split ("v1" ++ "." ++ mt.name.name) "." = ["v1", mt.name.name] := by
    simpa [Strings.join] using @Strings.split_join ["v1", mt.name.name] "." '.' rfl
      (by simp) (by simp [hN.2])
  unfold unversioned
  simp only [hbase, hsplit, hP, hdiff, decide_False, Bool.not_false, if_true]
  rfl

/-- **Direct members.** For a member whose type is a named type, not a pointer, slice or
map, the field keeps the member's name, blank when embedded, and its type's package; it
needs no import and keeps the bare name in the struct's own package; it uses the `metav1`
alias for `meta/v1`; and a type `N` of a version package `R/g/v` of another group is
imported from the group package `R/g` and named `g.N`. -/
theorem memberField_unwrapped (ctx : Context ι) (pkg : String) (m : Member ι)
    (helem : (ctx.types m.type).elem = none) :
    (memberField ctx pkg m).name = (if m.embedded then "" else m.name) ∧
    (memberField ctx pkg m).versionedPackage = (ctx.types m.type).name.package ∧
    ((ctx.types m.type).name.package = pkg →
      (memberField ctx pkg m).unversionedImport = "" ∧
        (memberField ctx pkg m).unversionedType = (ctx.types m.type).name.name) ∧
    ((ctx.types m.type).name.package = metaV1 → pkg ≠ metaV1 →
      '/' ∉ (ctx.types m.type).name.name.data → '.' ∉ (ctx.types m.type).name.name.data →
      (memberField ctx pkg m).unversionedImport = "metav1 \"k8s.io/apimachinery/pkg/apis/meta/v1\"" ∧
        (memberField ctx pkg m).unversionedType = "metav1." ++ (ctx.types m.type).name.name) ∧
    (∀ R G V : String, Path.CleanRelative R → Path.NormalElem G.data → '/' ∉ V.data →
      (ctx.types m.type).name.package = R ++ "/" ++ G ++ "/" ++ V →
      (ctx.types m.type).name.package ≠ pkg → (ctx.types m.type).name.package ≠ metaV1 →
      '/' ∉ (ctx.types m.type).name.name.data →
      (memberField ctx pkg m).unversionedImport = R ++ "/" ++ G ∧
        (memberField ctx pkg m).unversionedType = G ++ "." ++ (ctx.types m.type).name.name) := by
  refine ⟨rfl, rfl, fun hp => ?_, fun hp hpkg hN hN' => ?_, fun R G V hR hG hV hp hpkg hmeta hN => ?_⟩
  · simp only [memberField, ← hp, unversioned_samepkg, and_self]
  · simp only [memberField, unversioned_metaV1 ctx pkg _ hp ⟨hN, hN'⟩ hpkg, and_self]
  · simp only [memberField, unversioned_other ctx pkg _ hR hG hV hp hN (Ne.symm hpkg) hmeta helem,
      and_self]

theorem memberField_created :
    (memberField widgetContext "example.com/apis/core/v1" ⟨"Created", false, .time⟩).unversionedType =
      "metav1.Time" :=
  ((memberField_unwrapped widgetContext "example.com/apis/core/v1" ⟨"Created", false, .time⟩
    rfl).2.2.2.1 rfl (by decide) (by decide) (by decide)).2

/-! ### Pointer, slice and map members -/

end ApiRegisterGen
