import Mathlib.Logic.Relation
import ApiRegisterGen.Worklist

/-!
# What `ParseStructs` flattens (parser.go:569-686)

The types `ParseStructs` processes are those reachable from the seeds through the
member types `DoType` visits next, those not primitive and of the owner's group, up to
bare names: a type is skipped when another of the same
bare name was processed. When no two reachable types share a bare name, the processed
types are exactly the reachable ones, whatever the pop discipline and the order of the
seeds. Every member type `DoType` enqueues gets a struct of its name; but `DoType`
enqueues a member's own type, which for `[]*T` is the slice, so `T` itself is never
flattened.
-/

namespace ApiRegisterGen

variable {ι : Type}

/-- `x` has a member of type `y`, and `y` is not primitive and is of `x`'s group: the
member types `DoType` visits next (parser.go:680-683). -/
def Enqueues (cl : Classifier ι) (ctx : Context ι) (x y : ι) : Prop :=
  ∃ m ∈ (ctx.types x).members, m.type = y ∧ cl.isPrimitive y = false ∧
    cl.getGroup y = cl.getGroup x

/-- Reachable from a seed through the member types `DoType` visits next. -/
def Reachable (cl : Classifier ι) (ctx : Context ι) (seeds : List ι) (x : ι) : Prop :=
  ∃ s ∈ seeds, Relation.ReflTransGen (Enqueues cl ctx) s x

theorem reachable_perm {cl : Classifier ι} {ctx : Context ι} {seeds seeds' : List ι}
    (hp : seeds'.Perm seeds) (x : ι) :
    Reachable cl ctx seeds' x ↔ Reachable cl ctx seeds x := by
  simp only [Reachable, hp.mem_iff]

section Inv

variable {cl : Classifier ι} {ctx : Context ι} {seeds ts : List ι}

/-- A processed type is reachable: it is a seed, or `DoType` returned it for a type
processed before it, which is reachable in turn. -/
theorem reachable_of_origin
    (origin : ∀ pre t suf, ts = pre ++ t :: suf → Pushed cl ctx seeds pre t) :
    ∀ n pre t suf, pre.length = n → ts = pre ++ t :: suf → Reachable cl ctx seeds t := by
  intro n
  induction n using Nat.strong_induction_on with
  | _ n ih =>
    intro pre t suf hn hts
    rcases origin pre t suf hts with hs | ⟨p, hp, ht⟩
    · exact ⟨t, hs, .refl⟩
    · obtain ⟨pre₁, pre₂, rfl⟩ := List.append_of_mem hp
      have hlen : pre₁.length < n := by
        rw [← hn, List.length_append, List.length_cons]
        omega
      obtain ⟨s₀, hs₀, hr⟩ := ih _ hlen pre₁ p (pre₂ ++ t :: suf) rfl (by rw [hts]; simp)
      exact ⟨s₀, hs₀, hr.tail ((mem_doType_iff cl ctx p t).mp ht)⟩

theorem reachable_of_mem {s : StructsState ι} (h : LoopInv cl ctx seeds ts s) {t : ι}
    (ht : t ∈ ts) : Reachable cl ctx seeds t := by
  obtain ⟨pre, suf, hts⟩ := List.append_of_mem ht
  exact reachable_of_origin h.origin _ pre t suf rfl hts

/-- Once the work-list is empty, and reachable types have distinct names, every reachable
type that was pushed has been processed. -/
theorem mem_of_pushed {s : StructsState ι} (h : LoopInv cl ctx seeds ts s)
    (hend : s.remaining = [])
    (huniq : ∀ x y, Reachable cl ctx seeds x → Reachable cl ctx seeds y →
      typeName ctx x = typeName ctx y → x = y)
    {x : ι} (hx : Pushed cl ctx seeds ts x) (hr : Reachable cl ctx seeds x) : x ∈ ts := by
  obtain ⟨t, ht, hname⟩ := exists_struct_of_pushed h hend hx
  exact huniq t x (reachable_of_mem h ht) hr hname ▸ ht

theorem mem_iff_reachable {s : StructsState ι} (h : LoopInv cl ctx seeds ts s)
    (hend : s.remaining = [])
    (huniq : ∀ x y, Reachable cl ctx seeds x → Reachable cl ctx seeds y →
      typeName ctx x = typeName ctx y → x = y) (x : ι) :
    x ∈ ts ↔ Reachable cl ctx seeds x := by
  refine ⟨reachable_of_mem h, fun hx => ?_⟩
  obtain ⟨s₀, hs₀, hr⟩ := hx
  induction hr with
  | refl => exact mem_of_pushed h hend huniq (.inl hs₀) ⟨s₀, hs₀, .refl⟩
  | @tail b c hb hbc ih =>
    exact mem_of_pushed h hend huniq (.inr ⟨b, ih, (mem_doType_iff cl ctx b c).mpr hbc⟩)
      ⟨s₀, hs₀, hb.tail hbc⟩

end Inv

/-- With distinct names among the reachable types, the loop processes each reachable type
once and nothing else, for every pop discipline. -/
theorem flattenStructs_eq_reachable [Fintype ι] (cl : Classifier ι) (ctx : Context ι)
    (seeds : List ι)
    (huniq : ∀ x y, Reachable cl ctx seeds x → Reachable cl ctx seeds y →
      typeName ctx x = typeName ctx y → x = y) (po : PopOrder ι) :
    ∃ ts : List ι, ts.Nodup ∧ (∀ x, x ∈ ts ↔ Reachable cl ctx seeds x) ∧
      (flattenStructs cl ctx po seeds).structs = ts.map (structOf cl ctx) := by
  obtain ⟨hend, ts, h⟩ := flattenStructs_inv cl ctx po seeds
  exact ⟨ts, h.nodup.of_map _, mem_iff_reachable h hend huniq, h.structs⟩

/-- **Order independence.** When no two reachable types share a bare name, the loop
appends one struct per reachable type, `DoType`'s with the flags `ParseStructs` sets, and
no other; so the structs agree, up to order, for every permutation of the seeds and every
pop discipline, Go's swap-with-last pop and FIFO among them. -/
theorem flattenStructs_reachable [Fintype ι] (cl : Classifier ι) (ctx : Context ι)
    (seeds : List ι)
    (huniq : ∀ x y, Reachable cl ctx seeds x → Reachable cl ctx seeds y →
      typeName ctx x = typeName ctx y → x = y) :
    (∀ po : PopOrder ι, ∃ ts : List ι, ts.Nodup ∧ (∀ x, x ∈ ts ↔ Reachable cl ctx seeds x) ∧
      (flattenStructs cl ctx po seeds).structs = ts.map (structOf cl ctx)) ∧
    ∀ (po po' : PopOrder ι) (seeds' : List ι), seeds'.Perm seeds →
      (flattenStructs cl ctx po' seeds').structs.Perm (flattenStructs cl ctx po seeds).structs := by
  refine ⟨flattenStructs_eq_reachable cl ctx seeds huniq, fun po po' seeds' hp => ?_⟩
  have huniq' : ∀ x y, Reachable cl ctx seeds' x → Reachable cl ctx seeds' y →
      typeName ctx x = typeName ctx y → x = y := fun x y hx hy =>
    huniq x y ((reachable_perm hp x).mp hx) ((reachable_perm hp y).mp hy)
  obtain ⟨ts, hnd, hmem, hs⟩ := flattenStructs_eq_reachable cl ctx seeds huniq po
  obtain ⟨ts', hnd', hmem', hs'⟩ := flattenStructs_eq_reachable cl ctx seeds' huniq' po'
  rw [hs, hs']
  refine List.Perm.map _ ((List.perm_ext_iff_of_nodup hnd' hnd).mpr fun x => ?_)
  rw [hmem', hmem, reachable_perm hp]

/-- Every type of `WidgetType` has its own bare name. -/
theorem widgetType_name_injective :
    ∀ x y : WidgetType, typeName widgetContext x = typeName widgetContext y → x = y := by
  decide

theorem flattenStructs_widget_orders :
    (flattenStructs default widgetContext PopOrder.swap [.widget]).structs.Perm
      (flattenStructs default widgetContext PopOrder.fifo [.widget]).structs :=
  (flattenStructs_reachable default widgetContext [.widget]
    (fun x y _ _ h => widgetType_name_injective x y h)).2 PopOrder.fifo PopOrder.swap [.widget]
    (List.Perm.refl _)

/-! ### Closure under enqueued members -/

/-- Every member type `DoType` enqueues for a processed type has a struct of its name:
the flattened structs are closed under the enqueue relation, up to names. -/
theorem flattenStructs_member_closed [Fintype ι] (cl : Classifier ι) (ctx : Context ι)
    (po : PopOrder ι) (seeds : List ι) :
    ∃ ts : List ι, (flattenStructs cl ctx po seeds).structs = ts.map (structOf cl ctx) ∧
      ∀ t ∈ ts, ∀ m ∈ (ctx.types t).members, cl.isPrimitive m.type = false →
        cl.getGroup m.type = cl.getGroup t →
        ∃ st ∈ (flattenStructs cl ctx po seeds).structs, st.name = typeName ctx m.type := by
  obtain ⟨hend, ts, h⟩ := flattenStructs_inv cl ctx po seeds
  refine ⟨ts, h.structs, fun t ht m hm hp hg => ?_⟩
  obtain ⟨t', ht', hname⟩ := exists_struct_of_pushed h hend
    (.inr ⟨t, ht, (mem_doType_iff cl ctx t m.type).mpr ⟨m, hm, rfl, hp, hg⟩⟩)
  exact ⟨structOf cl ctx t', h.structs ▸ List.mem_map_of_mem _ ht',
    (structOf_name cl ctx t').trans hname⟩

/-! ### Wrapped members -/

/-- From `Widget`, `DoType` can reach only `Widget` and the wrapper types of its members,
which have no members: whatever the classifier. -/
theorem widget_reachable (cl : Classifier WidgetType) {x : WidgetType}
    (hx : Reachable cl widgetContext [.widget] x) :
    x = .widget ∨ x = .lastUpdate ∨ x = .items := by
  obtain ⟨s, hs, hr⟩ := hx
  rw [List.mem_singleton.mp hs] at hr
  induction hr with
  | refl => exact .inl rfl
  | @tail b c _ hbc ih =>
    obtain ⟨m, hm, rfl, -⟩ := hbc
    rcases ih with rfl | rfl | rfl
    · simp only [widgetContext, widgetTypes, List.mem_cons, List.mem_singleton,
        List.not_mem_nil, or_false] at hm
      rcases hm with rfl | rfl
      · exact .inr (.inl rfl)
      · exact .inr (.inr rfl)
    · exact absurd hm (List.not_mem_nil m)
    · exact absurd hm (List.not_mem_nil m)

/-- `Widget`'s member `Items` has type `[]*WidgetItem`, of `Widget`'s own package; from the
seed `Widget`, `ParseStructs` appends `Widget`'s struct but none named `WidgetItem`, for
every classifier and every pop discipline. -/
theorem flattenStructs_widget_item_missing (cl : Classifier WidgetType)
    (po : PopOrder WidgetType) :
    structOf cl widgetContext .widget ∈ (flattenStructs cl widgetContext po [.widget]).structs ∧
    ∀ st ∈ (flattenStructs cl widgetContext po [.widget]).structs, st.name ≠ "WidgetItem" := by
  obtain ⟨hend, ts, h⟩ := flattenStructs_inv cl widgetContext po [.widget]
  rw [h.structs]
  refine ⟨?_, fun st hst => ?_⟩
  · obtain ⟨t, ht, hname⟩ := exists_struct_of_pushed h hend (.inl (List.mem_singleton_self _))
    rcases widget_reachable cl (reachable_of_mem h ht) with rfl | rfl | rfl
    · exact List.mem_map_of_mem _ ht
    all_goals exact absurd hname (by decide)
  · obtain ⟨t, ht, rfl⟩ := List.mem_map.mp hst
    rw [structOf_name]
    rcases widget_reachable cl (reachable_of_mem h ht) with rfl | rfl | rfl <;> decide

end ApiRegisterGen
