import Mathlib.Data.Fintype.Basic
import Mathlib.Data.Finset.Lattice.Fold
import Mathlib.Data.Nat.Lattice
import ApiRegisterGen.DoType

/-!
# The struct work-list of `ParseStructs` (parser.go:569-612)

`ParseStructs` seeds a work-list with the types of a group's resources and subresource
requests and pops it until it is empty. A popped type whose bare name was seen is
skipped; otherwise its name is recorded, `DoType` builds its `Struct`, and the member
types `DoType` returns are pushed. The source pops `remaining[0]` and moves the last
element into its slot; the model takes the pop as a parameter, a `PopOrder`, of which that
is one instance, so that every result holds of every pop discipline.

The loop runs on fuel counted from the number of bare names in the finite universe, and
that fuel is always enough: every iteration either records a new name or shortens the
list.
-/

namespace ApiRegisterGen

variable {ι : Type}

/-! ### Pop disciplines -/

/-- A way to take one element out of a non-empty work-list, leaving the others. -/
structure PopOrder (ι : Type) where
  pop : List ι → Option (ι × List ι)
  pop_eq_none : ∀ l, pop l = none ↔ l = []
  perm_of_pop : ∀ l x rest, pop l = some (x, rest) → l.Perm (x :: rest)

/-- Go's pop (parser.go:585-587): `remaining[0]`, with the last element moved into its
slot and the last slot dropped. -/
def swapPop : List ι → Option (ι × List ι)
  | [] => none
  | x :: xs => some (x, match xs.getLast? with
    | none => []
    | some y => y :: xs.dropLast)

theorem perm_dropLast_of_getLast? {l : List ι} {y : ι} (h : l.getLast? = some y) :
    l.Perm (y :: l.dropLast) := by
  have hp := List.perm_append_singleton y l.dropLast
  rwa [List.dropLast_append_getLast? y h] at hp

theorem swapPop_perm : ∀ (l : List ι) (x : ι) (rest : List ι),
    swapPop l = some (x, rest) → l.Perm (x :: rest)
  | [], _, _, h => nomatch h
  | y :: ys, x, rest, h => by
    simp only [swapPop, Option.some.injEq, Prod.mk.injEq] at h
    obtain ⟨rfl, rfl⟩ := h
    refine List.Perm.cons _ ?_
    cases hl : ys.getLast? with
    | none => rw [List.getLast?_eq_none_iff.mp hl]
    | some z => exact perm_dropLast_of_getLast? hl

/-- The pop of the source. -/
def PopOrder.swap : PopOrder ι where
  pop := swapPop
  pop_eq_none l := by cases l <;> simp [swapPop]
  perm_of_pop := swapPop_perm

/-- First in, first out. -/
def PopOrder.fifo : PopOrder ι where
  pop l := l.head?.map fun x => (x, l.tail)
  pop_eq_none l := by cases l <;> simp
  perm_of_pop l x rest h := by
    cases l with
    | nil => exact nomatch h
    | cons y ys =>
      simp only [List.head?_cons, Option.map_some', Option.some.injEq, Prod.mk.injEq] at h
      obtain ⟨rfl, rfl⟩ := h
      rfl

/-- Last in, first out. -/
def PopOrder.lifo : PopOrder ι where
  pop l := l.getLast?.map fun x => (x, l.dropLast)
  pop_eq_none l := by simp [List.getLast?_eq_none_iff]
  perm_of_pop l x rest h := by
    obtain ⟨y, hy, hxy⟩ := Option.map_eq_some'.mp h
    simp only [Prod.mk.injEq] at hxy
    obtain ⟨rfl, rfl⟩ := hxy
    exact perm_dropLast_of_getLast? hy

/-! ### The loop -/

/-- The loop's variables: the work-list, the bare names seen, the structs appended. -/
structure StructsState (ι : Type) where
  remaining : List ι
  done : Finset String
  structs : List Struct

/-- A type's bare name `t.Name.Name`, the key of `done`. -/
def typeName (ctx : Context ι) (t : ι) : String := (ctx.types t).name.name

/-- `APIsBuilder.GenClient` (parser.go:493-497). -/
def genClient (cl : Classifier ι) (ctx : Context ι) (c : ι) : Bool :=
  (cl.getTag (ctx.types c).commentLines "resource" ":").length > 0

/-- `APIsBuilder.GenDeepCopy` (parser.go:499-502). -/
def genDeepCopy (cl : Classifier ι) (ctx : Context ι) (c : ι) : Bool :=
  cl.hasTag (ctx.types c).commentLines "subresource-request"

/-- The flags `ParseStructs` sets on `DoType`'s struct (parser.go:597-605). -/
def finishStruct (cl : Classifier ι) (ctx : Context ι) (c : ι) (result : Struct) : Struct :=
  let result := if genClient cl ctx c then { result with genClient := true, genDeepCopy := true }
    else result
  if genDeepCopy cl ctx c then { result with genDeepCopy := true } else result

/-- The struct `ParseStructs` appends for a type it processes. -/
def structOf (cl : Classifier ι) (ctx : Context ι) (t : ι) : Struct :=
  finishStruct cl ctx t (doType cl ctx t).1

/-- One iteration of `for len(remaining) > 0` (parser.go:583-611); `none` when the loop
exits. -/
def parseStructsStep (cl : Classifier ι) (ctx : Context ι) (po : PopOrder ι)
    (s : StructsState ι) : Option (StructsState ι) :=
  match po.pop s.remaining with
  | none => none
  | some (next, remaining) =>
    if typeName ctx next ∈ s.done then some { s with remaining := remaining }
    else
      let r := doType cl ctx next
      some { remaining := remaining ++ r.2, done := insert (typeName ctx next) s.done,
             structs := s.structs ++ [finishStruct cl ctx next r.1] }

/-- The loop, for at most `fuel` iterations. -/
def parseStructsLoop (cl : Classifier ι) (ctx : Context ι) (po : PopOrder ι) :
    Nat → StructsState ι → StructsState ι
  | 0, s => s
  | fuel + 1, s =>
    match parseStructsStep cl ctx po s with
    | none => s
    | some s' => parseStructsLoop cl ctx po fuel s'

section Fuel

variable [Fintype ι]

/-- The bare names of the universe. -/
def allNames (ctx : Context ι) : Finset String := Finset.univ.image (typeName ctx)

/-- The most members a type of the universe has. -/
def maxMembers (ctx : Context ι) : Nat := Finset.univ.sup fun t => (ctx.types t).members.length

/-- What every iteration lowers: the length of the work-list, plus `maxMembers + 1` for
every bare name not seen yet. -/
def structsMeasure (ctx : Context ι) (s : StructsState ι) : Nat :=
  s.remaining.length + (allNames ctx \ s.done).card * (maxMembers ctx + 1)

/-- The loop of `ParseStructs` from `seeds`, with fuel for every iteration it can make. -/
def flattenStructs (cl : Classifier ι) (ctx : Context ι) (po : PopOrder ι) (seeds : List ι) :
    StructsState ι :=
  parseStructsLoop cl ctx po (seeds.length + (allNames ctx).card * (maxMembers ctx + 1) + 1)
    ⟨seeds, ∅, []⟩

end Fuel

/-- The seeds of `ParseStructs` (parser.go:570-580): the type of every resource of every
version of the group, then every subresource request filed under the group. -/
def structSeeds (b : APIsBuilder ι) (g : APIGroup ι) : List ι :=
  (g.versions.entries.flatMap fun v => v.2.resources.entries.map fun r => r.2.type) ++
    (((b.subByGroupVersionKind.lookup g.group).getD ∅).entries.flatMap fun v =>
      v.2.entries.map fun k => k.2)

/-- `APIsBuilder.ParseStructs` (parser.go:569-612). The loop reads nothing of `Structs`, so
it starts from no structs and what it appends is appended to the group's. -/
def parseStructs [Fintype ι] (cl : Classifier ι) (b : APIsBuilder ι) (g : APIGroup ι) :
    APIGroup ι :=
  { g with structs :=
      g.structs ++ (flattenStructs cl b.context PopOrder.swap (structSeeds b g)).structs }

/-! ### One iteration -/

section Step

variable (cl : Classifier ι) (ctx : Context ι) (po : PopOrder ι) (s : StructsState ι)

theorem structOf_name (t : ι) : (structOf cl ctx t).name = typeName ctx t := by
  unfold structOf finishStruct
  split <;> split <;> rfl

theorem parseStructsStep_eq_none : parseStructsStep cl ctx po s = none ↔ s.remaining = [] := by
  rw [← po.pop_eq_none, parseStructsStep]
  split
  · simp only [*]
  · rename_i h
    simp only [h, reduceCtorEq, iff_false]
    split <;> exact Option.some_ne_none _

/-- Everything one iteration can do: skip a popped type whose name was seen, or process it. -/
theorem parseStructsStep_eq_some {s' : StructsState ι} (h : parseStructsStep cl ctx po s = some s') :
    ∃ next rest, po.pop s.remaining = some (next, rest) ∧
      (typeName ctx next ∈ s.done ∧ s' = { s with remaining := rest } ∨
       typeName ctx next ∉ s.done ∧
         s' = ⟨rest ++ (doType cl ctx next).2, insert (typeName ctx next) s.done,
           s.structs ++ [structOf cl ctx next]⟩) := by
  unfold parseStructsStep at h
  split at h
  · exact nomatch h
  · rename_i next rest hpop
    refine ⟨next, rest, hpop, ?_⟩
    split at h
    · exact .inl ⟨‹_›, (Option.some.inj h).symm⟩
    · exact .inr ⟨‹_›, (Option.some.inj h).symm⟩

theorem remaining_length_of_pop {next : ι} {rest : List ι}
    (h : po.pop s.remaining = some (next, rest)) : s.remaining.length = rest.length + 1 :=
  (po.perm_of_pop _ _ _ h).length_eq

/-- Processing a type removes its name from the names not seen yet. -/
theorem card_sdiff_insert {A D : Finset String} {n : String} (hA : n ∈ A) (hD : n ∉ D) :
    (A \ D).card = (A \ insert n D).card + 1 := by
  rw [Finset.sdiff_insert, Finset.card_erase_of_mem (Finset.mem_sdiff.mpr ⟨hA, hD⟩)]
  have : 0 < (A \ D).card := Finset.card_pos.mpr ⟨n, Finset.mem_sdiff.mpr ⟨hA, hD⟩⟩
  omega

section Fuel

variable [Fintype ι]

theorem typeName_mem_allNames (t : ι) : typeName ctx t ∈ allNames ctx :=
  Finset.mem_image_of_mem _ (Finset.mem_univ t)

theorem length_doType_le_maxMembers (t : ι) : (doType cl ctx t).2.length ≤ maxMembers ctx :=
  (length_doType_le cl ctx t).trans
    (Finset.le_sup (f := fun t => (ctx.types t).members.length) (Finset.mem_univ t))

/-- Every iteration lowers the names not seen yet, or keeps them and shortens the list. -/
theorem parseStructsStep_lex {s' : StructsState ι} (h : parseStructsStep cl ctx po s = some s') :
    (allNames ctx \ s'.done).card < (allNames ctx \ s.done).card ∨
      ((allNames ctx \ s'.done).card = (allNames ctx \ s.done).card ∧
        s'.remaining.length < s.remaining.length) := by
  obtain ⟨next, rest, hpop, ⟨-, rfl⟩ | ⟨hnew, rfl⟩⟩ := parseStructsStep_eq_some cl ctx po s h
  · exact .inr ⟨rfl, show rest.length < _ by rw [remaining_length_of_pop po s hpop]; omega⟩
  · rw [card_sdiff_insert (typeName_mem_allNames ctx next) hnew]
    exact .inl (Nat.lt_succ_self _)

theorem structsMeasure_lt {s' : StructsState ι} (h : parseStructsStep cl ctx po s = some s') :
    structsMeasure ctx s' < structsMeasure ctx s := by
  obtain ⟨next, rest, hpop, ⟨-, rfl⟩ | ⟨hnew, rfl⟩⟩ := parseStructsStep_eq_some cl ctx po s h
  · simp only [structsMeasure, remaining_length_of_pop po s hpop]
    omega
  · have ha := length_doType_le_maxMembers cl ctx next
    simp only [structsMeasure, remaining_length_of_pop po s hpop, List.length_append]
    rw [card_sdiff_insert (typeName_mem_allNames ctx next) hnew, Nat.succ_mul]
    omega

end Fuel

end Step

/-- With more fuel than the measure, the loop runs until the work-list is empty. -/
theorem parseStructsLoop_remaining [Fintype ι] (cl : Classifier ι) (ctx : Context ι)
    (po : PopOrder ι) :
    ∀ fuel (s : StructsState ι), structsMeasure ctx s < fuel →
      (parseStructsLoop cl ctx po fuel s).remaining = []
  | 0, _, h => absurd h (Nat.not_lt_zero _)
  | fuel + 1, s, h => by
    rw [parseStructsLoop]
    cases hs : parseStructsStep cl ctx po s with
    | none => exact (parseStructsStep_eq_none cl ctx po s).mp hs
    | some s' =>
      have := structsMeasure_lt cl ctx po s hs
      exact parseStructsLoop_remaining cl ctx po fuel s' (by omega)

/-! ### The loop invariant -/

/-- Pushed onto the work-list once `ts` are processed: a seed, or a type `DoType`
returned for one of `ts`. -/
def Pushed (cl : Classifier ι) (ctx : Context ι) (seeds ts : List ι) (x : ι) : Prop :=
  x ∈ seeds ∨ ∃ p ∈ ts, x ∈ (doType cl ctx p).2

theorem pushed_append_singleton {cl : Classifier ι} {ctx : Context ι} {seeds ts : List ι}
    {t x : ι} :
    Pushed cl ctx seeds (ts ++ [t]) x ↔ Pushed cl ctx seeds ts x ∨ x ∈ (doType cl ctx t).2 := by
  simp only [Pushed, List.mem_append, List.mem_singleton, or_and_right, exists_or,
    exists_eq_left, or_assoc]

/-- What the loop has done after processing `ts`, in order, from `seeds`. -/
structure LoopInv (cl : Classifier ι) (ctx : Context ι) (seeds ts : List ι)
    (s : StructsState ι) : Prop where
  structs : s.structs = ts.map (structOf cl ctx)
  done : s.done = (ts.map (typeName ctx)).toFinset
  nodup : (ts.map (typeName ctx)).Nodup
  origin : ∀ pre t suf, ts = pre ++ t :: suf → Pushed cl ctx seeds pre t
  pending : ∀ x ∈ s.remaining, Pushed cl ctx seeds ts x
  covered : ∀ x, Pushed cl ctx seeds ts x → x ∈ s.remaining ∨ typeName ctx x ∈ s.done

theorem snoc_eq_append_cons {l pre suf : List ι} {t x : ι} (h : l ++ [t] = pre ++ x :: suf) :
    (pre = l ∧ x = t) ∨ ∃ suf', l = pre ++ x :: suf' := by
  rcases List.eq_nil_or_concat suf with rfl | ⟨L, b, rfl⟩
  · obtain ⟨h1, h2⟩ := List.append_inj' h rfl
    exact .inl ⟨h1.symm, (List.singleton_inj.mp h2).symm⟩
  · rw [List.concat_eq_append, ← List.cons_append, ← List.append_assoc] at h
    exact .inr ⟨L, (List.append_inj' h rfl).1⟩

section Inv

variable {cl : Classifier ι} {ctx : Context ι} {po : PopOrder ι} {seeds : List ι}

theorem loopInv_init : LoopInv cl ctx seeds [] ⟨seeds, ∅, []⟩ :=
  ⟨rfl, rfl, List.nodup_nil, fun pre t suf h => by simp at h, fun _ hx => .inl hx,
    fun x hx => .inl (hx.resolve_right fun ⟨_, hp, _⟩ => nomatch hp)⟩

theorem loopInv_skip {ts : List ι} {s : StructsState ι} {next : ι} {rest : List ι}
    (h : LoopInv cl ctx seeds ts s) (hpop : po.pop s.remaining = some (next, rest))
    (hseen : typeName ctx next ∈ s.done) :
    LoopInv cl ctx seeds ts { s with remaining := rest } := by
  have hperm := po.perm_of_pop _ _ _ hpop
  refine ⟨h.structs, h.done, h.nodup, h.origin,
    fun x hx => h.pending x (hperm.mem_iff.mpr (List.mem_cons_of_mem _ hx)), fun x hx => ?_⟩
  rcases h.covered x hx with hr | hd
  · rcases List.mem_cons.mp (hperm.mem_iff.mp hr) with rfl | hr
    · exact .inr hseen
    · exact .inl hr
  · exact .inr hd

theorem loopInv_process {ts : List ι} {s : StructsState ι} {next : ι} {rest : List ι}
    (h : LoopInv cl ctx seeds ts s) (hpop : po.pop s.remaining = some (next, rest))
    (hnew : typeName ctx next ∉ s.done) :
    LoopInv cl ctx seeds (ts ++ [next])
      ⟨rest ++ (doType cl ctx next).2, insert (typeName ctx next) s.done,
        s.structs ++ [structOf cl ctx next]⟩ := by
  have hperm := po.perm_of_pop _ _ _ hpop
  have hnext : Pushed cl ctx seeds ts next := h.pending next (hperm.mem_iff.mpr (List.mem_cons_self _ _))
  refine ⟨by rw [h.structs, List.map_append, List.map_singleton], ?_, ?_, fun pre t suf hs => ?_,
    fun x hx => ?_, fun x hx => ?_⟩
  · rw [h.done, List.map_append, List.toFinset_append, List.map_singleton, List.toFinset_cons,
      List.toFinset_nil, Finset.union_insert, Finset.union_empty]
  · rw [List.map_append, List.nodup_append]
    refine ⟨h.nodup, List.nodup_singleton _, List.disjoint_singleton.mpr fun hm => hnew ?_⟩
    rw [h.done]
    exact List.mem_toFinset.mpr hm
  · rcases snoc_eq_append_cons hs with ⟨rfl, rfl⟩ | ⟨suf', hts⟩
    · exact hnext
    · exact h.origin pre t suf' hts
  · rcases List.mem_append.mp hx with hx | hx
    · exact pushed_append_singleton.mpr (.inl (h.pending x (hperm.mem_iff.mpr (List.mem_cons_of_mem _ hx))))
    · exact pushed_append_singleton.mpr (.inr hx)
  · rcases pushed_append_singleton.mp hx with hx | hx
    · rcases h.covered x hx with hr | hd
      · rcases List.mem_cons.mp (hperm.mem_iff.mp hr) with rfl | hr
        · exact .inr (Finset.mem_insert_self _ _)
        · exact .inl (List.mem_append_left _ hr)
      · exact .inr (Finset.mem_insert_of_mem hd)
    · exact .inl (List.mem_append_right _ hx)

theorem loopInv_step {ts : List ι} {s s' : StructsState ι} (h : LoopInv cl ctx seeds ts s)
    (hs : parseStructsStep cl ctx po s = some s') :
    ∃ ts', LoopInv cl ctx seeds ts' s' := by
  obtain ⟨next, rest, hpop, ⟨hseen, rfl⟩ | ⟨hnew, rfl⟩⟩ := parseStructsStep_eq_some cl ctx po s hs
  · exact ⟨ts, loopInv_skip h hpop hseen⟩
  · exact ⟨ts ++ [next], loopInv_process h hpop hnew⟩

theorem loopInv_loop : ∀ (fuel : Nat) (s : StructsState ι) (ts : List ι),
    LoopInv cl ctx seeds ts s → ∃ ts', LoopInv cl ctx seeds ts' (parseStructsLoop cl ctx po fuel s)
  | 0, _, ts, h => ⟨ts, h⟩
  | fuel + 1, s, ts, h => by
    rw [parseStructsLoop]
    cases hs : parseStructsStep cl ctx po s with
    | none => exact ⟨ts, h⟩
    | some s' =>
      obtain ⟨ts', h'⟩ := loopInv_step h hs
      exact loopInv_loop fuel s' ts' h'

theorem names_structs {ts : List ι} {s : StructsState ι} (h : LoopInv cl ctx seeds ts s) :
    s.structs.map Struct.name = ts.map (typeName ctx) := by
  rw [h.structs, List.map_map]
  exact List.map_congr_left fun t _ => structOf_name cl ctx t

/-- Once the work-list is empty, every pushed type's name has a struct. -/
theorem exists_struct_of_pushed {ts : List ι} {s : StructsState ι} (h : LoopInv cl ctx seeds ts s)
    (hend : s.remaining = []) {x : ι} (hx : Pushed cl ctx seeds ts x) :
    ∃ t ∈ ts, typeName ctx t = typeName ctx x := by
  have hd := (h.covered x hx).resolve_left (by rw [hend]; exact List.not_mem_nil x)
  rw [h.done, List.mem_toFinset, List.mem_map] at hd
  exact hd

end Inv

/-- At the end of the loop: the invariant, with nothing left to pop. -/
theorem flattenStructs_inv [Fintype ι] (cl : Classifier ι) (ctx : Context ι) (po : PopOrder ι)
    (seeds : List ι) :
    (flattenStructs cl ctx po seeds).remaining = [] ∧
      ∃ ts, LoopInv cl ctx seeds ts (flattenStructs cl ctx po seeds) :=
  ⟨parseStructsLoop_remaining cl ctx po _ _ (by simp [structsMeasure]),
    loopInv_loop _ _ [] loopInv_init⟩

/-- Every seed has a struct of its bare name. -/
theorem flattenStructs_seed [Fintype ι] (cl : Classifier ι) (ctx : Context ι) (po : PopOrder ι)
    {seeds : List ι} {x : ι} (hx : x ∈ seeds) :
    ∃ st ∈ (flattenStructs cl ctx po seeds).structs, st.name = typeName ctx x := by
  obtain ⟨hend, ts, h⟩ := flattenStructs_inv cl ctx po seeds
  obtain ⟨t, ht, hname⟩ := exists_struct_of_pushed h hend (.inl hx)
  exact ⟨structOf cl ctx t, h.structs ▸ List.mem_map_of_mem _ ht,
    (structOf_name cl ctx t).trans hname⟩

/-- `ParseStructs` gives every seed of the group a struct of its bare name. -/
theorem parseStructs_seed [Fintype ι] (cl : Classifier ι) (b : APIsBuilder ι) (g : APIGroup ι)
    {x : ι} (hx : x ∈ structSeeds b g) :
    ∃ st ∈ (parseStructs cl b g).structs, st.name = typeName b.context x :=
  let ⟨st, hst, hname⟩ := flattenStructs_seed cl b.context PopOrder.swap hx
  ⟨st, List.mem_append_right _ hst, hname⟩

/-! ### Termination and provenance -/

/-- **Termination.** Every iteration lowers the bare names not seen yet, or keeps them
and shortens the work-list; so the loop, given the fuel `flattenStructs` gives it, empties
the work-list, and it has called `DoType` at most once per bare name of the universe. -/
theorem flattenStructs_terminates [Fintype ι] (cl : Classifier ι) (ctx : Context ι)
    (po : PopOrder ι) (seeds : List ι) :
    (∀ s s', parseStructsStep cl ctx po s = some s' →
      (allNames ctx \ s'.done).card < (allNames ctx \ s.done).card ∨
        ((allNames ctx \ s'.done).card = (allNames ctx \ s.done).card ∧
          s'.remaining.length < s.remaining.length)) ∧
    (flattenStructs cl ctx po seeds).remaining = [] ∧
    ((flattenStructs cl ctx po seeds).structs.map Struct.name).Nodup ∧
    (flattenStructs cl ctx po seeds).structs.length ≤ (allNames ctx).card := by
  obtain ⟨hend, ts, h⟩ := flattenStructs_inv cl ctx po seeds
  have hnames := names_structs h
  refine ⟨fun s s' hs => parseStructsStep_lex cl ctx po s hs, hend, hnames ▸ h.nodup, ?_⟩
  calc (flattenStructs cl ctx po seeds).structs.length
      = (ts.map (typeName ctx)).toFinset.card := by
        rw [List.toFinset_card_of_nodup h.nodup, ← hnames, List.length_map]
    _ ≤ (allNames ctx).card := Finset.card_le_card fun n hn => by
        obtain ⟨t, -, rfl⟩ := List.mem_map.mp (List.mem_toFinset.mp hn)
        exact typeName_mem_allNames ctx t

/-- **No duplication, no lost root, no invented struct.** The structs appended have
distinct names, one of them is named after each seed, and they are `DoType`'s structs of
the processed types, each of which is a seed or was returned by `DoType` for a type
processed before it. -/
theorem flattenStructs_provenance [Fintype ι] (cl : Classifier ι) (ctx : Context ι)
    (po : PopOrder ι) (seeds : List ι) :
    ((flattenStructs cl ctx po seeds).structs.map Struct.name).Nodup ∧
    (∀ x ∈ seeds, ∃ st ∈ (flattenStructs cl ctx po seeds).structs, st.name = typeName ctx x) ∧
    ∃ ts, (flattenStructs cl ctx po seeds).structs = ts.map (structOf cl ctx) ∧
      ∀ pre t suf, ts = pre ++ t :: suf → t ∈ seeds ∨ ∃ p ∈ pre, t ∈ (doType cl ctx p).2 := by
  obtain ⟨-, ts, h⟩ := flattenStructs_inv cl ctx po seeds
  exact ⟨names_structs h ▸ h.nodup, fun _ hx => flattenStructs_seed cl ctx po hx, ts, h.structs,
    h.origin⟩

end ApiRegisterGen
