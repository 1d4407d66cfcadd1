import Mathlib.Data.List.Basic
import Mathlib.Data.List.DropRight
import Mathlib.Data.List.Infix

/-!
# Go's strings, path and path/filepath, as parser.go calls them

Go strings are byte strings. Every separator parser.go passes (`,`, `=`, `.`, `/`,
`/pkg/controller`) is ASCII, so scanning characters finds the same occurrences at the
same places as scanning bytes. `path/filepath` is modelled for Unix, where it is `path`.
Every function is structurally recursive over the characters, so it evaluates by `decide`.
-/

namespace ApiRegisterGen

namespace Strings

/-- `strings.Split(s, sep)` for a non-empty `sep`: `k` characters of a separator are still
to be skipped, `cur` is the current piece reversed. -/
def splitAux (sep : List Char) : Nat → List Char → List Char → List (List Char)
  | _, cur, [] => [cur.reverse]
  | k + 1, cur, _ :: cs => splitAux sep k cur cs
  | 0, cur, c :: cs =>
    if sep <+: c :: cs then cur.reverse :: splitAux sep (sep.length - 1) [] cs
    else splitAux sep 0 (c :: cur) cs

/-- `strings.Split(s, sep)`: the pieces between the non-overlapping occurrences of `sep`,
left to right; an empty `sep` splits after every character. -/
def split (s sep : String) : List String :=
  if sep = "" then s.data.map fun c => ⟨[c]⟩
  else (splitAux sep.data 0 [] s.data).map String.mk

theorem length_eq_zero {s : String} : s.length = 0 ↔ s = "" :=
  ⟨fun h => String.ext (List.length_eq_zero.mp h), fun h => h ▸ rfl⟩

/-- `strings.Replace(s, old, new, n)`: the first `n` non-overlapping occurrences of `old`
become `new`, all of them when `n < 0`; `k` characters of a replaced occurrence are still
to be skipped. An empty `old` matches before every character and at the end. -/
def replaceAux (old new : List Char) : Int → Nat → List Char → List Char
  | n, _, [] => if old = [] ∧ n ≠ 0 then new else []
  | n, k + 1, _ :: cs => replaceAux old new n k cs
  | n, 0, c :: cs =>
    if n ≠ 0 ∧ old <+: c :: cs then
      if old = [] then new ++ c :: replaceAux old new (n - 1) 0 cs
      else new ++ replaceAux old new (n - 1) (old.length - 1) cs
    else c :: replaceAux old new n 0 cs

/-- `strings.Replace(s, old, new, n)`. -/
def replace (s old new : String) (n : Int) : String := ⟨replaceAux old.data new.data n 0 s.data⟩

/-- `strings.Contains(s, substr)`. -/
def contains (s substr : String) : Bool := decide (substr.data <:+: s.data)

/-- `strings.LastIndex(s, substr)` scanning from position `i`, `last` the latest match. -/
def lastIndexAux (sub : List Char) : Nat → List Char → Int → Int
  | i, [], last => if sub = [] then i else last
  | i, c :: cs, last => lastIndexAux sub (i + 1) cs (if sub <+: c :: cs then i else last)

/-- `strings.LastIndex(s, substr)`: where the last occurrence starts, `-1` if none. -/
def lastIndex (s substr : String) : Int := lastIndexAux substr.data 0 s.data (-1)

/-- `strings.TrimSuffix(s, suffix)`. -/
def trimSuffix (s suffix : String) : String :=
  if suffix.data <:+ s.data then ⟨s.data.take (s.length - suffix.length)⟩ else s

/-- `strings.Join(elems, sep)`. -/
def join : List String → String → String
  | [], _ => ""
  | [e], _ => e
  | e :: es, sep => e ++ sep ++ join es sep

/-- The runes `unicode.IsSpace` accepts. -/
def isSpace (c : Char) : Bool :=
  c = ' ' || c = '\t' || c = '\n' || c = '\r' || c.val = 0x0B || c.val = 0x0C ||
    c.val = 0x85 || c.val = 0xA0 || c.val = 0x1680 || (0x2000 ≤ c.val && c.val ≤ 0x200A) ||
    c.val = 0x2028 || c.val = 0x2029 || c.val = 0x202F || c.val = 0x205F || c.val = 0x3000

/-- `isSeparator` of `strings.Title`: on ASCII anything but a letter, a digit or `_`;
beyond ASCII a rune that is neither a letter nor a digit and is a space, which is a space,
since no space is a letter or a digit. -/
def isSeparator (c : Char) : Bool :=
  if c.val < 0x80 then !(c.isAlphanum || c = '_') else isSpace c

/-- `unicode.ToTitle`: on ASCII title case is upper case; beyond ASCII the rune goes
through `tables`, the title-case mapping of Unicode's case tables (`To(TitleCase, r)`). -/
def toTitle (tables : Char → Char) (c : Char) : Char :=
  if c.val < 0x80 then c.toUpper else tables c

/-- `strings.Title`, with `prev` the previous rune: the rune after a separator is
title-cased. -/
def titleAux (tables : Char → Char) : Char → List Char → List Char
  | _, [] => []
  | prev, c :: cs => (if isSeparator prev then toTitle tables c else c) :: titleAux tables c cs

/-- `strings.Title(s)`, with Unicode's title-case tables `tables`. -/
def title (tables : Char → Char) (s : String) : String := ⟨titleAux tables ' ' s.data⟩

example : title (fun c => if c = 'é' then 'É' else c) "élan my-api" = "Élan My-Api" := by decide

/-! ### Splitting on one character, and joining -/

theorem splitAux_singleton (c : Char) (cur l : List Char) :
    splitAux [c] 0 cur l = List.splitOnP.go (· == c) l cur := by
  induction l generalizing cur with
  | nil => rfl
  | cons x xs ih =>
    by_cases h : x = c
    · subst h; simp [splitAux, List.splitOnP.go, ih]
    · simp [splitAux, List.splitOnP.go, ih, h, Ne.symm h]

theorem split_of_data_eq {s sep : String} {c : Char} (h : sep.data = [c]) :
    split s sep = (s.data.splitOn c).map String.mk := by
  have hne : sep ≠ "" := fun e => by simp [e] at h
  simp only [split, hne, if_false, h, splitAux_singleton]
  rfl

/-- No occurrence of `sep` starts inside `r`: the scan copies `r` into the current piece. -/
theorem splitAux_of_no_match (sep : List Char) : ∀ (r l cur : List Char),
    (∀ i < r.length, ¬sep <+: (r ++ l).drop i) →
      splitAux sep 0 cur (r ++ l) = splitAux sep 0 (r.reverse ++ cur) l
  | [], _, _, _ => rfl
  | c :: r, l, cur, h => by
    rw [List.cons_append, splitAux, if_neg (show ¬sep <+: c :: (r ++ l) from h 0 (Nat.succ_pos _)),
      splitAux_of_no_match sep r l (c :: cur) fun i hi => h (i + 1) (Nat.succ_lt_succ hi)]
    simp

theorem splitAux_of_match {sep l : List Char} (hsep : sep ≠ []) (h : sep <+: l)
    (cur : List Char) : ∃ rest, splitAux sep 0 cur l = cur.reverse :: rest := by
  cases l with
  | nil => exact absurd (List.prefix_nil.mp h) hsep
  | cons c cs => exact ⟨_, by rw [splitAux, if_pos h]⟩

/-- `strings.Split(s, sep)[0]` is the text before the first occurrence of `sep`. -/
theorem split_head {s sep : String} (r rest : String) (hsep : sep ≠ "")
    (hs : s.data = r.data ++ sep.data ++ rest.data)
    (hfirst : ∀ i < r.data.length, ¬sep.data <+: s.data.drop i) : (split s sep).getD 0 "" = r := by
  have hsep' : sep.data ≠ [] := fun h => hsep (String.ext h)
  rw [hs, List.append_assoc] at hfirst
  obtain ⟨pieces, hp⟩ := splitAux_of_match hsep' (List.prefix_append sep.data rest.data) r.data.reverse
  rw [split, if_neg hsep, hs, List.append_assoc, splitAux_of_no_match _ _ _ _ hfirst,
    List.append_nil, hp, List.reverse_reverse]
  rfl

/-- Without an occurrence of `sep`, `strings.Split` returns the whole string. -/
theorem split_of_not_infix {s sep : String} (hsep : sep ≠ "") (h : ¬sep.data <:+: s.data) :
    split s sep = [s] := by
  have hno : ∀ i < s.data.length, ¬sep.data <+: (s.data ++ []).drop i := fun i _ hp =>
    h ((List.append_nil s.data).symm ▸ hp.isInfix.trans (List.drop_suffix i _).isInfix)
  rw [split, if_neg hsep, ← List.append_nil s.data, splitAux_of_no_match _ _ _ _ hno]
  simp [splitAux]

theorem length_splitOnP {α : Type} (p : α → Bool) (l : List α) :
    (l.splitOnP p).length = l.countP p + 1 := by
  induction l with
  | nil => rfl
  | cons x xs ih =>
    rw [List.splitOnP_cons, List.countP_cons]
    split <;> simp_all

theorem length_split_eq_count {s sep : String} {c : Char} (h : sep.data = [c]) :
    (split s sep).length = s.data.count c + 1 := by
  rw [split_of_data_eq h, List.length_map]
  exact length_splitOnP _ _

theorem join_data (es : List String) (sep : String) :
    (join es sep).data = sep.data.intercalate (es.map String.data) := by
  induction es with
  | nil => rfl
  | cons e es ih =>
    cases es with
    | nil => simp [join, List.intercalate]
    | cons e' es' => simp_all [join, List.intercalate, List.intersperse_cons_cons]

/-- Splitting on a character undoes joining on it, for pieces free of it. -/
theorem split_join {es : List String} {sep : String} {c : Char} (h : sep.data = [c])
    (hne : es ≠ []) (hc : ∀ e ∈ es, c ∉ e.data) : split (join es sep) sep = es := by
  rw [split_of_data_eq h, join_data, h, List.splitOn_intercalate]
  · simp [Function.comp_def]
  · simpa using hc
  · simpa using hne

/-! ### Replacing -/

theorem replaceAux_skip (old new : List Char) (n : Int) (l r : List Char) :
    replaceAux old new n l.length (l ++ r) = replaceAux old new n 0 r := by
  induction l with
  | nil => rfl
  | cons x xs ih => simpa [replaceAux] using ih

theorem replaceAux_of_no_occurrence {old : List Char} (new : List Char) (n : Int) (hold : old ≠ [])
    {l : List Char} (h : ¬old <:+: l) : replaceAux old new n 0 l = l := by
  induction l with
  | nil => simp [replaceAux, hold]
  | cons c cs ih =>
    have hp : ¬old <+: c :: cs := fun hp => h hp.isInfix
    simp only [replaceAux, hp, and_false, if_false]
    exact congrArg _ (ih fun hi => h (hi.trans (List.suffix_cons c cs).isInfix))

/-- Removing every occurrence of `pre` from `pre ++ x` leaves `x` when `x` has none. -/
theorem replace_prefix (pre x : String) (hpre : pre ≠ "") (hx : ¬pre.data <:+: x.data) :
    replace (pre ++ x) pre "" (-1) = x := by
  obtain ⟨p, ps, hp⟩ := List.exists_cons_of_ne_nil fun h => hpre (String.ext h)
  have hx' : ¬p :: ps <:+: x.data := hp ▸ hx
  show String.mk (replaceAux pre.data [] (-1) 0 (pre.data ++ x.data)) = x
  rw [hp, List.cons_append, replaceAux, if_pos ⟨by decide, List.prefix_append _ _⟩,
    if_neg (List.cons_ne_nil _ _), List.nil_append, List.length_cons, Nat.add_sub_cancel,
    replaceAux_skip, replaceAux_of_no_occurrence _ _ (List.cons_ne_nil _ _) hx']

theorem singleton_infix_iff {c : Char} {l : List Char} : [c] <:+: l ↔ c ∈ l := by
  constructor
  · rintro ⟨s, t, rfl⟩
    simp
  · intro h
    obtain ⟨s, t, rfl⟩ := List.append_of_mem h
    exact ⟨s, t, by simp⟩

theorem contains_of_data_eq {s sub : String} {c : Char} (h : sub.data = [c]) :
    contains s sub = decide (c ∈ s.data) := by
  simp only [contains, h, singleton_infix_iff]

theorem lastIndexAux_of_not_mem {c : Char} {l : List Char} (h : c ∉ l) (i : Nat) (last : Int) :
    lastIndexAux [c] i l last = last := by
  induction l generalizing i last with
  | nil => rfl
  | cons x xs ih =>
    have hx : ¬[c] <+: x :: xs := fun hp => h (by simp_all [List.cons_prefix_cons])
    simp only [lastIndexAux, hx, if_false]
    exact ih (fun hm => h (List.mem_cons_of_mem x hm)) _ _

/-- The last occurrence of `c` in `l₁ ++ c :: l₂`, when `l₂` has none, is at `l₁.length`. -/
theorem lastIndexAux_last {c : Char} (l₁ l₂ : List Char) (h : c ∉ l₂) (i : Nat) (last : Int) :
    lastIndexAux [c] i (l₁ ++ c :: l₂) last = i + l₁.length := by
  induction l₁ generalizing i last with
  | nil => simp [lastIndexAux, lastIndexAux_of_not_mem h]
  | cons x xs ih =>
    show lastIndexAux [c] i (x :: (xs ++ c :: l₂)) last = _
    rw [lastIndexAux, ih, List.length_cons]
    omega

theorem lastIndex_last {s sub : String} {c : Char} (h : sub.data = [c]) (pre post : String)
    (hs : s.data = pre.data ++ c :: post.data) (hpost : c ∉ post.data) :
    lastIndex s sub = pre.length := by
  have hlen : pre.length = pre.data.length := rfl
  show lastIndexAux sub.data 0 s.data (-1) = pre.length
  rw [h, hs, lastIndexAux_last _ _ hpost, hlen]
  omega

/-! ### Title case -/

theorem val_lt_of_isAlphanum {c : Char} (h : c.isAlphanum) : c.val < 0x80 := by
  simp only [Char.isAlphanum, Char.isAlpha, Char.isUpper, Char.isLower, Char.isDigit,
    Bool.or_eq_true, Bool.and_eq_true, decide_eq_true_eq, UInt32.le_def, UInt32.lt_def,
    BitVec.le_def, BitVec.lt_def, UInt32.toBitVec_ofNat, BitVec.toNat_ofNat] at h ⊢
  omega

theorem isSeparator_of_isAlphanum {c : Char} (h : c.isAlphanum) : isSeparator c = false := by
  simp [isSeparator, val_lt_of_isAlphanum h, h]

/-- Inside a word, after a rune that is no separator, every rune is kept. -/
theorem titleAux_word (tables : Char → Char) : ∀ {prev : Char} {cs : List Char},
    isSeparator prev = false → (∀ c ∈ cs, isSeparator c = false) → titleAux tables prev cs = cs
  | _, [], _, _ => rfl
  | _, c :: cs, hp, hcs => by
    rw [titleAux, if_neg (by simp [hp]), titleAux_word tables (hcs c (List.mem_cons_self c cs))
      fun x hx => hcs x (List.mem_cons_of_mem c hx)]

/-- A word of ASCII letters and digits is title-cased by upper-casing its first letter,
whatever the case tables. -/
theorem title_alphanum (tables : Char → Char) {c : Char} {cs : List Char}
    (h : ∀ x ∈ c :: cs, x.isAlphanum) : title tables ⟨c :: cs⟩ = ⟨c.toUpper :: cs⟩ := by
  have hc := h c (List.mem_cons_self c cs)
  rw [title, titleAux, if_pos (by decide), toTitle, if_pos (val_lt_of_isAlphanum hc),
    titleAux_word tables (isSeparator_of_isAlphanum hc)
      fun x hx => isSeparator_of_isAlphanum (h x (List.mem_cons_of_mem c hx))]

end Strings

namespace Path

/-- One element of `path.Clean`'s scan; `out` holds the kept elements, last first. A `..`
removes the element before it, is dropped at the root, and is kept otherwise. -/
def cleanStep (rooted : Bool) (out : List (List Char)) (e : List Char) : List (List Char) :=
  if e = [] ∨ e = ['.'] then out
  else if e = ['.', '.'] then
    match out with
    | x :: xs => if x = ['.', '.'] then e :: out else xs
    | [] => if rooted then [] else [e]
  else e :: out

/-- `path.Clean(p)`: the shortest lexically equivalent path, `.` when nothing is left. -/
def clean (p : String) : String :=
  let rooted := p.data.head? = some '/'
  let body := ['/'].intercalate ((p.data.splitOn '/').foldl (cleanStep rooted) []).reverse
  let out := if rooted then '/' :: body else body
  if out = [] then "." else ⟨out⟩

/-- `path.Dir(p)`: everything up to the last `/`, cleaned. -/
def dir (p : String) : String := clean ⟨p.data.take (Strings.lastIndex p "/" + 1).toNat⟩

/-- `path.Base(p)`: the last element once trailing slashes are removed; `.` for the empty
path and `/` for a path of slashes only. -/
def base (p : String) : String :=
  if p = "" then "." else
  let q : String := ⟨p.data.rdropWhile (· == '/')⟩
  let r := q.data.drop (Strings.lastIndex q "/" + 1).toNat
  if r = [] then "/" else ⟨r⟩

private theorem dot_or_ne_empty (l : List Char) : (if l = [] then "." else (⟨l⟩ : String)) ≠ "" := by
  split
  · decide
  · exact fun h => ‹¬l = []› (congrArg String.data h)

theorem clean_ne_empty (p : String) : clean p ≠ "" := dot_or_ne_empty _

theorem dir_ne_empty (p : String) : dir p ≠ "" := clean_ne_empty _

/-! ### Relative paths of plain elements -/

/-- A path element `Clean` keeps as it is: not empty, not `.` or `..`, and free of `/`. -/
def NormalElem (e : List Char) : Prop := e ≠ [] ∧ e ≠ ['.'] ∧ e ≠ ['.', '.'] ∧ '/' ∉ e

instance : DecidablePred NormalElem := fun _ => inferInstanceAs (Decidable (_ ∧ _ ∧ _ ∧ _))

theorem intercalate_append_singleton {a : Char} : ∀ {es : List (List Char)}, es ≠ [] →
    ∀ t : List Char, [a].intercalate (es ++ [t]) = [a].intercalate es ++ a :: t
  | [], h, _ => absurd rfl h
  | [e], _, t => by simp [List.intercalate]
  | e :: e' :: es, _, t => by
    have ih : [a].intercalate (e' :: es ++ [t]) = [a].intercalate (e' :: es) ++ a :: t :=
      intercalate_append_singleton (List.cons_ne_nil _ _) t
    simp only [List.intercalate, List.cons_append, List.intersperse_cons₂] at ih ⊢
    simp [ih]

theorem cleanStep_normal {rooted : Bool} {out : List (List Char)} {e : List Char}
    (h : NormalElem e) : cleanStep rooted out e = e :: out := by
  unfold cleanStep
  rw [if_neg fun h' => h'.elim h.1 h.2.1, if_neg h.2.2.1]

theorem foldl_cleanStep_normal (rooted : Bool) :
    ∀ (es : List (List Char)) (out : List (List Char)), (∀ e ∈ es, NormalElem e) →
      es.foldl (cleanStep rooted) out = es.reverse ++ out
  | [], _, _ => rfl
  | e :: es, out, h => by
    rw [List.foldl_cons, cleanStep_normal (h e (List.mem_cons_self e es)),
      foldl_cleanStep_normal rooted es _ fun x hx => h x (List.mem_cons_of_mem e hx)]
    simp

/-- `Clean` keeps a relative path of normal elements, and drops one trailing `/`. -/
theorem clean_intercalate {es : List (List Char)} (hes : es ≠ []) (hn : ∀ e ∈ es, NormalElem e)
    {p : String} (hp : p.data = ['/'].intercalate es ∨ p.data = ['/'].intercalate es ++ ['/']) :
    clean p = ⟨['/'].intercalate es⟩ := by
  obtain ⟨e, es', rfl⟩ := List.exists_cons_of_ne_nil hes
  obtain ⟨c, cs, hc⟩ := List.exists_cons_of_ne_nil (hn e (List.mem_cons_self e es')).1
  have hslash : ∀ x ∈ e :: es', '/' ∉ x := fun x hx => (hn x hx).2.2.2
  have hfold : ((p.data.splitOn '/').foldl (cleanStep false) []) = (e :: es').reverse := by
    rcases hp with hp | hp
    · rw [hp, List.splitOn_intercalate _ '/' hslash hes, foldl_cleanStep_normal false _ _ hn,
        List.append_nil]
    · rw [hp, ← intercalate_append_singleton hes, List.splitOn_intercalate _ '/' ?_ (by simp),
        List.foldl_append, foldl_cleanStep_normal false _ _ hn]
      · simp [cleanStep]
      · exact fun x hx => (List.mem_append.mp hx).elim (hslash x)
          fun h => (List.mem_singleton.mp h) ▸ List.not_mem_nil '/'
  have hhead : p.data.head? = some c := by
    rcases hp with hp | hp <;> cases es' <;> simp [hp, hc, List.intercalate]
  have hc' : c ≠ '/' := fun h => hslash e (List.mem_cons_self e es') (hc ▸ h ▸ List.mem_cons_self c cs)
  unfold clean
  have hne : ['/'].intercalate (e :: es') ≠ [] := by
    cases es' <;> simp [List.intercalate, hc]
  simp only [hhead, Option.some.injEq, hc', decide_False, hfold, List.reverse_reverse,
    Bool.false_eq_true, if_false, hne]

/-- `Dir` of a relative path of normal elements and a last element: those elements. -/
theorem dir_intercalate {es : List (List Char)} (hes : es ≠ []) (hn : ∀ e ∈ es, NormalElem e)
    {last : List Char} (hlast : '/' ∉ last) {p : String}
    (hp : p.data = ['/'].intercalate es ++ '/' :: last) : dir p = ⟨['/'].intercalate es⟩ := by
  have hidx : Strings.lastIndex p "/" = (⟨['/'].intercalate es⟩ : String).length :=
    Strings.lastIndex_last rfl _ ⟨last⟩ hp hlast
  have hlen : (⟨['/'].intercalate es⟩ : String).length = (['/'].intercalate es).length := rfl
  refine clean_intercalate hes hn (.inr ?_)
  show List.take _ p.data = _
  rw [hidx, hlen, hp, show ((['/'].intercalate es).length + 1 : Int).toNat =
    (['/'].intercalate es).length + 1 by omega, List.take_append, List.take_succ_cons,
    List.take_zero]

/-- `Base` of a path ending in `/` and a non-empty element free of `/`: that element. -/
theorem base_of_last (pre last : List Char) (hne : last ≠ []) (hlast : '/' ∉ last) {p : String}
    (hp : p.data = pre ++ '/' :: last) : base p = ⟨last⟩ := by
  have hp0 : p ≠ "" := fun h => by simp [h] at hp
  have hq : p.data.rdropWhile (· == '/') = p.data := by
    obtain ⟨init, x, hlx⟩ := (List.eq_nil_or_concat last).resolve_left hne
    rw [List.concat_eq_append] at hlx
    subst hlx
    have hx : x ≠ '/' := fun h => hlast (by rw [← h]; exact List.mem_append_right init (List.mem_singleton_self x))
    rw [hp, show pre ++ '/' :: (init ++ [x]) = (pre ++ '/' :: init) ++ [x] by simp,
      List.rdropWhile_concat_neg _ _ x (by simpa using hx)]
  have hidx : Strings.lastIndex ⟨p.data⟩ "/" = (⟨pre⟩ : String).length :=
    Strings.lastIndex_last rfl _ ⟨last⟩ hp hlast
  have hlen : (⟨pre⟩ : String).length = pre.length := rfl
  unfold base
  simp only [hp0, if_false, hq, hidx, hlen]
  rw [show ((pre.length : Int) + 1).toNat = pre.length + 1 by omega, hp,
    show pre ++ '/' :: last = (pre ++ ['/']) ++ last by simp, List.drop_left' (by simp),
    if_neg hne]

/-- A relative path that `Clean` leaves as it is: plain elements joined by `/`. -/
def CleanRelative (s : String) : Prop :=
  ∃ es, es ≠ [] ∧ (∀ e ∈ es, NormalElem e) ∧ s.data = ['/'].intercalate es

theorem CleanRelative.append {R L : String} (hR : CleanRelative R) (hL : NormalElem L.data) :
    CleanRelative (R ++ "/" ++ L) := by
  obtain ⟨rs, hrs, hn, hRd⟩ := hR
  refine ⟨rs ++ [L.data], by simp, fun e he => ?_, ?_⟩
  · rcases List.mem_append.mp he with he | he
    · exact hn e he
    · exact (List.mem_singleton.mp he) ▸ hL
  · rw [intercalate_append_singleton hrs, ← hRd]
    simp

/-- The parent of `R/L`, for a clean relative `R` and a last element `L`: `R`. -/
theorem dir_append_last {R L : String} (hR : CleanRelative R) (hL : '/' ∉ L.data) :
    dir (R ++ "/" ++ L) = R := by
  obtain ⟨rs, hrs, hn, hRd⟩ := hR
  exact (dir_intercalate hrs hn hL (by rw [← hRd]; simp)).trans (String.ext hRd.symm)

theorem base_append_last (R L : String) (hne : L.data ≠ []) (hL : '/' ∉ L.data) :
    base (R ++ "/" ++ L) = L :=
  base_of_last R.data L.data hne hL (by simp)

theorem CleanRelative.clean_eq {s : String} (h : CleanRelative s) : clean s = s := by
  obtain ⟨es, hes, hn, hs⟩ := h
  exact (clean_intercalate hes hn (.inl hs)).trans (String.ext hs.symm)

theorem CleanRelative.ne_empty {s : String} (h : CleanRelative s) : s ≠ "" :=
  h.clean_eq ▸ clean_ne_empty s

end Path

namespace Filepath

/-- `filepath.Dir(p)` on Unix, where the volume name is empty: `path.Dir`. -/
def dir (p : String) : String := Path.dir p

/-- `filepath.Base(p)` on Unix: `path.Base`. -/
def base (p : String) : String := Path.base p

theorem dir_ne_empty (p : String) : dir p ≠ "" := Path.dir_ne_empty p

/-- `filepath.Join(elem...)` on Unix: the elements from the first non-empty one on, joined
by `/` and cleaned; `""` when every element is empty. -/
def join : List String → String
  | [] => ""
  | e :: es => if e = "" then join es else Path.clean (Strings.join (e :: es) "/")

/-- Joining a plain element to a clean relative path puts a `/` between them. -/
theorem join_pair {R L : String} (hR : Path.CleanRelative R) (hL : Path.NormalElem L.data) :
    join [R, L] = R ++ "/" ++ L := by
  rw [join, if_neg hR.ne_empty]
  exact (hR.append hL).clean_eq

end Filepath

end ApiRegisterGen
