import Mathlib
import Termua.Lib.Text
import Termua.Sftp.Path

/-!
# Breadcrumbs

`breadcrumbs_for_path` of `gpui_sftp/src/state.rs` against the ancestors of a path: the prefixes of its
parts, written as paths. The function trims blanks around the path before it looks at the parts, so it
denotes the ancestors where no part ends in a blank and a relative path does not begin with one
(`denotesAncestors_iff`).
-/

namespace Termua.Sftp

/-- The loop of `breadcrumbs_for_path`; `lead` is what an absolute path begins with. -/
def crumbs (lead : Path) : Path → List Path → List (Path × Path)
  | _, [] => []
  | acc, part :: parts =>
    let acc := if acc = [] then lead ++ part else acc ++ '/' :: part
    (part, acc) :: crumbs lead acc parts

/-- `breadcrumbs_for_path`. -/
def breadcrumbsForPath (path : Path) : List (Path × Path) :=
  let path := Text.trim path
  if path = [] ∨ path = ['.'] then [(['.'], ['.'])]
  else if path = ['/'] then [(['/'], ['/'])]
  else
    let isAbs := path.head? = some '/'
    let normalized := path.rdropWhile (· = '/')
    let parts := (normalized.splitOn '/').filter (· ≠ [])
    if parts = [] then if isAbs then [(['/'], ['/'])] else [(['.'], ['.'])]
    else if isAbs then (['/'], ['/']) :: crumbs ['/'] [] parts
    else crumbs [] [] parts

/-! ## The ancestors of a path -/

/-- The path begins with a slash. -/
def isAbs (p : Path) : Bool := p.head? = some '/'

/-- What stands between the slashes of a path. -/
def parts (p : Path) : List Path := (p.splitOn '/').filter (· ≠ [])

/-- The path of parts. -/
def joinParts (abs : Bool) (cs : List Path) : Path :=
  (if abs then ['/'] else []) ++ ['/'].intercalate cs

/-- The parts of a path and of its ancestors. -/
def ancestorParts (p : Path) : List (List Path) :=
  if isAbs p then (parts p).inits else (parts p).inits.tail

/-- The paths of a path's ancestors and its own. -/
def ancestors (p : Path) : List Path := (ancestorParts p).map (joinParts (isAbs p))

/-- The last part of a path, a slash for the root. -/
def lastPart (p : Path) : Path := (parts p).getLast?.getD ['/']

/-- The breadcrumbs of a path denote its ancestors: their full paths are the ancestors, their labels the
last parts, the last one is the directory of the path, and each one's own breadcrumbs are those up to
it. -/
structure DenotesAncestors (p : Path) : Prop where
  fulls : (breadcrumbsForPath p).map Prod.snd = ancestors p
  labels : ∀ crumb ∈ breadcrumbsForPath p, crumb.1 = lastPart crumb.2
  last : ∃ crumb, (breadcrumbsForPath p).getLast? = some crumb ∧
    isAbs crumb.2 = isAbs p ∧ parts crumb.2 = parts p
  consistent : ∀ k crumb, (breadcrumbsForPath p)[k]? = some crumb →
    breadcrumbsForPath crumb.2 = (breadcrumbsForPath p).take (k + 1)

/-- No part of the path ends in a blank, and a relative path does not begin with one. -/
def Unblanked (p : Path) : Prop :=
  (∀ c ∈ parts p, ∀ x ∈ c.getLast?, Text.isWhitespace x = false) ∧
    (isAbs p = false → ∀ x ∈ p.head?, Text.isWhitespace x = false)

variable {p q : Path} {cs : List Path} {abs : Bool}

/-- Parts as they stand between slashes. -/
def AreParts (cs : List Path) : Prop := ∀ c ∈ cs, c ≠ [] ∧ '/' ∉ c

theorem areParts_parts (p : Path) : AreParts (parts p) := by
  intro c hc
  obtain ⟨hmem, hne⟩ := List.mem_filter.mp hc
  exact ⟨of_decide_eq_true hne, Text.notMem_of_mem_splitOn hmem⟩

theorem intercalate_cons_of_ne_nil (c : Path) (hcs : cs ≠ []) :
    ['/'].intercalate (c :: cs) = c ++ '/' :: ['/'].intercalate cs := by
  obtain ⟨c', cs, rfl⟩ := List.exists_cons_of_ne_nil hcs
  simp [List.intercalate]

theorem parts_intercalate (h : AreParts cs) : parts (['/'].intercalate cs) = cs := by
  rcases List.eq_nil_or_concat cs with rfl | ⟨_, _, rfl⟩
  · decide
  · unfold parts
    rw [List.splitOn_intercalate '/' (fun c hc => (h c hc).2) (by simp)]
    exact List.filter_eq_self.mpr fun c hc => by simpa using (h c hc).1

theorem parts_slash_cons (p : Path) : parts ('/' :: p) = parts p := by
  unfold parts
  rw [List.splitOn_cons_eq_if_modifyHead, if_pos (by rfl)]
  exact List.filter_cons_of_neg (by simp)

theorem parts_joinParts (h : AreParts cs) : parts (joinParts abs cs) = cs := by
  unfold joinParts
  cases abs with
  | true => exact (parts_slash_cons _).trans (parts_intercalate h)
  | false => exact parts_intercalate h

theorem head?_intercalate {c : Path} (hc : c ≠ []) : (['/'].intercalate (c :: cs)).head? = c.head? := by
  rcases eq_or_ne cs [] with rfl | hcs
  · rw [List.intercalate_singleton]
  · rw [intercalate_cons_of_ne_nil c hcs, List.head?_append_of_ne_nil _ hc]

theorem isAbs_joinParts (h : AreParts cs) (hne : abs = true ∨ cs ≠ []) :
    isAbs (joinParts abs cs) = abs := by
  cases abs with
  | true => rfl
  | false =>
    obtain ⟨c, cs, rfl⟩ := List.exists_cons_of_ne_nil (hne.resolve_left Bool.false_ne_true)
    obtain ⟨hc, hslash⟩ := h c List.mem_cons_self
    have hhead : (joinParts false (c :: cs)).head? = c.head? := head?_intercalate hc
    refine decide_eq_false fun heq => ?_
    rw [hhead] at heq
    exact hslash (List.mem_of_mem_head? heq)

/-- The characters of the parts are those of the path but for the slashes. -/
theorem flatten_parts (p : Path) : (parts p).flatten = p.filter (· ≠ '/') := by
  have hsplit : ∀ p : Path, (p.splitOn '/').flatten = p.filter (· ≠ '/') := by
    intro p
    induction p with
    | nil => rfl
    | cons x p ih =>
      rw [List.splitOn_cons_eq_if_modifyHead]
      split
      · next hx =>
        obtain rfl := beq_iff_eq.mp hx
        rw [List.flatten_cons, ih, List.filter_cons_of_neg (by simp)]
        rfl
      · next hx =>
        rw [List.filter_cons_of_pos (by simpa using hx), ← ih]
        rcases hp : p.splitOn '/' with _ | ⟨first, rest⟩
        · exact absurd hp (List.splitOn_ne_nil '/' p)
        · rfl
  unfold parts
  rw [← hsplit]
  exact List.flatten_filter_ne_nil

/-! ## What the loop puts out -/

/-- The breadcrumb of a path. -/
def crumb (full : Path) : Path × Path := (lastPart full, full)

theorem intercalate_concat (c : Path) (hcs : cs ≠ []) :
    ['/'].intercalate (cs ++ [c]) = ['/'].intercalate cs ++ '/' :: c := by
  induction cs with
  | nil => exact absurd rfl hcs
  | cons c' cs ih =>
    rcases eq_or_ne cs [] with rfl | hcs
    · simp [List.intercalate]
    · rw [List.cons_append, intercalate_cons_of_ne_nil c' (by simp), ih hcs,
        intercalate_cons_of_ne_nil c' hcs, List.append_assoc]
      rfl

/-- One more part. -/
theorem joinParts_concat (cs : List Path) (c : Path) :
    joinParts abs (cs ++ [c]) =
      if cs = [] then joinParts abs [] ++ c else joinParts abs cs ++ '/' :: c := by
  unfold joinParts
  rcases eq_or_ne cs [] with rfl | hcs
  · rw [if_pos rfl, List.nil_append, List.intercalate_singleton, List.intercalate_nil,
      List.append_nil]
  · rw [if_neg hcs, intercalate_concat c hcs, List.append_assoc]

theorem joinParts_ne_nil (h : AreParts cs) (hne : cs ≠ []) : joinParts abs cs ≠ [] := by
  intro hnil
  have hparts := @parts_joinParts cs abs h
  rw [hnil] at hparts
  exact hne hparts.symm

theorem lastPart_joinParts {c : Path} (h : AreParts (cs ++ [c])) :
    lastPart (joinParts abs (cs ++ [c])) = c := by
  unfold lastPart
  rw [parts_joinParts h, List.getLast?_concat, Option.getD_some]

theorem inits_eq_cons {α : Type*} (l : List α) : l.inits = [] :: l.inits.tail := by
  rcases l with _ | ⟨x, l⟩
  · rfl
  · rw [List.inits_cons, List.tail_cons]

/-- The loop, after the parts `cs`. -/
theorem crumbs_eq {more : List Path} (h : AreParts (cs ++ more)) :
    crumbs (joinParts abs []) (if cs = [] then [] else joinParts abs cs) more =
      more.inits.tail.map fun next => crumb (joinParts abs (cs ++ next)) := by
  induction more generalizing cs with
  | nil => rfl
  | cons c more ih =>
    have hcs : AreParts cs := fun x hx => h x (List.mem_append_left _ hx)
    have happend : cs ++ c :: more = (cs ++ [c]) ++ more := by simp
    have hnext : AreParts (cs ++ [c]) :=
      fun x hx => h x (happend ▸ List.mem_append_left _ hx)
    have hacc : (if (if cs = [] then [] else joinParts abs cs) = [] then joinParts abs [] ++ c
        else (if cs = [] then [] else joinParts abs cs) ++ '/' :: c) = joinParts abs (cs ++ [c]) := by
      rw [joinParts_concat]
      rcases eq_or_ne cs [] with rfl | hne
      · rfl
      · rw [if_neg hne, if_neg (joinParts_ne_nil hcs hne), if_neg hne]
    have hrest := ih (happend ▸ h)
    rw [if_neg (by simp)] at hrest
    rw [crumbs, hacc, hrest, List.inits_cons, List.tail_cons, inits_eq_cons more, List.map_cons, List.map_cons,
      List.tail_cons, List.map_map]
    refine congrArg₂ _ ?_ (List.map_congr_left fun next _ => ?_)
    · show (c, joinParts abs (cs ++ [c])) = crumb (joinParts abs (cs ++ [c]))
      rw [crumb, lastPart_joinParts hnext]
    · show crumb (joinParts abs (cs ++ [c] ++ next)) = crumb (joinParts abs (cs ++ c :: next))
      rw [List.append_assoc]
      rfl

theorem parts_rdropWhile (p : Path) : parts (p.rdropWhile (· = '/')) = parts p := by
  induction p using List.reverseRecOn with
  | nil => rfl
  | append_singleton p x ih =>
    rcases eq_or_ne x '/' with rfl | hx
    · rw [List.rdropWhile_concat_pos _ _ _ (by simp), ih]
      unfold parts
      rw [List.splitOn_append_cons_self, List.splitOn_nil, List.filter_append]
      exact (List.append_nil _).symm
    · rw [List.rdropWhile_concat_neg _ _ _ (by simpa using hx)]

theorem parts_ne_nil (hne : p ≠ []) (habs : isAbs p = false) : parts p ≠ [] := by
  obtain ⟨x, p, rfl⟩ := List.exists_cons_of_ne_nil hne
  have hx : x ≠ '/' := fun hx => by simp [isAbs, hx] at habs
  intro hnil
  have hflatten := flatten_parts (x :: p)
  rw [hnil, List.filter_cons_of_pos (by simpa using hx)] at hflatten
  cases hflatten

/-- The breadcrumbs are the ancestors of the trimmed path with their last parts. -/
theorem breadcrumbsForPath_eq (h : Text.trim p ≠ []) :
    breadcrumbsForPath p = (ancestors (Text.trim p)).map crumb := by
  unfold breadcrumbsForPath
  generalize Text.trim p = q at h
  by_cases hdot : q = ['.']
  · subst hdot
    decide
  by_cases hroot : q = ['/']
  · subst hroot
    decide
  have hparts : ((q.rdropWhile (· = '/')).splitOn '/').filter (· ≠ []) = parts q :=
    parts_rdropWhile q
  simp only [h, hdot, hroot, or_self, if_false, hparts]
  unfold ancestors ancestorParts
  by_cases habs : q.head? = some '/'
  · have habs' : isAbs q = true := decide_eq_true habs
    have hcrumbs := @crumbs_eq [] true (parts q) (areParts_parts q)
    simp only [if_pos habs, habs', if_true, List.map_map]
    rw [inits_eq_cons, List.map_cons]
    by_cases hnil : parts q = []
    · rw [if_pos hnil, hnil]
      rfl
    · rw [if_neg hnil]
      exact congrArg (_ :: ·) hcrumbs
  · have habs' : isAbs q = false := decide_eq_false habs
    have hcrumbs := @crumbs_eq [] false (parts q) (areParts_parts q)
    simp only [if_neg habs, if_neg (parts_ne_nil h habs'), habs', Bool.false_eq_true, if_false,
      List.map_map]
    exact hcrumbs

/-! ## When trimming changes nothing -/

theorem getElem?_inits {α : Type*} {l : List α} {k : ℕ} {l' : List α} :
    l.inits[k]? = some l' ↔ k ≤ l.length ∧ l' = l.take k := by
  rw [List.getElem?_eq_some_iff]
  constructor
  · rintro ⟨hk, rfl⟩
    rw [List.length_inits] at hk
    exact ⟨by omega, List.getElem_inits l k _⟩
  · rintro ⟨hk, rfl⟩
    exact ⟨by rw [List.length_inits]; omega, List.getElem_inits l k _⟩

theorem inits_take {α : Type*} (l : List α) (k : ℕ) : (l.take k).inits = l.inits.take (k + 1) := by
  induction l generalizing k with
  | nil => simp
  | cons x l ih =>
    cases k with
    | zero => rfl
    | succ k => rw [List.take_succ_cons, List.inits_cons, List.inits_cons, ih, List.take_succ_cons,
        List.map_take]

/-- How many parts more than its index an ancestor has. -/
def lead (p : Path) : ℕ := if isAbs p then 0 else 1

theorem getElem?_ancestors {k : ℕ} {full : Path} :
    (ancestors p)[k]? = some full ↔ k + lead p ≤ (parts p).length ∧
      full = joinParts (isAbs p) ((parts p).take (k + lead p)) := by
  have hparts : ∀ cs, (ancestorParts p)[k]? = some cs ↔
      k + lead p ≤ (parts p).length ∧ cs = (parts p).take (k + lead p) := by
    intro cs
    unfold ancestorParts lead
    split
    · exact getElem?_inits
    · rw [List.getElem?_tail]
      exact getElem?_inits
  unfold ancestors
  rw [List.getElem?_map, Option.map_eq_some_iff]
  constructor
  · rintro ⟨cs, hcs, rfl⟩
    obtain ⟨hle, rfl⟩ := (hparts cs).mp hcs
    exact ⟨hle, rfl⟩
  · rintro ⟨hle, rfl⟩
    exact ⟨_, (hparts _).mpr ⟨hle, rfl⟩, rfl⟩

theorem areParts_take (p : Path) (k : ℕ) : AreParts ((parts p).take k) :=
  fun c hc => areParts_parts p c (List.mem_of_mem_take hc)

/-- An ancestor is absolute where the path is, and its parts are the first of the path's. -/
theorem of_getElem?_ancestors {k : ℕ} {full : Path} (h : (ancestors p)[k]? = some full) :
    isAbs full = isAbs p ∧ parts full = (parts p).take (k + lead p) := by
  obtain ⟨hle, rfl⟩ := getElem?_ancestors.mp h
  refine ⟨isAbs_joinParts (areParts_take p _) ?_, parts_joinParts (areParts_take p _)⟩
  unfold lead at hle ⊢
  split at hle
  · next habs => exact .inl habs
  · next habs =>
    refine .inr fun hnil => ?_
    have hlength := congrArg List.length hnil
    rw [List.length_take, List.length_nil, if_neg habs] at hlength
    omega

/-- The ancestors of an ancestor are those up to it. -/
theorem ancestors_ancestor {k : ℕ} {full : Path} (h : (ancestors p)[k]? = some full) :
    ancestors full = (ancestors p).take (k + 1) := by
  obtain ⟨habs, hparts⟩ := of_getElem?_ancestors h
  unfold ancestors
  rw [← List.map_take, habs]
  refine congrArg _ ?_
  unfold ancestorParts
  rw [habs, hparts, inits_take]
  unfold lead
  split
  · rfl
  · rw [← List.drop_one, ← List.drop_one, List.drop_take, Nat.add_sub_cancel]

theorem getLast?_ancestors (hne : p ≠ []) :
    ∃ full, (ancestors p).getLast? = some full ∧ isAbs full = isAbs p ∧ parts full = parts p := by
  have hlead : lead p ≤ (parts p).length := by
    unfold lead
    split
    · omega
    · next habs =>
      have hpos := List.length_pos_of_ne_nil (parts_ne_nil hne (by simpa using habs))
      omega
  have hlength : (ancestors p).length - 1 + lead p = (parts p).length := by
    unfold ancestors ancestorParts
    rw [List.length_map]
    unfold lead at hlead ⊢
    split
    · rw [List.length_inits]
      omega
    · next habs =>
      rw [List.length_tail, List.length_inits]
      rw [if_neg habs] at hlead
      omega
  have hlast : (ancestors p)[(ancestors p).length - 1]? =
      some (joinParts (isAbs p) ((parts p).take ((ancestors p).length - 1 + lead p))) :=
    getElem?_ancestors.mpr ⟨hlength.le, rfl⟩
  obtain ⟨habs, hparts⟩ := of_getElem?_ancestors hlast
  refine ⟨_, by rw [List.getLast?_eq_getElem?, hlast], habs, hparts.trans ?_⟩
  rw [hlength, List.take_length]

theorem parts_eq_of_ancestors_eq (hp : p ≠ []) (hq : q ≠ []) (h : ancestors p = ancestors q) :
    parts p = parts q := by
  obtain ⟨full, hfull, -, hparts⟩ := getLast?_ancestors hp
  obtain ⟨full', hfull', -, hparts'⟩ := getLast?_ancestors hq
  rw [h, hfull'] at hfull
  rw [← hparts, ← hparts', Option.some.inj hfull]

theorem eq_nil_of_filter_slash {l : Path} (hblank : ∀ c ∈ l, Text.isWhitespace c = true)
    (h : l.filter (· ≠ '/') = []) : l = [] := by
  refine List.eq_nil_iff_forall_not_mem.mpr fun c hc => ?_
  have hslash : c = '/' := by simpa using List.filter_eq_nil_iff.mp h c hc
  have hwhite := hblank c hc
  rw [hslash] at hwhite
  exact absurd hwhite (by decide)

/-- Trimming that takes something away takes away a character of a part. -/
theorem trim_eq_self_of_parts_eq (h : parts (Text.trim p) = parts p) : Text.trim p = p := by
  obtain ⟨init, tail, heq, hinit, htail⟩ := Text.exists_eq_append_trim p
  have hfilter := congrArg List.flatten h
  rw [flatten_parts, flatten_parts] at hfilter
  nth_rewrite 2 [heq] at hfilter
  rw [List.filter_append, List.filter_append] at hfilter
  have hlength := congrArg List.length hfilter
  rw [List.length_append, List.length_append] at hlength
  obtain rfl := eq_nil_of_filter_slash hinit (List.eq_nil_of_length_eq_zero (by omega))
  obtain rfl := eq_nil_of_filter_slash htail (List.eq_nil_of_length_eq_zero (by omega))
  rw [List.nil_append, List.append_nil] at heq
  exact heq.symm

/-! ## What the breadcrumbs denote -/

theorem map_snd_crumb (fulls : List Path) : (fulls.map crumb).map Prod.snd = fulls := by
  rw [List.map_map]
  exact List.map_id fulls

theorem ancestor_ne_nil {k : ℕ} {full : Path} (h : (ancestors p)[k]? = some full) : full ≠ [] := by
  rintro rfl
  obtain ⟨habs, hparts⟩ := of_getElem?_ancestors h
  have hle := (getElem?_ancestors.mp h).1
  have hlength := congrArg List.length hparts
  unfold lead at hle hlength
  rw [← habs, if_neg (by decide), List.length_take, min_eq_left (by rwa [← habs] at hle)] at hlength
  cases hlength

/-- The breadcrumb of a blank path is no blank. -/
theorem not_blank_of_fulls (h : (breadcrumbsForPath p).map Prod.snd = ancestors p) (hne : p ≠ []) :
    Text.trim p ≠ [] := by
  intro hblank
  have hbread : breadcrumbsForPath p = [(['.'], ['.'])] := by
    unfold breadcrumbsForPath
    simp only [hblank, true_or, if_true]
  obtain ⟨full, hlast, -, hparts⟩ := getLast?_ancestors hne
  rw [← h, hbread] at hlast
  obtain rfl : ['.'] = full := Option.some.inj hlast
  have hdot : '.' ∈ p := by
    have hfilter := flatten_parts p
    rw [← hparts] at hfilter
    have hmem : '.' ∈ p.filter (· ≠ '/') := hfilter ▸ (by decide)
    exact List.mem_of_mem_filter hmem
  obtain ⟨init, tail, heq, hinit, htail⟩ := Text.exists_eq_append_trim p
  rw [hblank, List.nil_append] at heq
  rw [heq] at hdot
  rcases List.mem_append.mp hdot with hmem | hmem
  · exact absurd (hinit _ hmem) (by decide)
  · exact absurd (htail _ hmem) (by decide)

/-- The breadcrumbs denote the ancestors exactly where trimming takes nothing away from the path nor
from any of its ancestors. -/
theorem denotesAncestors_iff_trim (h : Text.trim p ≠ []) :
    DenotesAncestors p ↔ Text.trim p = p ∧
      ∀ (k : ℕ) full, (ancestors p)[k]? = some full → Text.trim full = full := by
  have hne : p ≠ [] := by
    rintro rfl
    exact h rfl
  constructor
  · intro hdenotes
    -- the crumbs are those of the trimmed path, so it has the ancestors of the path itself
    have htrim : Text.trim p = p := by
      have hfulls := hdenotes.fulls
      rw [breadcrumbsForPath_eq h, map_snd_crumb] at hfulls
      exact trim_eq_self_of_parts_eq (parts_eq_of_ancestors_eq h hne hfulls)
    refine ⟨htrim, fun k full hfull => ?_⟩
    have hbread := breadcrumbsForPath_eq h
    rw [htrim] at hbread
    have hcrumb : (breadcrumbsForPath p)[k]? = some (crumb full) := by
      rw [hbread, List.getElem?_map, hfull, Option.map_some]
    -- a crumb that is opened shows the crumbs up to it
    have hself := hdenotes.consistent k _ hcrumb
    have hfulls : (breadcrumbsForPath full).map Prod.snd = ancestors full := by
      show (breadcrumbsForPath (crumb full).2).map Prod.snd = ancestors full
      rw [hself, hbread, ← List.map_take, map_snd_crumb, ancestors_ancestor hfull]
    have hblank := not_blank_of_fulls hfulls (ancestor_ne_nil hfull)
    rw [breadcrumbsForPath_eq hblank, map_snd_crumb] at hfulls
    exact trim_eq_self_of_parts_eq (parts_eq_of_ancestors_eq hblank (ancestor_ne_nil hfull) hfulls)
  -- trimming takes nothing away, so the crumbs are those of the path
  · rintro ⟨htrim, hancestors⟩
    have hbread := breadcrumbsForPath_eq h
    rw [htrim] at hbread
    refine ⟨?_, ?_, ?_, ?_⟩
    · rw [hbread, map_snd_crumb]
    · intro c hc
      rw [hbread] at hc
      obtain ⟨full, -, rfl⟩ := List.mem_map.mp hc
      rfl
    · obtain ⟨full, hlast, habs, hparts⟩ := getLast?_ancestors hne
      refine ⟨crumb full, ?_, habs, hparts⟩
      rw [hbread, List.getLast?_map, hlast, Option.map_some]
    · intro k c hc
      rw [hbread, List.getElem?_map] at hc
      obtain ⟨full, hfull, rfl⟩ := Option.map_eq_some_iff.mp hc
      have hself := hancestors k full hfull
      show breadcrumbsForPath full = (breadcrumbsForPath p).take (k + 1)
      rw [breadcrumbsForPath_eq (hself.symm ▸ ancestor_ne_nil hfull), hself, ancestors_ancestor hfull,
        hbread, List.map_take]

/-- The last character of a path that does not end in a slash is that of a part. -/
theorem exists_part_getLast? {x : Char} (hx : p.getLast? = some x) (hslash : x ≠ '/') :
    ∃ c ∈ parts p, c.getLast? = some x := by
  have hflatten : (parts p).flatten.getLast? = some x := by
    obtain ⟨init, rfl⟩ := List.getLast?_eq_some_iff.mp hx
    rw [flatten_parts, List.filter_append, List.filter_cons_of_pos (by simpa using hslash),
      List.filter_nil, List.getLast?_concat]
  rcases List.eq_nil_or_concat (parts p) with hnil | ⟨init, c, hparts⟩
  · rw [hnil] at hflatten
    cases hflatten
  · rw [List.concat_eq_append] at hparts
    have hmem : c ∈ parts p := hparts ▸ List.mem_concat_self
    rw [hparts, List.flatten_concat, List.getLast?_append_of_ne_nil _ (areParts_parts p c hmem).1]
      at hflatten
    exact ⟨c, hmem, hflatten⟩

/-- The first character of a relative path is that of its first part. -/
theorem head?_eq_part (hne : p ≠ []) (habs : isAbs p = false) :
    p.head? = (parts p).head?.bind List.head? := by
  obtain ⟨x, rest, rfl⟩ := List.exists_cons_of_ne_nil hne
  have hx : x ≠ '/' := fun hx => by simp [isAbs, hx] at habs
  obtain ⟨c, cs, hparts⟩ := List.exists_cons_of_ne_nil (parts_ne_nil hne habs)
  have hflatten := congrArg List.head? (flatten_parts (x :: rest))
  have hc : c ≠ [] := (areParts_parts (x :: rest) c (hparts ▸ List.mem_cons_self)).1
  rw [hparts, List.flatten_cons, List.head?_append_of_ne_nil _ hc,
    List.filter_cons_of_pos (by simpa using hx)] at hflatten
  rw [hparts]
  exact hflatten.symm

theorem Unblanked.trim_eq (h : Unblanked p) : Text.trim p = p := by
  refine Text.trim_eq_self_iff.mpr ⟨fun x hx => ?_, fun x hx => ?_⟩
  · rcases habs : isAbs p with _ | _
    · exact h.2 habs x hx
    · have hslash : p.head? = some '/' := of_decide_eq_true habs
      rw [hslash] at hx
      obtain rfl := Option.some.inj hx
      decide
  · rcases eq_or_ne x '/' with rfl | hslash
    · decide
    · obtain ⟨c, hc, hlast⟩ := exists_part_getLast? hx hslash
      exact h.1 c hc x hlast

theorem Unblanked.ancestor (h : Unblanked p) {k : ℕ} {full : Path}
    (hfull : (ancestors p)[k]? = some full) : Unblanked full := by
  obtain ⟨habs, hparts⟩ := of_getElem?_ancestors hfull
  have hne := ancestor_ne_nil hfull
  refine ⟨fun c hc => h.1 c (List.mem_of_mem_take (hparts ▸ hc)), fun hrel => ?_⟩
  have hp : p ≠ [] := by
    rintro rfl
    have hle := (getElem?_ancestors.mp hfull).1
    rw [lead, if_neg (by decide)] at hle
    exact absurd hle (by simp [parts])
  rw [head?_eq_part hne hrel, hparts, List.head?_take, if_neg (by
    rw [lead, if_neg (by rw [← habs, hrel]; exact Bool.false_ne_true)]
    omega), ← head?_eq_part hp (habs ▸ hrel)]
  exact h.2 (habs ▸ hrel)

/-- No blank stands at an end of the path or of an ancestor exactly where no part ends in one and a
relative path does not begin with one. -/
theorem unblanked_iff_trim : Unblanked p ↔ Text.trim p = p ∧
    ∀ (k : ℕ) full, (ancestors p)[k]? = some full → Text.trim full = full := by
  constructor
  · intro h
    exact ⟨h.trim_eq, fun k full hfull => (h.ancestor hfull).trim_eq⟩
  · rintro ⟨htrim, hancestors⟩
    refine ⟨fun c hc x hx => ?_, fun _ => (Text.trim_eq_self_iff.mp htrim).1⟩
    -- the ancestor that ends in the part
    obtain ⟨cs, cs', hparts⟩ := List.append_of_mem hc
    have hlead : lead p ≤ 1 := by
      unfold lead
      split <;> omega
    have htake : (parts p).take (cs.length + 1 - lead p + lead p) = cs ++ [c] := by
      rw [Nat.sub_add_cancel (by omega), hparts, ← List.singleton_append, ← List.append_assoc]
      exact List.take_left' (by simp)
    have hfull : (ancestors p)[cs.length + 1 - lead p]? = some (joinParts (isAbs p) (cs ++ [c])) := by
      refine getElem?_ancestors.mpr ⟨?_, by rw [htake]⟩
      rw [Nat.sub_add_cancel (by omega), hparts, List.length_append, List.length_cons]
      omega
    have hlast : (joinParts (isAbs p) (cs ++ [c])).getLast? = some x := by
      have hne := (areParts_parts p c hc).1
      rw [joinParts_concat]
      split
      · rw [List.getLast?_append_of_ne_nil _ hne]
        exact hx
      · rw [List.getLast?_append_of_ne_nil _ (by simp), List.getLast?_cons_of_ne_nil hne]
        exact hx
    exact (Text.trim_eq_self_iff.mp (hancestors _ _ hfull)).2 x hlast

/-- For every path that is not blank: the breadcrumbs denote its ancestors exactly where no part of it
ends in a blank and, if it is relative, it does not begin with one. -/
theorem denotesAncestors_iff (p : Path) (h : Text.trim p ≠ []) : DenotesAncestors p ↔ Unblanked p :=
  (denotesAncestors_iff_trim h).trans unblanked_iff_trim.symm

theorem denotesAncestors_iff_home : DenotesAncestors "/home/u".toList ↔ Unblanked "/home/u".toList :=
  denotesAncestors_iff "/home/u".toList (by decide)

/-- The breadcrumb of a directory whose name ends in a blank is that of another directory. -/
theorem not_denotesAncestors_blank :
    ¬ ∀ p : Path, Text.trim p ≠ [] → DenotesAncestors p := by
  intro h
  have hfulls := (h "/tmp/x ".toList (by decide)).fulls
  exact absurd hfulls (by decide +kernel)

end Termua.Sftp
