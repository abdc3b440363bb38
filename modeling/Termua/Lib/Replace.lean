import Mathlib

/-!
# Replacing a pattern in a text

`replace key pat repl text` puts `repl` in the place of each occurrence of the pattern, from left to right,
as `str::replace`. The items of a text are seen through `key`, so that a text may carry more than what
the pattern is looked for in.

A text that is parts with occurrences between them is replaced as meant exactly when no part has the
pattern, also not where it runs on into the occurrence behind the part (`Clear`): then the parts stay
as they are (`replace_intercalate`), and otherwise an item of a part is lost (`countP_replace_lt`).
-/

namespace Replace

variable {α β : Type*} [DecidableEq β]

/-- The rest of a text, behind `skip` items of an occurrence. -/
def replaceFrom (key : α → β) (pat : List β) (repl : List α) : ℕ → List α → List α
  | _, [] => []
  | skip + 1, _ :: text => replaceFrom key pat repl skip text
  | 0, x :: text =>
    if pat <+: (x :: text).map key then repl ++ replaceFrom key pat repl (pat.length - 1) text
    else x :: replaceFrom key pat repl 0 text

/-- `str::replace`, for a pattern that is not empty. -/
def replace (key : α → β) (pat : List β) (repl text : List α) : List α :=
  replaceFrom key pat repl 0 text

/-- No part has the pattern, also not where it runs on into the occurrence behind the part. -/
def Clear (pat : List β) : List (List β) → Prop
  | [] => True
  | [part] => ¬ pat <:+: part
  | part :: next :: rest => ¬ pat <:+: part ++ pat.dropLast ∧ Clear pat (next :: rest)

variable {key : α → β} {pat : List β} {repl text u : List α} {x : α}

theorem replaceFrom_eq (skip : ℕ) (text : List α) :
    replaceFrom key pat repl skip text = replace key pat repl (text.drop skip) := by
  induction text generalizing skip with
  | nil => cases skip <;> rfl
  | cons x text ih =>
    cases skip with
    | zero => rfl
    | succ skip => exact ih skip

/-- Where the pattern does not begin, the first item stays. -/
theorem replace_cons (h : ¬ pat <+: (x :: text).map key) :
    replace key pat repl (x :: text) = x :: replace key pat repl text :=
  if_neg h

/-- Where the pattern begins, the items that it takes are gone. -/
theorem replace_cons_of_prefix (h : pat <+: (x :: text).map key) :
    replace key pat repl (x :: text) =
      repl ++ replace key pat repl (text.drop (pat.length - 1)) := by
  rw [← replaceFrom_eq]
  exact if_pos h

/-- An occurrence at the start is replaced. -/
theorem replace_append (hne : pat ≠ []) (hu : u.map key = pat) :
    replace key pat repl (u ++ text) = repl ++ replace key pat repl text := by
  cases u with
  | nil => exact absurd hu.symm hne
  | cons x u =>
    have hprefix : pat <+: (x :: (u ++ text)).map key := by
      rw [← List.cons_append, List.map_append, hu]
      exact List.prefix_append _ _
    have hlength : pat.length - 1 = u.length := by
      rw [← hu, List.length_map, List.length_cons, Nat.add_sub_cancel]
    rw [List.cons_append, replace_cons_of_prefix hprefix, hlength, List.drop_left]

/-- A pattern of one item is replaced item by item. -/
theorem replace_singleton (c : β) (repl text : List β) :
    replace id [c] repl text = text.flatMap fun d => if d = c then repl else [d] := by
  induction text with
  | nil => rfl
  | cons d text ih =>
    rw [List.flatMap_cons, ← ih]
    by_cases hd : d = c
    · rw [if_pos hd, hd]
      exact replace_append (List.cons_ne_nil c []) (List.map_id [c])
    · rw [if_neg hd, replace_cons fun hprefix => hd (List.cons_prefix_cons.mp hprefix).1.symm]
      rfl

/-- A text is read from left to right, an item or an occurrence at a time. -/
theorem reading (key : α → β) {motive : List α → Prop} (hne : pat ≠ []) (nil : motive [])
    (keep : ∀ x text, ¬ pat <+: (x :: text).map key → motive text → motive (x :: text))
    (occurs : ∀ u text, u.map key = pat → motive text → motive (u ++ text)) (text : List α) :
    motive text := by
  induction h : text.length using Nat.strong_induction_on generalizing text with
  | _ n ih =>
    cases text with
    | nil => exact nil
    | cons x text =>
      by_cases hprefix : pat <+: (x :: text).map key
      · have htake : ((x :: text).take pat.length).map key = pat := by
          rw [List.map_take]
          exact (List.prefix_iff_eq_take.mp hprefix).symm
        have hpos := List.length_pos_iff.mpr hne
        -- the pattern is not empty, so that less is left behind the occurrence
        rw [← List.take_append_drop pat.length (x :: text)]
        refine occurs _ _ htake (ih _ ?_ _ rfl)
        rw [List.length_drop]
        simp only [List.length_cons] at h ⊢
        omega
      · exact keep x text hprefix (ih _ (by simp only [List.length_cons] at h; omega) _ rfl)

/-- What is replaced does not depend on what an item carries besides its key. -/
theorem map_replace {α' : Type*} (key' : α' → β) (f : α → α') (hne : pat ≠ [])
    (hkey : ∀ x, key' (f x) = key x) (text : List α) :
    (replace key pat repl text).map f = replace key' pat (repl.map f) (text.map f) := by
  have hmap (text : List α) : (text.map f).map key' = text.map key := by
    rw [List.map_map]
    exact List.map_congr_left fun x _ => hkey x
  induction text using reading key hne with
  | nil => rfl
  | keep x text hnot ih =>
    have hnot' : ¬ pat <+: (f x :: text.map f).map key' := by
      rwa [← List.map_cons, hmap]
    rw [replace_cons hnot, List.map_cons, List.map_cons, replace_cons hnot', ih]
  | occurs u text hu ih =>
    rw [replace_append hne hu, List.map_append, List.map_append,
      replace_append hne ((hmap u).trans hu), ih]

/-! ## Parts with occurrences between them -/

variable {written part : List α} {parts : List (List α)} {p : α → Bool}

omit [DecidableEq β] in
/-- A pattern that begins in a part is in the part with as much of what is behind it. -/
theorem prefix_part {y : α} {w : List β} (hlength : pat.length ≤ part.length + 1 + w.length)
    (hw : w <+: text.map key) (h : pat <+: (y :: (part ++ text)).map key) :
    pat <+: (y :: part).map key ++ w := by
  refine List.prefix_of_prefix_length_le h ?_ ?_
  · rw [← List.cons_append, List.map_append]
    exact (List.prefix_append_right_inj _).mpr hw
  · rw [List.length_append, List.length_map, List.length_cons]
    exact hlength

/-- A part without the pattern stays, and so does what is in front of an occurrence. -/
theorem replace_part_append (hne : pat ≠ []) (hwritten : written.map key = pat)
    (hclear : ¬ pat <:+: part.map key ++ pat.dropLast) :
    replace key pat repl (part ++ (written ++ text)) = part ++ (repl ++ replace key pat repl text) := by
  induction part with
  | nil => exact replace_append hne hwritten
  | cons y part ih =>
    have hnot : ¬ pat <+: (y :: (part ++ (written ++ text))).map key := by
      intro hprefix
      -- it would end in the part or in the beginning of what is written behind it
      refine hclear (List.IsPrefix.isInfix (prefix_part ?_ ?_ hprefix))
      · rw [List.length_dropLast]
        omega
      · rw [List.map_append, hwritten]
        exact (List.dropLast_prefix pat).trans (List.prefix_append _ _)
    rw [List.cons_append, replace_cons hnot,
      ih fun hfound => hclear (hfound.trans (List.suffix_cons _ _).isInfix)]
    rfl

/-- A text without the pattern stays. -/
theorem replace_eq_self (hclear : ¬ pat <:+: part.map key) : replace key pat repl part = part := by
  induction part with
  | nil => rfl
  | cons y part ih =>
    rw [replace_cons fun hprefix => hclear hprefix.isInfix,
      ih fun hfound => hclear (hfound.trans (List.suffix_cons _ _).isInfix)]

/-- Between clear parts the occurrences are replaced, and the parts stay. -/
theorem replace_intercalate (hne : pat ≠ []) (hwritten : written.map key = pat)
    (hclear : Clear pat (parts.map (List.map key))) :
    replace key pat repl (written.intercalate parts) = repl.intercalate parts := by
  induction parts with
  | nil => rfl
  | cons part rest ih =>
    cases rest with
    | nil =>
      rw [List.intercalate_singleton, List.intercalate_singleton]
      exact replace_eq_self hclear
    | cons next rest =>
      rw [List.intercalate_cons_cons, List.intercalate_cons_cons, List.append_assoc,
        replace_part_append hne hwritten hclear.1, ih hclear.2, List.append_assoc]

/-! ## What is lost -/

/-- No item of a kind that is not put in appears. -/
theorem countP_replace_le (hne : pat ≠ []) (hrepl : repl.countP p = 0) (text : List α) :
    (replace key pat repl text).countP p ≤ text.countP p := by
  induction text using reading key hne with
  | nil => exact le_rfl
  | keep x text hnot ih =>
    rw [replace_cons hnot, List.countP_cons, List.countP_cons]
    omega
  | occurs u text hu ih =>
    rw [replace_append hne hu, List.countP_append, List.countP_append]
    omega

/-- An occurrence that begins in a part takes an item of the kind with it, where every occurrence has
one. -/
theorem countP_replace_lt_of_isInfix (hne : pat ≠ []) (hrepl : repl.countP p = 0) {w : List α}
    (hw : w <+: text) (hshort : w.length < pat.length)
    (htakes : ∀ u, u.map key = pat → u <:+: part ++ w → ∃ x ∈ u, p x = true)
    (hfound : pat <:+: (part ++ w).map key) :
    (replace key pat repl (part ++ text)).countP p < (part ++ text).countP p := by
  induction part with
  | nil =>
    have := hfound.length_le
    rw [List.nil_append, List.length_map] at this
    omega
  | cons y part ih =>
    rw [List.cons_append]
    by_cases hprefix : pat <+: (y :: (part ++ text)).map key
    · -- the occurrence at the front is all in the part and what may be behind it
      have hlength := hfound.length_le
      rw [List.length_map] at hlength
      have hu : ((y :: (part ++ text)).take pat.length).map key = pat := by
        rw [List.map_take]
        exact (List.prefix_iff_eq_take.mp hprefix).symm
      have hin : (y :: (part ++ text)).take pat.length <+: y :: part ++ w := by
        refine List.prefix_of_prefix_length_le (List.take_prefix _ _) ?_ ?_
        · rw [← List.cons_append]
          exact (List.prefix_append_right_inj _).mpr hw
        · rw [List.length_take]
          omega
      obtain ⟨x, hx, hpx⟩ := htakes _ hu hin.isInfix
      have hpos : 0 < ((y :: (part ++ text)).take pat.length).countP p :=
        List.countP_pos_iff.mpr ⟨x, hx, hpx⟩
      have hsplit := congrArg (List.countP p)
        (List.take_append_drop pat.length (y :: (part ++ text)))
      have hle : (replace key pat repl ((y :: (part ++ text)).drop pat.length)).countP p ≤
          ((y :: (part ++ text)).drop pat.length).countP p := countP_replace_le hne hrepl _
      have hreplace : replace key pat repl (y :: (part ++ text)) =
          repl ++ replace key pat repl ((y :: (part ++ text)).drop pat.length) := by
        rw [← replace_append hne hu, List.take_append_drop]
      rw [List.countP_append] at hsplit
      rw [hreplace, List.countP_append]
      omega
    · have hrest : pat <:+: (part ++ w).map key := by
        rcases List.infix_cons_iff.mp hfound with hstart | hrest
        · refine absurd (hstart.trans ?_) hprefix
          have hmap := (List.prefix_append_right_inj (y :: part)).mpr hw
          exact hmap.map key
        · exact hrest
      have hlt := ih (fun u hu hin => htakes u hu (hin.trans (List.suffix_cons _ _).isInfix)) hrest
      rw [replace_cons hprefix, List.countP_cons, List.countP_cons]
      omega

/-- Between parts that are not all clear an item of the kind is lost, where every occurrence in a part
has one. -/
theorem countP_replace_lt (hne : pat ≠ []) (hwritten : written.map key = pat)
    (hrepl : repl.countP p = 0)
    (htakes : ∀ part ∈ parts, ∀ u, u.map key = pat → u <:+: part ++ written.dropLast →
      ∃ x ∈ u, p x = true)
    (hclear : ¬ Clear pat (parts.map (List.map key))) :
    (replace key pat repl (written.intercalate parts)).countP p <
      (written.intercalate parts).countP p := by
  have hdrop : written.dropLast.map key = pat.dropLast := by rw [List.map_dropLast, hwritten]
  induction parts with
  | nil => exact absurd trivial hclear
  | cons part rest ih =>
    have htake := htakes part List.mem_cons_self
    cases rest with
    | nil =>
      have hfound : pat <:+: part.map key := not_not.mp hclear
      have htake' (u : List α) (hu : u.map key = pat) (hin : u <:+: part ++ []) :
          ∃ x ∈ u, p x = true := by
        rw [List.append_nil] at hin
        exact htake u hu (hin.trans (List.prefix_append _ _).isInfix)
      have hlt : (replace key pat repl (part ++ [])).countP p < (part ++ []).countP p :=
        countP_replace_lt_of_isInfix hne hrepl List.nil_prefix (List.length_pos_iff.mpr hne) htake'
          (by rwa [List.append_nil])
      rw [List.append_nil] at hlt
      rwa [List.intercalate_singleton]
    | cons next rest =>
      rw [List.intercalate_cons_cons, List.append_assoc]
      -- the pattern is in the first part, up to what follows it, or in a later one
      by_cases hfirst : pat <:+: part.map key ++ pat.dropLast
      · refine countP_replace_lt_of_isInfix hne hrepl
          ((List.dropLast_prefix written).trans (List.prefix_append _ _)) ?_ htake ?_
        · have hpos := List.length_pos_iff.mpr hne
          rw [← List.length_map key, hdrop, List.length_dropLast]
          omega
        · rwa [List.map_append, hdrop]
      · have hrest := ih (fun part hmem => htakes part (List.mem_cons_of_mem _ hmem))
          fun hrest => hclear ⟨hfirst, hrest⟩
        rw [replace_part_append hne hwritten hfirst]
        simp only [List.countP_append] at hrest ⊢
        omega

end Replace
