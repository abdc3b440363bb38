import Mathlib

/-!
# Forests as lists of rows

A forest is shown as the list of its nodes in preorder, each with its depth. What the list tells about
the forest is its depths only: a node with all that is below it can be left out of the list in one pass
(`dropBelow_rows`), and the parent of the last row is the nearest row before it with a smaller depth
(`find?_parent`).
-/

/-- A forest: a first node with the forest below it, and the trees behind. -/
inductive Forest (α : Type*)
  | nil
  | node (a : α) (below rest : Forest α)

namespace Forest

variable {α : Type*} {depth : α → ℕ} {p inner hidden dir : α → Bool} {a : α} {d k : ℕ}
  {f below rest : Forest α} {above : List α}

/-- The nodes in preorder. -/
def rows : Forest α → List α
  | nil => []
  | node a below rest => a :: (below.rows ++ rest.rows)

/-- The nodes in preorder, each with those above it, the nearest first. -/
def paths (above : List α) : Forest α → List (List α × α)
  | nil => []
  | node a below rest => (above, a) :: (below.paths (a :: above) ++ rest.paths above)

/-- Every node has its depth, from `d` on. -/
def Levels (depth : α → ℕ) : ℕ → Forest α → Prop
  | _, nil => True
  | d, node a below rest => depth a = d ∧ Levels depth (d + 1) below ∧ Levels depth d rest

/-- Only nodes that satisfy `p` have something below them. -/
def Inner (p : α → Bool) : Forest α → Prop
  | nil => True
  | node a below rest => (below = nil ∨ p a = true) ∧ Inner p below ∧ Inner p rest

/-- The forest without the trees whose root does not satisfy `p`. -/
def prune (p : α → Bool) : Forest α → Forest α
  | nil => nil
  | node a below rest => if p a then node a (below.prune p) (rest.prune p) else rest.prune p

/-- The last node, with its parent. -/
def last (parent : Option α) : Forest α → Option (Option α × α)
  | nil => none
  | node a below rest => (rest.last parent).or ((below.last (some a)).or (some (parent, a)))

@[simp] theorem rows_nil : (nil : Forest α).rows = [] := rfl

@[simp] theorem rows_node : (node a below rest).rows = a :: (below.rows ++ rest.rows) := rfl

theorem le_depth_of_mem_rows (h : f.Levels depth d) : ∀ a ∈ f.rows, d ≤ depth a := by
  induction f generalizing d with
  | nil => exact fun a ha => absurd ha List.not_mem_nil
  | node b below rest ihBelow ihRest =>
    obtain ⟨hb, hbelow, hrest⟩ := h
    intro a ha
    rcases List.mem_cons.mp ha with rfl | ha
    · exact hb.ge
    · rcases List.mem_append.mp ha with ha | ha
      · exact (Nat.le_succ d).trans (ihBelow hbelow a ha)
      · exact ihRest hrest a ha

/-- What is above a node is an inner node. -/
theorem Inner.paths (h : f.Inner p) : ∀ e ∈ f.paths above, ∀ a ∈ e.1, a ∈ above ∨ p a = true := by
  induction f generalizing above with
  | nil => exact fun e he => absurd he List.not_mem_nil
  | node b below rest ihBelow ihRest =>
    obtain ⟨hb, hbelow, hrest⟩ := h
    intro e he a ha
    rcases List.mem_cons.mp he with rfl | he
    · exact .inl ha
    · rcases List.mem_append.mp he with he | he
      · rcases ihBelow hbelow e he a ha with hmem | hp
        · rcases List.mem_cons.mp hmem with rfl | hmem
          · refine .inr (hb.resolve_left ?_)
            rintro rfl
            cases he
          · exact .inl hmem
        · exact .inr hp
      · exact ihRest hrest e he a ha

/-! ## Pruning -/

theorem Levels.prune (h : f.Levels depth d) : (f.prune p).Levels depth d := by
  induction f generalizing d with
  | nil => trivial
  | node a below rest ihBelow ihRest =>
    obtain ⟨ha, hbelow, hrest⟩ := h
    rw [Forest.prune]
    split
    · exact ⟨ha, ihBelow hbelow, ihRest hrest⟩
    · exact ihRest hrest

theorem Inner.prune (h : f.Inner inner) : (f.prune p).Inner inner := by
  induction f with
  | nil => trivial
  | node a below rest ihBelow ihRest =>
    obtain ⟨ha, hbelow, hrest⟩ := h
    rw [Forest.prune]
    split
    · refine ⟨ha.imp_left fun hnil => ?_, ihBelow hbelow, ihRest hrest⟩
      rw [hnil]
      rfl
    · exact ihRest hrest

/-- Below a node that does not satisfy `p` nothing stays. -/
theorem filter_paths_of_mem {b : α} (hb : b ∈ above) (hp : p b = false) :
    ((f.paths above).filter fun e => p e.2 && e.1.all p) = [] := by
  induction f generalizing above with
  | nil => rfl
  | node a below rest ihBelow ihRest =>
    have hall : above.all p = false := by
      rw [List.all_eq_false]
      exact ⟨b, hb, by simp [hp]⟩
    rw [paths, List.filter_cons_of_neg (by simp [hall]), List.filter_append,
      ihBelow (List.mem_cons_of_mem _ hb), ihRest hb]
    rfl

/-- What stays of a forest is what satisfies `p` and has nothing above it that does not. -/
theorem rows_prune (habove : above.all p = true) :
    (f.prune p).rows = ((f.paths above).filter fun e => p e.2 && e.1.all p).map Prod.snd := by
  induction f generalizing above with
  | nil => rfl
  | node a below rest ihBelow ihRest =>
    rw [paths, Forest.prune]
    rcases hp : p a with _ | _
    · rw [List.filter_cons_of_neg (by simp [hp]), List.filter_append,
        filter_paths_of_mem List.mem_cons_self hp, List.nil_append, ← ihRest habove]
      rfl
    · rw [List.filter_cons_of_pos (by simp [hp, habove]), List.filter_append, List.map_cons,
        List.map_append, ← ihBelow (by rw [List.all_cons, hp, habove]; rfl), ← ihRest habove]
      rfl

/-- One pass that leaves out the hidden rows, and behind one that is a directory all the rows that are
deeper. -/
def dropBelow (depth : α → ℕ) (hidden dir : α → Bool) : Option ℕ → List α → List α
  | _, [] => []
  | limit, a :: rows =>
    if limit.any (· < depth a) then dropBelow depth hidden dir limit rows
    else if hidden a then dropBelow depth hidden dir (if dir a then some (depth a) else none) rows
    else a :: dropBelow depth hidden dir none rows

theorem dropBelow_none_cons (l : List α) :
    dropBelow depth hidden dir none (a :: l) =
      if hidden a then dropBelow depth hidden dir (if dir a then some (depth a) else none) l
      else a :: dropBelow depth hidden dir none l := by
  rw [dropBelow]
  exact if_neg Bool.false_ne_true

/-- Rows that are deeper than a limit are passed over. -/
theorem dropBelow_append_of_lt {l l' : List α} (h : ∀ a ∈ l, k < depth a) :
    dropBelow depth hidden dir (some k) (l ++ l') = dropBelow depth hidden dir (some k) l' := by
  induction l with
  | nil => rfl
  | cons a l ih =>
    rw [List.cons_append, dropBelow, if_pos (by simpa using h a List.mem_cons_self)]
    exact ih fun b hb => h b (List.mem_cons_of_mem _ hb)

/-- A limit that the next row is not deeper than is forgotten. -/
theorem dropBelow_of_le {l : List α} (h : ∀ a ∈ l.head?, depth a ≤ k) :
    dropBelow depth hidden dir (some k) l = dropBelow depth hidden dir none l := by
  rcases l with _ | ⟨a, l⟩
  · rfl
  · have ha : depth a ≤ k := h a rfl
    rw [dropBelow_none_cons, dropBelow]
    exact if_neg (by simpa using ha)

/-- The pass over the rows of a forest whose inner nodes are directories leaves out the trees whose
root is hidden. Behind them come rows that are not deeper than the forest. -/
theorem dropBelow_rows_append (hlevels : f.Levels depth d) (hinner : f.Inner dir) {l : List α}
    (hl : ∀ a ∈ l.head?, depth a ≤ d) :
    dropBelow depth hidden dir none (f.rows ++ l) =
      (f.prune fun a => !hidden a).rows ++ dropBelow depth hidden dir none l := by
  induction f generalizing d l with
  | nil => rfl
  | node a below rest ihBelow ihRest =>
    obtain ⟨ha, hbelow, hrest⟩ := hlevels
    obtain ⟨hdir, hinnerBelow, hinnerRest⟩ := hinner
    have hnext : ∀ b ∈ (rest.rows ++ l).head?, depth b ≤ d := by
      rcases rest with _ | ⟨b, rb, rr⟩
      · exact hl
      · rintro _ ⟨⟩
        exact hrest.1.le
    rw [rows_node, List.cons_append, List.append_assoc, dropBelow_none_cons, Forest.prune]
    rcases hhidden : hidden a with _ | _
    · have hbelow' : ∀ b ∈ (rest.rows ++ l).head?, depth b ≤ d + 1 :=
        fun b hb => (hnext b hb).trans (Nat.le_succ d)
      rw [if_neg Bool.false_ne_true, if_pos (by rfl), rows_node, List.cons_append,
        List.append_assoc, ihBelow hbelow hinnerBelow hbelow', ihRest hrest hinnerRest hl]
    · simp only [Bool.not_true, Bool.false_eq_true, if_true, if_false]
      rw [← ihRest hrest hinnerRest hl]
      rcases hnot : dir a with _ | _
      · -- a node that is no directory has nothing below it
        obtain rfl := hdir.resolve_right (by simp [hnot])
        rfl
      · rw [if_pos rfl,
          dropBelow_append_of_lt fun b hb => ha ▸ le_depth_of_mem_rows hbelow b hb]
        exact dropBelow_of_le fun b hb => ha ▸ hnext b hb

theorem dropBelow_rows (hlevels : f.Levels depth d) (hinner : f.Inner dir) :
    dropBelow depth hidden dir none f.rows = (f.prune fun a => !hidden a).rows := by
  have h := @dropBelow_rows_append α depth hidden dir d f hlevels hinner [] fun a ha => nomatch ha
  rwa [List.append_nil, dropBelow, List.append_nil] at h

/-! ## The parent of the last row -/

theorem last_eq_none {parent : Option α} (h : f.last parent = none) : f = nil := by
  rcases f with _ | ⟨a, below, rest⟩
  · rfl
  · rw [last, Option.or_eq_none_iff, Option.or_eq_none_iff] at h
    cases h.2.2

theorem getLast?_rows {parent : Option α} :
    f.rows.getLast? = (f.last parent).map Prod.snd := by
  induction f generalizing parent with
  | nil => rfl
  | node a below rest ihBelow ihRest =>
    rw [rows_node, List.getLast?_cons, List.getLast?_append, @ihRest parent, @ihBelow (some a), last]
    rcases rest.last parent with _ | e
    · rcases below.last (some a) with _ | e
      · rfl
      · rfl
    · rfl

/-- The last row is a root, or the nearest row before it that is an inner node and less deep is its
parent. -/
theorem last_cases (hlevels : f.Levels depth d) (hinner : f.Inner inner) {parent parent' : Option α}
    {b : α} (hlast : f.last parent = some (parent', b)) :
    (parent' = parent ∧ depth b = d) ∨
      ∃ c, parent' = some c ∧
        (f.rows.reverse.find? fun a => inner a && decide (depth a < depth b)) = some c := by
  induction f generalizing d parent with
  | nil => cases hlast
  | node a below rest ihBelow ihRest =>
    obtain ⟨ha, hbelow, hrest⟩ := hlevels
    obtain ⟨hinnerA, hinnerBelow, hinnerRest⟩ := hinner
    rw [rows_node, List.reverse_cons, List.reverse_append, List.find?_append, List.find?_append]
    rw [last] at hlast
    rcases hr : rest.last parent with _ | e
    · obtain rfl := last_eq_none hr
      rw [hr, Option.none_or] at hlast
      rcases hb : below.last (some a) with _ | e
      · rw [hb, Option.none_or] at hlast
        obtain ⟨rfl, rfl⟩ := Prod.mk.inj (Option.some.inj hlast)
        exact .inl ⟨rfl, ha⟩
      · rw [hb, Option.some_or] at hlast
        obtain rfl := Option.some.inj hlast
        have hp : inner a = true := hinnerA.resolve_left (by rintro rfl; cases hb)
        refine .inr ?_
        rcases ihBelow hbelow hinnerBelow hb with ⟨rfl, hdepth⟩ | ⟨c, rfl, hfind⟩
        · -- a root of the forest below has nothing less deep before it in that forest
          have hnone : (below.rows.reverse.find? fun a => inner a && decide (depth a < depth b)) =
              none := by
            refine List.find?_eq_none.mpr fun x hx => ?_
            have hle := le_depth_of_mem_rows hbelow x (List.mem_reverse.mp hx)
            simp only [Bool.and_eq_true, decide_eq_true_eq, not_and, Nat.not_lt]
            omega
          refine ⟨a, rfl, ?_⟩
          rw [hnone, rows_nil, List.find?_singleton, if_pos (by simp [hp, ha, hdepth])]
          rfl
        · exact ⟨c, rfl, by rw [hfind]; rfl⟩
    · rw [hr, Option.some_or] at hlast
      obtain rfl := Option.some.inj hlast
      rcases ihRest hrest hinnerRest hr with h | ⟨c, rfl, hfind⟩
      · exact .inl h
      · exact .inr ⟨c, rfl, by rw [hfind]; rfl⟩

/-- The parent of the last row is the nearest row before it that is an inner node and less deep. -/
theorem find?_parent (hlevels : f.Levels depth d) (hinner : f.Inner inner) {parent parent' : Option α}
    {b : α} (hlast : f.last parent = some (parent', b)) :
    (f.rows.reverse.find? fun a => inner a && decide (depth a < depth b)).or parent = parent' := by
  rcases last_cases hlevels hinner hlast with ⟨rfl, hdepth⟩ | ⟨c, rfl, hfind⟩
  · have hnone : (f.rows.reverse.find? fun a => inner a && decide (depth a < depth b)) = none := by
      refine List.find?_eq_none.mpr fun x hx => ?_
      have hle := le_depth_of_mem_rows hlevels x (List.mem_reverse.mp hx)
      simp only [Bool.and_eq_true, decide_eq_true_eq, not_and, Nat.not_lt]
      omega
    rw [hnone, Option.none_or]
  · rw [hfind, Option.some_or]

end Forest
