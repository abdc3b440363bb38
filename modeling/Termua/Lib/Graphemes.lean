import Mathlib

/-!
# Grapheme clusters

A segmentation cuts a text into clusters that are not empty. What stands between two clusters, before
the first and behind the last is a boundary, named by the number of characters before it. `floor`,
`prev` and `next` find the boundaries around a position as a scan over `graphemeIndices` does.

`ofBreaks` makes a segmentation of a rule that says between which characters there is a boundary.
-/

namespace Graphemes

/-- A library that segments texts, with what it promises of every text. -/
structure Segmentation where
  graphemes : List Char → List (List Char)
  flatten_graphemes : ∀ text, (graphemes text).flatten = text
  ne_nil : ∀ text, ∀ g ∈ graphemes text, g ≠ []

/-- Where the clusters begin, when the first begins at `n`. -/
def indicesFrom (n : ℕ) : List (List Char) → List ℕ
  | [] => []
  | g :: gs => n :: indicesFrom (n + g.length) gs

variable {n i : ℕ} {gs gs' : List (List Char)} {g : List Char}

theorem indicesFrom_append :
    indicesFrom n (gs ++ gs') = indicesFrom n gs ++ indicesFrom (n + gs.flatten.length) gs' := by
  induction gs generalizing n with
  | nil => simp [indicesFrom]
  | cons g gs ih =>
    rw [List.cons_append, indicesFrom, ih, indicesFrom, List.cons_append, List.flatten_cons,
      List.length_append, add_assoc]

theorem lt_of_mem_indicesFrom (hne : ∀ g ∈ gs, g ≠ []) (h : i ∈ indicesFrom n gs) :
    i < n + gs.flatten.length := by
  induction gs generalizing n with
  | nil => cases h
  | cons g gs ih =>
    have hpos := List.length_pos_of_ne_nil (hne g List.mem_cons_self)
    rw [List.flatten_cons, List.length_append]
    rcases List.mem_cons.mp h with rfl | h
    · omega
    · have hlt := ih (fun g hg => hne g (List.mem_cons_of_mem _ hg)) h
      omega

/-- An index is the length of the clusters before it. -/
theorem exists_of_mem_indicesFrom (h : i ∈ indicesFrom n gs) :
    ∃ init rest, gs = init ++ rest ∧ i = n + init.flatten.length := by
  induction gs generalizing n with
  | nil => cases h
  | cons g gs ih =>
    rcases List.mem_cons.mp h with rfl | h
    · exact ⟨[], g :: gs, rfl, rfl⟩
    · obtain ⟨init, rest, rfl, rfl⟩ := ih h
      exact ⟨g :: init, rest, rfl, by rw [List.flatten_cons, List.length_append, add_assoc]⟩

namespace Segmentation

variable (s : Segmentation) {text before after : List Char}

/-- `grapheme_indices`: where the clusters of a text begin. -/
def graphemeIndices (text : List Char) : List ℕ := indicesFrom 0 (s.graphemes text)

/-- The last index at or before a position, zero where there is none. -/
def floor (text : List Char) (i : ℕ) : ℕ :=
  ((s.graphemeIndices text).takeWhile (· ≤ i)).getLastD 0

/-- The last index before a position, zero where there is none. -/
def prev (text : List Char) (i : ℕ) : ℕ :=
  ((s.graphemeIndices text).takeWhile (· < i)).getLastD 0

/-- The first index behind a position, the end of the text where there is none. -/
def next (text : List Char) (i : ℕ) : ℕ :=
  ((s.graphemeIndices text).find? (i < ·)).getD text.length

/-- The text before and the text behind stand apart: joined they are cut between them. -/
def Apart (before after : List Char) : Prop :=
  ∃ init rest, s.graphemes (before ++ after) = init ++ rest ∧ init.flatten = before ∧
    rest.flatten = after

/-- A position of a text between two clusters, or at an end. -/
def IsBoundary (text : List Char) (i : ℕ) : Prop :=
  i ≤ text.length ∧ s.Apart (text.take i) (text.drop i)

variable {s}

/-- Clusters that make up a beginning of the text make up a boundary. -/
theorem isBoundary_of_append {init rest : List (List Char)}
    (h : s.graphemes text = init ++ rest) : s.IsBoundary text init.flatten.length := by
  have htext : text = init.flatten ++ rest.flatten := by
    rw [← s.flatten_graphemes text, h, List.flatten_append]
  refine ⟨?_, init, rest, ?_, ?_, ?_⟩
  · rw [htext, List.length_append]
    exact Nat.le_add_right _ _
  · rw [List.take_append_drop, h]
  · rw [htext, List.take_left]
  · rw [htext, List.drop_left]

theorem IsBoundary.exists_append (h : s.IsBoundary text i) :
    ∃ init rest, s.graphemes text = init ++ rest ∧ i = init.flatten.length ∧
      init.flatten = text.take i ∧ rest.flatten = text.drop i := by
  obtain ⟨hle, init, rest, heq, hinit, hrest⟩ := h
  rw [List.take_append_drop] at heq
  exact ⟨init, rest, heq, by rw [hinit, List.length_take, min_eq_left hle], hinit, hrest⟩

theorem isBoundary_zero : s.IsBoundary text 0 :=
  isBoundary_of_append (List.nil_append (s.graphemes text)).symm

theorem isBoundary_length : s.IsBoundary text text.length := by
  have h := isBoundary_of_append (List.append_nil (s.graphemes text)).symm
  rwa [s.flatten_graphemes] at h

theorem isBoundary_of_mem (h : i ∈ s.graphemeIndices text) : s.IsBoundary text i := by
  obtain ⟨init, rest, heq, rfl⟩ := exists_of_mem_indicesFrom h
  rw [zero_add]
  exact isBoundary_of_append heq

theorem getLastD_mem {l : List ℕ} {p : ℕ → Bool} :
    (l.takeWhile p).getLastD 0 ∈ l.takeWhile p ∨ (l.takeWhile p).getLastD 0 = 0 := by
  rcases List.eq_nil_or_concat (l.takeWhile p) with h | ⟨init, a, h⟩
  · rw [h]
    exact .inr rfl
  · rw [h, List.concat_eq_append, List.getLastD_concat]
    exact .inl (List.mem_append_right _ (List.mem_singleton_self _))

theorem mem_of_mem_takeWhile {l : List ℕ} {p : ℕ → Bool} (h : i ∈ l.takeWhile p) :
    i ∈ l ∧ p i = true :=
  ⟨(List.takeWhile_sublist p).mem h, List.mem_takeWhile_imp h⟩

/-- What the scan finds at or before a position is a boundary there. -/
theorem isBoundary_floor : s.IsBoundary text (s.floor text i) ∧ s.floor text i ≤ i := by
  unfold floor
  rcases getLastD_mem (l := s.graphemeIndices text) (p := (· ≤ i)) with hmem | hzero
  · obtain ⟨hmem, hle⟩ := mem_of_mem_takeWhile hmem
    exact ⟨isBoundary_of_mem hmem, of_decide_eq_true hle⟩
  · rw [hzero]
    exact ⟨isBoundary_zero, Nat.zero_le _⟩

section Scan

variable {init rest : List (List Char)}

theorem ne_nil_of_append (h : s.graphemes text = init ++ rest) :
    (∀ g ∈ init, g ≠ []) ∧ ∀ g ∈ rest, g ≠ [] :=
  ⟨fun g hg => s.ne_nil text g (h ▸ List.mem_append_left _ hg),
    fun g hg => s.ne_nil text g (h ▸ List.mem_append_right _ hg)⟩

theorem graphemeIndices_eq (h : s.graphemes text = init ++ rest) :
    s.graphemeIndices text = indicesFrom 0 init ++ indicesFrom init.flatten.length rest := by
  unfold graphemeIndices
  rw [h, indicesFrom_append, zero_add]

theorem lt_of_mem_init (h : s.graphemes text = init ++ rest) (hi : i ∈ indicesFrom 0 init) :
    i < init.flatten.length := by
  have hlt := lt_of_mem_indicesFrom (ne_nil_of_append h).1 hi
  rwa [zero_add] at hlt

/-- The boundaries are where the clusters begin and the end of the text. -/
theorem isBoundary_iff : s.IsBoundary text i ↔ i ∈ s.graphemeIndices text ∨ i = text.length := by
  constructor
  · intro h
    obtain ⟨init, rest, heq, rfl, -, -⟩ := h.exists_append
    cases rest with
    | nil =>
      refine .inr ?_
      rw [← s.flatten_graphemes text, heq, List.append_nil]
    | cons g rest =>
      refine .inl ?_
      rw [graphemeIndices_eq heq]
      exact List.mem_append_right _ List.mem_cons_self
  · rintro (h | rfl)
    · exact isBoundary_of_mem h
    · exact isBoundary_length

instance : Decidable (s.IsBoundary text i) := decidable_of_iff _ isBoundary_iff.symm

/-- A scan up to the place where a cluster begins stops before the next one. -/
theorem takeWhile_graphemeIndices (h : s.graphemes text = init ++ g :: rest) {p : ℕ → Bool}
    (hp : ∀ i ≤ init.flatten.length, p i = true) (hnot : p (init.flatten.length + g.length) = false) :
    (s.graphemeIndices text).takeWhile p = indicesFrom 0 init ++ [init.flatten.length] := by
  have hrest : (indicesFrom (init.flatten.length + g.length) rest).takeWhile p = [] := by
    cases rest with
    | nil => rfl
    | cons g' rest => exact List.takeWhile_cons_of_neg (by rw [hnot]; exact Bool.false_ne_true)
  rw [graphemeIndices_eq h, indicesFrom,
    List.takeWhile_append_of_pos fun i hi => hp i (lt_of_mem_init h hi).le,
    List.takeWhile_cons_of_pos (hp _ le_rfl), hrest]

/-- At a boundary before the end the scan finds the boundary itself. -/
theorem floor_eq (h : s.graphemes text = init ++ g :: rest) :
    s.floor text init.flatten.length = init.flatten.length := by
  have hg := List.length_pos_of_ne_nil ((ne_nil_of_append h).2 g List.mem_cons_self)
  unfold floor
  rw [takeWhile_graphemeIndices h (fun i hi => decide_eq_true hi)
    (decide_eq_false (Nat.not_le.mpr (Nat.lt_add_of_pos_right hg))), List.getLastD_concat]

/-- Behind a cluster the scan finds where the cluster begins. -/
theorem prev_eq (h : s.graphemes text = init ++ g :: rest) :
    s.prev text (init.flatten.length + g.length) = init.flatten.length := by
  have hg := List.length_pos_of_ne_nil ((ne_nil_of_append h).2 g List.mem_cons_self)
  unfold prev
  rw [takeWhile_graphemeIndices h (p := (· < init.flatten.length + g.length))
    (fun i hi => decide_eq_true (by omega)) (decide_eq_false (Nat.lt_irrefl _)),
    List.getLastD_concat]

/-- Before a cluster the scan finds where the cluster ends. -/
theorem next_eq (h : s.graphemes text = init ++ g :: rest) :
    s.next text init.flatten.length = init.flatten.length + g.length := by
  have hg := List.length_pos_of_ne_nil ((ne_nil_of_append h).2 g List.mem_cons_self)
  have hinit : (indicesFrom 0 init).find? (init.flatten.length < ·) = none :=
    List.find?_eq_none.mpr fun i hi => by simpa using (lt_of_mem_init h hi).le
  unfold next
  rw [graphemeIndices_eq h, indicesFrom, List.find?_append, hinit, Option.none_or,
    List.find?_cons_of_neg (by simp)]
  cases rest with
  | nil =>
    rw [← s.flatten_graphemes text, h, List.flatten_append, List.length_append]
    simp [indicesFrom]
  | cons g' rest =>
    rw [indicesFrom, List.find?_cons_of_pos (by simpa using hg), Option.getD_some]

end Scan

end Segmentation

/-! ## Segmentations by a rule -/

/-- The text is cut before a character where the rule says so of the characters before it. The open
cluster is `cluster`, the characters before the rest are `before`. -/
def splitAtBreaks (breaks : List Char → Char → Bool) (cluster before : List Char) :
    List Char → List (List Char)
  | [] => if cluster = [] then [] else [cluster]
  | c :: rest =>
    if cluster ≠ [] ∧ breaks before c then
      cluster :: splitAtBreaks breaks [c] (before ++ [c]) rest
    else splitAtBreaks breaks (cluster ++ [c]) (before ++ [c]) rest

variable {breaks : List Char → Char → Bool} {cluster before text : List Char}

theorem flatten_splitAtBreaks :
    (splitAtBreaks breaks cluster before text).flatten = cluster ++ text := by
  induction text generalizing cluster before with
  | nil =>
    unfold splitAtBreaks
    split
    · next h => rw [h]; rfl
    · simp
  | cons c rest ih =>
    unfold splitAtBreaks
    split
    · rw [List.flatten_cons, ih, List.singleton_append]
    · rw [ih, List.append_assoc, List.singleton_append]

theorem ne_nil_of_mem_splitAtBreaks {g : List Char}
    (h : g ∈ splitAtBreaks breaks cluster before text) : g ≠ [] := by
  induction text generalizing cluster before with
  | nil =>
    unfold splitAtBreaks at h
    split at h
    · cases h
    · next hne => exact List.mem_singleton.mp h ▸ hne
  | cons c rest ih =>
    unfold splitAtBreaks at h
    split at h
    · next hne =>
      rcases List.mem_cons.mp h with rfl | h
      · exact hne.1
      · exact ih h
    · exact ih h

/-- The segmentation of a rule. -/
def Segmentation.ofBreaks (breaks : List Char → Char → Bool) : Segmentation where
  graphemes := splitAtBreaks breaks [] []
  flatten_graphemes _ := flatten_splitAtBreaks
  ne_nil _ _ h := ne_nil_of_mem_splitAtBreaks h

/-- A combining diacritical mark, a variation selector, a joiner or an emoji modifier. -/
def isExtend (c : Char) : Bool :=
  (0x300 ≤ c.toNat ∧ c.toNat ≤ 0x36F) ∨ c.toNat = 0x200D ∨ (0xFE00 ≤ c.toNat ∧ c.toNat ≤ 0xFE0F) ∨
    (0x1F3FB ≤ c.toNat ∧ c.toNat ≤ 0x1F3FF)

/-- A regional indicator, two of which make a flag. -/
def isRegionalIndicator (c : Char) : Bool := 0x1F1E6 ≤ c.toNat ∧ c.toNat ≤ 0x1F1FF

/-- The rules of UAX #29 for texts of these characters and of ones that stand for themselves. -/
def Segmentation.basic : Segmentation :=
  .ofBreaks fun before c =>
    !isExtend c &&
      !(isRegionalIndicator c && (before.rtakeWhile isRegionalIndicator).length % 2 = 1)

example : Segmentation.basic.graphemes ['e', '\u0301', '🇩', '🇪', '🇫', 'x'] =
    [['e', '\u0301'], ['🇩', '🇪'], ['🇫'], ['x']] := by decide +kernel

end Graphemes
