import Mathlib

/-!
# Tries

Values are put into a tree under paths of keys; the children of a node stand in the order of their keys.
What a trie made from pairs has at a path is the trie of the pairs that continue the path
(`get?_ofPairs`), and each pair is in it once (`entries_ofPairs`).
-/

/-! ## Lists of keys and values in the order of the keys -/

namespace Keyed

variable {K α β : Type*} [LinearOrder K] {k x : K} {a d : α} {f : α → α} {l : List (K × α)}

/-- The keys ascend. -/
def Ascending (l : List (K × α)) : Prop := l.Pairwise fun a b => a.1 < b.1

/-- The list with the value of a key changed, which is a default if there was none. -/
def alter (k : K) (f : α → α) (d : α) : List (K × α) → List (K × α)
  | [] => [(k, f d)]
  | (x, a) :: l =>
    if k < x then (k, f d) :: (x, a) :: l
    else if k = x then (x, f a) :: l
    else (x, a) :: alter k f d l

/-- What the list holds for a key after a change came from what it held before. -/
theorem mem_alter {e : K × α} (h : e ∈ alter k f d l) :
    e ∈ l ∨ e = (k, f d) ∨ ∃ a, (k, a) ∈ l ∧ e = (k, f a) := by
  induction l with
  | nil => exact .inr (.inl (List.mem_singleton.mp h))
  | cons b l ih =>
    obtain ⟨x, a⟩ := b
    unfold alter at h
    split at h
    · rcases List.mem_cons.mp h with rfl | h
      · exact .inr (.inl rfl)
      · exact .inl h
    · split at h
      · next heq =>
        subst heq
        rcases List.mem_cons.mp h with rfl | h
        · exact .inr (.inr ⟨a, List.mem_cons_self, rfl⟩)
        · exact .inl (List.mem_cons_of_mem _ h)
      · rcases List.mem_cons.mp h with rfl | h
        · exact .inl List.mem_cons_self
        · rcases ih h with h | h | ⟨b, hb, h⟩
          · exact .inl (List.mem_cons_of_mem _ h)
          · exact .inr (.inl h)
          · exact .inr (.inr ⟨b, List.mem_cons_of_mem _ hb, h⟩)

theorem Ascending.alter (h : Ascending l) : Ascending (alter k f d l) := by
  induction l with
  | nil => exact List.pairwise_singleton _ _
  | cons b l ih =>
    obtain ⟨x, a⟩ := b
    obtain ⟨hx, hl⟩ := List.pairwise_cons.mp h
    unfold Keyed.alter
    split
    · next hlt =>
      refine List.pairwise_cons.mpr ⟨?_, h⟩
      rintro e he
      rcases List.mem_cons.mp he with rfl | he
      · exact hlt
      · exact hlt.trans (hx e he)
    · split
      · exact List.pairwise_cons.mpr ⟨hx, hl⟩
      · next hlt hne =>
        refine List.pairwise_cons.mpr ⟨fun e he => ?_, ih hl⟩
        rcases mem_alter he with he | rfl | ⟨b, -, rfl⟩
        · exact hx e he
        · exact lt_of_le_of_ne (not_lt.mp hlt) (Ne.symm hne)
        · exact lt_of_le_of_ne (not_lt.mp hlt) (Ne.symm hne)

theorem lookup_cons (y : K) (a : α) (l : List (K × α)) :
    ((y, a) :: l).lookup x = if x = y then some a else l.lookup x := by
  rw [List.lookup_cons]
  split
  · next heq => rw [if_pos (beq_iff_eq.mp heq)]
  · next hne => rw [if_neg (beq_eq_false_iff_ne.mp hne)]

/-- A key that is less than all others is not there. -/
theorem lookup_eq_none (h : ∀ e ∈ l, k < e.1) : l.lookup k = none :=
  List.lookup_eq_none_iff.mpr fun e he => bne_iff_ne.mpr (h e he).ne

theorem lookup_alter (h : Ascending l) :
    (alter k f d l).lookup x = if x = k then some (f ((l.lookup k).getD d)) else l.lookup x := by
  induction l with
  | nil => exact lookup_cons k (f d) []
  | cons b l ih =>
    obtain ⟨y, a⟩ := b
    obtain ⟨hy, hl⟩ := List.pairwise_cons.mp h
    unfold alter
    split
    · next hlt =>
      have hnone : ((y, a) :: l).lookup k = none := lookup_eq_none fun e he => by
        rcases List.mem_cons.mp he with rfl | he
        · exact hlt
        · exact hlt.trans (hy e he)
      rw [hnone, lookup_cons]
      rfl
    · split
      · next heq =>
        subst heq
        rw [lookup_cons, lookup_cons, lookup_cons, if_pos rfl, Option.getD_some]
        split
        · rfl
        · rfl
      · next hne =>
        rw [lookup_cons, lookup_cons, lookup_cons, ih hl, if_neg hne]
        by_cases hxy : x = y
        · subst hxy
          rw [if_pos rfl, if_neg (Ne.symm hne), if_pos rfl]
        · rw [if_neg hxy, if_neg hxy]

/-- In a list with ascending keys every value is found under its key. -/
theorem lookup_eq_some_iff (h : Ascending l) : l.lookup k = some a ↔ (k, a) ∈ l := by
  induction l with
  | nil => simp
  | cons b l ih =>
    obtain ⟨x, b⟩ := b
    obtain ⟨hx, hl⟩ := List.pairwise_cons.mp h
    rw [lookup_cons, List.mem_cons, ← ih hl]
    by_cases hkx : k = x
    · subst hkx
      rw [lookup_eq_none hx]
      simp [eq_comm]
    · simp [hkx]

/-- A change that adds one thing to what the value of the key stands for adds it to what the list stands
for. -/
theorem flatMap_alter_perm {g : K × α → List β} {b : β} (hd : g (k, f d) = [b])
    (hf : ∀ a, (k, a) ∈ l → (g (k, f a)).Perm (b :: g (k, a))) :
    ((alter k f d l).flatMap g).Perm (b :: l.flatMap g) := by
  induction l with
  | nil => simp [alter, hd]
  | cons e l ih =>
    obtain ⟨x, a⟩ := e
    unfold alter
    split
    · rw [List.flatMap_cons, hd]
      rfl
    · split
      · next heq =>
        subst heq
        rw [List.flatMap_cons, List.flatMap_cons, ← List.cons_append]
        exact (hf a List.mem_cons_self).append_right _
      · rw [List.flatMap_cons, List.flatMap_cons]
        exact ((ih fun a ha => hf a (List.mem_cons_of_mem _ ha)).append_left _).trans
          List.perm_middle

end Keyed

/-! ## Tries -/

/-- A trie: the values at its root, and the tries below it, each under its key. -/
inductive Trie (K V : Type*)
  | node (values : List V) (children : List (K × Trie K V))

namespace Trie

variable {K V : Type*} {k : K} {path p : List K} {v : V} {values : List V}
  {children : List (K × Trie K V)} {t sub : Trie K V} {pairs : List (List K × V)}

/-- Induction with the hypothesis for each trie below the root. -/
@[elab_as_elim]
theorem ind {motive : Trie K V → Prop}
    (node : ∀ values children, (∀ c ∈ children, motive c.2) → motive (node values children))
    (t : Trie K V) : motive t :=
  @Trie.rec K V motive (fun children => ∀ c ∈ children, motive c.2) (fun c => motive c.2) node
    (fun _ hc => absurd hc List.not_mem_nil)
    (fun _ _ hc hchildren => List.forall_mem_cons.mpr ⟨hc, hchildren⟩) (fun _ _ h => h) t

/-- The trie without values. -/
def empty : Trie K V := node [] []

/-! ### What is in a trie -/

mutual
/-- The values with their paths, those below the root first. -/
def entries : Trie K V → List (List K × V)
  | node values children => childEntries children ++ values.map fun v => ([], v)

/-- The values in a list of tries with their paths. -/
def childEntries : List (K × Trie K V) → List (List K × V)
  | [] => []
  | (k, t) :: children => (t.entries.map fun e => (k :: e.1, e.2)) ++ childEntries children
end

mutual
/-- The tries below the root with their paths, each in front of those below it. -/
def descendants : Trie K V → List (List K × Trie K V)
  | node _ children => childDescendants children

/-- The tries in a list of tries with their paths. -/
def childDescendants : List (K × Trie K V) → List (List K × Trie K V)
  | [] => []
  | (k, t) :: children =>
    ([k], t) :: (t.descendants.map fun e => (k :: e.1, e.2)) ++ childDescendants children
end

/-- The tries at and below the root with their paths. -/
def nodes (t : Trie K V) : List (List K × Trie K V) := ([], t) :: t.descendants

theorem entries_node (values : List V) (children : List (K × Trie K V)) :
    (node values children).entries =
      (children.flatMap fun c => c.2.entries.map fun e => (c.1 :: e.1, e.2)) ++
        values.map fun v => ([], v) := by
  have hchildren : childEntries children =
      children.flatMap fun c => c.2.entries.map fun e => (c.1 :: e.1, e.2) := by
    induction children with
    | nil => rfl
    | cons c children ih => rw [childEntries, ih, List.flatMap_cons]
  rw [entries, hchildren]

theorem descendants_node (values : List V) (children : List (K × Trie K V)) :
    (node values children).descendants =
      children.flatMap fun c => c.2.nodes.map fun e => (c.1 :: e.1, e.2) := by
  rw [descendants]
  induction children with
  | nil => rfl
  | cons c children ih =>
    rw [childDescendants, ih, List.flatMap_cons]
    rfl

theorem ne_nil_of_mem_descendants {e : List K × Trie K V} (h : e ∈ t.descendants) : e.1 ≠ [] := by
  obtain ⟨values, children⟩ := t
  rw [descendants_node] at h
  obtain ⟨c, -, h⟩ := List.mem_flatMap.mp h
  obtain ⟨e, -, rfl⟩ := List.mem_map.mp h
  exact List.cons_ne_nil _ _

variable [LinearOrder K]

/-- The pairs whose path continues a path, with the rest of their path. -/
def continuing (p : List K) (pairs : List (List K × V)) : List (List K × V) :=
  (pairs.filter fun e => p <+: e.1).map fun e => (e.1.drop p.length, e.2)

/-- The trie at a path. -/
def get? : List K → Trie K V → Option (Trie K V)
  | [], t => some t
  | k :: p, node _ children => (children.lookup k).bind (get? p)

/-- The trie with a value put behind the others at a path. -/
def insert : List K → V → Trie K V → Trie K V
  | [], v, node values children => node (values ++ [v]) children
  | k :: path, v, node values children =>
    node values (Keyed.alter k (insert path v) empty children)

/-- The trie of pairs of a path and a value. -/
def ofPairs (pairs : List (List K × V)) : Trie K V :=
  pairs.foldl (fun t e => t.insert e.1 e.2) empty

theorem ofPairs_concat (pairs : List (List K × V)) (e : List K × V) :
    ofPairs (pairs ++ [e]) = (ofPairs pairs).insert e.1 e.2 := by
  unfold ofPairs
  rw [List.foldl_append, List.foldl_cons, List.foldl_nil]

theorem entries_insert (path : List K) (v : V) (t : Trie K V) :
    (t.insert path v).entries.Perm ((path, v) :: t.entries) := by
  induction path generalizing t with
  | nil =>
    obtain ⟨values, children⟩ := t
    rw [insert, entries_node, entries_node, List.map_append, ← List.append_assoc]
    exact List.perm_append_singleton _ _
  | cons k path ih =>
    obtain ⟨values, children⟩ := t
    rw [insert, entries_node, entries_node, ← List.cons_append]
    refine (Keyed.flatMap_alter_perm ?_ fun t _ => ?_).append_right _
    · rw [List.perm_singleton.mp (ih empty)]
      rfl
    · exact (ih t).map _

/-- Each pair is in the trie once. -/
theorem entries_ofPairs (pairs : List (List K × V)) : (ofPairs pairs).entries.Perm pairs := by
  induction pairs using List.reverseRecOn with
  | nil => rfl
  | append_singleton pairs e ih =>
    rw [ofPairs_concat]
    exact (entries_insert _ _ _).trans
      ((ih.cons e).trans (List.perm_append_singleton e pairs).symm)

/-! ### The order of the keys -/

/-- At every node the keys ascend. -/
inductive Ordered : Trie K V → Prop
  | node (values : List V) {children : List (K × Trie K V)} (ascending : Keyed.Ascending children)
      (below : ∀ c ∈ children, Ordered c.2) : Ordered (node values children)

theorem ordered_empty : (empty : Trie K V).Ordered :=
  .node [] List.Pairwise.nil fun _ hc => absurd hc List.not_mem_nil

theorem Ordered.insert (h : t.Ordered) (path : List K) (v : V) : (t.insert path v).Ordered := by
  induction path generalizing t with
  | nil =>
    obtain ⟨values, ascending, below⟩ := h
    exact .node _ ascending below
  | cons k path ih =>
    obtain ⟨values, ascending, below⟩ := h
    refine .node _ ascending.alter fun c hc => ?_
    rcases Keyed.mem_alter hc with hc | rfl | ⟨t, ht, rfl⟩
    · exact below c hc
    · exact ih ordered_empty
    · exact ih (below _ ht)

theorem ordered_ofPairs (pairs : List (List K × V)) : (ofPairs pairs).Ordered := by
  induction pairs using List.reverseRecOn with
  | nil => exact ordered_empty
  | append_singleton pairs e ih =>
    rw [ofPairs_concat]
    exact ih.insert _ _

/-- The tries at and below the root are those that are found at a path. -/
theorem mem_nodes (h : t.Ordered) : (p, sub) ∈ t.nodes ↔ t.get? p = some sub := by
  induction t using ind generalizing p with
  | node values children ih =>
    obtain ⟨_, ascending, below⟩ := h
    rw [nodes, List.mem_cons, descendants_node, List.mem_flatMap]
    rcases p with _ | ⟨k, p⟩
    · simp [get?, eq_comm]
    · have hchild : ∀ c ∈ children,
          ((k :: p, sub) ∈ c.2.nodes.map fun e => (c.1 :: e.1, e.2)) ↔
            k = c.1 ∧ c.2.get? p = some sub := by
        intro c hc
        rw [← ih c hc (below c hc), List.mem_map]
        constructor
        · rintro ⟨e, he, heq⟩
          obtain ⟨hk, rfl⟩ := Prod.mk.inj heq
          obtain ⟨rfl, rfl⟩ := List.cons.inj hk
          exact ⟨rfl, he⟩
        · rintro ⟨rfl, he⟩
          exact ⟨_, he, rfl⟩
      rw [get?, Option.bind_eq_some_iff]
      constructor
      · rintro (heq | ⟨c, hc, he⟩)
        · cases (Prod.mk.inj heq).1
        · obtain ⟨rfl, hget⟩ := (hchild c hc).mp he
          exact ⟨c.2, (Keyed.lookup_eq_some_iff ascending).mpr hc, hget⟩
      · rintro ⟨c, hc, hget⟩
        have hc := (Keyed.lookup_eq_some_iff ascending).mp hc
        exact .inr ⟨(k, c), hc, (hchild _ hc).mpr ⟨rfl, hget⟩⟩

theorem mem_descendants (h : t.Ordered) :
    (p, sub) ∈ t.descendants ↔ p ≠ [] ∧ t.get? p = some sub := by
  rw [← mem_nodes h, nodes, List.mem_cons]
  constructor
  · exact fun he => ⟨ne_nil_of_mem_descendants he, .inr he⟩
  · rintro ⟨hp, heq | he⟩
    · exact absurd (Prod.mk.inj heq).1 hp
    · exact he

/-- No two tries at or below the root have one path. -/
theorem nodup_nodes (h : t.Ordered) : (t.nodes.map Prod.fst).Nodup := by
  induction t using ind with
  | node values children ih =>
    obtain ⟨_, ascending, below⟩ := h
    have hpaths : ∀ c : K × Trie K V, (c.2.nodes.map fun e => (c.1 :: e.1, e.2)).map Prod.fst =
        (c.2.nodes.map Prod.fst).map (c.1 :: ·) := fun c => by rw [List.map_map, List.map_map]; rfl
    rw [nodes, List.map_cons, descendants_node, List.map_flatMap, List.nodup_cons]
    simp only [hpaths]
    refine ⟨by simp, List.nodup_flatMap.mpr ⟨fun c hc => ?_, ascending.imp fun hlt => ?_⟩⟩
    · exact (ih c hc (below c hc)).map fun _ _ heq => (List.cons.inj heq).2
    · refine List.disjoint_left.mpr fun q hq hq' => ?_
      obtain ⟨_, _, rfl⟩ := List.mem_map.mp hq
      obtain ⟨_, _, heq⟩ := List.mem_map.mp hq'
      exact hlt.ne' (List.cons.inj heq).1

theorem nodup_descendants (h : t.Ordered) : (t.descendants.map Prod.fst).Nodup :=
  (List.nodup_cons.mp (nodup_nodes h)).2

/-! ### What is at a path -/

theorem get?_empty : (empty : Trie K V).get? p = if p = [] then some empty else none := by
  rcases p with _ | ⟨k, p⟩
  · rfl
  · rfl

theorem get?_insert (h : t.Ordered) (path : List K) (v : V) (p : List K) :
    (t.insert path v).get? p =
      if p <+: path then some (((t.get? p).getD empty).insert (path.drop p.length) v)
      else t.get? p := by
  induction p generalizing t path with
  | nil =>
    rw [if_pos List.nil_prefix]
    rfl
  | cons k p ih =>
    obtain ⟨values, ascending, below⟩ := h
    rcases path with _ | ⟨x, path⟩
    · rw [if_neg (by simp)]
      rfl
    · rw [insert, get?, Keyed.lookup_alter ascending, get?]
      by_cases hk : k = x
      · subst hk
        rw [if_pos rfl, Option.bind_some]
        simp only [List.cons_prefix_cons, true_and]
        rcases hlookup : List.lookup k _ with _ | c
        · -- the child is new
          rw [Option.getD_none, ih ordered_empty, get?_empty]
          split
          · split
            · rfl
            · rfl
          · next hp =>
            rw [if_neg (by rintro rfl; exact hp List.nil_prefix)]
            rfl
        · rw [Option.getD_some, Option.bind_some,
            ih (below _ ((Keyed.lookup_eq_some_iff ascending).mp hlookup))]
          rfl
      · rw [if_neg hk, if_neg (by simp [hk])]

theorem continuing_concat (p : List K) (pairs : List (List K × V)) (e : List K × V) :
    continuing p (pairs ++ [e]) =
      continuing p pairs ++ if p <+: e.1 then [(e.1.drop p.length, e.2)] else [] := by
  unfold continuing
  rw [List.filter_append, List.map_append, List.filter_singleton]
  by_cases hp : p <+: e.1
  · rw [decide_eq_true hp, if_pos hp]
    rfl
  · rw [decide_eq_false hp, if_neg hp]
    rfl

/-- What is found below the root at a path is the trie of the pairs that continue the path. -/
theorem get?_ofPairs (hp : p ≠ []) (pairs : List (List K × V)) :
    (ofPairs pairs).get? p =
      if continuing p pairs = [] then none else some (ofPairs (continuing p pairs)) := by
  induction pairs using List.reverseRecOn with
  | nil =>
    rw [ofPairs, List.foldl_nil, get?_empty, if_neg hp]
    rfl
  | append_singleton pairs e ih =>
    rw [ofPairs_concat, get?_insert (ordered_ofPairs pairs), ih, continuing_concat]
    by_cases he : p <+: e.1
    · have hne : continuing p pairs ++ [(e.1.drop p.length, e.2)] ≠ [] :=
        List.append_ne_nil_of_right_ne_nil _ (List.cons_ne_nil _ _)
      rw [if_pos he, if_pos he, if_neg hne, ofPairs_concat]
      by_cases hnil : continuing p pairs = []
      · rw [if_pos hnil, hnil]
        rfl
      · rw [if_neg hnil]
        rfl
    · rw [if_neg he, if_neg he, List.append_nil]

/-- The tries below the root are those of the pairs that continue a path, where there are any. -/
theorem mem_descendants_ofPairs : (p, sub) ∈ (ofPairs pairs).descendants ↔
    p ≠ [] ∧ continuing p pairs ≠ [] ∧ sub = ofPairs (continuing p pairs) := by
  rw [mem_descendants (ordered_ofPairs pairs)]
  refine and_congr_right fun hp => ?_
  rw [get?_ofPairs hp]
  split
  · next hnil => simp [hnil]
  · next hne => simp [hne, eq_comm]

theorem mem_continuing : (path, v) ∈ continuing p pairs ↔ (p ++ path, v) ∈ pairs := by
  unfold continuing
  rw [List.mem_map]
  constructor
  · rintro ⟨⟨q, w⟩, he, heq⟩
    obtain ⟨he, hp⟩ := List.mem_filter.mp he
    obtain ⟨rest, rfl⟩ := of_decide_eq_true hp
    obtain ⟨hrest, rfl⟩ := Prod.mk.inj heq
    rwa [← hrest, List.drop_left]
  · intro he
    refine ⟨(p ++ path, v), List.mem_filter.mpr ⟨he, decide_eq_true (List.prefix_append _ _)⟩, ?_⟩
    rw [List.drop_left]

theorem continuing_ne_nil : continuing p pairs ≠ [] ↔ ∃ e ∈ pairs, p <+: e.1 := by
  unfold continuing
  rw [Ne, List.map_eq_nil_iff, List.filter_eq_nil_iff]
  simp

end Trie
