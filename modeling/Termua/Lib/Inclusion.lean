import Mathlib

/-!
# Documents that include documents

The body of a document is a sequence of statements and of documents that are read in their place; it is
`none` where the document cannot be read. Reading goes down into what is included, as deep as its fuel
(`expand`). It succeeds for some fuel exactly where the inclusions end and every document that is reached can
be read (`exists_expand_iff`), and then more fuel makes no difference (`expand_mono`).
-/

namespace Inclusion

variable {D S : Type*}

/-- A part of a document. -/
inductive Item (D S : Type*) where
  | statement (s : S)
  | document (d : D)

/-- The statements of a body, where `read` reads a document. -/
def expandItems (read : D → Option (List S)) : List (Item D S) → Option (List S)
  | [] => some []
  | .statement s :: rest => (expandItems read rest).map (s :: ·)
  | .document d :: rest => (read d).bind fun inner => (expandItems read rest).map (inner ++ ·)

/-- The statements of a document and of what it includes, in their order. -/
def expand (body : D → Option (List (Item D S))) : ℕ → D → Option (List S)
  | 0, _ => none
  | n + 1, d => (body d).bind (expandItems (expand body n))

/-- The second document includes the first. -/
def Includes (body : D → Option (List (Item D S))) (inner d : D) : Prop :=
  ∃ items, body d = some items ∧ .document inner ∈ items

variable {body : D → Option (List (Item D S))} {read read' : D → Option (List S)}
  {items items' : List (Item D S)} {d : D} {n m : ℕ}

theorem expandItems_append : expandItems read (items ++ items') =
    (expandItems read items).bind fun front => (expandItems read items').map (front ++ ·) := by
  induction items with
  | nil => simp [expandItems]
  | cons item items ih =>
    cases item with
    | statement s =>
      show (expandItems read (items ++ items')).map _ = ((expandItems read items).map _).bind _
      rw [ih]
      rcases expandItems read items with _ | front <;> rcases expandItems read items' with _ | back <;> rfl
    | document d =>
      show (read d).bind (fun inner => (expandItems read (items ++ items')).map _) =
        ((read d).bind fun inner => (expandItems read items).map _).bind _
      rw [ih]
      rcases read d with _ | inner <;> rcases expandItems read items with _ | front <;>
        rcases expandItems read items' with _ | back <;> simp

/-- A body is read where every document in it is. -/
theorem isSome_expandItems : (expandItems read items).isSome ↔
    ∀ inner, .document inner ∈ items → (read inner).isSome := by
  induction items with
  | nil => simp [expandItems]
  | cons item items ih =>
    cases item with
    | statement s => simp [expandItems, ih]
    | document d =>
      unfold expandItems
      rcases hread : read d with _ | inner
      · simp [hread]
      · simp [ih, hread]

/-- What is read stays where more can be. -/
theorem expandItems_mono {l : List S} (h : ∀ inner l, read inner = some l → read' inner = some l)
    (hitems : expandItems read items = some l) : expandItems read' items = some l := by
  induction items generalizing l with
  | nil => exact hitems
  | cons item items ih =>
    cases item with
    | statement s =>
      obtain ⟨rest, hrest, rfl⟩ := Option.map_eq_some_iff.mp hitems
      exact Option.map_eq_some_iff.mpr ⟨rest, ih hrest, rfl⟩
    | document d =>
      obtain ⟨inner, hinner, hmap⟩ := Option.bind_eq_some_iff.mp hitems
      obtain ⟨rest, hrest, rfl⟩ := Option.map_eq_some_iff.mp hmap
      apply Option.bind_eq_some_iff.mpr
      exact ⟨inner, h d inner hinner, Option.map_eq_some_iff.mpr ⟨rest, ih hrest, rfl⟩⟩

theorem expand_mono {l : List S} (hle : n ≤ m) (h : expand body n d = some l) :
    expand body m d = some l := by
  induction n generalizing m d l with
  | zero => exact absurd h (by simp [expand])
  | succ n ih =>
    obtain ⟨m, rfl⟩ : ∃ m', m = m' + 1 := ⟨m - 1, by omega⟩
    obtain ⟨items, hbody, hitems⟩ := Option.bind_eq_some_iff.mp h
    apply Option.bind_eq_some_iff.mpr
    exact ⟨items, hbody, expandItems_mono (fun inner l => ih (by omega)) hitems⟩

/-- A document is read where it has a body and every document in it is read. -/
theorem isSome_expand_succ : (expand body (n + 1) d).isSome ↔
    (body d).isSome ∧ ∀ inner, Includes body inner d → (expand body n inner).isSome := by
  show ((body d).bind (expandItems (expand body n))).isSome ↔ _
  unfold Includes
  rcases hbody : body d with _ | items
  · simp
  · simp [isSome_expandItems]

/-- One fuel is enough for finitely many documents that each have one. -/
theorem exists_fuel (h : ∀ inner, .document inner ∈ items → ∃ n, (expand body n inner).isSome) :
    ∃ n, ∀ inner, .document inner ∈ items → (expand body n inner).isSome := by
  induction items with
  | nil => exact ⟨0, fun inner hinner => absurd hinner List.not_mem_nil⟩
  | cons item items ih =>
    obtain ⟨n, hn⟩ := ih fun inner hinner => h inner (List.mem_cons_of_mem _ hinner)
    have hmore {k : ℕ} (hk : n ≤ k) (inner : D) (hinner : .document inner ∈ items) :
        (expand body k inner).isSome := by
      obtain ⟨l, hl⟩ := Option.isSome_iff_exists.mp (hn inner hinner)
      exact Option.isSome_iff_exists.mpr ⟨l, expand_mono hk hl⟩
    cases item with
    | statement s =>
      refine ⟨n, fun inner hinner => ?_⟩
      rcases List.mem_cons.mp hinner with heq | hinner
      · cases heq
      · exact hn inner hinner
    | document d =>
      obtain ⟨k, hk⟩ := h d List.mem_cons_self
      refine ⟨max n k, fun inner hinner => ?_⟩
      rcases List.mem_cons.mp hinner with heq | hinner
      · obtain rfl : inner = d := by injection heq
        obtain ⟨l, hl⟩ := Option.isSome_iff_exists.mp hk
        exact Option.isSome_iff_exists.mpr ⟨l, expand_mono (le_max_right n k) hl⟩
      · exact hmore (le_max_left n k) inner hinner

/-- Reading succeeds for some fuel exactly where the inclusions end and every document that is reached can
be read. -/
theorem exists_expand_iff : (∃ n, (expand body n d).isSome) ↔
    Acc (Includes body) d ∧ ∀ d', Relation.ReflTransGen (Includes body) d' d → (body d').isSome := by
  constructor
  · rintro ⟨n, h⟩
    induction n generalizing d with
    | zero => exact absurd h (by simp [expand])
    | succ n ih =>
      obtain ⟨hbody, hinner⟩ := isSome_expand_succ.mp h
      refine ⟨Acc.intro d fun inner hinc => (ih (hinner inner hinc)).1, fun d' hreach => ?_⟩
      -- the document that is reached is the first one or reached from one that it includes
      rcases Relation.ReflTransGen.cases_tail hreach with rfl | ⟨inner, hreach, hinc⟩
      · exact hbody
      · exact (ih (hinner inner hinc)).2 d' hreach
  · rintro ⟨hacc, hall⟩
    induction hacc with
    | intro d hacc ih =>
      obtain ⟨items, hbody⟩ := Option.isSome_iff_exists.mp (hall d .refl)
      have hfuel : ∃ n, ∀ inner, .document inner ∈ items → (expand body n inner).isSome := by
        refine exists_fuel fun inner hinner => ?_
        have hinc : Includes body inner d := ⟨items, hbody, hinner⟩
        exact ih inner hinc fun d' hreach => hall d' (hreach.tail hinc)
      obtain ⟨n, hn⟩ := hfuel
      refine ⟨n + 1, isSome_expand_succ.mpr ⟨hall d .refl, fun inner hinc => ?_⟩⟩
      obtain ⟨items', hbody', hinner⟩ := hinc
      obtain rfl := Option.some.inj (hbody.symm.trans hbody')
      exact hn inner hinner

end Inclusion
