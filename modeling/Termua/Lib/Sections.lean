import Mathlib

/-!
# Files with sections

A configuration file is a sequence of headers and entries. A header begins a section, and the entries before
the first header are a section of their own. A reader that goes through the file once builds the sections
one after the other (`foldl_push`) and, for each, a table from keys to values (`table`); where entries of one
key do not combine, what it finds in the first section that applies and has the key is the first entry of the
file that counts (`lookup_eq_first`).
-/

namespace Sections

variable {H K V : Type*}

/-- A line of a file. -/
inductive Line (H K V : Type*) where
  | header (h : H)
  | entry (k : K) (v : V)

/-- The sections of a file whose lines up to the first header belong to `scope`. -/
def sections (scope : Option H) : List (Line H K V) → List (Option H × List (K × V))
  | [] => [(scope, [])]
  | .header h :: rest => (scope, []) :: sections (some h) rest
  | .entry k v :: rest => (sections scope rest).modifyHead fun s => (s.1, (k, v) :: s.2)

/-- What a reader does with a line: it begins a section or adds to the last one. -/
def push (done : List (Option H × List (K × V))) : Line H K V → List (Option H × List (K × V))
  | .header h => done ++ [(some h, [])]
  | .entry k v => done.modifyLast fun s => (s.1, s.2 ++ [(k, v)])

/-- Reading line by line gives the sections. -/
theorem foldl_push_append (lines : List (Line H K V)) (done : List (Option H × List (K × V)))
    (scope : Option H) (entries : List (K × V)) :
    lines.foldl push (done ++ [(scope, entries)]) =
      done ++ (sections scope lines).modifyHead fun s => (s.1, entries ++ s.2) := by
  induction lines generalizing done scope entries with
  | nil =>
    show _ = done ++ [(scope, entries ++ [])]
    rw [List.append_nil]
    rfl
  | cons line lines ih =>
    cases line with
    | header h =>
      show lines.foldl push ((done ++ [(scope, entries)]) ++ [(some h, [])]) = _
      rw [ih]
      show _ = done ++ (scope, entries ++ []) :: sections (some h) lines
      rw [List.append_nil, List.append_assoc]
      congr 2
      rcases sections (some h) lines with _ | ⟨s, rest⟩ <;> rfl
    | entry k v =>
      show lines.foldl push ((done ++ [(scope, entries)]).modifyLast _) = _
      rw [List.modifyLast_concat, ih]
      show _ = done ++ ((sections scope lines).modifyHead _).modifyHead _
      rw [List.modifyHead_modifyHead]
      congr 2
      funext s
      show (s.1, entries ++ [(k, v)] ++ s.2) = (s.1, entries ++ (k, v) :: s.2)
      rw [List.append_assoc]
      rfl

theorem foldl_push (lines : List (Line H K V)) :
    lines.foldl push [(none, [])] = sections none lines := by
  have h := foldl_push_append lines [] none []
  rw [List.nil_append, List.nil_append] at h
  rw [h]
  rcases sections none lines with _ | ⟨s, rest⟩ <;> rfl

/-! ## Tables -/

variable [DecidableEq K] {k : K}

/-- The values of a key among entries, in their order. -/
def values (k : K) (entries : List (K × V)) : List V :=
  entries.filterMap fun e => if e.1 = k then some e.2 else none

/-- The table of entries, where `add` combines a value with the one that is there. -/
def table (add : K → Option V → V → V) (entries : List (K × V)) : K → Option V :=
  entries.foldl (fun m e => Function.update m e.1 (some (add e.1 (m e.1) e.2))) fun _ => none

theorem table_concat (add : K → Option V → V → V) (entries : List (K × V)) (e : K × V) :
    table add (entries ++ [e]) =
      Function.update (table add entries) e.1 (some (add e.1 (table add entries e.1) e.2)) :=
  List.foldl_concat ..

/-- Each key has its values combined. -/
theorem table_eq (add : K → Option V → V → V) (entries : List (K × V)) :
    table add entries k = (values k entries).foldl (fun o v => some (add k o v)) none := by
  induction entries using List.reverseRecOn with
  | nil => rfl
  | append_singleton entries e ih =>
    -- the last entry is the last value of its key
    unfold values at ih ⊢
    rw [table_concat, List.filterMap_append, List.foldl_append, Function.update_apply, ← ih]
    by_cases hk : e.1 = k
    · subst hk
      simp
    · rw [if_neg (Ne.symm hk)]
      simp [hk]

/-- Where the first value of a key stays, the table has it. -/
theorem table_of_first {add : K → Option V → V → V} (hnone : ∀ v, add k none v = v)
    (hsome : ∀ w v, add k (some w) v = w) (entries : List (K × V)) :
    table add entries k = (values k entries).head? := by
  have hstay (w : V) (l : List V) : l.foldl (fun o v => some (add k o v)) (some w) = some w := by
    induction l with
    | nil => rfl
    | cons v l ih => rw [List.foldl_cons, hsome, ih]
  rw [table_eq]
  rcases values k entries with _ | ⟨v, rest⟩
  · rfl
  · rw [List.foldl_cons, hnone, hstay]
    rfl

/-! ## Looking up a key -/

/-- The value of a key: that of the first section that applies and has the key. -/
def lookup (applies : Option H → Bool) (add : K → Option V → V → V)
    (secs : List (Option H × List (K × V))) (k : K) : Option V :=
  secs.findSome? fun s => if applies s.1 then table add s.2 k else none

/-- The first entry of a key in a section that applies; `active` says whether the section that the lines
begin in does. -/
def first (applies : Option H → Bool) (k : K) : Bool → List (Line H K V) → Option V
  | _, [] => none
  | _, .header h :: rest => first applies k (applies (some h)) rest
  | active, .entry k' v :: rest =>
    if active ∧ k' = k then some v else first applies k active rest

/-- Where the first value of a key stays, looking it up finds the first entry that counts. -/
theorem lookup_eq_first {applies : Option H → Bool} {add : K → Option V → V → V}
    (hnone : ∀ v, add k none v = v) (hsome : ∀ w v, add k (some w) v = w) (scope : Option H)
    (lines : List (Line H K V)) :
    lookup applies add (sections scope lines) k = first applies k (applies scope) lines := by
  unfold lookup
  simp only [table_of_first hnone hsome]
  induction lines generalizing scope with
  | nil =>
    show List.findSome? _ [(scope, [])] = none
    simp [values]
  | cons line lines ih =>
    cases line with
    | header h =>
      show List.findSome? _ ((scope, []) :: sections (some h) lines) = _
      rw [List.findSome?_cons]
      simp only [values, List.filterMap_nil, List.head?_nil, ite_self]
      exact ih (some h)
    | entry k' v =>
      have hrest := ih scope
      show List.findSome? _ ((sections scope lines).modifyHead _) = _
      -- the lines begin in a section, to which the entry is added
      have hscope : ∃ es rest, sections scope lines = (scope, es) :: rest := by
        clear hrest ih
        induction lines with
        | nil => exact ⟨_, _, rfl⟩
        | cons line lines ih =>
          cases line with
          | header h => exact ⟨_, _, rfl⟩
          | entry k' v =>
            obtain ⟨es, rest, hes⟩ := ih
            exact ⟨(k', v) :: es, rest, by unfold sections; rw [hes]; rfl⟩
      obtain ⟨es, rest, hes⟩ := hscope
      rw [hes] at hrest ⊢
      show List.findSome? _ ((scope, (k', v) :: es) :: rest) = _
      rw [List.findSome?_cons] at hrest ⊢
      unfold first
      by_cases happ : applies scope
      · by_cases hk : k' = k
        · simp [happ, hk, values]
        · simpa [happ, hk, values] using hrest
      · simpa [happ] using hrest

end Sections
