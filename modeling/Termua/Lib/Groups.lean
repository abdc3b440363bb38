import Mathlib

/-!
# Groups in order of arrival

Pairs of a key and a value that arrive one after the other are put into groups of one key, a new group
behind the others when the key is new (`arrive`). What comes of it is `byKey`: the keys in the order
in which they first came, each with its values in the order in which they came.
-/

namespace Groups

variable {K V : Type*} [DecidableEq K]

/-- A key with the values that have come with it. -/
structure Group (K V : Type*) where
  key : K
  members : List V
  deriving DecidableEq, Repr

/-- The elements of a list in the order in which they first come. -/
def firsts (l : List K) : List K := l.reverse.dedup.reverse

/-- A value comes with a key. -/
def arrive (key : K) (value : V) : List (Group K V) → List (Group K V)
  | [] => [⟨key, [value]⟩]
  | g :: groups =>
    if g.key = key then { g with members := g.members ++ [value] } :: groups
    else g :: arrive key value groups

/-- The values that have come with a key. -/
def membersOf (pairs : List (K × V)) (key : K) : List V :=
  (pairs.filter fun p => p.1 = key).map Prod.snd

/-- The groups of pairs that have come. -/
def byKey (pairs : List (K × V)) : List (Group K V) :=
  (firsts (pairs.map Prod.fst)).map fun key => ⟨key, membersOf pairs key⟩

variable {l keys : List K} {pairs : List (K × V)} {key : K} {value : V}

theorem mem_firsts : key ∈ firsts l ↔ key ∈ l := by
  unfold firsts
  rw [List.mem_reverse, List.mem_dedup, List.mem_reverse]

theorem nodup_firsts : (firsts l).Nodup := List.nodup_reverse.mpr (List.nodup_dedup _)

theorem firsts_concat (l : List K) (key : K) :
    firsts (l ++ [key]) = if key ∈ l then firsts l else firsts l ++ [key] := by
  unfold firsts
  rw [List.reverse_append, List.reverse_singleton, List.singleton_append]
  split
  · next hmem => rw [List.dedup_cons_of_mem (List.mem_reverse.mpr hmem)]
  · next hmem =>
    rw [List.dedup_cons_of_notMem (mt List.mem_reverse.mp hmem), List.reverse_cons]

theorem membersOf_concat_self (pairs : List (K × V)) (key : K) (value : V) :
    membersOf (pairs ++ [(key, value)]) key = membersOf pairs key ++ [value] := by
  unfold membersOf
  simp

theorem membersOf_concat_of_ne (pairs : List (K × V)) (value : V) {other : K} (h : other ≠ key) :
    membersOf (pairs ++ [(key, value)]) other = membersOf pairs other := by
  unfold membersOf
  simp [h.symm]

theorem membersOf_eq_nil (h : key ∉ pairs.map Prod.fst) : membersOf pairs key = [] := by
  unfold membersOf
  rw [List.map_eq_nil_iff, List.filter_eq_nil_iff]
  intro p hp hkey
  exact h (of_decide_eq_true hkey ▸ List.mem_map_of_mem hp)

/-- A value that comes with a key that no group has. -/
theorem arrive_of_notMem {members : K → List V} (h : key ∉ keys) :
    arrive key value (keys.map fun k => ⟨k, members k⟩) =
      (keys.map fun k => ⟨k, members k⟩) ++ [⟨key, [value]⟩] := by
  induction keys with
  | nil => rfl
  | cons k keys ih =>
    rw [List.mem_cons, not_or] at h
    rw [List.map_cons]
    unfold arrive
    rw [if_neg (Ne.symm h.1), ih h.2, List.cons_append]

/-- A value that comes with the key of a group. -/
theorem arrive_of_mem {members members' : K → List V} (hnodup : keys.Nodup) (h : key ∈ keys)
    (hself : members' key = members key ++ [value]) (hother : ∀ k, k ≠ key → members' k = members k) :
    arrive key value (keys.map fun k => ⟨k, members k⟩) = keys.map fun k => ⟨k, members' k⟩ := by
  induction keys with
  | nil => cases h
  | cons k keys ih =>
    obtain ⟨hk, hnodup⟩ := List.nodup_cons.mp hnodup
    rw [List.map_cons, List.map_cons]
    unfold arrive
    by_cases heq : k = key
    · subst heq
      rw [if_pos rfl, hself]
      refine congrArg _ (List.map_congr_left fun k' hk' => ?_)
      rw [hother k' fun heq => hk (heq ▸ hk')]
    · rw [if_neg heq, hother k heq, ih hnodup ((List.mem_cons.mp h).resolve_left (Ne.symm heq))]

/-- The groups after one more pair has come. -/
theorem arrive_byKey (pairs : List (K × V)) (key : K) (value : V) :
    arrive key value (byKey pairs) = byKey (pairs ++ [(key, value)]) := by
  have hother : ∀ k, k ≠ key → membersOf (pairs ++ [(key, value)]) k = membersOf pairs k :=
    fun k hk => membersOf_concat_of_ne pairs value hk
  unfold byKey
  rw [List.map_append, List.map_singleton, firsts_concat]
  split
  · next hmem =>
    exact arrive_of_mem nodup_firsts (mem_firsts.mpr hmem) (membersOf_concat_self pairs key value) hother
  · next hmem =>
    rw [arrive_of_notMem (mt mem_firsts.mp hmem), List.map_append, List.map_singleton,
      membersOf_concat_self, membersOf_eq_nil hmem, List.nil_append]
    refine congrArg (· ++ _) (List.map_congr_left fun k hk => ?_)
    rw [hother k fun heq => hmem (heq ▸ mem_firsts.mp hk)]

/-- No group is empty. -/
theorem members_ne_nil {g : Group K V} (h : g ∈ byKey pairs) : g.members ≠ [] := by
  obtain ⟨key, hkey, rfl⟩ := List.mem_map.mp h
  obtain ⟨p, hp, rfl⟩ := List.mem_map.mp (mem_firsts.mp hkey)
  refine List.ne_nil_of_mem (List.mem_map_of_mem (a := p) ?_)
  exact List.mem_filter.mpr ⟨hp, decide_eq_true rfl⟩

/-- The pairs that groups hold. -/
def toPairs (groups : List (Group K V)) : List (K × V) :=
  groups.flatMap fun g => g.members.map fun value => (g.key, value)

theorem toPairs_arrive (key : K) (value : V) (groups : List (Group K V)) :
    (toPairs (arrive key value groups)).Perm (toPairs groups ++ [(key, value)]) := by
  induction groups with
  | nil => exact .refl _
  | cons g groups ih =>
    unfold arrive
    split
    · next hkey =>
      subst hkey
      unfold toPairs
      rw [List.flatMap_cons, List.flatMap_cons, List.map_append, List.append_assoc,
        List.append_assoc]
      exact List.perm_append_comm.append_left _
    · show (g.members.map _ ++ toPairs (arrive key value groups)).Perm
        (g.members.map _ ++ toPairs groups ++ [(key, value)])
      rw [List.append_assoc]
      exact ih.append_left _

/-- The groups hold what has come. -/
theorem toPairs_byKey (pairs : List (K × V)) : (toPairs (byKey pairs)).Perm pairs := by
  induction pairs using List.reverseRecOn with
  | nil => exact .refl _
  | append_singleton pairs p ih =>
    rw [← arrive_byKey]
    exact (toPairs_arrive p.1 p.2 _).trans (ih.append_right _)

end Groups
