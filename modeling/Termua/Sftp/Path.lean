import Mathlib
import Termua.Lib.Text

/-!
# Remote paths

`gpui_sftp/src/view/path.rs` and what it uses of `Utf8Path`: a path is a text whose components stand
between slashes; empty components do not count, nor do `.` components but at the start of a relative
path. `joinRemote` makes the ids of the entries of a directory, and an id made so is deeper than the
directory's (`depth_lt_joinRemote`).
-/

namespace Termua.Sftp

/-- A remote path, which is also the id of a node. -/
abbrev Path := List Char

/-- A component that does not count. -/
def blank (c : Path) : Bool := c = [] ∨ c = ['.']

/-- The components of a path, with the first one of a relative path kept where it is `.`. -/
def components (p : Path) : List Path :=
  match p.splitOn '/' with
  | [] => []
  | first :: rest =>
    let rest := rest.filter fun c => !blank c
    if first = [] then rest else first :: rest

/-- `Utf8Path::file_name`. -/
def fileName (p : Path) : Option Path :=
  match (components p).getLast? with
  | some c => if c = ['.'] ∨ c = ['.', '.'] then none else some c
  | none => none

/-- The path up to its last component that counts. -/
def trimPath (p : Path) : Path :=
  match p.splitOn '/' with
  | [] => []
  | first :: rest =>
    let rest := rest.rdropWhile blank
    if first = [] ∧ rest = [] ∧ p ≠ [] then ['/'] else ['/'].intercalate (first :: rest)

/-- `Utf8Path::parent`. -/
def parentDir (p : Path) : Option Path :=
  if components p = [] then none
  else
    match (trimPath p).splitOn '/' with
    | first :: rest =>
      if rest = [] then some []
      else
        let rest := rest.dropLast.rdropWhile blank
        if first = [] ∧ rest = [] then some ['/'] else some (['/'].intercalate (first :: rest))
    | [] => none

/-- `join_remote`. -/
def joinRemote (parent name : Path) : Path :=
  if parent = ['/'] then '/' :: name
  else
    let parent := parent.rdropWhile (· = '/')
    if parent = [] ∨ parent = ['.'] then name else parent ++ '/' :: name

/-- `display_name_for_dir`. -/
def displayNameForDir (path : Path) : Path :=
  let path := Text.trim path
  if path = [] ∨ path = ['.'] then ['.']
  else if path = ['/'] then ['/']
  else
    let parts := ((path.rdropWhile (· = '/')).splitOn '/').filter (· ≠ [])
    parts.getLast?.getD (if path.head? = some '/' then ['/'] else ['.'])

/-- `is_hidden_name`. -/
def isHiddenName (name : Path) : Bool :=
  name.head? = some '.' ∧ name ≠ ['.'] ∧ name ≠ ['.', '.']

example : fileName "/home/u/a.txt".toList = some "a.txt".toList := by decide +kernel

example : parentDir "/home/u".toList = some "/home".toList := by decide +kernel

/-! ## The depth of a path -/

/-- The depth of a directory in the order of `joinRemote`. -/
def depth (p : Path) : ℕ :=
  if p = ['/'] then 1
  else if p.rdropWhile (· = '/') = ['.'] then 0
  else (p.rdropWhile (· = '/')).length

/-- A name of an entry in a directory. -/
structure IsName (name : Path) : Prop where
  nonempty : name ≠ []
  slash : '/' ∉ name
  dot : name ≠ ['.']

theorem isName_of_fileName {p name : Path} (h : fileName p = some name) : IsName name := by
  unfold fileName at h
  split at h
  · next c hlast =>
    split at h
    · cases h
    · next hdots =>
      obtain rfl := Option.some.inj h
      rw [not_or] at hdots
      have hmem := List.mem_of_getLast? hlast
      unfold components at hmem
      rcases hsplit : p.splitOn '/' with _ | ⟨first, rest⟩
      · rw [hsplit] at hmem
        cases hmem
      · simp only [hsplit] at hmem
        have hrest : c ∈ rest.filter (fun c => !blank c) → c ≠ [] ∧ c ∈ first :: rest := by
          intro hc
          obtain ⟨hc, hblank⟩ := List.mem_filter.mp hc
          refine ⟨?_, List.mem_cons_of_mem _ hc⟩
          rintro rfl
          simp [blank] at hblank
        have hc : c ≠ [] ∧ c ∈ first :: rest := by
          split at hmem
          · exact hrest hmem
          · next hfirst =>
            rcases List.mem_cons.mp hmem with rfl | hmem
            · exact ⟨hfirst, List.mem_cons_self⟩
            · exact hrest hmem
        exact ⟨hc.1, Text.notMem_of_mem_splitOn (hsplit ▸ hc.2), hdots.1⟩
  · cases h

/-- Slashes at the end of a path are dropped up to the name. -/
theorem rdropWhile_slash_append {p name : Path} (h : IsName name) :
    (p ++ name).rdropWhile (· = '/') = p ++ name := by
  obtain ⟨init, c, rfl⟩ := List.eq_nil_or_concat name |>.resolve_left h.nonempty
  have hc : c ≠ '/' := fun hc => h.slash (by simp [hc])
  rw [List.concat_eq_append, ← List.append_assoc,
    List.rdropWhile_concat_neg _ _ _ (by simpa using hc)]

/-- The depth of a path that ends in a name. -/
theorem depth_append {p name : Path} (h : IsName name) (hdot : p ++ name ≠ ['.']) :
    depth (p ++ name) = p.length + name.length := by
  have hslash : p ++ name ≠ ['/'] := by
    intro heq
    have hlast : name.getLast? = some '/' := by
      rw [← List.getLast?_append_of_ne_nil p h.nonempty, heq]
      rfl
    exact h.slash (List.mem_of_getLast? hlast)
  unfold depth
  rw [if_neg hslash, rdropWhile_slash_append h, if_neg hdot, List.length_append]

/-- An entry is deeper than its directory. -/
theorem depth_lt_joinRemote {dir name : Path} (h : IsName name) :
    depth dir < depth (joinRemote dir name) := by
  have hlength := List.length_pos_of_ne_nil h.nonempty
  have hname : depth name = name.length := by
    have happend := depth_append (p := []) h h.dot
    rwa [List.length_nil, Nat.zero_add] at happend
  unfold joinRemote
  -- the three ways to join: to the root, to nothing or `.`, and with a slash
  split
  · next hroot =>
    subst hroot
    have hcons : depth (['/'] ++ name) = 1 + name.length :=
      depth_append h fun heq => by simp [h.nonempty] at heq
    show 1 < depth (['/'] ++ name)
    omega
  · next hroot =>
    simp only
    generalize htrim : dir.rdropWhile (· = '/') = trimmed
    have hdir : depth dir = if trimmed = ['.'] then 0 else trimmed.length := by
      unfold depth
      rw [if_neg hroot, htrim]
    rw [hdir]
    by_cases hblank : trimmed = [] ∨ trimmed = ['.']
    · rw [if_pos hblank, hname]
      rcases hblank with rfl | rfl
      · simpa using hlength
      · simpa using hlength
    · rw [if_neg hblank]
      rw [not_or] at hblank
      rw [if_neg hblank.2]
      have happend : depth ((trimmed ++ ['/']) ++ name) = (trimmed ++ ['/']).length + name.length :=
        depth_append h fun heq => by
          have hle := congrArg List.length heq
          simp at hle
          omega
      rw [List.append_assoc] at happend
      show trimmed.length < depth (trimmed ++ (['/'] ++ name))
      rw [happend, List.length_append]
      omega

/-! ## The parent of a joined path -/

/-- The last component of a path as it is written. -/
def lastComponent (p : Path) : Option Path := (p.splitOn '/').getLast?

/-- A directory is spelled as the entries that are joined to it spell their parent: it is the root or
it does not end in a slash or in the component `.`. The empty path is no exception to the rule either,
for the entries joined to it are bare names. -/
def Spelled (dir : Path) : Prop :=
  dir = ['/'] ∨ dir = [] ∨ ∀ c, lastComponent dir = some c → blank c = false

theorem IsName.not_blank {name : Path} (h : IsName name) : blank name = false := by
  unfold blank
  exact decide_eq_false fun hblank => hblank.elim h.nonempty h.dot

theorem IsName.splitOn {name : Path} (h : IsName name) : name.splitOn '/' = [name] :=
  List.splitOn_eq_singleton h.slash

theorem splitOn_append_name {p name : Path} (h : IsName name) :
    (p ++ '/' :: name).splitOn '/' = p.splitOn '/' ++ [name] := by
  rw [List.splitOn_append_cons_self, h.splitOn]

theorem rdropWhile_blank_append (rest : List Path) {c : Path} (h : blank c = false) :
    (rest ++ [c]).rdropWhile blank = rest ++ [c] :=
  List.rdropWhile_concat_neg _ _ _ (by simp [h])

/-- A path that ends in a name has nothing to trim. -/
theorem trimPath_append_name {p name : Path} (h : IsName name) :
    trimPath (p ++ '/' :: name) = p ++ '/' :: name := by
  obtain ⟨first, rest, hsplit⟩ := List.exists_cons_of_ne_nil (List.splitOn_ne_nil '/' p)
  have hjoin : ['/'].intercalate ((p ++ '/' :: name).splitOn '/') = p ++ '/' :: name :=
    List.intercalate_splitOn '/'
  rw [splitOn_append_name h, hsplit, List.cons_append] at hjoin
  unfold trimPath
  rw [splitOn_append_name h, hsplit, List.cons_append]
  simp only [rdropWhile_blank_append rest h.not_blank]
  rw [if_neg (by simp), hjoin]

/-- The parent of a path that ends in a name is what stands before the name, trimmed. -/
theorem parentDir_append_name {p name : Path} (h : IsName name) :
    parentDir (p ++ '/' :: name) = some (trimPath (p ++ ['/'])) := by
  obtain ⟨first, rest, hsplit⟩ := List.exists_cons_of_ne_nil (List.splitOn_ne_nil '/' p)
  have hcomponents : components (p ++ '/' :: name) ≠ [] := by
    have hmem : name ∈ (rest ++ [name]).filter fun c => !blank c :=
      List.mem_filter.mpr ⟨by simp, by simp [h.not_blank]⟩
    unfold components
    rw [splitOn_append_name h, hsplit, List.cons_append]
    simp only
    split
    · exact List.ne_nil_of_mem hmem
    · exact List.cons_ne_nil _ _
  have hslash : (p ++ ['/']).splitOn '/' = first :: (rest ++ [[]]) := by
    rw [List.splitOn_append_cons_self, hsplit, List.splitOn_nil, List.cons_append]
  unfold parentDir
  rw [if_neg hcomponents, trimPath_append_name h, splitOn_append_name h, hsplit, List.cons_append]
  unfold trimPath
  rw [hslash]
  simp only [List.dropLast_concat]
  rw [if_neg (by simp), List.rdropWhile_concat_pos _ _ _ (by decide)]
  split
  · next hroot => rw [if_pos ⟨hroot.1, hroot.2, by simp⟩]
  · next hroot => rw [if_neg fun hand => hroot ⟨hand.1, hand.2.1⟩]

theorem IsName.parentDir {name : Path} (h : IsName name) : parentDir name = some [] := by
  have hcomponents : components name ≠ [] := by
    unfold components
    rw [h.splitOn]
    simp [h.nonempty]
  have htrim : trimPath name = name := by
    unfold trimPath
    rw [h.splitOn]
    simp [h.nonempty]
  unfold Sftp.parentDir
  rw [if_neg hcomponents, htrim, h.splitOn]
  simp

/-- What is trimmed ends in a component that counts, or is one component. -/
theorem splitOn_trimPath_slash {p first : Path} {rest : List Path} (h : p.splitOn '/' = first :: rest) :
    (first = [] ∧ rest.rdropWhile blank = []) ∧ trimPath (p ++ ['/']) = ['/'] ∨
      trimPath (p ++ ['/']) = ['/'].intercalate (first :: rest.rdropWhile blank) ∧
        (trimPath (p ++ ['/'])).splitOn '/' = first :: rest.rdropWhile blank := by
  have hslash : (p ++ ['/']).splitOn '/' = first :: (rest ++ [[]]) := by
    rw [List.splitOn_append_cons_self, h, List.splitOn_nil, List.cons_append]
  unfold trimPath
  rw [hslash]
  simp only
  rw [List.rdropWhile_concat_pos _ _ _ (by decide)]
  split
  · next hroot => exact .inl ⟨⟨hroot.1, hroot.2.1⟩, rfl⟩
  · refine .inr ⟨rfl, List.splitOn_intercalate '/' (fun c hc => ?_) (List.cons_ne_nil _ _)⟩
    have hmem : c ∈ p.splitOn '/' := by
      rw [h]
      rcases List.mem_cons.mp hc with rfl | hc
      · exact List.mem_cons_self
      · exact List.mem_cons_of_mem _ ((List.rdropWhile_prefix blank rest).subset hc)
    exact Text.notMem_of_mem_splitOn hmem

/-- A directory whose last component counts has no slash to drop and nothing to trim. -/
theorem trimPath_of_lastComponent {dir : Path}
    (h : ∀ c, lastComponent dir = some c → blank c = false) :
    dir.rdropWhile (· = '/') = dir ∧ trimPath (dir ++ ['/']) = dir := by
  unfold lastComponent at h
  constructor
  · refine List.rdropWhile_eq_self_iff.mpr fun hne hlast => ?_
    have hslash : dir.dropLast ++ ['/'] = dir := by
      rw [← of_decide_eq_true hlast]
      exact List.dropLast_append_getLast hne
    have hsplit : dir.splitOn '/' = dir.dropLast.splitOn '/' ++ [[]] := by
      rw [← List.splitOn_nil '/', ← List.splitOn_append_cons_self, hslash]
    have hblank := h [] (by rw [hsplit, List.getLast?_concat])
    exact absurd hblank (by decide)
  · obtain ⟨first, rest, hsplit⟩ := List.exists_cons_of_ne_nil (List.splitOn_ne_nil '/' dir)
    have hrest : rest.rdropWhile blank = rest := by
      refine List.rdropWhile_eq_self_iff.mpr fun hne => ?_
      rw [h (rest.getLast hne) (by
        rw [hsplit, List.getLast?_cons_of_ne_nil hne, List.getLast?_eq_some_getLast hne])]
      exact Bool.false_ne_true
    have hjoin : ['/'].intercalate (dir.splitOn '/') = dir := List.intercalate_splitOn '/'
    rw [hsplit] at hjoin
    rcases splitOn_trimPath_slash hsplit with ⟨⟨rfl, hnil⟩, -⟩ | ⟨htrim, -⟩
    · -- the path is empty, and its only component does not count
      obtain rfl : rest = [] := hrest ▸ hnil
      exact absurd (h [] (by rw [hsplit, List.getLast?_singleton])) (by decide)
    · rw [htrim, hrest, hjoin]

/-- The parent of an entry is the directory that it was joined to exactly when the directory is
spelled so. -/
theorem parentDir_joinRemote_iff {dir name : Path} (h : IsName name) :
    parentDir (joinRemote dir name) = some dir ↔ Spelled dir := by
  unfold joinRemote
  split
  · next hroot =>
    subst hroot
    have hparent : parentDir ([] ++ '/' :: name) = some (trimPath ([] ++ ['/'])) :=
      parentDir_append_name h
    exact ⟨fun _ => .inl rfl, fun _ => hparent⟩
  · next hroot =>
    simp only
    split
    · next htrim =>
      rw [h.parentDir]
      constructor
      · intro heq
        exact .inr (.inl (Option.some.inj heq).symm)
      · rintro (hdir | rfl | hlast)
        · exact absurd hdir hroot
        · rfl
        · rw [(trimPath_of_lastComponent hlast).1] at htrim
          rcases htrim with rfl | rfl
          · rfl
          · exact absurd (hlast ['.'] rfl) (by decide)
    · next htrim =>
      rw [parentDir_append_name h, Option.some.injEq]
      obtain ⟨first, rest, hsplit⟩ :=
        List.exists_cons_of_ne_nil (List.splitOn_ne_nil '/' (dir.rdropWhile (· = '/')))
      constructor
      · intro hdir
        rcases splitOn_trimPath_slash hsplit with ⟨-, hslash⟩ | ⟨hjoin, hcomponents⟩
        · exact absurd (hdir.symm.trans hslash) hroot
        · rw [hdir] at hjoin hcomponents
          refine .inr (.inr fun c hc => ?_)
          unfold lastComponent at hc
          rw [hcomponents] at hc
          rcases hrest : rest.rdropWhile blank with _ | ⟨second, others⟩
          · -- the one component is neither empty nor a dot, for it is what was joined
            rw [hrest, List.getLast?_singleton] at hc
            obtain rfl := Option.some.inj hc
            rw [hrest, List.intercalate_singleton] at hjoin
            subst hjoin
            refine decide_eq_false fun hblank => htrim ?_
            rcases hblank with rfl | rfl
            · exact .inl rfl
            · exact .inr rfl
          · have hne : rest.rdropWhile blank ≠ [] := hrest ▸ List.cons_ne_nil _ _
            rw [List.getLast?_cons_of_ne_nil hne, List.getLast?_eq_some_getLast hne] at hc
            rw [← Option.some.inj hc]
            exact Bool.eq_false_of_not_eq_true (List.rdropWhile_last_not blank rest hne)
      · rintro (hdir | rfl | hlast)
        · exact absurd hdir hroot
        · exact absurd (.inl rfl) htrim
        · rw [(trimPath_of_lastComponent hlast).1, (trimPath_of_lastComponent hlast).2]

theorem lastComponent_joinRemote {dir name : Path} (h : IsName name) :
    lastComponent (joinRemote dir name) = some name := by
  unfold lastComponent joinRemote
  split
  · show (([] ++ '/' :: name).splitOn '/').getLast? = some name
    rw [splitOn_append_name h, List.getLast?_concat]
  · simp only
    split
    · rw [h.splitOn, List.getLast?_singleton]
    · rw [splitOn_append_name h, List.getLast?_concat]

/-- The last component of a path that was joined counts. -/
theorem not_blank_joinRemote {dir name c : Path} (h : IsName name)
    (hc : lastComponent (joinRemote dir name) = some c) : blank c = false := by
  rw [← Option.some.inj ((lastComponent_joinRemote h).symm.trans hc)]
  exact h.not_blank

/-- A path that was joined is spelled so. -/
theorem spelled_joinRemote {dir name : Path} (h : IsName name) : Spelled (joinRemote dir name) :=
  .inr (.inr fun _ hc => not_blank_joinRemote h hc)

end Termua.Sftp
