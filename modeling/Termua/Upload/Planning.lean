import Mathlib
import Termua.Upload.Worker

/-!
# Planning an upload

`plan_files` of `gpui_term/src/terminal.rs`: every file gets a name that the remote directory does not
have and that no earlier file of the batch was given. The names that are tried for a file are its own
and that with a suffix counting up; one counter serves both kinds of collision. What the SFTP
connection answers about a path is a parameter.
-/

namespace Termua.Upload

/-- `LocalUploadFile`. -/
structure LocalUploadFile where
  path : String
  name : String
  size : UInt64
deriving DecidableEq, Repr

/-- What `sftp.metadata` answers; `is_not_found` tells the errors apart. -/
inductive Metadata
  | found
  | notFound
  | failed (error : String)
deriving DecidableEq, Repr

/-- `PlanError`. -/
inductive PlanError
  | tooManyCollisions (remotePath : String)
  | metadataFailed (remotePath : String) (error : String)
deriving DecidableEq, Repr

/-- A planned file with its remote path. -/
structure RemoteUploadFile extends PlannedUploadFile where
  remotePath : String
deriving DecidableEq, Repr

/-- `Utf8PathBuf::join`. -/
def join (dir name : String) : String :=
  if name.startsWith "/" then name
  else if dir.isEmpty || dir.endsWith "/" then dir ++ name
  else dir ++ "/" ++ name

/-- The name that is tried after `suffix` collisions. -/
def candidate (base : String) (suffix : ℕ) : String :=
  if suffix = 0 then base else base ++ "." ++ toString suffix

theorem candidate_injective (base : String) : Function.Injective (candidate base) := by
  have hsuffixed : ∀ k, (base ++ "." ++ toString k).toList =
      base.toList ++ '.' :: Nat.toDigits 10 k := fun k => by
    rw [String.toList_append, String.toList_append, Nat.toString_eq_repr, Nat.toList_repr,
      List.append_assoc]
    rfl
  intro m n h
  have h := congrArg String.toList h
  unfold candidate at h
  split at h <;> split at h
  · omega
  · rw [hsuffixed, List.self_eq_append_right] at h
    cases h
  · rw [hsuffixed, List.append_right_eq_self] at h
    cases h
  · rw [hsuffixed, hsuffixed, List.append_cancel_left_eq, List.cons_inj_right] at h
    calc
      m = Nat.ofDigitChars 10 (Nat.toDigits 10 m) 0 := Nat.ofDigitChars_ten_toDigits.symm
      _ = Nat.ofDigitChars 10 (Nat.toDigits 10 n) 0 := by rw [h]
      _ = n := Nat.ofDigitChars_ten_toDigits

/-- The reserved names that were not tried yet. -/
def untried (reserved : Finset String) (base : String) (suffix : ℕ) : Finset String :=
  reserved.filter fun name => ∀ k < suffix, name ≠ candidate base k

theorem untried_succ_subset (reserved : Finset String) (base : String) (suffix : ℕ) :
    untried reserved base (suffix + 1) ⊆ untried reserved base suffix :=
  fun _ hname =>
  have ⟨hmem, hname⟩ := Finset.mem_filter.mp hname
  Finset.mem_filter.mpr ⟨hmem, fun k hk => hname k (Nat.lt_succ_of_lt hk)⟩

theorem card_untried_succ_lt {reserved : Finset String} {base : String} {suffix : ℕ}
    (h : candidate base suffix ∈ reserved) :
    (untried reserved base (suffix + 1)).card < (untried reserved base suffix).card := by
  refine Finset.card_lt_card (Finset.ssubset_iff_subset_ne.mpr
    ⟨untried_succ_subset reserved base suffix, fun heq => ?_⟩)
  have hmem : candidate base suffix ∈ untried reserved base suffix :=
    Finset.mem_filter.mpr ⟨h, fun k hk heq => hk.ne (candidate_injective base heq).symm⟩
  rw [← heq] at hmem
  exact (Finset.mem_filter.mp hmem).2 suffix (Nat.lt_succ_self _) rfl

/-- The loop that finds a name for a file, with its remote path. -/
def findName (metadata : String → Metadata) (dir : String) (reserved : Finset String)
    (base : String) (suffix : ℕ) : Except PlanError (String × String) :=
  let remoteName := candidate base suffix
  if remoteName ∈ reserved then findName metadata dir reserved base (suffix + 1)
  else
    let remotePath := join dir remoteName
    match metadata remotePath with
    | .found =>
      if 999 < suffix + 1 then .error (.tooManyCollisions remotePath)
      else findName metadata dir reserved base (suffix + 1)
    | .notFound => .ok (remoteName, remotePath)
    | .failed error => .error (.metadataFailed remotePath error)
termination_by (untried reserved base suffix).card + (1000 - suffix)
decreasing_by
  · next h =>
    have := card_untried_succ_lt h
    omega
  · have := Finset.card_le_card (untried_succ_subset reserved base suffix)
    omega

/-- The loop over the files. -/
def planFrom (metadata : String → Metadata) (dir : String) (reserved : Finset String)
    (planned : List RemoteUploadFile) :
    List LocalUploadFile → Except PlanError (List RemoteUploadFile)
  | [] => .ok planned
  | file :: files => do
    let (remoteName, remotePath) ← findName metadata dir reserved file.name 0
    planFrom metadata dir (insert remoteName reserved)
      (planned ++ [⟨⟨file.path, remoteName, file.size⟩, remotePath⟩]) files

/-- `plan_files`. -/
def planFiles (metadata : String → Metadata) (dir : String) (files : List LocalUploadFile) :
    Except PlanError (List RemoteUploadFile) :=
  planFrom metadata dir ∅ [] files

variable {metadata : String → Metadata} {dir base : String} {reserved : Finset String} {suffix : ℕ}

/-- A name that cannot be taken: it is reserved, or the directory has it. -/
def Taken (metadata : String → Metadata) (dir : String) (reserved : Finset String) (name : String) :
    Prop :=
  name ∈ reserved ∨ metadata (join dir name) = .found

/-- What a name was found for: it is the first candidate from `suffix` on that is not taken. -/
structure Finds (metadata : String → Metadata) (dir : String) (reserved : Finset String)
    (base : String) (suffix : ℕ) (name remotePath : String) : Prop where
  path : remotePath = join dir name
  notReserved : name ∉ reserved
  notFound : metadata remotePath = .notFound
  first : ∃ n, suffix ≤ n ∧ name = candidate base n ∧
    ∀ k, suffix ≤ k → k < n → Taken metadata dir reserved (candidate base k)

/-- A candidate that is taken is passed over. -/
theorem Finds.of_taken {name remotePath : String}
    (htaken : Taken metadata dir reserved (candidate base suffix))
    (h : Finds metadata dir reserved base (suffix + 1) name remotePath) :
    Finds metadata dir reserved base suffix name remotePath := by
  obtain ⟨n, hn, hname, hbefore⟩ := h.first
  refine ⟨h.path, h.notReserved, h.notFound, n, by omega, hname, fun k hk hkn => ?_⟩
  rcases hk.eq_or_lt with rfl | hlt
  · exact htaken
  · exact hbefore k hlt hkn

theorem findName_of_mem (h : candidate base suffix ∈ reserved) :
    findName metadata dir reserved base suffix =
      findName metadata dir reserved base (suffix + 1) := by
  rw [findName.eq_def]
  exact if_pos h

theorem findName_of_notMem (h : candidate base suffix ∉ reserved) :
    findName metadata dir reserved base suffix =
      match metadata (join dir (candidate base suffix)) with
      | .found =>
        if 999 < suffix + 1 then .error (.tooManyCollisions (join dir (candidate base suffix)))
        else findName metadata dir reserved base (suffix + 1)
      | .notFound => .ok (candidate base suffix, join dir (candidate base suffix))
      | .failed error => .error (.metadataFailed (join dir (candidate base suffix)) error) := by
  rw [findName.eq_def]
  exact if_neg h

theorem finds_of_findName {name remotePath : String}
    (h : findName metadata dir reserved base suffix = .ok (name, remotePath)) :
    Finds metadata dir reserved base suffix name remotePath := by
  induction suffix using findName.induct metadata dir reserved base with
  | case1 suffix remoteName hreserved ih =>
    rw [findName_of_mem hreserved] at h
    exact (ih h).of_taken (.inl hreserved)
  | case2 suffix remoteName hreserved remotePath hfound hmany =>
    rw [findName_of_notMem hreserved, show metadata (join dir (candidate base suffix)) = _ from hfound]
      at h
    simp only [if_pos hmany] at h
    cases h
  | case3 suffix remoteName hreserved remotePath hfound hfew ih =>
    rw [findName_of_notMem hreserved, show metadata (join dir (candidate base suffix)) = _ from hfound]
      at h
    simp only [if_neg hfew] at h
    exact (ih h).of_taken (.inr hfound)
  | case4 suffix remoteName hreserved remotePath hnot =>
    rw [findName_of_notMem hreserved, show metadata (join dir (candidate base suffix)) = _ from hnot]
      at h
    obtain ⟨rfl, rfl⟩ := Prod.mk.inj (Except.ok.inj h)
    exact ⟨rfl, hreserved, hnot, suffix, le_rfl, rfl, fun k hk hkn => absurd hkn (by omega)⟩
  | case5 suffix remoteName hreserved remotePath error hfailed =>
    rw [findName_of_notMem hreserved,
      show metadata (join dir (candidate base suffix)) = _ from hfailed] at h
    cases h

/-! ## Plans -/

/-- The names that a plan reserves. -/
def reservedBy (planned : List RemoteUploadFile) : Finset String :=
  (planned.map fun f => f.remoteName).toFinset

/-- A plan of the first files: every file has a name of its own, the first of its candidates that was
not taken when its turn came. -/
structure Plans (metadata : String → Metadata) (dir : String) (files : List LocalUploadFile)
    (planned : List RemoteUploadFile) : Prop where
  order : planned.map (fun f => (f.path, f.size)) = files.map fun f => (f.path, f.size)
  distinct : (planned.map fun f => f.remoteName).Nodup
  finds : ∀ i file f, files[i]? = some file → planned[i]? = some f →
    Finds metadata dir (reservedBy (planned.take i)) file.name 0 f.remoteName f.remotePath

variable {files done : List LocalUploadFile} {planned planned' : List RemoteUploadFile}

theorem Plans.nil : Plans metadata dir [] [] where
  order := rfl
  distinct := List.nodup_nil
  finds _ _ _ h := nomatch h

theorem Plans.length (h : Plans metadata dir files planned) : planned.length = files.length := by
  simpa using congrArg List.length h.order

/-- One more file is planned. -/
theorem Plans.concat {file : LocalUploadFile} {name remotePath : String}
    (h : Plans metadata dir files planned)
    (hfinds : Finds metadata dir (reservedBy planned) file.name 0 name remotePath) :
    Plans metadata dir (files ++ [file])
      (planned ++ [⟨⟨file.path, name, file.size⟩, remotePath⟩]) where
  order := by
    rw [List.map_append, List.map_append, h.order]
    rfl
  distinct := by
    have hnew : name ∉ planned.map fun f => f.remoteName := fun hmem =>
      hfinds.notReserved (List.mem_toFinset.mpr hmem)
    rw [List.map_append, List.map_singleton, ← List.concat_eq_append]
    exact h.distinct.concat hnew
  finds i file' f hfile hf := by
    have hlength := h.length
    rcases Nat.lt_trichotomy i files.length with hlt | rfl | hgt
    · rw [List.getElem?_append_left hlt] at hfile
      rw [List.getElem?_append_left (by omega)] at hf
      rw [List.take_append_of_le_length (by omega)]
      exact h.finds i file' f hfile hf
    · rw [List.getElem?_concat_length] at hfile
      rw [← hlength, List.getElem?_concat_length] at hf
      obtain rfl := Option.some.inj hfile
      obtain rfl := Option.some.inj hf
      rw [← hlength, List.take_left]
      exact hfinds
    · rw [List.getElem?_eq_none (by simpa using hgt)] at hfile
      cases hfile

theorem plans_of_planFrom (hdone : Plans metadata dir done planned)
    (h : planFrom metadata dir (reservedBy planned) planned files = .ok planned') :
    Plans metadata dir (done ++ files) planned' := by
  induction files generalizing done planned with
  | nil =>
    obtain rfl := Except.ok.inj h
    rwa [List.append_nil]
  | cons file files ih =>
    unfold planFrom at h
    rcases hfind : findName metadata dir (reservedBy planned) file.name 0 with e | ⟨name, path⟩
    · rw [hfind] at h
      cases h
    · rw [hfind] at h
      have hnext := hdone.concat (finds_of_findName hfind)
      have hreserved : insert name (reservedBy planned) =
          reservedBy (planned ++ [⟨⟨file.path, name, file.size⟩, path⟩]) := by
        unfold reservedBy
        rw [List.map_append, List.toFinset_append, Finset.union_comm]
        rfl
      have hrest := ih hnext (hreserved ▸ h)
      rwa [List.append_assoc] at hrest

/-- A plan has one entry for each file, in order. The remote names are distinct, none of them exists
in the directory, and each is the first of the file's candidates that neither exists there nor was
given to an earlier file. -/
theorem planFiles_ok {metadata : String → Metadata} {dir : String} {files : List LocalUploadFile}
    {planned : List RemoteUploadFile} (h : planFiles metadata dir files = .ok planned) :
    planned.map (fun f => (f.path, f.size)) = files.map (fun f => (f.path, f.size)) ∧
      (planned.map fun f => f.remoteName).Nodup ∧
      ∀ i file f, files[i]? = some file → planned[i]? = some f →
        f.remotePath = join dir f.remoteName ∧ metadata f.remotePath = .notFound ∧
        ∃ n, f.remoteName = candidate file.name n ∧
          ∀ k < n, metadata (join dir (candidate file.name k)) = .found ∨
            candidate file.name k ∈ (planned.take i).map fun f => f.remoteName := by
  have hplans : Plans metadata dir ([] ++ files) planned := plans_of_planFrom .nil h
  refine ⟨hplans.order, hplans.distinct, fun i file f hfile hf => ?_⟩
  have hfinds := hplans.finds i file f hfile hf
  obtain ⟨n, -, hname, hbefore⟩ := hfinds.first
  refine ⟨hfinds.path, hfinds.notFound, n, hname, fun k hk => ?_⟩
  rcases hbefore k (Nat.zero_le k) hk with hreserved | hfound
  · exact .inr (List.mem_toFinset.mp hreserved)
  · exact .inl hfound

/-- A directory that has `a`. -/
def directoryWithA : String → Metadata := fun path => if path = "/d/a" then .found else .notFound

/-- `a`, `a.1` and `a` into a directory that has `a`: the first takes the name of the second, and the
last meets both. -/
def collidingFiles : List LocalUploadFile :=
  [⟨"/x/a", "a", 1⟩, ⟨"/x/a.1", "a.1", 2⟩, ⟨"/y/a", "a", 3⟩]

def collidingPlan : List RemoteUploadFile :=
  [⟨⟨"/x/a", "a.1", 1⟩, "/d/a.1"⟩, ⟨⟨"/x/a.1", "a.1.1", 2⟩, "/d/a.1.1"⟩,
    ⟨⟨"/y/a", "a.2", 3⟩, "/d/a.2"⟩]

theorem planFiles_ok_colliding :
    collidingPlan.map (fun f => (f.path, f.size)) = collidingFiles.map (fun f => (f.path, f.size)) ∧
      (collidingPlan.map fun f => f.remoteName).Nodup ∧
      ∀ i file f, collidingFiles[i]? = some file → collidingPlan[i]? = some f →
        f.remotePath = join "/d" f.remoteName ∧ directoryWithA f.remotePath = .notFound ∧
        ∃ n, f.remoteName = candidate file.name n ∧
          ∀ k < n, directoryWithA (join "/d" (candidate file.name k)) = .found ∨
            candidate file.name k ∈ (collidingPlan.take i).map fun f => f.remoteName :=
  @planFiles_ok directoryWithA "/d" _ _ (by decide +kernel)

end Termua.Upload
