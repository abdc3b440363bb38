import Mathlib
import Termua.Lib.Inclusion
import Termua.Ssh.ConfigFile

/-!
# Reading a file with what it includes

The parser reads a file line by line and an included file where the line of the include stands. What it does
to the groups and options is what the statements do, one after the other, of the file with every include in
its place (`parseImpl_eq`). So it ends without a panic exactly where the includes come to an end and no line
that is reached panics (`parse_ends_iff`).
-/

namespace Termua.Ssh.ConfigFile

open Inclusion (Item Includes expand expandItems)

/-- What a line has the parser do: note a file, begin a group or add an option. -/
inductive Statement where
  | load (file : Text)
  | header (h : Header)
  | option (k v : Text)

/-- A file to be read: where its includes are looked for, and what it holds. -/
structure Document where
  cwd : Option Text
  text : Text

/-- What a line is part of the file for; an include stands for the files that it finds. -/
def items (p : Platform) (cwd : Option Text) : Directive → List (Item Document Statement)
  | .skip => []
  | .inclusion pattern =>
    match cwd.or p.currentDir with
    | some cwd =>
      (p.glob cwd pattern).flatMap fun file => [.statement (.load file.1), .document ⟨some cwd, file.2⟩]
    | none => []
  | .header h => [.statement (.header h)]
  | .option k v => [.statement (.option k v)]

/-- The statements and includes of a file, `none` where a line panics. -/
def body (p : Platform) (d : Document) : Option (List (Item Document Statement)) :=
  ((lines d.text).mapM (parseLine p)).map fun directives => directives.flatMap (items p d.cwd)

/-- What a statement does to what is parsed. -/
def ParsedConfigFile.apply (f : ParsedConfigFile) : Statement → ParsedConfigFile
  | .load file => { f with loadedFiles := f.loadedFiles ++ [file] }
  | .header header => { f with groups := f.groups ++ [{ header, options := fun _ => none }] }
  | .option k v => f.option k v

/-- Reading a line panics: its separator has more than one byte, or its value is a lone quote. -/
def Panics (line : Text) : Prop :=
  ∃ key sep value, Text.trim line = key ++ sep :: value ∧ (Text.trim line).head? ≠ some '#' ∧
    (∀ c ∈ key, isSeparator c = false) ∧ isSeparator sep = true ∧
    (sep.utf8Size ≠ 1 ∨ Text.trim value = ['"'])

variable {p : Platform} {fuel : ℕ} {cwd : Option Text} {text line : Text} {doc : Document}
  {f : ParsedConfigFile}

open ParsedConfigFile (parseImpl parse)

/-! ## Statements -/

/-- Included files are read one after the other. -/
theorem foldlM_files (files : List (Text × Text)) (f : ParsedConfigFile)
    (ih : ∀ text f, parseImpl p fuel cwd text f =
      (expand (body p) fuel ⟨cwd, text⟩).map fun l => l.foldl ParsedConfigFile.apply f) :
    files.foldlM (fun f file =>
      parseImpl p fuel cwd file.2 { f with loadedFiles := f.loadedFiles ++ [file.1] }) f =
      (expandItems (expand (body p) fuel)
        (files.flatMap fun file => [.statement (.load file.1), .document ⟨cwd, file.2⟩])).map
          fun l => l.foldl ParsedConfigFile.apply f := by
  induction files generalizing f with
  | nil => rfl
  | cons file files ihFiles =>
    rw [List.foldlM_cons, ih, List.flatMap_cons]
    show _ = (((expand (body p) fuel ⟨cwd, file.2⟩).bind fun inner =>
      (expandItems (expand (body p) fuel) _).map (inner ++ ·)).map (.load file.1 :: ·)).map _
    rcases expand (body p) fuel ⟨cwd, file.2⟩ with _ | inner
    · rfl
    · show files.foldlM _ _ = _
      rw [ihFiles, Option.bind_some, Option.map_map, Option.map_map]
      congr 1
      funext l
      show _ = List.foldl _ _ (_ :: (inner ++ l))
      rw [List.foldl_cons, List.foldl_append]
      rfl

/-- A line does what it stands for. -/
theorem line_eq (d : Directive) (f : ParsedConfigFile)
    (ih : ∀ cwd text f, parseImpl p fuel cwd text f =
      (expand (body p) fuel ⟨cwd, text⟩).map fun l => l.foldl ParsedConfigFile.apply f) :
    f.line (ParsedConfigFile.doInclude p (parseImpl p fuel) cwd) d =
      (expandItems (expand (body p) fuel) (items p cwd d)).map
        fun l => l.foldl ParsedConfigFile.apply f := by
  cases d with
  | skip => rfl
  | inclusion pattern =>
    unfold ParsedConfigFile.line ParsedConfigFile.doInclude items
    rcases cwd.or p.currentDir with _ | dir
    · rfl
    · exact foldlM_files _ f (ih (some dir))
  | header h => rfl
  | option k v => rfl

/-- Parsing a file does what its statements do, with those of each include in its place. -/
theorem parseImpl_eq (fuel : ℕ) (cwd : Option Text) (text : Text) (f : ParsedConfigFile) :
    parseImpl p fuel cwd text f =
      (expand (body p) fuel ⟨cwd, text⟩).map fun l => l.foldl ParsedConfigFile.apply f := by
  induction fuel generalizing cwd text f with
  | zero => rfl
  | succ fuel ih =>
    show (lines text).foldlM _ f = ((((lines text).mapM (parseLine p)).map _).bind _).map _
    -- the induction over the lines that are left carries what is parsed so far
    induction lines text generalizing f with
    | nil => rfl
    | cons line rest ihLines =>
      rw [List.foldlM_cons, List.mapM_cons]
      rcases parseLine p line with _ | d
      · rfl
      rw [Option.bind_some, line_eq d f ih]
      rcases hd : expandItems (expand (body p) fuel) (items p cwd d) with _ | front
      · -- what the line includes is not read, whatever comes behind it
        rcases rest.mapM (parseLine p) with _ | directives
        · rfl
        · simp [Inclusion.expandItems_append, hd]
      · show List.foldlM _ _ _ = _
        rw [ihLines]
        rcases rest.mapM (parseLine p) with _ | directives
        · rfl
        · simp only [Option.map_some, Option.bind_some, Option.bind_eq_bind, Option.pure_def,
            List.flatMap_cons, Inclusion.expandItems_append, hd, Option.map_map]
          congr 1
          funext l
          exact (List.foldl_append ..).symm

/-! ## Panics -/

theorem unquote_eq_none_iff {v : Text} : unquote v = none ↔ v = ['"'] := by
  unfold unquote
  constructor
  · intro h
    split at h
    · next hquotes =>
      split at h
      · next hlength =>
        obtain ⟨c, rfl⟩ := List.length_eq_one_iff.mp hlength
        obtain rfl := Option.some.inj hquotes.1
        rfl
      · cases h
    · cases h
  · rintro rfl
    rfl

/-- The lines that panic. -/
theorem parseLine_eq_none_iff : parseLine p line = none ↔ Panics line := by
  unfold parseLine Panics
  simp only
  generalize Text.trim line = line
  constructor
  · intro h
    -- two places panic: the split behind the key, and the quotes of the value
    split at h
    · cases h
    next hline =>
      rw [Bool.or_eq_true, not_or, decide_eq_true_iff] at hline
      split at h
      · cases h
      next sep value hrest =>
        have hsplit := List.takeWhile_append_dropWhile (p := fun c => !isSeparator c) (l := line)
        rw [hrest] at hsplit
        have hsep : (!isSeparator sep) = false := by
          have hne : line.dropWhile (fun c => !isSeparator c) ≠ [] := by simp [hrest]
          have hhead := List.head_dropWhile_not (fun c => !isSeparator c) hne
          simpa [hrest] using hhead
        refine ⟨_, sep, value, hsplit.symm, hline.2, fun c hc => ?_, by simpa using hsep, ?_⟩
        · simpa using List.mem_takeWhile_imp hc
        · split at h
          · next hsize => exact .inl hsize
          · rw [Option.bind_eq_bind, Option.bind_eq_none_iff] at h
            refine .inr (unquote_eq_none_iff.mp ?_)
            rcases hunquote : unquote (Text.trim value) with _ | v
            · rfl
            · cases h v hunquote
  · rintro ⟨key, sep, value, rfl, hhash, hkey, hsep, hpanic⟩
    have hdrop : (key ++ sep :: value).dropWhile (fun c => !isSeparator c) = sep :: value := by
      rw [List.dropWhile_append_of_pos fun c hc => by simp [hkey c hc],
        List.dropWhile_cons_of_neg (by simp [hsep])]
    have hline : ¬((key ++ sep :: value).isEmpty ||
        decide ((key ++ sep :: value).head? = some '#')) = true := by
      rw [Bool.or_eq_true, decide_eq_true_iff, List.isEmpty_iff]
      rintro (hempty | hcomment)
      · simp at hempty
      · exact hhash hcomment
    rw [if_neg hline, hdrop]
    show (if sep.utf8Size ≠ 1 then none else _) = none
    split
    · rfl
    · next hsize =>
      have hquote := hpanic.resolve_left hsize
      rw [unquote_eq_none_iff.mpr hquote]
      rfl

theorem isSome_body : (body p doc).isSome ↔ ∀ line ∈ lines doc.text, ¬Panics line := by
  unfold body
  rw [Option.isSome_map]
  induction lines doc.text with
  | nil => simp
  | cons line rest ih =>
    rw [List.mapM_cons, List.forall_mem_cons, ← ih, ← parseLine_eq_none_iff (p := p)]
    rcases parseLine p line with _ | d
    · simp
    · rcases rest.mapM (parseLine p) with _ | directives <;> simp

/-- Parsing a file ends without a panic exactly where its includes come to an end and no line of a file that
is reached panics. What is parsed does then not depend on how deep the parser may go. -/
theorem parse_ends_iff (p : Platform) (text : Text) (cwd sourceFile : Option Text) :
    ((∃ fuel, (parse p fuel text cwd sourceFile).isSome) ↔
      Acc (Includes (body p)) ⟨cwd, text⟩ ∧
        ∀ file, Relation.ReflTransGen (Includes (body p)) file ⟨cwd, text⟩ →
          ∀ line ∈ lines file.text, ¬Panics line) ∧
      ∀ fuel fuel' f, parse p fuel text cwd sourceFile = some f → fuel ≤ fuel' →
        parse p fuel' text cwd sourceFile = some f := by
  unfold parse
  simp only [parseImpl_eq, Option.isSome_map]
  refine ⟨?_, fun fuel fuel' f h hle => ?_⟩
  · rw [Inclusion.exists_expand_iff]
    simp only [isSome_body]
  · obtain ⟨l, hl, rfl⟩ := Option.map_eq_some_iff.mp h
    rw [Inclusion.expand_mono hle hl]
    rfl

end Termua.Ssh.ConfigFile
