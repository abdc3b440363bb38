import Mathlib
import Termua.Ssh.Proxy

/-!
# How the proxy's script is read by the shells

`wrap_proxy_command_unix` quotes each value for the script and the script for the shell that is given
it. The outer shell reads three words, the last one the script; the shell that runs the script reads
the change of the directory and the assignments in front of the command, every character of a
directory and of a value quoted (`wrapProxyCommandUnix_reads`).
-/

namespace Termua.Ssh

open Replace (replace_singleton)
open Serde (Text)
open Shell (Token Word Lexer IsName isPlain quote bare quoted lex orList parse parse_cons run_append_of
  run_quote run_quote_start run_bare run_bare_start run_word run_or run_semicolon
  isPlain_of_isAlphanum)
open Shell.Lexer (run start)

/-! ## What the script is for -/

/-- The directory that the script changes to. -/
def directoryOf (workingDir : Option Text) : Option Text :=
  (workingDir.map Text.trim).filter (· ≠ [])

/-- The variables that the script exports, in the order in which they come. -/
def exportsOf (env : List (Text × Text)) : List (Text × Text) :=
  (env.map fun entry => (Text.trim entry.1, entry.2)).filter fun entry => IsName entry.1

/-- The directory is handed to `cd` as one operand, also where `cd` reads it as more than a name (a lone `-` is
`$OLDPWD` to it); where it fails, the script ends. -/
def changeCommand (dir : Text) : List (List Word) :=
  [[bare "cd".toList, bare "--".toList, quoted dir], [bare "exit".toList, bare "1".toList]]

/-- The assignment of a variable. -/
def exportCommand (entry : Text × Text) : List (List Word) :=
  [[bare "export".toList, bare (entry.1 ++ ['=']) ++ quoted entry.2]]

/-- The commands of the script in front of the proxy command. -/
def setup (workingDir : Option Text) (env : List (Text × Text)) : List (List (List Word)) :=
  (directoryOf workingDir).toList.map changeCommand ++ (exportsOf env).map exportCommand

/-! ## Names and quotes -/

theorem shSingleQuote_eq (s : Text) : shSingleQuote s = quote s := by
  unfold shSingleQuote quote
  rw [replace_singleton]

/-- A letter or an underscore is no digit. -/
theorem isDigit_eq_false {c : Char}
    (h : (c.isUpper = true ∨ c.isLower = true) ∨ c = '_') : c.isDigit = false := by
  rcases h with hletter | rfl
  · simp only [Char.isUpper, Char.isLower, Char.isDigit, Bool.and_eq_true, decide_eq_true_eq,
      Bool.and_eq_false_iff, decide_eq_false_iff_not, UInt32.le_iff_toNat_le, ge_iff_le] at hletter ⊢
    simp at hletter ⊢
    omega
  · rfl

/-- The names that are exported are those that a shell takes. -/
theorem validName_iff (k : Text) : k ≠ [] ∧ validName k = true ↔ IsName k := by
  have hvalid : validName k = true ↔ ∀ i c, k[i]? = some c →
      ((c.isUpper = true ∨ c.isLower = true) ∨ c = '_') ∨ c.isDigit = true ∧ i ≠ 0 := by
    unfold validName
    simp only [List.all_eq_true, Prod.forall, List.mem_zipIdx_iff_getElem?, Bool.or_eq_true,
      Bool.and_eq_true, decide_eq_true_eq, bne_iff_ne]
    exact forall_comm
  rw [hvalid]
  constructor
  · rintro ⟨hne, hchars⟩
    refine ⟨hne, fun c hc => ?_, fun c hc => ?_⟩
    · obtain ⟨i, hi⟩ := List.mem_iff_getElem?.mp hc
      rcases hchars i c hi with (hletter | hline) | ⟨hdigit, -⟩
      · exact .inl (by simpa [Char.isAlphanum, Char.isAlpha] using .inl hletter)
      · exact .inr hline
      · exact .inl (by simp [Char.isAlphanum, hdigit])
    · rw [List.head?_eq_getElem?] at hc
      rcases hchars 0 c hc with hfirst | ⟨-, hzero⟩
      · exact isDigit_eq_false hfirst
      · exact absurd rfl hzero
  · rintro ⟨hne, hchars, hhead⟩
    refine ⟨hne, fun i c hi => ?_⟩
    rcases hchars c (List.mem_of_getElem? hi) with halpha | hline
    · rw [Char.isAlphanum, Char.isAlpha, Bool.or_eq_true, Bool.or_eq_true] at halpha
      rcases halpha with hletter | hdigit
      · exact .inl (.inl hletter)
      · refine .inr ⟨hdigit, ?_⟩
        rintro rfl
        rw [hhead c (List.head?_eq_getElem? ▸ hi)] at hdigit
        cases hdigit
    · exact .inl (.inr hline)

/-- A variable is exported under its trimmed name, or contributes nothing. -/
theorem exportVariable_eq (entry : Text × Text) :
    exportVariable entry =
      if IsName (Text.trim entry.1) then
        "export ".toList ++ Text.trim entry.1 ++ '=' :: shSingleQuote entry.2 ++ "; ".toList
      else [] := by
  unfold exportVariable
  simp only
  by_cases hne : Text.trim entry.1 = []
  · rw [if_pos hne, if_neg fun hname => ((validName_iff _).mpr hname).1 hne]
  · rw [if_neg hne]
    by_cases hvalid : validName (Text.trim entry.1) = true
    · rw [if_neg (by simp [hvalid]), if_pos ((validName_iff _).mp ⟨hne, hvalid⟩)]
    · rw [if_pos (by simpa using hvalid), if_neg fun hname => hvalid ((validName_iff _).mpr hname).2]

/-! ## The script -/

/-- The tokens of a change to a directory. -/
def changeTokens (dir : Text) : List Token :=
  [.word (bare "cd".toList), .word (bare "--".toList), .word (quoted dir), .operator "||".toList,
    .word (bare "exit".toList), .word (bare "1".toList), .operator ";".toList]

/-- The tokens of an assignment. -/
def exportTokens (entry : Text × Text) : List Token :=
  [.word (bare "export".toList), .word (bare (entry.1 ++ ['=']) ++ quoted entry.2),
    .operator ";".toList]

variable {ts : List Token}

/-- The change of the directory is read, the directory as one word all of whose characters are
quoted. -/
theorem run_changeDirectory (workingDir : Option Text) :
    run (changeDirectory workingDir) ⟨ts, none, .bare⟩ =
      some ⟨ts ++ (directoryOf workingDir).toList.flatMap changeTokens, none, .bare⟩ := by
  unfold changeDirectory
  rcases workingDir with _ | dir
  · simp [directoryOf, run]
  · by_cases hdir : Text.trim dir = []
    · simp [directoryOf, hdir, run]
    · have hdirectory : directoryOf (some dir) = some (Text.trim dir) :=
        Option.filter_eq_some_iff.mpr ⟨rfl, by simpa using hdir⟩
      simp only [if_neg hdir, hdirectory]
      -- word by word, each with the blank behind it
      have hcd : "cd -- ".toList = ("cd".toList ++ [' ']) ++ ("--".toList ++ [' ']) := rfl
      have hexit : " || exit 1; ".toList =
          " || ".toList ++ (("exit".toList ++ [' ']) ++ ("1".toList ++ "; ".toList)) := rfl
      rw [hcd, hexit, shSingleQuote_eq, List.append_assoc, List.append_assoc,
        run_append_of (run_word "cd".toList (by decide) rfl),
        run_append_of (run_word "--".toList (by decide) rfl), run_append_of (run_quote_start _),
        run_append_of (run_or _ _), run_append_of (run_word "exit".toList (by decide) rfl),
        run_append_of (run_bare_start "1".toList (by decide) rfl), run_semicolon]
      simp [changeTokens]

/-- The assignments are read, each value in one word with its name, all of its characters quoted. -/
theorem run_exports (env : List (Text × Text)) :
    run (env.flatMap exportVariable) ⟨ts, none, .bare⟩ =
      some ⟨ts ++ (exportsOf env).flatMap exportTokens, none, .bare⟩ := by
  induction env generalizing ts with
  | nil => simp [exportsOf, run]
  | cons entry env ih =>
    rw [List.flatMap_cons, exportVariable_eq]
    by_cases hname : IsName (Text.trim entry.1)
    · have hexports : exportsOf (entry :: env) = (Text.trim entry.1, entry.2) :: exportsOf env := by
        unfold exportsOf
        rw [List.map_cons, List.filter_cons_of_pos (by simpa using hname)]
      have hexport : "export ".toList = "export".toList ++ [' '] := rfl
      -- the name needs no quotes, and the value goes on with its word
      have hplain : (Text.trim entry.1 ++ ['=']).all isPlain = true := by
        rw [List.all_append, Bool.and_eq_true]
        exact ⟨List.all_eq_true.mpr fun c hc => isPlain_of_isAlphanum (hname.2.1 c hc), rfl⟩
      have hentry : run ("export ".toList ++ Text.trim entry.1 ++ '=' :: shSingleQuote entry.2 ++
            "; ".toList) ⟨ts, none, .bare⟩ =
          some ⟨ts ++ exportTokens (Text.trim entry.1, entry.2), none, .bare⟩ := by
        have hassoc : "export ".toList ++ Text.trim entry.1 ++ '=' :: shSingleQuote entry.2 ++
              "; ".toList =
            ("export".toList ++ [' ']) ++ ((Text.trim entry.1 ++ ['=']) ++
              (quote entry.2 ++ "; ".toList)) := by
          rw [hexport, shSingleQuote_eq]
          simp
        rw [hassoc, run_append_of (run_word "export".toList (by decide) rfl),
          run_append_of (run_bare_start _ (by simp) hplain), run_append_of (run_quote _ _),
          run_semicolon]
        simp [exportTokens]
      rw [if_pos hname, run_append_of hentry, ih, hexports, List.flatMap_cons, List.append_assoc]
    · have hexports : exportsOf (entry :: env) = exportsOf env := by
        unfold exportsOf
        rw [List.map_cons, List.filter_cons_of_neg (by simpa using hname)]
      rw [if_neg hname, List.nil_append, ih, hexports]

/-! ## What is read -/

theorem parse_change (dir : Text) (rest : List Token) :
    parse (changeTokens dir ++ rest) = (parse rest).map (changeCommand dir :: ·) := by
  have hsplit : changeTokens dir ++ rest =
      (changeTokens dir).dropLast ++ .operator ";".toList :: rest := rfl
  rw [hsplit]
  exact parse_cons (by simp [changeTokens]) rfl

theorem parse_export (entry : Text × Text) (rest : List Token) :
    parse (exportTokens entry ++ rest) = (parse rest).map (exportCommand entry :: ·) := by
  have hsplit : exportTokens entry ++ rest =
      (exportTokens entry).dropLast ++ .operator ";".toList :: rest := rfl
  rw [hsplit]
  exact parse_cons (by simp [exportTokens]) rfl

/-- The outer shell reads three words, the last one the script, all of it quoted. The shell that runs
the script reads the change to the trimmed directory, if it is not blank, and one assignment for each
variable with a name that a shell takes, every character of the directory and of the values quoted;
behind it stands the command as it was. -/
theorem wrapProxyCommandUnix_reads (command : Text) (workingDir : Option Text)
    (env : List (Text × Text)) :
    lex (wrapProxyCommandUnix command workingDir env) =
        some [.word (bare "sh".toList), .word (bare "-lc".toList),
          .word (quoted (proxyScript command workingDir env))] ∧
      ∃ before tokens, proxyScript command workingDir env = before ++ command ∧
        run before start = some ⟨tokens, none, .bare⟩ ∧
        parse tokens = some (setup workingDir env ++ [[[bare "exec".toList]]]) := by
  constructor
  · have hsh : "sh -lc ".toList = ("sh".toList ++ [' ']) ++ ("-lc".toList ++ [' ']) := rfl
    unfold lex wrapProxyCommandUnix
    rw [hsh, shSingleQuote_eq, List.append_assoc, start,
      run_append_of (run_word "sh".toList (by decide) rfl),
      run_append_of (run_word "-lc".toList (by decide) rfl), run_quote_start]
    rfl
  · -- what stands before the command ends with the blank behind `exec`
    have hexec : "exec ".toList = "exec".toList ++ [' '] := rfl
    refine ⟨changeDirectory workingDir ++ (env.flatMap exportVariable ++ "exec ".toList),
      (directoryOf workingDir).toList.flatMap changeTokens ++
        ((exportsOf env).flatMap exportTokens ++ [.word (bare "exec".toList)]), ?_, ?_, ?_⟩
    · unfold proxyScript
      rw [List.append_assoc, List.append_assoc]
    · rw [start, run_append_of (run_changeDirectory workingDir), run_append_of (run_exports env), hexec,
        run_word "exec".toList (by decide) rfl, List.nil_append, List.append_assoc]
    · have hexports (rest : List Token) : parse ((exportsOf env).flatMap exportTokens ++ rest) =
          (parse rest).map ((exportsOf env).map exportCommand ++ ·) := by
        induction exportsOf env with
        | nil => simp
        | cons entry entries ih =>
          rw [List.flatMap_cons, List.append_assoc, parse_export, ih, Option.map_map]
          rfl
      have hchange (rest : List Token) :
          parse ((directoryOf workingDir).toList.flatMap changeTokens ++ rest) =
            (parse rest).map ((directoryOf workingDir).toList.map changeCommand ++ ·) := by
        rcases directoryOf workingDir with _ | dir
        · simp
        · have hdir : [dir].flatMap changeTokens = changeTokens dir := List.flatMap_singleton _ _
          rw [Option.toList_some, hdir, parse_change]
          rfl
      rw [hchange, hexports, setup, List.append_assoc]
      rfl

end Termua.Ssh
