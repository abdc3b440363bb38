import Mathlib

/-!
# What a shell reads

The token recognition and the quoting of the POSIX shell, character by character: blanks end a word,
operators are read as far as they go, a number sign at the start of a word begins a comment, and each
character of a word is taken as it is or was quoted. A dollar sign or a backquote that is not quoted
begins an expansion, which is not read here (`none`).

A text that is quoted as `quote` does it is read as one word whose characters are all quoted
(`run_quote`). The tokens of a list of commands are read as simple commands with `||` and `;` between
them (`parse`).
-/

namespace Shell

/-- The single quote. -/
def singleQuote : Char := Char.ofNat 0x27

/-- The backquote. -/
def backquote : Char := Char.ofNat 0x60

/-- Whether a character of a word was quoted. -/
inductive Quoting
  | bare | quoted
  deriving DecidableEq

/-- A word, its quotes removed. -/
abbrev Word := List (Char × Quoting)

inductive Token
  | word (w : Word)
  | operator (o : List Char)
  deriving DecidableEq

/-- The operators of the shell. -/
def operators : List (List Char) :=
  ["&&", "||", ";;", "<<", ">>", "<&", ">&", "<>", "<<-", ">|", "&", "|", ";", "<", ">", "(", ")",
    "\n"].map String.toList

/-- What the next character is read in. -/
inductive Mode
  | bare | escape | single | double | doubleEscape | comment
  deriving DecidableEq

/-- The tokens that were read, and the one that is read. -/
structure Lexer where
  tokens : List Token
  current : Option Token
  mode : Mode
  deriving DecidableEq

namespace Lexer

/-- Nothing is read yet. -/
def start : Lexer := ⟨[], none, .bare⟩

/-- The token that is read ends. -/
def flush (l : Lexer) : Lexer := { l with tokens := l.tokens ++ l.current.toList, current := none }

/-- A word is read, or begins. -/
def beginWord (l : Lexer) : Lexer :=
  match l.current with
  | some (.word _) => l
  | _ => { l.flush with current := some (.word []) }

/-- The characters are of the word that is read, or of a word that they begin. -/
def push (l : Lexer) (part : Word) : Lexer :=
  match l.current with
  | some (.word w) => { l with current := some (.word (w ++ part)) }
  | _ => { l.flush with current := some (.word part) }

/-- The operator that is read runs on with the character. -/
def runOn (l : Lexer) (c : Char) : Option (List Char) :=
  match l.current with
  | some (.operator o) => if o ++ [c] ∈ operators then some (o ++ [c]) else none
  | _ => none

/-- A word is read. -/
def inWord (l : Lexer) : Bool :=
  match l.current with
  | some (.word _) => true
  | _ => false

/-- A character that no quote stands before. -/
def bareStep (l : Lexer) (c : Char) : Option Lexer :=
  if c = singleQuote then some { l.beginWord with mode := .single }
  else if c = '"' then some { l.beginWord with mode := .double }
  else if c = '\\' then some { l with mode := .escape }
  else if c = '$' ∨ c = backquote then none
  else if (l.runOn c).isSome then some { l with current := (l.runOn c).map .operator }
  else if [c] ∈ operators then some { l.flush with current := some (.operator [c]) }
  else if c = ' ' ∨ c = '\t' then some l.flush
  else if c = '#' ∧ !l.inWord then some { l.flush with mode := .comment }
  else some (l.push [(c, .bare)])

/-- The next character. -/
def step (l : Lexer) (c : Char) : Option Lexer :=
  match l.mode with
  | .bare => l.bareStep c
  | .escape =>
    -- a line that is continued leaves nothing
    if c = '\n' then some { l with mode := .bare }
    else some { l.push [(c, .quoted)] with mode := .bare }
  | .single =>
    if c = singleQuote then some { l with mode := .bare } else some (l.push [(c, .quoted)])
  | .double =>
    if c = '"' then some { l with mode := .bare }
    else if c = '\\' then some { l with mode := .doubleEscape }
    else if c = '$' ∨ c = backquote then none
    else some (l.push [(c, .quoted)])
  | .doubleEscape =>
    if c = '\n' then some { l with mode := .double }
    else if c ∈ ['$', backquote, '"', '\\'] then
      some { l.push [(c, .quoted)] with mode := .double }
    else some { l.push [('\\', .quoted), (c, .quoted)] with mode := .double }
  | .comment => if c = '\n' then { l with mode := .bare }.bareStep c else some l

/-- The characters of a text one after the other. -/
def run (text : List Char) (l : Lexer) : Option Lexer := text.foldlM step l

end Lexer

open Lexer (run start)

/-- The tokens of a text, none where it ends in a quotation. -/
def lex (text : List Char) : Option (List Token) :=
  (run text start).bind fun l =>
    if l.mode = .bare ∨ l.mode = .comment then some l.flush.tokens else none

/-- The characters as they stand in a word without quotes. -/
def bare (text : List Char) : Word := text.map (·, .bare)

/-- The characters as they stand in a word, all of them quoted. -/
def quoted (text : List Char) : Word := text.map (·, .quoted)

/-- A text between single quotes, where each single quote in it is written as a closing quote, a quote
between double quotes and an opening one. -/
def quote (text : List Char) : List Char :=
  singleQuote :: text.flatMap (fun c =>
    if c = singleQuote then [singleQuote, '"', singleQuote, '"', singleQuote] else [c]) ++ [singleQuote]

/-- The words of a simple command. -/
def simpleCommand (tokens : List Token) : Option (List Word) :=
  tokens.mapM fun
    | .word w => some w
    | .operator _ => none

/-- The simple commands of which the next is for where the one before fails. -/
def orList (tokens : List Token) : Option (List (List Word)) :=
  (tokens.splitOn (.operator "||".toList)).mapM simpleCommand

/-- The commands that are run one after the other. -/
def parse (tokens : List Token) : Option (List (List (List Word))) :=
  (tokens.splitOn (.operator ";".toList)).mapM orList

/-- A name, as an assignment has it: letters, digits and underscores, the first one not a digit. -/
def IsName (text : List Char) : Prop :=
  text ≠ [] ∧ (∀ c ∈ text, c.isAlphanum = true ∨ c = '_') ∧ ∀ c ∈ text.head?, c.isDigit = false

instance : DecidablePred IsName := fun text =>
  inferInstanceAs (Decidable (text ≠ [] ∧ (∀ c ∈ text, c.isAlphanum = true ∨ c = '_') ∧
    ∀ c ∈ text.head?, c.isDigit = false))

/-! ## Reading -/

variable {ts : List Token} {w : Word} {text s : List Char} {l : Lexer}

theorem run_append (s text : List Char) (l : Lexer) : run (s ++ text) l = (run s l).bind (run text) :=
  List.foldlM_append ..

/-- What a part of a text leads to is where the rest is read from. -/
theorem run_append_of {l' : Lexer} (h : run s l = some l') : run (s ++ text) l = run text l' := by
  rw [run_append, h, Option.bind_some]

/-- Between single quotes every character is quoted. -/
theorem run_quote_body (text : List Char) (w : Word) :
    run (text.flatMap fun c =>
        if c = singleQuote then [singleQuote, '"', singleQuote, '"', singleQuote] else [c])
      ⟨ts, some (.word w), .single⟩ = some ⟨ts, some (.word (w ++ quoted text)), .single⟩ := by
  induction text generalizing w with
  | nil => simp [quoted, run]
  | cons c text ih =>
    have hchar : run (if c = singleQuote then [singleQuote, '"', singleQuote, '"', singleQuote] else [c])
        ⟨ts, some (.word w), .single⟩ = some ⟨ts, some (.word (w ++ [(c, .quoted)])), .single⟩ := by
      by_cases hc : c = singleQuote
      · -- the quotation ends, the quote comes in double quotes, and a new quotation begins
        rw [if_pos hc, hc]
        rfl
      · rw [if_neg hc]
        simp [run, Lexer.step, Lexer.push, hc]
    rw [List.flatMap_cons, run_append_of hchar, ih]
    simp [quoted]

/-- A text that is quoted goes on with the word before it. -/
theorem run_quote (text : List Char) (w : Word) :
    run (quote text) ⟨ts, some (.word w), .bare⟩ =
      some ⟨ts, some (.word (w ++ quoted text)), .bare⟩ := by
  have hopen : run [singleQuote] ⟨ts, some (.word w), .bare⟩ = some ⟨ts, some (.word w), .single⟩ :=
    rfl
  unfold quote
  rw [List.cons_append, ← List.singleton_append, run_append_of hopen,
    run_append_of (run_quote_body text w)]
  rfl

/-- A text that is quoted begins a word. -/
theorem run_quote_start (text : List Char) :
    run (quote text) ⟨ts, none, .bare⟩ = some ⟨ts, some (.word (quoted text)), .bare⟩ := by
  have hopen : run [singleQuote] ⟨ts, none, .bare⟩ = some ⟨ts ++ [], some (.word []), .single⟩ := rfl
  rw [List.append_nil] at hopen
  unfold quote
  rw [List.cons_append, ← List.singleton_append, run_append_of hopen,
    run_append_of (run_quote_body text [])]
  rfl

/-- The character stands for itself in a word. -/
def isPlain (c : Char) : Bool :=
  !([singleQuote, '"', '\\', '$', backquote, ' ', '\t', '#'].contains c) &&
    !operators.contains [c]

theorem isPlain_of_isAlphanum {c : Char} (h : c.isAlphanum = true ∨ c = '_') : isPlain c = true := by
  have hc : (c.isAlphanum || c = '_') = true := by simpa using h
  have hspecial : [singleQuote, '"', '\\', '$', backquote, ' ', '\t', '#'].all
      (fun d => !(d.isAlphanum || d = '_')) = true := by decide
  have hoperator : operators.all (fun o => o.all fun d => !(d.isAlphanum || d = '_')) = true := by
    decide
  refine Bool.and_eq_true_iff.mpr ⟨?_, ?_⟩
  · rw [Bool.not_eq_true', List.contains_eq_mem, decide_eq_false_iff_not]
    intro hmem
    have hnot := List.all_eq_true.mp hspecial c hmem
    rw [hc] at hnot
    cases hnot
  · rw [Bool.not_eq_true', List.contains_eq_mem, decide_eq_false_iff_not]
    intro hmem
    have hnot := List.all_eq_true.mp (List.all_eq_true.mp hoperator [c] hmem) c List.mem_cons_self
    rw [hc] at hnot
    cases hnot

/-- A character that stands for itself is of the word that is read. -/
theorem bareStep_of_isPlain {c : Char} (h : isPlain c = true)
    (hcurrent : ∀ o, l.current ≠ some (.operator o)) : l.bareStep c = some (l.push [(c, .bare)]) := by
  obtain ⟨hspecial, hoperator⟩ := Bool.and_eq_true_iff.mp h
  rw [Bool.not_eq_true', List.contains_eq_mem, decide_eq_false_iff_not] at hspecial hoperator
  simp only [List.mem_cons, List.not_mem_nil, or_false, not_or] at hspecial
  obtain ⟨hsingle, hdouble, hescape, hdollar, hback, hspace, htab, hnumber⟩ := hspecial
  -- only an operator could take the character
  have hrunOn : l.runOn c = none := by
    unfold Lexer.runOn
    split
    · next o ho => exact absurd ho (hcurrent o)
    · rfl
  unfold Lexer.bareStep
  rw [if_neg hsingle, if_neg hdouble, if_neg hescape, if_neg (by simp [hdollar, hback]),
    if_neg (by simp [hrunOn]), if_neg hoperator, if_neg (by simp [hspace, htab]),
    if_neg fun hc => hnumber hc.1]

/-- Characters that stand for themselves go on with the word before them. -/
theorem run_bare (h : text.all isPlain = true) (w : Word) :
    run text ⟨ts, some (.word w), .bare⟩ = some ⟨ts, some (.word (w ++ bare text)), .bare⟩ := by
  induction text generalizing w with
  | nil => simp [bare, run]
  | cons c text ih =>
    obtain ⟨hc, htext⟩ := Bool.and_eq_true_iff.mp h
    have hstep : Lexer.step ⟨ts, some (.word w), .bare⟩ c =
        some ⟨ts, some (.word (w ++ [(c, .bare)])), .bare⟩ :=
      bareStep_of_isPlain hc fun o ho => by cases ho
    show (Lexer.step _ c).bind (run text) = _
    rw [hstep, Option.bind_some, ih htext]
    simp [bare]

/-- Characters that stand for themselves begin a word. -/
theorem run_bare_start (text : List Char) (hne : text ≠ []) (h : text.all isPlain = true) :
    run text ⟨ts, none, .bare⟩ = some ⟨ts, some (.word (bare text)), .bare⟩ := by
  obtain ⟨c, text, rfl⟩ := List.exists_cons_of_ne_nil hne
  obtain ⟨hc, htext⟩ := Bool.and_eq_true_iff.mp h
  have hstep : Lexer.step ⟨ts, none, .bare⟩ c = some ⟨ts ++ [], some (.word [(c, .bare)]), .bare⟩ :=
    bareStep_of_isPlain hc fun o ho => by cases ho
  show (Lexer.step _ c).bind (run text) = _
  rw [hstep, List.append_nil, Option.bind_some, run_bare htext]
  rfl

/-- A word ends at the blank behind it. -/
theorem run_word (text : List Char) (hne : text ≠ []) (h : text.all isPlain = true) :
    run (text ++ [' ']) ⟨ts, none, .bare⟩ = some ⟨ts ++ [.word (bare text)], none, .bare⟩ := by
  rw [run_append_of (run_bare_start text hne h)]
  rfl

theorem run_or (ts : List Token) (w : Word) :
    run " || ".toList ⟨ts, some (.word w), .bare⟩ =
      some ⟨ts ++ [.word w, .operator "||".toList], none, .bare⟩ := by
  have hrun : run " || ".toList ⟨ts, some (.word w), .bare⟩ =
      some ⟨ts ++ [.word w] ++ [] ++ [.operator "||".toList], none, .bare⟩ := rfl
  simpa using hrun

theorem run_semicolon (ts : List Token) (w : Word) :
    run "; ".toList ⟨ts, some (.word w), .bare⟩ =
      some ⟨ts ++ [.word w, .operator ";".toList], none, .bare⟩ := by
  have hrun : run "; ".toList ⟨ts, some (.word w), .bare⟩ =
      some ⟨ts ++ [.word w] ++ [.operator ";".toList], none, .bare⟩ := rfl
  simpa using hrun

/-- A command is read apart from those behind it. -/
theorem parse_cons {first rest : List Token} {commands : List (List Word)}
    (h : .operator ";".toList ∉ first) (hfirst : orList first = some commands) :
    parse (first ++ .operator ";".toList :: rest) = (parse rest).map (commands :: ·) := by
  unfold parse
  rw [List.splitOn_append_cons_self_of_not_mem h, List.mapM_cons, hfirst]
  cases (rest.splitOn (.operator ";".toList)).mapM orList <;> rfl

end Shell
