import Mathlib
import Termua.Lib.Text

/-!
# The ssh_config file

`wezterm-ssh/src/config.rs`: parsing a file, with the files it includes, and taking the options of the groups
that match. A table of options is a function. What the platform gives and what the regex crate does are
parameters. Parsing is `none` where it panics: at a slice that starts inside a character, and at one of a lone
quote; and where includes nest deeper than the fuel.
-/

namespace Termua.Ssh.ConfigFile

abbrev Text := List Char

/-- `ConfigMap`. -/
abbrev ConfigMap := Text → Option Text

/-- What the program takes from the regex crate: a text in which no character is special, what an expression
matches, `none` where it is not one, and a value with every match of an expression replaced, which is given
the match and its first group. -/
structure Regex where
  escape : Text → Text
  isMatch : Text → Option (Text → Bool)
  replaceAll : Text → Text → (Text → Text → Text) → Text

/-- What the program takes from the platform: the lower case of a text, the directory it runs in, the files
with their contents that a pattern of an include finds from a directory, the parts of a path, what a file
holds, where its user is at home, the environment, the name of the machine, the number of the user, and the
hash of a text in hexadecimal digits. -/
structure Platform where
  toLowercase : Text → Text
  regex : Regex
  currentDir : Option Text
  glob : Text → Text → List (Text × Text)
  parent : Text → Option Text
  join : Text → Text → Text
  readToString : Text → Option Text
  homeDir : Option Text
  env : Text → Option Text
  gethostname : Text
  uid : Text
  sha256 : Text → Text

/-! ## Patterns -/

/-- `wildcard_to_pattern`. -/
def wildcardToPattern (p : Platform) (s : Text) : Text × Bool :=
  let (pattern, isLiteral) := s.foldl (fun (pattern, isLiteral) c =>
    if c = '*' then (pattern ++ ".*".toList, false)
    else if c = '?' then (pattern ++ ".".toList, false)
    else (pattern ++ p.regex.escape [c], isLiteral)) ("^".toList, true)
  (pattern ++ "$".toList, isLiteral)

/-- `Pattern`. -/
structure Pattern where
  negated : Bool
  pattern : Text
  original : Text
  isLiteral : Bool
  deriving DecidableEq, Repr

namespace Pattern

/-- `Pattern::new`. -/
def new (p : Platform) (text : Text) (negated : Bool) : Pattern :=
  let (pattern, isLiteral) := wildcardToPattern p text
  { negated, pattern, original := text, isLiteral }

/-- `match_text`. -/
def matchText (p : Platform) (pattern : Pattern) (hostname : Text) : Bool :=
  match p.regex.isMatch pattern.pattern with
  | some isMatch => isMatch hostname
  | none => false

/-- `match_group`: the first pattern that matches decides. -/
def matchGroup (p : Platform) (hostname : Text) : List Pattern → Bool
  | [] => false
  | pattern :: rest =>
    if pattern.matchText p hostname then !pattern.negated else matchGroup p hostname rest

/-- An item of a pattern list. -/
def parse (p : Platform) (text : Text) : Pattern :=
  match Text.trim text with
  | '!' :: rest => new p rest true
  | text => new p text false

end Pattern

/-- `parse_pattern_list`. -/
def parsePatternList (p : Platform) (v : Text) : List Pattern := (v.splitOn ',').map (Pattern.parse p)

/-- `char::is_ascii_whitespace`. -/
def isAsciiWhitespace (c : Char) : Bool := c = ' ' || c = '\t' || c = '\n' || c = '\x0C' || c = '\r'

/-- `split_ascii_whitespace`. -/
def splitAsciiWhitespace (v : Text) : List Text :=
  (v.splitOnP isAsciiWhitespace).filter fun piece => !piece.isEmpty

/-- `parse_whitespace_pattern_list`. -/
def parseWhitespacePatternList (p : Platform) (v : Text) : List Pattern :=
  (splitAsciiWhitespace v).map (Pattern.parse p)

/-- `Criteria`. -/
inductive Criteria where
  | host (patterns : List Pattern)
  | exec (command : Text)
  | originalHost (patterns : List Pattern)
  | user (patterns : List Pattern)
  | localUser (patterns : List Pattern)
  | all
  deriving DecidableEq, Repr

/-- `Context`. -/
inductive Context where
  | firstPass
  | canonical
  | final
  deriving DecidableEq, Repr

/-- The head of a `MatchGroup`: its criteria and its context. -/
structure Header where
  criteria : List Criteria
  context : Context
  deriving DecidableEq, Repr

/-- What a criterion says of a connection; that of a command always holds. -/
def Criteria.holds (p : Platform) (hostname user localUser : Text) : Criteria → Bool
  | .host patterns | .originalHost patterns => Pattern.matchGroup p hostname patterns
  | .user patterns => Pattern.matchGroup p user patterns
  | .localUser patterns => Pattern.matchGroup p localUser patterns
  | .exec _ | .all => true

/-- `MatchGroup`. -/
structure MatchGroup where
  header : Header
  options : ConfigMap

/-- `is_match`. -/
def Header.isMatch (p : Platform) (h : Header) (hostname user localUser : Text) (context : Context) :
    Bool :=
  h.context = context && h.criteria.all (Criteria.holds p hostname user localUser)

/-! ## Parsing -/

/-- A line of a file, with the file that an include names. -/
inductive Directive where
  | skip
  | inclusion (pattern : Text)
  | header (h : Header)
  | option (k v : Text)
  deriving DecidableEq, Repr

/-- `str::lines`. -/
def lines (text : Text) : List Text :=
  let pieces := text.splitOn '\n'
  let pieces := if pieces.getLast? = some [] then pieces.dropLast else pieces
  pieces.map fun line => if line.getLast? = some '\r' then line.dropLast else line

/-- The loop over the tokens of a `Match` line. -/
def parseMatch (p : Platform) : List Text → Header → Header
  | [], h => h
  | cname :: tokens, h =>
    let name := p.toLowercase cname
    let add (c : Criteria) : Header := { h with criteria := h.criteria ++ [c] }
    if name = "all".toList then parseMatch p tokens (add .all)
    else if name = "canonical".toList then parseMatch p tokens { h with context := .canonical }
    else if name = "final".toList then parseMatch p tokens { h with context := .final }
    else
      let value := tokens.head?.getD []
      if name = "exec".toList then
        parseMatch p tokens.tail (add (.exec (tokens.head?.getD "false".toList)))
      else if name = "host".toList then
        parseMatch p tokens.tail (add (.host (parsePatternList p value)))
      else if name = "originalhost".toList then
        parseMatch p tokens.tail (add (.originalHost (parsePatternList p value)))
      else if name = "user".toList then
        parseMatch p tokens.tail (add (.user (parsePatternList p value)))
      else if name = "localuser".toList then
        parseMatch p tokens.tail (add (.localUser (parsePatternList p value)))
      else h
  termination_by tokens => tokens.length
  decreasing_by all_goals simp only [List.length_cons, List.length_tail]; omega

/-- The value of a line without the quotes around it, `none` where the slice panics. -/
def unquote (v : Text) : Option Text :=
  if v.head? = some '"' ∧ v.getLast? = some '"' then
    if v.length = 1 then none else some v.tail.dropLast
  else some v

/-- What a key and a value are. -/
def directive (p : Platform) (k v : Text) : Directive :=
  if k = "include".toList then .inclusion v
  else if k = "host".toList then .header ⟨[.host (parseWhitespacePatternList p v)], .firstPass⟩
  else if k = "match".toList then .header (parseMatch p (splitAsciiWhitespace v) ⟨[], .firstPass⟩)
  else .option k v

/-- The character separates a key from a value. -/
def isSeparator (c : Char) : Bool := c = '=' || Text.isWhitespace c

/-- What a line is, `none` where reading it panics. -/
def parseLine (p : Platform) (line : Text) : Option Directive :=
  let line := Text.trim line
  if line.isEmpty || line.head? = some '#' then some .skip
  else
    match line.dropWhile fun c => !isSeparator c with
    | [] => some .skip
    | sep :: v =>
      -- the slice behind the separator starts at its second byte
      if sep.utf8Size ≠ 1 then none
      else do
        let k := p.toLowercase (Text.trim (line.takeWhile fun c => !isSeparator c))
        let v ← unquote (Text.trim v)
        return directive p k v

/-- `add_option`: what becomes of the value of a key. -/
def addOption (k : Text) : Option Text → Text → Text
  | none, v => v
  | some e, v => if k = "identityfile".toList then e ++ ' ' :: v else e

/-- `ParsedConfigFile`. -/
structure ParsedConfigFile where
  options : ConfigMap := fun _ => none
  groups : List MatchGroup := []
  loadedFiles : List Text := []

namespace ParsedConfigFile

/-- An option is added to the last group, to the options of the file where there is none. -/
def option (f : ParsedConfigFile) (k v : Text) : ParsedConfigFile :=
  let add (options : ConfigMap) := Function.update options k (some (addOption k (options k) v))
  if f.groups.isEmpty then { f with options := add f.options }
  else { f with groups := f.groups.modifyLast fun g => { g with options := add g.options } }

/-- What a line does; `doInclude` reads the files of an include. -/
def line (doInclude : Text → ParsedConfigFile → Option ParsedConfigFile) (f : ParsedConfigFile) :
    Directive → Option ParsedConfigFile
  | .skip => some f
  | .inclusion pattern => doInclude pattern f
  | .header header => some { f with groups := f.groups ++ [{ header, options := fun _ => none }] }
  | .option k v => some (f.option k v)

/-- `do_include`, where `parseImpl` reads a file with its includes from a directory. -/
def doInclude (p : Platform)
    (parseImpl : Option Text → Text → ParsedConfigFile → Option ParsedConfigFile) (cwd : Option Text)
    (pattern : Text) (f : ParsedConfigFile) : Option ParsedConfigFile :=
  match cwd.or p.currentDir with
  | some cwd =>
    (p.glob cwd pattern).foldlM (fun f file =>
      parseImpl (some cwd) file.2 { f with loadedFiles := f.loadedFiles ++ [file.1] }) f
  | none => some f

/-- `parse_impl`. -/
def parseImpl (p : Platform) : ℕ → Option Text → Text → ParsedConfigFile → Option ParsedConfigFile
  | 0, _, _, _ => none
  | fuel + 1, cwd, text, f =>
    (lines text).foldlM (fun f text =>
      (parseLine p text).bind (f.line (doInclude p (parseImpl p fuel) cwd))) f

/-- `parse`. -/
def parse (p : Platform) (fuel : ℕ) (text : Text) (cwd sourceFile : Option Text) :
    Option ParsedConfigFile :=
  parseImpl p fuel cwd text { loadedFiles := sourceFile.toList }

/-- Options that are taken where the target has none. -/
def orInsert (target options : ConfigMap) : ConfigMap := fun k => (target k).or (options k)

/-- `apply_matches`, with whether the file has to be parsed again. -/
def applyMatches (p : Platform) (f : ParsedConfigFile) (hostname user localUser : Text) (context : Context)
    (target : ConfigMap) : Bool × ConfigMap :=
  (f.groups.any fun g => g.header.context ≠ .firstPass,
    f.groups.foldl (fun target g =>
      if g.header.isMatch p hostname user localUser context then orInsert target g.options else target)
      (orInsert target f.options))

end ParsedConfigFile

end Termua.Ssh.ConfigFile
