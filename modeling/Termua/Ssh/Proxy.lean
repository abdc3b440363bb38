import Mathlib
import Termua.Lib.Expansion
import Termua.Lib.Serde
import Termua.Lib.Shell

/-!
# The proxy of an SSH connection

The expansion of the tokens in a proxy command of `gpui_term/src/backends/ssh.rs`, and the wrapping of the
command in a shell script. A map is gone through in the order of its entries.
-/

namespace Termua.Ssh

open Replace (replace Clear)
open Serde (Text TextMap)
open Shell (singleQuote)
open Expansion (Piece Origin spell parts stage mark replaceInTurn map_replaceInTurn map_stage Separated
  replaceInTurn_eq_iff)

/-! ## The code -/

/-- `SshProxyCommand`. -/
structure SshProxyCommand where
  command : Text
  workingDir : Option Text
  env : TextMap

/-- `SshJumpHop`. -/
structure SshJumpHop where
  host : Text
  user : Option Text
  port : Option ℕ

/-- `SshProxyMode`; of a chain only the hops are used. -/
inductive SshProxyMode
  | inherit
  | disabled
  | command (settings : SshProxyCommand)
  | jumpServer (hops : List SshJumpHop)

/-- `sh_single_quote`. -/
def shSingleQuote (s : Text) : Text :=
  -- a quote is written as a closing quote, a quote between double quotes and an opening one
  let escaped := replace id [singleQuote] [singleQuote, '"', singleQuote, '"', singleQuote] s
  singleQuote :: escaped ++ [singleQuote]

/-- `expand_proxy_command_tokens`. -/
def expandProxyCommandTokens (template hostname originalHost : Text) (port : ℕ) (user : Text) : Text :=
  let template := replace id "%h".toList hostname template
  let template := replace id "%n".toList originalHost template
  let template := replace id "%p".toList (Nat.toDigits 10 port) template
  let template := replace id "%r".toList user template
  replace id "%%".toList "%".toList template

/-- The name of a variable as a shell takes it; a character that is not ASCII has no such byte. -/
def validName (k : Text) : Bool :=
  k.zipIdx.all fun (c, i) =>
    c.isUpper || c.isLower || c = '_' || (c.isDigit && i != 0)

/-- One turn of the loop over the variables. -/
def exportVariable (entry : Text × Text) : Text :=
  let k := Text.trim entry.1
  if k = [] then []
  else if !validName k then []
  else "export ".toList ++ k ++ '=' :: shSingleQuote entry.2 ++ "; ".toList

/-- The change of the directory, for one that is not blank. -/
def changeDirectory (workingDir : Option Text) : Text :=
  match workingDir with
  | none => []
  | some dir =>
    if Text.trim dir = [] then []
    else "cd -- ".toList ++ shSingleQuote (Text.trim dir) ++ " || exit 1; ".toList

/-- The script of `wrap_proxy_command_unix`, for the variables in the order in which they come. -/
def proxyScript (command : Text) (workingDir : Option Text) (env : List (Text × Text)) : Text :=
  changeDirectory workingDir ++ (env.flatMap exportVariable ++ ("exec ".toList ++ command))

/-- `wrap_proxy_command_unix`. -/
def wrapProxyCommandUnix (command : Text) (workingDir : Option Text) (env : List (Text × Text)) :
    Text :=
  "sh -lc ".toList ++ shSingleQuote (proxyScript command workingDir env)

/-! ## One pass -/

/-- A token of a proxy command. -/
inductive ProxyToken
  | hostname | originalHost | port | user | percent
  deriving DecidableEq

namespace ProxyToken

/-- The character behind the percent sign. -/
def letter : ProxyToken → Char
  | hostname => 'h'
  | originalHost => 'n'
  | port => 'p'
  | user => 'r'
  | percent => '%'

/-- A token as a template has it. -/
def written (t : ProxyToken) : Text := ['%', t.letter]

/-- The tokens in the order in which they are replaced. -/
def inOrder : List ProxyToken := [hostname, originalHost, port, user, percent]

/-- The token of a character. -/
def ofLetter (c : Char) : Option ProxyToken := inOrder.find? fun t => t.letter = c

/-- What stands for a token. -/
def value (host originalHost : Text) (portNumber : ℕ) (userName : Text) : ProxyToken → Text
  | hostname => host
  | .originalHost => originalHost
  | port => Nat.toDigits 10 portNumber
  | user => userName
  | percent => ['%']

theorem mem_inOrder (t : ProxyToken) : t ∈ inOrder := by
  cases t <;> decide

theorem letter_of_ofLetter {c : Char} {t : ProxyToken} (h : ofLetter c = some t) : t.letter = c := by
  unfold ofLetter at h
  simpa using List.find?_some h

theorem separated_inOrder : Separated written inOrder := by
  refine ⟨⟨'h', rfl, ?_⟩, ⟨'n', rfl, ?_⟩, ⟨'p', rfl, ?_⟩, ⟨'r', rfl, ?_⟩, ⟨'%', rfl, ?_⟩, trivial⟩ <;>
  decide

end ProxyToken

open ProxyToken (written inOrder ofLetter value mem_inOrder letter_of_ofLetter separated_inOrder)

/-- A template read once from left to right. A percent sign with no token's character behind it stands
for itself. -/
def readTemplate : Text → List (Piece Char ProxyToken)
  | [] => []
  | [c] => [.char c]
  | c :: d :: rest =>
    match if c = '%' then ofLetter d else none with
    | some t => .token t :: readTemplate rest
    | none => .char c :: readTemplate (d :: rest)

/-- A template that is read is the template when it is written again. -/
theorem spell_readTemplate (template : Text) : spell id written (readTemplate template) = template := by
  induction template using readTemplate.induct with
  | case1 => rfl
  | case2 c => rfl
  | case3 c d rest t htoken ih =>
    have hc : c = '%' := by
      by_contra hc
      rw [if_neg hc] at htoken
      cases htoken
    rw [if_pos hc] at htoken
    have hd : t.letter = d := letter_of_ofLetter htoken
    rw [readTemplate, if_pos hc, htoken]
    show written t ++ spell id written (readTemplate rest) = _
    rw [ih, hc, ← hd]
    rfl
  | case4 c d rest hnone ih =>
    rw [readTemplate, hnone]
    show c :: spell id written (readTemplate (d :: rest)) = _
    rw [ih]

section

variable (template hostname originalHost : Text) (port : ℕ) (user : Text)

/-- The expansion of a template in one pass over it. -/
def onePass : Text := spell id (value hostname originalHost port user) (readTemplate template)

/-- The expansion of a template in one pass, with where its characters come from. -/
def tracedOnePass : List (Char × Origin ProxyToken) :=
  stage written (value hostname originalHost port user) inOrder (readTemplate template)

/-- The expansion that `expand_proxy_command_tokens` makes, with where its characters come from. -/
def tracedExpansion : List (Char × Origin ProxyToken) :=
  replaceInTurn Prod.fst written (fun t => mark (.value t) (value hostname originalHost port user t))
    inOrder (stage written (value hostname originalHost port user) [] (readTemplate template))

/-- The parts of a template between its tokens `t`, where the tokens that are replaced before have
their values. -/
def partsBefore (t : ProxyToken) : List Text :=
  parts written (value hostname originalHost port user) (inOrder.takeWhile (· ≠ t)) t
    (readTemplate template)

variable {template hostname originalHost port user}

theorem map_tracedOnePass :
    (tracedOnePass template hostname originalHost port user).map Prod.fst =
      onePass template hostname originalHost port user := by
  unfold tracedOnePass onePass
  rw [map_stage]
  congr 1
  funext t
  exact if_pos (mem_inOrder t)

theorem written_ne_nil (t : ProxyToken) : written t ≠ [] := List.cons_ne_nil _ _

/-- The traced expansion is the one of the code. -/
theorem map_tracedExpansion :
    (tracedExpansion template hostname originalHost port user).map Prod.fst =
      expandProxyCommandTokens template hostname originalHost port user := by
  unfold tracedExpansion
  rw [map_replaceInTurn fun t _ => written_ne_nil t, map_stage]
  have hwritten : spell id (Expansion.filled written (value hostname originalHost port user) [])
      (readTemplate template) = template := spell_readTemplate template
  rw [hwritten]
  rfl

/-- The expansion is that of one pass over the template, each character from where the one pass has it,
exactly when the parts between the tokens of each kind, with the values that were put in before, are
clear of the token. Its text is then that of the one pass. -/
theorem tracedExpansion_eq_iff (template hostname originalHost : Text) (port : ℕ) (user : Text) :
    (tracedExpansion template hostname originalHost port user).map Prod.fst =
        expandProxyCommandTokens template hostname originalHost port user ∧
      (tracedOnePass template hostname originalHost port user).map Prod.fst =
        onePass template hostname originalHost port user ∧
      (tracedExpansion template hostname originalHost port user =
          tracedOnePass template hostname originalHost port user ↔
        ∀ t, Clear (written t) (partsBefore template hostname originalHost port user t)) ∧
      ((∀ t, Clear (written t) (partsBefore template hostname originalHost port user t)) →
        expandProxyCommandTokens template hostname originalHost port user =
          onePass template hostname originalHost port user) := by
  have hiff : tracedExpansion template hostname originalHost port user =
        tracedOnePass template hostname originalHost port user ↔
      ∀ t, Clear (written t) (partsBefore template hostname originalHost port user t) := by
    refine (replaceInTurn_eq_iff (by decide) separated_inOrder fun t _ => mem_inOrder t).trans ?_
    exact ⟨fun h t => h t (mem_inOrder t), fun h t _ => h t⟩
  refine ⟨map_tracedExpansion, map_tracedOnePass, hiff, fun hclear => ?_⟩
  rw [← map_tracedExpansion, ← map_tracedOnePass]
  exact congrArg _ (hiff.mpr hclear)

/-- A doubled percent sign before a token's character: the one pass leaves the character alone. -/
theorem expansion_ne_onePass :
    expandProxyCommandTokens "%%h".toList "x".toList "x".toList 22 "u".toList ≠
      onePass "%%h".toList "x".toList "x".toList 22 "u".toList := by
  decide +kernel

end

end Termua.Ssh
