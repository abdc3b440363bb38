import Mathlib

/-!
# Control sequences

The front half of a terminal: the state machine that splits the text it receives into characters
to print, control characters and CSI sequences. `Parser.run` gives the actions of a text and the
state it leaves the parser in.

`Parses text actions` says that `text`, read between two sequences, means `actions` and ends
between two sequences; texts that parse can be joined (`Parses.append`). `csiText` prints a CSI
sequence, and `parses_csiText` is the round trip.
-/

namespace Vt

/-- What the terminal is told to do by a piece of its input. -/
inductive Action
  /-- Print a character at the cursor. -/
  | print (c : Char)
  /-- Execute a control character. -/
  | execute (c : Char)
  /-- A CSI sequence: its `;`-separated parameters, each a `:`-separated list of numbers, and its
  final byte. `question` tells the private sequences, which start with a question mark. -/
  | csi (question : Bool) (params : List (List ℕ)) (final : Char)
  deriving DecidableEq, Repr

/-- The state of the parser. Inside a CSI sequence it holds the finished parameters, the finished
numbers of the current one, and the number being read. -/
inductive Parser
  | ground
  | escape
  | entry
  | csi (question : Bool) (params : List (List ℕ)) (param : List ℕ) (value : ℕ)
  | ignore
  deriving DecidableEq, Repr

/-- C0 and C1 control characters and DEL. -/
def isControl (c : Char) : Bool := c < ' ' || ('\x7f' ≤ c && c ≤ '\u009f')

/-- The final bytes of a CSI sequence. -/
def isFinal (c : Char) : Bool := '@' ≤ c && c ≤ '~'

/-- The parameter, intermediate and private bytes, none of which ends a CSI sequence. -/
def isBody (c : Char) : Bool := ' ' ≤ c && c ≤ '?'

namespace Parser

/-- One character inside a CSI sequence. -/
def csiStep (question : Bool) (params : List (List ℕ)) (param : List ℕ) (value : ℕ) (c : Char) :
    Parser × Option Action :=
  if c.isDigit then (.csi question params param (10 * value + (c.toNat - '0'.toNat)), none)
  else if c = ';' then (.csi question (params ++ [param ++ [value]]) [] 0, none)
  else if c = ':' then (.csi question params (param ++ [value]) 0, none)
  else if isFinal c then (.ground, some (.csi question (params ++ [param ++ [value]]) c))
  else if c = '\x1b' then (.escape, none)
  else if isBody c then (.ignore, none)
  else (.csi question params param value, none)

/-- One character of the input. -/
def step : Parser → Char → Parser × Option Action
  | .ground, c =>
    if c = '\x1b' then (.escape, none)
    else if isControl c then (.ground, some (.execute c))
    else (.ground, some (.print c))
  | .escape, c =>
    if c = '[' then (.entry, none)
    else if c = '\x1b' then (.escape, none)
    else (.ground, none)
  | .entry, c => if c = '?' then (.csi true [] [] 0, none) else csiStep false [] [] 0 c
  | .csi question params param value, c => csiStep question params param value c
  | .ignore, c =>
    if isFinal c then (.ground, none)
    else if c = '\x1b' then (.escape, none)
    else (.ignore, none)

/-- The actions of a text and the state after it. -/
def run (p : Parser) : List Char → Parser × List Action
  | [] => (p, [])
  | c :: cs => (((p.step c).1.run cs).1, (p.step c).2.toList ++ ((p.step c).1.run cs).2)

@[simp] theorem run_nil (p : Parser) : p.run [] = (p, []) := rfl

theorem run_cons (p : Parser) (c : Char) (cs : List Char) :
    p.run (c :: cs) = (((p.step c).1.run cs).1, (p.step c).2.toList ++ ((p.step c).1.run cs).2) :=
  rfl

/-- A text is read in two parts like in one. -/
theorem run_append (p : Parser) (cs ds : List Char) :
    p.run (cs ++ ds) = (((p.run cs).1.run ds).1, (p.run cs).2 ++ ((p.run cs).1.run ds).2) := by
  induction cs generalizing p with
  | nil => rfl
  | cons c cs ih => simp [run_cons, ih, List.append_assoc]

end Parser

/-! ## Printing a CSI sequence -/

/-- The text of one parameter. -/
def paramText (param : List ℕ) : List Char := [':'].intercalate (param.map (Nat.toDigits 10))

/-- The text of the parameters of a sequence. -/
def paramsText (params : List (List ℕ)) : List Char := [';'].intercalate (params.map paramText)

/-- The text of a CSI sequence. -/
def csiText (question : Bool) (params : List (List ℕ)) (final : Char) : List Char :=
  ['\x1b', '['] ++ (if question then ['?'] else []) ++ paramsText params ++ [final]

@[simp] theorem paramText_singleton (n : ℕ) : paramText [n] = Nat.toDigits 10 n := by
  simp [paramText]

theorem paramText_cons_cons (n m : ℕ) (param : List ℕ) :
    paramText (n :: m :: param) = Nat.toDigits 10 n ++ ':' :: paramText (m :: param) := by
  simp [paramText, List.intercalate_cons_cons]

@[simp] theorem paramsText_singleton (param : List ℕ) : paramsText [param] = paramText param := by
  simp [paramsText]

theorem paramsText_cons_cons (p q : List ℕ) (params : List (List ℕ)) :
    paramsText (p :: q :: params) = paramText p ++ ';' :: paramsText (q :: params) := by
  simp [paramsText, List.intercalate_cons_cons]

/-- Two lists of parameters are joined by a semicolon. -/
theorem paramsText_append {ps qs : List (List ℕ)} (hps : ps ≠ []) (hqs : qs ≠ []) :
    paramsText (ps ++ qs) = paramsText ps ++ ';' :: paramsText qs := by
  induction ps with
  | nil => exact absurd rfl hps
  | cons p ps ih =>
    cases ps with
    | nil =>
      obtain ⟨q, qs, rfl⟩ := List.exists_cons_of_ne_nil hqs
      simp [paramsText_cons_cons]
    | cons p' ps =>
      rw [List.cons_append, List.cons_append, paramsText_cons_cons, paramsText_cons_cons,
        ← List.cons_append, ih (by simp)]
      simp

/-- Joining the texts of several lists of parameters gives the text of the joined list. -/
theorem intercalate_paramsText {groups : List (List (List ℕ))} (h : ∀ g ∈ groups, g ≠ []) :
    [';'].intercalate (groups.map paramsText) = paramsText groups.flatten := by
  induction groups with
  | nil => rfl
  | cons g groups ih =>
    cases groups with
    | nil => simp
    | cons g' groups =>
      have hrest : (g' :: groups).flatten ≠ [] := by
        simp [h g' (by simp)]
      have hflat : (g :: g' :: groups).flatten = g ++ (g' :: groups).flatten := rfl
      rw [List.map_cons, List.map_cons, List.intercalate_cons_cons, ← List.map_cons,
        ih fun g hg => h g (List.mem_cons_of_mem _ hg), hflat,
        paramsText_append (h g (by simp)) hrest]
      simp

/-- The text of parameters starts with a digit. -/
theorem paramsText_eq_cons {params : List (List ℕ)} (hparams : params ≠ [])
    (hne : ∀ p ∈ params, p ≠ []) : ∃ c cs, paramsText params = c :: cs ∧ c.isDigit = true := by
  obtain ⟨p, params, rfl⟩ := List.exists_cons_of_ne_nil hparams
  obtain ⟨n, p, rfl⟩ := List.exists_cons_of_ne_nil (hne p (by simp))
  obtain ⟨c, cs, hdigits⟩ := List.exists_cons_of_ne_nil (Nat.toDigits_ne_nil (n := n) (b := 10))
  have hc : c.isDigit = true :=
    Nat.isDigit_of_mem_toDigits (b := 10) (n := n) (by decide) (by decide) (by simp [hdigits])
  have hp : ∃ cs, paramText (n :: p) = c :: cs := by
    cases p with
    | nil => exact ⟨cs, by rw [paramText_singleton, hdigits]⟩
    | cons m p => exact ⟨_, by rw [paramText_cons_cons, hdigits, List.cons_append]⟩
  obtain ⟨cs, hp⟩ := hp
  cases params with
  | nil => exact ⟨c, cs, by rw [paramsText_singleton, hp], hc⟩
  | cons q params => exact ⟨c, _, by rw [paramsText_cons_cons, hp, List.cons_append], hc⟩

/-! ## Reading it back -/

namespace Parser

/-- Reading the digits of `n` where a number starts leaves `n` as the number read. -/
theorem run_digits (question : Bool) (params : List (List ℕ)) (param : List ℕ) (n : ℕ) :
    (csi question params param 0).run (Nat.toDigits 10 n) = (csi question params param n, []) := by
  have hrun : ∀ (ds : List Char) (value : ℕ), (∀ c ∈ ds, c.isDigit) →
      (csi question params param value).run ds =
        (csi question params param (Nat.ofDigitChars 10 ds value), []) := by
    intro ds
    induction ds with
    | nil => intro value _; rfl
    | cons c ds ih =>
      intro value hds
      have hstep : (csi question params param value).step c =
          (csi question params param (10 * value + (c.toNat - '0'.toNat)), none) := by
        simp [step, csiStep, hds c (by simp)]
      rw [run_cons, hstep, ih _ fun d hd => hds d (List.mem_cons_of_mem _ hd)]
      simp [Nat.ofDigitChars_cons]
  rw [hrun _ _ fun c hc => Nat.isDigit_of_mem_toDigits (by decide) (by decide) hc,
    Nat.ofDigitChars_ten_toDigits]

/-- A final byte ends the sequence. -/
theorem csiStep_final (question : Bool) (params : List (List ℕ)) (param : List ℕ) (n : ℕ) {c : Char}
    (hc : isFinal c = true) :
    csiStep question params param n c =
      (.ground, some (.csi question (params ++ [param ++ [n]]) c)) := by
  have hge : 64 ≤ c.toNat := by
    simp only [isFinal, Bool.and_eq_true, decide_eq_true_eq] at hc
    exact hc.1
  have hdigit : c.isDigit = false := by
    simp only [Char.isDigit, Bool.and_eq_false_iff, decide_eq_false_iff_not]
    refine .inr fun hle => ?_
    have : c.toNat ≤ 57 := hle
    omega
  have hsemi : c ≠ ';' := by rintro rfl; exact absurd hge (by decide)
  have hcolon : c ≠ ':' := by rintro rfl; exact absurd hge (by decide)
  simp [csiStep, hdigit, hsemi, hcolon, hc]

theorem csiStep_semicolon (question : Bool) (params : List (List ℕ)) (param : List ℕ) (n : ℕ) :
    csiStep question params param n ';' = (csi question (params ++ [param ++ [n]]) [] 0, none) :=
  rfl

theorem csiStep_colon (question : Bool) (params : List (List ℕ)) (param : List ℕ) (n : ℕ) :
    csiStep question params param n ':' = (csi question params (param ++ [n]) 0, none) := rfl

/-- Reading the text of a parameter and one more character is reading that character at the
parameter's end. -/
theorem run_paramText (question : Bool) (params : List (List ℕ)) (done param : List ℕ)
    (hparam : param ≠ []) :
    ∃ done' n, done' ++ [n] = done ++ param ∧
      (csi question params done 0).run (paramText param) = (csi question params done' n, []) := by
  induction param generalizing done with
  | nil => exact absurd rfl hparam
  | cons n param ih =>
    cases param with
    | nil => exact ⟨done, n, rfl, by rw [paramText_singleton, run_digits]⟩
    | cons m param =>
      obtain ⟨done', k, hdone, hrun⟩ := ih (done ++ [n]) (by simp)
      refine ⟨done', k, by simpa using hdone, ?_⟩
      rw [paramText_cons_cons, run_append, run_digits, run_cons]
      simp only [step, csiStep_colon, hrun]
      rfl

/-- Reading the text of the parameters leaves the parser at the end of the last one. -/
theorem run_paramsText (question : Bool) (done params : List (List ℕ)) (hparams : params ≠ [])
    (hne : ∀ p ∈ params, p ≠ []) :
    ∃ done' param n, done' ++ [param ++ [n]] = done ++ params ∧
      (csi question done [] 0).run (paramsText params) = (csi question done' param n, []) := by
  induction params generalizing done with
  | nil => exact absurd rfl hparams
  | cons p params ih =>
    obtain ⟨param, n, hp, hrun⟩ := run_paramText question done [] p (hne p (by simp))
    rw [List.nil_append] at hp
    cases params with
    | nil => exact ⟨done, param, n, by rw [hp], by rw [paramsText_singleton, hrun]⟩
    | cons q params =>
      obtain ⟨done', param', m, hdone, hrest⟩ :=
        ih (done ++ [p]) (by simp) fun p hp => hne p (List.mem_cons_of_mem _ hp)
      refine ⟨done', param', m, by simpa using hdone, ?_⟩
      rw [paramsText_cons_cons, run_append, hrun, run_cons]
      simp only [step, csiStep_semicolon, hp, hrest]
      rfl

end Parser

/-- A text that starts and ends between two sequences and means the given actions. -/
def Parses (text : List Char) (actions : List Action) : Prop :=
  Parser.ground.run text = (.ground, actions)

theorem Parses.nil : Parses [] [] := rfl

/-- Texts that parse can be joined. -/
theorem Parses.append {text text' : List Char} {actions actions' : List Action}
    (h : Parses text actions) (h' : Parses text' actions') :
    Parses (text ++ text') (actions ++ actions') := by
  rw [Parses, Parser.run_append, h, h']

/-- A character that is no control character is printed. -/
theorem parses_print {c : Char} (hc : isControl c = false) : Parses [c] [.print c] := by
  have hesc : c ≠ '\x1b' := by
    rintro rfl
    exact absurd hc (by decide)
  simp [Parses, Parser.run_cons, Parser.step, hesc, hc]

/-- A text without control characters prints its characters. -/
theorem parses_map_print {cs : List Char} (hcs : ∀ c ∈ cs, isControl c = false) :
    Parses cs (cs.map .print) := by
  induction cs with
  | nil => exact .nil
  | cons c cs ih =>
    exact (parses_print (hcs c (by simp))).append (ih fun d hd => hcs d (List.mem_cons_of_mem _ hd))

/-- A printed CSI sequence parses as itself. -/
theorem parses_csiText (question : Bool) {params : List (List ℕ)} {final : Char}
    (hparams : params ≠ []) (hne : ∀ p ∈ params, p ≠ []) (hfinal : isFinal final = true)  :
    Parses (csiText question params final) [.csi question params final] := by
  obtain ⟨done, param, n, hdone, hrun⟩ := Parser.run_paramsText question [] params hparams hne
  have hentry : Parser.entry.run ((if question then ['?'] else []) ++ paramsText params) =
      (.csi question done param n, []) := by
    cases question with
    | true => simpa [Parser.run_cons, Parser.step] using hrun
    | false =>
      obtain ⟨c, cs, hcs, hc⟩ := paramsText_eq_cons hparams hne
      have hq : c ≠ '?' := by rintro rfl; exact absurd hc (by decide)
      rw [hcs] at hrun ⊢
      simpa [Parser.run_cons, Parser.step, hq] using hrun
  have htext : csiText question params final =
      ['\x1b', '['] ++ (((if question then ['?'] else []) ++ paramsText params) ++ [final]) := by
    simp [csiText]
  rw [Parses, htext, Parser.run_append, Parser.run_append,
    show Parser.ground.run ['\x1b', '['] = (.entry, []) from rfl, hentry]
  simp [Parser.run_cons, Parser.step, Parser.csiStep_final _ _ _ _ hfinal, hdone]

end Vt
