import Mathlib
import Termua.Lib.Replace
import Termua.Lib.Text

/-!
# Expanding a template token by token

A template is read as characters and tokens (`Piece`). One pass over it writes the value of each token
in its place (`spell`); a program that replaces one token after the other in the whole text
(`replaceInTurn`) reads what it has put in before as well.

The items of a text carry where they come from (`Origin`), so that a text that only reads the same is
not taken for the same. The result is that of one pass exactly when the parts between the tokens of
each replacement are clear of what it looks for (`replaceInTurn_eq_iff`).
-/

namespace Expansion

open Replace (replace Clear map_replace replace_intercalate countP_replace_le countP_replace_lt)

/-- A piece of a template. -/
inductive Piece (β τ : Type*)
  | char (c : β)
  | token (t : τ)
  deriving DecidableEq

/-- Where an item of an expanded text comes from: it is a character of the template, of a token that
is not replaced yet, or of the value of a token. -/
inductive Origin (τ : Type*)
  | literal
  | token
  | value (t : τ)

variable {β γ δ τ : Type*}

/-- The pieces one after the other, each as it is spelt. -/
def spell (char : β → γ) (token : τ → List γ) (pieces : List (Piece β τ)) : List γ :=
  pieces.flatMap fun
    | .char c => [char c]
    | .token t => token t

/-- A token has its value when it is done, and is as it was written before. -/
def filled [DecidableEq τ] (written value : τ → List γ) (done : List τ) (t : τ) : List γ :=
  if t ∈ done then value t else written t

/-- The parts of a template between the tokens `t`, where the tokens that are done have their values. -/
def parts [DecidableEq β] [DecidableEq τ] (written value : τ → List β) (done : List τ) (t : τ)
    (pieces : List (Piece β τ)) : List (List β) :=
  (pieces.splitOn (.token t)).map (spell id (filled written value done))

/-- The tokens replaced one after the other in the whole text. -/
def replaceInTurn [DecidableEq β] (key : γ → β) (written : τ → List β) (value : τ → List γ)
    (tokens : List τ) (text : List γ) : List γ :=
  tokens.foldl (fun text t => replace key (written t) (value t) text) text

/-- A text with where it comes from. -/
def mark (origin : Origin τ) (text : List β) : List (β × Origin τ) := text.map (·, origin)

/-- The template where the tokens that are done have their values, with where the items come from. -/
def stage [DecidableEq τ] (written value : τ → List β) (done : List τ) (pieces : List (Piece β τ)) :
    List (β × Origin τ) :=
  spell (·, .literal)
    (filled (fun t => mark .token (written t)) (fun t => mark (.value t) (value t)) done) pieces

/-- The last character of a token is in no token that is replaced behind it, and once only in the token
itself unless no token is replaced behind it. -/
def Separated (written : τ → List β) : List τ → Prop
  | [] => True
  | t :: rest =>
    (∃ b ∈ (written t).getLast?, (∀ u ∈ rest, b ∉ written u) ∧
      (b ∈ (written t).dropLast → rest = [])) ∧ Separated written rest

variable {written value : τ → List β} {done tokens : List τ} {t : τ} {pieces : List (Piece β τ)}

/-! ## Spelling -/

theorem map_spell (f : γ → δ) (char : β → γ) (token : τ → List γ) (pieces : List (Piece β τ)) :
    (spell char token pieces).map f =
      spell (fun c => f (char c)) (fun t => (token t).map f) pieces := by
  unfold spell
  rw [List.map_flatMap]
  congr 1
  funext piece
  cases piece <;> rfl

theorem spell_congr {char : β → γ} {token token' : τ → List γ} {pieces : List (Piece β τ)}
    (h : ∀ t, .token t ∈ pieces → token t = token' t) :
    spell char token pieces = spell char token' pieces := by
  unfold spell
  refine List.flatMap_congr fun piece hpiece => ?_
  cases piece with
  | char c => rfl
  | token t => exact h t hpiece

/-- A template is its parts, with a token between every two of them. -/
theorem spell_eq_intercalate [DecidableEq β] [DecidableEq τ] (char : β → γ) (token : τ → List γ)
    (t : τ) (pieces : List (Piece β τ)) :
    spell char token pieces =
      (token t).intercalate ((pieces.splitOn (.token t)).map (spell char token)) := by
  have hspell (ls : List (List (Piece β τ))) :
      spell char token (List.intercalate [.token t] ls) =
        (token t).intercalate (ls.map (spell char token)) := by
    induction ls with
    | nil => rfl
    | cons l ls ih =>
      cases ls with
      | nil => simp
      | cons l' ls =>
        rw [List.intercalate_cons_cons, List.map_cons, List.map_cons, List.intercalate_cons_cons,
          ← List.map_cons, ← ih]
        simp [spell]
  rw [← hspell, List.intercalate_splitOn]

variable [DecidableEq τ]

/-- A stage without where its items come from. -/
theorem map_stage (done : List τ) (pieces : List (Piece β τ)) :
    (stage written value done pieces).map Prod.fst = spell id (filled written value done) pieces := by
  unfold stage
  rw [map_spell]
  refine spell_congr fun t _ => ?_
  unfold filled
  split <;> simp [mark, Function.comp_def]

theorem filled_concat_of_ne {u : τ} {written value : τ → List γ} (h : u ≠ t) :
    filled written value (done ++ [t]) u = filled written value done u := by
  unfold filled
  simp [h]

/-! ## A replacement -/

variable [DecidableEq β]

/-- A token that is not done stands between the parts. -/
theorem stage_eq_intercalate (ht : t ∉ done) :
    stage written value done pieces = (mark .token (written t)).intercalate
      ((pieces.splitOn (.token t)).map (stage written value done)) := by
  have hbefore : filled (fun t => mark .token (written t)) (fun t => mark (.value t) (value t)) done t =
      mark .token (written t) := if_neg ht
  rw [← hbefore]
  exact spell_eq_intercalate _ _ t pieces

theorem map_map_stage :
    ((pieces.splitOn (.token t)).map (stage written value done)).map (List.map Prod.fst) =
      parts written value done t pieces := by
  rw [List.map_map]
  exact List.map_congr_left fun part _ => map_stage done part

omit [DecidableEq β] [DecidableEq τ] in
theorem map_mark (origin : Origin τ) (text : List β) : (mark origin text).map Prod.fst = text := by
  simp [mark, Function.comp_def]

/-- Between clear parts the values of a token are put in. -/
theorem replace_stage (hne : written t ≠ []) (ht : t ∉ done)
    (hclear : Clear (written t) (parts written value done t pieces)) :
    replace Prod.fst (written t) (mark (.value t) (value t)) (stage written value done pieces) =
      stage written value (done ++ [t]) pieces := by
  -- the parts have no token `t`, so that putting its value in leaves them alone
  have hstay (part : List (Piece β τ)) (hpart : part ∈ pieces.splitOn (.token t)) :
      stage written value done part = stage written value (done ++ [t]) part := by
    refine spell_congr fun u hu => (filled_concat_of_ne ?_).symm
    rintro rfl
    exact Text.notMem_of_mem_splitOn hpart hu
  have hafter : filled (fun t => mark .token (written t)) (fun t => mark (.value t) (value t))
      (done ++ [t]) t = mark (.value t) (value t) :=
    if_pos (List.mem_append_right _ List.mem_cons_self)
  have hparts : Clear (written t)
      (((pieces.splitOn (.token t)).map (stage written value done)).map (List.map Prod.fst)) := by
    rwa [map_map_stage]
  rw [stage_eq_intercalate ht, replace_intercalate hne (map_mark .token (written t)) hparts,
    List.map_congr_left hstay, ← hafter]
  exact (spell_eq_intercalate _ _ t pieces).symm

omit [DecidableEq τ] in
/-- Where the items come from has no part in what is replaced. -/
theorem map_replaceInTurn (hne : ∀ t ∈ tokens, written t ≠ []) (text : List (β × Origin τ)) :
    (replaceInTurn Prod.fst written (fun t => mark (.value t) (value t)) tokens text).map Prod.fst =
      replaceInTurn id written value tokens (text.map Prod.fst) := by
  induction tokens generalizing text with
  | nil => rfl
  | cons t tokens ih =>
    have hstep : (replace Prod.fst (written t) (mark (.value t) (value t)) text).map Prod.fst =
        replace id (written t) (value t) (text.map Prod.fst) := by
      have hmap : (replace Prod.fst (written t) (mark (.value t) (value t)) text).map Prod.fst =
          replace id (written t) ((mark (.value t) (value t)).map Prod.fst) (text.map Prod.fst) :=
        map_replace id Prod.fst (hne t List.mem_cons_self) (fun _ => rfl) text
      rwa [map_mark] at hmap
    show (replaceInTurn _ _ _ tokens _).map Prod.fst = replaceInTurn _ _ _ tokens _
    rw [ih fun u hu => hne u (List.mem_cons_of_mem _ hu)]
    exact congrArg _ hstep

/-! ## What a replacement must not take -/

/-- The item is a character of the template, or of the value of a token that is done. -/
def kept (done : List τ) : β × Origin τ → Bool
  | (_, .literal) => true
  | (_, .token) => false
  | (_, .value t) => t ∈ done

omit [DecidableEq β] in
/-- What is not kept is a character of a token that is not done. -/
theorem kept_or_mem_written {x : β × Origin τ} (h : x ∈ stage written value done pieces) :
    kept done x = true ∨ ∃ u, .token u ∈ pieces ∧ u ∉ done ∧ x.1 ∈ written u := by
  obtain ⟨piece, hpiece, hx⟩ := List.mem_flatMap.mp h
  cases piece with
  | char c =>
    obtain rfl := List.mem_singleton.mp hx
    exact .inl rfl
  | token u =>
    simp only [filled] at hx
    split at hx
    · next hu =>
      obtain ⟨c, -, rfl⟩ := List.mem_map.mp hx
      exact .inl (decide_eq_true hu)
    · next hu =>
      obtain ⟨c, hc, rfl⟩ := List.mem_map.mp hx
      exact .inr ⟨u, hpiece, hu, hc⟩

omit [DecidableEq β] in
/-- Of a token that is not done nothing is kept, whether it is replaced later or not. -/
theorem countP_kept_filled {done' : List τ} (h : t ∉ done) :
    (filled (fun t => mark .token (written t)) (fun t => mark (.value t) (value t)) done' t).countP
      (kept done) = 0 := by
  refine List.countP_eq_zero.mpr fun x hx => ?_
  unfold filled at hx
  split at hx <;> obtain ⟨c, -, rfl⟩ := List.mem_map.mp hx
  · simpa [kept] using h
  · simp [kept]

omit [DecidableEq β] in
/-- What is kept stays where more tokens are done. -/
theorem countP_kept_stage {done' : List τ} (h : done ⊆ done') :
    (stage written value done' pieces).countP (kept done) =
      (stage written value done pieces).countP (kept done) := by
  unfold stage spell
  rw [List.countP_flatMap, List.countP_flatMap]
  congr 1
  refine List.map_congr_left fun piece _ => ?_
  cases piece with
  | char c => rfl
  | token t =>
    simp only [Function.comp_apply]
    by_cases ht : t ∈ done
    · rw [filled, filled, if_pos ht, if_pos (h ht)]
    · rw [countP_kept_filled ht, countP_kept_filled ht]

/-- Replacing other tokens adds nothing to what is kept. -/
theorem countP_replaceInTurn_le (hne : ∀ t ∈ tokens, written t ≠ [])
    (htokens : ∀ t ∈ tokens, t ∉ done) (text : List (β × Origin τ)) :
    (replaceInTurn Prod.fst written (fun t => mark (.value t) (value t)) tokens text).countP
      (kept done) ≤ text.countP (kept done) := by
  induction tokens generalizing text with
  | nil => exact le_rfl
  | cons t tokens ih =>
    have hvalue : (mark (.value t) (value t)).countP (kept done) = 0 := by
      refine List.countP_eq_zero.mpr fun x hx => ?_
      obtain ⟨c, -, rfl⟩ := List.mem_map.mp hx
      simpa [kept] using htokens t List.mem_cons_self
    exact (ih (fun u hu => hne u (List.mem_cons_of_mem _ hu))
      (fun u hu => htokens u (List.mem_cons_of_mem _ hu)) _).trans
        (countP_replace_le (hne t List.mem_cons_self) hvalue text)

/-- An occurrence in a part, or one that runs on from it into a token, has an item that is kept. -/
theorem exists_kept {rest : List τ} (hsep : Separated written (t :: rest))
    {part : List (Piece β τ)} (hpart : ∀ u, .token u ∈ part → u ∉ done → u ∈ rest)
    {u : List (β × Origin τ)} (hu : u.map Prod.fst = written t)
    (hin : u <:+: stage written value done part ++ (mark .token (written t)).dropLast) :
    ∃ x ∈ u, kept done x = true := by
  obtain ⟨⟨b, hb, hrest, honce⟩, -⟩ := hsep
  have hmap : ((mark (.token : Origin τ) (written t)).dropLast).map Prod.fst =
      (written t).dropLast := by
    rw [List.map_dropLast, map_mark]
  have hne : u ≠ [] := by
    rintro rfl
    rw [← hu] at hb
    cases hb
  by_cases hdrop : b ∈ (written t).dropLast
  · -- no token is replaced behind it, so that all of the part is kept; it has the first item
    obtain rfl := honce hdrop
    have hkept (x) (hx : x ∈ stage written value done part) : kept done x = true := by
      rcases kept_or_mem_written hx with hkept | ⟨v, hv, hdone, -⟩
      · exact hkept
      · exact absurd (hpart v hv hdone) List.not_mem_nil
    have hlength : ((mark (.token : Origin τ) (written t)).dropLast).length < u.length := by
      rw [← List.length_map Prod.fst, hmap, ← hu, List.length_dropLast, List.length_map]
      have := List.length_pos_iff.mpr hne
      omega
    obtain ⟨before, behind, happend⟩ := hin
    rw [List.append_assoc, List.append_eq_append_iff] at happend
    rcases happend with ⟨first, hfirst, hrun⟩ | ⟨gap, -, hgap⟩
    · cases first with
      | nil =>
        have := congrArg List.length hrun
        simp only [List.length_append, List.nil_append] at this
        omega
      | cons x first =>
        obtain ⟨y, u, rfl⟩ := List.exists_cons_of_ne_nil hne
        obtain ⟨rfl, -⟩ := List.cons.inj hrun
        refine ⟨y, List.mem_cons_self, hkept y ?_⟩
        rw [hfirst]
        exact List.mem_append_right _ List.mem_cons_self
    · have := congrArg List.length hgap
      simp only [List.length_append] at this
      omega
  · -- the last item is in the part, and no token that is left has its character
    have hlast : (u.getLast hne).1 = b := by
      rw [← hu, List.getLast?_map, List.getLast?_eq_some_getLast hne] at hb
      exact Option.some.inj hb
    refine ⟨u.getLast hne, List.getLast_mem hne, ?_⟩
    rcases List.mem_append.mp (hin.subset (List.getLast_mem hne)) with hx | hx
    · rcases kept_or_mem_written hx with hkept | ⟨v, hv, hdone, hmem⟩
      · exact hkept
      · exact absurd (hlast ▸ hmem) (hrest v (hpart v hv hdone))
    · refine absurd ?_ hdrop
      rw [← hlast, ← hmap]
      exact List.mem_map_of_mem hx

omit [DecidableEq β] [DecidableEq τ] in
theorem Separated.ne_nil (h : Separated written tokens) (ht : t ∈ tokens) : written t ≠ [] := by
  induction tokens with
  | nil => cases ht
  | cons u tokens ih =>
    rcases List.mem_cons.mp ht with rfl | ht
    · obtain ⟨⟨b, hb, -⟩, -⟩ := h
      intro hnil
      rw [hnil] at hb
      cases hb
    · exact ih h.2 ht

/-- Every piece of a part is one of the template. -/
theorem mem_of_mem_splitOn {piece sep : Piece β τ} {part : List (Piece β τ)}
    (hpart : part ∈ pieces.splitOn sep) (hpiece : piece ∈ part) : piece ∈ pieces := by
  have hmem (ls : List (List (Piece β τ))) (hls : part ∈ ls) : piece ∈ List.intercalate [sep] ls := by
    induction ls with
    | nil => cases hls
    | cons l ls ih =>
      cases ls with
      | nil =>
        obtain rfl := List.mem_singleton.mp hls
        rwa [List.intercalate_singleton]
      | cons l' ls =>
        rw [List.intercalate_cons_cons]
        rcases List.mem_cons.mp hls with rfl | hls
        · exact List.mem_append_left _ (List.mem_append_left _ hpiece)
        · exact List.mem_append_right _ (ih hls)
  have hpieces := hmem _ hpart
  rwa [List.intercalate_splitOn] at hpieces

/-- Between parts that are not all clear something that is kept is lost. -/
theorem countP_replace_stage_lt {rest : List τ} (hsep : Separated written (t :: rest)) (ht : t ∉ done)
    (hall : ∀ u, .token u ∈ pieces → u ∉ done → u ∈ t :: rest)
    (hclear : ¬ Clear (written t) (parts written value done t pieces)) :
    (replace Prod.fst (written t) (mark (.value t) (value t)) (stage written value done pieces)).countP
      (kept done) < (stage written value done pieces).countP (kept done) := by
  have hvalue : (mark (.value t) (value t)).countP (kept done) = 0 := by
    refine List.countP_eq_zero.mpr fun x hx => ?_
    obtain ⟨c, -, rfl⟩ := List.mem_map.mp hx
    simpa [kept] using ht
  rw [stage_eq_intercalate ht]
  refine countP_replace_lt (hsep.ne_nil List.mem_cons_self) (map_mark .token (written t)) hvalue ?_
    (by rwa [map_map_stage])
  intro spelt hspelt u hu hin
  obtain ⟨part, hpart, rfl⟩ := List.mem_map.mp hspelt
  refine exists_kept hsep (fun v hv hdone => ?_) hu hin
  rcases List.mem_cons.mp (hall v (mem_of_mem_splitOn hpart hv) hdone) with rfl | hrest
  · exact absurd hv (Text.notMem_of_mem_splitOn hpart)
  · exact hrest

/-- Where the replacements up to `done` were of the template's own tokens, the others are of them as
well exactly where the parts between the tokens of each replacement are clear. -/
theorem replaceInTurn_stage_iff (hnodup : (done ++ tokens).Nodup) (hsep : Separated written tokens)
    (hall : ∀ u, .token u ∈ pieces → u ∈ done ++ tokens) :
    replaceInTurn Prod.fst written (fun t => mark (.value t) (value t)) tokens
        (stage written value done pieces) = stage written value (done ++ tokens) pieces ↔
      ∀ t ∈ tokens, Clear (written t)
        (parts written value (done ++ tokens.takeWhile (· ≠ t)) t pieces) := by
  induction tokens generalizing done with
  | nil => exact iff_of_true (by rw [List.append_nil]; rfl) fun t ht => absurd ht List.not_mem_nil
  | cons t tokens ih =>
    have ht : t ∉ done := fun hdone =>
      (List.nodup_append.mp hnodup).2.2 t hdone t List.mem_cons_self rfl
    have hassoc : done ++ t :: tokens = done ++ [t] ++ tokens := by simp
    by_cases hclear : Clear (written t) (parts written value done t pieces)
    · -- the tokens `t` are replaced, and nothing else
      have hstep := replace_stage (hsep.ne_nil List.mem_cons_self) ht hclear
      have hnodup' : (done ++ [t] ++ tokens).Nodup := hassoc ▸ hnodup
      show replaceInTurn _ _ _ tokens (replace _ _ _ _) = _ ↔ _
      rw [hstep, hassoc, ih hnodup' hsep.2 (hassoc ▸ hall)]
      have htail (u : τ) (hu : u ∈ tokens) :
          done ++ (t :: tokens).takeWhile (· ≠ u) = done ++ [t] ++ tokens.takeWhile (· ≠ u) := by
        have hne : t ≠ u := by
          rintro rfl
          exact (List.nodup_cons.mp (List.nodup_append.mp hnodup).2.1).1 hu
        rw [List.takeWhile_cons_of_pos (by simpa using hne), List.append_assoc]
        rfl
      rw [List.forall_mem_cons, List.takeWhile_cons_of_neg (by simp), List.append_nil]
      constructor
      · exact fun h => ⟨hclear, fun u hu => htail u hu ▸ h u hu⟩
      · exact fun h u hu => htail u hu ▸ h.2 u hu
    · -- something that is kept is lost, and no later replacement puts it back
      refine iff_of_false (fun heq => ?_) fun h => ?_
      · have hlost := countP_replace_stage_lt hsep ht
          (fun u hu hdone => (List.mem_append.mp (hall u hu)).resolve_left hdone) hclear
        have hother (u : τ) (hu : u ∈ tokens) : u ∉ done := fun hdone =>
          (List.nodup_append.mp hnodup).2.2 u hdone u (List.mem_cons_of_mem _ hu) rfl
        have hcount := congrArg (List.countP (kept done)) heq
        rw [countP_kept_stage (List.subset_append_left done (t :: tokens))] at hcount
        refine hlost.not_ge (hcount.symm.trans_le ?_)
        exact countP_replaceInTurn_le (fun u hu => hsep.ne_nil (List.mem_cons_of_mem _ hu)) hother _
      · have hfirst := h t List.mem_cons_self
        rw [List.takeWhile_cons_of_neg (by simp), List.append_nil] at hfirst
        exact hclear hfirst

/-- Replacing one token after the other gives what one pass over the template gives, each item from
where it has it, exactly when the parts between the tokens of each replacement, with the values that
were put in before, are clear of the token. -/
theorem replaceInTurn_eq_iff (hnodup : tokens.Nodup) (hsep : Separated written tokens)
    (hall : ∀ u, .token u ∈ pieces → u ∈ tokens) :
    replaceInTurn Prod.fst written (fun t => mark (.value t) (value t)) tokens
        (stage written value [] pieces) = stage written value tokens pieces ↔
      ∀ t ∈ tokens, Clear (written t) (parts written value (tokens.takeWhile (· ≠ t)) t pieces) :=
  replaceInTurn_stage_iff (List.nil_append tokens ▸ hnodup) hsep (List.nil_append tokens ▸ hall)

end Expansion
