import Mathlib
import Termua.Lib.Json
import Termua.Session.Store

/-!
# The JSON columns of a session

`session_env` and `ssh_proxy_env` hold the array of an environment, and `ssh_proxy_jump` the array of
the hops of a proxy, as `serde_json` writes them. `compactJson` writes these texts and reads them
back (`compactJson_roundTrips`).
-/

namespace Termua.Session

/-- What the store uses of `serde_json` and `serde_json_lenient`, the hops read back among it. -/
structure StoreJson extends SessionJson where
  readJump : Text → Option (List SshJumpHop)

/-- The port of a hop is a `u16`. -/
def SshJumpHop.Typed (hop : SshJumpHop) : Prop := ∀ port ∈ hop.port, port < 2 ^ 16

/-- What was written is read back. -/
structure StoreJson.RoundTrips (json : StoreJson) : Prop where
  env : ∀ env, json.readEnv (json.envText env) = some env
  jump : ∀ hops, (∀ hop ∈ hops, hop.Typed) → json.readJump (json.jumpText hops) = some hops

/-! ## The compact texts -/

/-- The object of a variable. -/
def varText (var : SessionEnvVar) : Text :=
  "\x7b\"name\":".toList ++ Json.quote var.name ++ ",\"value\":".toList ++ Json.quote var.value ++
    "\x7d".toList

/-- The object of a variable and what follows it. -/
def readVar (text : Text) : Option (SessionEnvVar × Text) := do
  let rest ← Json.expect "\x7b\"name\":".toList text
  let (name, rest) ← Json.readString rest
  let rest ← Json.expect ",\"value\":".toList rest
  let (value, rest) ← Json.readString rest
  let rest ← Json.expect "\x7d".toList rest
  some (⟨name, value⟩, rest)

/-- The object of a hop. -/
def hopText (hop : SshJumpHop) : Text :=
  "\x7b\"host\":".toList ++ Json.quote hop.host ++ ",\"user\":".toList ++
    Json.optional Json.quote hop.user ++ ",\"port\":".toList ++
    Json.optional (Nat.toDigits 10) hop.port ++ "\x7d".toList

/-- A `u16` and what follows it. -/
def readPort (text : Text) : Option (ℕ × Text) :=
  (Json.readNat text).filter fun (port, _) => port < 2 ^ 16

/-- The object of a hop and what follows it. -/
def readHop (text : Text) : Option (SshJumpHop × Text) := do
  let rest ← Json.expect "\x7b\"host\":".toList text
  let (host, rest) ← Json.readString rest
  let rest ← Json.expect ",\"user\":".toList rest
  let (user, rest) ← Json.readOptional Json.readString rest
  let rest ← Json.expect ",\"port\":".toList rest
  let (port, rest) ← Json.readOptional readPort rest
  let rest ← Json.expect "\x7d".toList rest
  some (⟨host, user, port⟩, rest)

/-- A text that is one value. -/
def readWhole {α : Type} (read : Text → Option (α × Text)) (text : Text) : Option α :=
  (read text).bind fun (x, rest) => if rest = [] then some x else none

/-- The compact texts and their readers. -/
def compactJson : StoreJson where
  envText := Json.array varText
  jumpText := Json.array hopText
  readEnv := readWhole (Json.readArray readVar)
  readJump := readWhole (Json.readArray readHop)

/-! ## Reading back -/

variable {rest : Text}

theorem readVar_varText (var : SessionEnvVar) : readVar (varText var ++ rest) = some (var, rest) := by
  unfold readVar varText
  simp only [List.append_assoc, Json.expect_append, Json.readString_quote, Option.bind_eq_bind,
    Option.bind_some]

theorem expect_null_quote (text : Text) :
    Json.expect "null".toList (Json.quote text ++ rest) = none := rfl

theorem expect_null_of_digit {c : Char} {cs : Text} (h : c.isDigit = true) :
    Json.expect "null".toList (c :: cs) = none := by
  unfold Json.expect
  rw [if_neg]
  intro hprefix
  obtain ⟨-, rfl⟩ := (List.cons_prefix_cons.mp (List.isPrefixOf_iff_prefix.mp hprefix)) |>.symm
  cases h

theorem readOptional_user (user : Option Text) :
    Json.readOptional Json.readString (Json.optional Json.quote user ++ rest) = some (user, rest) :=
  Json.readOptional_optional (fun _ _ => Json.readString_quote) fun text _ => expect_null_quote text

theorem readOptional_port {port : Option ℕ} (h : ∀ p ∈ port, p < 2 ^ 16)
    (hrest : ∀ d ∈ rest.head?, d.isDigit = false) :
    Json.readOptional readPort (Json.optional (Nat.toDigits 10) port ++ rest) = some (port, rest) := by
  refine Json.readOptional_optional (fun p hp => ?_) fun p _ => ?_
  · unfold readPort
    rw [Json.readNat_toDigits hrest]
    simpa using h p hp
  · obtain ⟨d, ds, hdigits⟩ := List.exists_cons_of_ne_nil (Nat.toDigits_ne_nil (n := p) (b := 10))
    have hmem : d ∈ Nat.toDigits 10 p := hdigits ▸ List.mem_cons_self
    have hd : d.isDigit = true := Nat.isDigit_of_mem_toDigits (by decide) (by decide) hmem
    rw [hdigits]
    exact expect_null_of_digit hd

theorem readHop_hopText {hop : SshJumpHop} (h : hop.Typed) :
    readHop (hopText hop ++ rest) = some (hop, rest) := by
  have hport : Json.readOptional readPort (Json.optional (Nat.toDigits 10) hop.port ++
      ("\x7d".toList ++ rest)) = some (hop.port, "\x7d".toList ++ rest) := by
    refine readOptional_port h fun d hd => ?_
    obtain rfl := Option.some.inj hd
    rfl
  unfold readHop hopText
  simp only [List.append_assoc, Json.expect_append, Json.readString_quote, readOptional_user, hport,
    Option.bind_eq_bind, Option.bind_some]

theorem readWhole_of_eq {α : Type} {read : Text → Option (α × Text)} {text : Text} {x : α}
    (h : read (text ++ []) = some (x, [])) : readWhole read text = some x := by
  rw [List.append_nil] at h
  unfold readWhole
  rw [h]
  rfl

theorem head_varText (var : SessionEnvVar) : (varText var ++ rest).head? = some '\x7b' := by
  unfold varText
  simp only [List.append_assoc]
  rfl

theorem head_hopText (hop : SshJumpHop) : (hopText hop ++ rest).head? = some '\x7b' := by
  unfold hopText
  simp only [List.append_assoc]
  rfl

theorem compactJson_roundTrips : compactJson.RoundTrips where
  env := by
    intro env
    refine readWhole_of_eq (Json.readArray_array (fun var _ _ => readVar_varText var) ?_)
    intro var rest
    rw [head_varText]
    decide
  jump := by
    intro hops htyped
    refine readWhole_of_eq (Json.readArray_array (fun hop hhop _ => readHop_hopText (htyped hop hhop)) ?_)
    intro hop rest
    rw [head_hopText]
    decide

end Termua.Session
