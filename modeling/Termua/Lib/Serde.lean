import Mathlib
import Termua.Lib.JsonValue
import Termua.Lib.Table

/-!
# Derived readers and writers

What serde derives for structures, enumerations, options and maps, on the values of JSON documents. A
structure is an object with its fields, or an array of them in order; a field that is absent has its
default. `Reads read v x` says that the reader takes the value for `x` and does not take it for an
absent one; each writer has a lemma that its values are read.
-/

namespace Serde

open Json (Value Numeral)

/-- A text. -/
abbrev Text := List Char

/-! ## Scalars -/

/-- `bool`. -/
def readBool : Value → Option Bool
  | .bool b => some b
  | _ => none

/-- `String`. -/
def readText : Value → Option Text
  | .string s => some s
  | _ => none

/-- An unsigned integer of the width. -/
def readUnsigned (width : ℕ) : Value → Option (BitVec width)
  | .number n =>
    match Json.readNat n.literal with
    | some (value, []) => if value < 2 ^ width then some (.ofNat width value) else none
    | _ => none
  | _ => none

/-- A floating-point number, with the reader of its literal. -/
def readFloat {α : Type} (read : Numeral → Option α) : Value → Option α
  | .number n => read n
  | _ => none

theorem isNumeral_of_mem_toDigits {n : ℕ} {c : Char} (h : c ∈ Nat.toDigits 10 n) :
    Json.isNumeral c = true := by
  unfold Json.isNumeral
  rw [Nat.isDigit_of_mem_toDigits (by decide) (by decide) h]
  rfl

/-- The literal of a natural number. -/
def numeral (n : ℕ) : Numeral where
  literal := Nat.toDigits 10 n
  ne_nil := Nat.toDigits_ne_nil
  numeral _ := isNumeral_of_mem_toDigits

/-- An unsigned integer. -/
def writeUnsigned {width : ℕ} (n : BitVec width) : Value := .number (numeral n.toNat)

/-! ## Options, enumerations and lists -/

/-- `Option`: `null` is nothing. -/
def readOption {α : Type} (read : Value → Option α) : Value → Option (Option α)
  | .null => some none
  | v => (read v).map some

/-- `Option`. -/
def writeOption {α : Type} (write : α → Value) : Option α → Value
  | none => .null
  | some x => write x

/-- The variants of an enumeration without data, with their names. -/
structure Variants (α : Type) where
  all : List α
  name : α → String
  mem_all : ∀ x, x ∈ all
  name_injective : Function.Injective name

namespace Variants

variable {α : Type} (variants : Variants α)

/-- The variant of the name. -/
def ofName (name : Text) : Option α := variants.all.find? fun x => (variants.name x).toList = name

/-- An enumeration without data: the name of the variant, or an object that maps it to `null`. -/
def read : Value → Option α
  | .string name => variants.ofName name
  | .object [(name, .null)] => variants.ofName name
  | _ => none

/-- An enumeration without data. -/
def write (x : α) : Value := .string (variants.name x).toList

theorem ofName_name (x : α) : variants.ofName (variants.name x).toList = some x := by
  rcases hy : variants.ofName (variants.name x).toList with _ | y
  · exact absurd rfl (of_decide_eq_false (Bool.eq_false_of_not_eq_true
      (List.find?_eq_none.mp hy x (variants.mem_all x))))
  · have hname : (variants.name y).toList = (variants.name x).toList := by
      simpa using List.find?_some hy
    rw [variants.name_injective (String.toList_inj.mp hname)]

end Variants

/-- A `HashMap` from texts to texts. Its order is that of the insertions; nothing depends on it. -/
abbrev TextMap := AList fun _ : Text => Text

/-- The map with a value for the key, in the place of the one it has or behind the others. -/
def put {κ α : Type} [DecidableEq κ] (k : κ) (x : α) (m : AList fun _ : κ => α) :
    AList fun _ : κ => α :=
  if k ∈ m then m.replace k x else Table.push k x m

/-- The map with the entries put in one after the other. -/
def putAll {κ α : Type} [DecidableEq κ] (entries : List (κ × α)) : AList fun _ : κ => α :=
  entries.foldl (fun m e => put e.1 e.2 m) ∅

/-- The entries of a map. -/
def pairs {κ α : Type} (m : AList fun _ : κ => α) : List (κ × α) := m.entries.map fun e => (e.1, e.2)

/-- `HashMap<String, String>`. -/
def readTextMap : Value → Option TextMap
  | .object members =>
    (members.mapM fun e : Text × Value => (readText e.2).map (e.1, ·)).map putAll
  | _ => none

/-- `Vec`. -/
def readArray {α : Type} (read : Value → Option α) : Value → Option (List α)
  | .array items => items.mapM read
  | _ => none

/-- A map from texts; the last of two members with one name counts. -/
def readMap {α : Type} (read : Value → Option α) : Value → Option (AList fun _ : Text => α)
  | .object members =>
    (members.mapM fun e : Text × Value => (read e.2).map (e.1, ·)).map putAll
  | _ => none

/-- `HashMap<String, String>`. -/
def writeTextMap (m : TextMap) : Value :=
  .object ((pairs m).map fun (name, text) => (name, .string text))

/-! ## Structures -/

/-- The fields of a structure with their values. The names are those of the source. -/
abbrev Fields := String → Option Value

/-- The members of an object that are called so. -/
def membersOf (members : List (Text × Value)) (name : String) : List (Text × Value) :=
  members.filter (·.1 = name.toList)

/-- The fields of a structure; a field that is there twice is an error. -/
def structFields (names : List String) : Value → Option Fields
  | .object members =>
    if ∀ name ∈ names, (membersOf members name).length ≤ 1 then
      some fun name => (membersOf members name).head?.map (·.2)
    else none
  | .array items =>
    if items.length ≤ names.length then some fun name => items[names.idxOf name]? else none
  | _ => none

/-- A field with a default. -/
def field {α : Type} (read : Value → Option α) (default : α) : Option Value → Option α
  | none => some default
  | some v => read v

/-- A structure with its fields in order. -/
def writeStruct (members : List (String × Value)) : Value :=
  .object (members.map fun (name, v) => (name.toList, v))

/-! ## Maps -/

theorem lookup_cons {κ α : Type} [DecidableEq κ] [BEq κ] [LawfulBEq κ] {k x : κ} {a : α}
    (entries : List (κ × α)) :
    ((k, a) :: entries).lookup x = if x = k then some a else entries.lookup x := by
  rw [List.lookup_cons]
  by_cases hx : x = k
  · rw [if_pos hx, beq_iff_eq.mpr hx]
  · rw [if_neg hx, beq_false_of_ne hx]

section Maps

variable {κ α : Type} [DecidableEq κ] {k x : κ} {a : α} {m : AList fun _ : κ => α}

theorem lookup_put : (put k a m).lookup x = if x = k then some a else m.lookup x := by
  unfold put
  split
  · next hk =>
    obtain ⟨b, hb⟩ := Option.isSome_iff_exists.mp (AList.lookup_isSome.mpr hk)
    refine Table.dlookup_kreplace.trans ?_
    rw [show m.entries.dlookup k = some b from hb]
    rfl
  · next hk => exact Table.lookup_push hk

omit [DecidableEq κ] in
theorem keys_pairs : (pairs m).map (·.1) = m.keys := by
  unfold pairs AList.keys List.keys
  rw [List.map_map]
  rfl

theorem lookup_pairs : (pairs m).lookup x = m.lookup x := by
  unfold pairs AList.lookup
  induction m.entries with
  | nil => rfl
  | cons e entries ih =>
    obtain ⟨k, b⟩ := e
    by_cases hx : x = k
    · subst hx
      simp
    · rw [List.dlookup_cons_ne _ _ hx, ← ih, List.map_cons, List.lookup_cons, beq_false_of_ne hx]

/-- Entries of new keys come behind the others. -/
theorem pairs_foldl_put (entries : List (κ × α)) (hnodup : (entries.map (·.1)).Nodup)
    (hnew : ∀ e ∈ entries, e.1 ∉ m) :
    pairs (entries.foldl (fun m e => put e.1 e.2 m) m) = pairs m ++ entries := by
  induction entries generalizing m with
  | nil => simp
  | cons e entries ih =>
    obtain ⟨hne, htail⟩ := List.nodup_cons.mp hnodup
    have hput : put e.1 e.2 m = Table.push e.1 e.2 m := if_neg (hnew e List.mem_cons_self)
    have hpairs : pairs (Table.push e.1 e.2 m) = pairs m ++ [e] := by
      unfold Table.push
      rw [dif_neg (hnew e List.mem_cons_self)]
      simp [pairs]
    rw [List.foldl_cons, hput, ih htail, hpairs, List.append_assoc, List.singleton_append]
    intro f hf hmem
    have hsome := AList.lookup_isSome.mpr hmem
    rw [Table.lookup_push (hnew e List.mem_cons_self)] at hsome
    split at hsome
    · next heq => exact hne (List.mem_map.mpr ⟨f, hf, heq⟩)
    · exact hnew f (List.mem_cons_of_mem _ hf) (AList.lookup_isSome.mp hsome)

theorem pairs_putAll {entries : List (κ × α)} (hnodup : (entries.map (·.1)).Nodup) :
    pairs (putAll entries) = entries :=
  pairs_foldl_put entries hnodup fun _ _ => AList.notMem_empty _

omit [DecidableEq κ] in
theorem pairs_injective {m n : AList fun _ : κ => α} (h : pairs m = pairs n) : m = n :=
  AList.ext (List.map_injective_iff.mpr
    (fun ⟨k, x⟩ ⟨l, y⟩ heq => by cases heq; rfl) h)

theorem putAll_pairs : putAll (pairs m) = m :=
  pairs_injective (pairs_putAll (keys_pairs ▸ m.keys_nodup))

omit [DecidableEq κ] in
theorem nodup_pairs (m : AList fun _ : κ => α) : ((pairs m).map (·.1)).Nodup :=
  keys_pairs ▸ m.keys_nodup

theorem lookup_putAll {entries : List (κ × α)} (hnodup : (entries.map (·.1)).Nodup) :
    (putAll entries).lookup x = entries.lookup x := by
  rw [← lookup_pairs, pairs_putAll hnodup]

theorem mem_foldl_put (entries : List (κ × α)) :
    x ∈ entries.foldl (fun m e => put e.1 e.2 m) m ↔ x ∈ m ∨ x ∈ entries.map (·.1) := by
  induction entries generalizing m with
  | nil => simp
  | cons e entries ih =>
    have hput : x ∈ put e.1 e.2 m ↔ x = e.1 ∨ x ∈ m := by
      rw [← AList.lookup_isSome, lookup_put, ← AList.lookup_isSome]
      split <;> simp_all
    rw [List.foldl_cons, ih, hput, List.map_cons, List.mem_cons]
    tauto

/-- The keys that are put in are those of the entries. -/
theorem mem_of_mem_pairs_putAll {entries : List (κ × α)} {e : κ × α} (h : e ∈ pairs (putAll entries)) :
    e.1 ∈ entries.map (·.1) := by
  have hkey : e.1 ∈ (pairs (putAll entries)).map (·.1) := List.mem_map_of_mem h
  rw [keys_pairs] at hkey
  rcases (mem_foldl_put entries).mp hkey with hempty | hmem
  · exact absurd hempty (AList.notMem_empty _)
  · exact hmem

end Maps

/-! ## What is written is read -/

section Reading

variable {α : Type} {read : Value → Option α} {v : Value} {x : α}

/-- The value is read, and it is not `null`. -/
structure Reads (read : Value → Option α) (v : Value) (x : α) : Prop where
  read : read v = some x
  ne_null : v ≠ .null

theorem reads_bool (b : Bool) : Reads readBool (.bool b) b := ⟨rfl, nofun⟩

theorem reads_text (s : Text) : Reads readText (.string s) s := ⟨rfl, nofun⟩

theorem reads_unsigned {width : ℕ} (n : BitVec width) :
    Reads (readUnsigned width) (writeUnsigned n) n := by
  refine ⟨?_, nofun⟩
  have hread : Json.readNat (Nat.toDigits 10 n.toNat) = some (n.toNat, []) := by
    have hrest : Json.readNat (Nat.toDigits 10 n.toNat ++ []) = some (n.toNat, []) :=
      Json.readNat_toDigits nofun
    rwa [List.append_nil] at hrest
  unfold readUnsigned writeUnsigned numeral
  simp only [hread, if_pos n.isLt, BitVec.ofNat_toNat, BitVec.setWidth_eq]

theorem reads_float {read : Numeral → Option α} {m : Numeral} (h : read m = some x) :
    Reads (readFloat read) (.number m) x := ⟨h, nofun⟩

theorem Reads.readOption (h : Reads read v x) : readOption read v = some (some x) := by
  unfold Serde.readOption
  split
  · next heq => exact absurd rfl h.ne_null
  · rw [h.read]
    rfl

theorem readOption_writeOption {write : α → Value} {x : Option α}
    (h : ∀ y ∈ x, Reads read (write y) y) : readOption read (writeOption write x) = some x := by
  rcases x with _ | y
  · rfl
  · exact (h y rfl).readOption

theorem reads_variant (variants : Variants α) (x : α) :
    Reads variants.read (variants.write x) x := ⟨variants.ofName_name x, nofun⟩

theorem mem_of_mapM {β γ : Type} {f : β → Option γ} {xs : List β} {ys : List γ} {y : γ}
    (h : xs.mapM f = some ys) (hy : y ∈ ys) : ∃ x ∈ xs, f x = some y := by
  induction xs generalizing ys with
  | nil =>
    cases h
    exact absurd hy List.not_mem_nil
  | cons x xs ih =>
    rw [List.mapM_cons] at h
    obtain ⟨z, hz, h⟩ := Option.bind_eq_some_iff.mp h
    obtain ⟨zs, hzs, h⟩ := Option.bind_eq_some_iff.mp h
    cases h
    rcases List.mem_cons.mp hy with rfl | hy
    · exact ⟨x, List.mem_cons_self, hz⟩
    · obtain ⟨w, hw, hread⟩ := ih hzs hy
      exact ⟨w, List.mem_cons_of_mem _ hw, hread⟩

/-- Values that were written from a list are read one by one. -/
theorem mapM_map_of_read {β γ δ : Type} {f : β → Option γ} {write : δ → β} {g : δ → γ} {xs : List δ}
    (h : ∀ x ∈ xs, f (write x) = some (g x)) : (xs.map write).mapM f = some (xs.map g) := by
  induction xs with
  | nil => rfl
  | cons x xs ih =>
    rw [List.map_cons, List.mapM_cons, h x List.mem_cons_self,
      ih fun y hy => h y (List.mem_cons_of_mem _ hy)]
    rfl

theorem reads_textMap (m : TextMap) : Reads readTextMap (writeTextMap m) m := by
  refine ⟨?_, nofun⟩
  have hread : ((pairs m).map fun (name, text) => (name, Value.string text)).mapM
      (fun e : Text × Value => (readText e.2).map (e.1, ·)) = some (pairs m) := by
    rw [mapM_map_of_read (g := id) fun _ _ => by rfl, List.map_id]
  unfold readTextMap writeTextMap
  simp only [hread, Option.map_some, putAll_pairs]

@[simp]
theorem readBool_bool (b : Bool) : readBool (.bool b) = some b := rfl

@[simp]
theorem Variants.read_write (variants : Variants α) (x : α) :
    variants.read (variants.write x) = some x := (reads_variant variants x).read

@[simp]
theorem readUnsigned_writeUnsigned {width : ℕ} (n : BitVec width) :
    readUnsigned width (writeUnsigned n) = some n := (reads_unsigned n).read

@[simp]
theorem readTextMap_writeTextMap (m : TextMap) : readTextMap (writeTextMap m) = some m :=
  (reads_textMap m).read

@[simp]
theorem readOption_text (x : Option Text) :
    readOption readText (writeOption .string x) = some x :=
  readOption_writeOption fun y _ => reads_text y

@[simp]
theorem readOption_unsigned {width : ℕ} (x : Option (BitVec width)) :
    readOption (readUnsigned width) (writeOption writeUnsigned x) = some x :=
  readOption_writeOption fun y _ => reads_unsigned y

@[simp]
theorem field_some (default : α) : field read default (some v) = read v := rfl

@[simp]
theorem field_none (default : α) : field read default none = some default := rfl

end Reading

/-! ## What is written of a structure -/

theorem membersOf_writeStruct (members : List (String × Value)) (name : String) :
    membersOf (members.map fun (name, v) => (name.toList, v)) name
      = (members.filter (·.1 = name)).map fun (name, v) => (name.toList, v) := by
  unfold membersOf
  rw [List.filter_map]
  refine congrArg _ (List.filter_congr fun e _ => ?_)
  simp [String.toList_inj]

theorem structFields_writeStruct {names : List String} {members : List (String × Value)}
    (h : (members.map (·.1)).Nodup) :
    structFields names (writeStruct members) = some fun name => members.lookup name := by
  unfold structFields writeStruct
  simp only [membersOf_writeStruct]
  rw [if_pos]
  · refine congrArg some (funext fun name => ?_)
    clear h
    induction members with
    | nil => rfl
    | cons e members ih =>
      rw [List.lookup_cons]
      by_cases hname : e.1 = name
      · subst hname
        simp
      · have hbeq : (name == e.1) = false := beq_false_of_ne (Ne.symm hname)
        simpa [hname, hbeq] using ih
  · intro name _
    rw [List.length_map]
    have hcount : ((members.map (·.1)).filter (· = name)).length ≤ 1 := by
      have := List.nodup_iff_count_le_one.mp h name
      rwa [List.count_eq_length_filter] at this
    rwa [List.filter_map, List.length_map] at hcount

end Serde
