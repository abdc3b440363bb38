import Mathlib

/-!
# Files by path

The regular files of a file system, by any type of paths, and the handles through which they are
written. A handle that was opened to append writes at the end of the file, any other at its own
offset. What is done to one path leaves the others (`write_of_ne` and its like).
-/

namespace Files

variable {P : Type*} [DecidableEq P]

/-- The content of every file; `none` where there is no file. -/
abbrev Store (P : Type*) := P → Option (List UInt8)

/-- An open file; `offset` is `none` where every write goes to the end. -/
structure Handle (P : Type*) where
  path : P
  offset : Option ℕ
  deriving DecidableEq

/-- A file is opened to be written anew: it is created or truncated. -/
def create (fs : Store P) (path : P) : Store P × Handle P :=
  (Function.update fs path (some []), ⟨path, some 0⟩)

/-- A file is opened to be appended to: it is created where there is none. -/
def openAppend (fs : Store P) (path : P) : Store P × Handle P :=
  (Function.update fs path (some ((fs path).getD [])), ⟨path, none⟩)

/-- A file is removed. -/
def remove (fs : Store P) (path : P) : Store P := Function.update fs path none

/-- A content with bytes written over it from an offset on. -/
def overwrite (content : List UInt8) (offset : ℕ) (bytes : List UInt8) : List UInt8 :=
  content.take offset ++ List.replicate (offset - content.length) 0 ++ bytes ++
    content.drop (offset + bytes.length)

/-- Bytes are written through a handle; nothing is where the file was removed. -/
def write (fs : Store P) (handle : Handle P) (bytes : List UInt8) : Store P × Handle P :=
  (Function.update fs handle.path <| (fs handle.path).map fun content =>
      overwrite content (handle.offset.getD content.length) bytes,
    { handle with offset := handle.offset.map (· + bytes.length) })

variable {fs : Store P} {path other : P} {handle : Handle P} {bytes : List UInt8}

/-! ## One path at a time -/

theorem create_self : (create fs path).1 path = some [] := Function.update_self ..

theorem openAppend_self : (openAppend fs path).1 path = some ((fs path).getD []) :=
  Function.update_self ..

theorem remove_self : remove fs path path = none := Function.update_self ..

theorem create_of_ne (h : other ≠ path) : (create fs path).1 other = fs other :=
  Function.update_of_ne h ..

theorem openAppend_of_ne (h : other ≠ path) : (openAppend fs path).1 other = fs other :=
  Function.update_of_ne h ..

theorem write_of_ne (h : other ≠ handle.path) : (write fs handle bytes).1 other = fs other :=
  Function.update_of_ne h ..

/-- A write neither creates nor removes a file. -/
theorem isSome_write : ((write fs handle bytes).1 path).isSome = (fs path).isSome := by
  by_cases h : path = handle.path
  · subst h
    show (Function.update fs handle.path _ handle.path).isSome = _
    rw [Function.update_self, Option.isSome_map]
  · rw [write_of_ne h]

/-- Opening a file to append to it leaves the file that there is. -/
theorem openAppend_eq_iff : (openAppend fs path).1 path = fs path ↔ fs path ≠ none := by
  rw [openAppend_self]
  rcases fs path with _ | content
  · simp
  · simp

end Files
