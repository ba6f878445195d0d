import Mathlib

/-!
# Directory trees

A `Folder` is what stands in a directory: files, directories with what stands in them, links and
special files, by name. What stands at a path is `Folder.get`; a path is the list of its names, and
the empty one is the directory itself. `Folder.create` and `Folder.change` are a new entry and a
change of a file, where the directories on the way stand.
-/

set_option autoImplicit false

namespace WalletWall.Library

/-- What stands in a directory. -/
inductive Folder (N B : Type) : Type where
  | empty
  | file (name : N) (content : B) (rest : Folder N B)
  | directory (name : N) (inside rest : Folder N B)
  | link (name : N) (rest : Folder N B)
  | special (name : N) (rest : Folder N B)
  deriving DecidableEq

/-- What stands under a name. -/
inductive FolderEntry (N B : Type) : Type where
  | file (content : B)
  | directory (inside : Folder N B)
  | link
  | special
  deriving DecidableEq

variable {N B : Type} [DecidableEq N]

/-- A folder with one more entry, in front. -/
def Folder.cons (n : N) (node : FolderEntry N B) (rest : Folder N B) : Folder N B :=
  match node with
  | .file content => .file n content rest
  | .directory inside => .directory n inside rest
  | .link => .link n rest
  | .special => .special n rest

/-- The entry of a name. -/
def Folder.entry : Folder N B → N → Option (FolderEntry N B)
  | .empty, _ => none
  | .file name content rest, n => if n = name then some (.file content) else rest.entry n
  | .directory name inside rest, n => if n = name then some (.directory inside) else rest.entry n
  | .link name rest, n => if n = name then some .link else rest.entry n
  | .special name rest, n => if n = name then some .special else rest.entry n

/-- What stands at a path. -/
def Folder.get : Folder N B → List N → Option (FolderEntry N B)
  | f, [] => some (.directory f)
  | f, n :: ns =>
      match f.entry n with
      | some (.directory inside) => inside.get ns
      | some node => if ns = [] then some node else none
      | none => none

/-- A new entry, before the first whose name comes after it. -/
def Folder.add (precedes : N → N → Bool) (n : N) (node : FolderEntry N B) : Folder N B → Folder N B
  | .empty => .cons n node .empty
  | .file name content rest =>
      if precedes name n then .file name content (rest.add precedes n node)
      else .cons n node (.file name content rest)
  | .directory name inside rest =>
      if precedes name n then .directory name inside (rest.add precedes n node)
      else .cons n node (.directory name inside rest)
  | .link name rest =>
      if precedes name n then .link name (rest.add precedes n node)
      else .cons n node (.link name rest)
  | .special name rest =>
      if precedes name n then .special name (rest.add precedes n node)
      else .cons n node (.special name rest)

/-- The entry of a name becomes another. -/
def Folder.replace (n : N) (node : FolderEntry N B) : Folder N B → Folder N B
  | .empty => .empty
  | .file name content rest =>
      if n = name then .cons n node rest else .file name content (rest.replace n node)
  | .directory name inside rest =>
      if n = name then .cons n node rest else .directory name inside (rest.replace n node)
  | .link name rest => if n = name then .cons n node rest else .link name (rest.replace n node)
  | .special name rest =>
      if n = name then .cons n node rest else .special name (rest.replace n node)

/-- A new entry at a path at which nothing stands, in a directory that stands. -/
def Folder.create (precedes : N → N → Bool) (node : FolderEntry N B) :
    Folder N B → List N → Option (Folder N B)
  | _, [] => none
  | f, [n] => if (f.entry n).isSome then none else some (f.add precedes n node)
  | f, n :: ns =>
      match f.entry n with
      | some (.directory inside) =>
          (inside.create precedes node ns).map fun g => f.replace n (.directory g)
      | _ => none

/-- Another content of the file at a path. -/
def Folder.change (become : B → B) : Folder N B → List N → Option (Folder N B)
  | _, [] => none
  | f, [n] =>
      match f.entry n with
      | some (.file content) => some (f.replace n (.file (become content)))
      | _ => none
  | f, n :: ns =>
      match f.entry n with
      | some (.directory inside) =>
          (inside.change become ns).map fun g => f.replace n (.directory g)
      | _ => none

/-! ## Paths -/

/-- At the empty path lies the folder itself. -/
@[simp] theorem Folder.get_nil (f : Folder N B) : f.get [] = some (.directory f) := by
  cases f <;> rfl

/-- Below a directory the path goes on inside it. -/
theorem Folder.get_directory {f inside : Folder N B} {n : N}
    (h : f.entry n = some (.directory inside)) (ns : List N) : f.get (n :: ns) = inside.get ns := by
  rw [Folder.get, h]

/-- A path goes by the entry of its first name. -/
theorem Folder.get_congr {f g : Folder N B} {n : N} (h : f.entry n = g.entry n) (ns : List N) :
    f.get (n :: ns) = g.get (n :: ns) := by
  rw [Folder.get, h, Folder.get]

/-- Nothing stands below what is no directory. -/
theorem Folder.get_leaf {f : Folder N B} {n : N} {node : FolderEntry N B}
    (h : f.entry n = some node) (hleaf : ∀ g, node ≠ .directory g) (ns : List N) :
    f.get (n :: ns) = if ns = [] then some node else none := by
  rw [Folder.get, h]
  cases node with
  | file content => rfl
  | directory inside => exact absurd rfl (hleaf inside)
  | link => rfl
  | special => rfl

/-- **What a path leads through is a directory.** -/
theorem Folder.get_above {f : Folder N B} {p q : List N} {node : FolderEntry N B} (hq : q ≠ [])
    (h : f.get (p ++ q) = some node) : ∃ g, f.get p = some (.directory g) := by
  induction p generalizing f with
  | nil => exact ⟨f, Folder.get_nil f⟩
  | cons n p ih =>
      have hrest : p ++ q ≠ [] := List.append_ne_nil_of_right_ne_nil p hq
      rw [List.cons_append] at h
      cases hentry : f.entry n with
      | none =>
          rw [Folder.get, hentry] at h
          cases h
      | some found =>
          by_cases hfound : ∃ g, found = .directory g
          · obtain ⟨inside, rfl⟩ := hfound
            rw [Folder.get_directory hentry] at h ⊢
            exact ih h
          · rw [Folder.get_leaf hentry (not_exists.mp hfound), if_neg hrest] at h
            cases h

end WalletWall.Library
