import Mathlib.Data.List.Induction

/-!
# File trees

A file tree says what is found at a path. Its one law is that whatever is found below
a path makes that path a directory; it is a field of the type, so every operation
keeps it. The operations are the ones a program replaces files with: removing all
below a path, putting a tree in a directory, and moving. Their laws say what is found
inside the changed part and that the rest is untouched.

Moving follows the rules of a rename: the source must exist and the new parent be a
directory outside of it; a directory replaces nothing and anything else does not
replace a directory. A directory in the way is taken not to be empty.
-/

inductive FileEntry (Content : Type*) where
  | file (content : Content)
  | directory
  | other
  deriving DecidableEq

/-- Being a directory is decided without looking at contents. -/
instance FileEntry.decidableDirectory {Content : Type*} :
    (found : Option (FileEntry Content)) → Decidable (found = some .directory)
  | some .directory => isTrue rfl
  | none => isFalse nofun
  | some (.file _) => isFalse nofun
  | some .other => isFalse nofun

structure FileTree (Name Content : Type*) where
  entry : List Name → Option (FileEntry Content)
  closed : ∀ path name, (entry (path ++ [name])).isSome → entry path = some .directory

namespace FileTree

variable {Name Content : Type*}

/-- A path is found only if all paths above it are. -/
theorem entry_append_eq_none (tree : FileTree Name Content) (path rest : List Name)
    (absent : tree.entry path = none) : tree.entry (path ++ rest) = none := by
  induction rest using List.reverseRecOn with
  | nil => simpa using absent
  | append_singleton rest name ih =>
    by_contra found
    have above := tree.closed (path ++ rest) name (by
      rw [List.append_assoc]
      exact Option.isSome_iff_ne_none.mpr found)
    rw [ih] at above
    cases above

/-- Everything below a path, seen from there. -/
def subtree (tree : FileTree Name Content) (path : List Name) : FileTree Name Content where
  entry rest := tree.entry (path ++ rest)
  closed rest name found := tree.closed (path ++ rest) name (by
    rwa [List.append_assoc])

/-- The tree of a single file. -/
def single (content : Content) : FileTree Name Content where
  entry path := if path.isEmpty then some (.file content) else none
  closed path name found := by simp at found

/-- The tree that holds nothing but an empty root. -/
def empty : FileTree Name Content where
  entry path := if path.isEmpty then some .directory else none
  closed path name found := by simp at found

variable [DecidableEq Name]

def removeAll (tree : FileTree Name Content) (path : List Name) : FileTree Name Content where
  entry other := if path <+: other then none else tree.entry other
  closed other name found := by
    by_cases inside : path <+: other ++ [name]
    · simp [inside] at found
    · rw [if_neg inside] at found
      rw [if_neg fun above => inside (above.trans (List.prefix_append _ _))]
      exact tree.closed other name found

/-- Put a tree into a directory under a name, in place of what is there. -/
def graft (tree : FileTree Name Content) (parent : List Name) (name : Name)
    (content : FileTree Name Content) (isDirectory : tree.entry parent = some .directory) :
    FileTree Name Content where
  entry path :=
    if parent ++ [name] <+: path then content.entry (path.drop (parent.length + 1))
    else tree.entry path
  closed path last found := by
    by_cases inside : parent ++ [name] <+: path
    · -- Both paths are inside, where the law is the content's.
      obtain ⟨rest, rfl⟩ := inside
      have dropped : ∀ more, (parent ++ [name] ++ more).drop (parent.length + 1) = more := by
        intro more
        rw [List.drop_left' (by simp)]
      rw [if_pos (List.prefix_append _ _), dropped]
      rw [List.append_assoc, if_pos (List.prefix_append _ _), dropped] at found
      exact content.closed rest last found
    · rw [if_neg inside]
      by_cases top : parent ++ [name] <+: path ++ [last]
      · -- The longer path is the top of the content.
        have same : parent ++ [name] = path ++ [last] :=
          (List.prefix_concat_iff.mp top).resolve_right inside
        obtain ⟨rfl, -⟩ := List.append_inj' same rfl
        exact isDirectory
      · rw [if_neg top] at found
        exact tree.closed path last found

/-- What may take the place of what. -/
def replaces (source : FileEntry Content) (target : Option (FileEntry Content)) : Bool :=
  match source, target with
  | _, none => true
  | .directory, some _ => false
  | _, some .directory => false
  | _, some _ => true

/-- A rename, where it succeeds. -/
def move (tree : FileTree Name Content) (source parent : List Name) (name : Name) :
    Option (FileTree Name Content) :=
  match tree.entry source with
  | none => none
  | some top =>
      if isDirectory : (tree.removeAll source).entry parent = some .directory then
        if replaces top (tree.entry (parent ++ [name])) then
          some ((tree.removeAll source).graft parent name (tree.subtree source) isDirectory)
        else none
      else none

section Laws

variable (tree : FileTree Name Content) (parent path rest : List Name) (name : Name)

@[simp]
theorem removeAll_inside : (tree.removeAll path).entry (path ++ rest) = none :=
  if_pos (List.prefix_append _ _)

theorem removeAll_outside (outside : ¬ path <+: rest) :
    (tree.removeAll path).entry rest = tree.entry rest :=
  if_neg outside

variable (content : FileTree Name Content)
  (isDirectory : tree.entry parent = some .directory)

@[simp]
theorem graft_inside :
    (tree.graft parent name content isDirectory).entry (parent ++ [name] ++ rest) =
      content.entry rest := by
  simp only [graft]
  rw [if_pos (List.prefix_append _ _), List.drop_left' (by simp)]

theorem graft_outside (outside : ¬ parent ++ [name] <+: path) :
    (tree.graft parent name content isDirectory).entry path = tree.entry path :=
  if_neg outside

/-- A rename that succeeds. -/
theorem move_some {tree after : FileTree Name Content} {source parent : List Name} {name : Name}
    (moved : tree.move source parent name = some after) :
    (tree.entry source).isSome ∧
      ∃ isDirectory : (tree.removeAll source).entry parent = some .directory,
        after = (tree.removeAll source).graft parent name (tree.subtree source) isDirectory := by
  unfold move at moved
  split at moved
  · cases moved
  next top found =>
  split at moved
  · next isDirectory =>
    split at moved <;> cases moved
    exact ⟨by simp [found], isDirectory, rfl⟩
  · cases moved

/-- A rename to a free place succeeds. -/
theorem move_to_free {tree : FileTree Name Content} {source parent : List Name} {name : Name}
    (there : (tree.entry source).isSome)
    (isDirectory : (tree.removeAll source).entry parent = some .directory)
    (free : tree.entry (parent ++ [name]) = none) :
    tree.move source parent name =
      some ((tree.removeAll source).graft parent name (tree.subtree source) isDirectory) := by
  obtain ⟨top, found⟩ := Option.isSome_iff_exists.mp there
  have allowed : replaces top (tree.entry (parent ++ [name])) = true := by
    rw [free]
    cases top <;> rfl
  simp only [move, found, isDirectory, dite_true, allowed, if_true]

end Laws

end FileTree
