import ZDecl.Include.Path

/-!
# The files a session has visited

Every path may be included once. The paths that were included are listed in order and as they were
written; the path of the root file counts as visited without being listed.

## Main definitions

* `Visited`: the visited paths.
* `Visited.contains`: look-up.
* `Visited.mark`, `Visited.visit`: the two ways to visit, with the answer whether the file is a new
  one.
* `Visited.insertRoot`, `Visited.insert`: what is visited afterwards.
-/

namespace ZDecl

/-- The paths that were visited. -/
structure Visited where
  /-- The keys of all visited paths. -/
  keys : List String := []
  /-- The included paths as written, in the order of inclusion. -/
  paths : List String := []
  deriving DecidableEq, Repr

namespace Visited

/-- Nothing is visited. -/
def empty : Visited := {}

/-- Was the file of this path visited? -/
def contains (v : Visited) (path : String) : Bool := v.keys.contains (IncludePath.key path)

/-- Marks the file of a path as visited, and answers whether it was not visited before. -/
def mark (v : Visited) (path : String) : Bool × Visited :=
  let key := IncludePath.key path
  if v.keys.contains key then (false, v) else (true, { v with keys := key :: v.keys })

/-- Marks the file of a path as visited, and lists the path if the file was not visited before,
which is the answer. -/
def visit (v : Visited) (path : String) : Bool × Visited :=
  let (isNew, marked) := v.mark path
  if isNew then (true, { marked with paths := marked.paths ++ [path] }) else (false, marked)

/-- Visits a path without listing it. -/
def insertRoot (v : Visited) (path : String) : Visited := (v.mark path).2

/-- Visits a path and lists it, unless its file was visited before. -/
def insert (v : Visited) (path : String) : Visited := (v.visit path).2

/-- Marking answers whether the file is a new one. -/
theorem mark_eq (v : Visited) (path : String) :
    v.mark path = (!v.contains path, v.insertRoot path) := by
  unfold insertRoot mark contains
  dsimp only
  cases v.keys.contains (IncludePath.key path) <;> rfl

/-- A file that was visited stays as it is; a new one is marked. -/
theorem insertRoot_eq (v : Visited) (path : String) :
    v.insertRoot path =
      if v.contains path then v else { v with keys := IncludePath.key path :: v.keys } := by
  unfold insertRoot mark contains
  dsimp only
  cases v.keys.contains (IncludePath.key path) <;> rfl

/-- Visiting answers whether the file is a new one. -/
theorem visit_eq (v : Visited) (path : String) :
    v.visit path = (!v.contains path, v.insert path) := by
  unfold insert visit
  rw [mark_eq]
  dsimp only
  cases v.contains path <;> rfl

/-- A file that was visited stays as it is; a new one is marked, and its path is listed. -/
theorem insert_eq (v : Visited) (path : String) :
    v.insert path =
      if v.contains path then v
      else { keys := IncludePath.key path :: v.keys, paths := v.paths ++ [path] } := by
  unfold insert visit
  rw [mark_eq, insertRoot_eq]
  dsimp only
  cases v.contains path <;> rfl

/-- How many paths are listed. -/
def size (v : Visited) : Nat := v.paths.length

/-- Is no path listed? -/
def isEmpty (v : Visited) : Bool := v.paths.isEmpty

end Visited

end ZDecl
