import ZDecl.Archive
import ZDecl.Include.Path

/-!
# Archives held in memory

A table of files, at most one for each path key. A later file replaces an earlier one whose path
has the same key.

## Main definitions

* `StoredFile`, `StoredFile.key`: a file of the table, and the key that it is found by.
* `MemoryArchive`: the table, with `MemoryArchive.insert` and `MemoryArchive.find?`.
-/

namespace ZDecl

/-- A file of an archive in memory. -/
structure StoredFile where
  /-- The path as it was written when the file was stored. -/
  path : String
  /-- The contents of the file. -/
  contents : Bytes
  deriving DecidableEq, Repr

/-- The key that the file is found by. -/
def StoredFile.key (f : StoredFile) : String := IncludePath.key f.path

/-- An archive held in memory. -/
structure MemoryArchive where
  /-- The name of the archive. -/
  name : String
  /-- The files. -/
  files : List StoredFile := []
  /-- No two files have the same key. -/
  distinct : (files.map StoredFile.key).Nodup := by exact List.nodup_nil
  deriving DecidableEq, Repr

namespace MemoryArchive

/-- Stores a file in place of the one whose path has the same key, if there is one. -/
def insert (a : MemoryArchive) (path : String) (contents : Bytes) : MemoryArchive where
  name := a.name
  files := ⟨path, contents⟩ :: a.files.filter (·.key != IncludePath.key path)
  distinct := by
    refine List.nodup_cons.mpr ⟨?_, a.distinct.sublist (List.filter_sublist.map _)⟩
    intro h
    obtain ⟨f, hf, hkey⟩ := List.mem_map.mp h
    have hne := (List.mem_filter.mp hf).2
    rw [hkey] at hne
    exact absurd hne (by simp [StoredFile.key])

/-- The stored file that a path names. -/
def find? (a : MemoryArchive) (path : String) : Option StoredFile :=
  a.files.find? (·.key == IncludePath.key path)

/-- A stored file as a file to read: its name is the path that it was stored under. -/
def source (a : MemoryArchive) (f : StoredFile) : SourceFile :=
  ⟨f.path, ⟨a.name, f.path⟩, f.contents⟩

/-- How many files are stored. -/
def size (a : MemoryArchive) : Nat := a.files.length

/-- Is no file stored? -/
def isEmpty (a : MemoryArchive) : Bool := a.files.isEmpty

instance : Archive MemoryArchive where
  name := name
  openFile a path :=
    match a.find? path with
    | some file => .ok (a.source file)
    | none => .error (.notFound path)

variable {a : MemoryArchive} {path : String}

/-- What is opened is what is found. -/
theorem openFile_of_find? {f : StoredFile} (h : a.find? path = some f) :
    Archive.openFile a path = .ok (a.source f) := by
  simp only [Archive.openFile, h]

/-- What is not found cannot be opened. -/
theorem openFile_of_find?_eq_none (h : a.find? path = none) :
    Archive.openFile a path = .error (.notFound path) := by
  simp only [Archive.openFile, h]

/-- The file that a path names has the key of the path. -/
theorem key_of_find? {f : StoredFile} (h : a.find? path = some f) :
    f.key = IncludePath.key path := by
  have hkey := List.find?_some h
  simpa using hkey

end MemoryArchive

end ZDecl
