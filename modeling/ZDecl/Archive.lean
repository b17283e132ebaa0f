import ZDecl.Text.Ascii

/-!
# Archives

An archive holds the files of a project under paths. All that the reading of declarations asks of
it is its name and the file at a path.

## Main definitions

* `SourceFile`, `Location`: a file and where it comes from.
* `OpenError`: why an archive has no file at a path.
* `Archive`: what every kind of archive can do.
-/

namespace ZDecl

/-- Where a file comes from; both parts are empty if that is not known. -/
structure Location where
  /-- The name of the archive. -/
  archive : String := ""
  /-- The path of the file in the archive. -/
  path : String := ""
  deriving DecidableEq, Repr

/-- A file to read declarations from. -/
structure SourceFile where
  /-- The name of the file in messages. -/
  name : String
  /-- Where the file comes from. -/
  location : Location := {}
  /-- The contents of the file. -/
  contents : Bytes
  deriving DecidableEq, Repr

/-- Why an archive has no file at a path. -/
inductive OpenError where
  /-- There is nothing at the path, or no file. -/
  | notFound (path : String)
  /-- The path goes on below a file. -/
  | notADirectory (path : String)
  deriving DecidableEq, Repr

/-- The message about a file that cannot be opened. -/
def OpenError.message : OpenError → String
  | notFound path => s!"resource \"{path}\" not found"
  | notADirectory path => s!"failed to read \"{path}\": Not a directory (os error 20)"

/-- What every kind of archive can do. -/
class Archive (α : Type) where
  /-- The name of the archive. -/
  name : α → String
  /-- The file at a path. -/
  openFile : α → String → Except OpenError SourceFile

/-- Has the archive a file at this path? -/
def Archive.contains {α : Type} [Archive α] (archive : α) (path : String) : Bool :=
  (Archive.openFile archive path).toOption.isSome

end ZDecl
