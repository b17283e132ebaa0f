import ZDecl.Archive
import ZDecl.Text.Utf8

/-!
# Archives in a directory

A file system is a finite tree of named entries, and a directory archive is one of its directories.
Names are bytes, and are compared with the segments of a path as texts. A path is followed segment
by segment: an entry of exactly that name is taken first, then one whose name, read as a text,
differs in the case of ASCII letters alone. Two dots lead to the directory above, also from the
directory of the archive. A path along which something is made takes names as they are spelled, and
every directory that it passes is there afterwards.

## Main definitions

* `FileName`: the name of an entry, with `FileName.text` and `FileName.ofText`.
* `Entry`: a file or a directory, with `Entry.under`, `Entry.createDirectory` and `Entry.writeFile`.
* `Entry.step`: one segment further along a path.
* `DirectoryArchive`: a directory as an archive.
-/

namespace ZDecl

/-! ## Names -/

/-- The name of an entry: some bytes, which need not be those of a text. -/
abbrev FileName := Bytes

namespace FileName

/-- The name as a text, ill-formed pieces replaced. -/
def text (name : FileName) : String := Utf8.decode name

/-- The name that is spelled like a text. -/
def ofText (text : String) : FileName := Utf8.encode text

end FileName

/-! ## Trees of entries -/

/-- What a name stands for in a directory. -/
inductive Entry where
  /-- A file with its contents. -/
  | file (contents : Bytes)
  /-- A directory with its entries. -/
  | directory (entries : List (FileName × Entry))
  deriving Repr

namespace Entry

/-- The directory without entries. -/
def emptyDirectory : Entry := .directory []

/-- The entries of a directory; a file has none. -/
def entries : Entry → List (FileName × Entry)
  | .file _ => []
  | .directory entries => entries

/-- What stands under some names, the first one in the entry itself, each further one in what the
names before it lead to. Names are taken as they are spelled, so nothing leads up. -/
def under : Entry → List FileName → Option Entry
  | entry, [] => some entry
  | .file _, _ :: _ => none
  | .directory entries, name :: names =>
    (entries.find? (·.1 == name)).bind fun entry => entry.2.under names

/-- The segments of a path that are not empty. -/
def segments (path : String) : List String :=
  ((path.toList.splitOn '/').filter (!·.isEmpty)).map String.ofList

/-- Replaces what stands under some names, making the directories on the way. A file has nothing
under it and stays as it is. -/
def alter (change : Option Entry → Entry) : List FileName → Option Entry → Entry
  | [], entry => change entry
  | _ :: _, some (.file contents) => .file contents
  | name :: more, entry =>
    let entries := (entry.map Entry.entries).getD []
    let inner := (entries.find? (·.1 == name)).map (·.2)
    .directory ((name, alter change more inner) :: entries.filter (·.1 != name))

/-- Where one more segment of a path leads, from under some names: one dot stays there and two dots
leave the last of them. The top of a file system is above itself. -/
def place (names : List FileName) (segment : String) : List FileName :=
  if segment = "." then names
  else if segment = ".." then names.dropLast
  else names ++ [.ofText segment]

/-- Follows segments and makes each directory they pass, also one that is left again: the names
down to their end, and the tree. -/
def makeWay (root : Entry) (segments : List String) : List FileName × Entry :=
  segments.foldl (fun (names, root) segment =>
    let names := place names segment
    (names, alter (·.getD emptyDirectory) names (some root))) ([], root)

/-- Makes a directory at a path, unless there is something already. -/
def createDirectory (root : Entry) (path : String) : Entry :=
  (makeWay root (segments path)).2

/-- Writes a file at a path, unless a directory is there. -/
def writeFile (root : Entry) (path : String) (contents : Bytes) : Entry :=
  let write : Option Entry → Entry
    | some (.directory entries) => .directory entries
    | _ => .file contents
  match (segments path).getLast? with
  | none => root
  | some last =>
    let (names, root) := makeWay root (segments path).dropLast
    alter write (place names last) (some root)

/-! ## Following a path -/

/-- Why a segment leads nowhere. -/
inductive DeadEnd where
  /-- No entry has the name. -/
  | missing
  /-- Only a directory has entries. -/
  | notADirectory
  deriving DecidableEq, Repr

/-- The name of the entry for a segment: the one spelled so, else one that is, as a text, spelled so
up to the case of ASCII letters. -/
def find? (entries : List (FileName × Entry)) (segment : String) : Option FileName :=
  ((entries.find? (·.1 == .ofText segment)).or
    (entries.find? fun entry => sameIgnoringCase entry.1.text segment)).map (·.1)

/-- Goes one segment further, in a file system from under some names. One dot stays in a directory
and two dots lead to the one above. -/
def step (disk : Entry) (names : List FileName) (segment : String) :
    Except DeadEnd (List FileName) :=
  match disk.under names with
  | some (.directory entries) =>
    if segment = "." then .ok names
    else if segment = ".." then .ok names.dropLast
    else
      match find? entries segment with
      | some name => .ok (names ++ [name])
      | none => .error .missing
  | _ => .error .notADirectory

end Entry

/-! ## The archive -/

/-- A directory as an archive. -/
structure DirectoryArchive where
  /-- The name of the archive. -/
  name : String
  /-- The directory. -/
  root : Entry
  /-- The file system that it is a part of. -/
  disk : Entry := root
  /-- The names that lead down to the directory. -/
  place : List FileName := []
  /-- The directory is what stands there. -/
  stands : disk.under place = some root := by rfl

namespace DirectoryArchive

/-- The names that lead down to the end of a path. -/
def resolve (a : DirectoryArchive) (path : String) : Except Entry.DeadEnd (List FileName) :=
  (Entry.segments path).foldlM (Entry.step a.disk) a.place

instance : Archive DirectoryArchive where
  name := name
  openFile a path :=
    match a.resolve path with
    | .ok names =>
      match a.disk.under names with
      | some (.file contents) => .ok ⟨path, ⟨a.name, path⟩, contents⟩
      | _ => .error (.notFound path)
    | .error .missing => .error (.notFound path)
    | .error .notADirectory => .error (.notADirectory path)

end DirectoryArchive

end ZDecl
