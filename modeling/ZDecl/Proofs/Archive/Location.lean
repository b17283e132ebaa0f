import Mathlib.Data.List.Forall2
import Mathlib.Data.List.Nodup
import ZDecl.Archive.Directory
import ZDecl.Include.Path
import ZDecl.Proofs.Text.Encoding
import ZDecl.Proofs.Text.Folding

/-!
# Where paths lead in a directory

Two paths may be spelled differently and lead to the same file, so a file is told by its location:
the names down to it from the top of the file system. The key of a path is found without looking at
any directory, and keys and locations are not the same. A key keeps empty segments, which are passed
over when a path is followed; it keeps segments that refer to a place; and it folds the case of all
letters, while an entry is found up to the case of ASCII letters. Apart from these differences they
agree.

* `Entry.KeyedApart`: the trees without two names in a directory that have the same key.
* `Entry.Descends`: names along which segments lead down from an entry.
* `IncludePath.not_dots_of_fault?`: no segment of a valid path refers to a place.
* `DirectoryArchive.location?`: the location that a path leads to.
* `IsPlain`: the paths in which every segment is a name.
* **`DirectoryArchive.location?_eq_of_key_eq`**: paths with the same key lead to the same location,
  if they lead anywhere, refer to no place, and names are keyed apart.
* **`DirectoryArchive.key_eq_of_location?_eq`**: plain paths to the same location have the same key.
-/

namespace ZDecl

/-- A name that is spelled like a text is that text. -/
@[simp] theorem FileName.text_ofText (text : String) : (FileName.ofText text).text = text :=
  Utf8.decode_encode text

/-- A text is equal to itself. -/
theorem sameIgnoringCase_refl (p : String) : sameIgnoringCase p p = true :=
  sameIgnoringCase_eq_true_iff.mpr rfl

namespace Entry

variable {e e' disk : Entry} {entries : List (FileName × Entry)} {names location : List FileName}
  {name name' : FileName} {segment segment' : String} {segments segments' : List String}

/-! ## Trees -/

/-- Further names lead on from where the names before them lead. -/
theorem under_append (e : Entry) (names more : List FileName) :
    e.under (names ++ more) = (e.under names).bind (·.under more) := by
  induction names generalizing e with
  | nil => simp only [List.nil_append, under, Option.bind_some]
  | cons name names ih =>
      cases e with
      | file contents => rfl
      | directory entries =>
          rw [List.cons_append, under, under, Option.bind_assoc]
          simp only [ih]

/-- Is this true of the names in a directory, there and in all directories below? -/
inductive Throughout (P : List FileName → Prop) : Entry → Prop where
  /-- A file has no names in it. -/
  | file (contents : Bytes) : Throughout P (.file contents)
  /-- A directory. -/
  | directory {entries : List (FileName × Entry)} (hnames : P (entries.map (·.1)))
      (h : ∀ entry ∈ entries, Throughout P entry.2) : Throughout P (.directory entries)

/-- What is true throughout a tree is true throughout what stands in it. -/
theorem Throughout.under {P : List FileName → Prop} (h : e.Throughout P)
    (hunder : e.under names = some e') : e'.Throughout P := by
  induction names generalizing e with
  | nil =>
      rw [Entry.under] at hunder
      cases hunder
      exact h
  | cons name names ih =>
      cases h with
      | file contents => cases hunder
      | directory _ hbelow =>
          rw [Entry.under] at hunder
          obtain ⟨entry, hentry, hunder⟩ := Option.bind_eq_some_iff.mp hunder
          exact ih (hbelow entry (List.mem_of_find?_eq_some hentry)) hunder

/-- Have no two names of a directory the same key, there and in all directories below? -/
def KeyedApart (e : Entry) : Prop :=
  e.Throughout fun names => (names.map fun name => IncludePath.key name.text).Nodup

/-! ## One segment -/

/-- What is found for a segment is the name of an entry, and is, as a text, the segment up to the
case of ASCII letters. -/
theorem of_find? (h : find? entries segment = some name) :
    name ∈ entries.map (·.1) ∧ sameIgnoringCase name.text segment = true := by
  obtain ⟨entry, hentry, rfl⟩ := Option.map_eq_some_iff.mp h
  rcases Option.or_eq_some_iff.mp hentry with hexact | ⟨-, hsame⟩
  · have hname : entry.1 = .ofText segment := by simpa using List.find?_some hexact
    refine ⟨List.mem_map_of_mem (List.mem_of_find?_eq_some hexact), ?_⟩
    rw [hname, FileName.text_ofText, sameIgnoringCase_refl]
  · exact ⟨List.mem_map_of_mem (List.mem_of_find?_eq_some hsame), by
      simpa using List.find?_some hsame⟩

/-- It has the key of the segment. -/
theorem key_of_find? (h : find? entries segment = some name) :
    IncludePath.key name.text = IncludePath.key segment :=
  Text.lowercase_eq_of_sameIgnoringCase (of_find? h).2

/-- It leads somewhere. -/
theorem exists_under_of_find? (h : find? entries segment = some name) :
    ∃ e, (directory entries).under [name] = some e := by
  obtain ⟨entry, hentry, hname⟩ := List.mem_map.mp (of_find? h).1
  have hsome : (entries.find? (·.1 == name)).isSome = true :=
    List.find?_isSome.mpr ⟨entry, hentry, beq_iff_eq.mpr hname⟩
  obtain ⟨found, hfound⟩ := Option.isSome_iff_exists.mp hsome
  exact ⟨found.2, by rw [under, hfound, Option.bind_some, under]⟩

/-- Segments with the same key are found as the same name of a directory that is keyed apart. -/
theorem KeyedApart.eq_of_find? (h : (directory entries).KeyedApart)
    (hfind : find? entries segment = some name) (hfind' : find? entries segment' = some name')
    (hkey : IncludePath.key segment = IncludePath.key segment') : name = name' := by
  cases h with
  | directory hnodup _ =>
      refine List.inj_on_of_nodup_map hnodup (of_find? hfind).1 (of_find? hfind').1 ?_
      rw [key_of_find? hfind, key_of_find? hfind', hkey]

/-- A segment that refers to no place leads down to an entry that is found for it. -/
theorem exists_of_step (hsegment : segment ≠ "." ∧ segment ≠ "..")
    (h : step disk names segment = .ok location) :
    ∃ entries name, disk.under names = some (.directory entries) ∧
      find? entries segment = some name ∧ location = names ++ [name] := by
  unfold step at h
  split at h
  next entries hhere =>
    rw [if_neg hsegment.1, if_neg hsegment.2] at h
    cases hfind : find? entries segment with
    | none =>
        rw [hfind] at h
        cases h
    | some name =>
        rw [hfind] at h
        cases h
        exact ⟨entries, name, hhere, hfind, rfl⟩
  · cases h

/-! ## Down along segments -/

/-- Do segments lead down from an entry along these names, one for each segment? -/
inductive Descends : Entry → List String → List FileName → Prop where
  /-- No segments stay. -/
  | here (e : Entry) : Descends e [] []
  /-- The first segment leads to an entry that is found for it. -/
  | into {entries : List (FileName × Entry)} {segment : String} {name : FileName} {next : Entry}
      {segments : List String} {names : List FileName}
      (hfind : find? entries segment = some name)
      (hnext : (directory entries).under [name] = some next) (h : Descends next segments names) :
      Descends (.directory entries) (segment :: segments) (name :: names)

/-- **Segments that refer to no place lead down.** -/
theorem descends_of_foldlM {place : List FileName} (hplace : disk.under place = some e)
    (hdots : ∀ segment ∈ segments, segment ≠ "." ∧ segment ≠ "..")
    (h : segments.foldlM (step disk) place = .ok location) :
    ∃ names, location = place ++ names ∧ e.Descends segments names := by
  induction segments generalizing place e with
  | nil =>
      cases h
      exact ⟨[], (List.append_nil _).symm, .here e⟩
  | cons segment segments ih =>
      obtain ⟨hsegment, hdots⟩ := List.forall_mem_cons.mp hdots
      rw [List.foldlM_cons] at h
      cases hstep : step disk place segment with
      | error deadEnd =>
          rw [hstep] at h
          cases h
      | ok next =>
          rw [hstep] at h
          obtain ⟨entries, name, hdirectory, hfind, rfl⟩ := exists_of_step hsegment hstep
          obtain rfl : e = .directory entries := Option.some.inj (hplace.symm.trans hdirectory)
          obtain ⟨entry, hentry⟩ := exists_under_of_find? hfind
          have hnext : disk.under (place ++ [name]) = some entry := by
            rw [under_append, hdirectory, Option.bind_some, hentry]
          obtain ⟨names, rfl, hnames⟩ := ih hnext hdots h
          exact ⟨name :: names, List.append_assoc _ [name] names, .into hfind hentry hnames⟩

/-- The names are, as texts, the segments up to the case of ASCII letters. -/
theorem Descends.sameIgnoringCase (h : e.Descends segments names) :
    List.Forall₂ (fun name segment => sameIgnoringCase name.text segment = true) names
      segments := by
  induction h with
  | here e => exact .nil
  | into hfind _ _ ih => exact .cons (of_find? hfind).2 ih

/-- They have the keys of the segments. -/
theorem Descends.map_key (h : e.Descends segments names) :
    names.map (fun name => IncludePath.key name.text) = segments.map IncludePath.key := by
  induction h with
  | here e => rfl
  | into hfind _ _ ih => rw [List.map_cons, List.map_cons, ih, key_of_find? hfind]

/-- Segments with the same keys lead down along the same names, if names are keyed apart. -/
theorem Descends.unique (h : e.Descends segments names) {names' : List FileName}
    (h' : e.Descends segments' names')
    (hkeys : segments.map IncludePath.key = segments'.map IncludePath.key) (he : e.KeyedApart) :
    names = names' := by
  induction h generalizing segments' names' with
  | here e =>
      obtain rfl := List.map_eq_nil_iff.mp hkeys.symm
      cases h'
      rfl
  | into hfind hnext _ ih =>
      cases h' with
      | here => cases hkeys
      | into hfind' hnext' h' =>
          obtain ⟨hkey, hkeys⟩ := List.cons.inj hkeys
          obtain rfl := he.eq_of_find? hfind hfind' hkey
          obtain rfl := Option.some.inj (hnext.symm.trans hnext')
          rw [ih h' hkeys (Throughout.under he hnext)]

end Entry

/-! ## Keys of segments -/

section Keys

open Text (lowercaseAfter)

/-- The key of a text is found from its characters. -/
theorem key_ofList (cs : List Char) :
    IncludePath.key (String.ofList cs) = String.ofList (lowercaseAfter [] cs) := by
  rw [IncludePath.key, Text.lowercase, String.toList_ofList]

/-- **The segments of the key of a path** are the keys of its segments. -/
theorem segments_key (path : String) :
    Entry.segments (IncludePath.key path) = (Entry.segments path).map IncludePath.key := by
  have hpieces : (IncludePath.key path).toList.splitOn '/' =
      (path.toList.splitOn '/').map (lowercaseAfter []) := by
    rw [IncludePath.key, Text.lowercase, String.toList_ofList, Text.splitOn_lowercaseAfter]
  have hempty : ∀ piece : List Char, (lowercaseAfter [] piece).isEmpty = piece.isEmpty := by
    intro piece
    rw [Bool.eq_iff_iff, List.isEmpty_iff, List.isEmpty_iff]
    constructor
    · exact Text.eq_of_lowercaseAfter_eq_dots fun d hd => (List.not_mem_nil hd).elim
    · rintro rfl
      rfl
  have hkept : (fun piece : List Char => !piece.isEmpty) ∘ lowercaseAfter [] =
      fun piece => !piece.isEmpty := by
    funext piece
    rw [Function.comp_apply, hempty]
  have hkey : IncludePath.key ∘ String.ofList = String.ofList ∘ lowercaseAfter [] :=
    funext key_ofList
  unfold Entry.segments
  rw [hpieces, List.filter_map, hkept, List.map_map, List.map_map, hkey]

/-- The segments that refer to a place have keys of their own. -/
theorem eq_of_key_eq_dots {segment dots : String} (hdots : dots = "." ∨ dots = "..")
    (h : IncludePath.key segment = IncludePath.key dots) : segment = dots := by
  have hkey : IncludePath.key dots = dots := by
    rcases hdots with rfl | rfl <;> decide +kernel
  have hall : ∀ d ∈ dots.toList, d = '.' := by
    rcases hdots with rfl | rfl <;> simp
  rw [hkey, IncludePath.key, Text.lowercase, ← String.toList_inj, String.toList_ofList] at h
  exact String.toList_inj.mp (Text.eq_of_lowercaseAfter_eq_dots hall h)

/-- Segments with the same keys refer to places together. -/
theorem not_dots_of_map_key_eq {segments segments' : List String}
    (hkeys : segments.map IncludePath.key = segments'.map IncludePath.key)
    (hdots : ∀ segment ∈ segments', segment ≠ "." ∧ segment ≠ "..") :
    ∀ segment ∈ segments, segment ≠ "." ∧ segment ≠ ".." := by
  intro segment hsegment
  have hmem : IncludePath.key segment ∈ segments'.map IncludePath.key :=
    hkeys ▸ List.mem_map_of_mem hsegment
  obtain ⟨segment', hsegment', hkey⟩ := List.mem_map.mp hmem
  constructor
  · rintro rfl
    exact (hdots segment' hsegment').1 (eq_of_key_eq_dots (.inl rfl) hkey)
  · rintro rfl
    exact (hdots segment' hsegment').2 (eq_of_key_eq_dots (.inr rfl) hkey)

end Keys

/-! ## Valid paths -/

/-- What is no reference to a place is neither one dot nor two. -/
theorem ne_dots_of_isDots {piece : List Char} (h : IncludePath.isDots piece = false) :
    String.ofList piece ≠ "." ∧ String.ofList piece ≠ ".." := by
  constructor
  · intro heq
    have hpiece : piece = ['.'] := by rw [← String.toList_ofList (l := piece), heq]; rfl
    rw [hpiece] at h
    cases h
  · intro heq
    have hpiece : piece = ['.', '.'] := by rw [← String.toList_ofList (l := piece), heq]; rfl
    rw [hpiece] at h
    cases h

/-- Without backslashes, the segments of a path are cut at slashes alone. -/
theorem IncludePath.segments_of_not_mem {cs : List Char} (h : '\\' ∉ cs) :
    segments cs = cs.splitOn '/' := by
  unfold segments
  induction cs with
  | nil => rfl
  | cons c cs ih =>
      obtain ⟨hc, hcs⟩ := not_or.mp (List.mem_cons.not.mp h)
      have hback : (c == '\\') = false := beq_eq_false_iff_ne.mpr (Ne.symm hc)
      rw [List.splitOnP_cons_eq_if_modifyHead, List.splitOn_cons_eq_if_modifyHead, ih hcs, hback,
        Bool.or_false]

/-- **No segment of a valid path refers to a place.** A valid path has no backslash, so it is cut
where a directory cuts it. -/
theorem IncludePath.not_dots_of_fault? {path : String} (h : IncludePath.fault? path = none) :
    ∀ segment ∈ Entry.segments path, segment ≠ "." ∧ segment ≠ ".." := by
  obtain ⟨-, -, -, hdots, hbackslash⟩ := fault?_eq_none_iff.mp h
  rw [segments_of_not_mem hbackslash] at hdots
  intro segment hsegment
  obtain ⟨piece, hpiece, rfl⟩ := List.mem_map.mp hsegment
  exact ne_dots_of_isDots (hdots piece (List.mem_filter.mp hpiece).1)

/-! ## Plain paths -/

section Plain

open Text (lowercaseAfter)

variable {path other : String}

/-- Is every segment of the path a name, neither empty nor a reference to a place? The segments of
valid include paths refer to no place, but they may be empty. -/
def IsPlain (path : String) : Prop :=
  ∀ piece ∈ path.toList.splitOn '/', piece ≠ [] ∧ IncludePath.isDots piece = false

instance (path : String) : Decidable (IsPlain path) :=
  inferInstanceAs (Decidable (∀ piece ∈ path.toList.splitOn '/',
    piece ≠ [] ∧ IncludePath.isDots piece = false))

/-- A plain path is followed piece by piece. -/
theorem segments_of_isPlain (h : IsPlain path) :
    Entry.segments path = (path.toList.splitOn '/').map String.ofList := by
  have hall : (path.toList.splitOn '/').filter (!·.isEmpty) = path.toList.splitOn '/' := by
    refine List.filter_eq_self.mpr fun piece hpiece => ?_
    simpa using (h piece hpiece).1
  rw [Entry.segments, hall]

/-- None of its segments is a reference to a place. -/
theorem IsPlain.not_dots (h : IsPlain path) :
    ∀ segment ∈ Entry.segments path, segment ≠ "." ∧ segment ≠ ".." := by
  intro segment hsegment
  rw [segments_of_isPlain h] at hsegment
  obtain ⟨piece, hpiece, rfl⟩ := List.mem_map.mp hsegment
  exact ne_dots_of_isDots (h piece hpiece).2

/-- Plain paths have the same key if their segments have, one by one. -/
theorem key_eq_of_map_key_segments (h : IsPlain path) (h' : IsPlain other)
    (hkeys : (Entry.segments path).map IncludePath.key =
      (Entry.segments other).map IncludePath.key) :
    IncludePath.key path = IncludePath.key other := by
  have hkey : ∀ pieces : List (List Char),
      (pieces.map String.ofList).map IncludePath.key =
        (pieces.map (lowercaseAfter [])).map String.ofList := by
    intro pieces
    rw [List.map_map, List.map_map]
    exact List.map_congr_left fun piece _ => key_ofList piece
  rw [segments_of_isPlain h, segments_of_isPlain h', hkey, hkey] at hkeys
  have hinjective : Function.Injective String.ofList := fun _ _ => String.ofList_inj.mp
  exact Text.lowercase_eq_iff.mpr (List.map_injective_iff.mpr hinjective hkeys)

end Plain

/-! ## Keys and locations -/

namespace DirectoryArchive

variable {a : DirectoryArchive} {path other : String} {location location' : List FileName}

/-- The location that a path leads to. -/
def location? (a : DirectoryArchive) (path : String) : Option (List FileName) :=
  (a.resolve path).toOption

/-- A location is what the path resolves to. -/
theorem location?_eq_some_iff :
    a.location? path = some location ↔ a.resolve path = .ok location := by
  unfold location?
  cases a.resolve path with
  | error deadEnd => simp [Except.toOption]
  | ok names => simp [Except.toOption]

/-- A file that is opened is named by its path, and stands at its location. -/
theorem of_openFile {file : SourceFile} (h : Archive.openFile a path = .ok file) :
    ∃ location, a.location? path = some location ∧
      a.disk.under location = some (.file file.contents) ∧
      file = ⟨path, ⟨a.name, path⟩, file.contents⟩ := by
  simp only [Archive.openFile] at h
  split at h
  next names hnames =>
    split at h
    next contents hcontents =>
      cases h
      exact ⟨names, location?_eq_some_iff.mpr hnames, hcontents, rfl⟩
    · cases h
  · cases h
  · cases h

/-- What can be opened has a location. -/
theorem exists_location_of_openFile {file : SourceFile}
    (h : Archive.openFile a path = .ok file) : ∃ location, a.location? path = some location := by
  obtain ⟨location, hlocation, -, -⟩ := of_openFile h
  exact ⟨location, hlocation⟩

/-- A file is opened under the path that leads to it. -/
theorem name_of_openFile {file : SourceFile} (h : Archive.openFile a path = .ok file) :
    file.name = path := by
  obtain ⟨location, -, -, hfile⟩ := of_openFile h
  rw [hfile]

/-- A path without references leads down from the directory of the archive. -/
theorem descends_of_location?
    (hdots : ∀ segment ∈ Entry.segments path, segment ≠ "." ∧ segment ≠ "..")
    (h : a.location? path = some location) :
    ∃ names, location = a.place ++ names ∧ a.root.Descends (Entry.segments path) names :=
  Entry.descends_of_foldlM a.stands hdots (location?_eq_some_iff.mp h)

/-- **Paths with the same key lead to the same location**, if they lead anywhere, one of them refers
to no place, and no directory has two names with the same key. -/
theorem location?_eq_of_key_eq (hroot : a.root.KeyedApart)
    (hdots : ∀ segment ∈ Entry.segments other, segment ≠ "." ∧ segment ≠ "..")
    (hkey : IncludePath.key path = IncludePath.key other) (h : a.location? path = some location)
    (h' : a.location? other = some location') : location = location' := by
  have hkeys : (Entry.segments path).map IncludePath.key =
      (Entry.segments other).map IncludePath.key := by
    rw [← segments_key, ← segments_key, hkey]
  obtain ⟨names, rfl, hnames⟩ := descends_of_location? (not_dots_of_map_key_eq hkeys hdots) h
  obtain ⟨names', rfl, hnames'⟩ := descends_of_location? hdots h'
  rw [hnames.unique hnames' hkeys hroot]

/-- **Plain paths to the same location have the same key.** -/
theorem key_eq_of_location?_eq (hpath : IsPlain path) (hother : IsPlain other)
    (h : a.location? path = some location) (h' : a.location? other = some location) :
    IncludePath.key path = IncludePath.key other := by
  obtain ⟨names, rfl, hnames⟩ := descends_of_location? hpath.not_dots h
  obtain ⟨names', hlocation, hnames'⟩ := descends_of_location? hother.not_dots h'
  obtain rfl := List.append_cancel_left hlocation
  exact key_eq_of_map_key_segments hpath hother (hnames.map_key.symm.trans hnames'.map_key)

end DirectoryArchive

end ZDecl
