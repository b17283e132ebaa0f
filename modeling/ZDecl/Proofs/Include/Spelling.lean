import Mathlib.Data.List.Forall2
import Mathlib.Data.List.Pairwise
import ZDecl.Archive.Memory
import ZDecl.Include.Visited
import ZDecl.Proofs.Archive.Location
import ZDecl.Token.Keyword

/-!
# Paths spelled in another case

Names are compared in two ways. The visited files and the archives in memory go by the lower case
form of a whole path, in which a capital sigma depends on the characters around it. Directories and
keywords go by the case of ASCII letters alone. The first never tells apart what the second takes
for the same: changing the case of ASCII letters changes neither which characters are cased nor
which are passed over, so every sigma keeps its form.

* `Visited.Operation`, `Visited.after`: what is done to the visited files, one after the other.
  `Visited.Alike.after`: operations that are spelled differently lead to states that answer alike.
* `MemoryArchive.stored`: files put into an archive one after the other.
  `MemoryArchive.Alike.stored`, `MemoryArchive.Alike.find?`: the same for archives in memory.
* `Entry.SpelledApart`: the trees without two names in a directory that differ in case alone.
  `DirectoryArchive.resolve_eq_of_sameIgnoringCase`: there, both spellings of a valid path lead to
  the same place.
* `OnePath`: what is said of two spellings of a path.
* **`onePath_of_sameIgnoringCase`**: all of it holds if they differ in the case of ASCII letters
  only.
-/

namespace ZDecl

/-! ## Equality up to case -/

section Spellings

variable {p q r : String}

/-- Equality up to ASCII case holds in both directions. -/
theorem sameIgnoringCase_symm (h : sameIgnoringCase p q = true) : sameIgnoringCase q p = true :=
  (sameIgnoringCase_comm q p).trans h

/-- Equality up to ASCII case carries over. -/
theorem sameIgnoringCase_trans (h : sameIgnoringCase p q = true)
    (h' : sameIgnoringCase q r = true) : sameIgnoringCase p r = true := by
  rw [sameIgnoringCase_eq_true_iff] at *
  exact h.trans h'

/-- What is compared with one spelling may as well be compared with the other. -/
theorem sameIgnoringCase_congr (h : sameIgnoringCase p q = true) (name : String) :
    sameIgnoringCase name p = sameIgnoringCase name q := by
  rw [Bool.eq_iff_iff]
  exact ⟨fun hp => sameIgnoringCase_trans hp h,
    fun hq => sameIgnoringCase_trans hq (sameIgnoringCase_symm h)⟩

/-- Both spellings have the same key. -/
theorem key_eq_of_sameIgnoringCase (h : sameIgnoringCase p q = true) :
    IncludePath.key p = IncludePath.key q :=
  Text.lowercase_eq_of_sameIgnoringCase h

end Spellings

/-! ## Visited files -/

namespace Visited

/-- What can be done to the visited files. -/
inductive Operation where
  /-- A path is visited and listed. -/
  | insert (path : String)
  /-- A path is visited without being listed. -/
  | insertRoot (path : String)
  /-- Everything is forgotten. -/
  | clear
  deriving DecidableEq, Repr

/-- Does one operation. -/
def apply (v : Visited) : Operation → Visited
  | .insert path => v.insert path
  | .insertRoot path => v.insertRoot path
  | .clear => empty

/-- The visited files after some operations. -/
def after (ops : List Operation) : Visited := ops.foldl apply empty

/-- What an insertion answers: is the path a new one, which it adds? -/
def adds (v : Visited) (path : String) : Bool := (v.visit path).1

/-- A path is added if its file was not visited. -/
theorem adds_eq_not_contains (v : Visited) (path : String) :
    v.adds path = !v.contains path :=
  congrArg Prod.fst (v.visit_eq path)

/-- Are these the same operation, on paths that differ in case at most? -/
inductive Operation.Respelled : Operation → Operation → Prop where
  /-- Insertions. -/
  | insert {p q : String} (h : sameIgnoringCase p q = true) : Respelled (.insert p) (.insert q)
  /-- Insertions of a root. -/
  | insertRoot {p q : String} (h : sameIgnoringCase p q = true) :
      Respelled (.insertRoot p) (.insertRoot q)
  /-- Clearing. -/
  | clear : Respelled .clear .clear

/-- Are the same files visited, and are the listed paths the same up to case? -/
structure Alike (v v' : Visited) : Prop where
  /-- The same files are visited. -/
  keys : v.keys = v'.keys
  /-- The listed paths differ in case at most. -/
  paths : List.Forall₂ (fun p q => sameIgnoringCase p q = true) v.paths v'.paths

section Alike

variable {v v' : Visited} {p q : String}

/-- Alike sets contain the same paths, up to case. -/
theorem Alike.contains_eq (h : v.Alike v') (hpq : sameIgnoringCase p q = true) :
    v.contains p = v'.contains q := by
  unfold contains
  rw [h.keys, key_eq_of_sameIgnoringCase hpq]

/-- Alike sets lack the same paths, up to case. -/
theorem Alike.adds_eq (h : v.Alike v') (hpq : sameIgnoringCase p q = true) :
    v.adds p = v'.adds q := by
  rw [adds_eq_not_contains, adds_eq_not_contains, h.contains_eq hpq]

/-- **One operation** leads from states that are alike to such. -/
theorem Alike.apply (h : v.Alike v') {op op' : Operation} (hop : op.Respelled op') :
    (v.apply op).Alike (v'.apply op') := by
  cases hop with
  | clear => exact ⟨rfl, .nil⟩
  | @insert p q hpq =>
      simp only [Visited.apply, insert_eq, h.contains_eq hpq]
      split
      · exact h
      · exact ⟨by rw [h.keys, key_eq_of_sameIgnoringCase hpq],
          List.rel_append h.paths (.cons hpq .nil)⟩
  | @insertRoot p q hpq =>
      simp only [Visited.apply, insertRoot_eq, h.contains_eq hpq]
      split
      · exact h
      · exact ⟨by rw [h.keys, key_eq_of_sameIgnoringCase hpq], h.paths⟩

/-- **Any number of operations** does. -/
theorem Alike.after {ops ops' : List Operation} (h : List.Forall₂ Operation.Respelled ops ops') :
    (after ops).Alike (after ops') :=
  List.rel_foldl (P := Alike) (R := Operation.Respelled)
    (fun _ _ hv _ _ hop => hv.apply hop) ⟨rfl, .nil⟩ h

end Alike

end Visited

/-! ## Archives in memory -/

/-- Are these files the same, up to the case of their paths? -/
structure StoredFile.Alike (f f' : StoredFile) : Prop where
  /-- The paths differ in case at most. -/
  path : sameIgnoringCase f.path f'.path = true
  /-- The contents are the same. -/
  contents : f.contents = f'.contents

/-- Files that are stored under two spellings of one path share their key. -/
theorem StoredFile.Alike.key_eq {f f' : StoredFile} (h : f.Alike f') : f.key = f'.key :=
  key_eq_of_sameIgnoringCase h.path

namespace MemoryArchive

/-- The archive of this name in which files were stored one after the other. -/
def stored (name : String) (files : List StoredFile) : MemoryArchive :=
  files.foldl (fun a f => a.insert f.path f.contents) { name := name }

/-- Do two archives hold the same files under the same name, up to the case of their paths? -/
structure Alike (a a' : MemoryArchive) : Prop where
  /-- They have the same name. -/
  name : a.name = a'.name
  /-- They hold the same files in the same order. -/
  files : List.Forall₂ StoredFile.Alike a.files a'.files

variable {a a' : MemoryArchive} {f f' : StoredFile} {p q : String}

/-- **Storing one file** leads from archives that are alike to such. -/
theorem Alike.insert (h : a.Alike a') (hf : f.Alike f') :
    (a.insert f.path f.contents).Alike (a'.insert f'.path f'.contents) := by
  refine ⟨h.name, .cons ⟨hf.path, hf.contents⟩ (List.rel_filter (fun g g' hg => ?_) h.files)⟩
  dsimp only
  rw [hg.key_eq, key_eq_of_sameIgnoringCase hf.path]

/-- **Storing any number of files** does. -/
theorem Alike.stored {files files' : List StoredFile}
    (h : List.Forall₂ StoredFile.Alike files files') (name : String) :
    (stored name files).Alike (stored name files') :=
  List.rel_foldl (P := Alike) (R := StoredFile.Alike)
    (fun _ _ ha _ _ hf => ha.insert hf) ⟨rfl, .nil⟩ h

/-- The same file is found for both spellings of a path. -/
theorem find?_eq (a : MemoryArchive) (h : sameIgnoringCase p q = true) :
    a.find? p = a.find? q := by
  unfold find?
  rw [key_eq_of_sameIgnoringCase h]

/-- Files that are alike are found in archives that are. -/
theorem Alike.find? (h : a.Alike a') (hpq : sameIgnoringCase p q = true) :
    Option.Rel StoredFile.Alike (a.find? p) (a'.find? q) := by
  have hlists : ∀ {files files' : List StoredFile}, List.Forall₂ StoredFile.Alike files files' →
      Option.Rel StoredFile.Alike (files.find? (·.key == IncludePath.key q))
        (files'.find? (·.key == IncludePath.key q)) := by
    intro files files' hfiles
    induction hfiles with
    | nil => exact .none
    | cons hf _ ih =>
        rw [List.find?_cons, List.find?_cons, hf.key_eq]
        split
        · exact .some hf
        · exact ih
  unfold MemoryArchive.find?
  rw [key_eq_of_sameIgnoringCase hpq]
  exact hlists h.files

end MemoryArchive

/-- Are both paths opened with the same result, a file that has the same contents and the same name
up to case, or is neither found? -/
inductive OpensAlike (p q : String) :
    Except OpenError SourceFile → Except OpenError SourceFile → Prop where
  /-- Both are opened. -/
  | found {file file' : SourceFile} (hname : sameIgnoringCase file.name file'.name = true)
      (harchive : file.location.archive = file'.location.archive)
      (hcontents : file.contents = file'.contents) : OpensAlike p q (.ok file) (.ok file')
  /-- Neither is found, and the failures name the paths as they were spelled. -/
  | missing : OpensAlike p q (.error (.notFound p)) (.error (.notFound q))

/-- Both are there, or neither is. -/
theorem OpensAlike.isSome_eq {p q : String} {r r' : Except OpenError SourceFile}
    (h : OpensAlike p q r r') : r.toOption.isSome = r'.toOption.isSome := by
  cases h <;> rfl

/-- Archives that are alike open both spellings of a path alike. -/
theorem MemoryArchive.Alike.openFile {a a' : MemoryArchive} {p q : String} (h : a.Alike a')
    (hpq : sameIgnoringCase p q = true) :
    OpensAlike p q (Archive.openFile a p) (Archive.openFile a' q) := by
  have hfind := h.find? hpq
  cases hp : a.find? p with
  | none =>
      rw [hp] at hfind
      cases hq : a'.find? q with
      | none =>
          rw [openFile_of_find?_eq_none hp, openFile_of_find?_eq_none hq]
          exact .missing
      | some g =>
          rw [hq] at hfind
          cases hfind
  | some f =>
      rw [hp] at hfind
      cases hq : a'.find? q with
      | none =>
          rw [hq] at hfind
          cases hfind
      | some g =>
          rw [hq] at hfind
          cases hfind with
          | some hfg =>
              rw [openFile_of_find? hp, openFile_of_find? hq]
              exact .found hfg.path h.name hfg.contents

/-! ## Directories -/

namespace Entry

variable {disk e : Entry} {entries : List (FileName × Entry)} {place : List FileName}
  {name name' : FileName} {s s' p q : String}

/-- Do no two names of a directory differ, as texts, in the case of ASCII letters alone, there and
in all directories below? -/
def SpelledApart (e : Entry) : Prop :=
  e.Throughout fun names => names.Pairwise fun n n' => sameIgnoringCase n.text n'.text = false

/-- A segment is found if and only if some entry has it for a name, up to case. -/
theorem find?_eq_none_iff :
    find? entries s = none ↔ ∀ entry ∈ entries, sameIgnoringCase entry.1.text s = false := by
  unfold find?
  rw [Option.map_eq_none_iff, Option.or_eq_none_iff, List.find?_eq_none, List.find?_eq_none]
  constructor
  · rintro ⟨-, h⟩ entry hentry
    exact Bool.eq_false_iff.mpr (h entry hentry)
  · intro h
    refine ⟨fun entry hentry heq => ?_, fun entry hentry => Bool.eq_false_iff.mp (h entry hentry)⟩
    have hsame := h entry hentry
    rw [beq_iff_eq.mp heq, FileName.text_ofText, sameIgnoringCase_refl] at hsame
    cases hsame

/-- Both spellings are found, or neither is. -/
theorem isSome_find?_eq (entries : List (FileName × Entry)) (h : sameIgnoringCase s s' = true) :
    (find? entries s).isSome = (find? entries s').isSome := by
  rw [Bool.eq_iff_iff, ← not_iff_not, Option.not_isSome_iff_eq_none, Option.not_isSome_iff_eq_none,
    find?_eq_none_iff, find?_eq_none_iff]
  simp only [sameIgnoringCase_congr h]

/-- Two names of a directory that are the same up to case are one, if names are spelled apart. -/
theorem SpelledApart.eq_of_mem (h : (directory entries).SpelledApart)
    (hname : name ∈ entries.map (·.1)) (hname' : name' ∈ entries.map (·.1))
    (hsame : sameIgnoringCase name.text name'.text = true) : name = name' := by
  by_contra hne
  cases h with
  | directory hnames _ =>
      have hsymm : Std.Symm fun n n' : FileName => sameIgnoringCase n.text n'.text = false :=
        ⟨fun _ _ h => (sameIgnoringCase_comm ..).trans h⟩
      exact absurd hsame (Bool.eq_false_iff.mp (hnames.forall hname hname' hne))

/-- **Both spellings are found as the same name** of a directory whose names are spelled apart. -/
theorem SpelledApart.find?_eq (h : (directory entries).SpelledApart)
    (hs : sameIgnoringCase s s' = true) : find? entries s = find? entries s' := by
  have hsome := isSome_find?_eq entries hs
  cases hfind : find? entries s with
  | none =>
      rw [hfind] at hsome
      exact (Option.not_isSome_iff_eq_none.mp (by simp [← hsome])).symm
  | some name =>
      rw [hfind] at hsome
      obtain ⟨name', hfind'⟩ := Option.isSome_iff_exists.mp hsome.symm
      obtain ⟨hmem, hsame⟩ := of_find? hfind
      obtain ⟨hmem', hsame'⟩ := of_find? hfind'
      have hnames : sameIgnoringCase name.text name'.text = true :=
        sameIgnoringCase_trans (sameIgnoringCase_trans hsame hs) (sameIgnoringCase_symm hsame')
      rw [hfind', h.eq_of_mem hmem hmem' hnames]

/-- The segments that refer to a place have one spelling. -/
theorem eq_dots_iff (h : sameIgnoringCase s s' = true) {dots : String}
    (hdots : dots = "." ∨ dots = "..") : s = dots ↔ s' = dots := by
  have hkey := key_eq_of_sameIgnoringCase h
  constructor
  · rintro rfl
    exact eq_of_key_eq_dots hdots hkey.symm
  · rintro rfl
    exact eq_of_key_eq_dots hdots hkey

/-- **Both spellings of a segment** make the same step. -/
theorem SpelledApart.step_eq (he : e.SpelledApart) (hplace : disk.under place = some e)
    (h : sameIgnoringCase s s' = true) : step disk place s = step disk place s' := by
  unfold step
  rw [hplace]
  cases e with
  | file contents => rfl
  | directory entries =>
      dsimp only
      rw [he.find?_eq h]
      simp only [eq_dots_iff h (.inl rfl), eq_dots_iff h (.inr rfl)]

/-- **Whole paths** lead to the same place, if they refer to none. -/
theorem SpelledApart.foldlM_step_eq {segments segments' : List String}
    (h : List.Forall₂ (fun s s' => sameIgnoringCase s s' = true) segments segments')
    (hdots : ∀ segment ∈ segments', segment ≠ "." ∧ segment ≠ "..") (he : e.SpelledApart)
    (hplace : disk.under place = some e) :
    segments.foldlM (step disk) place = segments'.foldlM (step disk) place := by
  induction h generalizing e place with
  | nil => rfl
  | @cons s s' segments segments' hs _ ih =>
      obtain ⟨hsegment, hdots⟩ := List.forall_mem_cons.mp hdots
      rw [List.foldlM_cons, List.foldlM_cons, he.step_eq hplace hs]
      cases hstep : step disk place s' with
      | error deadEnd => rfl
      | ok next =>
          -- The step leads down, so the directory that it leads to is spelled apart as well.
          obtain ⟨entries, name, hdirectory, hfind, rfl⟩ := exists_of_step hsegment hstep
          obtain ⟨entry, hentry⟩ := exists_under_of_find? hfind
          have hnext : disk.under (place ++ [name]) = some entry := by
            rw [under_append, hdirectory, Option.bind_some, hentry]
          have hdown : e.under [name] = some entry := by
            rw [Option.some.inj (hplace.symm.trans hdirectory), hentry]
          exact ih hdots (Throughout.under he hdown) hnext

/-! ## Segments -/

/-- Lowering the case of ASCII letters moves no slash. -/
theorem splitOn_map_toLower (cs : List Char) :
    (cs.map Char.toLower).splitOn '/' = (cs.splitOn '/').map (List.map Char.toLower) := by
  have hslash : ∀ c : Char, (c.toLower == '/') = (c == '/') := by
    refine Text.of_ascii (P := fun c => (c.toLower == '/') = (c == '/')) ?_ ?_
    · decide +kernel
    · intro c hc
      rw [hc]
  induction cs with
  | nil => rfl
  | cons c cs ih =>
      rw [List.map_cons, List.splitOn_cons_eq_if_modifyHead, List.splitOn_cons_eq_if_modifyHead,
        hslash, ih]
      split
      · rfl
      · cases cs.splitOn '/' <;> rfl

/-- Two spellings of a path have two spellings of the same segments. -/
theorem segments_of_sameIgnoringCase (h : sameIgnoringCase p q = true) :
    List.Forall₂ (fun s s' => sameIgnoringCase s s' = true) (segments p) (segments q) := by
  have hpieces : (p.toList.splitOn '/').map (List.map Char.toLower) =
      (q.toList.splitOn '/').map (List.map Char.toLower) := by
    rw [← splitOn_map_toLower, ← splitOn_map_toLower, sameIgnoringCase_eq_true_iff.mp h]
  have hboth : List.Forall₂ (fun a b : List Char => a.map Char.toLower = b.map Char.toLower)
      (p.toList.splitOn '/') (q.toList.splitOn '/') := by
    rw [← List.forall₂_eq_eq_eq] at hpieces
    exact List.forall₂_map_right_iff.mp (List.forall₂_map_left_iff.mp hpieces)
  have hempty : ∀ ⦃a b : List Char⦄, a.map Char.toLower = b.map Char.toLower →
      ((!a.isEmpty) = true ↔ (!b.isEmpty) = true) := by
    intro a b hab
    rw [← List.isEmpty_map (f := Char.toLower), hab, List.isEmpty_map]
  refine List.forall₂_map_left_iff.mpr (List.forall₂_map_right_iff.mpr ?_)
  refine List.Forall₂.imp (fun a b hab => ?_) (List.rel_filter hempty hboth)
  rw [sameIgnoringCase_eq_true_iff, String.toList_ofList, String.toList_ofList, hab]

end Entry

namespace DirectoryArchive

/-- **Both spellings of a valid path lead to the same place**, or nowhere for the same reason, where
names are spelled apart. -/
theorem resolve_eq_of_sameIgnoringCase {a : DirectoryArchive} (hroot : a.root.SpelledApart)
    {p q : String} (h : sameIgnoringCase p q = true) (hvalid : IncludePath.fault? p = none) :
    a.resolve p = a.resolve q := by
  have hsegments := Entry.segments_of_sameIgnoringCase (sameIgnoringCase_symm h)
  exact (hroot.foldlM_step_eq hsegments (IncludePath.not_dots_of_fault? hvalid) a.stands).symm

end DirectoryArchive

/-! ## One path in two spellings -/

/-- What is said of two spellings of a path. -/
structure OnePath (p q : String) : Prop where
  /-- They have the same key. -/
  key : IncludePath.key p = IncludePath.key q
  /-- After any operations, also such as were spelled differently, both are visited or neither is,
  and an insertion answers the same. -/
  visited : ∀ ops ops', List.Forall₂ Visited.Operation.Respelled ops ops' →
    (Visited.after ops).contains p = (Visited.after ops').contains q ∧
      (Visited.after ops).adds p = (Visited.after ops').adds q
  /-- Every archive in memory finds the same file for both. -/
  finds : ∀ a : MemoryArchive, a.find? p = a.find? q
  /-- Archives in memory into which the same files were put, also under paths spelled differently,
  open both alike, and have both or neither. -/
  opens : ∀ name files files', List.Forall₂ StoredFile.Alike files files' →
    OpensAlike p q (Archive.openFile (MemoryArchive.stored name files) p)
        (Archive.openFile (MemoryArchive.stored name files') q) ∧
      Archive.contains (MemoryArchive.stored name files) p =
        Archive.contains (MemoryArchive.stored name files') q
  /-- In a directory some entry is found for both or for neither, and the name of each that is found
  has, as a text, the key of both. -/
  entries : ∀ entries, (Entry.find? entries p).isSome = (Entry.find? entries q).isSome ∧
    ∀ name, Entry.find? entries p = some name → IncludePath.key name.text = IncludePath.key q
  /-- If they may be included, they lead to the same place of a directory whose names are spelled
  apart, or nowhere for the same reason. -/
  resolve : IncludePath.fault? p = none →
    ∀ a : DirectoryArchive, a.root.SpelledApart → a.resolve p = a.resolve q
  /-- They spell the same keyword or none, and have the key of the keyword that they spell. -/
  keyword : Keyword.ofWord? p = Keyword.ofWord? q ∧
    ∀ k, Keyword.ofWord? p = some k → IncludePath.key q = IncludePath.key k.spelling

/-- **The case of ASCII letters never separates two paths.** -/
theorem onePath_of_sameIgnoringCase (p q : String) (h : sameIgnoringCase p q = true) :
    OnePath p q where
  key := key_eq_of_sameIgnoringCase h
  visited ops ops' hops :=
    ⟨(Visited.Alike.after hops).contains_eq h, (Visited.Alike.after hops).adds_eq h⟩
  finds a := a.find?_eq h
  opens name files files' hfiles :=
    have hopens := (MemoryArchive.Alike.stored hfiles name).openFile h
    ⟨hopens, hopens.isSome_eq⟩
  entries entries := by
    refine ⟨Entry.isSome_find?_eq entries h, fun name hfind => ?_⟩
    exact key_eq_of_sameIgnoringCase (sameIgnoringCase_trans (Entry.of_find? hfind).2 h)
  resolve hvalid a hroot := DirectoryArchive.resolve_eq_of_sameIgnoringCase hroot h hvalid
  keyword := by
    have hboth : ∀ k, Keyword.ofWord? p = some k ↔ Keyword.ofWord? q = some k := by
      intro k
      rw [Keyword.ofWord?_eq_some_iff, Keyword.ofWord?_eq_some_iff,
        sameIgnoringCase_comm p, sameIgnoringCase_comm q, sameIgnoringCase_congr h]
    refine ⟨Option.ext hboth, fun k hk => ?_⟩
    exact key_eq_of_sameIgnoringCase (Keyword.ofWord?_eq_some_iff.mp ((hboth k).mp hk))

/-- A capital sigma that is the last letter of its segment in both spellings, behind letters that
differ in case. -/
theorem onePath_of_capital_sigma :
    sameIgnoringCase "Actors/ODOΣ/x.zs" "aCTORS/odoΣ/X.ZS" = true ∧
      OnePath "Actors/ODOΣ/x.zs" "aCTORS/odoΣ/X.ZS" := by
  have h : sameIgnoringCase "Actors/ODOΣ/x.zs" "aCTORS/odoΣ/X.ZS" = true := by decide +kernel
  exact ⟨h, onePath_of_sameIgnoringCase _ _ h⟩

end ZDecl
