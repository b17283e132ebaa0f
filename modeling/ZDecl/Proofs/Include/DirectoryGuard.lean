import ZDecl.Proofs.Archive.Location
import ZDecl.Proofs.Include.Guard
import ZDecl.Proofs.Include.Recording

/-!
# Repeated includes over a directory

A session tells files by the keys of their paths, a directory by their locations. So an include
directive is rejected as a repetition for the right reason as far as keys and locations agree: a
path that is rejected leads to an open file if no directory has two names with the same key, and a
plain path to a file that was opened under a plain path is always rejected. Then no file is opened
twice, and none of its declarations is recorded twice.

* `rejected_iff_key_opened`: the verdict on a directive, by the keys of the files opened before it.
* `RepeatsRejected`: what is said of a session over a directory.
* **`parseArchive_rejects_repeats`**: every session over a directory is like that.
* `directory_guard_not_exact`: neither condition can be left out.
-/

namespace ZDecl

variable {a : DirectoryArchive} {history : List Moment} {result : Except Failure Unit}
  {options : Options} {root : SourceFile} {s' : Session}

/-- What a run of a file of a directory opens. -/
theorem Runs.opensAtOnce_root
    (h : Runs (Archive.handlers a) (.file () root)
      ((Session.new options).visitRoot root.name, ()) history result (s', ()))
    (hroot : Archive.openFile a root.name = .ok root) :
    OpensAtOnce a [root.name] history result :=
  h.opensAtOnce (fun _ _ => DirectoryArchive.name_of_openFile) hroot

/-- The files that are opened have different keys. -/
theorem nodup_keys_openings
    (h : Runs (Archive.handlers a) (.file () root)
      ((Session.new options).visitRoot root.name, ()) history result (s', ()))
    (hroot : Archive.openFile a root.name = .ok root) :
    ((openings history).map SourceFile.key).Nodup := by
  have hkeys : ((Session.new options).visitRoot root.name).visited.keys =
      [IncludePath.key root.name] := rfl
  have hchain : Chain ((Session.new options).visitRoot root.name) history s' := h.chain
  obtain ⟨hvisited, -, hnodup⟩ := hchain.visited (by simp [hkeys])
  rw [hvisited, hkeys, ← List.reverse_cons] at hnodup
  have hnodup := (List.reverse_perm _).nodup_iff.mp hnodup
  have hamong := (h.opensAtOnce_root hroot).among.map IncludePath.key
  rw [opened, List.map_map] at hamong
  exact hnodup.sublist hamong

/-- Files that are opened under plain paths have the same key if they have the same location. -/
theorem OpensAtOnce.key_eq {start : List String} (h : OpensAtOnce a start history result)
    (hplain : ∀ source ∈ openings history, IsPlain source.name) {source source' : SourceFile}
    (hsource : source ∈ openings history) (hsource' : source' ∈ openings history)
    (hlocation : a.location? source.name = a.location? source'.name) :
    source.key = source'.key := by
  obtain ⟨location, hfound⟩ :=
    DirectoryArchive.exists_location_of_openFile (h.found source hsource)
  exact DirectoryArchive.key_eq_of_location?_eq (hplain source hsource) (hplain source' hsource')
    hfound (hlocation ▸ hfound)

/-- **The verdict on an include directive** with a valid path: it is a repetition exactly if a file
was opened whose name has the key of the path. -/
theorem rejected_iff_key_opened
    (h : Runs (Archive.handlers a) (.file () root)
      ((Session.new options).visitRoot root.name, ()) history result (s', ()))
    (hroot : Archive.openFile a root.name = .ok root) {before after : List Moment} {t : Token}
    {verdict : Option Cause} {s : Session}
    (hhistory : history = before ++ ⟨.reached t verdict, s⟩ :: after)
    (hfault : IncludePath.fault? t.unquoted = none) :
    verdict = some (.alreadyIncluded t.unquoted) ↔
      ∃ source ∈ openings before,
        IncludePath.key source.name = IncludePath.key t.unquoted := by
  have hopened := (h.opensAtOnce_root hroot).reached before t verdict s after hhistory
  have hkeys : ((Session.new options).visitRoot root.name).visited.keys =
      [IncludePath.key root.name] := rfl
  have hchain : Chain ((Session.new options).visitRoot root.name) history s' := h.chain
  subst hhistory
  obtain ⟨s₁, hbefore, ⟨rfl, -⟩, -⟩ := hchain.split
  obtain ⟨hvisited, -, -⟩ := hbefore.visited (by simp [hkeys])
  have hmem : IncludePath.key t.unquoted ∈ s₁.visited.keys ↔
      IncludePath.key t.unquoted ∈ (opened before).map IncludePath.key := by
    rw [hvisited, hkeys, hopened]
    simp [or_comm]
  rw [Session.rejection?_eq_alreadyIncluded_iff hfault, hmem, opened, List.map_map, List.mem_map]
  rfl

/-- What is said of the history of a session over a directory, and of the report on it. -/
structure RepeatsRejected (a : DirectoryArchive) (history : List Moment) (report : Report) :
    Prop where
  /-- What is opened is what the archive has under its name. -/
  found : ∀ source ∈ openings history, Archive.openFile a source.name = .ok source
  /-- The verdict on a directive with a valid path goes by keys. -/
  byKey : ∀ before after t verdict s,
    history = before ++ ⟨.reached t verdict, s⟩ :: after → IncludePath.fault? t.unquoted = none →
      (verdict = some (.alreadyIncluded t.unquoted) ↔
        ∃ source ∈ openings before, IncludePath.key source.name = IncludePath.key t.unquoted)
  /-- Only repetitions are rejected as such, if names are keyed apart: the location that the path of
  a rejected directive leads to is that of a file that was opened before. -/
  only : a.root.KeyedApart → ∀ before after t verdict s location,
    history = before ++ ⟨.reached t verdict, s⟩ :: after →
      IncludePath.fault? t.unquoted = none → a.location? t.unquoted = some location →
        verdict = some (.alreadyIncluded t.unquoted) →
          ∃ source ∈ openings before, a.location? source.name = some location
  /-- Every repetition is rejected, if paths are plain: the path of a directive that leads to the
  location of a file that was opened before. -/
  every : ∀ before after t verdict s location,
    history = before ++ ⟨.reached t verdict, s⟩ :: after →
      IncludePath.fault? t.unquoted = none → a.location? t.unquoted = some location →
        IsPlain t.unquoted →
          (∃ source ∈ openings before, IsPlain source.name ∧
            a.location? source.name = some location) →
              verdict = some (.alreadyIncluded t.unquoted)
  /-- No file is opened twice, if paths are plain. -/
  once : (∀ source ∈ openings history, IsPlain source.name) →
    ((openings history).map fun source => a.location? source.name).Nodup
  /-- What is declared is declared in files that are opened. -/
  declared : ∀ d ∈ report.declarations, ∃ source ∈ openings history, d.source = source.name
  /-- No declaration of a file is recorded twice, if paths are plain. -/
  recordedOnce : (∀ source ∈ openings history, IsPlain source.name) →
    (report.declarations.map fun d => (a.location? d.source, d.span)).Nodup

/-- Every run of a file of a directory is like that. -/
theorem repeatsRejected_of_runs
    (h : Runs (Archive.handlers a) (.file () root)
      ((Session.new options).visitRoot root.name, ()) history result (s', ()))
    (hroot : Archive.openFile a root.name = .ok root) :
    RepeatsRejected a history (Report.ofSession s') := by
  have hopens := h.opensAtOnce_root hroot
  have hkeys := nodup_keys_openings h hroot
  have hrecords : RecordsOnce [] history := h.recordsOnce
  have hdeclarations : (Report.ofSession s').declarations = recorded history :=
    (h.declarations_eq (Archive.parsesOnly_handlers a) trivial).trans (List.nil_append _)
  have hdeclared : ∀ d ∈ recorded history, ∃ source ∈ openings history, source.name = d.source :=
    fun d hd => List.mem_map.mp ((hrecords.placed d hd).resolve_left List.not_mem_nil)
  refine ⟨hopens.found, ?_, ?_, ?_, ?_, ?_, ?_⟩
  · intro before after t verdict s hhistory hfault
    exact rejected_iff_key_opened h hroot hhistory hfault
  · intro happart before after t verdict s location hhistory hfault hlocation hverdict
    obtain ⟨source, hsource, hkey⟩ := (rejected_iff_key_opened h hroot hhistory hfault).mp hverdict
    have hmem : source ∈ openings history := by
      rw [hhistory, openings_append]
      exact List.mem_append_left _ hsource
    obtain ⟨location', hlocation'⟩ :=
      DirectoryArchive.exists_location_of_openFile (hopens.found source hmem)
    have hdots := IncludePath.not_dots_of_fault? hfault
    obtain rfl := DirectoryArchive.location?_eq_of_key_eq happart hdots hkey hlocation' hlocation
    exact ⟨source, hsource, hlocation'⟩
  · intro before after t verdict s location hhistory hfault hlocation hplain hrepeated
    obtain ⟨source, hsource, hplain', hlocation'⟩ := hrepeated
    have hkey := DirectoryArchive.key_eq_of_location?_eq hplain' hplain hlocation' hlocation
    exact (rejected_iff_key_opened h hroot hhistory hfault).mpr ⟨source, hsource, hkey⟩
  · intro hplain
    refine List.pairwise_map.mpr ((List.pairwise_map.mp hkeys).imp_of_mem ?_)
    intro source source' hsource hsource' hne hsame
    exact hne (hopens.key_eq hplain hsource hsource' hsame)
  · rw [hdeclarations]
    intro d hd
    obtain ⟨source, hsource, hname⟩ := hdeclared d hd
    exact ⟨source, hsource, hname.symm⟩
  · intro hplain
    have hnames : (opened history).Nodup := by
      refine List.Nodup.of_map IncludePath.key ?_
      rw [opened, List.map_map]
      exact hkeys
    have honce := hrecords.once List.nodup_nil hnames (by simp)
    rw [hdeclarations]
    refine List.pairwise_map.mpr ((List.pairwise_map.mp honce).imp_of_mem ?_)
    intro d d' hd hd' hne hsame
    obtain ⟨hlocation, hspan⟩ := Prod.mk.inj hsame
    obtain ⟨source, hsource, hname⟩ := hdeclared d hd
    obtain ⟨source', hsource', hname'⟩ := hdeclared d' hd'
    rw [← hname, ← hname'] at hlocation
    have hkey := hopens.key_eq hplain hsource hsource' hlocation
    obtain rfl := List.inj_on_of_nodup_map hkeys hsource hsource' hkey
    exact hne (Prod.ext (hname.symm.trans hname') hspan)

/-- **Repeated includes are rejected over a directory**, whatever its files include: only these if
names are keyed apart, and every one of them if paths are plain. -/
theorem parseArchive_rejects_repeats (a : DirectoryArchive) (path : String) (options : Options)
    {root : SourceFile} (hroot : Archive.openFile a path = .ok root) :
    ∃ history result s', Runs (Archive.handlers a) (.file () root)
        ((Session.new options).visitRoot root.name, ()) history result (s', ()) ∧
      parseArchive a path options = Report.ofSession s' ∧
        RepeatsRejected a history (parseArchive a path options) := by
  obtain ⟨history, result, s', hrun, hreport⟩ := exists_runs_of_openFile a path options hroot
  have hname := DirectoryArchive.name_of_openFile hroot
  refine ⟨history, result, s', hrun, hreport, ?_⟩
  rw [hreport]
  exact repeatsRejected_of_runs hrun (hname.symm ▸ hroot)

/-- A directory with a file in a directory, named `a/b.zs`, and with the given files. -/
def projectOf (files : List (String × String)) : DirectoryArchive where
  name := "project"
  root := .directory
    ((.ofText "a", .directory [(.ofText "b.zs", .file "class B \x7b \x7d".toUTF8.toList)]) ::
      files.map fun (name, contents) => (.ofText name, .file contents.toUTF8.toList))

/-- The second include names the file of the first one in other letters. -/
theorem repeats_rejected_of_two_cases :
    let a := projectOf [("main.zs", "#include \"a/b.zs\" #include \"A/B.zs\"")]
    ∃ history, a.root.KeyedApart ∧ RepeatsRejected a history (parseArchive a "main.zs") ∧
      (parseArchive a "main.zs").failure.map Failure.cause = some (.alreadyIncluded "A/B.zs") := by
  intro a
  have hfailure : (parseArchive a "main.zs").failure.map Failure.cause =
      some (.alreadyIncluded "A/B.zs") := by
    decide +kernel
  have happart : a.root.KeyedApart := by
    refine .directory (by decide +kernel) (List.forall_mem_cons.mpr ⟨?_, ?_⟩)
    · exact .directory (by decide +kernel) (List.forall_mem_singleton.mpr (.file _))
    · exact List.forall_mem_singleton.mpr (.file _)
  have hroot : Archive.openFile a "main.zs" = .ok ⟨"main.zs", ⟨"project", "main.zs"⟩,
      "#include \"a/b.zs\" #include \"A/B.zs\"".toUTF8.toList⟩ := rfl
  obtain ⟨history, -, -, -, -, hrepeats⟩ := parseArchive_rejects_repeats a "main.zs" {} hroot
  exact ⟨history, happart, hrepeats, hfailure⟩

/-- **Keys and locations differ** where names are not keyed apart and where paths are not plain. A
file that is not open yet is refused, and a file is opened twice, its declarations being recorded
twice: once for an empty segment in the path of an include, and once for a dot in that of the
root. -/
theorem directory_guard_not_exact :
    let accented := projectOf [("main.zs", "#include \"\u00c9.zs\" #include \"\u00e9.zs\""),
      ("\u00c9.zs", ""), ("\u00e9.zs", "")]
    let slashed := projectOf [("main.zs", "#include \"a/b.zs\" #include \"a//b.zs\"")]
    let dotted := projectOf [("main.zs", "class A \x7b \x7d #include \"b.zs\""),
      ("b.zs", "#include \"main.zs\"")]
    (sameIgnoringCase "\u00c9.zs" "\u00e9.zs" = false ∧
      accented.location? "\u00c9.zs" ≠ accented.location? "\u00e9.zs" ∧
      IncludePath.fault? "\u00e9.zs" = none ∧ Archive.contains accented "\u00e9.zs" = true ∧
      (parseArchive accented "main.zs").included = ["\u00c9.zs"] ∧
      (parseArchive accented "main.zs").failure.map Failure.cause =
        some (.alreadyIncluded "\u00e9.zs")) ∧
    (slashed.location? "a/b.zs" = some [.ofText "a", .ofText "b.zs"] ∧
      slashed.location? "a//b.zs" = some [.ofText "a", .ofText "b.zs"] ∧
      IncludePath.fault? "a//b.zs" = none ∧
      (parseArchive slashed "main.zs").included = ["a/b.zs", "a//b.zs"] ∧
      (parseArchive slashed "main.zs").declarations.map Declaration.name = ["B", "B"]) ∧
    dotted.location? "./main.zs" = dotted.location? "main.zs" ∧
      (parseArchive dotted "./main.zs").included = ["b.zs", "main.zs"] ∧
      (parseArchive dotted "./main.zs").declarations.map Declaration.name = ["A", "A"] := by
  decide +kernel

end ZDecl
