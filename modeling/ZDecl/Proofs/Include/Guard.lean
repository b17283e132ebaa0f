import ZDecl.Proofs.Include.Expansion

/-!
# Includes cannot loop or repeat

Files of an archive may include each other in circles, and many files may include the same one. A
session ends all the same, since includes are nested to a bounded depth, and it parses no file
twice, since a path is checked against those that were visited. This file says exactly when an
include directive is rejected for that reason, and what the included files of a session look like if
none is: a tree.

* `Runs.opensIncluded`: the files that are parsed over an archive are the root and some of those
  that were included, in order.
* `Runs.failure_of_reached`: an include directive that is rejected ends the session.
* `VisitsOnce`: what is said of a session over an archive.
* **`parseArchive_visits_once`**: every session over an archive is like that.

The root counts as visited under the path that it is stored under, whatever path it was asked for
by, while an included file counts under the path of the directive. Since the archive finds a file by
the key of the path, and only so, these have the same key.
-/

namespace ZDecl

variable {ρ μ : Type} {archive : MemoryArchive}

/-! ## What is parsed -/

/-- The key of the name of a file. -/
def SourceFile.key (source : SourceFile) : String := IncludePath.key source.name

/-- Are the files that are parsed in the history files of the archive, whose keys are among the
given ones and in their order? -/
def OpensAmong (archive : MemoryArchive) (history : List Moment) (keys : List String) : Prop :=
  ∃ files : List StoredFile, (∀ file ∈ files, file ∈ archive.files) ∧
    openings history = files.map archive.source ∧ (files.map StoredFile.key).Sublist keys

/-- Where no file is parsed, none has another key. -/
theorem opensAmong_of_openings_eq_nil {history : List Moment} (h : openings history = [])
    (keys : List String) : OpensAmong archive history keys :=
  ⟨[], by simp, h, List.nil_sublist _⟩

/-- What is parsed in two stretches. -/
theorem OpensAmong.append {history later : List Moment} {keys more : List String}
    (h : OpensAmong archive history keys) (h' : OpensAmong archive later more) :
    OpensAmong archive (history ++ later) (keys ++ more) := by
  obtain ⟨files, hfiles, hopenings, hkeys⟩ := h
  obtain ⟨files', hfiles', hopenings', hkeys'⟩ := h'
  refine ⟨files ++ files', ?_, ?_, ?_⟩
  · intro file hfile
    exact (List.mem_append.mp hfile).elim (hfiles file) (hfiles' file)
  · rw [openings_append, hopenings, hopenings', List.map_append]
  · rw [List.map_append]
    exact hkeys.append hkeys'

/-- What is parsed in an include and right behind it, where nothing is parsed or included. -/
theorem OpensAmong.include {inside behind : List Moment} {path : String}
    (h : OpensAmong archive inside
      (IncludePath.key path :: (entered inside).map IncludePath.key))
    (hopenings : openings behind = []) (hentered : entered behind = []) (t : Token)
    (s s' : Session) :
    OpensAmong archive (⟨.reached t none, s⟩ :: ⟨.entered path, s'⟩ :: (inside ++ behind))
      ((entered (⟨.reached t none, s⟩ :: ⟨.entered path, s'⟩ :: (inside ++ behind))).map
        IncludePath.key) := by
  have hbehind : OpensAmong archive behind [] := opensAmong_of_openings_eq_nil hopenings []
  have hboth := h.append hbehind
  have hkeys : entered (⟨.reached t none, s⟩ :: ⟨.entered path, s'⟩ :: (inside ++ behind)) =
      path :: entered inside := by
    show path :: entered (inside ++ behind) = _
    rw [entered_append, hentered, List.append_nil]
  rw [hkeys]
  rw [List.append_nil] at hboth
  exact hboth

/-- The parts of a session over an archive, as far as they parse files: those are, in order, some of
the files that are included, after the file that is parsed itself or the one of the path that is
answered. -/
def Task.OpensIncluded (archive : MemoryArchive) : Task Unit Unit → List Moment → Prop
  | .file _ source, history => ∀ root ∈ archive.files, source = archive.source root →
      OpensAmong archive history (root.key :: (entered history).map IncludePath.key)
  | .answer a, history => ∀ path, a = .fromArchive archive () path →
      OpensAmong archive history (IncludePath.key path :: (entered history).map IncludePath.key)
  | _, history => OpensAmong archive history ((entered history).map IncludePath.key)

/-- **What a run over an archive parses**: files of the archive, namely the root and some of those
that were included, in order. -/
theorem Runs.opensIncluded {task : Task Unit Unit} {st st' : Session × Unit}
    {history : List Moment} {result : Except Failure Unit}
    (h : Runs archive.handlers task st history result st') :
    task.OpensIncluded archive history := by
  induction h with
  | known _ => exact fun _ _ _ => opensAmong_of_openings_eq_nil rfl _
  | opened _ _ ih =>
      rintro root hroot rfl
      obtain ⟨files, hfiles, hopenings, hkeys⟩ := ih
      refine ⟨root :: files, ?_, congrArg _ hopenings, hkeys.cons_cons _⟩
      intro file hfile
      rcases List.mem_cons.mp hfile with rfl | hfile
      · exact hroot
      · exact hfiles file hfile
  | finished _ | stopped _ | performed _ | rejected _ _ =>
      exact opensAmong_of_openings_eq_nil rfl _
  | more _ _ _ ihitem ihrest =>
      have hboth := OpensAmong.append ihitem ihrest
      rw [← List.map_append, ← entered_append] at hboth
      exact hboth
  | broken _ _ ih => exact ih
  | included _ _ _ ih => exact (ih _ rfl).include rfl rfl _ _ _
  | spoiled _ _ _ ih => exact (ih _ rfl).include rfl rfl _ _ _
  | refused _ _ _ ih => exact (ih _ rfl).include rfl rfl _ _ _
  | ended => exact fun _ _ => opensAmong_of_openings_eq_nil rfl _
  | parsed _ hrest ihfile _ =>
      intro path ha
      obtain ⟨entry, hentry, rfl, rfl⟩ := parse_eq_fromArchive ha
      obtain ⟨rfl, -, -⟩ := hrest.of_finish
      have hfile := ihfile entry (List.mem_of_find?_eq_some hentry) rfl
      rw [MemoryArchive.key_of_find? hentry] at hfile
      rw [List.append_nil]
      exact hfile
  | scanned hscans _ _ _ =>
      intro path ha
      rw [ha] at hscans
      exact (not_scans_fromArchive hscans).elim
  | missed hscans _ _ _ _ =>
      intro path ha
      rw [ha] at hscans
      exact (not_scans_fromArchive hscans).elim
  | requested hrequest _ _ =>
      intro path ha
      rw [ha, request?_fromArchive] at hrequest
      cases hrequest

/-! ## What is rejected -/

/-- **An include directive that is rejected** ends a session with answers that parse only: its
failure is the one that is known at the end. -/
theorem Runs.failure_of_reached {handlers : Handlers ρ μ}
    (hhandlers : ∀ role path, (handlers role path).ParsesOnly) {task : Task ρ μ}
    {st st' : Session × μ} {history : List Moment} {result : Except Failure Unit}
    (h : Runs handlers task st history result st') (hst : st.1.diagnostics.failure = none)
    (htask : task.ParsesOnly) {t : Token} {cause : Cause} {s : Session}
    (hx : ⟨.reached t (some cause), s⟩ ∈ history) :
    st'.1.diagnostics.failure =
      some { cause, span := t.span, source := some s.context.name } := by
  induction h with
  | known _ => cases hx
  | opened _ _ ih =>
      rcases List.mem_cons.mp hx with hx | hx
      · cases hx
      · exact ih hst trivial hx
  | finished _ => simp at hx
  | stopped _ => simp at hx
  | more _ hitem _ ihitem ihrest =>
      rcases List.mem_cons.mp hx with hx | hx
      · cases hx
      · cases hitem.settled hhandlers hst trivial with
        | quiet _ hnone =>
            rcases List.mem_append.mp hx with hx | hx
            · have hfailure := ihitem hst trivial hx
              rw [hnone] at hfailure
              cases hfailure
            · exact ihrest hnone trivial hx
  | broken _ _ ih =>
      rcases List.mem_cons.mp hx with hx | hx
      · cases hx
      · exact ih hst trivial hx
  | performed _ => simp at hx
  | rejected _ hf =>
      obtain ⟨⟨rfl, rfl⟩, rfl⟩ : (t = _ ∧ cause = _) ∧ s = _ := by simpa using hx
      show s.diagnostics.failure.or _ = _
      rw [hst, hf]
      rfl
  | @included _ _ _ _ _ _ inside _ _ _ ih | @spoiled _ _ _ _ _ _ inside _ _ _ _ ih =>
      have hinside : ⟨.reached t (some cause), s⟩ ∈ inside := by simpa using hx
      exact ih hst (hhandlers _ _) hinside
  | @refused _ _ _ s' _ _ inside _ placed _ _ _ ih =>
      have hinside : ⟨.reached t (some cause), s⟩ ∈ inside := by simpa using hx
      have hfailure := ih hst (hhandlers _ _) hinside
      have hreport : s'.leave.report placed = s'.leave :=
        report_eq_of_failure (s := s'.leave) hfailure placed
      rw [hreport]
      exact hfailure
  | ended => cases hx
  | @parsed _ _ _ _ _ _ later _ _ st₁ st' hfile hrest ihfile ihrest =>
      cases htask with
      | parse hk =>
          rcases List.mem_append.mp hx with hx | hx
          · have hfailure := ihfile hst trivial hx
            have hidles := hrest.idles hfailure (hk _)
            have hsame : st'.1.diagnostics.failure = st₁.1.diagnostics.failure :=
              congrArg Report.failure hidles.2.2
            rw [hsame, hfailure]
          · cases hnone : st₁.1.diagnostics.failure with
            | none => exact ihrest hnone (hk _) hx
            | some f =>
                have hevent := (hrest.idles hnone (hk _)).1 _ hx
                cases hevent
  | scanned hscans _ _ _ => exact (Answer.ParsesOnly.not_scans htask hscans).elim
  | missed hscans _ _ _ _ => exact (Answer.ParsesOnly.not_scans htask hscans).elim
  | requested hrequest _ ih =>
      obtain ⟨ha, rfl⟩ := Answer.ParsesOnly.of_request? htask hrequest
      rcases List.mem_cons.mp hx with hx | hx
      · cases hx
      · exact ih hst ha hx

/-- A valid path is rejected as included already exactly if its key is visited. -/
theorem Session.rejection?_eq_alreadyIncluded_iff {s : Session} {path : String}
    (hfault : IncludePath.fault? path = none) :
    s.rejection? path = some (.alreadyIncluded path) ↔
      IncludePath.key path ∈ s.visited.keys := by
  unfold rejection? objection? Visited.contains
  rw [hfault]
  by_cases hkey : IncludePath.key path ∈ s.visited.keys
  · simp [hkey]
  · by_cases hdepth : s.depth < s.options.maxIncludeDepth
    · simp [hkey, hdepth]
    · simp [hkey, hdepth]

/-! ## Sessions over an archive -/

/-- What is said of the history of a session over an archive, from its root file on, and of the
report on it. -/
structure VisitsOnce (archive : MemoryArchive) (options : Options) (root : StoredFile)
    (history : List Moment) (report : Report) : Prop where
  /-- What is parsed are files of the archive. -/
  stored : ∀ source ∈ openings history, ∃ file ∈ archive.files, source = archive.source file
  /-- No file is parsed twice. -/
  once : ((openings history).map SourceFile.key).Nodup
  /-- So there are no more than the archive has. -/
  count : (openings history).length ≤ archive.size
  /-- An include directive with a valid path is rejected as a repetition exactly if its path names
  the root or a file that was included before. -/
  repeated : ∀ before after t verdict s, history = before ++ ⟨.reached t verdict, s⟩ :: after →
    IncludePath.fault? t.unquoted = none →
      (verdict = some (.alreadyIncluded t.unquoted) ↔
        IncludePath.key t.unquoted = root.key ∨
          ∃ path ∈ entered before, IncludePath.key path = IncludePath.key t.unquoted)
  /-- A rejected include directive is the failure of the session. -/
  rejected : ∀ t cause s, ⟨.reached t (some cause), s⟩ ∈ history →
    report.failure = some { cause, span := t.span, source := some s.context.name }
  /-- If there is no failure, the include directives are those of a tree in which no file comes
  twice and which is no deeper than allowed. -/
  tree : report.success = true → ∃ e : Expansion,
    Expands archive options.strictHeader root.path (Cursor.ofBytes root.contents) e ∧
      reached history = e.directives ∧ ((root :: e.entries).map StoredFile.key).Nodup ∧
        e.height ≤ options.maxIncludeDepth

/-- The key of a stored file is that of the file to read. -/
theorem MemoryArchive.map_key_source (archive : MemoryArchive) (files : List StoredFile) :
    (files.map archive.source).map SourceFile.key = files.map StoredFile.key := by
  rw [List.map_map]
  rfl

/-- Every run of the root file of an archive visits every file once at most. -/
theorem visitsOnce_of_runs {options : Options} {root : StoredFile} (hroot : root ∈ archive.files)
    {history : List Moment} {result : Except Failure Unit} {s' : Session}
    (h : Runs archive.handlers (.file () (archive.source root))
      (Session.rooted options root, ()) history result (s', ())) :
    VisitsOnce archive options root history (Report.ofSession s') := by
  have hkeys : (Session.rooted options root).visited.keys = [root.key] := rfl
  have hchain : Chain (Session.rooted options root) history s' := h.chain
  obtain ⟨files, hfiles, hopenings, hsublist⟩ := h.opensIncluded root hroot rfl
  have hnodup : ((openings history).map SourceFile.key).Nodup := by
    obtain ⟨hvisited, -, hnodup⟩ := hchain.visited (by simp [hkeys])
    rw [hvisited, hkeys, ← List.reverse_cons] at hnodup
    have hnodup := (List.reverse_perm _).nodup_iff.mp hnodup
    rw [hopenings, archive.map_key_source]
    exact hnodup.sublist hsublist
  refine ⟨?_, hnodup, ?_, ?_, ?_, ?_⟩
  · intro source hsource
    rw [hopenings] at hsource
    obtain ⟨file, hfile, rfl⟩ := List.mem_map.mp hsource
    exact ⟨file, hfiles file hfile, rfl⟩
  · have hsubset : (openings history).map SourceFile.key ⊆ archive.files.map StoredFile.key := by
      rw [hopenings, archive.map_key_source]
      exact List.map_subset _ hfiles
    have hlength := hnodup.length_le_of_subset hsubset
    rw [List.length_map, List.length_map] at hlength
    exact hlength
  · rintro before after t verdict s rfl hfault
    obtain ⟨s₁, hbefore, ⟨rfl, -⟩, -⟩ := hchain.split
    obtain ⟨hvisited, -, -⟩ := hbefore.visited (by simp [hkeys])
    rw [Session.rejection?_eq_alreadyIncluded_iff hfault, hvisited, hkeys]
    simp [or_comm]
  · intro t cause s hx
    exact h.failure_of_reached (fun _ => parsesOnly_fromArchive archive) rfl trivial hx
  · intro hsuccess
    have hok := result_eq_ok_of_failure_eq_none h (Option.isNone_iff_eq_none.mp hsuccess)
    obtain ⟨x, later, e, rfl, hx, he, hdescribes⟩ := h.expanded hok
    have hreached : reached (x :: later) = e.directives := by
      rw [← hdescribes.directives]
      simp [reached, hx]
    have hfilesOpened : openings (x :: later) = (root :: e.entries).map archive.source := by
      rw [List.map_cons, ← hdescribes.openings]
      simp [openings, hx]
    rw [hfilesOpened, archive.map_key_source] at hnodup
    exact ⟨e, he, hreached, hnodup, hdescribes.height⟩

/-- **Includes over an archive cannot loop or repeat**, whatever its files include and however deep
includes may be nested. If the root file is found, the session has a run, whose derivation is a
finite tree, and every file is visited once at most in it. If it is not found, nothing is parsed. -/
theorem parseArchive_visits_once (archive : MemoryArchive) (path : String) (options : Options) :
    match archive.find? path with
    | some root => ∃ history result s', Runs archive.handlers (.file () (archive.source root))
          (Session.rooted options root, ()) history result (s', ()) ∧
        parseArchive archive path options = Report.ofSession s' ∧
          VisitsOnce archive options root history (parseArchive archive path options)
    | none => parseArchive archive path options =
        { failure := some (Failure.inSource
            { cause := .cannotOpenRoot (.notFound path), span := Span.unknown } path) } := by
  cases hroot : archive.find? path with
  | some root =>
      obtain ⟨history, result, s', hrun, hreport⟩ :=
        exists_runs_of_archive archive path options hroot
      refine ⟨history, result, s', hrun, hreport, ?_⟩
      rw [hreport]
      exact visitsOnce_of_runs (List.mem_of_find?_eq_some hroot) hrun
  | none =>
      unfold parseArchive
      rw [MemoryArchive.openFile_of_find?_eq_none hroot]

/-- Two files that include each other. -/
example :
    let archive := ((MemoryArchive.mk "project" [] (by simp)).insert "a.zs"
      "#include \"b.zs\"".toUTF8.toList).insert "b.zs" "#include \"A.zs\"".toUTF8.toList
    (parseArchive archive "a.zs").failure.map Failure.cause = some (.alreadyIncluded "A.zs") := by
  decide +kernel

end ZDecl
