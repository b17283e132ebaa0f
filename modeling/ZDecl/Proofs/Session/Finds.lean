import ZDecl.Proofs.Grammar
import ZDecl.Session.Parse

/-!
# What a session finds

Items leave three things behind in a session: declarations, included paths and the last version.
Whether these were all that was found is said here of two sessions and a list of items, so that what
was found one after the other adds up.

* `Session.Finds`: between two sessions exactly what some items say was found.
* `Session.Finds.append`: what is found in two stretches of a session.
* `finds_setVersion`, `finds_record`, `finds_enter`: what one item leaves behind.
-/

namespace ZDecl

open Grammar

/-! ## Visited paths -/

/-- The keys after a visit. -/
theorem Visited.keys_insert {v : Visited} {path : String} (h : IncludePath.key path ∉ v.keys) :
    (v.insert path).keys = IncludePath.key path :: v.keys := by
  simp [insert_eq, contains, h]

/-- The listed paths after a visit. -/
theorem Visited.paths_insert {v : Visited} {path : String} (h : IncludePath.key path ∉ v.keys) :
    (v.insert path).paths = v.paths ++ [path] := by
  simp [insert_eq, contains, h]

/-- There is no objection to a path that is valid and names no visited file. -/
theorem Session.objection?_eq_none_iff {s : Session} {path : String} :
    s.objection? path = none ↔
      IncludePath.fault? path = none ∧ IncludePath.key path ∉ s.visited.keys := by
  unfold objection? Visited.contains
  cases IncludePath.fault? path with
  | some fault => simp
  | none => simp

/-! ## What is found -/

/-- Between the sessions `s` and `s'`, exactly what the items say was found. -/
structure Session.Finds (s s' : Session) (items : List Item) : Prop where
  /-- The declarations. -/
  declarations : s'.declarations = s.declarations ++ declared items
  /-- The included paths. -/
  included : s'.visited.paths = s.visited.paths ++ includedPaths items
  /-- The last version. -/
  version : s'.languageVersion = (versions items).getLast?.or s.languageVersion

variable {s s' s'' : Session}

/-- Nothing is found where nothing changes. -/
theorem finds_nil (hdeclarations : s'.declarations = s.declarations)
    (hincluded : s'.visited.paths = s.visited.paths)
    (hversion : s'.languageVersion = s.languageVersion) : s.Finds s' [] := by
  refine ⟨?_, ?_, hversion⟩
  · rw [hdeclarations]
    exact (List.append_nil _).symm
  · rw [hincluded]
    exact (List.append_nil _).symm

/-- What is found in one stretch of a session and then in another. -/
theorem Session.Finds.append {items items' : List Item} (h : s.Finds s' items)
    (h' : s'.Finds s'' items') : s.Finds s'' (items ++ items') := by
  refine ⟨?_, ?_, ?_⟩
  · rw [h'.declarations, h.declarations, declared_append, List.append_assoc]
  · rw [h'.included, h.included, includedPaths_append, List.append_assoc]
  · rw [h'.version, h.version, versions_append, List.getLast?_append, Option.or_assoc]

/-- A word that means nothing. -/
theorem finds_word (s : Session) (t : Token) : s.Finds s [.word t] :=
  ⟨(List.append_nil _).symm, (List.append_nil _).symm, rfl⟩

/-- A version directive. -/
theorem finds_setVersion (s : Session) (v : String) : s.Finds (s.setVersion v) [.version v] :=
  ⟨(List.append_nil _).symm, (List.append_nil _).symm, rfl⟩

/-- A declaration. -/
theorem finds_record (s : Session) (d : Declaration) : s.Finds (s.record d) [.declaration d] := by
  rw [Session.record_eq]
  exact ⟨rfl, (List.append_nil _).symm, rfl⟩

/-- An include directive with a path that may be included. -/
theorem finds_enter {t : Token} (h : s.objection? t.unquoted = none) :
    s.Finds (s.enter t.unquoted) [.inclusion t] :=
  ⟨(List.append_nil _).symm,
    Visited.paths_insert (Session.objection?_eq_none_iff.mp h).2, rfl⟩

end ZDecl
