import ZDecl.Proofs.Grammar.Acceptance
import ZDecl.Proofs.Scan.Locality
import ZDecl.Proofs.Session.Layout

/-!
# Acceptable tokens

Whether a file is accepted, where includes are accepted as they are, depends on its significant
tokens alone. So it makes sense to ask whether a list of tokens could be those of an accepted file,
even if it is only a part of them.

* **`Grammar.Acceptable`**: tokens that may be the significant tokens of a file.
* `acceptable_iff_of_next?`: acceptable tokens item by item.
* `Parse.root_ok_iff`: a root file succeeds exactly if its significant tokens are acceptable.
* `Acceptable.alike`: tokens that read like acceptable ones are acceptable.
-/

namespace ZDecl

open Grammar

variable {ρ μ : Type}

/-! ## Tokens that a file may have -/

namespace Grammar

variable {strict : Bool} {source : String} {v : Visited} {tokens : List Token}

/-- The name of the file does not matter to what an item includes. -/
theorem Derives.exists_rename {used : List Token} {item : Item}
    (h : Derives strict source used item) (source' : String) :
    ∃ item', Derives strict source' used item' ∧ includedPaths [item'] = includedPaths [item] := by
  cases h with
  | inclusion hhash hword hpath => exact ⟨_, .inclusion hhash hword hpath, rfl⟩
  | version hword htext htail => exact ⟨_, .version hword htext htail, rfl⟩
  | constant hword hname hsign hvalue hsemicolon =>
      exact ⟨_, .constant hword hname hsign hvalue hsemicolon, rfl⟩
  | enumeration hword hname hblock => exact ⟨_, .enumeration hword hname hblock, rfl⟩
  | type hword hheader hblock => exact ⟨_, .type hword hheader hblock, rfl⟩
  | word hkind hother => exact ⟨_, .word hkind hother, rfl⟩

/-- Derived items are derived under another name, with the same inclusions. -/
theorem DerivesFile.exists_rename {items : List Item} (h : DerivesFile strict source tokens items)
    (source' : String) : ∃ items', DerivesFile strict source' tokens items' ∧
      includedPaths items' = includedPaths items := by
  induction h with
  | nil => exact ⟨[], .nil, rfl⟩
  | @cons used rest item items hitem _ ih =>
      obtain ⟨item', hitem', hpath⟩ := hitem.exists_rename source'
      obtain ⟨items', hrest', hpaths⟩ := ih
      refine ⟨item' :: items', .cons hitem' hrest', ?_⟩
      rw [← List.singleton_append, includedPaths_append, hpath, hpaths, ← includedPaths_append]
      rfl

/-- May these be the significant tokens of a file, where the paths in `v` were visited? -/
structure Acceptable (strict : Bool) (v : Visited) (tokens : List Token) : Prop where
  /-- They are well formed. -/
  valid : ∀ t ∈ tokens, t.valid = true
  /-- They are no white space and no comments. -/
  significant : ∀ t ∈ tokens, t.isTrivia = false
  /-- Whatever the name of the file, items are derived from them whose paths may be included. -/
  derives : ∀ source, ∃ items, DerivesFile strict source tokens items ∧
    Includable v (includedPaths items)

/-- Well-formed significant tokens are acceptable if items are derived from them. -/
theorem acceptable_of_derivesFile {items : List Item}
    (hvalid : ∀ t ∈ tokens, t.valid = true) (hskipped : ∀ t ∈ tokens, t.isSkipped = false)
    (hderives : DerivesFile strict source tokens items)
    (hincludable : Includable v (includedPaths items)) : Acceptable strict v tokens where
  valid := hvalid
  significant t ht := by
    have hno := hskipped t ht
    rwa [Token.isSkipped, hvalid t ht, Bool.and_true] at hno
  derives source' := by
    obtain ⟨items', hderives', hpaths⟩ := hderives.exists_rename source'
    exact ⟨items', hderives', hpaths ▸ hincludable⟩

/-- An empty file is acceptable. -/
theorem acceptable_nil (strict : Bool) (v : Visited) : Acceptable strict v [] := by
  have hnil : DerivesFile strict "" [] [] := .nil
  exact acceptable_of_derivesFile (by simp) (by simp) hnil (includable_nil v)

/-- Acceptable tokens are significant. -/
theorem Acceptable.isSkipped (h : Acceptable strict v tokens) :
    ∀ t ∈ tokens, t.isSkipped = false := by
  intro t ht
  rw [Token.isSkipped, h.significant t ht, Bool.false_and]

/-- An acceptable file starts with no semicolon. -/
theorem Acceptable.noSemicolon (h : Acceptable strict v tokens) : Item.NoSemicolon tokens := by
  obtain ⟨items, hderives, -⟩ := h.derives ""
  exact startsWith_semicolon_of_derivesFile hderives

section Item

variable {s : Session} {st st' : Scan.State} {item : Item}

/-- Where tokens are acceptable, an item is read. There is no objection to what it includes, and
what is left is acceptable after it. -/
theorem Acceptable.exists_next? (h : Acceptable strict s.visited st.pending)
    (hsome : st.pending ≠ []) (source : String) :
    ∃ item st', Item.next? strict source st = .ok (some item) st' ∧
      (∀ p ∈ includedPaths [item], s.objection? p = none) ∧
        Acceptable strict (s.pass item).visited st'.pending := by
  obtain ⟨items, hderives, hincludable⟩ := h.derives source
  generalize hpending : st.pending = tokens at hderives
  cases hderives with
  | nil => exact absurd hpending hsome
  | @cons used rest item items hitem hrest =>
      have hvalid := hpending ▸ h.valid
      obtain ⟨st', hread, rfl⟩ := exists_next?_of_derives hitem hpending
        (fun t ht => hvalid t (List.mem_append_left _ ht))
        (startsWith_semicolon_of_derivesFile hrest)
      obtain ⟨hpaths, hlater⟩ := includable_cons_item.mp hincludable
      refine ⟨item, st', hread, hpaths, acceptable_of_derivesFile ?_ ?_ hrest hlater⟩
      · exact fun t ht => hvalid t (List.mem_append_right _ ht)
      · exact fun t ht => st'.isSkipped_of_mem_pending ht

/-- **Tokens are acceptable** if there is no objection to what their first item includes, and if
those behind it are acceptable after it. -/
theorem acceptable_iff_of_next? (hread : Item.next? strict source st = .ok (some item) st') :
    Acceptable strict s.visited st.pending ↔
      (∀ p ∈ includedPaths [item], s.objection? p = none) ∧
        Acceptable strict (s.pass item).visited st'.pending := by
  obtain ⟨used, hused, hvalid, hitem⟩ := exists_derives_of_next? hread
  constructor
  · intro h
    have hsome : st.pending ≠ [] := by
      obtain ⟨t, more, rfl, -⟩ := exists_cons_of_derives hitem
      simp [hused]
    obtain ⟨item', st'', hread', hafter⟩ := h.exists_next? hsome source
    cases hread.symm.trans hread'
    exact hafter
  · rintro ⟨hpaths, hrest⟩
    obtain ⟨items, hderives, hincludable⟩ := hrest.derives source
    have hskipped : ∀ t ∈ st.pending, t.isSkipped = false :=
      fun t ht => st.isSkipped_of_mem_pending ht
    rw [hused] at hskipped ⊢
    exact acceptable_of_derivesFile (List.forall_mem_append.mpr ⟨hvalid, hrest.valid⟩) hskipped
      (.cons hitem hderives) (includable_cons_item.mpr ⟨hpaths, hincludable⟩)

end Item

end Grammar

/-! ## Files that succeed -/

namespace Parse

variable {handlers : Handlers ρ μ} {role : ρ} {parseFile : ρ → SourceFile → Parse μ Unit}

/-- Items that succeed are acceptable, if includes are accepted as they are. -/
theorem acceptable_of_items (hhandlers : ∀ role path, (handlers role path).Accepting)
    {cursor : Cursor} {s : Session} (hs : s.diagnostics.failure = none) {m : μ} {st : Session × μ}
    (h : items (accepting handlers role parseFile) cursor (s, m) = .ok () st) :
    Acceptable s.options.strictHeader s.visited (unskipped cursor.tokens) := by
  obtain ⟨hvalid, items, hderives, hincludable, -⟩ := exists_derivesFile_of_items hhandlers hs h
  exact acceptable_of_derivesFile hvalid
    (fun t ht => Scan.State.isSkipped_of_mem_pending (s := ⟨cursor, []⟩) ht) hderives hincludable

/-- Acceptable tokens succeed, and no failure is known then. -/
theorem exists_items_of_acceptable (hhandlers : ∀ role path, (handlers role path).Accepting)
    {cursor : Cursor} {s : Session} (hs : s.diagnostics.failure = none)
    (h : Acceptable s.options.strictHeader s.visited (unskipped cursor.tokens)) (m : μ) :
    ∃ st, items (accepting handlers role parseFile) cursor (s, m) = .ok () st ∧
      st.1.diagnostics.failure = none := by
  obtain ⟨items, hderives, hincludable⟩ := h.derives s.context.name
  exact exists_items_of_derivesFile hhandlers hs m h.valid hderives hincludable

section Root

variable (hhandlers : ∀ role path, (handlers role path).Accepting) {file : SourceFile}
  {s : Session} (hdepth : 1 ≤ s.options.maxIncludeDepth) {m : μ}

include hhandlers hdepth

/-- A root file succeeds exactly if its significant tokens are acceptable. -/
theorem root_ok_iff : (∃ st, root handlers role file (s, m) = .ok () st) ↔
    Acceptable s.options.strictHeader {} (unskipped (Cursor.ofBytes file.contents).tokens) := by
  have hfile : Parse.file handlers role file (s.reset, m) = _ := file_reset_eq hdepth m file
  constructor
  · rintro ⟨st, h⟩
    have hitems := (start_eq_ok_iff.mp h).1
    rw [hfile] at hitems
    exact acceptable_of_items hhandlers rfl hitems
  · intro h
    obtain ⟨st, hitems, hnone⟩ := exists_items_of_acceptable hhandlers
      (s := s.reset.resume (Context.ofFile file)) rfl h m
    exact ⟨st, start_eq_ok_iff.mpr ⟨hfile.trans hitems, hnone⟩⟩

end Root

end Parse

/-! ## Tokens that read the same -/

section Alike

variable {R : Token → Token → Prop} {strict : Bool} {v : Visited} {tokens tokens' : List Token}

/-- **Tokens that read like acceptable ones are acceptable.** -/
theorem Grammar.Acceptable.alike (hR : Likeness R) (h : Acceptable strict v tokens)
    (halike : List.Forall₂ R tokens tokens') : Acceptable strict v tokens' := by
  -- Both are read in the same session, with includes that succeed at once.
  let s : Session := { Session.new { strictHeader := strict } with visited := v }
  let handlers : Handlers Unit Unit := fun _ _ => .finish (.ok ())
  let parseFile : Unit → SourceFile → Parse Unit Unit := fun _ _ => pure ()
  have hhandlers : ∀ role path, (handlers role path).Accepting := fun _ _ => .finish ()
  have hinclude : ∀ t u, R t u → Parse.Alike R (Parse.accepting handlers () parseFile t)
      (Parse.accepting handlers () parseFile u) := by
    intro t u htu
    refine Parse.alike_inclusion hR (fun answer hanswer path => ?_) htu
    obtain rfl := Option.some.inj hanswer
    exact fun _ _ _ hs => .ok hs
  have hsession : s.Alike R s :=
    { Session.alike_new { strictHeader := strict } with visited := rfl }
  let cursor := (Scan.State.ofTokens tokens).cursor
  let cursor' := (Scan.State.ofTokens tokens').cursor
  have htokens : unskipped cursor.tokens = tokens := Scan.State.pending_ofTokens h.isSkipped
  have htokens' : unskipped cursor'.tokens = tokens' :=
    Scan.State.pending_ofTokens (hR.forall_isSkipped halike h.isSkipped)
  rw [← htokens] at h halike
  rw [← htokens'] at halike ⊢
  obtain ⟨st, hok, -⟩ : ∃ st, Parse.items (Parse.accepting handlers () parseFile) cursor (s, ()) =
      .ok () st ∧ _ := Parse.exists_items_of_acceptable hhandlers rfl h ()
  have hsame := Parse.alike_items hR hinclude halike s s () hsession
  rw [hok] at hsame
  generalize hout : Parse.items (Parse.accepting handlers () parseFile) cursor' (s, ()) = out
    at hsame
  cases hsame with
  | ok _ => exact Parse.acceptable_of_items hhandlers (s := s) rfl hout

end Alike

end ZDecl
