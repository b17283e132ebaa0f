import ZDecl.Proofs.Grammar.Items
import ZDecl.Proofs.Session.Finds

/-!
# A file is accepted exactly if the grammar derives it

Where every include directive is accepted as it is, the outcome of a session depends on the root
file alone. It succeeds exactly if the tokens of the file are well formed, the significant ones
among them derive a file, and the included paths are valid and pairwise different.

* `Answer.Accepting`: the answers that accept an include and parse nothing.
* `Includable`: the lists of paths that may be included one after the other.
* `Session.pass`: what an item does in a session where includes are accepted as they are.
* **`root_succeeds_iff_derives`**: a session succeeds exactly on what the grammar derives, and what
  it found is what the derivation says.

Soundness and completeness are two inductions along the same recursion: an item that is read is
derived from its tokens, and tokens that derive an item are read as that item because no item starts
with a semicolon.
-/

namespace ZDecl

variable {ρ μ : Type}

/-! ## Includes that are accepted as they are -/

/-- The answers that accept an include and parse nothing. They may look at the session and remember
something. -/
inductive Answer.Accepting : Answer ρ μ → Prop where
  /-- The include succeeds. -/
  | finish (u : Unit) : Accepting (.finish (.ok u))
  /-- A look at the session. -/
  | inspect {k : Session → Answer ρ μ} (h : ∀ s, Accepting (k s)) : Accepting (.inspect k)
  /-- A look at what is remembered. -/
  | memory {k : μ → Answer ρ μ} (h : ∀ m, Accepting (k m)) : Accepting (.memory k)
  /-- Something else is remembered. -/
  | remember {m : μ} {k : Answer ρ μ} (h : Accepting k) : Accepting (.remember m k)

/-- An accepting answer leaves the session as it is. -/
theorem Answer.Accepting.perform {a : Answer ρ μ} (h : a.Accepting)
    (parseFile : ρ → SourceFile → Parse μ Unit) (s : Session) (m : μ) :
    ∃ m', a.perform parseFile (s, m) = .ok () (s, m') := by
  induction h generalizing m with
  | finish u => exact ⟨m, rfl⟩
  | inspect h ih => exact ih s m
  | memory h ih => exact ih m m
  | @remember m' k h ih => exact ih m'

/-- Are the paths valid, of pairwise different keys, and of other keys than what was visited? -/
structure Includable (v : Visited) (paths : List String) : Prop where
  /-- Every path is valid. -/
  valid : ∀ p ∈ paths, IncludePath.fault? p = none
  /-- No two paths name the same file. -/
  different : (paths.map IncludePath.key).Nodup
  /-- No path names a visited file. -/
  fresh : ∀ p ∈ paths, IncludePath.key p ∉ v.keys

/-- Nothing may always be included. -/
theorem includable_nil (v : Visited) : Includable v [] := by
  constructor <;> simp

/-- Paths may be included one after the other if the first one may and, once it is visited, the
others may. -/
theorem includable_cons {v : Visited} {path : String} {paths : List String} :
    Includable v (path :: paths) ↔
      (IncludePath.fault? path = none ∧ IncludePath.key path ∉ v.keys) ∧
        Includable (v.insert path) paths := by
  constructor
  · intro h
    have hkey : IncludePath.key path ∉ v.keys := h.fresh path List.mem_cons_self
    obtain ⟨hnew, hdiff⟩ := List.nodup_cons.mp h.different
    refine ⟨⟨h.valid path List.mem_cons_self, hkey⟩, ?_, hdiff, ?_⟩
    · intro p hp
      exact h.valid p (List.mem_cons_of_mem _ hp)
    · intro p hp
      rw [Visited.keys_insert hkey]
      intro hmem
      rcases List.mem_cons.mp hmem with heq | hmem
      · exact hnew (heq ▸ List.mem_map_of_mem hp)
      · exact h.fresh p (List.mem_cons_of_mem _ hp) hmem
  · rintro ⟨⟨hvalid, hkey⟩, h⟩
    have hfresh := h.fresh
    rw [Visited.keys_insert hkey] at hfresh
    refine ⟨?_, ?_, ?_⟩
    · intro p hp
      rcases List.mem_cons.mp hp with rfl | hp
      · exact hvalid
      · exact h.valid p hp
    · refine List.nodup_cons.mpr ⟨?_, h.different⟩
      intro hmem
      obtain ⟨p, hp, heq⟩ := List.mem_map.mp hmem
      exact hfresh p hp (heq ▸ List.mem_cons_self)
    · intro p hp
      rcases List.mem_cons.mp hp with rfl | hp
      · exact hkey
      · exact fun hmem => hfresh p hp (List.mem_cons_of_mem _ hmem)

namespace Session

/-- The session after an item whose include, if it is one, is accepted as it is. -/
def pass (s : Session) : Item → Session
  | .word _ => s
  | .inclusion path => (s.enter path.unquoted).leave
  | .version version => s.setVersion version
  | .declaration d => s.record d

variable (s : Session) (item : Item)

/-- Passing an item leaves the options alone. -/
@[simp] theorem pass_options : (s.pass item).options = s.options := by
  cases item with
  | declaration d => simp [pass, record_eq]
  | _ => rfl

/-- Passing an item leaves the file that is being read alone. -/
@[simp] theorem pass_context : (s.pass item).context = s.context := by
  cases item with
  | declaration d => simp [pass, record_eq]
  | _ => rfl

/-- Passing an item is no failure. -/
@[simp] theorem pass_failure :
    (s.pass item).diagnostics.failure = s.diagnostics.failure := by
  cases item with
  | declaration d => simp [pass, record_eq, Diagnostics.warnAll]
  | _ => rfl

end Session

namespace Parse

variable {handlers : Handlers ρ μ} {role : ρ} {parseFile : ρ → SourceFile → Parse μ Unit}

/-- Include directives as accepting handlers perform them. -/
def accepting (handlers : Handlers ρ μ) (role : ρ) (parseFile : ρ → SourceFile → Parse μ Unit) :
    Token → Parse μ Unit :=
  inclusion <| some fun path => (handlers role path).perform parseFile

/-- An item passes in a session without a failure, unless it includes a path that may not be
included. -/
theorem perform_accepting (hhandlers : ∀ role path, (handlers role path).Accepting) {s : Session}
    (hs : s.diagnostics.failure = none) (m : μ) {item : Item}
    (hitem : ∀ p ∈ Grammar.includedPaths [item], s.objection? p = none) :
    ∃ m', perform (accepting handlers role parseFile) item (s, m) = .ok () (s.pass item, m') := by
  cases item with
  | word t => exact ⟨m, rfl⟩
  | version v => exact ⟨m, rfl⟩
  | declaration d => exact ⟨m, rfl⟩
  | inclusion path =>
      have hpath : s.objection? path.unquoted = none := hitem _ (by simp [Grammar.includedPaths])
      obtain ⟨m', hm'⟩ :=
        (hhandlers role path.unquoted).perform parseFile (s.enter path.unquoted) m
      refine ⟨m', ?_⟩
      have hfailure : (s.enter path.unquoted).diagnostics.failure = none := hs
      simp only [perform, accepting, inclusion, hpath, hm', hfailure]
      rfl

/-- An item that passes includes no path that may not be included, and it passes as expected. -/
theorem eq_pass_of_perform_accepting (hhandlers : ∀ role path, (handlers role path).Accepting)
    {s s' : Session} (hs : s.diagnostics.failure = none) {m m' : μ} {item : Item}
    (h : perform (accepting handlers role parseFile) item (s, m) = .ok () (s', m')) :
    (∀ p ∈ Grammar.includedPaths [item], s.objection? p = none) ∧ s' = s.pass item := by
  have hpaths : ∀ p ∈ Grammar.includedPaths [item], s.objection? p = none := by
    cases item with
    | inclusion path =>
        intro p hp
        obtain rfl : p = path.unquoted := by simpa [Grammar.includedPaths] using hp
        cases hpath : s.objection? path.unquoted with
        | none => rfl
        | some cause =>
            simp only [perform, accepting, inclusion, hpath] at h
            cases h
    | _ => simp [Grammar.includedPaths]
  obtain ⟨m₁, hpass⟩ := perform_accepting hhandlers hs m hpaths
  rw [hpass] at h
  cases h
  exact ⟨hpaths, rfl⟩

end Parse

/-! ## What a session finds -/

open Grammar

/-- What passing an item leaves behind. -/
theorem finds_pass {s : Session} {item : Item}
    (hitem : ∀ p ∈ includedPaths [item], s.objection? p = none) : s.Finds (s.pass item) [item] := by
  cases item with
  | word t => exact finds_word s t
  | version v => exact finds_setVersion s v
  | declaration d => exact finds_record s d
  | inclusion path =>
      obtain ⟨hdeclarations, hincluded, hversion⟩ :=
        finds_enter (hitem path.unquoted (by simp [includedPaths]))
      exact ⟨hdeclarations, hincluded, hversion⟩

/-- Paths may be included one after the other if there is no objection to the first and the others
may be included once it was passed. -/
theorem includable_cons_item {s : Session} {item : Item} {items : List Item} :
    Includable s.visited (includedPaths (item :: items)) ↔
      (∀ p ∈ includedPaths [item], s.objection? p = none) ∧
        Includable (s.pass item).visited (includedPaths items) := by
  cases item with
  | inclusion path =>
      have hcons : includedPaths (.inclusion path :: items) =
        path.unquoted :: includedPaths items := rfl
      rw [hcons, includable_cons, ← Session.objection?_eq_none_iff]
      simp [includedPaths, Session.pass, Session.enter, Session.leave]
  | declaration d =>
      have hcons : includedPaths (.declaration d :: items) = includedPaths items := rfl
      rw [hcons]
      simp [includedPaths, Session.pass, Session.record_eq]
  | version v =>
      have hcons : includedPaths (.version v :: items) = includedPaths items := rfl
      rw [hcons]
      simp [includedPaths, Session.pass, Session.setVersion]
  | word t =>
      have hcons : includedPaths (.word t :: items) = includedPaths items := rfl
      rw [hcons]
      simp [includedPaths, Session.pass]

/-! ## Soundness and completeness -/

namespace Parse

variable {handlers : Handlers ρ μ} {role : ρ} {parseFile : ρ → SourceFile → Parse μ Unit}

/-- Items that are parsed to the end are derived from the tokens, and they are what was found. -/
theorem exists_derivesFile_of_items (hhandlers : ∀ role path, (handlers role path).Accepting)
    {cursor : Cursor} {s : Session} (hs : s.diagnostics.failure = none) {m : μ}
    {st : Session × μ} (h : items (accepting handlers role parseFile) cursor (s, m) = .ok () st) :
    (∀ t ∈ unskipped cursor.tokens, t.valid = true) ∧ ∃ its : List Item,
      DerivesFile s.options.strictHeader s.context.name (unskipped cursor.tokens) its ∧
        Includable s.visited (includedPaths its) ∧ s.Finds st.1 its := by
  induction hn : cursor.tokens.length using Nat.strongRecOn generalizing cursor s m with
  | ind n ih =>
      cases hread : Item.next? s.options.strictHeader s.context.name ⟨cursor, []⟩ with
      | error f r =>
          rw [items_of_error hread] at h
          cases h
      | ok item? r =>
          cases item? with
          | none =>
              rw [items_of_none hread] at h
              cases h
              have hpending : unskipped cursor.tokens = [] := next?_eq_none_iff.mp ⟨r, hread⟩
              rw [hpending]
              exact ⟨by simp, [], .nil, includable_nil _, finds_nil rfl rfl rfl⟩
          | some item =>
              obtain ⟨used, hused, hvalid, hitem⟩ := exists_derives_of_next? hread
              rw [items_of_some hread] at h
              obtain ⟨_, ⟨s', m'⟩, hperform, h⟩ := bind_eq_ok_iff.mp h
              have hadvance : (s.advance r).diagnostics.failure = none := hs
              obtain ⟨hpaths, rfl⟩ := eq_pass_of_perform_accepting hhandlers hadvance hperform
              have hlength : r.cursor.tokens.length < n := hn ▸ Item.length_lt_of_next? hread
              obtain ⟨hrest, its, hits, hincludable, hfinds⟩ :=
                ih _ hlength (by simpa using hadvance) h rfl
              rw [Session.pass_options, Session.pass_context] at hits
              have hpending : unskipped cursor.tokens = used ++ unskipped r.cursor.tokens := hused
              rw [hpending]
              refine ⟨?_, item :: its, .cons hitem hits, ?_, ?_⟩
              · intro t ht
                rcases List.mem_append.mp ht with ht | ht
                · exact hvalid t ht
                · exact hrest t ht
              · have hv : (s.advance r).visited = s.visited := rfl
                rw [← hv]
                exact includable_cons_item.mpr ⟨hpaths, hincludable⟩
              · obtain ⟨hdeclarations, hincluded, hversion⟩ := (finds_pass hpaths).append hfinds
                exact ⟨hdeclarations, hincluded, hversion⟩

/-- Well-formed tokens from which items are derived are parsed as these items to the end. -/
theorem exists_items_of_derivesFile (hhandlers : ∀ role path, (handlers role path).Accepting)
    {cursor : Cursor} {s : Session} (hs : s.diagnostics.failure = none) (m : μ)
    (hvalid : ∀ t ∈ unskipped cursor.tokens, t.valid = true) {its : List Item}
    (hits : DerivesFile s.options.strictHeader s.context.name (unskipped cursor.tokens) its)
    (hincludable : Includable s.visited (includedPaths its)) :
    ∃ st, items (accepting handlers role parseFile) cursor (s, m) = .ok () st ∧
      st.1.diagnostics.failure = none := by
  induction its generalizing cursor s m with
  | nil =>
      have hend : (Scan.State.mk cursor []).pending = [] := by
        generalize htokens : unskipped cursor.tokens = tokens at hits
        cases hits
        exact htokens
      obtain ⟨r, hread⟩ := next?_eq_none_iff.mpr hend
      exact ⟨_, items_of_none hread, hs⟩
  | cons item its ih =>
      generalize htokens : unskipped cursor.tokens = tokens at hits hvalid
      cases hits with
      | @cons used rest _ _ hitem hrest =>
          have hnext := startsWith_semicolon_of_derivesFile hrest
          obtain ⟨r, hread, hr⟩ := exists_next?_of_derives (s := ⟨cursor, []⟩) hitem htokens
            (fun t ht => hvalid t (List.mem_append_left _ ht)) hnext
          have hadvance : (s.advance r).diagnostics.failure = none := hs
          obtain ⟨hpaths, hincludable⟩ := (includable_cons_item (s := s.advance r)).mp hincludable
          obtain ⟨m', hperform⟩ := perform_accepting hhandlers hadvance m hpaths
          rw [items_of_some hread]
          have hpending : unskipped r.cursor.tokens = rest := hr
          have hpass : ((s.advance r).pass item).diagnostics.failure = none := by
            simpa using hadvance
          obtain ⟨st, hst, hfailure⟩ := ih hpass m'
            (fun t ht => hvalid t (List.mem_append_right _ (hpending ▸ ht)))
            (by rw [hpending, Session.pass_options, Session.pass_context]; exact hrest) hincludable
          exact ⟨st, bind_eq_ok_iff.mpr ⟨(), _, hperform, hst⟩, hfailure⟩

/-- With accepting handlers a root file is parsed as the items from its start. -/
theorem file_reset_eq {s : Session} (hdepth : 1 ≤ s.options.maxIncludeDepth) (m : μ)
    (source : SourceFile) :
    file handlers role source (s.reset, m) =
      items (accepting handlers role (fileAt handlers (s.options.maxIncludeDepth - 1)))
        (Cursor.ofBytes source.contents) (s.reset.resume (Context.ofFile source), m) := by
  obtain ⟨n, hn⟩ := Nat.exists_eq_add_of_le' hdepth
  have hlevels : s.reset.options.maxIncludeDepth - s.reset.depth = n + 1 := hn
  show fileAt handlers (s.reset.options.maxIncludeDepth - s.reset.depth) role source _ = _
  rw [hlevels, hn, Nat.add_sub_cancel]
  rfl

end Parse

/-- The items of a file that the grammar derives from the significant tokens of `source`, all
tokens being well formed and the included paths valid and pairwise different. -/
structure Grammar.Accepts (strict : Bool) (source : SourceFile) (its : List Item) : Prop where
  /-- No token is ill-formed, white space and comments included. -/
  wellFormed : ∀ t ∈ (Cursor.ofBytes source.contents).tokens, t.valid = true
  /-- The tokens that are no white space and no comment derive the items. -/
  derives : DerivesFile strict source.name
    ((Cursor.ofBytes source.contents).tokens.filter fun t => !t.isTrivia) its
  /-- The included paths break no rule. -/
  paths : ∀ path ∈ includedPaths its, IncludePath.fault? path = none
  /-- No file is included twice. -/
  different : ((includedPaths its).map IncludePath.key).Nodup

/-- What the grammar accepts, in terms of what readers do not pass over and of a session that has
read nothing. -/
theorem Grammar.accepts_iff {strict : Bool} {source : SourceFile} {its : List Item} :
    Grammar.Accepts strict source its ↔
      (∀ t ∈ unskipped (Cursor.ofBytes source.contents).tokens, t.valid = true) ∧
        DerivesFile strict source.name (unskipped (Cursor.ofBytes source.contents).tokens) its ∧
          Includable {} (includedPaths its) := by
  constructor
  · intro h
    rw [unskipped_of_valid h.wellFormed]
    refine ⟨?_, h.derives, h.paths, h.different, by simp⟩
    intro t ht
    exact h.wellFormed t (List.mem_filter.mp ht).1
  · rintro ⟨hvalid, hderives, hincludable⟩
    have hall := valid_of_unskipped hvalid
    rw [unskipped_of_valid hall] at hderives
    exact ⟨hall, hderives, hincludable.valid, hincludable.different⟩

/-- **A session succeeds exactly on what the grammar derives**, whatever session came before, if
includes are accepted as they are and at least one may be nested. What it finds then is what the
derivation says: the declarations, the included paths and the last version, in order. -/
theorem root_succeeds_iff_derives (handlers : Handlers ρ μ)
    (hhandlers : ∀ role path, (handlers role path).Accepting) (role : ρ) (source : SourceFile)
    (s : Session) (hdepth : 1 ≤ s.options.maxIncludeDepth) (m : μ) :
    ((∃ st, Parse.root handlers role source (s, m) = .ok () st) ↔
      ∃ its, Grammar.Accepts s.options.strictHeader source its) ∧
    ∀ st, Parse.root handlers role source (s, m) = .ok () st →
      ∃ its, Grammar.Accepts s.options.strictHeader source its ∧
        st.1.declarations = declared its ∧ st.1.visited.paths = includedPaths its ∧
          st.1.languageVersion = (versions its).getLast? := by
  have hfile : Parse.file handlers role source (s.reset, m) = _ :=
    Parse.file_reset_eq hdepth m source
  have hsound : ∀ st, Parse.root handlers role source (s, m) = .ok () st →
      ∃ its, Grammar.Accepts s.options.strictHeader source its ∧
        (s.reset.resume (Context.ofFile source)).Finds st.1 its := by
    intro st h
    have hitems := (Parse.start_eq_ok_iff.mp h).1
    rw [hfile] at hitems
    obtain ⟨hvalid, its, hderives, hincludable, hfinds⟩ :=
      Parse.exists_derivesFile_of_items hhandlers rfl hitems
    exact ⟨its, Grammar.accepts_iff.mpr ⟨hvalid, hderives, hincludable⟩, hfinds⟩
  refine ⟨⟨?_, ?_⟩, ?_⟩
  · rintro ⟨st, h⟩
    obtain ⟨its, hits, -⟩ := hsound st h
    exact ⟨its, hits⟩
  · rintro ⟨its, hits⟩
    obtain ⟨hvalid, hderives, hincludable⟩ := Grammar.accepts_iff.mp hits
    obtain ⟨st, hitems, hfailure⟩ := Parse.exists_items_of_derivesFile hhandlers
      (s := s.reset.resume (Context.ofFile source)) rfl m hvalid hderives hincludable
    rw [← hfile] at hitems
    exact ⟨st, Parse.start_eq_ok_iff.mpr ⟨hitems, hfailure⟩⟩
  · intro st h
    obtain ⟨its, hits, hdeclarations, hincluded, hversion⟩ := hsound st h
    exact ⟨its, hits, hdeclarations, hincluded, hversion.trans Option.or_none⟩

/-- A file with an include directive and a class, which are accepted and thus derived. -/
theorem root_succeeds_on_include_and_class :
    let source : SourceFile := {
      name := "main.zs", contents := "#include \"a.zs\" class A : B \x7b \x7d".toUTF8.toList }
    let handlers : Handlers Unit Unit := fun _ _ => .finish (.ok ())
    (∀ role path, (handlers role path).Accepting) ∧ 1 ≤ (Session.new).options.maxIncludeDepth ∧
      ∃ its, Grammar.Accepts false source its := by
  intro source handlers
  have hhandlers : ∀ role path, (handlers role path).Accepting := fun _ _ => .finish ()
  have hdepth : 1 ≤ (Session.new).options.maxIncludeDepth := by decide
  refine ⟨hhandlers, hdepth, ?_⟩
  refine (root_succeeds_iff_derives handlers hhandlers () source Session.new hdepth ()).1.mp ?_
  have hok : (match Parse.root handlers () source (Session.new, ()) with
      | .ok _ _ => true
      | .error _ _ => false) = true := by decide +kernel
  cases h : Parse.root handlers () source (Session.new, ()) with
  | ok u st => exact ⟨st, rfl⟩
  | error f st =>
      rw [h] at hok
      cases hok

end ZDecl
