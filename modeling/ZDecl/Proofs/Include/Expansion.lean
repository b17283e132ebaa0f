import ZDecl.Archive.Memory
import ZDecl.Proofs.Grammar.Items
import ZDecl.Proofs.Include.Opening
import ZDecl.Proofs.Session.FirstFailure
import ZDecl.Proofs.Session.Steps

/-!
# Including a file is substitution

The files of an archive include each other. Expanding a file means to walk through its items in
order and to put, in the place of every include directive, the expansion of the file that it names.
No session is needed for that: neither a file that is set aside while another one is read, nor a
list of what was visited.

* `Expansion`: the expansion of a file as a tree, each of whose inner nodes is an include directive.
* `Expansion.items`, `Expansion.warnings`: the tree read from left to right, as items and as
  warnings.
* **`Expands`**: the tree of a file of an archive, item by item; `Expands.unique`: there is at most
  one.
* `Expands.standsIn`: every declaration stands in the file that it names as its source.
* `Runs.expanded`: a run over an archive that succeeds has found what the expansion says.
* **`parseArchive_eq_expansion`**: a report without a failure is the report on the expansion.

A run is followed rule by rule. The invariant `Expansion.Describes` says of a stretch of a session
what was found and warned of in it, and nothing of what came before, so that the stretches before
an include directive, inside of it and behind it add up.
-/

namespace ZDecl

open Grammar

/-! ## Expansions -/

/-- The expansion of a file from some place on. -/
inductive Expansion where
  /-- The end of the file, and the warnings of the reader there. -/
  | done (warnings : List String)
  /-- An item that is no include directive, what its reader warned of, and the rest of the file. -/
  | item (warnings : List String) (item : Item) (rest : Expansion)
  /-- An include directive, what its reader warned of, the included file, its expansion, and the
  rest of the including file. -/
  | inclusion (warnings : List String) (path : Token) (entry : StoredFile) (inner rest : Expansion)

/-- What a declaration is logged as among the warnings, if declarations are reported. -/
def Item.logged (report : Bool) : Item → List String
  | .declaration d => if report then [d.summary] else []
  | _ => []

namespace Expansion

/-- All items in order, an include directive before those of the included file. -/
def items : Expansion → List Item
  | done _ => []
  | item _ i rest => i :: rest.items
  | inclusion _ path _ inner rest => .inclusion path :: (inner.items ++ rest.items)

/-- The include directives in order. -/
def directives : Expansion → List Token
  | done _ => []
  | item _ _ rest => rest.directives
  | inclusion _ path _ inner rest => path :: (inner.directives ++ rest.directives)

/-- The included files in order. -/
def entries : Expansion → List StoredFile
  | done _ => []
  | item _ _ rest => rest.entries
  | inclusion _ _ entry inner rest => entry :: (inner.entries ++ rest.entries)

/-- All warnings in order. -/
def warnings (report : Bool) : Expansion → List String
  | done ws => ws
  | item ws i rest => ws ++ (i.logged report ++ rest.warnings report)
  | inclusion ws _ _ inner rest => ws ++ (inner.warnings report ++ rest.warnings report)

/-- How deep includes are nested. -/
def height : Expansion → Nat
  | done _ => 0
  | item _ _ rest => rest.height
  | inclusion _ _ _ inner rest => max (inner.height + 1) rest.height

/-- The report on an expansion. -/
def report (e : Expansion) (report : Bool) : Report where
  warnings := e.warnings report
  declarations := declared e.items
  languageVersion := (versions e.items).getLast?
  included := includedPaths e.items

end Expansion

/-- What a reader warned of in the file `name`. -/
def Scan.State.warnings (r : Scan.State) (name : String) : List String :=
  r.strays.map fun stray => stray.warning name

/-- **The expansion of a file of an archive**, from a cursor in the file `name` on. -/
inductive Expands (archive : MemoryArchive) (strict : Bool) :
    String → Cursor → Expansion → Prop where
  /-- The file ends. -/
  | done {name : String} {cursor : Cursor} {r : Scan.State}
      (hread : Item.next? strict name ⟨cursor, []⟩ = .ok none r) :
      Expands archive strict name cursor (.done (r.warnings name))
  /-- An item that is no include directive stays as it is. -/
  | item {name : String} {cursor : Cursor} {r : Scan.State} {item : Item} {rest : Expansion}
      (hread : Item.next? strict name ⟨cursor, []⟩ = .ok (some item) r)
      (hitem : ∀ path, item ≠ .inclusion path)
      (hrest : Expands archive strict name r.cursor rest) :
      Expands archive strict name cursor (.item (r.warnings name) item rest)
  /-- An include directive is replaced by the expansion of the file that it names. -/
  | inclusion {name : String} {cursor : Cursor} {r : Scan.State} {path : Token}
      {entry : StoredFile} {inner rest : Expansion}
      (hread : Item.next? strict name ⟨cursor, []⟩ = .ok (some (.inclusion path)) r)
      (hentry : archive.find? path.unquoted = some entry)
      (hinner : Expands archive strict entry.path (Cursor.ofBytes entry.contents) inner)
      (hrest : Expands archive strict name r.cursor rest) :
      Expands archive strict name cursor (.inclusion (r.warnings name) path entry inner rest)

variable {archive : MemoryArchive} {strict : Bool}

/-- A file has at most one expansion. -/
theorem Expands.unique {name : String} {cursor : Cursor} {e e' : Expansion}
    (h : Expands archive strict name cursor e) (h' : Expands archive strict name cursor e') :
    e' = e := by
  induction h generalizing e' with
  | done hread =>
      cases h' with
      | done hread' => cases hread.symm.trans hread'; rfl
      | item hread' _ _ => cases hread.symm.trans hread'
      | inclusion hread' _ _ _ => cases hread.symm.trans hread'
  | item hread hitem _ ih =>
      cases h' with
      | done hread' => cases hread.symm.trans hread'
      | item hread' _ hrest' =>
          cases hread.symm.trans hread'
          rw [ih hrest']
      | inclusion hread' _ _ _ =>
          cases hread.symm.trans hread'
          exact absurd rfl (hitem _)
  | inclusion hread hentry _ _ ihinner ihrest =>
      cases h' with
      | done hread' => cases hread.symm.trans hread'
      | item hread' hitem' _ =>
          cases hread.symm.trans hread'
          exact absurd rfl (hitem' _)
      | inclusion hread' hentry' hinner' hrest' =>
          cases hread.symm.trans hread'
          cases hentry.symm.trans hentry'
          rw [ihinner hinner', ihrest hrest']

/-! ## What an expansion says of a session -/

/-- An item that is no include directive leaves behind what it says. -/
theorem finds_of_plain? {s s' : Session} {item : Item} (h : s.plain? item = some s') :
    s.Finds s' [item] := by
  cases item with
  | inclusion t => cases h
  | word t =>
      cases h
      exact finds_word s t
  | version v =>
      cases h
      exact finds_setVersion s v
  | declaration d =>
      cases h
      exact finds_record s d

/-- An item that is no include directive warns only by being logged. -/
theorem warnings_of_plain? {s s' : Session} {item : Item} (h : s.plain? item = some s') :
    s'.diagnostics.warnings =
      s.diagnostics.warnings ++ item.logged s.options.reportDeclarations := by
  cases item with
  | inclusion t => cases h
  | word t =>
      cases h
      exact (List.append_nil _).symm
  | version v =>
      cases h
      exact (List.append_nil _).symm
  | declaration d =>
      cases h
      rw [Session.record_eq]
      rfl

/-- What the expansion `e` says of a stretch of a session over an archive, from `s` to `s'`. -/
structure Expansion.Describes (archive : MemoryArchive) (e : Expansion) (s : Session)
    (history : List Moment) (s' : Session) : Prop where
  /-- What was found. -/
  finds : s.Finds s' e.items
  /-- What was warned of. -/
  warnings : s'.diagnostics.warnings =
    s.diagnostics.warnings ++ e.warnings s.options.reportDeclarations
  /-- Includes were nested as deep as allowed at most. -/
  height : e.height ≤ s.levels
  /-- The include directives. -/
  directives : reached history = e.directives
  /-- The files that were parsed. -/
  openings : openings history = e.entries.map archive.source

namespace Expansion

/-- What a stretch that starts with another file being read says is the same. -/
theorem Describes.of_resume {e : Expansion} {s s' : Session} {c : Context}
    {history : List Moment} (h : e.Describes archive (s.resume c) history s') :
    e.Describes archive s history s' where
  finds := ⟨h.finds.declarations, h.finds.included, h.finds.version⟩
  warnings := h.warnings
  height := h.height
  directives := h.directives
  openings := h.openings

/-- The end of a file. -/
theorem describes_done (s : Session) (r : Scan.State) :
    (done (r.warnings s.context.name)).Describes archive s [⟨.read, s.advance r⟩]
      (s.advance r) where
  finds := finds_nil rfl rfl rfl
  warnings := rfl
  height := Nat.zero_le _
  directives := rfl
  openings := rfl

/-- An item that is no include directive before the rest of a file. -/
theorem Describes.item {s s₁ s' : Session} {r : Scan.State} {i : Item} {rest : Expansion}
    {later : List Moment} (hitem : (s.advance r).plain? i = some s₁)
    (hrest : rest.Describes archive s₁ later s') :
    (item (r.warnings s.context.name) i rest).Describes archive s
      (⟨.read, s.advance r⟩ :: ([⟨.performed i, s₁⟩] ++ later)) s' := by
  obtain ⟨hdepth, hoptions⟩ := Session.depth_options_of_plain? hitem
  have hfinds : s.Finds (s.advance r) [] := finds_nil rfl rfl rfl
  have hwarnings : (s.advance r).diagnostics.warnings =
      s.diagnostics.warnings ++ r.warnings s.context.name := rfl
  refine ⟨(hfinds.append (finds_of_plain? hitem)).append hrest.finds, ?_, ?_, hrest.directives,
    hrest.openings⟩
  · rw [hrest.warnings, warnings_of_plain? hitem, hwarnings, hoptions, Expansion.warnings]
    simp [Session.advance]
  · have hheight := hrest.height
    rw [Session.levels, hdepth, hoptions] at hheight
    exact hheight

/-- An include directive and what it is replaced by, before the rest of a file. -/
theorem Describes.inclusion {s s₁ s' : Session} {r : Scan.State} {t : Token} {entry : StoredFile}
    {inner rest : Expansion} {x : Moment} {history later : List Moment}
    (hcause : (s.advance r).rejection? t.unquoted = none)
    (hx : x.event = .opened (archive.source entry))
    (hinner : inner.Describes archive ((s.advance r).enter t.unquoted) history s₁)
    (hdepth : s₁.depth = s.depth + 1) (hoptions : s₁.options = s.options)
    (hrest : rest.Describes archive (s₁.leave.resume (s.advance r).context) later s') :
    (inclusion (r.warnings s.context.name) t entry inner rest).Describes archive s
      (⟨.read, s.advance r⟩ :: ((⟨.reached t none, s.advance r⟩ ::
        ⟨.entered t.unquoted, (s.advance r).enter t.unquoted⟩ :: ((x :: history) ++
          [⟨.left, s₁.leave.resume (s.advance r).context⟩])) ++ later)) s' := by
  have hfinds : s.Finds (s.advance r) [] := finds_nil rfl rfl rfl
  have henter := finds_enter (Session.objection?_of_rejection? hcause)
  have hleave : s₁.Finds (s₁.leave.resume (s.advance r).context) [] := finds_nil rfl rfl rfl
  have hhistory : ∀ a b c d : Moment,
      a :: ((b :: c :: ((x :: history) ++ [d])) ++ later) =
        [a, b, c, x] ++ (history ++ ([d] ++ later)) := by simp
  refine ⟨?_, ?_, ?_, ?_, ?_⟩
  · have h := (((hfinds.append henter).append hinner.finds).append hleave).append hrest.finds
    simpa [Expansion.items] using h
  · have hbefore : ((s.advance r).enter t.unquoted).diagnostics.warnings =
        s.diagnostics.warnings ++ r.warnings s.context.name := rfl
    have hbehind : s'.diagnostics.warnings =
        s₁.diagnostics.warnings ++ rest.warnings s₁.options.reportDeclarations := hrest.warnings
    rw [hbehind, hinner.warnings, hbefore, hoptions, Expansion.warnings]
    simp [Session.enter, Session.advance]
  · have hlevels := hinner.height
    have hbehind := hrest.height
    have hbelow := Session.depth_lt_of_rejection? hcause
    simp only [Session.levels, Session.enter, Session.advance, Session.leave, Session.resume,
      hdepth, hoptions] at hlevels hbehind hbelow ⊢
    simp only [Expansion.height]
    omega
  · rw [hhistory]
    simp only [reached_append, hinner.directives, hrest.directives, Expansion.directives]
    simp [reached, hx]
  · rw [hhistory]
    simp only [openings_append, hinner.openings, hrest.openings, Expansion.entries]
    simp [ZDecl.openings, hx]

end Expansion

/-! ## Runs over an archive -/

/-- The handlers of a session over an archive. -/
abbrev MemoryArchive.handlers (archive : MemoryArchive) : Handlers Unit Unit :=
  fun _ path => .fromArchive archive () path

section FromArchive

variable {path : String}

/-- The answer from an archive parses the file that is found, and does nothing more. -/
theorem fromArchive_of_find? {entry : StoredFile} (h : archive.find? path = some entry) :
    (Answer.fromArchive archive () path : Answer Unit Unit) =
      .parse () (archive.source entry) .finish := by
  simp only [Answer.fromArchive, MemoryArchive.openFile_of_find? h]

/-- The answer from an archive refuses an include if no file is found. -/
theorem fromArchive_of_find?_eq_none (h : archive.find? path = none) :
    (Answer.fromArchive archive () path : Answer Unit Unit) =
      .finish (.error { cause := .cannotInclude path (.notFound path), span := Span.unknown }) := by
  simp only [Answer.fromArchive, MemoryArchive.openFile_of_find?_eq_none h]

/-- The answer from an archive parses only. -/
theorem parsesOnly_fromArchive (archive : MemoryArchive) (path : String) :
    (Answer.fromArchive archive () path : Answer Unit Unit).ParsesOnly :=
  Archive.parsesOnly_handlers archive () path

/-- An answer from an archive reads nothing by itself. -/
theorem not_scans_fromArchive {β : Type} {s : Session} {p : Scan β}
    {k : Except Failure β → Answer Unit Unit} :
    ¬ (Answer.fromArchive archive () path : Answer Unit Unit).Scans s p k :=
  (parsesOnly_fromArchive archive path).not_scans

/-- An answer from an archive that parses a file parses the one that the archive finds, and passes
its result on. -/
theorem parse_eq_fromArchive {source : SourceFile} {k : Except Failure Unit → Answer Unit Unit}
    (ha : .parse () source k = Answer.fromArchive archive () path) :
    ∃ entry, archive.find? path = some entry ∧ source = archive.source entry ∧ k = .finish := by
  cases h : archive.find? path with
  | some entry =>
      rw [fromArchive_of_find? h] at ha
      cases ha
      exact ⟨entry, rfl, rfl, rfl⟩
  | none =>
      rw [fromArchive_of_find?_eq_none h] at ha
      cases ha

/-- An answer from an archive that is at its end has failed. -/
theorem finish_eq_fromArchive {result : Except Failure Unit}
    (ha : .finish result = Answer.fromArchive (ρ := Unit) (μ := Unit) archive () path) :
    result ≠ .ok () := by
  rintro rfl
  cases h : archive.find? path with
  | some entry =>
      rw [fromArchive_of_find? h] at ha
      cases ha
  | none =>
      rw [fromArchive_of_find?_eq_none h] at ha
      cases ha

/-- An answer from an archive asks for nothing else. -/
theorem request?_fromArchive (archive : MemoryArchive) (path : String) (st : Session × Unit) :
    (Answer.fromArchive archive () path : Answer Unit Unit).request? st = none := by
  cases h : archive.find? path with
  | some entry =>
      rw [fromArchive_of_find? h]
      rfl
  | none =>
      rw [fromArchive_of_find?_eq_none h]
      rfl

end FromArchive

/-- Is the file opened in the history and, from then on, expanded from `s` to `s'`? -/
def FileExpanded (archive : MemoryArchive) (source : SourceFile) (s : Session)
    (history : List Moment) (s' : Session) : Prop :=
  ∃ (x : Moment) (later : List Moment) (e : Expansion),
    history = x :: later ∧ x.event = .opened source ∧
      Expands archive s.options.strictHeader source.name (Cursor.ofBytes source.contents) e ∧
        e.Describes archive s later s'

/-- What a part of a session over an archive has done if it has succeeded. -/
def Task.Expanded (archive : MemoryArchive) :
    Task Unit Unit → Session → List Moment → Session → Prop
  | .file _ source, s, history, s' => FileExpanded archive source s history s'
  | .items _ cursor, s, history, s' => ∃ e : Expansion,
      Expands archive s.options.strictHeader s.context.name cursor e ∧
        e.Describes archive s history s'
  | .item _ (.inclusion t), s, history, s' => s.rejection? t.unquoted = none ∧
      ∃ (entry : StoredFile) (inside : List Moment) (s₁ : Session),
        archive.find? t.unquoted = some entry ∧
          FileExpanded archive (archive.source entry) (s.enter t.unquoted) inside s₁ ∧
            s₁.depth = s.depth + 1 ∧ s₁.options = s.options ∧
              s' = s₁.leave.resume s.context ∧
                history = ⟨.reached t none, s⟩ :: ⟨.entered t.unquoted, s.enter t.unquoted⟩ ::
                  (inside ++ [⟨.left, s₁.leave.resume s.context⟩])
  | .item _ i, s, history, s' => s.plain? i = some s' ∧ history = [⟨.performed i, s'⟩]
  | .answer a, s, history, s' => ∀ path, a = .fromArchive archive () path →
      ∃ entry : StoredFile, archive.find? path = some entry ∧
        FileExpanded archive (archive.source entry) s history s'

/-- **A run over an archive that succeeds** has found what the expansion says. -/
theorem Runs.expanded {task : Task Unit Unit} {st st' : Session × Unit} {history : List Moment}
    {result : Except Failure Unit} (h : Runs archive.handlers task st history result st')
    (hresult : result = .ok ()) : task.Expanded archive st.1 history st'.1 := by
  induction h with
  | known _ | stopped _ | broken _ _ _ | rejected _ _ | spoiled _ _ _ _ | refused _ _ _ _ =>
      cases hresult
  | opened hfailure _ ih =>
      obtain ⟨e, he, hdescribes⟩ := ih hresult
      exact ⟨_, _, e, rfl, rfl, he, hdescribes.of_resume⟩
  | finished hread => exact ⟨_, .done hread, Expansion.describes_done _ _⟩
  | @more _ _ s _ item r _ _ _ st _ hread hitem _ ihitem ihrest =>
      obtain ⟨e, he, hdescribes⟩ := ihrest hresult
      have hexpanded := ihitem rfl
      cases item with
      | inclusion t =>
          obtain ⟨hcause, entry, inside, s₁, hentry, ⟨x, later, inner, rfl, hx, hinner, hi⟩,
            hdepth, hoptions, hst, rfl⟩ := hexpanded
          rw [hst] at he hdescribes
          have hname : s₁.options.strictHeader = s.options.strictHeader := by rw [hoptions]; rfl
          have hrest : Expands archive s.options.strictHeader s.context.name r.cursor e :=
            hname ▸ he
          exact ⟨_, .inclusion hread hentry hinner hrest,
            Expansion.Describes.inclusion hcause hx hi hdepth hoptions hdescribes⟩
      | word t | version v | declaration d =>
          obtain ⟨hplain, rfl⟩ := hexpanded
          obtain ⟨-, hoptions⟩ := Session.depth_options_of_plain? hplain
          have hcontext := Session.context_of_plain? hplain
          rw [hoptions, hcontext] at he
          exact ⟨_, .item hread (by simp) he, hdescribes.item hplain⟩
  | @performed _ item _ _ _ hitem =>
      cases item with
      | inclusion t => cases hitem
      | _ => exact ⟨hitem, rfl⟩
  | included hcause hanswer _ ih =>
      obtain ⟨entry, hentry, hfile⟩ := ih rfl _ rfl
      obtain ⟨hdepth, hoptions⟩ := hanswer.depth_options_eq
      exact ⟨hcause, entry, _, _, hentry, hfile, hdepth, hoptions, rfl, rfl⟩
  | ended =>
      intro path ha
      exact (finish_eq_fromArchive ha hresult).elim
  | parsed _ hrest ihfile _ =>
      intro path ha
      obtain ⟨entry, hentry, rfl, rfl⟩ := parse_eq_fromArchive ha
      obtain ⟨rfl, rfl, rfl⟩ := hrest.of_finish
      refine ⟨entry, hentry, ?_⟩
      rw [List.append_nil]
      exact ihfile hresult
  | scanned hscans _ _ _ =>
      intro path ha
      rw [ha] at hscans
      exact (not_scans_fromArchive hscans).elim
  | missed hscans _ _ _ _ =>
      intro path ha
      rw [ha] at hscans
      exact (not_scans_fromArchive hscans).elim
  | requested hrequest _ _ =>
      intro path ha
      rw [ha, request?_fromArchive] at hrequest
      cases hrequest

/-! ## Where declarations stand -/

/-- Does the declaration stand among the tokens of the file `name`? The declared name is one of them
and the body is a run of them. -/
structure Declaration.StandsIn (d : Declaration) (name : String) (tokens : List Token) : Prop where
  /-- The file is the source. -/
  source : d.source = name
  /-- One of the tokens is the declared name. -/
  name : ∃ t ∈ tokens, d.name = t.lexeme ∧ d.span = t.span
  /-- The tokens of the body follow each other among them. -/
  body : d.body <:+: tokens

/-- A declaration stands among more tokens, too. -/
theorem Declaration.StandsIn.mono {d : Declaration} {name : String} {tokens more : List Token}
    (h : d.StandsIn name tokens) (hmore : tokens <:+: more) : d.StandsIn name more := by
  obtain ⟨t, ht, hname⟩ := h.name
  exact ⟨h.source, ⟨t, hmore.subset ht, hname⟩, h.body.trans hmore⟩

/-- The parts of a header leave its name alone. -/
theorem headerOf_name (kind : TypeKind) (name : Token) (parts : List HeaderPart) :
    (headerOf kind name parts).name = name := by
  have hfold : ∀ h : Header, (parts.foldl HeaderPart.addTo h).name = h.name := by
    induction parts with
    | nil => exact fun h => rfl
    | cons part parts ih =>
        intro h
        rw [List.foldl_cons, ih]
        cases part with
        | _ => rfl
  exact hfold _

/-- The body of a block follows its opening brace. -/
theorem body_infix_of_block {block body : List Token} (h : Block block body) : body <:+: block := by
  cases h with
  | @mk left right _ tail _ _ _ _ => exact ⟨[left], right :: tail, by simp⟩

/-- A declaration stands among the tokens that it is derived from. -/
theorem standsIn_of_derives {name : String} {tokens : List Token} {d : Declaration}
    (h : Derives strict name tokens (.declaration d)) : d.StandsIn name tokens := by
  cases h with
  | @constant word t sign semicolon value _ _ _ _ _ =>
      refine ⟨rfl, ⟨t, by simp, rfl, rfl⟩, [word, t, sign], [semicolon], ?_⟩
      simp [Declaration.ofName]
  | @enumeration word t block _ _ _ hblock =>
      refine ⟨rfl, ⟨t, by simp, rfl, rfl⟩, (body_infix_of_block hblock).trans ?_⟩
      exact ⟨[word, t], [], by simp⟩
  | @type kind word header block _ _ _ hheader hblock =>
      cases hheader with
      | @mk t parts _ _ _ _ =>
          refine ⟨rfl, ⟨t, by simp, ?_, ?_⟩, (body_infix_of_block hblock).trans ?_⟩
          · exact congrArg Token.lexeme (headerOf_name kind t parts)
          · exact congrArg Token.span (headerOf_name kind t parts)
          · exact ⟨word :: t :: parts.flatMap HeaderPart.tokens, [], by simp⟩

/-- Every declaration of an expansion stands in the file from which it was expanded or in one of the
files that this includes. -/
theorem Expands.standsIn {name : String} {cursor : Cursor} {e : Expansion}
    (h : Expands archive strict name cursor e) {d : Declaration} (hd : d ∈ declared e.items) :
    d.StandsIn name (unskipped cursor.tokens) ∨ ∃ entry ∈ e.entries,
      d.StandsIn entry.path (unskipped (Cursor.ofBytes entry.contents).tokens) := by
  induction h with
  | done _ => cases hd
  | @item name cursor r i rest hread _ _ ih =>
      obtain ⟨used, hused, -, hderives⟩ := exists_derives_of_next? hread
      have htokens : unskipped cursor.tokens = used ++ unskipped r.cursor.tokens := hused
      have hcons : declared (i :: rest.items) = declared [i] ++ declared rest.items :=
        declared_append [i] rest.items
      rw [Expansion.items, hcons] at hd
      rcases List.mem_append.mp hd with hd | hd
      · cases i with
        | declaration d' =>
            obtain rfl : d = d' := by simpa [declared] using hd
            rw [htokens]
            exact .inl ((standsIn_of_derives hderives).mono (List.prefix_append _ _).isInfix)
        | _ => cases hd
      · rw [htokens]
        exact (ih hd).imp (fun h => h.mono (List.suffix_append _ _).isInfix) id
  | @inclusion name cursor r path entry inner rest hread _ _ _ ihinner ihrest =>
      obtain ⟨used, hused, -, -⟩ := exists_derives_of_next? hread
      have htokens : unskipped cursor.tokens = used ++ unskipped r.cursor.tokens := hused
      have hcons : declared (.inclusion path :: (inner.items ++ rest.items)) =
          declared inner.items ++ declared rest.items := declared_append inner.items rest.items
      rw [Expansion.items, hcons] at hd
      rcases List.mem_append.mp hd with hd | hd
      · right
        rcases ihinner hd with h | ⟨entry', hentry', h⟩
        · exact ⟨entry, List.mem_cons_self, h⟩
        · exact ⟨entry', List.mem_cons_of_mem _ (List.mem_append_left _ hentry'), h⟩
      · rw [htokens]
        rcases ihrest hd with h | ⟨entry', hentry', h⟩
        · exact .inl (h.mono (List.suffix_append _ _).isInfix)
        · exact .inr ⟨entry', List.mem_cons_of_mem _ (List.mem_append_right _ hentry'), h⟩

/-- Every included file of an expansion is a file of the archive. -/
theorem Expands.mem_files {name : String} {cursor : Cursor} {e : Expansion}
    (h : Expands archive strict name cursor e) {entry : StoredFile} (hentry : entry ∈ e.entries) :
    entry ∈ archive.files := by
  induction h with
  | done _ => cases hentry
  | item _ _ _ ih => exact ih hentry
  | inclusion _ hfind _ _ ihinner ihrest =>
      rcases List.mem_cons.mp hentry with rfl | hentry
      · exact List.mem_of_find?_eq_some hfind
      · exact (List.mem_append.mp hentry).elim ihinner ihrest

/-! ## Reports over an archive -/

/-- The session over an archive before anything is read, in which the root file counts as
visited. -/
def Session.rooted (options : Options) (root : StoredFile) : Session :=
  (Session.new options).visitRoot root.path

/-- A report over an archive is that of a run of its root file. -/
theorem exists_runs_of_archive (archive : MemoryArchive) (path : String) (options : Options)
    {root : StoredFile} (hroot : archive.find? path = some root) :
    ∃ history result s', Runs archive.handlers (.file () (archive.source root))
        (Session.rooted options root, ()) history result (s', ()) ∧
      parseArchive archive path options = Report.ofSession s' := by
  have hopen := MemoryArchive.openFile_of_find? hroot
  exact exists_runs_of_openFile archive path options hopen

/-- A run over an archive after which no failure is known has succeeded. -/
theorem result_eq_ok_of_failure_eq_none {options : Options} {root : StoredFile} {s' : Session}
    {history : List Moment} {result : Except Failure Unit}
    (h : Runs archive.handlers (.file () (archive.source root))
      (Session.rooted options root, ()) history result (s', ()))
    (hs' : s'.diagnostics.failure = none) : result = .ok () := by
  have hsettled := h.settled (fun _ => parsesOnly_fromArchive archive) rfl trivial
  cases hsettled with
  | quiet _ _ => rfl
  | failed hfirst =>
      have hfailure := hfirst.failure
      rw [hs'] at hfailure
      cases hfailure

/-- **Including a file is substitution**: a report over an archive without a failure is the report
on the expansion of the root file, which is the only one. Every declaration stands in the root file
or in the included file that it names as its source. -/
theorem parseArchive_eq_expansion (archive : MemoryArchive) (path : String) (options : Options)
    {root : StoredFile} (hroot : archive.find? path = some root)
    (hsuccess : (parseArchive archive path options).success = true) :
    ∃ e, Expands archive options.strictHeader root.path (Cursor.ofBytes root.contents) e ∧
      (∀ e', Expands archive options.strictHeader root.path (Cursor.ofBytes root.contents) e' →
        e' = e) ∧
      parseArchive archive path options = e.report options.reportDeclarations ∧
      ∀ d ∈ (parseArchive archive path options).declarations, ∃ entry ∈ root :: e.entries,
        entry ∈ archive.files ∧
          d.StandsIn entry.path (unskipped (Cursor.ofBytes entry.contents).tokens) := by
  obtain ⟨history, result, s', hrun, hreport⟩ := exists_runs_of_archive archive path options hroot
  rw [hreport] at hsuccess ⊢
  have hfailure : s'.diagnostics.failure = none := Option.isNone_iff_eq_none.mp hsuccess
  have hok := result_eq_ok_of_failure_eq_none hrun hfailure
  obtain ⟨x, later, e, -, -, he, hdescribes⟩ := hrun.expanded hok
  refine ⟨e, he, fun e' he' => he.unique he', ?_, ?_⟩
  · have hwarnings : s'.diagnostics.warnings = e.warnings options.reportDeclarations :=
      hdescribes.warnings
    have hdeclarations : s'.declarations = declared e.items := hdescribes.finds.declarations
    have hincluded : s'.visited.paths = includedPaths e.items := hdescribes.finds.included
    have hversion : s'.languageVersion = (versions e.items).getLast? :=
      hdescribes.finds.version.trans Option.or_none
    rw [Report.ofSession, hfailure, hwarnings, hdeclarations, hincluded, hversion]
    rfl
  · intro d hd
    have hdeclarations : s'.declarations = declared e.items := hdescribes.finds.declarations
    have hd' : d ∈ declared e.items := hdeclarations ▸ hd
    rcases he.standsIn hd' with h | ⟨entry, hentry, h⟩
    · exact ⟨root, List.mem_cons_self, List.mem_of_find?_eq_some hroot, h⟩
    · exact ⟨entry, List.mem_cons_of_mem _ hentry, he.mem_files hentry, h⟩

/-- A file that includes another one between two declarations. -/
theorem parseArchive_eq_expansion_of_two_files :
    let archive := ((MemoryArchive.mk "project" [] (by simp)).insert "Main.zs"
      "class A \x7b \x7d #include \"b.zs\" enum C \x7b x \x7d".toUTF8.toList).insert "B.zs"
        "version \"4.10\"; const B = 1;".toUTF8.toList
    let root : StoredFile :=
      ⟨"Main.zs", "class A \x7b \x7d #include \"b.zs\" enum C \x7b x \x7d".toUTF8.toList⟩
    archive.find? "main.zs" = some root ∧ (parseArchive archive "main.zs").success = true ∧
      ∃ e, Expands archive false root.path (Cursor.ofBytes root.contents) e ∧
        parseArchive archive "main.zs" = e.report true := by
  intro archive root
  have hroot : archive.find? "main.zs" = some root := by decide +kernel
  have hsuccess : (parseArchive archive "main.zs").success = true := by decide +kernel
  obtain ⟨e, he, -, hreport, -⟩ := parseArchive_eq_expansion archive "main.zs" {} hroot hsuccess
  exact ⟨hroot, hsuccess, e, he, hreport⟩

end ZDecl
