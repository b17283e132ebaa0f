import ZDecl.Proofs.Scan.Locality
import ZDecl.Proofs.Session.Balance
import ZDecl.Proofs.Session.Finds

/-!
# Stretches of a file

A file that includes nothing is read item after item. What a stretch of it says does not depend on
what stands behind the stretch, so the report on a whole file can be put together from stretches.

* `Item.Stretch`: tokens that are read as some items, one after the other, with the stray tokens
  that are met on the way.
* `Item.Passes`: the way of a cursor over some items; `Stretch.passes` leads over a stretch wherever
  it stands.
* `Item.stopIn`: where the items of a file that includes nothing stop.
* `Session.Collects`: what a session collects on a way; `Parse.items_of_passes`.
* **`parseSource_of_stretch`**: the report on a file that is one stretch.
* **`parseSource_stretch`**: the report on any single file tells what the stretch up to the stop
  says, and it is a success exactly if nothing is left behind.
-/

namespace ZDecl

open Grammar

/-! ## Stretches -/

namespace Item

/-- An item and the stray tokens that were met while it was read. -/
abbrev Read := Item × List Stray

/-- Is the item something else than an include directive? -/
def IncludesNothing (item : Item) : Prop := ∀ t, item ≠ .inclusion t

/-- Are the tokens read as these items, one after the other, none of which includes a file? The
states say where each of them was read; what else they hold does not matter. -/
inductive Stretch (strict : Bool) (source : String) : List Token → List Read → Prop where
  /-- No tokens and no items. -/
  | nil : Stretch strict source [] []
  /-- An item and those behind it. -/
  | cons {s s' : Scan.State} {item : Item} {strays : List Stray} {used rest : List Token}
      {reads : List Read} (hread : next? strict source s = .ok (some item) s')
      (hitem : item.IncludesNothing) (hused : s.pending = used ++ s'.pending)
      (hstrays : s'.strays = s.strays ++ strays) (hrest : Stretch strict source rest reads) :
      Stretch strict source (used ++ rest) ((item, strays) :: reads)

/-- Where the items of a file that includes nothing stop: at the end of the stream, or before the
first item that cannot be read or is an include directive. -/
def stopIn (strict : Bool) (source : String) (cursor : Cursor) : Cursor :=
  match _h : next? strict source ⟨cursor, []⟩ with
  | .ok (some (.inclusion _)) _ => cursor
  | .ok (some _) r => stopIn strict source r.cursor
  | .ok none _ | .error _ _ => cursor
termination_by cursor.tokens.length
decreasing_by exact length_lt_of_next? _h

variable {strict : Bool} {source : String} {tokens : List Token} {reads : List Read}

/-- The tokens of an item that was read derive it, and they are well formed. -/
theorem derives_of_next? {s s' : Scan.State} {item : Item} {used : List Token}
    (hread : next? strict source s = .ok (some item) s') (hused : s.pending = used ++ s'.pending) :
    (∀ t ∈ used, t.valid = true) ∧ Derives strict source used item := by
  obtain ⟨used', hused', hvalid, hderives⟩ := exists_derives_of_next? hread
  obtain rfl := List.append_cancel_right (hused.symm.trans hused')
  exact ⟨hvalid, hderives⟩

/-- An item that was read is read again before everything that may follow. -/
theorem next?_again {s s' : Scan.State} {item : Item} {used : List Token} {strays : List Stray}
    (hread : next? strict source s = .ok (some item) s') (hused : s.pending = used ++ s'.pending)
    (hstrays : s'.strays = s.strays ++ strays) {s₁ : Scan.State} {rest : List Token}
    (hs₁ : s₁.pending = used ++ rest) (hrest : Scan.MayFollow NoSemicolon s'.pending rest) :
    ∃ s₂, next? strict source s₁ = .ok (some item) s₂ ∧ s₂.pending = rest ∧
      s₂.strays = s₁.strays ++ strays := by
  obtain ⟨used', strays', hused', hstrays', hagain⟩ := local_next? hread
  obtain rfl := List.append_cancel_right (hused.symm.trans hused')
  obtain rfl := List.append_cancel_left (hstrays.symm.trans hstrays')
  exact hagain s₁ rest hs₁ hrest

/-- No stretch starts with a semicolon, not even the empty one before something else. -/
theorem Stretch.noSemicolon (h : Stretch strict source tokens reads) {rest : List Token}
    (hrest : NoSemicolon rest) : NoSemicolon (tokens ++ rest) := by
  cases h with
  | nil => exact hrest
  | cons hread _ hused _ _ =>
      obtain ⟨t, more, rfl, ht⟩ := exists_cons_of_derives (derives_of_next? hread hused).2
      simp [NoSemicolon, ht]

/-- Two stretches one after the other. -/
theorem Stretch.append {tokens' : List Token} {reads' : List Read}
    (h : Stretch strict source tokens reads) (h' : Stretch strict source tokens' reads') :
    Stretch strict source (tokens ++ tokens') (reads ++ reads') := by
  induction h with
  | nil => exact h'
  | cons hread hitem hused hstrays _ ih =>
      rw [List.append_assoc]
      exact .cons hread hitem hused hstrays ih

/-- The tokens of a stretch are well formed. -/
theorem Stretch.valid (h : Stretch strict source tokens reads) : ∀ t ∈ tokens, t.valid = true := by
  induction h with
  | nil => exact fun t ht => nomatch ht
  | cons hread _ hused _ _ ih =>
      exact List.forall_mem_append.mpr ⟨(derives_of_next? hread hused).1, ih⟩

/-- Does the last token show that an item is complete? -/
def EndsWell (used : List Token) : Prop := ∃ before t, used = before ++ [t] ∧ t.kind ≠ .dot

/-- Only the last token matters for whether an item is complete. -/
theorem EndsWell.append {used : List Token} (h : EndsWell used) (front : List Token) :
    EndsWell (front ++ used) := by
  obtain ⟨before, t, rfl, ht⟩ := h
  exact ⟨front ++ before, t, by rw [List.append_assoc], ht⟩

/-- Each single token but a dot completes an item. -/
theorem endsWell_single {t : Token} (h : t.kind ≠ .dot) : EndsWell [t] := ⟨[], t, rfl, h⟩

/-- A token but a dot completes an item, with a semicolon or without. -/
theorem endsWell_cons_optional {t : Token} {tail : List Token} (ht : t.kind ≠ .dot)
    (h : OptionalSemicolon tail) : EndsWell (t :: tail) := by
  cases h with
  | absent => exact endsWell_single ht
  | present hu => exact (endsWell_single (by simp [hu])).append [t]

/-- A block is complete. -/
theorem endsWell_block {used body : List Token} (h : Block used body) : EndsWell used := by
  cases h with
  | @mk left right body tail hleft hbody hright htail =>
      exact (endsWell_cons_optional (by simp [hright]) htail).append (left :: body)

/-- An item ends with a token that is no full stop. -/
theorem endsWell_of_derives {used : List Token} {item : Item}
    (h : Derives strict source used item) : EndsWell used := by
  cases h with
  | @inclusion hash word path _ _ hpath =>
      exact (endsWell_single (by simp [hpath])).append [hash, word]
  | @version word text tail _ htext htail =>
      exact (endsWell_cons_optional (by simp [htext]) htail).append [word]
  | @constant word name sign semicolon value _ _ _ _ hsemicolon =>
      exact (endsWell_single (by simp [hsemicolon])).append (word :: name :: sign :: value)
  | @enumeration word name block body _ _ hblock =>
      exact (endsWell_block hblock).append [word, name]
  | @type kind word header block body h _ _ hblock =>
      exact (endsWell_block hblock).append (word :: header)
  | word hkind _ => exact endsWell_single (by simp [hkind])

/-- No stretch ends with a full stop. -/
theorem Stretch.kind_ne_dot_of_getLast? (h : Stretch strict source tokens reads) :
    ∀ t ∈ tokens.getLast?, t.kind ≠ .dot := by
  induction h with
  | nil => exact fun t ht => nomatch ht
  | @cons _ _ _ _ used rest _ hread _ hused _ _ ih =>
      intro t ht
      cases hlast : rest.getLast? with
      | some u =>
          rw [List.getLast?_append, hlast] at ht
          exact ih t (hlast.trans ht)
      | none =>
          rw [List.getLast?_eq_none_iff.mp hlast, List.append_nil] at ht
          obtain ⟨before, u, rfl, hu⟩ := endsWell_of_derives (derives_of_next? hread hused).2
          rw [List.getLast?_concat] at ht
          obtain rfl := Option.some.inj ht
          exact hu

/-! ## The way over a stretch -/

/-- Does the cursor pass over these items, none of which includes a file? -/
inductive Passes (strict : Bool) (source : String) : Cursor → List Read → Cursor → Prop where
  /-- It stays where it is. -/
  | nil (cursor : Cursor) : Passes strict source cursor [] cursor
  /-- It passes an item and those behind it. -/
  | cons {cursor cursor' : Cursor} {item : Item} {r : Scan.State} {reads : List Read}
      (hread : next? strict source ⟨cursor, []⟩ = .ok (some item) r) (hitem : item.IncludesNothing)
      (hrest : Passes strict source r.cursor reads cursor') :
      Passes strict source cursor ((item, r.strays) :: reads) cursor'

variable {cursor cursor' : Cursor}

/-- **A stretch is passed wherever it stands**, if no semicolon comes behind it. -/
theorem Stretch.passes (h : Stretch strict source tokens reads) {rest : List Token}
    (hcursor : unskipped cursor.tokens = tokens ++ rest) (hrest : NoSemicolon rest) :
    ∃ cursor', Passes strict source cursor reads cursor' ∧ unskipped cursor'.tokens = rest := by
  induction h generalizing cursor with
  | nil => exact ⟨cursor, .nil cursor, hcursor⟩
  | @cons _ _ item strays used more reads hread hitem hused hstrays hmore ih =>
      rw [List.append_assoc] at hcursor
      have hpending : (Scan.State.mk cursor []).pending = used ++ (more ++ rest) := hcursor
      obtain ⟨r, hagain, hr, hr'⟩ :=
        next?_again hread hused hstrays hpending (.inl (hmore.noSemicolon hrest))
      obtain rfl : r.strays = strays := hr'
      obtain ⟨cursor', hpasses, hcursor'⟩ := ih hr
      exact ⟨cursor', .cons hagain hitem hpasses, hcursor'⟩

/-- What is passed is a stretch. -/
theorem Passes.exists_stretch (h : Passes strict source cursor reads cursor') :
    ∃ tokens, unskipped cursor.tokens = tokens ++ unskipped cursor'.tokens ∧
      Stretch strict source tokens reads := by
  induction h with
  | nil cursor => exact ⟨[], rfl, .nil⟩
  | @cons cursor cursor' item r reads hread hitem _ ih =>
      obtain ⟨tokens, htokens, hstretch⟩ := ih
      obtain ⟨used, strays, hused, hstrays, -⟩ := local_next? hread
      have hmet : strays = r.strays := hstrays.symm
      subst hmet
      have hpending : unskipped cursor.tokens = used ++ unskipped r.cursor.tokens := hused
      refine ⟨used ++ tokens, ?_, .cons hread hitem hused hstrays hstretch⟩
      rw [hpending, htokens, List.append_assoc]

/-! ## Where the items stop -/

/-- Do the items of a file that includes nothing stop here? -/
def Stops (strict : Bool) (source : String) (cursor : Cursor) : Prop :=
  ∀ item r, next? strict source ⟨cursor, []⟩ = .ok (some item) r → ¬item.IncludesNothing

/-- An item that is no include directive is passed. -/
theorem stopIn_of_next? {item : Item} {r : Scan.State}
    (h : next? strict source ⟨cursor, []⟩ = .ok (some item) r) (hitem : item.IncludesNothing) :
    stopIn strict source cursor = stopIn strict source r.cursor := by
  rw [stopIn]
  split
  · next t _ h' =>
      cases h.symm.trans h'
      exact absurd rfl (hitem t)
  · next h' =>
      cases h.symm.trans h'
      rfl
  · next h' => cases h.symm.trans h'
  · next h' => cases h.symm.trans h'

/-- Items stop where they do. -/
theorem stopIn_of_stops (h : Stops strict source cursor) :
    stopIn strict source cursor = cursor := by
  rw [stopIn]
  split
  · rfl
  · next item r hno h' => exact absurd (fun t ht => hno t ht) (h item r h')
  · rfl
  · rfl

/-- Up to the stop, everything is passed. -/
theorem exists_passes_stopIn (strict : Bool) (source : String) (cursor : Cursor) :
    ∃ reads, Passes strict source cursor reads (stopIn strict source cursor) ∧
      Stops strict source (stopIn strict source cursor) := by
  induction hn : cursor.tokens.length using Nat.strongRecOn generalizing cursor with
  | ind n ih =>
      by_cases hstops : Stops strict source cursor
      · rw [stopIn_of_stops hstops]
        exact ⟨[], .nil cursor, hstops⟩
      · simp only [Stops, not_forall, not_not] at hstops
        obtain ⟨item, r, hread, hitem⟩ := hstops
        obtain ⟨reads, hpasses, hstops⟩ := ih _ (hn ▸ length_lt_of_next? hread) r.cursor rfl
        rw [stopIn_of_next? hread hitem]
        exact ⟨(item, r.strays) :: reads, .cons hread hitem hpasses, hstops⟩

end Item

/-! ## What is gathered from a stretch -/

/-- The warnings of a stretch of the file `source`, where declarations are logged or not: about the
stray tokens of each item, and then its declaration. -/
def Item.warnings (logged : Bool) (source : String) (reads : List Item.Read) : List String :=
  reads.flatMap fun read => read.2.map (·.warning source) ++
    if logged then (declared [read.1]).map Declaration.summary else []

/-- What a session gathers from a stretch. -/
structure Session.Collects (s s' : Session) (reads : List Item.Read) : Prop where
  /-- What was chosen stays. -/
  options : s'.options = s.options
  /-- The file stays. -/
  name : s'.context.name = s.context.name
  /-- No failure comes up. -/
  failure : s'.diagnostics.failure = s.diagnostics.failure
  /-- Exactly what the items say is found. -/
  finds : s.Finds s' (reads.map Prod.fst)
  /-- The warnings are those of the stretch. -/
  warnings : s'.diagnostics.warnings =
    s.diagnostics.warnings ++ Item.warnings s.options.reportDeclarations s.context.name reads

/-- Nothing is gathered from the empty stretch. -/
theorem Session.collects_nil (s : Session) : s.Collects s [] :=
  ⟨rfl, rfl, rfl, finds_nil rfl rfl rfl, (List.append_nil _).symm⟩

/-- What is gathered from one stretch and then from another. -/
theorem Session.Collects.append {s s' s'' : Session} {reads reads' : List Item.Read}
    (h : s.Collects s' reads) (h' : s'.Collects s'' reads') : s.Collects s'' (reads ++ reads') where
  options := h'.options.trans h.options
  name := h'.name.trans h.name
  failure := h'.failure.trans h.failure
  finds := by
    rw [List.map_append]
    exact h.finds.append h'.finds
  warnings := by
    rw [h'.warnings, h.warnings, h.options, h.name, Item.warnings, Item.warnings, Item.warnings,
      List.flatMap_append, List.append_assoc]

/-- What is gathered from an item that is no include directive. -/
theorem Session.collects_of_plain? {s s' : Session} {r : Scan.State} {item : Item}
    (h : (s.advance r).plain? item = some s') : s.Collects s' [(item, r.strays)] := by
  cases item with
  | inclusion t => cases h
  | word t =>
      cases h
      obtain ⟨hd, hi, hv⟩ := finds_word (s.advance r) t
      refine ⟨rfl, rfl, rfl, ⟨hd, hi, hv⟩, ?_⟩
      simp [Item.warnings, declared, advance, Diagnostics.warnAll]
  | version v =>
      cases h
      obtain ⟨hd, hi, hv⟩ := finds_setVersion (s.advance r) v
      refine ⟨rfl, rfl, rfl, ⟨hd, hi, hv⟩, ?_⟩
      simp [Item.warnings, declared, advance, Diagnostics.warnAll, setVersion]
  | declaration d =>
      cases h
      obtain ⟨hd, hi, hv⟩ := finds_record (s.advance r) d
      rw [record_eq] at hd hi hv ⊢
      refine ⟨rfl, rfl, rfl, ⟨hd, hi, hv⟩, ?_⟩
      show (s.diagnostics.warnings ++ r.strays.map (·.warning s.context.name)) ++
        (if s.options.reportDeclarations then [d.summary] else []) = _
      simp [Item.warnings, declared]

namespace Parse

/-- An item that is no include directive is performed, whatever becomes of these. -/
theorem exists_plain? {μ : Type} (onInclude : Token → Parse μ Unit) {item : Item}
    (hitem : item.IncludesNothing) (s : Session) :
    ∃ s', s.plain? item = some s' ∧ ∀ m : μ, perform onInclude item (s, m) = .ok () (s', m) := by
  cases item with
  | inclusion t => exact absurd rfl (hitem t)
  | word t => exact ⟨_, rfl, fun _ => rfl⟩
  | version v => exact ⟨_, rfl, fun _ => rfl⟩
  | declaration d => exact ⟨_, rfl, fun _ => rfl⟩

/-- **The items of a way are collected**, and then the items behind it are parsed. -/
theorem items_of_passes {μ : Type} (onInclude : Token → Parse μ Unit) {strict : Bool}
    {source : String} {cursor cursor' : Cursor} {reads : List Item.Read}
    (h : Item.Passes strict source cursor reads cursor') {s : Session}
    (hstrict : s.options.strictHeader = strict) (hsource : s.context.name = source) :
    ∃ s', s.Collects s' reads ∧
      ∀ m : μ, items onInclude cursor (s, m) = items onInclude cursor' (s', m) := by
  induction h generalizing s with
  | nil cursor => exact ⟨s, s.collects_nil, fun _ => rfl⟩
  | @cons _ _ item r _ hread hitem _ ih =>
      subst hstrict hsource
      obtain ⟨s₁, hplain, hperform⟩ := exists_plain? onInclude hitem (s.advance r)
      have hfirst := Session.collects_of_plain? hplain
      have hstrict : s₁.options.strictHeader = s.options.strictHeader := by rw [hfirst.options]
      obtain ⟨s', hlater, heq⟩ := ih hstrict hfirst.name
      refine ⟨s', hfirst.append hlater, fun m => ?_⟩
      rw [items_of_some hread, ← heq, bind_of_ok (hperform m)]

/-- What becomes of a single file where its items stop: but for the stray tokens that are met
beyond, nothing is added to the results. It is a success where the stream ends. -/
theorem exists_sameResults_of_stops (levels : Nat) {cursor : Cursor} {s : Session}
    (hstops : Item.Stops s.options.strictHeader s.context.name cursor)
    (hfailure : s.diagnostics.failure = none) :
    ∃ r final, sessionAfter (items (refusing levels) cursor (s, ())) = final ∧
      SameResults (s.advance r) final ∧
      (final.diagnostics.failure = none ↔ unskipped cursor.tokens = []) ∧
      (unskipped cursor.tokens = [] → r.strays = []) := by
  have hend : (∃ r, Item.next? s.options.strictHeader s.context.name ⟨cursor, []⟩ = .ok none r) ↔
      unskipped cursor.tokens = [] := next?_eq_none_iff
  cases hread : Item.next? s.options.strictHeader s.context.name ⟨cursor, []⟩ with
  | error f r =>
      have hne : unskipped cursor.tokens ≠ [] := by simp [← hend, hread]
      refine ⟨r, _, rfl, ?_⟩
      rw [items_of_error hread]
      exact ⟨⟨rfl, rfl, rfl⟩, iff_of_false (failure_report_ne_none _ _) hne, fun h => absurd h hne⟩
  | ok item? r =>
      cases item? with
      | none =>
          have hnil : unskipped cursor.tokens = [] := hend.mp ⟨r, hread⟩
          refine ⟨r, _, rfl, ?_⟩
          rw [items_of_none hread]
          refine ⟨⟨rfl, rfl, rfl⟩, iff_of_true hfailure hnil, fun _ => ?_⟩
          have hpending : (Scan.State.mk cursor []).pending = [] := hnil
          rw [next?_of_pending_eq_nil hpending] at hread
          cases hread
          rfl
      | some item =>
          have hne : unskipped cursor.tokens ≠ [] := by simp [← hend, hread]
          obtain ⟨t, rfl⟩ : ∃ t, item = .inclusion t := by
            simpa [Item.IncludesNothing] using hstops item r hread
          obtain ⟨f, s', herror, hknown, hsame⟩ := exists_error_of_refusing levels t (s.advance r)
          refine ⟨r, s', ?_, hsame, iff_of_false hknown hne, fun h => absurd h hne⟩
          have hperform : perform (refusing levels) (.inclusion t) (s.advance r, ()) = _ := herror
          rw [items_of_some hread, bind_of_error hperform]
          rfl

end Parse

/-! ## The report on a single file -/

/-- Does the report say what the items that were read in the file `source` say, and first warn of
what they give rise to? -/
structure Report.Tells (report : Report) (logged : Bool) (source : String)
    (reads : List Item.Read) : Prop where
  /-- The declarations. -/
  declarations : report.declarations = declared (reads.map Prod.fst)
  /-- The last version. -/
  languageVersion : report.languageVersion = (versions (reads.map Prod.fst)).getLast?
  /-- The warnings come first. -/
  warnings : Item.warnings logged source reads <+: report.warnings

section Source

variable {name : String} {contents : Bytes} {options : Options} {reads : List Item.Read}

/-- The report on a single file whose items stop behind the given ones. -/
theorem parseSource_of_passes {stop : Cursor}
    (hpasses : Item.Passes options.strictHeader name (Cursor.ofBytes contents) reads stop)
    (hstops : Item.Stops options.strictHeader name stop) :
    (parseSource name contents options).Tells options.reportDeclarations name reads ∧
      ((parseSource name contents options).success = true ↔ unskipped stop.tokens = []) ∧
      (unskipped stop.tokens = [] → (parseSource name contents options).warnings =
        Item.warnings options.reportDeclarations name reads) := by
  obtain ⟨s', hcollects, heq⟩ := Parse.items_of_passes (Parse.refusing options.maxIncludeDepth)
    hpasses (s := (Session.new options).resume (Context.ofFile { name, contents })) rfl rfl
  have hstops' : Item.Stops s'.options.strictHeader s'.context.name stop := by
    rw [hcollects.options, hcollects.name]
    exact hstops
  obtain ⟨r, final, hfinal, hsame, hsuccess, hstrays⟩ :=
    Parse.exists_sameResults_of_stops options.maxIncludeDepth hstops' hcollects.failure
  have hwarnings : s'.diagnostics.warnings = Item.warnings options.reportDeclarations name reads :=
    hcollects.warnings
  rw [parseSource_eq, heq, hfinal]
  refine ⟨⟨?_, ?_, ?_⟩, ?_, fun hnil => ?_⟩
  · exact hsame.declarations.trans hcollects.finds.declarations
  · exact (hsame.languageVersion.trans hcollects.finds.version).trans (Option.or_none)
  · show _ <+: final.diagnostics.warnings
    rw [hsame.warnings, ← hwarnings]
    exact List.prefix_append _ _
  · rw [← hsuccess]
    exact Option.isNone_iff_eq_none
  · refine hsame.warnings.trans ?_
    rw [← hwarnings]
    show s'.diagnostics.warnings ++ r.strays.map _ = _
    rw [hstrays hnil]
    exact List.append_nil _

/-- **A file that is one stretch succeeds**, and its report says what the stretch says. -/
theorem parseSource_of_stretch {tokens : List Token}
    (h : Item.Stretch options.strictHeader name tokens reads)
    (hcontents : unskipped (Cursor.ofBytes contents).tokens = tokens) :
    (parseSource name contents options).success = true ∧
      (parseSource name contents options).Tells options.reportDeclarations name reads ∧
      (parseSource name contents options).warnings =
        Item.warnings options.reportDeclarations name reads := by
  obtain ⟨stop, hpasses, hstop⟩ := h.passes (hcontents.trans (List.append_nil _).symm) rfl
  have hstops : Item.Stops options.strictHeader name stop := by
    intro item r hread
    have hpending : (Scan.State.mk stop []).pending = [] := hstop
    rw [next?_of_pending_eq_nil hpending] at hread
    cases hread
  obtain ⟨htells, hsuccess, hwarnings⟩ := parseSource_of_passes hpasses hstops
  exact ⟨hsuccess.mpr hstop, htells, hwarnings hstop⟩

/-- **The report on a single file tells what its items say** up to where they stop, and it is a
success exactly if nothing is left there. -/
theorem parseSource_stretch (name : String) (contents : Bytes) (options : Options) :
    let stop := Item.stopIn options.strictHeader name (Cursor.ofBytes contents)
    ∃ tokens reads, unskipped (Cursor.ofBytes contents).tokens = tokens ++ unskipped stop.tokens ∧
      Item.Stretch options.strictHeader name tokens reads ∧
      (parseSource name contents options).Tells options.reportDeclarations name reads ∧
      ((parseSource name contents options).success = true ↔ unskipped stop.tokens = []) := by
  intro stop
  obtain ⟨reads, hpasses, hstops⟩ :=
    Item.exists_passes_stopIn options.strictHeader name (Cursor.ofBytes contents)
  obtain ⟨tokens, htokens, hstretch⟩ := hpasses.exists_stretch
  obtain ⟨htells, hsuccess, -⟩ := parseSource_of_passes hpasses hstops
  exact ⟨tokens, reads, htokens, hstretch, htells, hsuccess⟩

/-- A single file that succeeds is one stretch. -/
theorem exists_stretch_of_success (hsuccess : (parseSource name contents options).success = true) :
    ∃ reads,
      Item.Stretch options.strictHeader name (unskipped (Cursor.ofBytes contents).tokens) reads ∧
        (parseSource name contents options).Tells options.reportDeclarations name reads := by
  obtain ⟨tokens, reads, htokens, hstretch, htells, hiff⟩ :=
    parseSource_stretch name contents options
  rw [hiff.mp hsuccess, List.append_nil] at htokens
  rw [htokens]
  exact ⟨reads, hstretch, htells⟩

end Source

end ZDecl
