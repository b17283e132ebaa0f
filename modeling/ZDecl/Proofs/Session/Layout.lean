import ZDecl.Proofs.Scan.Likeness
import ZDecl.Proofs.Session.Existence
import ZDecl.Proofs.Token.Literal
import ZDecl.Report

/-!
# Parsing does not depend on layout

How a source is laid out, with its white space and its comments, decides where its tokens stand and
nothing else. Two sources whose significant tokens read the same lead to the same report, except for
places.

* `Session.Alike`, `Report.Alike`: sessions and reports up to a likeness of their tokens.
* `Parse.Alike`: two parsers that, in like sessions, do the same up to the likeness.
* `Parse.alike_perform`: what like items do; `Parse.alike_items`: what the items of like streams do.
* `parseSource_alike`: the reports on like sources are alike, whatever else the likeness says about
  the places of tokens.
* **`parseSource_layout`**: the reports on sources whose significant tokens have the same kinds and
  texts.
-/

namespace ZDecl

/-! ## Likeness of sessions -/

section Alike

variable (R : Token → Token → Prop)

/-- Are two sessions the same up to the likeness of the tokens that they have read? They may stand
at different places of different files of the same name. -/
structure Session.Alike (s s' : Session) : Prop where
  /-- The same was chosen for them. -/
  options : s'.options = s.options
  /-- They read files of the same name. -/
  name : s'.context.name = s.context.name
  /-- They have visited the same paths. -/
  visited : s'.visited = s.visited
  /-- They are nested equally deep. -/
  depth : s'.depth = s.depth
  /-- They were asked for the same version. -/
  languageVersion : s'.languageVersion = s.languageVersion
  /-- They have failed for the same cause, or not at all. -/
  failure : Option.Rel Failure.Alike s.diagnostics.failure s'.diagnostics.failure
  /-- They have given equally many warnings. -/
  warnings : s'.diagnostics.warnings.length = s.diagnostics.warnings.length
  /-- They have found like declarations. -/
  declarations : List.Forall₂ (Declaration.Alike R) s.declarations s'.declarations

/-- Are two reports the same up to the likeness of tokens? -/
structure Report.Alike (r r' : Report) : Prop where
  /-- The sessions failed for the same cause, or not at all. -/
  failure : Option.Rel Failure.Alike r.failure r'.failure
  /-- They gave equally many warnings. -/
  warnings : r'.warnings.length = r.warnings.length
  /-- They found like declarations. -/
  declarations : List.Forall₂ (Declaration.Alike R) r.declarations r'.declarations
  /-- They were asked for the same version. -/
  languageVersion : r'.languageVersion = r.languageVersion
  /-- They included the same paths. -/
  included : r'.included = r.included

end Alike

variable {R : Token → Token → Prop} {s s' : Session}

namespace Session.Alike

/-- Reporting like failures. The first failures stay. -/
theorem report (h : s.Alike R s') {f g : Failure} (hfg : f.Alike g) :
    (s.report f).Alike R (s'.report g) :=
  { h with
    failure := by
      rw [failure_report, failure_report]
      have hfailure := h.failure
      generalize s.diagnostics.failure = first at hfailure
      generalize s'.diagnostics.failure = first' at hfailure
      cases hfailure with
      | some h => exact .some h
      | none => exact .some hfg }

/-- Taking up files of the same name. -/
theorem resume (h : s.Alike R s') {context context' : Context}
    (hname : context'.name = context.name) : (s.resume context).Alike R (s'.resume context') :=
  { h with name := hname }

/-- Moving on to where like readers stopped. -/
theorem advance (h : s.Alike R s') {r r' : Scan.State} (hr : r.Alike R r') :
    (s.advance r).Alike R (s'.advance r') :=
  { h with
    warnings := by
      simp only [Session.advance, Diagnostics.warnAll, List.length_append, List.length_map,
        h.warnings, hr.strays.length_eq] }

/-- Recording like declarations. -/
theorem record (h : s.Alike R s') {d e : Declaration} (hde : d.Alike R e) :
    (s.record d).Alike R (s'.record e) := by
  have hlength : ∀ c d : Declaration,
      (if s'.options.reportDeclarations then [c.summary] else []).length =
        (if s.options.reportDeclarations then [d.summary] else []).length := by
    intro c d
    rw [h.options]
    split <;> rfl
  rw [record_eq, record_eq]
  exact { h with
    warnings := by
      simp only [Diagnostics.warnAll, List.length_append, h.warnings, hlength e d]
    declarations := List.rel_append h.declarations (.cons hde .nil) }

/-- Like sessions stay alike when they take the same version. -/
theorem setVersion (h : s.Alike R s') (version : String) :
    (s.setVersion version).Alike R (s'.setVersion version) :=
  { h with languageVersion := rfl }

/-- Like sessions stay alike when they enter the same path. -/
theorem enter (h : s.Alike R s') (path : String) : (s.enter path).Alike R (s'.enter path) :=
  { h with
    visited := congrArg (·.insert path) h.visited
    depth := congrArg (· + 1) h.depth }

/-- Like sessions stay alike when they leave a file. -/
theorem leave (h : s.Alike R s') : s.leave.Alike R s'.leave :=
  { h with depth := congrArg (· - 1) h.depth }

/-- Like sessions object to the same paths, for the same reasons. -/
theorem objection? (h : s.Alike R s') (path : String) : s'.objection? path = s.objection? path := by
  simp only [Session.objection?, h.visited]

/-- The reports on like sessions. -/
theorem ofSession (h : s.Alike R s') : (Report.ofSession s).Alike R (.ofSession s') where
  failure := h.failure
  warnings := h.warnings
  declarations := h.declarations
  languageVersion := h.languageVersion
  included := congrArg Visited.paths h.visited

end Session.Alike

/-- New sessions for which the same was chosen. -/
theorem Session.alike_new (options : Options) : (Session.new options).Alike R (.new options) where
  options := rfl
  name := rfl
  visited := rfl
  depth := rfl
  languageVersion := rfl
  failure := .none
  warnings := rfl
  declarations := .nil

/-- Like failures in files of the same name. -/
theorem Failure.Alike.inSource {f g : Failure} (h : f.Alike g) (name : String) :
    (f.inSource name).Alike (g.inSource name) :=
  ⟨h.1, congrArg (·.or (some name)) h.2⟩

/-- Where a failure is placed does not matter. -/
theorem Failure.Alike.placedAt {f g : Failure} (h : f.Alike g) (span span' : Span) :
    (f.placedAt span).Alike (g.placedAt span') := h

/-! ## Likeness of parsers -/

namespace Parse

variable {μ : Type}

/-- Are two outcomes the same up to the likeness of tokens? -/
inductive SameOutcome (R : Token → Token → Prop) :
    EStateM.Result Failure (Session × μ) Unit → EStateM.Result Failure (Session × μ) Unit →
    Prop where
  /-- Two successes. -/
  | ok {s s' : Session} {m : μ} (hs : s.Alike R s') : SameOutcome R (.ok () (s, m)) (.ok () (s', m))
  /-- Two failures. -/
  | error {f g : Failure} {s s' : Session} {m : μ} (h : f.Alike g) (hs : s.Alike R s') :
      SameOutcome R (.error f (s, m)) (.error g (s', m))

/-- The reports after like outcomes. -/
theorem SameOutcome.report {out out' : EStateM.Result Failure (Session × μ) Unit}
    (h : SameOutcome R out out') :
    (Report.ofSession (sessionAfter out)).Alike R (.ofSession (sessionAfter out')) := by
  cases h with
  | ok hs => exact hs.ofSession
  | error _ hs => exact hs.ofSession

/-- **Do two parsers do the same in like sessions?** -/
def Alike (R : Token → Token → Prop) (p q : Parse μ Unit) : Prop :=
  ∀ (s s' : Session) (m : μ), s.Alike R s' → SameOutcome R (p (s, m)) (q (s', m))

/-- Stopping with like failures. -/
theorem alike_fail {f g : Failure} (h : f.Alike g) :
    Alike R (inSession (Session.fail f) : Parse μ Unit) (inSession (Session.fail g)) := by
  intro s s' m hs
  have hnamed : (f.inSource s.context.name).Alike (g.inSource s'.context.name) := by
    rw [hs.name]
    exact h.inSource _
  exact .error hnamed (hs.report hnamed)

/-- Include directives with like paths, if the answers are alike. -/
theorem alike_inclusion (hR : Likeness R) {answer? : Option (String → Parse μ Unit)}
    (hanswer : ∀ answer ∈ answer?, ∀ path, Alike R (answer path) (answer path)) {t u : Token}
    (htu : R t u) : Alike R (inclusion answer? t) (inclusion answer? u) := by
  intro s s' m hs
  have hfail : ∀ cause : Cause,
      Alike R (inSession (Session.fail { cause, span := t.span }) : Parse μ _)
        (inSession (Session.fail { cause, span := u.span })) := fun _ => alike_fail ⟨rfl, rfl⟩
  unfold inclusion
  dsimp only
  rw [hR.unquoted htu, hs.objection?, hs.options]
  cases s.objection? t.unquoted with
  | some cause => exact hfail cause s s' m hs
  | none =>
      cases answer? with
      | none => exact hfail _ s s' m hs
      | some answer =>
          have hout := hanswer answer rfl t.unquoted _ _ m (hs.enter t.unquoted)
          dsimp only
          generalize answer t.unquoted (s.enter t.unquoted, m) = out at hout
          generalize answer t.unquoted (s'.enter t.unquoted, m) = out' at hout
          cases hout with
          | @ok s₁ s₁' m₁ hafter =>
              have hleave := hafter.leave
              have hfailure := hafter.failure
              dsimp only
              generalize s₁.diagnostics.failure = first at hfailure
              generalize s₁'.diagnostics.failure = first' at hfailure
              cases hfailure with
              | some hfg => exact .error hfg hleave
              | none => exact .ok (hleave.resume hs.name)
          | @error f g s₁ s₁' m₁ hfg hafter =>
              have hplaced : ((f.placedAt t.span).inSource s.context.name).Alike
                  ((g.placedAt u.span).inSource s'.context.name) := by
                rw [hs.name]
                exact (hfg.placedAt _ _).inSource _
              have hreport := hafter.leave.report hplaced
              have hfailure := hreport.failure
              refine .error ?_ hreport
              generalize (Session.report _ _).diagnostics.failure = first at hfailure ⊢
              generalize (Session.report _ _).diagnostics.failure = first' at hfailure ⊢
              cases hfailure with
              | some h => exact h
              | none => exact hplaced

/-- What like items do in like sessions. -/
theorem alike_perform {onInclude : Token → Parse μ Unit}
    (hinclude : ∀ t u, R t u → Alike R (onInclude t) (onInclude u)) {item item' : Item}
    (h : item.Alike R item') : Alike R (perform onInclude item) (perform onInclude item') := by
  cases h with
  | word _ => exact fun _ _ _ hs => .ok hs
  | inclusion h => exact hinclude _ _ h
  | version v => exact fun _ _ _ hs => .ok (hs.setVersion v)
  | declaration h => exact fun _ _ _ hs => .ok (hs.record h)

/-- **The items of like streams** do the same in like sessions. -/
theorem alike_items (hR : Likeness R) {onInclude : Token → Parse μ Unit}
    (hinclude : ∀ t u, R t u → Alike R (onInclude t) (onInclude u)) {cursor cursor' : Cursor}
    (h : List.Forall₂ R (unskipped cursor.tokens) (unskipped cursor'.tokens)) :
    Alike R (items onInclude cursor) (items onInclude cursor') := by
  -- On the tokens of the first stream; each item takes one of them at least.
  induction hn : cursor.tokens.length using Nat.strongRecOn generalizing cursor cursor' with
  | ind n ih =>
      intro s s' m hs
      have hnext := Item.alike_next? hR s.options.strictHeader s.context.name
        ⟨cursor, []⟩ ⟨cursor', []⟩ ⟨h, .nil⟩
      generalize hout : Item.next? s.options.strictHeader s.context.name ⟨cursor, []⟩ = out at hnext
      generalize hout' : Item.next? s.options.strictHeader s.context.name ⟨cursor', []⟩ = out'
        at hnext
      rw [← hs.options, ← hs.name] at hout'
      cases hnext with
      | error hfg hr =>
          rw [items_of_error hout, items_of_error hout']
          exact alike_fail hfg _ _ m (hs.advance hr)
      | @ok item item' r r' hitem hr =>
          have hsession := hs.advance hr
          cases hitem with
          | none =>
              rw [items_of_none hout, items_of_none hout']
              exact .ok hsession
          | @some item item' hitem =>
              rw [items_of_some hout, items_of_some hout']
              have hperform := alike_perform hinclude hitem _ _ m hsession
              have hlt : r.cursor.tokens.length < n := hn ▸ Item.length_lt_of_next? hout
              show SameOutcome R (EStateM.bind _ _ _) (EStateM.bind _ _ _)
              unfold EStateM.bind
              generalize perform onInclude item (s.advance r, m) = done at hperform
              generalize perform onInclude item' (s'.advance r', m) = done' at hperform
              cases hperform with
              | ok hafter => exact ih _ hlt hr.pending rfl _ _ _ hafter
              | error hfg hafter => exact .error hfg hafter

section Files

variable {ρ : Type} {handlers : Handlers ρ μ} (role : ρ) (name : String)
  {contents contents' : Bytes}

/-- Files of the same name and with like tokens. -/
theorem alike_fileAt (hR : Likeness R) (hanswer : ∀ levels path,
      Alike R ((handlers role path).perform (fileAt handlers levels))
        ((handlers role path).perform (fileAt handlers levels)))
    (h : List.Forall₂ R (unskipped (Cursor.ofBytes contents).tokens)
      (unskipped (Cursor.ofBytes contents').tokens)) (levels : Nat) :
    Alike R (fileAt handlers levels role { name, contents })
      (fileAt handlers levels role { name, contents := contents' }) := by
  have hinclude : ∀ t u, R t u →
      Alike R (includes handlers role levels t) (includes handlers role levels u) := by
    intro t u htu
    cases levels with
    | zero => exact alike_inclusion hR (by simp) htu
    | succ levels =>
        refine alike_inclusion hR (fun answer hmem path => ?_) htu
        obtain rfl := Option.some.inj hmem
        exact hanswer levels path
  intro s s' m hs
  rw [fileAt_eq]
  unfold fileWith
  dsimp only
  have hfailure := hs.failure
  generalize s.diagnostics.failure = first at hfailure
  generalize s'.diagnostics.failure = first' at hfailure
  cases hfailure with
  | some hfg => exact .error hfg hs
  | none => exact alike_items hR hinclude h _ _ m (hs.resume rfl)

/-- Sessions that start with such files. -/
theorem alike_start (hR : Likeness R) (hanswer : ∀ levels path,
      Alike R ((handlers role path).perform (fileAt handlers levels))
        ((handlers role path).perform (fileAt handlers levels)))
    (h : List.Forall₂ R (unskipped (Cursor.ofBytes contents).tokens)
      (unskipped (Cursor.ofBytes contents').tokens)) :
    Alike R (start handlers role { name, contents })
      (start handlers role { name, contents := contents' }) := by
  intro s s' m hs
  have hfile := alike_fileAt role name hR hanswer h
    (s.options.maxIncludeDepth - s.depth) s s' m hs
  unfold start file
  dsimp only
  rw [hs.options, hs.depth]
  generalize fileAt handlers _ role { name, contents } (s, m) = out at hfile
  generalize fileAt handlers _ role { name, contents := contents' } (s', m) = out' at hfile
  cases hfile with
  | @ok s₁ s₁' m₁ hafter =>
      have hfailure := hafter.failure
      dsimp only
      generalize s₁.diagnostics.failure = first at hfailure
      generalize s₁'.diagnostics.failure = first' at hfailure
      cases hfailure with
      | some hfg => exact .error hfg hafter
      | none => exact .ok hafter
  | @error f g s₁ s₁' m₁ hfg hafter =>
      refine .error ?_ hafter
      have hfailure := hafter.failure
      dsimp only
      generalize s₁.diagnostics.failure = first at hfailure
      generalize s₁'.diagnostics.failure = first' at hfailure
      cases hfailure with
      | some h => exact h
      | none => exact hfg

end Files

end Parse

/-! ## Reports on single files -/

/-- **The reports on like sources are alike**: they differ in places, as far as the likeness allows,
and in the texts of warnings. -/
theorem parseSource_alike (hR : Likeness R) (name : String) {contents contents' : Bytes}
    (options : Options)
    (h : List.Forall₂ R (unskipped (Cursor.ofBytes contents).tokens)
      (unskipped (Cursor.ofBytes contents').tokens)) :
    (parseSource name contents options).Alike R (parseSource name contents' options) := by
  have hrefuse : ∀ (levels : Nat) (path : String), Parse.Alike R
      ((Answer.refuse path : Answer Unit Unit).perform
        (Parse.fileAt (fun _ path => .refuse path) levels))
      ((Answer.refuse path : Answer Unit Unit).perform
        (Parse.fileAt (fun _ path => .refuse path) levels)) :=
    fun _ _ _ _ _ hs => .error (Failure.alike_refl _) hs
  have hstart := Parse.alike_start () name hR hrefuse h _ _ () (Session.alike_new options)
  exact hstart.report

/-! ## Layout -/

/-- Do two tokens read the same? They are well formed, of the same kind, and have the same text,
with and without the quotes of a literal. -/
structure Token.SameText (t u : Token) : Prop where
  /-- The first is well formed. -/
  left_valid : t.valid = true
  /-- So is the second. -/
  right_valid : u.valid = true
  /-- They are of the same kind. -/
  kind : u.kind = t.kind
  /-- They have the same text. -/
  lexeme : u.lexeme = t.lexeme
  /-- Without quotes they have the same text, too. -/
  unquoted : u.unquoted = t.unquoted

/-- Well-formed tokens with the same text read the same. -/
theorem Token.likeness_sameText : Likeness Token.SameText where
  valid := fun h => ⟨h.left_valid, h.right_valid⟩
  kind := fun h => h.kind
  lexeme := fun h => h.lexeme
  unquoted := fun h => h.unquoted

/-- Tokens of two streams read the same if their kinds and texts agree. -/
theorem Token.sameText_of_mem {place place' : Position} {bytes bytes' : Bytes} {t u : Token}
    (ht : t ∈ tokensFrom place bytes) (hu : u ∈ tokensFrom place' bytes')
    (htvalid : t.valid = true) (huvalid : u.valid = true) (hkind : u.kind = t.kind)
    (hlexeme : u.lexeme = t.lexeme) : t.SameText u := by
  obtain ⟨b, rest, hfirst⟩ := exists_first_of_mem ht
  obtain ⟨b', rest', hfirst'⟩ := exists_first_of_mem hu
  refine ⟨htvalid, huvalid, hkind, hlexeme, ?_⟩
  rw [unquoted_eq hfirst htvalid, unquoted_eq hfirst' huvalid, hkind, hlexeme]

/-- The significant tokens of two streams read the same if their kinds and texts agree. -/
theorem sameText_unskipped {contents contents' : Bytes}
    (hvalid : ∀ t ∈ (Cursor.ofBytes contents).tokens, t.valid = true)
    (hvalid' : ∀ t ∈ (Cursor.ofBytes contents').tokens, t.valid = true)
    (h : List.Forall₂ (fun t u => u.kind = t.kind ∧ u.lexeme = t.lexeme)
      ((Cursor.ofBytes contents).tokens.filter (!·.isTrivia))
      ((Cursor.ofBytes contents').tokens.filter (!·.isTrivia))) :
    List.Forall₂ Token.SameText (unskipped (Cursor.ofBytes contents).tokens)
      (unskipped (Cursor.ofBytes contents').tokens) := by
  rw [unskipped_of_valid hvalid, unskipped_of_valid hvalid']
  rw [List.forall₂_iff_zip] at h ⊢
  refine ⟨h.1, fun {t u} hmem => ?_⟩
  have ht := (List.mem_filter.mp (List.of_mem_zip hmem).1).1
  have hu := (List.mem_filter.mp (List.of_mem_zip hmem).2).1
  obtain ⟨hkind, hlexeme⟩ := h.2 hmem
  exact Token.sameText_of_mem ht hu (hvalid t ht) (hvalid' u hu) hkind hlexeme

/-- **Parsing does not depend on layout.** Two sources whose tokens are well formed and whose
significant tokens agree in their kinds and texts lead to the same success or failure with the same
message, the same version and included paths, equally many warnings, and declarations that are the
same but for places. -/
theorem parseSource_layout (name : String) (contents contents' : Bytes) (options : Options)
    (hvalid : ∀ t ∈ (Cursor.ofBytes contents).tokens, t.valid = true)
    (hvalid' : ∀ t ∈ (Cursor.ofBytes contents').tokens, t.valid = true)
    (h : List.Forall₂ (fun t u => u.kind = t.kind ∧ u.lexeme = t.lexeme)
      ((Cursor.ofBytes contents).tokens.filter (!·.isTrivia))
      ((Cursor.ofBytes contents').tokens.filter (!·.isTrivia))) :
    let r := parseSource name contents options
    let r' := parseSource name contents' options
    r'.success = r.success ∧
      r'.failure.map Failure.kind = r.failure.map Failure.kind ∧
      r'.failure.map Failure.message = r.failure.map Failure.message ∧
      r'.languageVersion = r.languageVersion ∧ r'.included = r.included ∧
      r'.warnings.length = r.warnings.length ∧
      List.Forall₂ (Declaration.Alike Token.SameText) r.declarations r'.declarations := by
  have halike := parseSource_alike Token.likeness_sameText name options
    (sameText_unskipped hvalid hvalid' h)
  dsimp only
  generalize parseSource name contents options = r at halike
  generalize parseSource name contents' options = r' at halike
  have hcause : r'.failure.map Failure.cause = r.failure.map Failure.cause := by
    have hfailure := halike.failure
    generalize r.failure = first at hfailure
    generalize r'.failure = first' at hfailure
    cases hfailure with
    | some h => exact congrArg some h.1
    | none => rfl
  refine ⟨?_, ?_, ?_, halike.languageVersion, halike.included, halike.warnings, halike.declarations⟩
  · have := congrArg Option.isNone hcause
    simpa [Report.success] using this
  · have := congrArg (Option.map Cause.kind) hcause
    rwa [Option.map_map, Option.map_map] at this
  · have := congrArg (Option.map Cause.message) hcause
    rwa [Option.map_map, Option.map_map] at this

/-- A class on one line, and the same class with a comment, on several lines. -/
theorem parseSource_layout_of_class :
    let contents := Ascii.bytes "class A \x7b \x7d".toList
    let contents' := Ascii.bytes "class /* the first */ A\n\x7b\n\x7d".toList
    (parseSource "a.zs" contents').success = (parseSource "a.zs" contents).success ∧
      (parseSource "a.zs" contents').warnings.length =
        (parseSource "a.zs" contents).warnings.length ∧
      List.Forall₂ (Declaration.Alike Token.SameText) (parseSource "a.zs" contents).declarations
        (parseSource "a.zs" contents').declarations := by
  have h := parseSource_layout "a.zs" (Ascii.bytes "class A \x7b \x7d".toList)
    (Ascii.bytes "class /* the first */ A\n\x7b\n\x7d".toList) {} (by decide +kernel)
    (by decide +kernel) (by decide +kernel)
  exact ⟨h.1, h.2.2.2.2.2⟩

end ZDecl
