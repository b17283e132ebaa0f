import ZDecl.Proofs.Grammar.Braces
import ZDecl.Proofs.Session.Existence
import ZDecl.Report

/-!
# Unbalanced braces do not pass

A single file whose braces are not balanced fails, except in two places where braces are not
counted: an opening brace in the value of a constant, and a closing brace that a header tolerates.
The first leaves its mark in the declaration, the second one a warning. So it is known of every
token of a file that succeeds whether it counts, and those that count are balanced.

* `Parse.Refuses`: include directives that cannot succeed; `parseSource_eq` is a single file as the
  items of its tokens, with such directives.
* `Parse.accounted_of_items`: the braces of the items of a file if no failure is known afterwards.
* **`parseSource_braces`**: the braces of a source that succeeds, token by token.
* `parseSource_passes_unbalanced`: the two places.
-/

namespace ZDecl

open Grammar

/-! ## Sources that include nothing -/

namespace Parse

variable {μ : Type}

/-- Does every include directive fail, so that a failure is known afterwards? -/
def Refuses (onInclude : Token → Parse μ Unit) : Prop :=
  ∀ (t : Token) (s : Session) (m : μ), ∃ f s' m', onInclude t (s, m) = .error f (s', m') ∧
    s'.diagnostics.failure ≠ none

/-- The include directives of a single file. -/
def refusing (levels : Nat) : Token → Parse Unit Unit :=
  includes (fun _ path => .refuse path) () levels

/-- A failure is known after a report. -/
theorem failure_report_ne_none (s : Session) (f : Failure) :
    (s.report f).diagnostics.failure ≠ none := by
  simp [Session.failure_report]

/-- Do two sessions hold the same results? -/
structure SameResults (s s' : Session) : Prop where
  /-- The declarations. -/
  declarations : s'.declarations = s.declarations
  /-- The last version. -/
  languageVersion : s'.languageVersion = s.languageVersion
  /-- The warnings. -/
  warnings : s'.diagnostics.warnings = s.diagnostics.warnings

/-- **An include directive of a single file fails**, and leaves nothing but the failure behind. -/
theorem exists_error_of_refusing (levels : Nat) (t : Token) (s : Session) :
    ∃ f s', refusing levels t (s, ()) = .error f (s', ()) ∧ s'.diagnostics.failure ≠ none ∧
      SameResults s s' := by
  have hfail : ∀ f : Failure, ∃ g s', (inSession (Session.fail f) : Parse Unit Unit) (s, ()) =
      .error g (s', ()) ∧ s'.diagnostics.failure ≠ none ∧ SameResults s s' :=
    fun f => ⟨_, _, rfl, failure_report_ne_none _ _, rfl, rfl, rfl⟩
  cases hobjection : s.objection? t.unquoted with
  | some cause =>
      have h : refusing levels t (s, ()) =
          inSession (Session.fail { cause, span := t.span }) (s, ()) := by
        cases levels <;> simp only [refusing, includes, inclusion, hobjection]
      rw [h]
      exact hfail _
  | none =>
      cases levels with
      | zero =>
          simp only [refusing, includes, inclusion, hobjection]
          exact hfail _
      | succ levels =>
          simp only [refusing, includes, inclusion, hobjection]
          exact ⟨_, _, rfl, failure_report_ne_none _ _, rfl, rfl, rfl⟩

/-- A single file refuses its include directives at every level. -/
theorem refuses_refusing (levels : Nat) : Refuses (refusing levels) := by
  intro t s m
  obtain ⟨f, s', h, hfailure, -⟩ := exists_error_of_refusing levels t s
  exact ⟨f, s', (), h, hfailure⟩

end Parse

/-- The session behind an outcome is the one that the outcome shows. -/
theorem sessionAfter_eq {μ : Type} (out : EStateM.Result Failure (Session × μ) Unit) :
    sessionAfter out = (outcome out).2.1 := by
  cases out <;> rfl

/-- The report on a single file is that on the items of its tokens. -/
theorem parseSource_eq (name : String) (contents : Bytes) (options : Options) :
    parseSource name contents options =
      .ofSession (sessionAfter (Parse.items (Parse.refusing options.maxIncludeDepth)
        (Cursor.ofBytes contents)
        ((Session.new options).resume (Context.ofFile { name, contents }), ()))) := by
  show Report.ofSession (sessionAfter (Parse.start _ _ _ _)) = _
  rw [sessionAfter_eq, outcome_start, sessionAfter_eq]
  show Report.ofSession (outcome (Parse.fileAt _ options.maxIncludeDepth _ _ _)).2.1 = _
  rw [Parse.fileAt_eq]
  rfl

/-! ## Braces of a source -/

namespace Parse

variable {μ : Type} {onInclude : Token → Parse μ Unit}

/-- Was nothing lost between two sessions, and were these declarations found and these stray tokens
met, with a warning about each of them in order? -/
structure Gathers (s s' : Session) (found : List Declaration) (strays : List Stray) : Prop where
  /-- The declarations. -/
  declarations : s'.declarations = s.declarations ++ found
  /-- The warnings. -/
  warnings : ∃ added, s'.diagnostics.warnings = s.diagnostics.warnings ++ added ∧
    (strays.map fun stray => stray.warning s.context.name).Sublist added
  /-- The file is the same. -/
  name : s'.context.name = s.context.name

/-- What is found first and what is found later. -/
theorem Gathers.trans {s s' s'' : Session} {found more : List Declaration}
    {strays later : List Stray} (h : Gathers s s' found strays) (h' : Gathers s' s'' more later) :
    Gathers s s'' (found ++ more) (strays ++ later) where
  declarations := by rw [h'.declarations, h.declarations, List.append_assoc]
  warnings := by
    obtain ⟨added, hadded, hstrays⟩ := h.warnings
    obtain ⟨added', hadded', hlater⟩ := h'.warnings
    refine ⟨added ++ added', by rw [hadded', hadded, List.append_assoc], ?_⟩
    rw [List.map_append]
    rw [h.name] at hlater
    exact hstrays.append hlater
  name := h'.name.trans h.name

/-- Reading on gathers the stray tokens. -/
theorem gathers_advance (s : Session) (r : Scan.State) : Gathers s (s.advance r) [] r.strays where
  declarations := (List.append_nil _).symm
  warnings := ⟨_, rfl, List.Sublist.refl _⟩
  name := rfl

/-- Items that are no include directives are gathered. -/
theorem gathers_of_plain? {s s' : Session} {item : Item} (h : s.plain? item = some s') :
    Gathers s s' (declared [item]) [] := by
  have hnothing : Gathers s s [] [] :=
    ⟨(List.append_nil _).symm, ⟨[], (List.append_nil _).symm, .slnil⟩, rfl⟩
  cases item with
  | inclusion t => cases h
  | word t => cases h; exact hnothing
  | version v => cases h; exact ⟨hnothing.declarations, hnothing.warnings, rfl⟩
  | declaration d =>
      cases h
      rw [Session.record_eq]
      exact ⟨rfl, ⟨_, rfl, List.nil_sublist _⟩, rfl⟩

/-- The values in an item are those of its declaration. -/
theorem flatMap_valueOf_declared (item : Item) :
    (declared [item]).flatMap valueOf = valueBy item := by
  cases item <;> simp [declared, valueBy]

/-- An item succeeds where includes are refused only if it is no include directive. -/
theorem exists_plain?_of_perform (honInclude : Refuses onInclude) (item : Item) (s : Session)
    (m : μ) :
    (∃ s', s.plain? item = some s' ∧ perform onInclude item (s, m) = .ok () (s', m)) ∨
      ∃ f s' m', perform onInclude item (s, m) = .error f (s', m') ∧
        s'.diagnostics.failure ≠ none := by
  cases item with
  | word t => exact .inl ⟨_, rfl, rfl⟩
  | version v => exact .inl ⟨_, rfl, rfl⟩
  | declaration d => exact .inl ⟨_, rfl, rfl⟩
  | inclusion t => exact .inr (honInclude t s m)

section Item

variable {cursor : Cursor} {s : Session} {r : Scan.State} {item : Item}
  (hread : Item.next? s.options.strictHeader s.context.name ⟨cursor, []⟩ = .ok (some item) r)

include hread

/-- The tokens of an item that was read are well formed. -/
theorem forall_valid_of_next? (hrest : ∀ t ∈ unskipped r.cursor.tokens, t.valid = true) :
    ∀ t ∈ unskipped cursor.tokens, t.valid = true := by
  obtain ⟨used, hused, hvalid, -⟩ := exists_derives_of_next? hread
  have hpending : unskipped cursor.tokens = used ++ unskipped r.cursor.tokens := hused
  rw [hpending]
  exact List.forall_mem_append.mpr ⟨hvalid, hrest⟩

/-- The braces of an item and those behind it. -/
theorem accounted_of_item {strays : List Stray} {values : List Token}
    (hrest : Accounted strays values (unskipped r.cursor.tokens)) :
    Accounted (r.strays ++ strays) (valueBy item ++ values) (unskipped cursor.tokens) := by
  obtain ⟨used, more, hused, hmore, hitem⟩ := Scan.accounted_of_next? hread
  have hpending : unskipped cursor.tokens = used ++ unskipped r.cursor.tokens := hused
  have hstrays : r.strays = more := hmore
  rw [hpending, hstrays]
  exact hitem.append hrest

end Item

/-- **The braces of the items of a file are accounted for**, if no failure is known afterwards: by
the values of the constants that were found, and by stray tokens, each with a warning. -/
theorem accounted_of_items (honInclude : Refuses onInclude) {cursor : Cursor} {s final : Session}
    {m : μ} (hfinal : sessionAfter (items onInclude cursor (s, m)) = final)
    (hfailure : final.diagnostics.failure = none) :
    ∃ found strays, Gathers s final found strays ∧
      (∀ t ∈ unskipped cursor.tokens, t.valid = true) ∧
        Accounted strays (found.flatMap valueOf) (unskipped cursor.tokens) := by
  induction hn : cursor.tokens.length using Nat.strongRecOn generalizing cursor s m with
  | ind n ih =>
      cases hread : Item.next? s.options.strictHeader s.context.name ⟨cursor, []⟩ with
      | error f r =>
          rw [items_of_error hread] at hfinal
          subst hfinal
          exact absurd hfailure (failure_report_ne_none _ _)
      | ok item? r =>
          cases item? with
          | none =>
              have hnothing : r.strays = [] := Scan.strays_of_next?_eq_none hread
              rw [items_of_none hread] at hfinal
              subst hfinal
              have hpending : unskipped cursor.tokens = [] := next?_eq_none_iff.mp ⟨r, hread⟩
              rw [hpending]
              exact ⟨[], [], hnothing ▸ gathers_advance s r, by simp, braced_nil.accounted⟩
          | some item =>
              rw [items_of_some hread] at hfinal
              obtain ⟨s', hplain, hperform⟩ | ⟨f, s', m', hperform, hknown⟩ :=
                exists_plain?_of_perform honInclude item (s.advance r) m
              · have hrest : sessionAfter (items onInclude r.cursor (s', m)) = final := by
                  rw [← hfinal, bind_of_ok hperform]
                have hlength : r.cursor.tokens.length < n := hn ▸ Item.length_lt_of_next? hread
                obtain ⟨found, strays, hlater, hvalid, haccounted⟩ := ih _ hlength hrest rfl
                have hitem := (gathers_advance s r).trans (gathers_of_plain? hplain)
                rw [List.nil_append, List.append_nil] at hitem
                refine ⟨_, _, hitem.trans hlater, forall_valid_of_next? hread hvalid, ?_⟩
                rw [List.flatMap_append, flatMap_valueOf_declared]
                exact accounted_of_item hread haccounted
              · have hlast : s' = final := by
                  rw [← hfinal, bind_of_error hperform]
                  rfl
                exact absurd (hlast ▸ hfailure) hknown

end Parse

/-- **Unbalanced braces do not pass.** In a source that succeeds, the tokens are those that count,
those that a header tolerates, and those in the values of the constants that are declared. The
braces of the first are balanced, the second open none, and give a warning each, and the third close
none. So if no warning is about a closing brace, nothing closes a brace that is not open, and the
braces that are left open are those in values. -/
theorem parseSource_braces (name : String) (contents : Bytes) (options : Options)
    (hsuccess : (parseSource name contents options).success = true) :
    let report := parseSource name contents options
    let tokens := (Cursor.ofBytes contents).tokens.filter (!·.isTrivia)
    (∃ (counting : List Token) (strays : List Stray),
      Accounts counting (strays.map Stray.token) (report.declarations.flatMap valueOf) tokens ∧
        (strays.map fun stray => stray.warning name).Sublist report.warnings) ∧
    ((∀ stray : Stray, stray.token.kind = .closeCurly →
        stray.warning name ∉ report.warnings) →
      Braced (report.declarations.map leftOpen).sum tokens) := by
  intro report tokens
  have hreport : report = .ofSession _ := parseSource_eq name contents options
  have hknown : report.success = true := hsuccess
  rw [hreport] at hknown ⊢
  obtain ⟨found, strays, hfound, hvalid, counting, haccounts⟩ := Parse.accounted_of_items
    (Parse.refuses_refusing options.maxIncludeDepth) rfl (Option.isNone_iff_eq_none.mp hknown)
  have hdeclarations : found = _ := hfound.declarations.symm
  obtain ⟨warnings, hwarnings, hstrays⟩ := hfound.warnings
  have hall : warnings = _ := hwarnings.symm
  rw [unskipped_of_valid (valid_of_unskipped hvalid), hdeclarations] at haccounts
  rw [hall] at hstrays
  refine ⟨⟨counting, strays, haccounts, hstrays⟩, fun hnone => ?_⟩
  rw [sum_leftOpen]
  refine haccounts.braced (List.forall_mem_map.mpr fun stray hstray hkind => hnone stray hkind ?_)
  exact hstrays.subset (List.mem_map_of_mem hstray)

/-- A constant with a brace in its value and a class whose header tolerates another one, and the
same constant with a class that has no such header: there the first brace stays open. -/
theorem parseSource_braces_of_constant :
    let mixed := Ascii.bytes "const A = \x7b ; class B \x7d \x7b \x7d".toList
    let constant := Ascii.bytes "const A = \x7b ; class B \x7b \x7b \x7d \x7d".toList
    let report := parseSource "main.zs" mixed
    (report.success = true ∧ ∃ (counting : List Token) (strays : List Stray),
      Accounts counting (strays.map Stray.token) (report.declarations.flatMap valueOf)
          ((Cursor.ofBytes mixed).tokens.filter (!·.isTrivia)) ∧
        (strays.map fun stray => stray.warning "main.zs").Sublist report.warnings) ∧
      Braced 1 ((Cursor.ofBytes constant).tokens.filter (!·.isTrivia)) := by
  intro mixed constant report
  have hmixed : report.success = true := by decide +kernel
  have hnone : (parseSource "main.zs" constant { reportDeclarations := false }).warnings = [] := by
    decide +kernel
  have hopen : ((parseSource "main.zs" constant
      { reportDeclarations := false }).declarations.map leftOpen).sum = 1 := by
    decide +kernel
  have h := (parseSource_braces "main.zs" constant { reportDeclarations := false }
    (by decide +kernel)).2 fun stray _ => hnone ▸ List.not_mem_nil
  rw [hopen] at h
  exact ⟨⟨hmixed, (parseSource_braces "main.zs" mixed {} hmixed).1⟩, h⟩

/-- Two sources that succeed although their braces are not balanced: a header that tolerates a
closing brace, and a constant with an opening one in its value. -/
theorem parseSource_passes_unbalanced :
    let header := Ascii.bytes "class A \x7d \x7b \x7d".toList
    let constant := Ascii.bytes "const A = \x7b ;".toList
    ((parseSource "main.zs" header).success = true ∧
        ¬Braced 0 ((Cursor.ofBytes header).tokens.filter (!·.isTrivia))) ∧
      (parseSource "main.zs" constant).success = true ∧
        ¬Braced 0 ((Cursor.ofBytes constant).tokens.filter (!·.isTrivia)) := by
  refine ⟨⟨by decide +kernel, fun h => ?_⟩, by decide +kernel, fun h => ?_⟩
  · exact absurd h.total (by decide +kernel)
  · exact absurd h.total (by decide +kernel)

end ZDecl
