import ZDecl.Proofs.Scan.Likeness
import ZDecl.Proofs.Session.Stretch
import ZDecl.Proofs.Token.Splice

/-!
# Files put together

Two files that are parsed without a failure may be put together with a line feed between them: no
token and no item reaches over the line feed, not even those that look at what stands behind them.
The declarations of the whole are those of the parts, and those of the second part are moved.

* `Declaration.shift`: a declaration that is moved with all its tokens.
* `Token.Moved`: the likeness between tokens and the same tokens elsewhere.
* `Item.Stretch.alike`, `Item.Stretch.shift`: stretches of like tokens, and a stretch that is moved.
* **`parseSource_append`**: the report on two files put together.
-/

namespace ZDecl

open Grammar Token

/-! ## Stretches of like tokens -/

section Alike

variable {R : Token → Token → Prop} {strict : Bool} {source : String}

/-- An item is read from its tokens alone, and from like tokens a like one. -/
theorem Item.exists_read_alike (hR : Likeness R) {s s' : Scan.State} {item : Item}
    {used used' : List Token} {strays : List Stray}
    (hread : next? strict source s = .ok (some item) s') (hused : s.pending = used ++ s'.pending)
    (hstrays : s'.strays = s.strays ++ strays) (halike : List.Forall₂ R used used') :
    ∃ s₁ item' r, next? strict source s₁ = .ok (some item') r ∧ s₁.pending = used' ++ r.pending ∧
      item.Alike R item' := by
  have hskipped : ∀ t ∈ used, t.isSkipped = false := fun t ht =>
    s.isSkipped_of_mem_pending (hused ▸ List.mem_append_left _ ht)
  let alone := Scan.State.ofTokens used
  let like := Scan.State.ofTokens used'
  have halone : alone.pending = used := Scan.State.pending_ofTokens hskipped
  have hlike : like.pending = used' :=
    Scan.State.pending_ofTokens (hR.forall_isSkipped halike hskipped)
  have hbefore : alone.pending = used ++ [] := by rw [halone, List.append_nil]
  obtain ⟨s₂, hagain, hs₂, -⟩ := next?_again hread hused hstrays hbefore (.inl rfl)
  have hboth : alone.Alike R like := ⟨by rwa [halone, hlike], .nil⟩
  have hsame := alike_next? hR strict source alone like hboth
  rw [hagain] at hsame
  generalize hout : next? strict source like = out at hsame
  cases hsame with
  | @ok _ _ _ r hitem hr =>
      cases hitem with
      | some hitem =>
          -- Nothing is left behind the tokens of the item.
          have hend := hr.pending
          rw [hs₂, List.forall₂_nil_left_iff] at hend
          exact ⟨like, _, r, hout, by rw [hend, List.append_nil, hlike], hitem⟩

/-- Like tokens are a stretch of like items. -/
theorem Item.Stretch.alike (hR : Likeness R) {tokens tokens' : List Token} {reads : List Item.Read}
    (h : Stretch strict source tokens reads) (halike : List.Forall₂ R tokens tokens') :
    ∃ reads', Stretch strict source tokens' reads' ∧
      List.Forall₂ (Item.Alike R) (reads.map Prod.fst) (reads'.map Prod.fst) := by
  induction h generalizing tokens' with
  | nil =>
      cases halike
      exact ⟨[], .nil, .nil⟩
  | @cons s s' item strays used rest reads hread hitem hused hstrays _ ih =>
      have hfirst := List.forall₂_take used.length halike
      have hlater := List.forall₂_drop used.length halike
      rw [List.take_left] at hfirst
      rw [List.drop_left] at hlater
      obtain ⟨reads', hreads', hall⟩ := ih hlater
      obtain ⟨s₁, item', r, hread', hused', hsame⟩ :=
        Item.exists_read_alike hR hread hused hstrays hfirst
      obtain ⟨used', strays', -, hstrays', -⟩ := local_next? hread'
      have hitem' : item'.IncludesNothing := by
        rintro t rfl
        cases hsame with
        | inclusion => exact hitem _ rfl
      rw [← List.take_append_drop used.length tokens']
      exact ⟨_, .cons hread' hitem' hused' hstrays' hreads', .cons hsame hall⟩

end Alike

section Shift

variable (bytes lines : Nat)

/-! ## Declarations that are moved -/

/-- The declaration that stands so many bytes and lines further on. -/
def Declaration.shift (d : Declaration) : Declaration :=
  { d with span := d.span.shift bytes lines, body := d.body.map (Token.shift bytes lines) }

/-- Is the second token the first one, so many bytes and lines further on? Both are well formed. -/
def Token.Moved (t u : Token) : Prop := t.valid = true ∧ u = t.shift bytes lines

/-- Moving well-formed tokens in the stream leaves what they read as. -/
theorem Token.likeness_moved : Likeness (Token.Moved bytes lines) where
  valid := by
    rintro t _ ⟨ht, rfl⟩
    exact ⟨ht, ht⟩
  kind := by
    rintro t _ ⟨-, rfl⟩
    rfl
  lexeme := by
    rintro t _ ⟨-, rfl⟩
    rfl
  unquoted := by
    rintro t _ ⟨-, rfl⟩
    rfl

variable {bytes lines}

/-- Well-formed tokens and the same tokens elsewhere. -/
theorem Token.forall₂_moved_iff {tokens tokens' : List Token} :
    List.Forall₂ (Token.Moved bytes lines) tokens tokens' ↔
      (∀ t ∈ tokens, t.valid = true) ∧ tokens' = tokens.map (Token.shift bytes lines) := by
  induction tokens generalizing tokens' with
  | nil => simp
  | cons t tokens ih =>
      rw [List.forall₂_cons_left_iff, List.forall_mem_cons, List.map_cons]
      constructor
      · rintro ⟨_, more, ⟨ht, rfl⟩, hmore, rfl⟩
        obtain ⟨hvalid, rfl⟩ := ih.mp hmore
        exact ⟨⟨ht, hvalid⟩, rfl⟩
      · rintro ⟨⟨ht, hvalid⟩, rfl⟩
        exact ⟨_, _, ⟨ht, rfl⟩, ih.mpr ⟨hvalid, rfl⟩, rfl⟩

/-- Declarations that are the same up to the place of their tokens. -/
theorem Declaration.Alike.eq_shift {d e : Declaration}
    (h : d.Alike (Token.Moved bytes lines) e) : e = d.shift bytes lines := by
  obtain ⟨hform, hname, hsource, ⟨t, _, ⟨-, rfl⟩, hd, he⟩, hbody⟩ := h
  obtain ⟨-, hbody⟩ := Token.forall₂_moved_iff.mp hbody
  obtain ⟨form, name, source, span, body⟩ := e
  subst hform hname hsource hbody he
  unfold shift
  rw [hd]
  rfl

section Items

variable {items items' : List Item}

/-- What like items declare. -/
theorem declared_of_forall₂_moved
    (h : List.Forall₂ (Item.Alike (Token.Moved bytes lines)) items items') :
    declared items' = (declared items).map (Declaration.shift bytes lines) := by
  induction h with
  | nil => rfl
  | cons h _ ih =>
      cases h with
      | word | inclusion | version => exact ih
      | declaration h =>
          rw [h.eq_shift]
          exact congrArg _ ih

/-- The versions that like items ask for. -/
theorem versions_of_forall₂ {R : Token → Token → Prop}
    (h : List.Forall₂ (Item.Alike R) items items') : versions items' = versions items := by
  induction h with
  | nil => rfl
  | cons h _ ih =>
      cases h with
      | word | inclusion | declaration => exact ih
      | version v => exact congrArg (v :: ·) ih

end Items

/-! ## Stretches that are moved -/

/-- What is passed over is passed over elsewhere, too. -/
theorem unskipped_map_shift (tokens : List Token) :
    unskipped (tokens.map (Token.shift bytes lines)) =
      (unskipped tokens).map (Token.shift bytes lines) := by
  unfold unskipped
  rw [List.filter_map]
  rfl

/-- **A stretch that is moved says the same** in another place. -/
theorem Item.Stretch.shift {strict : Bool} {source : String} {tokens : List Token}
    {reads : List Item.Read} (h : Stretch strict source tokens reads) (bytes lines : Nat) :
    ∃ reads', Stretch strict source (tokens.map (Token.shift bytes lines)) reads' ∧
      List.Forall₂ (Item.Alike (Token.Moved bytes lines)) (reads.map Prod.fst)
        (reads'.map Prod.fst) :=
  h.alike (Token.likeness_moved bytes lines) (Token.forall₂_moved_iff.mpr ⟨h.valid, rfl⟩)

end Shift

/-! ## Two files -/

/-- There is no line feed in a byte order mark. -/
theorem count_unmarked (contents : Bytes) :
    (unmarked contents).count Ascii.lineFeed = contents.count Ascii.lineFeed := by
  unfold unmarked
  rw [offset_firstPosition]
  split
  · next h =>
      obtain ⟨rest, rfl⟩ := List.isPrefixOf_iff_prefix.mp h
      have hnone : byteOrderMark.count Ascii.lineFeed = 0 := by decide
      rw [List.count_append, hnone, Nat.zero_add]
      rfl
  · rfl

/-- Where the second of two files starts: on a line of its own. -/
theorem step_after_firstPosition (contents : Bytes) :
    ((firstPosition contents).after (unmarked contents)).step Ascii.lineFeed =
      Position.start.shift (contents.length + 1) (contents.count Ascii.lineFeed + 1) := by
  have hline : (firstPosition contents).line = 1 := by
    unfold firstPosition
    split <;> rfl
  rw [Position.step, if_pos rfl, Position.offset_after, length_unmarked, Position.line_after, hline,
    count_unmarked]
  simp only [Position.shift, Position.start, Position.mk.injEq, and_true]
  omega

/-- The tokens of two files that are put together, if those of the first one are well formed and the
last one is no full stop. -/
theorem tokens_ofBytes_append {left right : Bytes}
    (hvalid : ∀ t ∈ (Cursor.ofBytes left).tokens, t.valid = true)
    (hlast : ∀ t ∈ (Cursor.ofBytes left).tokens.getLast?, t.kind ≠ .dot)
    (hmark : byteOrderMark.isPrefixOf right = false) :
    unskipped (Cursor.ofBytes (left ++ Ascii.lineFeed :: right)).tokens =
      unskipped (Cursor.ofBytes left).tokens ++ (unskipped (Cursor.ofBytes right).tokens).map
        (Token.shift (left.length + 1) (left.count Ascii.lineFeed + 1)) := by
  have hbytes : (Cursor.ofBytes left).tokens.flatMap Token.bytes = unmarked left :=
    flatMap_bytes_tokensFrom _ _
  have hplace : (Cursor.ofBytes left).stop =
      (firstPosition left).after ((Cursor.ofBytes left).tokens.flatMap Token.bytes) := by
    rw [hbytes]
    rfl
  have hnext : LineEnd (Ascii.lineFeed :: right) := fun c hc => (Option.some.inj hc).symm
  have hsplice := tokens_ofBytes_splice (List.append_nil _).symm hplace hvalid hlast hnext
  have hright : (Cursor.ofBytes right).tokens = tokensFrom Position.start right := by
    simp [Cursor.ofBytes, Cursor.atPosition, firstPosition, hmark, Position.start]
  -- The line feed is a token of its own.
  have hseam : tokensFrom (Cursor.ofBytes left).stop (Ascii.lineFeed :: right) =
      ⟨.newline, true, (Cursor.ofBytes left).stop, [Ascii.lineFeed]⟩ ::
        (Cursor.ofBytes right).tokens.map
          (Token.shift (left.length + 1) (left.count Ascii.lineFeed + 1)) := by
    have hline :=
      @tokensFrom_cons Ascii.lineFeed [] right .newline true rfl (Cursor.ofBytes left).stop
    rw [List.nil_append] at hline
    rw [hline, hright, ← tokensFrom_shift, ← step_after_firstPosition]
    rfl
  rw [offset_stop_ofBytes, List.take_length, hseam] at hsplice
  rw [hsplice, ← unskipped_map_shift, unskipped, List.filter_append]
  rfl

/-- **Parsing is compositional.** Two single files that succeed succeed together, with a line feed
between them. The declarations are those of the first file, followed by those of the second one,
which are moved by the bytes and lines before them. The version is that of the second file, if it
has one, and otherwise that of the first. -/
theorem parseSource_append (name : String) (left right : Bytes) (options : Options)
    (hmark : byteOrderMark.isPrefixOf right = false)
    (hleft : (parseSource name left options).success = true)
    (hright : (parseSource name right options).success = true) :
    let whole := parseSource name (left ++ Ascii.lineFeed :: right) options
    whole.success = true ∧
      whole.declarations = (parseSource name left options).declarations ++
        (parseSource name right options).declarations.map
          (Declaration.shift (left.length + 1) (left.count Ascii.lineFeed + 1)) ∧
      whole.languageVersion = (parseSource name right options).languageVersion.or
        (parseSource name left options).languageVersion := by
  obtain ⟨reads, hstretch, htells⟩ := exists_stretch_of_success hleft
  obtain ⟨reads', hstretch', htells'⟩ := exists_stretch_of_success hright
  obtain ⟨moved, hmoved, hlike⟩ :=
    hstretch'.shift (left.length + 1) (left.count Ascii.lineFeed + 1)
  have hvalid := valid_of_unskipped hstretch.valid
  have hlast := kind_ne_dot_of_unskipped hstretch.kind_ne_dot_of_getLast?
  have htokens := tokens_ofBytes_append hvalid hlast hmark
  obtain ⟨hok, hwhole, -⟩ := parseSource_of_stretch (hstretch.append hmoved) htokens
  refine ⟨hok, ?_, ?_⟩
  · rw [hwhole.declarations, htells.declarations, htells'.declarations, List.map_append,
      declared_append, declared_of_forall₂_moved hlike]
  · rw [hwhole.languageVersion, htells.languageVersion, htells'.languageVersion, List.map_append,
      versions_append, List.getLast?_append, versions_of_forall₂ hlike]

/-- A version and a class, put together with a constant: the constant starts on the third line. -/
theorem parseSource_append_of_constant :
    let left := Ascii.bytes "version \"4.2\"\nclass A \x7b \x7d".toList
    let right := Ascii.bytes "const B = 1;".toList
    let whole := parseSource "a.zs" (left ++ Ascii.lineFeed :: right)
    byteOrderMark.isPrefixOf right = false ∧ (parseSource "a.zs" left).success = true ∧
      (parseSource "a.zs" right).success = true ∧ whole.success = true ∧
      whole.declarations = (parseSource "a.zs" left).declarations ++
        (parseSource "a.zs" right).declarations.map (Declaration.shift 26 2) ∧
      whole.languageVersion = some "4.2" := by
  intro left right whole
  have hmark : byteOrderMark.isPrefixOf right = false := by decide +kernel
  have hleft : (parseSource "a.zs" left).success = true := by decide +kernel
  have hright : (parseSource "a.zs" right).success = true := by decide +kernel
  have hversion : (parseSource "a.zs" right).languageVersion.or
      (parseSource "a.zs" left).languageVersion = some "4.2" := by decide +kernel
  have hlength : left.length + 1 = 26 := by decide +kernel
  have hlines : left.count Ascii.lineFeed + 1 = 2 := by decide +kernel
  obtain ⟨hok, hdeclarations, hwhole⟩ := parseSource_append "a.zs" left right {} hmark hleft hright
  rw [hlength, hlines] at hdeclarations
  exact ⟨hmark, hleft, hright, hok, hdeclarations, hwhole.trans hversion⟩

end ZDecl
