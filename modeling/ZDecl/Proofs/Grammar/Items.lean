import ZDecl.Proofs.Grammar.Headers

/-!
# Items are read by the grammar

For every production a lemma says what its reader accepts. Put together they give the two halves of
one statement about items.

* **`exists_derives_of_next?`**: an item that was read is derived from the tokens that were read.
* **`exists_next?_of_derives`**: an item is read from tokens that derive it, unless a semicolon
  follows that would belong to them.
* `next?_eq_none_iff`: no item is read only at the end of the stream.
-/

namespace ZDecl.Grammar

open Scan Item HeaderPart

variable {strict : Bool} {source : String}

/-! ## The productions -/

/-- The reader of directives accepts the word for inclusion and a string. -/
theorem accepts_directive :
    Accepts directive fun used item _ => ∃ word path : Token, used = [word, path] ∧
      word.isWord "include" = true ∧ path.kind = .string ∧ item = .inclusion path := by
  have hinclude : ∀ name : Token, Accepts
      (if name.keyword? = some .includeWord then
        return .inclusion (← expect .string "include path string")
      else fail (.unknownDirective name.lexeme) name.span : Scan Item)
      fun used item _ => ∃ path, used = [path] ∧ name.isWord "include" = true ∧
        path.kind = .string ∧ item = .inclusion path := by
    intro name
    have hword : name.keyword? = some .includeWord ↔ name.isWord "include" = true :=
      Token.keyword?_eq_some_iff (k := .includeWord)
    split
    · next h =>
        refine ((accepts_expect _ _).bind fun path => accepts_pure _).congr
          fun used item rest => ?_
        constructor
        · rintro ⟨_, path, _, rfl, ⟨rfl, hpath⟩, rfl, rfl⟩
          exact ⟨path, rfl, hword.mp h, hpath, rfl⟩
        · rintro ⟨path, rfl, -, hpath, rfl⟩
          exact ⟨[path], path, [], rfl, ⟨rfl, hpath⟩, rfl, rfl⟩
    · next h =>
        refine (stops_fail _ _).accepts.congr fun used item rest => ?_
        constructor
        · exact False.elim
        · rintro ⟨path, -, hname, -⟩
          exact h (hword.mpr hname)
  refine ((accepts_expectIdentifier _).bind hinclude).congr fun used item rest => ?_
  constructor
  · rintro ⟨_, word, _, rfl, ⟨rfl, -⟩, path, rfl, hword, hpath, rfl⟩
    exact ⟨word, path, rfl, hword, hpath, rfl⟩
  · rintro ⟨word, path, rfl, hword, hpath, rfl⟩
    exact ⟨[word], word, [path], rfl, ⟨rfl, (Token.isWord_eq_true_iff.mp hword).1⟩, path, rfl,
      hword, hpath, rfl⟩

/-- The reader of version directives accepts a string, and a semicolon that follows it. -/
theorem accepts_versionDirective :
    Accepts versionDirective fun used item rest => ∃ (text : Token) (tail : List Token),
      used = text :: tail ∧ text.kind = .string ∧ TakesSemicolon tail rest ∧
        item = .version text.unquoted := by
  refine ((accepts_expect _ _).bind fun text => accepts_semicolon.bind fun _ =>
    accepts_pure _).congr fun used item rest => ?_
  constructor
  · rintro ⟨_, text, _, rfl, ⟨rfl, htext⟩, tail, -, _, rfl, htail, rfl, rfl⟩
    exact ⟨text, tail, by simp, htext, by simpa using htail, rfl⟩
  · rintro ⟨text, tail, rfl, htext, htail, rfl⟩
    exact ⟨[text], text, tail, rfl, ⟨rfl, htext⟩, tail, (), [], by simp, by simpa using htail,
      rfl, rfl⟩

/-- The reader of constants accepts a name, an equals sign, an expression and a semicolon. What ends
the expression is the semicolon, so its parentheses are balanced. -/
theorem accepts_constant :
    Accepts (constant source) fun used item _ => ∃ (name sign semicolon : Token)
      (value : List Token), used = name :: sign :: (value ++ [semicolon]) ∧
        name.kind = .identifier ∧ sign.kind = .assign ∧ Expression value ∧
          semicolon.kind = .semicolon ∧
            item = .declaration (.ofName .constant name source value) := by
  refine ((accepts_expectIdentifier _).bind fun name => (accepts_expect _ _).bind fun _ =>
    accepts_expression.bind fun value => (accepts_expect _ _).bind fun _ =>
      accepts_pure _).congr_of_valid fun used item rest hvalid => ?_
  constructor
  · rintro ⟨_, name, _, rfl, ⟨rfl, hname⟩, _, sign, _, rfl, ⟨rfl, hsign⟩, value, _, _, rfl,
      ⟨rfl, last, more, after, hlast, -, hafter, hends⟩, _, semicolon, _, rfl,
      ⟨rfl, hsemicolon⟩, rfl, rfl⟩
    obtain ⟨rfl, -⟩ := List.cons.inj hlast
    exact ⟨name, sign, semicolon, value, by simp, hname, hsign,
      (expression_iff hsemicolon).mpr ⟨after, hafter, hends⟩, hsemicolon, rfl⟩
  · rintro ⟨name, sign, semicolon, value, rfl, hname, hsign, hvalue, hsemicolon, rfl⟩
    obtain ⟨after, hafter, hends⟩ := (expression_iff hsemicolon).mp hvalue
    have hlast : semicolon.valid = true := hvalid semicolon (by simp)
    exact ⟨[name], name, sign :: (value ++ [semicolon]), rfl, ⟨rfl, hname⟩, [sign], sign,
      value ++ [semicolon], rfl, ⟨rfl, hsign⟩, value, value, [semicolon], rfl,
      ⟨rfl, semicolon, rest, after, rfl, hlast, hafter, hends⟩, [semicolon], semicolon, [], rfl,
      ⟨rfl, hsemicolon⟩, rfl, rfl⟩

/-- The reader of enumerations accepts a name and a block. -/
theorem accepts_enumeration :
    Accepts (enumeration source) fun used item rest => ∃ (name : Token) (block body : List Token),
      used = name :: block ∧ name.kind = .identifier ∧ TakesBlock block body rest ∧
        item = .declaration (.ofName .enumeration name source body) := by
  refine ((accepts_expectIdentifier _).bind fun name => accepts_block.bind fun body =>
    accepts_pure _).congr fun used item rest => ?_
  constructor
  · rintro ⟨_, name, _, rfl, ⟨rfl, hname⟩, block, body, _, rfl, hblock, rfl, rfl⟩
    exact ⟨name, block, body, by simp, hname, by simpa using hblock, rfl⟩
  · rintro ⟨name, block, body, rfl, hname, hblock, rfl⟩
    exact ⟨[name], name, block, rfl, ⟨rfl, hname⟩, block, body, [], by simp,
      by simpa using hblock, rfl, rfl⟩

/-- The reader of types accepts a header and a block. The brace that opens the block ends the
header, even where the header could have more parts. -/
theorem accepts_typeDeclaration (kind : TypeKind) :
    Accepts (typeDeclaration strict source kind) fun used item rest =>
      ∃ (header block body : List Token) (h : Header), used = header ++ block ∧
        DerivesHeader strict kind header h ∧ TakesBlock block body rest ∧
          item = .declaration (.ofHeader h source body) := by
  refine ((accepts_header strict kind).bind fun h => accepts_block.bind fun body =>
    accepts_pure _).congr_of_valid fun used item rest hvalid => ?_
  constructor
  · rintro ⟨header, h, _, rfl, ⟨name, parts, rfl, hname, hcount, hparts, horder, rfl, -⟩, block,
      body, _, rfl, hblock, rfl, rfl⟩
    exact ⟨name :: parts.flatMap tokens, block, body, _, by simp,
      .mk hname hcount hparts horder, by simpa using hblock, rfl⟩
  · rintro ⟨header, block, body, h, rfl, hheader, hblock, rfl⟩
    have hstart : startsWith .openCurly (block ++ rest) = true := by
      obtain ⟨left, right, tail, rfl, hleft, -⟩ := hblock
      simp [hleft, hvalid left (by simp)]
    cases hheader with
    | mk hname hcount hparts horder =>
        exact ⟨_, _, block, rfl, ⟨_, _, rfl, hname, hcount, hparts, horder, rfl,
          .inr (.inr hstart)⟩, block, body, [], by simp, by simpa using hblock, rfl, rfl⟩

/-! ## Items -/

/-- A word starts no item if it is none of the keywords that do. -/
theorem forall_itemWords_iff {t : Token} :
    (∀ word ∈ itemWords, t.isWord word = false) ↔
      t.keyword? ≠ some .classWord ∧ t.keyword? ≠ some .structWord ∧
        t.keyword? ≠ some .constWord ∧ t.keyword? ≠ some .enumWord ∧
          t.keyword? ≠ some .versionWord := by
  simp [itemWords, Token.keyword?_eq_some_iff, Keyword.spelling]

/-- Does the reader of the rest of an item only give items that are derived from `t` and what it
has read? -/
def GivesDerived (strict : Bool) (source : String) (t : Token) (p : Scan Item) : Prop :=
  ∀ (s s' : State) (item : Item), p s = .ok item s' →
    ∃ used, s.pending = used ++ s'.pending ∧ (∀ u ∈ used, u.valid = true) ∧
      Derives strict source (t :: used) item

/-- A reader gives items that are derived if all that it accepts is. -/
theorem givesDerived_of_accepts {t : Token} {p : Scan Item}
    {P : List Token → Item → List Token → Prop} (h : Accepts p P)
    (hP : ∀ used item rest, P used item rest → Derives strict source (t :: used) item) :
    GivesDerived strict source t p := by
  intro s s' item hp
  obtain ⟨used, hs, hv, hused⟩ := h.of_ok hp
  exact ⟨used, hs, hv, hP used item _ hused⟩

/-- What is read after the first token of an item derives the item together with it. -/
theorem givesDerived_startingWith (strict : Bool) (source : String) (t : Token) :
    GivesDerived strict source t (startingWith strict source t) := by
  have htype : ∀ kind : TypeKind, t.isWord kind.word = true →
      GivesDerived strict source t (typeDeclaration strict source kind) := by
    intro kind hword
    refine givesDerived_of_accepts (accepts_typeDeclaration kind) fun used item rest => ?_
    rintro ⟨header, block, body, h, rfl, hheader, hblock, rfl⟩
    exact .type hword hheader hblock.block
  have hspelling : ∀ {k : Keyword}, t.keyword? = some k → t.isWord k.spelling = true :=
    Token.keyword?_eq_some_iff.mp
  unfold startingWith
  split
  · next hkind =>
      refine givesDerived_of_accepts accepts_directive fun used item rest => ?_
      rintro ⟨word, path, rfl, hword, hpath, rfl⟩
      exact .inclusion hkind hword hpath
  · next hkind =>
      split
      · next hk =>
          have hword := hspelling hk
          exact htype .classType hword
      · next hk =>
          have hword := hspelling hk
          exact htype .structType hword
      · next hk =>
          have hword := hspelling hk
          refine givesDerived_of_accepts accepts_constant fun used item rest => ?_
          rintro ⟨name, sign, semicolon, value, rfl, hname, hsign, hvalue, hsemicolon, rfl⟩
          exact .constant hword hname hsign hvalue hsemicolon
      · next hk =>
          have hword := hspelling hk
          refine givesDerived_of_accepts accepts_enumeration fun used item rest => ?_
          rintro ⟨name, block, body, rfl, hname, hblock, rfl⟩
          exact .enumeration hword hname hblock.block
      · next hk =>
          have hword := hspelling hk
          refine givesDerived_of_accepts accepts_versionDirective fun used item rest => ?_
          rintro ⟨text, tail, rfl, htext, htail, rfl⟩
          exact .version hword htext htail.optional
      · next hclass hstruct hconst henum hversion =>
          refine givesDerived_of_accepts (accepts_pure _) fun used item rest => ?_
          rintro ⟨rfl, rfl⟩
          exact .word hkind
            (forall_itemWords_iff.mpr ⟨hclass, hstruct, hconst, henum, hversion⟩)
  · exact givesDerived_of_accepts (stops_fail _ _).accepts fun _ _ _ => False.elim
  · exact givesDerived_of_accepts (stops_fail _ _).accepts fun _ _ _ => False.elim
  · exact givesDerived_of_accepts (stops_fail _ _).accepts fun _ _ _ => False.elim

/-- The reader of the rest of an item succeeds on tokens that derive an item. -/
theorem exists_startingWith_of_derives {t : Token} {used rest : List Token} {item : Item}
    (h : Derives strict source (t :: used) item) {s : State} (hs : s.pending = used ++ rest)
    (hv : ∀ u ∈ used, u.valid = true) (hrest : startsWith .semicolon rest = false) :
    ∃ s', startingWith strict source t s = .ok item s' ∧ s'.pending = rest := by
  have hkeyword : ∀ k : Keyword, t.isWord k.spelling = true →
      t.kind = .identifier ∧ t.keyword? = some k := fun k hk =>
    ⟨(Token.isWord_eq_true_iff.mp hk).1, Token.keyword?_eq_some_iff.mpr hk⟩
  cases h with
  | inclusion hhash hword hpath =>
      rw [show startingWith strict source t = directive by simp [startingWith, hhash]]
      exact accepts_directive.exists_ok hs hv ⟨_, _, rfl, hword, hpath, rfl⟩
  | version hword htext htail =>
      obtain ⟨hkind, hk⟩ := hkeyword .versionWord hword
      rw [show startingWith strict source t = versionDirective by simp [startingWith, hkind, hk]]
      exact accepts_versionDirective.exists_ok hs hv ⟨_, _, rfl, htext, htail.takes hrest, rfl⟩
  | constant hword hname hsign hvalue hsemicolon =>
      obtain ⟨hkind, hk⟩ := hkeyword .constWord hword
      rw [show startingWith strict source t = constant source by simp [startingWith, hkind, hk]]
      exact accepts_constant.exists_ok hs hv
        ⟨_, _, _, _, rfl, hname, hsign, hvalue, hsemicolon, rfl⟩
  | enumeration hword hname hblock =>
      obtain ⟨hkind, hk⟩ := hkeyword .enumWord hword
      rw [show startingWith strict source t = enumeration source by simp [startingWith, hkind, hk]]
      exact accepts_enumeration.exists_ok hs hv ⟨_, _, _, rfl, hname, hblock.takes hrest, rfl⟩
  | @type kind _ _ _ _ _ hword hheader hblock =>
      have hread : startingWith strict source t = typeDeclaration strict source kind := by
        cases kind with
        | classType =>
            obtain ⟨hkind, hk⟩ := hkeyword .classWord hword
            simp [startingWith, hkind, hk]
        | structType =>
            obtain ⟨hkind, hk⟩ := hkeyword .structWord hword
            simp [startingWith, hkind, hk]
      rw [hread]
      exact (accepts_typeDeclaration kind).exists_ok hs hv
        ⟨_, _, _, _, rfl, hheader, hblock.takes hrest, rfl⟩
  | word hkind hother =>
      have hread : startingWith strict source t = pure (.word t) := by
        obtain ⟨hclass, hstruct, hconst, henum, hversion⟩ := forall_itemWords_iff.mp hother
        unfold startingWith
        rw [hkind]
        dsimp only
        split
        · next hk => exact absurd hk hclass
        · next hk => exact absurd hk hstruct
        · next hk => exact absurd hk hconst
        · next hk => exact absurd hk henum
        · next hk => exact absurd hk hversion
        · rfl
      rw [hread]
      exact ⟨s, rfl, hs⟩

/-- At the end of the stream there is no item. -/
theorem next?_of_pending_eq_nil {s : State} (hs : s.pending = []) :
    Item.next? strict source s = .ok none s.afterNext := by
  unfold Item.next?
  rw [next_bind_eq, hs]
  rfl

/-- The first significant token starts an item. -/
theorem next?_of_pending_eq_cons {s : State} {t : Token} {tail : List Token}
    (hs : s.pending = t :: tail) :
    Item.next? strict source s = (some <$> startingAt strict source t) s.afterNext := by
  unfold Item.next?
  rw [next_bind_eq, hs]
  rfl

/-- No item is read only at the end of the stream. -/
theorem next?_eq_none_iff {s : State} :
    (∃ s', Item.next? strict source s = .ok none s') ↔ s.pending = [] := by
  constructor
  · rintro ⟨s', h⟩
    cases hs : s.pending with
    | nil => rfl
    | cons t tail =>
        rw [next?_of_pending_eq_cons hs] at h
        obtain ⟨item, s₁, -, h⟩ := bind_eq_ok_iff.mp h
        cases h
  · intro hs
    exact ⟨_, next?_of_pending_eq_nil hs⟩

/-- **An item that was read is derived** from the tokens that were read, and these are well
formed. -/
theorem exists_derives_of_next? {s s' : State} {item : Item}
    (h : Item.next? strict source s = .ok (some item) s') :
    ∃ used, s.pending = used ++ s'.pending ∧ (∀ t ∈ used, t.valid = true) ∧
      Derives strict source used item := by
  have hafter := s.pending_afterNext
  cases hs : s.pending with
  | nil =>
      rw [next?_of_pending_eq_nil hs] at h
      cases h
  | cons t tail =>
      rw [next?_of_pending_eq_cons hs] at h
      obtain ⟨found, s₁, hstart, h⟩ := bind_eq_ok_iff.mp h
      cases h
      rw [hs, List.tail_cons] at hafter
      unfold startingAt at hstart
      by_cases ht : t.valid = true
      · rw [if_pos ht] at hstart
        obtain ⟨used, hused, hv, hderives⟩ := givesDerived_startingWith _ _ _ _ _ _ hstart
        refine ⟨t :: used, ?_, ?_, hderives⟩
        · rw [List.cons_append, ← hused, hafter]
        · intro u hu
          exact (List.mem_cons.mp hu).elim (fun h => h ▸ ht) (hv u)
      · rw [if_neg ht] at hstart
        cases hstart

/-- No item is derived from no tokens, and none starts with a semicolon. -/
theorem exists_cons_of_derives {used : List Token} {item : Item}
    (h : Derives strict source used item) :
    ∃ t more, used = t :: more ∧ t.kind ≠ .semicolon := by
  have hword : ∀ {t : Token} {word : String}, t.isWord word = true → t.kind ≠ .semicolon := by
    intro t word ht
    rw [(Token.isWord_eq_true_iff.mp ht).1]
    decide
  cases h with
  | inclusion hhash _ _ => exact ⟨_, _, rfl, by simp [hhash]⟩
  | version hw _ _ => exact ⟨_, _, rfl, hword hw⟩
  | constant hw _ _ _ _ => exact ⟨_, _, rfl, hword hw⟩
  | enumeration hw _ _ => exact ⟨_, _, rfl, hword hw⟩
  | type hw _ _ => exact ⟨_, _, rfl, hword hw⟩
  | word hkind _ => exact ⟨_, _, rfl, by simp [hkind]⟩

/-- **An item is read from well-formed tokens that derive it**, unless a semicolon follows that
would belong to it. -/
theorem exists_next?_of_derives {s : State} {used rest : List Token} {item : Item}
    (h : Derives strict source used item) (hs : s.pending = used ++ rest)
    (hv : ∀ t ∈ used, t.valid = true) (hrest : startsWith .semicolon rest = false) :
    ∃ s', Item.next? strict source s = .ok (some item) s' ∧ s'.pending = rest := by
  obtain ⟨t, more, rfl, -⟩ := exists_cons_of_derives h
  have hafter : s.afterNext.pending = more ++ rest := by
    rw [s.pending_afterNext, hs]
    rfl
  obtain ⟨s', hread, hs'⟩ := exists_startingWith_of_derives h hafter
    (fun u hu => hv u (List.mem_cons_of_mem _ hu)) hrest
  refine ⟨s', ?_, hs'⟩
  rw [next?_of_pending_eq_cons hs]
  refine bind_eq_ok_iff.mpr ⟨item, s', ?_, rfl⟩
  rw [startingAt, if_pos (hv t List.mem_cons_self), hread]

/-- What a file is derived from starts with no semicolon. -/
theorem startsWith_semicolon_of_derivesFile {tokens : List Token} {items : List Item}
    (h : DerivesFile strict source tokens items) : startsWith .semicolon tokens = false := by
  cases h with
  | nil => rfl
  | cons hitem _ =>
      obtain ⟨t, more, rfl, ht⟩ := exists_cons_of_derives hitem
      simp [ht]

end ZDecl.Grammar
