import ZDecl.Item

/-!
# The grammar of a file

The language of declarations as rules over significant tokens, without a reader in sight. A rule
relates the tokens of a construct to what the construct means, so that a derivation also says what
is to be found in the file.

* `Grammar.Nested`: tokens with balanced brackets, for one pair of brackets and a rule for the
  tokens between them. A body is balanced in curly braces; an expression is balanced in parentheses,
  has no closing brace anywhere, and neither semicolon nor comma outside of parentheses.
* `Grammar.HeaderPart`: the clauses of a header and the tokens that belong to no clause.
  `HeaderPart.MayPrecede` is the order among them, on pairs.
* **`Grammar.Derives`**: the tokens of one item. **`Grammar.DerivesFile`**: the tokens of a file.
* `Grammar.declared`, `Grammar.includedPaths`, `Grammar.versions`: what is to be found in a file.

Keywords are words up to the case of their ASCII letters, and any of them may serve as a name.
Nothing here asks tokens to be well formed: that is a condition on the whole stream.
-/

namespace ZDecl.Grammar

/-! ## Balanced brackets -/

/-- A pair of brackets, and a rule for the tokens that stand inside of some brackets of the pair and
outside of all. -/
structure Brackets where
  /-- The kind of the opening bracket. -/
  opening : Token.Kind
  /-- The kind of the closing bracket. -/
  closing : Token.Kind
  /-- May a token of this kind, not a bracket, stand inside or outside? -/
  allows : (inside : Bool) → Token.Kind → Bool
  /-- The two brackets can be told apart. -/
  distinct : opening ≠ closing

/-- Curly braces around anything. -/
def braces : Brackets where
  opening := .openCurly
  closing := .closeCurly
  allows _ _ := true
  distinct := by decide

/-- Parentheses in an expression. -/
def parentheses : Brackets where
  opening := .openParen
  closing := .closeParen
  allows inside kind := kind != .closeCurly && (inside || (kind != .semicolon && kind != .comma))
  distinct := by decide

/-- Tokens with balanced brackets, which stand inside of further brackets or outside of all. -/
inductive Nested (b : Brackets) : (inside : Bool) → List Token → Prop where
  /-- No token at all. -/
  | nil {inside : Bool} : Nested b inside []
  /-- A token that is no bracket. -/
  | plain {inside : Bool} {t : Token} {rest : List Token} (hopening : t.kind ≠ b.opening)
      (hclosing : t.kind ≠ b.closing) (hallowed : b.allows inside t.kind = true)
      (hrest : Nested b inside rest) : Nested b inside (t :: rest)
  /-- Two brackets and what stands between them. -/
  | group {inside : Bool} {left right : Token} {inner rest : List Token}
      (hleft : left.kind = b.opening) (hinner : Nested b true inner)
      (hright : right.kind = b.closing) (hrest : Nested b inside rest) :
      Nested b inside (left :: (inner ++ right :: rest))

/-- The tokens of the body of a block. -/
def Body (tokens : List Token) : Prop := Nested braces false tokens

/-- The tokens of an expression. -/
def Expression (tokens : List Token) : Prop := Nested parentheses false tokens

/-! ## Blocks -/

/-- A semicolon or nothing. -/
inductive OptionalSemicolon : List Token → Prop where
  /-- Nothing. -/
  | absent : OptionalSemicolon []
  /-- A semicolon. -/
  | present {t : Token} (h : t.kind = .semicolon) : OptionalSemicolon [t]

/-- A block with the given body. -/
inductive Block : List Token → List Token → Prop where
  /-- The body in curly braces, and perhaps a semicolon. -/
  | mk {left right : Token} {body tail : List Token} (hleft : left.kind = .openCurly)
      (hbody : Body body) (hright : right.kind = .closeCurly) (htail : OptionalSemicolon tail) :
      Block (left :: (body ++ right :: tail)) body

/-! ## Headers -/

/-- What may stand between the name of a type and its body. -/
inductive HeaderPart where
  /-- A colon and the name of the parent. -/
  | parent (colon name : Token)
  /-- The word for replacing and the name of a class. -/
  | replaces (word name : Token)
  /-- The mark for native types. -/
  | native (word : Token)
  /-- A token that belongs to no clause. -/
  | other (t : Token)

namespace HeaderPart

/-- The tokens of the part. -/
def tokens : HeaderPart → List Token
  | parent colon name => [colon, name]
  | replaces word name => [word, name]
  | native word => [word]
  | other t => [t]

/-- Are the tokens the right ones? -/
def WellFormed : HeaderPart → Prop
  | parent colon name => colon.kind = .colon ∧ name.kind = .identifier
  | replaces word name => word.isWord "replaces" = true ∧ name.kind = .identifier
  | native word => word.isWord "native" = true
  | other t => t.kind ≠ .openCurly ∧ t.kind ≠ .colon ∧ t.isWord "replaces" = false ∧
      t.isWord "native" = false

/-- May the first part come somewhere before the second? A parent precedes the replaced class and
the mark for native types, the replaced class precedes the mark, and each comes once. In a strict
header nothing follows the mark. -/
def MayPrecede (strict : Bool) : HeaderPart → HeaderPart → Prop
  | native _, other _ => strict = false
  | native _, _ => False
  | replaces _ _, parent _ _ => False
  | replaces _ _, replaces _ _ => False
  | parent _ _, parent _ _ => False
  | _, _ => True

/-- The header with one more part. -/
def addTo (h : Header) : HeaderPart → Header
  | parent _ name => { h with parent := some name }
  | replaces _ name => { h with replaces := some name }
  | native word => { h with native := some word }
  | other _ => h

end HeaderPart

/-- The header with the given parts. -/
def headerOf (kind : TypeKind) (name : Token) (parts : List HeaderPart) : Header :=
  parts.foldl HeaderPart.addTo (Header.ofName kind name)

/-- The tokens of a header of the given kind. -/
inductive DerivesHeader (strict : Bool) (kind : TypeKind) : List Token → Header → Prop where
  /-- A name and up to four parts in order. -/
  | mk {name : Token} {parts : List HeaderPart} (hname : name.kind = .identifier)
      (hcount : parts.length ≤ 4) (hparts : ∀ part ∈ parts, part.WellFormed)
      (horder : parts.Pairwise (HeaderPart.MayPrecede strict)) :
      DerivesHeader strict kind (name :: parts.flatMap HeaderPart.tokens)
        (headerOf kind name parts)

/-! ## Items and files -/

/-- The words that start an item. -/
def itemWords : List String := ["class", "struct", "const", "enum", "version"]

/-- The tokens of an item of the file `source`. -/
inductive Derives (strict : Bool) (source : String) : List Token → Item → Prop where
  /-- A number sign, the word for inclusion and a string. -/
  | inclusion {hash word path : Token} (hhash : hash.kind = .hash)
      (hword : word.isWord "include" = true) (hpath : path.kind = .string) :
      Derives strict source [hash, word, path] (.inclusion path)
  /-- The word for versions, a string, and perhaps a semicolon. -/
  | version {word text : Token} {tail : List Token} (hword : word.isWord "version" = true)
      (htext : text.kind = .string) (htail : OptionalSemicolon tail) :
      Derives strict source (word :: text :: tail) (.version text.unquoted)
  /-- The word for constants, a name, an equals sign, an expression and a semicolon. -/
  | constant {word name sign semicolon : Token} {value : List Token}
      (hword : word.isWord "const" = true) (hname : name.kind = .identifier)
      (hsign : sign.kind = .assign) (hvalue : Expression value)
      (hsemicolon : semicolon.kind = .semicolon) :
      Derives strict source (word :: name :: sign :: (value ++ [semicolon]))
        (.declaration (.ofName .constant name source value))
  /-- The word for enumerations, a name and a block. -/
  | enumeration {word name : Token} {block body : List Token} (hword : word.isWord "enum" = true)
      (hname : name.kind = .identifier) (hblock : Block block body) :
      Derives strict source (word :: name :: block)
        (.declaration (.ofName .enumeration name source body))
  /-- The word for classes or for structures, a header and a block. -/
  | type {kind : TypeKind} {word : Token} {header block body : List Token} {h : Header}
      (hword : word.isWord kind.word = true) (hheader : DerivesHeader strict kind header h)
      (hblock : Block block body) :
      Derives strict source (word :: (header ++ block)) (.declaration (.ofHeader h source body))
  /-- An identifier that starts no item. -/
  | word {t : Token} (hkind : t.kind = .identifier)
      (hother : ∀ word ∈ itemWords, t.isWord word = false) : Derives strict source [t] (.word t)

/-- The tokens of the file `source`, item by item. -/
inductive DerivesFile (strict : Bool) (source : String) : List Token → List Item → Prop where
  /-- No item at all. -/
  | nil : DerivesFile strict source [] []
  /-- An item and the rest of the file. -/
  | cons {used rest : List Token} {item : Item} {items : List Item}
      (hitem : Derives strict source used item) (hrest : DerivesFile strict source rest items) :
      DerivesFile strict source (used ++ rest) (item :: items)

/-- The paths that some items include, in order. -/
def includedPaths (items : List Item) : List String :=
  items.filterMap fun item =>
    match item with
    | .inclusion path => some path.unquoted
    | _ => none

/-- The declarations among some items, in order. -/
def declared (items : List Item) : List Declaration :=
  items.filterMap fun item =>
    match item with
    | .declaration d => some d
    | _ => none

/-- The versions that some items ask for, in order. -/
def versions (items : List Item) : List String :=
  items.filterMap fun item =>
    match item with
    | .version version => some version
    | _ => none

section Append

variable (items items' : List Item)

/-- The paths that two lists of items include. -/
@[simp] theorem includedPaths_append :
    includedPaths (items ++ items') = includedPaths items ++ includedPaths items' :=
  List.filterMap_append

/-- The declarations in two lists of items. -/
@[simp] theorem declared_append :
    declared (items ++ items') = declared items ++ declared items' :=
  List.filterMap_append

/-- The versions that two lists of items ask for. -/
@[simp] theorem versions_append :
    versions (items ++ items') = versions items ++ versions items' :=
  List.filterMap_append

end Append

end ZDecl.Grammar
