import ZDecl.Token

/-!
# Declarations

What a file declares: classes, structures, constants and enumerations. The body of a declaration is
kept as the run of its tokens.

## Main definitions

* `TypeKind`, `Header`: the header of a class or structure, as tokens.
* `Clauses`, `Declaration`: a declaration as it is recorded.
* `Declaration.summary`: a declaration in one line.
-/

namespace ZDecl

/-! ## Headers -/

/-- The two kinds of type that are declared with a header. -/
inductive TypeKind where
  /-- A class. -/
  | classType
  /-- A structure. -/
  | structType
  deriving DecidableEq, Repr

/-- The word that declares a type of this kind. -/
def TypeKind.word : TypeKind → String
  | classType => "class"
  | structType => "struct"

/-- The header of a class or structure. -/
structure Header where
  /-- The kind of the type. -/
  kind : TypeKind
  /-- The name of the type. -/
  name : Token
  /-- The name after the colon. -/
  parent : Option Token := none
  /-- The name after the word for replacing. -/
  replaces : Option Token := none
  /-- The mark for native types itself. -/
  native : Option Token := none
  deriving DecidableEq, Repr

/-- What a header declares, in messages. -/
def Header.subject (h : Header) : String := s!"{h.kind.word} {h.name.lexeme}"

/-! ## Declarations -/

/-- What a header says of a type besides its name. -/
structure Clauses where
  /-- The name of the parent. -/
  parent : Option String := none
  /-- The name of the class that is replaced. -/
  replaces : Option String := none
  /-- Is the type supplied by the engine? -/
  native : Bool := false
  deriving DecidableEq, Repr

/-- The clauses of a header. -/
def Header.clauses (h : Header) : Clauses where
  parent := h.parent.map Token.lexeme
  replaces := h.replaces.map Token.lexeme
  native := h.native.isSome

/-- What is declared. Only types have clauses. -/
inductive Declaration.Form where
  /-- A class or structure with the clauses of its header. -/
  | type (kind : TypeKind) (clauses : Clauses)
  /-- A constant. -/
  | constant
  /-- An enumeration. -/
  | enumeration
  deriving DecidableEq, Repr

/-- A declaration of a file. -/
structure Declaration where
  /-- What is declared. -/
  form : Declaration.Form
  /-- The declared name. -/
  name : String
  /-- The name of the file. -/
  source : String
  /-- Where the declared name stands in the file. -/
  span : Span
  /-- The tokens between the outer braces, or those of the value of a constant. -/
  body : List Token
  deriving DecidableEq, Repr

namespace Declaration

/-- The word that declares a thing of this form. -/
def Form.word : Form → String
  | type kind _ => kind.word
  | constant => "const"
  | enumeration => "enum"

/-- The clauses of a form; a constant or enumeration has none. -/
def Form.clauses : Form → Clauses
  | type _ clauses => clauses
  | constant | enumeration => {}

/-- The declaration of `name` in the file `source`. -/
def ofName (form : Form) (name : Token) (source : String) (body : List Token) : Declaration :=
  { form, name := name.lexeme, source, span := name.span, body }

/-- The declaration that a header and a body make. -/
def ofHeader (h : Header) (source : String) (body : List Token) : Declaration :=
  ofName (.type h.kind h.clauses) h.name source body

/-- The clauses in words, in the order of a header. -/
def clauseTexts (c : Clauses) : List String :=
  (c.parent.map fun parent => s!"inherits {parent}").toList ++
    (c.replaces.map fun replaced => s!"replaces {replaced}").toList ++
    (if c.native then ["native"] else [])

/-- The declaration in one line. -/
def summary (d : Declaration) : String :=
  let head := s!"Found {d.form.word} {d.name}"
  match clauseTexts d.form.clauses with
  | [] => head
  | texts =>
    let listed := String.intercalate ", " texts
    s!"{head} ({listed})"

end Declaration

end ZDecl
