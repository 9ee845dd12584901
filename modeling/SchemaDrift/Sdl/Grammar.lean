import SchemaDrift.Sdl.Document
import SchemaDrift.Sdl.Token

/-! The grammar of schema documents, one token of lookahead and no going back. A document that is
not one is refused at the start of the first token that cannot continue it; two constructs are
refused as a whole once they are read: an extension that adds nothing, at its keyword, and a schema
block that names an operation twice or an unknown one, at its start. -/
namespace SchemaDrift.Sdl

abbrev Parser (α : Type) := StateT Scan (Except Location) α

namespace Parser

def here : Parser Location := do
  match (← get).lexemes with
  | lexeme :: _ => pure lexeme.start
  | [] => pure (← get).stop

def next? : Parser (Option Token) := do pure ((← get).lexemes.head?.map (·.token))

def refuse {α : Type} : Parser α := do throw (← here)

def skip : Parser Unit := modify fun s => { s with lexemes := s.lexemes.drop 1 }

def nextIs (token : Token) : Parser Bool := do pure ((← next?) == some token)

def accept (token : Token) : Parser Bool := do
  if ← nextIs token then skip; pure true else pure false

def expect (token : Token) : Parser Unit := do
  unless ← accept token do refuse

def name : Parser String := do
  match ← next? with
  | some (.name s) => skip; pure s
  | _ => refuse

def many {α : Type} (starts : Token → Bool) (item : Parser α) (s : Scan) :
    Except Location (List α × Scan) :=
  if (s.lexemes.head?.map fun l => starts l.token).getD false then
    match item s with
    | .error e => .error e
    | .ok (a, rest) =>
      if rest.lexemes.length < s.lexemes.length then do
        let (as, last) ← many starts item rest
        .ok (a :: as, last)
      else .ok ([a], rest)
  else .ok ([], s)
termination_by s.lexemes.length

def many1 {α : Type} (starts : Token → Bool) (item : Parser α) : Parser (List α) := do
  let first ← item
  let rest ← many starts item
  pure (first :: rest)

def separated1 {α : Type} (mark : Char) (item : Parser α) : Parser (List α) := do
  let first ← item
  let rest ← many (· == .mark mark) (do skip; item)
  pure (first :: rest)

end Parser

open SchemaDrift.Sdl.Parser

def isName : Token → Bool
  | .name _ => true
  | _ => false

def startsMember : Token → Bool
  | .name _ => true
  | .string _ => true
  | _ => false

def description : Parser Unit := do
  match ← next? with
  | some (.string _) => skip
  | _ => pure ()

def namedValue : String → Expression
  | "true" => .boolean true
  | "false" => .boolean false
  | "null" => .null
  | name => .enumValue name

def startsValue : Token → Bool
  | .mark c => c == '[' || c == '\x7b' || c == '$'
  | _ => true

/- Every level of a value or type has a bracket open around the one below, so the bracket budget
bounds the depth. -/
def nestingBound : Nat := bracketBudget + 1

/-- A value; variables only where they are admitted. Objects are read in ascending order of keys. -/
def value (admitted : Bool) : Nat → Parser Expression
  | 0 => refuse
  | depth + 1 => do
    match ← next? with
    | some (.name s) => skip; pure (namedValue s)
    | some (.integer i) => skip; pure (.integer i)
    | some (.float x) => skip; pure (.float x)
    | some (.string s) => skip; pure (.string s)
    | some (.mark c) =>
      if c = '[' then
        skip
        let items ← many startsValue (value admitted depth)
        expect (.mark ']')
        pure (.list items)
      else if c = '\x7b' then
        skip
        let entries ← many isName do
          let key ← name
          expect (.mark ':')
          let v ← value admitted depth
          pure (key, v)
        expect (.mark '\x7d')
        pure (.object (.sortedOfList entries))
      else if c = '$' && admitted then
        skip
        pure (.ofVariable (← name))
      else refuse
    | none => refuse

def typeReference : Nat → Parser TypeRef
  | 0 => refuse
  | depth + 1 => do
    let inner ← match ← next? with
      | some (.name s) => skip; pure (TypeRef.named s)
      | some (.mark '[') =>
        skip
        let item ← typeReference depth
        expect (.mark ']')
        pure (TypeRef.list item)
      | _ => refuse
    if ← accept (.mark '!') then pure (.nonNull inner) else pure inner

def directiveUse : Parser DirectiveUse := do
  expect (.mark '@')
  let directive ← name
  if ← accept (.mark '(') then
    let arguments ← many1 isName do
      let key ← name
      expect (.mark ':')
      let v ← value true nestingBound
      pure (key, v)
    expect (.mark ')')
    pure ⟨directive, arguments⟩
  else pure ⟨directive, []⟩

def directives : Parser (List DirectiveUse) := many (· == .mark '@') directiveUse

def inputValue : Parser InputValue := do
  let position ← here
  description
  let field ← name
  expect (.mark ':')
  let type ← typeReference nestingBound
  let default ← if ← accept (.mark '=') then some <$> value false nestingBound else pure none
  pure ⟨position, field, type, default, ← directives⟩

def arguments : Parser (List InputValue) := do
  if ← accept (.mark '(') then
    let values ← many1 startsMember inputValue
    expect (.mark ')')
    pure values
  else pure []

def fieldNode : Parser FieldNode := do
  let position ← here
  description
  let field ← name
  let arguments ← arguments
  expect (.mark ':')
  let type ← typeReference nestingBound
  pure ⟨position, field, arguments, type, ← directives⟩

def enumValueNode : Parser EnumValueNode := do
  let position ← here
  description
  let value ← name
  pure ⟨position, value, ← directives⟩

def block {α : Type} (item : Parser α) : Parser (List α) := do
  if ← accept (.mark '\x7b') then
    let items ← many1 startsMember item
    expect (.mark '\x7d')
    pure items
  else pure []

def implemented : Parser (List String) := do
  if ← accept (.name "implements") then
    let _ ← accept (.mark '&')
    separated1 '&' name
  else pure []

def unionMembers : Parser (List String) := do
  if ← accept (.mark '=') then
    let _ ← accept (.mark '|')
    separated1 '|' name
  else pure []

def kindKeyword? : Token → Option TypeKind
  | .name "scalar" => some .scalar
  | .name "type" => some .object
  | .name "interface" => some .interface
  | .name "union" => some .union
  | .name "enum" => some .enum
  | .name "input" => some .inputObject
  | _ => none

def typeAfterKeyword (position : Location) (kind : TypeKind) : Parser TypeNode := do
  let type ← name
  match kind with
  | .scalar => pure ⟨position, type, ← directives, .scalar⟩
  | .object =>
    let interfaces ← implemented
    let uses ← directives
    pure ⟨position, type, uses, .object interfaces (← block fieldNode)⟩
  | .interface =>
    let interfaces ← implemented
    let uses ← directives
    pure ⟨position, type, uses, .interface interfaces (← block fieldNode)⟩
  | .union =>
    let uses ← directives
    pure ⟨position, type, uses, .union (← unionMembers)⟩
  | .enum =>
    let uses ← directives
    pure ⟨position, type, uses, .enum (← block enumValueNode)⟩
  | .inputObject =>
    let uses ← directives
    pure ⟨position, type, uses, .inputObject (← block inputValue)⟩

/-- Whether an extension adds anything. Interfaces alone do not count for an interface. -/
def TypeNode.addsNothing (node : TypeNode) : Bool :=
  node.directives.isEmpty &&
    match node.members with
    | .scalar => true
    | .object interfaces fields => interfaces.isEmpty && fields.isEmpty
    | .interface _ fields => fields.isEmpty
    | .union members => members.isEmpty
    | .enum values => values.isEmpty
    | .inputObject fields => fields.isEmpty

def typeExtension : Parser TypeNode := do
  let position ← here
  match (← next?).bind kindKeyword? with
  | none => refuse
  | some kind =>
    skip
    let node ← typeAfterKeyword position kind
    if node.addsNothing then throw position else pure node

def directiveSites : List String :=
  ["QUERY", "MUTATION", "SUBSCRIPTION", "FIELD", "FRAGMENT_DEFINITION", "FRAGMENT_SPREAD",
   "INLINE_FRAGMENT", "VARIABLE_DEFINITION", "SCHEMA", "SCALAR", "OBJECT", "FIELD_DEFINITION",
   "ARGUMENT_DEFINITION", "INTERFACE", "UNION", "ENUM", "ENUM_VALUE", "INPUT_OBJECT",
   "INPUT_FIELD_DEFINITION"]

def site : Parser String := do
  match ← next? with
  | some (.name s) => if directiveSites.contains s then skip; pure s else refuse
  | _ => refuse

def sites : Parser (List String) := do
  match ← next? with
  | some (.mark '|') => skip; separated1 '|' site
  | some (.name _) => separated1 '|' site
  | _ => pure []

def directiveAfterKeyword (position : Location) : Parser DirectiveNode := do
  expect (.mark '@')
  let directive ← name
  let arguments ← arguments
  let repeatable ← accept (.name "repeatable")
  expect (.name "on")
  pure ⟨position, directive, arguments, repeatable, ← sites⟩

def setRoot? (roots : RootOperations) (operation type : String) : Option RootOperations :=
  match operation, roots with
  | "query", ⟨none, m, s⟩ => some ⟨some type, m, s⟩
  | "mutation", ⟨q, none, s⟩ => some ⟨q, some type, s⟩
  | "subscription", ⟨q, m, none⟩ => some ⟨q, m, some type⟩
  | _, _ => none

def schemaAfterKeyword (position : Location) : Parser Definition := do
  let uses ← directives
  expect (.mark '\x7b')
  let operations ← many isName do
    let operation ← name
    expect (.mark ':')
    let type ← name
    pure (operation, type)
  expect (.mark '\x7d')
  match operations.foldlM (fun roots o => setRoot? roots o.1 o.2) RootOperations.unset with
  | some roots => pure (.schema roots uses)
  | none => throw position

def describedDefinition : Parser Definition := do
  description
  let position ← here
  match ← next? with
  | some (.name "directive") => skip; .directive <$> directiveAfterKeyword position
  | some token =>
    match kindKeyword? token with
    | some kind => skip; .type <$> typeAfterKeyword position kind
    | none => refuse
  | none => refuse

def definition : Parser Definition := do
  let position ← here
  if ← accept (.name "schema") then schemaAfterKeyword position
  else if ← accept (.name "extend") then .extension <$> typeExtension
  else describedDefinition

def document : Parser Document := many1 (fun _ => true) definition

def parseDocument (text : String) : Except Location Document :=
  match document.run (scan text) with
  | .error location => .error location
  | .ok (definitions, rest) =>
    if rest.lexemes.isEmpty && rest.complete then .ok definitions else .error rest.stop

end SchemaDrift.Sdl
