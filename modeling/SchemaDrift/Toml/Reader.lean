import SchemaDrift.Toml.Lexical

/-! Reading TOML text: values, then statements from top to bottom, each of which has to be admissible
in the document so far. -/
namespace SchemaDrift.Toml

def scalar? (cs : List Char) : Option (Toml × List Char) :=
  match cs with
  | 't' :: 'r' :: 'u' :: 'e' :: rest => some (.boolean true, rest)
  | 'f' :: 'a' :: 'l' :: 's' :: 'e' :: rest => some (.boolean false, rest)
  | c :: _ =>
    if c = '"' ∨ c = '\'' then (string? cs).map fun r => (.string (String.ofList r.1), r.2)
    else
      match moment? cs with
      | some r => some r
      | none => number? cs
  | [] => none

def splitKey? (parts : List String) : Option (List String × String) :=
  parts.getLast?.map fun last => (parts.dropLast, last)

def assignment? (fuel : Nat) (value : Reader Toml) (cs : List Char) :
    Option ((List String × String × Toml) × List Char) := do
  let (parts, rest) ← key? fuel cs
  if nestingLimit ≤ parts.length then none
  else
    let (path, key) ← splitKey? parts
    match rest with
    | '=' :: more =>
      let (v, rest) ← value (skipSpace more)
      some ((path, key, v), rest)
    | _ => none

mutual
/-- A value inside `depth` arrays and tables. Every step takes a character, which `fuel` counts. -/
def valueFrom? : Nat → Nat → Reader Toml
  | 0, _, _ => none
  | fuel + 1, depth, cs =>
    match cs with
    | '[' :: rest =>
      if nestingLimit ≤ depth + 1 then none
      else (itemsFrom? fuel (depth + 1) (skipLines rest)).map fun r => (.array r.1, r.2)
    | '\x7b' :: rest =>
      if nestingLimit ≤ depth + 1 then none
      else
        match skipSpace rest with
        | '\x7d' :: rest => some (.table .inline [], rest)
        | rest =>
          (inlineFrom? fuel (depth + 1) [] rest).map fun r => (.table .inline r.1, r.2)
    | _ => scalar? cs

def itemsFrom? : Nat → Nat → Reader (List Toml)
  | 0, _, _ => none
  | fuel + 1, depth, cs =>
    match cs with
    | ']' :: rest => some ([], rest)
    | _ => do
      let (v, rest) ← valueFrom? fuel depth cs
      match skipLines rest with
      | ',' :: rest =>
        let (items, rest) ← itemsFrom? fuel depth (skipLines rest)
        some (v :: items, rest)
      | ']' :: rest => some ([v], rest)
      | _ => none

def inlineFrom? : Nat → Nat → Entries → Reader Entries
  | 0, _, _, _ => none
  | fuel + 1, depth, entries, cs => do
    let ((path, key, v), rest) ← assignment? (cs.length + 1) (valueFrom? fuel depth) cs
    let grown ← addDotted path key v .inline entries
    match skipSpace rest with
    | ',' :: rest => inlineFrom? fuel depth grown rest
    | '\x7d' :: rest => some (grown, rest)
    | _ => none
end

def value? (cs : List Char) : Option (Toml × List Char) := valueFrom? (2 * cs.length + 2) 0 cs

structure Draft where
  entries : Entries
  current : List String
  deriving Repr

def Draft.empty : Draft := ⟨[], []⟩

def Draft.grow (d : Draft) (path : List String) (grow : Growth) : Option Draft :=
  (along false grow path .header d.entries).map fun entries => { d with entries }

def Draft.assign (d : Draft) (path : List String) (key : String) (v : Toml) : Option Draft :=
  d.grow d.current (addDotted path key v)

def header? (cs : List Char) : Option ((List String × String) × List Char) := do
  let (parts, rest) ← key? (cs.length + 1) cs
  if nestingLimit ≤ parts.length then none
  else
    match rest with
    | ']' :: rest => some (← splitKey? parts, rest)
    | _ => none

def statement? (d : Draft) (cs : List Char) : Option (Draft × List Char) :=
  match cs with
  | '[' :: '[' :: rest => do
    let ((path, key), rest) ← header? rest
    match rest with
    | ']' :: rest =>
      let grown ← d.grow path (openElement key)
      some ({ grown with current := path ++ [key] }, rest)
    | _ => none
  | '[' :: rest => do
    let ((path, key), rest) ← header? rest
    let grown ← d.grow path (openTable key)
    some ({ grown with current := path ++ [key] }, rest)
  | _ => do
    let ((path, key, v), rest) ← assignment? (cs.length + 1) value? cs
    some (← d.assign path key v, rest)

def statements? : Nat → Draft → List Char → Option Draft
  | 0, _, _ => none
  | fuel + 1, d, cs =>
    match skipLines cs with
    | [] => some d
    | rest => do
      let (next, after) ← statement? d rest
      statements? fuel next (← endLine? after)

def withoutMark : List Char → List Char
  | '\uFEFF' :: cs => cs
  | cs => cs

def parse? (text : String) : Option Entries :=
  let cs := withoutMark text.toList
  (statements? (cs.length + 1) .empty cs).map (·.entries)

end SchemaDrift.Toml
