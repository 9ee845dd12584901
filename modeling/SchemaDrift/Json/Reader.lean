import SchemaDrift.Json.Number

/-! Reading JSON text. Values deeper than the nesting limit are read but not usable, and so is an
object with a key that is no text. -/
namespace SchemaDrift.Json
open Text

def isSpace (c : Char) : Bool := c == ' ' || c == '\n' || c == '\t' || c == '\r'

def skipSpace (cs : List Char) : List Char := cs.dropWhile isSpace

inductive StringUnit where
  | char (c : Char)
  | code (n : Nat)
  deriving DecidableEq, Repr

def shortEscape? : Char → Option Char
  | '"' => some '"'
  | '\\' => some '\\'
  | '/' => some '/'
  | 'b' => some (Char.ofNat 8)
  | 'f' => some (Char.ofNat 12)
  | 'n' => some '\n'
  | 'r' => some '\r'
  | 't' => some '\t'
  | _ => none

def stringUnits? : List Char → Option (List StringUnit × List Char)
  | [] => none
  | '"' :: cs => some ([], cs)
  | '\\' :: 'u' :: a :: b :: c :: d :: cs => do
    let n ← readHex? [a, b, c, d]
    let (units, rest) ← stringUnits? cs
    some (.code n :: units, rest)
  | '\\' :: c :: cs => do
    let e ← shortEscape? c
    let (units, rest) ← stringUnits? cs
    some (.char e :: units, rest)
  | c :: cs => do
    if c.toNat < 0x20 ∨ c = '\\' then none
    else
      let (units, rest) ← stringUnits? cs
      some (.char c :: units, rest)

def isHighSurrogate (n : Nat) : Bool := 0xD800 ≤ n && n ≤ 0xDBFF

def isLowSurrogate (n : Nat) : Bool := 0xDC00 ≤ n && n ≤ 0xDFFF

/-- The text of units; a surrogate without its other half has none. -/
def unitText? : List StringUnit → Option (List Char)
  | [] => some []
  | .char c :: rest => (unitText? rest).map (c :: ·)
  | .code n :: rest =>
    if isHighSurrogate n then
      match rest with
      | .code m :: tail =>
        if isLowSurrogate m then
          (unitText? tail).map
            (Char.ofNat (0x10000 + (n - 0xD800) * 0x400 + (m - 0xDC00)) :: ·)
        else none
      | _ => none
    else if isLowSurrogate n then none
    else (unitText? rest).map (Char.ofNat n :: ·)

def string? (cs : List Char) : Option (Option String × List Char) := do
  let (units, rest) ← stringUnits? cs
  some ((unitText? units).map String.ofList, rest)

def digits1? (cs : List Char) : Option (List Char × List Char) :=
  match cs.takeWhile isDigit with
  | [] => none
  | ds => some (ds, cs.dropWhile isDigit)

def whole? (cs : List Char) : Option (List Char × List Char) := do
  let (ds, rest) ← digits1? cs
  if ds.head? = some '0' ∧ ds.length ≠ 1 then none else some (ds, rest)

def fraction? (cs : List Char) : Option (Option (List Char) × List Char) :=
  match cs with
  | '.' :: tail => do
    let (ds, rest) ← digits1? tail
    some (some ds, rest)
  | _ => some (none, cs)

def exponentPart? (cs : List Char) : Option (Option (Bool × List Char) × List Char) :=
  match cs with
  | c :: tail =>
    if c = 'e' ∨ c = 'E' then do
      let (negative, digits) := match tail with
        | '-' :: more => (true, more)
        | '+' :: more => (false, more)
        | more => (false, more)
      let (ds, rest) ← digits1? digits
      some (some (negative, ds), rest)
    else some (none, cs)
  | [] => some (none, [])

def number? (cs : List Char) : Option (Json × List Char) := do
  let (negative, unsigned) := match cs with
    | '-' :: tail => (true, tail)
    | _ => (false, cs)
  let (whole, rest) ← whole? unsigned
  let (fraction, rest) ← fraction? rest
  let (exponent, rest) ← exponentPart? rest
  some (NumberText.value ⟨negative, whole, fraction, exponent⟩, rest)

def nestingLimit : Nat := 127

def objectOf (entries : List (Option String × Json)) : Json :=
  match entries.mapM fun e => e.1.map fun key => (key, e.2) with
  | some named => .object named
  | none => .unusable

mutual
/-- A value inside `depth` containers. Every step takes a character, which `fuel` counts. -/
def valueFrom? : Nat → Nat → List Char → Option (Json × List Char)
  | 0, _, _ => none
  | fuel + 1, depth, cs =>
    let guarded (j : Json) : Json := if depth < nestingLimit then j else .unusable
    match skipSpace cs with
    | 'n' :: 'u' :: 'l' :: 'l' :: rest => some (.null, rest)
    | 't' :: 'r' :: 'u' :: 'e' :: rest => some (.boolean true, rest)
    | 'f' :: 'a' :: 'l' :: 's' :: 'e' :: rest => some (.boolean false, rest)
    | '"' :: rest => do
      let (s, rest) ← string? rest
      some ((s.map .string).getD .unusable, rest)
    | '[' :: rest =>
      match skipSpace rest with
      | ']' :: rest => some (guarded (.array []), rest)
      | rest => do
        let (items, rest) ← itemsFrom? fuel (depth + 1) rest
        some (guarded (.array items), rest)
    | '\x7b' :: rest =>
      match skipSpace rest with
      | '\x7d' :: rest => some (guarded (.object []), rest)
      | rest => do
        let (entries, rest) ← entriesFrom? fuel (depth + 1) rest
        some (guarded (objectOf entries), rest)
    | other => number? other

def itemsFrom? : Nat → Nat → List Char → Option (List Json × List Char)
  | 0, _, _ => none
  | fuel + 1, depth, cs => do
    let (j, rest) ← valueFrom? fuel depth cs
    match skipSpace rest with
    | ',' :: rest =>
      let (items, rest) ← itemsFrom? fuel depth rest
      some (j :: items, rest)
    | ']' :: rest => some ([j], rest)
    | _ => none

def entriesFrom? : Nat → Nat → List Char → Option (List (Option String × Json) × List Char)
  | 0, _, _ => none
  | fuel + 1, depth, cs =>
    match skipSpace cs with
    | '"' :: rest => do
      let (key, rest) ← string? rest
      match skipSpace rest with
      | ':' :: rest =>
        let (j, rest) ← valueFrom? fuel depth rest
        match skipSpace rest with
        | ',' :: rest =>
          let (entries, rest) ← entriesFrom? fuel depth rest
          some ((key, j) :: entries, rest)
        | '\x7d' :: rest => some ([(key, j)], rest)
        | _ => none
      | _ => none
    | _ => none
end

def parse? (text : String) : Option Json := do
  let cs := text.toList
  let (j, rest) ← valueFrom? (2 * cs.length + 2) 0 cs
  if (skipSpace rest).isEmpty then some j else none

end SchemaDrift.Json
