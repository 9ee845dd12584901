import SchemaDrift.Binary64.Notation
import SchemaDrift.Toml
import SchemaDrift.Word

/-! The words of TOML text: blanks, comments, keys, strings, numbers, and dates with times. Each
reader gives its value and the rest of the text. -/
namespace SchemaDrift.Toml
open Text

abbrev Reader (α : Type) := List Char → Option (α × List Char)

def isSpace (c : Char) : Bool := c == ' ' || c == '\t'

def skipSpace (cs : List Char) : List Char := cs.dropWhile isSpace

def isControl (c : Char) : Bool := (c.toNat < 0x20 && c != '\t') || c.toNat == 0x7F

def newLine? : List Char → Option (List Char)
  | '\n' :: cs => some cs
  | '\r' :: '\n' :: cs => some cs
  | _ => none

def comment? : List Char → Option (List Char)
  | '#' :: cs => some (cs.dropWhile (!isControl ·))
  | _ => none

def skipComment (cs : List Char) : List Char := (comment? cs).getD cs

def endLine? (cs : List Char) : Option (List Char) :=
  match skipComment (skipSpace cs) with
  | [] => some []
  | rest => newLine? rest

def skipLinesFrom (comment : Bool) : List Char → List Char
  | '\r' :: '\n' :: cs => skipLinesFrom false cs
  | c :: cs =>
    if c = '\n' then skipLinesFrom false cs
    else if comment then (if isControl c then c :: cs else skipLinesFrom true cs)
    else if isSpace c then skipLinesFrom false cs
    else if c = '#' then skipLinesFrom true cs
    else c :: cs
  | [] => []

def skipLines (cs : List Char) : List Char := skipLinesFrom false cs

def skipBreaks : List Char → List Char
  | '\r' :: '\n' :: cs => skipBreaks cs
  | c :: cs => if isSpace c ∨ c = '\n' then skipBreaks cs else c :: cs
  | [] => []

def scalarOf? (n : Nat) : Option Char := if n.isValidChar then some (Char.ofNat n) else none

def escape? : Reader Char
  | 'b' :: cs => some (Char.ofNat 8, cs)
  | 't' :: cs => some ('\t', cs)
  | 'n' :: cs => some ('\n', cs)
  | 'f' :: cs => some (Char.ofNat 12, cs)
  | 'r' :: cs => some ('\r', cs)
  | '"' :: cs => some ('"', cs)
  | '\\' :: cs => some ('\\', cs)
  | 'u' :: a :: b :: c :: d :: cs => do
    some (← scalarOf? (← readHex? [a, b, c, d]), cs)
  | 'U' :: a :: b :: c :: d :: e :: f :: g :: h :: cs => do
    some (← scalarOf? (← readHex? [a, b, c, d, e, f, g, h]), cs)
  | _ => none

theorem escapeShorter {cs rest : List Char} {c : Char} (h : escape? cs = some (c, rest)) :
    rest.length < cs.length := by
  unfold escape? at h
  split at h <;>
    simp only [bind, Option.bind_eq_some_iff, Option.some.injEq, Prod.mk.injEq, reduceCtorEq] at h
  all_goals first
    | (rw [← h.2]; simp)
    | (obtain ⟨_, _, _, _, _, e⟩ := h; rw [← e]; simp only [List.length_cons]; omega)

def basicString? : Reader (List Char)
  | [] => none
  | c :: cs =>
    if c = '"' then some ([], cs)
    else if c = '\\' then
      match _h : escape? cs with
      | none => none
      | some (e, rest) => (basicString? rest).map fun r => (e :: r.1, r.2)
    else if isControl c then none
    else (basicString? cs).map fun r => (c :: r.1, r.2)
termination_by cs => cs.length
decreasing_by
  · have := escapeShorter _h; simp only [List.length_cons]; omega
  · simp

def literalString? (cs : List Char) : Option (List Char × List Char) :=
  let s := cs.takeWhile fun c => c != '\'' && !isControl c
  match cs.drop s.length with
  | '\'' :: rest => some (s, rest)
  | _ => none

def afterOpening (cs : List Char) : List Char := (newLine? cs).getD cs

def closing? (run : Nat) : Option Nat := if run < 3 then none else some (min (run - 3) 2)

def joinedLine? (cs : List Char) : Option (List Char) :=
  (newLine? (skipSpace cs)).map skipBreaks

def basicBlock? : Nat → Reader (List Char)
  | 0, _ => none
  | fuel + 1, cs =>
    match cs with
    | [] => none
    | '"' :: _ =>
      let run := (cs.takeWhile (· == '"')).length
      match closing? run with
      | some extra => some (List.replicate extra '"', cs.drop (extra + 3))
      | none => (basicBlock? fuel (cs.drop run)).map fun r => (List.replicate run '"' ++ r.1, r.2)
    | '\\' :: rest =>
      match joinedLine? rest with
      | some more => basicBlock? fuel more
      | none => do
        let (e, more) ← escape? rest
        let (s, tail) ← basicBlock? fuel more
        some (e :: s, tail)
    | c :: rest =>
      match newLine? (c :: rest) with
      | some more => (basicBlock? fuel more).map fun r => ('\n' :: r.1, r.2)
      | none =>
        if isControl c then none
        else (basicBlock? fuel rest).map fun r => (c :: r.1, r.2)

def literalBlock? : Nat → Reader (List Char)
  | 0, _ => none
  | fuel + 1, cs =>
    match cs with
    | [] => none
    | '\'' :: _ =>
      let run := (cs.takeWhile (· == '\'')).length
      match closing? run with
      | some extra => some (List.replicate extra '\'', cs.drop (extra + 3))
      | none => (literalBlock? fuel (cs.drop run)).map fun r => (List.replicate run '\'' ++ r.1, r.2)
    | c :: rest =>
      match newLine? (c :: rest) with
      | some more => (literalBlock? fuel more).map fun r => ('\n' :: r.1, r.2)
      | none =>
        if isControl c then none
        else (literalBlock? fuel rest).map fun r => (c :: r.1, r.2)

def string? : Reader (List Char)
  | '"' :: '"' :: '"' :: cs => basicBlock? (cs.length + 1) (afterOpening cs)
  | '\'' :: '\'' :: '\'' :: cs => literalBlock? (cs.length + 1) (afterOpening cs)
  | '"' :: cs => basicString? cs
  | '\'' :: cs => literalString? cs
  | _ => none

def isBareKey (c : Char) : Bool :=
  ('a' ≤ c && c ≤ 'z') || ('A' ≤ c && c ≤ 'Z') || isDigit c || c == '_' || c == '-'

def simpleKey? : Reader String
  | '"' :: cs => (basicString? cs).map fun r => (String.ofList r.1, r.2)
  | '\'' :: cs => (literalString? cs).map fun r => (String.ofList r.1, r.2)
  | cs =>
    match cs.takeWhile isBareKey with
    | [] => none
    | key => some (String.ofList key, cs.dropWhile isBareKey)

def nestingLimit : Nat := 80

def key? : Nat → Reader (List String)
  | 0, _ => none
  | fuel + 1, cs => do
    let (part, rest) ← simpleKey? (skipSpace cs)
    match skipSpace rest with
    | '.' :: more =>
      let (parts, tail) ← key? fuel more
      some (part :: parts, tail)
    | tail => some ([part], tail)

def digitRun? (p : Char → Bool) (cs : List Char) : Option (List Char × List Char) :=
  let run := cs.takeWhile fun c => p c || c == '_'
  let rest := cs.drop run.length
  let edges := run.head? == some '_' || run.getLast? == some '_' || run.isEmpty
  let doubled := (run.zip (run.drop 1)).any fun e => e.1 == '_' && e.2 == '_'
  if edges || doubled then none else some (run.filter (· != '_'), rest)

def sign : List Char → Bool × List Char
  | '-' :: cs => (true, cs)
  | '+' :: cs => (false, cs)
  | cs => (false, cs)

def inInt64 (i : Int) : Option Int := (int64? i).map fun _ => i

def based? (base : Nat) (digit : Char → Option Nat) (cs : List Char) : Option (Toml × List Char) := do
  let (run, rest) ← digitRun? (fun c => (digit c).isSome) cs
  let n ← readDigits? base digit run
  some (.integer (← inInt64 n), rest)

def below? (base : Nat) (c : Char) : Option Nat :=
  (digitOf? c).bind fun d => if d < base then some d else none

def wholePart? (cs : List Char) : Option (List Char × List Char) := do
  let (run, rest) ← digitRun? isDigit cs
  if run.head? = some '0' ∧ run.length ≠ 1 then none else some (run, rest)

def exponentPart? : Reader Int
  | c :: cs =>
    if c = 'e' ∨ c = 'E' then do
      let (negative, digits) := sign cs
      let (run, rest) ← digitRun? isDigit digits
      let n ← readDecimal? run
      some (if negative then -(n : Int) else n, rest)
    else none
  | [] => none

def wholeOrFraction? (negative : Bool) (cs : List Char) : Option (Toml × List Char) := do
  let (whole, rest) ← wholePart? cs
  let (fraction, rest) ← match rest with
    | '.' :: more => (digitRun? isDigit more).map fun r => (some r.1, r.2)
    | _ => some (none, rest)
  let (power, rest) ← match rest with
    | c :: _ =>
      if c = 'e' ∨ c = 'E' then (exponentPart? rest).map fun r => (some r.1, r.2)
      else some (none, rest)
    | [] => some (none, rest)
  match fraction, power with
  | none, none =>
    let n ← readDecimal? whole
    some (.integer (← inInt64 (if negative then -(n : Int) else n)), rest)
  | _, _ =>
    let digits := fraction.getD []
    let n ← readDecimal? (whole ++ digits)
    let x := Binary64.ofDecimal negative n (power.getD 0 - digits.length)
    if x = .infinity false then none else some (.float x, rest)

/-- A number; prefixed bases take no sign. -/
def number? (cs : List Char) : Option (Toml × List Char) :=
  match cs with
  | '0' :: 'x' :: rest => based? 16 hexDigitOf? rest
  | '0' :: 'o' :: rest => based? 8 (below? 8) rest
  | '0' :: 'b' :: rest => based? 2 (below? 2) rest
  | _ =>
    match sign cs with
    | (negative, 'i' :: 'n' :: 'f' :: rest) => some (.float (.infinity negative), rest)
    | (_, 'n' :: 'a' :: 'n' :: rest) => some (.float .nan, rest)
    | (negative, unsigned) => wholeOrFraction? negative unsigned

def fixed? (width low high : Nat) (cs : List Char) : Option (Nat × List Char) := do
  let run := cs.take width
  if run.length ≠ width then none
  else
    let n ← readDecimal? run
    if low ≤ n ∧ n ≤ high then some (n, cs.drop width) else none

def literal? (c : Char) : List Char → Option (List Char)
  | d :: rest => if c = d then some rest else none
  | [] => none

def isLeap (year : Nat) : Bool := year % 4 == 0 && (year % 100 != 0 || year % 400 == 0)

def daysIn (year month : Nat) : Nat :=
  if month = 2 then (if isLeap year then 29 else 28)
  else if month = 4 ∨ month = 6 ∨ month = 9 ∨ month = 11 then 30
  else 31

def date? (cs : List Char) : Option (List Char) := do
  let (year, rest) ← fixed? 4 0 9999 cs
  let (month, rest) ← fixed? 2 1 12 (← literal? '-' rest)
  let (_, rest) ← fixed? 2 1 (daysIn year month) (← literal? '-' rest)
  some rest

def time? (cs : List Char) : Option (List Char) := do
  let (_, rest) ← fixed? 2 0 23 cs
  let (_, rest) ← fixed? 2 0 59 (← literal? ':' rest)
  let (_, rest) ← fixed? 2 0 60 (← literal? ':' rest)
  match rest with
  | '.' :: more => if (more.takeWhile isDigit).isEmpty then some rest else some (more.dropWhile isDigit)
  | _ => some rest

def offset? (cs : List Char) : Option (List Char) :=
  match cs with
  | c :: rest =>
    if c = 'Z' ∨ c = 'z' then some rest
    else if c = '+' ∨ c = '-' then do
      let (_, rest) ← fixed? 2 0 23 rest
      let (_, rest) ← fixed? 2 0 59 (← literal? ':' rest)
      some rest
    else some cs
  | [] => some []

def moment? (cs : List Char) : Option (Toml × List Char) :=
  match date? cs with
  | none => (time? cs).map fun rest => (.moment, rest)
  | some rest =>
    match rest with
    | c :: more =>
      if c = 'T' ∨ c = 't' ∨ c = ' ' then
        match time? more with
        | some rest => (offset? rest).map fun r => (.moment, r)
        | none => some (.moment, rest)
      else some (.moment, rest)
    | [] => some (.moment, [])

end SchemaDrift.Toml
