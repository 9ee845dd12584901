import SchemaDrift.Url.PercentEncoding
import SchemaDrift.Url.Punycode

/-! Hosts of URLs. Schemes with a known port have domains or addresses: letters of a domain become
small, labels outside ASCII get their ASCII form, and one whose last label is a number is an address
of four octets. Other schemes have any host without forbidden characters. An address of eight groups
stands in brackets and is written in its shortest form. -/
namespace SchemaDrift.Url
open Text

def readOctal? (cs : List Char) : Option Nat :=
  readDigits? 8 (fun c => (digitOf? c).filter (· < 8)) cs

def addressNumber? : List Char → Option Nat
  | [] => none
  | '0' :: 'x' :: digits => if digits = [] then some 0 else readHex? digits
  | '0' :: 'X' :: digits => if digits = [] then some 0 else readHex? digits
  | ['0'] => some 0
  | '0' :: digits => readOctal? digits
  | digits => readDecimal? digits

def labels (domain : List Char) : List (List Char) :=
  let parts := domain.splitOn '.'
  if parts.length ≠ 1 ∧ parts.getLast? = some [] then parts.dropLast else parts

def endsInNumber (domain : List Char) : Bool :=
  match (labels domain).getLast? with
  | some last => (last != [] && last.all isDigit) || (addressNumber? last).isSome
  | none => false

/-- Four octets; the last number fills all octets that the others leave. -/
def quadAddress? (domain : List Char) : Option (List Char) := do
  let numbers ← (labels domain).mapM addressNumber?
  let last ← numbers.getLast?
  let leading := numbers.dropLast
  if 3 < leading.length ∨ leading.any (255 < ·) ∨ Nat.pow 256 (4 - leading.length) ≤ last then none
  else
    let value := (leading.zipIdx.map fun (n, i) => n * Nat.pow 256 (3 - i)).foldl (· + ·) last
    some (['.'].intercalate ([3, 2, 1, 0].map fun i => decimal (value / Nat.pow 256 i % 256)))

def plainOctet? (cs : List Char) : Option Nat := do
  let n ← readDecimal? cs
  if n < 256 ∧ decimal n = cs then some n else none

def groups? (tail : Bool) (cs : List Char) : Option (List Nat) :=
  if cs = [] then some []
  else do
    let parts := cs.splitOn ':'
    let read (part : List Char) : Option Nat := if part.length ≤ 4 then readHex? part else none
    let last ← parts.getLast?
    let leading ← parts.dropLast.mapM read
    if tail ∧ last.contains '.' then
      match ← (last.splitOn '.').mapM plainOctet? with
      | [a, b, c, d] => some (leading ++ [256 * a + b, 256 * c + d])
      | _ => none
    else some (leading ++ [← read last])

def splitGap? : List Char → Option (List Char × List Char)
  | ':' :: ':' :: rest => some ([], rest)
  | c :: rest => (splitGap? rest).map fun s => (c :: s.1, s.2)
  | [] => none

def groupAddress? (cs : List Char) : Option (List Nat) :=
  match splitGap? cs with
  | none => do
    let groups ← groups? true cs
    if groups.length = 8 then some groups else none
  | some (before, after) => do
    let front ← groups? false before
    let back ← groups? true after
    if front.length + back.length ≤ 7 then
      some (front ++ List.replicate (8 - front.length - back.length) 0 ++ back)
    else none

def zeroRun (groups : List Nat) : Nat := (groups.takeWhile (· == 0)).length

def longestZeros (groups : List Nat) : Nat × Nat :=
  (List.range groups.length).foldl (fun best i =>
    let run := zeroRun (groups.drop i)
    if best.2 < run then (i, run) else best) (0, 0)

def groupText (groups : List Nat) : List Char := [':'].intercalate (groups.map (numeral 16))

def groupAddressText (groups : List Nat) : List Char :=
  let (place, run) := longestZeros groups
  let body :=
    if run < 2 then groupText groups
    else groupText (groups.take place) ++ ':' :: ':' :: groupText (groups.drop (place + run))
  '[' :: body ++ [']']

def bracketed? (host : List Char) : Option (List Char) := do
  if host.getLast? = some ']' then
    some (groupAddressText (← groupAddress? (host.drop 1).dropLast))
  else none

def forbiddenInHost (c : Char) : Bool :=
  ['\x00', '\t', '\n', '\r', ' ', '#', '/', ':', '<', '>', '?', '@', '[', '\\', ']', '^',
   '|'].contains c

def forbiddenInDomain (c : Char) : Bool :=
  forbiddenInHost c || c.toNat < 0x20 || c == '%' || c.toNat == 0x7F

def asciiLabel (label : List Char) : List Char :=
  let small := label.map Char.toLower
  if small.all (·.toNat < 0x80) then small
  else 'x' :: 'n' :: '-' :: '-' :: Punycode.encode small

def specialHost? (host : List Char) : Option (List Char) :=
  if host.head? = some '[' then bracketed? host
  else do
    let decoded ← (decodeUtf8 (percentDecode host)).toOption
    let domain := ['.'].intercalate ((decoded.splitOn '.').map asciiLabel)
    if domain = [] ∨ domain.any forbiddenInDomain then none
    else if endsInNumber domain then quadAddress? domain
    else some domain

def opaqueHost? (host : List Char) : Option (List Char) :=
  if host.head? = some '[' then bracketed? host
  else if host.any forbiddenInHost then none
  else some (percentEncode isControl host)

end SchemaDrift.Url
