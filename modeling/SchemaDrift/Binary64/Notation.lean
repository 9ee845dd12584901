import SchemaDrift.Binary64.Shortest

/-! Two written forms of a binary64 number, both with the fewest digits, and reading decimal text.
The plain form never has an exponent and is what people read; the exchange form marks every number
as fractional and leaves positional notation outside 10^-5 … 10^16. -/
namespace SchemaDrift.Binary64
open Text

def zeros (n : Nat) : List Char := List.replicate n '0'

def positional (digits : List Char) (point : Int) : List Char :=
  if point ≤ 0 then '0' :: '.' :: zeros (-point).toNat ++ digits
  else if digits.length ≤ point.toNat then digits ++ zeros (point.toNat - digits.length)
  else digits.take point.toNat ++ '.' :: digits.drop point.toNat

def signed (negative : Bool) (body : List Char) : List Char :=
  if negative then '-' :: body else body

def plain : Binary64 → List Char
  | .nan => "NaN".toList
  | .infinity negative => signed negative "inf".toList
  | .finite negative 0 _ _ => signed negative ['0']
  | .finite negative m e _ =>
    let d := shortest .up m e
    let digits := decimal d.digits
    signed negative (positional digits (digits.length + d.exponent))

def plainText (x : Binary64) : String := String.ofList x.plain

def scientific (digits : List Char) (power : Int) : List Char :=
  let fraction := if digits.length ≤ 1 then [] else '.' :: digits.drop 1
  let sign := if power < 0 then '-' else '+'
  digits.take 1 ++ fraction ++ 'e' :: sign :: decimal power.natAbs

def exchange? : Binary64 → Option (List Char)
  | .nan => none
  | .infinity _ => none
  | .finite negative 0 _ _ => some (signed negative "0.0".toList)
  | .finite negative m e _ =>
    let d := shortest .toEven m e
    let digits := decimal d.digits
    let point : Int := digits.length + d.exponent
    let body :=
      if -5 < point ∧ point ≤ 16 then
        if digits.length ≤ point then positional digits point ++ ".0".toList
        else positional digits point
      else scientific digits (point - 1)
    some (signed negative body)

def exponent? : List Char → Option Int
  | '-' :: cs => (readDecimal? cs).map fun n => -(n : Int)
  | '+' :: cs => (readDecimal? cs).map fun n => (n : Int)
  | cs => (readDecimal? cs).map fun n => (n : Int)

def unsignedDecimal? (cs : List Char) : Option (Nat × Int) :=
  let whole := cs.takeWhile isDigit
  let afterWhole := cs.dropWhile isDigit
  let (fraction, rest) :=
    match afterWhole with
    | '.' :: tail => (tail.takeWhile isDigit, tail.dropWhile isDigit)
    | tail => ([], tail)
  match readDecimal? (whole ++ fraction) with
  | none => none
  | some n =>
    match rest with
    | [] => some (n, -(fraction.length : Int))
    | c :: tail =>
      if c = 'e' ∨ c = 'E' then (exponent? tail).map fun k => (n, k - fraction.length)
      else none

def ofUnsigned? (negative : Bool) (cs : List Char) : Option Binary64 :=
  let lower := String.ofList (cs.map Char.toLower)
  if lower = "nan" then some .nan
  else if lower = "inf" ∨ lower = "infinity" then some (.infinity negative)
  else (unsignedDecimal? cs).map fun d => ofDecimal negative d.1 d.2

/-- The number nearest to a decimal text; `nan`, `inf` and `infinity` are read in any case. -/
def parse? : List Char → Option Binary64
  | '-' :: cs => ofUnsigned? true cs
  | '+' :: cs => ofUnsigned? false cs
  | cs => ofUnsigned? false cs

end SchemaDrift.Binary64
