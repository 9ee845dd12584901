import SchemaDrift.Text.Numeral

/-! Instants as text: date and time in universal time, with as many groups of three decimals of a
second as it takes. -/
namespace SchemaDrift.Cli
open Text

structure CivilDate where
  year : Nat
  month : Nat
  day : Nat
  deriving DecidableEq, Repr

/-- The date of a day counted from the start of 1970. Years begin in March here, so that a leap day
is the last of its year, and every 400 years have the same 146097 days. -/
def civilDate (days : Nat) : CivilDate :=
  let z := days + 719468
  let inEra := z % 146097
  let yearOfEra := (inEra - inEra / 1460 + inEra / 36524 - inEra / 146096) / 365
  let dayOfYear := inEra - (365 * yearOfEra + yearOfEra / 4 - yearOfEra / 100)
  let m := (5 * dayOfYear + 2) / 153
  let month := if m < 10 then m + 3 else m - 9
  { year := 400 * (z / 146097) + yearOfEra + if month ≤ 2 then 1 else 0
    month
    day := dayOfYear - (153 * m + 2) / 5 + 1 }

def padded (width n : Nat) : List Char :=
  List.replicate (width - (decimal n).length) '0' ++ decimal n

def fractionText (nanoseconds : Nat) : List Char :=
  if nanoseconds = 0 then []
  else if nanoseconds % 1000000 = 0 then '.' :: padded 3 (nanoseconds / 1000000)
  else if nanoseconds % 1000 = 0 then '.' :: padded 6 (nanoseconds / 1000)
  else '.' :: padded 9 nanoseconds

def instantText (nanoseconds : Nat) : String :=
  let seconds := nanoseconds / 1000000000
  let date := civilDate (seconds / 86400)
  let time := seconds % 86400
  String.ofList (padded 4 date.year ++ '-' :: padded 2 date.month ++ '-' :: padded 2 date.day ++
    'T' :: padded 2 (time / 3600) ++ ':' :: padded 2 (time / 60 % 60) ++
    ':' :: padded 2 (time % 60) ++ fractionText (nanoseconds % 1000000000) ++ "+00:00".toList)

end SchemaDrift.Cli
