/-! Patterns in which a star stands for any run of characters without a line feed and every other
character for itself. A pattern has to match a whole text. A row holds, for a text and each of its
shorter and shorter ends down to the empty one, whether a pattern matches it; the row of a pattern is
made from that of its rest. -/
namespace SchemaDrift.Text

def emptyRow : List Char → List Bool
  | [] => [true]
  | _ :: rest => false :: emptyRow rest

def starRow : List Char → List Bool → List Bool
  | c :: rest, matched :: row =>
    let later := starRow rest row
    (matched || (c != '\n' && later.headD false)) :: later
  | _, row => row

def charRow (p : Char) : List Char → List Bool → List Bool
  | c :: rest, _ :: row => (p == c && row.headD false) :: charRow p rest row
  | _, _ => [false]

def globRow (text : List Char) : List Char → List Bool
  | [] => emptyRow text
  | p :: pattern =>
    if p = '*' then starRow text (globRow text pattern) else charRow p text (globRow text pattern)

def globMatches (pattern text : List Char) : Bool := (globRow text pattern).headD false

def matchesPattern (pattern text : String) : Bool :=
  if pattern.toList.contains '*' then globMatches pattern.toList text.toList else pattern == text

end SchemaDrift.Text
