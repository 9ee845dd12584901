import SchemaDrift.Report

/-! Changes as workflow commands, one line each: an error for a breaking change, else a warning, at
the file and, where there is one, the location. Percent signs and line ends are escaped everywhere,
colons and commas in properties. -/
namespace SchemaDrift.WorkflowCommand

def escapeData (s : List Char) : List Char :=
  s.flatMap fun c =>
    if c = '%' then ['%', '2', '5']
    else if c = '\r' then ['%', '0', 'D']
    else if c = '\n' then ['%', '0', 'A']
    else [c]

def escapeProperty (s : List Char) : List Char :=
  (escapeData s).flatMap fun c =>
    if c = ':' then ['%', '3', 'A']
    else if c = ',' then ['%', '2', 'C']
    else [c]

def escapedData (s : String) : String := String.ofList (escapeData s.toList)

def escapedProperty (s : String) : String := String.ofList (escapeProperty s.toList)

def level (c : Change) : String := if c.isBreaking then "error" else "warning"

def position : Option Location → String
  | some l =>
    ",line=" ++ Text.decimalText l.line.toNat ++ ",col=" ++ Text.decimalText l.column.toNat
  | none => ""

def line (file : String) (c : Change) : String :=
  "::" ++ level c ++ " file=" ++ escapedProperty file ++ position c.location ++
    ",title=" ++ escapedProperty c.category.name ++ "::" ++ escapedData c.message

def lines (r : Report) (file : String) : List String := r.changes.map (line file)

end SchemaDrift.WorkflowCommand
