import SchemaDrift.Change.Grouping
import SchemaDrift.Report

/-! Reports for a terminal. Styles are control sequences around a text and can be switched off. -/
namespace SchemaDrift.Console

inductive Style where
  | bold
  | dimmed
  | red
  | green
  | yellow
  | brightBlue
  deriving DecidableEq, Repr

def Style.code : Style → String
  | .bold => "1"
  | .dimmed => "2"
  | .red => "31"
  | .green => "32"
  | .yellow => "33"
  | .brightBlue => "94"

def escape : String := String.singleton (Char.ofNat 27)

def joinCodes : List Style → String
  | [] => ""
  | [s] => s.code
  | s :: rest => s.code ++ ";" ++ joinCodes rest

def styled (colors : Bool) (styles : List Style) (text : String) : String :=
  if colors then escape ++ "[" ++ joinCodes styles ++ "m" ++ text ++ escape ++ "[0m" else text

def rule (colors : Bool) : String :=
  styled colors [.brightBlue] (String.ofList (List.replicate 60 '=')) ++ "\n"

def sources : Option Fingerprint → Option Fingerprint → String
  | some source, some target =>
    "From: " ++ source.label ++ "\nTo:   " ++ target.label ++ "\n\n"
  | _, _ => ""

def count (colors : Bool) (positive : List Style) (n : Nat) : String :=
  styled colors (if 0 < n then positive else [.green]) (Text.decimalText n)

def ignoredLine (n : Nat) : String :=
  if 0 < n then "  Ignored:   " ++ Text.decimalText n ++ "\n" else ""

def changeLine (colors : Bool) (c : Change) : String :=
  let position := match c.location with
    | some l => " " ++ styled colors [.dimmed] ("at " ++ l.text)
    | none => ""
  let deprecated := if c.wasDeprecated then " " ++ styled colors [.dimmed] "(was deprecated)" else ""
  "  - " ++ c.message ++ position ++ deprecated ++ "\n"

def heading (colors : Bool) (category : Category) (members : Nat) : String :=
  styled colors [.bold, if category.isBreaking then .red else .yellow]
    (category.name ++ " (" ++ Text.decimalText members ++ ")")

def group (colors : Bool) (g : Category × List Change) : String :=
  heading colors g.1 g.2.length ++ "\n" ++ String.join (g.2.map (changeLine colors)) ++ "\n"

def cleanLine (colors : Bool) : String :=
  styled colors [.bold, .green] "✓ No breaking or dangerous changes!" ++ "\n"

def summary (colors : Bool) (s : Summary) : String :=
  styled colors [.bold] "Summary:" ++ "\n  Total changes: " ++ Text.decimalText s.total ++
    "\n  Breaking:  " ++ count colors [.bold, .red] s.breaking ++
    "\n  Dangerous: " ++ count colors [.yellow] s.dangerous ++ "\n" ++ ignoredLine s.ignored ++ "\n"

def render (colors : Bool) (r : Report) : String :=
  "\n" ++ rule colors ++ styled colors [.bold, .brightBlue] "Schema Compatibility Report" ++ "\n" ++
    rule colors ++ "\n" ++ sources r.source r.target ++ summary colors r.summary ++
    (if r.summary.total = 0 then cleanLine colors
      else String.join ((groupByCategory r.changes).map (group colors))) ++
    rule colors

end SchemaDrift.Console
