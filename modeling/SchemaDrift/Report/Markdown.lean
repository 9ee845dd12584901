import SchemaDrift.Change.Grouping
import SchemaDrift.Report

/-! Reports as Markdown: a summary, then a section for each category with a line per change. -/
namespace SchemaDrift.Markdown

def shortDigest (sha256 : String) : String := String.ofList (Text.takeOctets 12 sha256.toList)

def sourceLine (title : String) (f : Fingerprint) : String :=
  "**" ++ title ++ ":** `" ++ f.label ++ "` (`" ++ shortDigest f.sha256 ++ "`)\n\n"

def sources : Option Fingerprint → Option Fingerprint → String
  | some source, some target => sourceLine "From" source ++ sourceLine "To" target
  | _, _ => ""

def countLine (title : String) (n : Nat) : String :=
  "- " ++ title ++ ": " ++ Text.decimalText n ++ "\n"

def position : Option Location → String
  | some l =>
    " (line " ++ Text.decimalText l.line.toNat ++ ", column " ++
      Text.decimalText l.column.toNat ++ ")"
  | none => ""

def changeLine (c : Change) : String := "- " ++ c.message ++ position c.location ++ "\n"

def sign (c : Category) : String := if c.isBreaking then "❌" else "⚠️"

def group (g : Category × List Change) : String :=
  "### " ++ sign g.1 ++ " " ++ g.1.name ++ "\n\n" ++
    String.join (g.2.map changeLine) ++ "\n"

def cleanLine : String := "✅ **No breaking or dangerous changes!**\n"

def header (r : Report) : String :=
  "# Schema Compatibility Report\n\n**Version:** " ++ r.version.text ++
    "\n\n**Timestamp:** " ++ r.timestamp ++ "\n\n" ++ sources r.source r.target ++
    "## Summary\n\n" ++ countLine "Total changes" r.summary.total ++
    countLine "Breaking" r.summary.breaking ++ countLine "Dangerous" r.summary.dangerous ++
    countLine "Ignored" r.summary.ignored ++ "\n"

def render (r : Report) : String :=
  header r ++
    if r.summary.total = 0 then cleanLine
    else String.join ((groupByCategory r.changes).map group)

end SchemaDrift.Markdown
