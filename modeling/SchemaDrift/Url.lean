import SchemaDrift.Url.PercentEncoding

/-! Hierarchical URLs: a scheme, an authority where there is one, the segments of a path, a query
and a fragment, each already in its encoded form. A path of one empty segment is the root. -/
namespace SchemaDrift

structure Authority where
  user : String
  password : String
  host : String
  port : Option Nat
  deriving DecidableEq, Repr

namespace Authority

def credentials (a : Authority) : String :=
  if a.user = "" ∧ a.password = "" then ""
  else a.user ++ (if a.password = "" then "" else ":" ++ a.password) ++ "@"

def text (a : Authority) : String :=
  "//" ++ a.credentials ++ a.host ++
    match a.port with
    | some port => ":" ++ Text.decimalText port
    | none => ""

end Authority

structure Url where
  scheme : String
  authority : Option Authority
  path : List String
  query : Option String
  fragment : Option String
  deriving DecidableEq, Repr

namespace Url

def specialPorts : List (String × Option Nat) :=
  [("http", some 80), ("https", some 443), ("ws", some 80), ("wss", some 443), ("ftp", some 21),
   ("file", none)]

def isSpecialScheme (scheme : String) : Bool := (specialPorts.lookup scheme).isSome

def isSpecial (u : Url) : Bool := isSpecialScheme u.scheme

def pathText (path : List String) : String := String.join (path.map ("/" ++ ·))

def authorityText : Option Authority → List String → String
  | some a, _ => a.text
  | none, "" :: _ :: _ => "/."
  | none, _ => ""

def introduced (mark : String) : Option String → String
  | some s => mark ++ s
  | none => ""

def target (u : Url) : String := pathText u.path ++ introduced "?" u.query

def text (u : Url) : String :=
  u.scheme ++ ":" ++ authorityText u.authority u.path ++ u.target ++ introduced "#" u.fragment

def isDot (segment : List Char) : Bool :=
  [".", "%2e", "%2E"].contains (String.ofList segment)

def isDotDot (segment : List Char) : Bool :=
  ["..", ".%2e", ".%2E", "%2e.", "%2E.", "%2e%2e", "%2e%2E", "%2E%2e", "%2E%2E"].contains
    (String.ofList segment)

def isDrive (segment : String) : Bool :=
  match segment.toList with
  | [c, ':'] => c.isAlpha
  | _ => false

/-- One segment up; a drive of a file stays. -/
def shorten (isFile : Bool) (path : List String) : List String :=
  match path with
  | [drive] => if isFile && isDrive drive then [drive] else []
  | _ => path.dropLast

def withoutEmptyEnd (path : List String) : List String :=
  if path.length ≠ 1 ∧ path.getLast? = some "" then path.dropLast else path

def withoutRoot (path : List String) : List String := if path = [""] then [] else path

def isLineBreakOrTab (c : Char) : Bool := c == '\t' || c == '\n' || c == '\r'

def pushSegment (u : Url) (segment : String) : Url :=
  if segment = "." ∨ segment = ".." then u
  else
    let mustEncode := if u.isSpecial then inSpecialSegment else inSegment
    let encoded := percentEncode mustEncode (segment.toList.filter (!isLineBreakOrTab ·))
    let front := withoutRoot u.path
    if isDotDot encoded then { u with path := shorten (u.scheme == "file") front ++ [""] }
    else if isDot encoded then { u with path := front ++ [""] }
    else { u with path := front ++ [String.ofList encoded] }

def extend (u : Url) (segments : List String) : Url :=
  segments.foldl pushSegment { u with path := withoutEmptyEnd u.path }

def withParameter (u : Url) (key value : String) : Url :=
  let pair := key ++ "=" ++ String.ofList (formEncode value.toList)
  match u.query with
  | none => { u with query := some pair }
  | some "" => { u with query := some pair }
  | some q => { u with query := some (q ++ "&" ++ pair) }

end Url
end SchemaDrift
