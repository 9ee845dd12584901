import SchemaDrift.Url
import SchemaDrift.Url.Host

/-! Reading absolute hierarchical URLs. Blanks around the text and line breaks and tabs within it do
not count; backslashes separate segments where the scheme is special; dots are resolved. -/
namespace SchemaDrift.Url
open Text

def isOuterBlank (c : Char) : Bool := c.toNat ≤ 0x20

def cleaned (cs : List Char) : List Char :=
  (((cs.dropWhile isOuterBlank).reverse.dropWhile isOuterBlank).reverse).filter
    (!isLineBreakOrTab ·)

def isSchemeChar (c : Char) : Bool := c.isAlphanum || c == '+' || c == '-' || c == '.'

def scheme? (cs : List Char) : Option (String × List Char) :=
  match cs with
  | first :: _ =>
    match cs.dropWhile isSchemeChar with
    | ':' :: rest =>
      if first.isAlpha then some (String.ofList ((cs.takeWhile isSchemeChar).map Char.toLower), rest)
      else none
    | _ => none
  | [] => none

def isSlash (special : Bool) (c : Char) : Bool := c == '/' || (special && c == '\\')

def endsAuthority (special : Bool) (c : Char) : Bool := isSlash special c || c == '?' || c == '#'

def splitUser (cs : List Char) : Option (List Char × List Char) :=
  match cs.reverse.span (· ≠ '@') with
  | (after, _ :: before) => some (before.reverse, after.reverse)
  | (_, []) => none

def hostEnd (inBrackets : Bool) : List Char → List Char × List Char
  | [] => ([], [])
  | c :: cs =>
    if c = ':' ∧ !inBrackets then ([], c :: cs)
    else
      let (host, rest) := hostEnd (c = '[' || (inBrackets && c ≠ ']')) cs
      (c :: host, rest)

def port? (standard : Option Nat) : List Char → Option (Option Nat)
  | [] => some none
  | ':' :: [] => some none
  | ':' :: digits => do
    let n ← readDecimal? digits
    if n < UInt16.size then some (if standard = some n then none else some n) else none
  | _ => none

def host? (special : Bool) (cs : List Char) : Option (List Char) :=
  if special then specialHost? cs else opaqueHost? cs

def encodedUser (cs : List Char) : String := String.ofList (percentEncode inUserInfo cs)

def authority? (scheme : String) (cs : List Char) : Option Authority := do
  let (user, rest) := (splitUser cs).getD ([], cs)
  let (host, rest) := hostEnd false rest
  let port ← port? ((specialPorts.lookup scheme).getD none) rest
  let host ← host? (isSpecialScheme scheme) host
  if host = [] ∧ (rest ≠ [] ∨ user ≠ []) then none
  else
    let (name, password) := user.span (· ≠ ':')
    some ⟨encodedUser name, encodedUser (password.drop 1), String.ofList host, port⟩

def fileAuthority? (cs : List Char) : Option Authority := do
  if cs = [] then some ⟨"", "", "", none⟩
  else
    let host ← specialHost? cs
    some ⟨"", "", if host = "localhost".toList then "" else String.ofList host, none⟩

def driveForm (isFile : Bool) (path : List String) (segment : List Char) : List Char :=
  match segment with
  | [c, '|'] => if isFile && path.isEmpty && c.isAlpha then [c, ':'] else segment
  | _ => segment

def addSegment (isFile : Bool) (path : List String) (segment : List Char) (isLast : Bool) :
    List String :=
  let ending := if isLast then [""] else []
  if isDotDot segment then shorten isFile path ++ ending
  else if isDot segment then path ++ ending
  else
    path ++ [String.ofList (percentEncode inPath (driveForm isFile path segment))]

def addSegments (isFile : Bool) (path : List String) : List (List Char) → List String
  | [] => path
  | [last] => addSegment isFile path last true
  | segment :: rest => addSegments isFile (addSegment isFile path segment false) rest

def withoutEmptyFront : List String → List String
  | "" :: next :: rest => withoutEmptyFront (next :: rest)
  | path => path

def readPath (scheme : String) (cs : List Char) : List String :=
  let special := isSpecialScheme scheme
  match cs with
  | [] => if special then [""] else []
  | first :: rest =>
    let segments := (if isSlash special first then rest else cs).splitOnP (isSlash special)
    let path := addSegments (scheme == "file") [] segments
    if scheme = "file" then withoutEmptyFront path else path

def readEnd (special : Bool) (cs : List Char) : Option String × Option String :=
  let fragmentOf (cs : List Char) : Option String :=
    match cs with
    | '#' :: rest => some (String.ofList (percentEncode inFragment rest))
    | _ => none
  match cs with
  | '?' :: rest =>
    let (query, rest) := rest.span (· ≠ '#')
    (some (String.ofList (percentEncode (if special then inSpecialQuery else inQuery) query)),
      fragmentOf rest)
  | _ => (none, fragmentOf cs)

def finish (scheme : String) (authority : Option Authority) (cs : List Char) : Url :=
  let (path, rest) := cs.span fun c => c ≠ '?' && c ≠ '#'
  let (query, fragment) := readEnd (isSpecialScheme scheme) rest
  ⟨scheme, authority, readPath scheme path, query, fragment⟩

def isDriveText (cs : List Char) : Bool :=
  match cs with
  | [c, d] => c.isAlpha && (d == ':' || d == '|')
  | _ => false

def noHost : Authority := ⟨"", "", "", none⟩

def afterSlashes? (scheme : String) (cs : List Char) : Option Url := do
  let (authority, rest) := cs.span (!endsAuthority (isSpecialScheme scheme) ·)
  some (finish scheme (some (← authority? scheme authority)) rest)

def fileUrl? (cs : List Char) : Option Url :=
  match cs with
  | a :: b :: rest =>
    if isSlash true a && isSlash true b then
      let (host, tail) := rest.span (!endsAuthority true ·)
      if isDriveText host then some (finish "file" (some noHost) ('/' :: rest))
      else (fileAuthority? host).map fun authority => finish "file" (some authority) tail
    else some (finish "file" (some noHost) cs)
  | _ => some (finish "file" (some noHost) cs)

/-- The URL in a text; `none` for what is no URL and for URLs without a hierarchy. -/
def parse? (text : String) : Option Url := do
  let (scheme, rest) ← scheme? (cleaned text.toList)
  if scheme = "file" then fileUrl? rest
  else if isSpecialScheme scheme then afterSlashes? scheme (rest.dropWhile (isSlash true))
  else
    match rest with
    | '/' :: '/' :: tail => afterSlashes? scheme tail
    | '/' :: _ => some (finish scheme none rest)
    | _ => none

end SchemaDrift.Url
