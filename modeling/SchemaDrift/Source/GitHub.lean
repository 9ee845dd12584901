import SchemaDrift.Config
import SchemaDrift.Json.Decode
import SchemaDrift.Json.Reader
import SchemaDrift.Source
import SchemaDrift.Text.Base64
import SchemaDrift.Url.Reader

/-! Schema files of a hosted repository, by its contents interface: which request asks for a file at
a revision, and what the answer to it says. -/
namespace SchemaDrift
open Json Text

structure Repository where
  owner : String
  name : String
  deriving DecidableEq, Repr

namespace Repository

def text (r : Repository) : String := r.owner ++ "/" ++ r.name

def parse? (s : String) : Option Repository :=
  match s.toList.span (· ≠ '/') with
  | (owner, _ :: name) =>
    if owner = [] ∨ name = [] ∨ '/' ∈ name then none
    else some ⟨String.ofList owner, String.ofList name⟩
  | (_, []) => none

end Repository

structure Request where
  url : Url
  accept : String
  apiVersion : String
  userAgent : String
  bearer : Option String
  deriving DecidableEq, Repr

structure Response where
  status : Nat
  body : List UInt8
  deriving DecidableEq, Repr

structure GitHub where
  repository : Repository
  apiUrl : Url
  token : Option String
  deriving DecidableEq, Repr

namespace GitHub

def name : String := "GitHub"

def connect (repository apiUrl : String) (token : Option String) : Except FetchError GitHub :=
  match Repository.parse? repository with
  | none =>
    .error ⟨.configuration, "repository must look like owner/name, got '" ++ repository ++ "'"⟩
  | some r =>
    match Url.parse? apiUrl with
    | none => .error ⟨.configuration, "invalid GitHub API URL '" ++ apiUrl ++ "'"⟩
    | some url => .ok ⟨r, url, token.filter (!·.isEmpty)⟩

def ofConfig (config : HostConfig) (repository token : Option String) :
    Except FetchError GitHub :=
  match repository.orElse fun _ => config.repository with
  | none =>
    .error ⟨.configuration, "no repository given; pass --repo or set GITHUB_REPOSITORY"⟩
  | some r => connect r config.apiUrl token

def segments (path : String) : List String :=
  ((FileStore.pathParts path).filter (· ≠ [])).map String.ofList

def contentsUrl (g : GitHub) (path : String) : Url :=
  g.apiUrl.extend (["repos", g.repository.owner, g.repository.name, "contents"] ++ segments path)

def fitsHeader (s : String) : Bool :=
  s.toList.all fun c => c == '\t' || (0x20 ≤ c.toNat && c.toNat ≠ 0x7F)

def isWeb (u : Url) : Bool := u.scheme == "http" || u.scheme == "https"

def request (g : GitHub) (a : Address) : Except FetchError Request :=
  let plain := g.contentsUrl a.path
  let url := match a.revision with
    | some revision => plain.withParameter "ref" revision
    | none => plain
  if g.token.any (!fitsHeader ·) then .error ⟨.network, "builder error"⟩
  else if !isWeb url then .error ⟨.network, "builder error for url (" ++ url.text ++ ")"⟩
  else .ok ⟨url, "application/vnd.github+json", "2022-11-28", "schemaguard/0.1.0", g.token⟩

structure Contents where
  kind : Option String
  content : Option String
  encoding : Option String
  deriving DecidableEq, Repr

def Contents.decode : Decoder Contents := fun j => do
  let r ← readRecord "struct ContentsResponse" ["type", "content", "encoding"] j
  let kind ← r.withDefault (r.cell "type" (decodeOption decodeString)) none
  let content ← r.withDefault (r.cell "content" (decodeOption decodeString)) none
  let encoding ← r.withDefault (r.cell "encoding" (decodeOption decodeString)) none
  r.finish
  .ok ⟨kind, content, encoding⟩

def contents? (body : List UInt8) : Option Contents := do
  let text ← (decodeUtf8 body).toOption
  let j ← Json.parse? (String.ofList text)
  (Contents.decode j).toOption

def isAsciiBlank (c : Char) : Bool :=
  c == ' ' || c == '\t' || c == '\n' || c == '\r' || c == Char.ofNat 12

/-- The text behind base64; blanks among its characters do not count. -/
def decodeContent (content : String) : Except FetchError String :=
  match decodeBase64 (content.toList.filter (!isAsciiBlank ·)) with
  | none => .error ⟨.invalidResponse, "invalid base64 content"⟩
  | some octets =>
    match decodeUtf8 octets with
    | .ok text => .ok (String.ofList text)
    | .error fault => .error ⟨.invalidResponse, "schema is not UTF-8: " ++ fault.message⟩

def Contents.text (c : Contents) (a : Address) : Except FetchError String :=
  match c.kind.filter (· ≠ "file"), c.content, c.encoding with
  | some kind, _, _ => .error ⟨.invalidResponse, a.text ++ " is a " ++ kind ++ ", not a file"⟩
  | none, none, _ => .error ⟨.invalidResponse, "no content returned for " ++ a.text⟩
  | none, some content, some "base64" => decodeContent content
  | none, some _, some "none" =>
    .error ⟨.invalidResponse, a.text ++ " is too large for the contents API (over 1 MB)"⟩
  | none, some content, _ => .ok content

def statusError (g : GitHub) (a : Address) (status : Nat) : FetchError :=
  let place := a.text ++ " in " ++ g.repository.text
  if status = 404 then ⟨.notFound, place⟩
  else if status = 401 ∨ status = 403 then
    ⟨.permissionDenied, place ++ " (HTTP " ++ decimalText status ++ "); check GITHUB_TOKEN"⟩
  else ⟨.network, "GitHub returned HTTP " ++ decimalText status ++ " for " ++ a.text⟩

/-- The body of a response; one without content has none. -/
def bodyOf (r : Response) : List UInt8 := if r.status = 204 then [] else r.body

def answer (g : GitHub) (a : Address) (r : Response) : Except FetchError String :=
  if r.status < 200 ∨ 299 < r.status then .error (g.statusError a r.status)
  else
    match contents? (bodyOf r) with
    | none =>
      .error ⟨.invalidResponse,
        "Failed to parse contents response: error decoding response body"⟩
    | some c => c.text a

end GitHub
end SchemaDrift
