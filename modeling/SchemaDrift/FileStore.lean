import SchemaDrift.Text.Utf8

/-! Files and directories by absolute path, and a working directory. A path of text is walked one
part at a time, so what stands in the way decides which fault is found. -/
namespace SchemaDrift

inductive FileFault where
  | missing
  | directory
  | notDirectory
  | nulInName
  | nameTooLong
  | notText
  deriving DecidableEq, Repr

def FileFault.message : FileFault → String
  | .missing => "No such file or directory (os error 2)"
  | .directory => "Is a directory (os error 21)"
  | .notDirectory => "Not a directory (os error 20)"
  | .nulInName => "file name contained an unexpected NUL byte"
  | .nameTooLong => "File name too long (os error 36)"
  | .notText => "stream did not contain valid UTF-8"

inductive FileNode where
  | directory
  | file (octets : List UInt8)
  deriving DecidableEq, Repr

abbrev NodePath := List String

structure FileStore where
  nodes : List (NodePath × FileNode)
  workingDirectory : NodePath
  deriving Repr

namespace FileStore
open Text

def node? (s : FileStore) (p : NodePath) : Option FileNode :=
  if p = [] then some .directory else s.nodes.lookup p

def setNode (s : FileStore) (p : NodePath) (n : FileNode) : FileStore :=
  if (s.nodes.lookup p).isSome then
    { s with nodes := s.nodes.map fun e => if e.1 = p then (p, n) else e }
  else { s with nodes := s.nodes ++ [(p, n)] }

def pathParts (path : String) : List (List Char) := path.toList.splitOn '/'

def nameLimit : Nat := 255

def pathLimit : Nat := 4095

def walk (s : FileStore) (here : NodePath) : List (List Char) → Except FileFault NodePath
  | [] => .ok here
  | part :: rest =>
    match s.node? here with
    | none => .error .missing
    | some (.file _) => .error .notDirectory
    | some .directory =>
      if part = [] ∨ part = ['.'] then walk s here rest
      else if part = ['.', '.'] then walk s here.dropLast rest
      else if nameLimit < octetLength part then .error .nameTooLong
      else
        let next := here ++ [String.ofList part]
        if (s.node? next).isSome then walk s next rest else .error .missing

def isAbsolute (path : String) : Bool := path.toList.head? == some '/'

def start (s : FileStore) (path : String) : NodePath :=
  if isAbsolute path then [] else s.workingDirectory

def pathFault? (path : String) : Option FileFault :=
  if path.toList.contains (Char.ofNat 0) then some .nulInName
  else if path.isEmpty then some .missing
  else if pathLimit < octetLength path.toList then some .nameTooLong
  else none

def resolve (s : FileStore) (path : String) : Except FileFault NodePath :=
  match pathFault? path with
  | some fault => .error fault
  | none => s.walk (s.start path) (pathParts path)

def contains (s : FileStore) (path : String) : Bool :=
  match s.resolve path with
  | .ok _ => true
  | .error _ => false

def readOctets (s : FileStore) (path : String) : Except FileFault (List UInt8) := do
  let p ← s.resolve path
  match s.node? p with
  | some (.file octets) => .ok octets
  | some .directory => .error .directory
  | none => .error .missing

/-- Octets as a text; there is no byte order mark to skip. -/
def textOf (octets : List UInt8) : Except FileFault String :=
  match decodeUtf8 octets with
  | .ok cs => .ok (String.ofList cs)
  | .error _ => .error .notText

def readText (s : FileStore) (path : String) : Except FileFault String := do
  textOf (← s.readOctets path)

def splitLast? (parts : List (List Char)) : Option (List (List Char) × List Char × Bool) :=
  match parts.reverse.dropWhile (· = []) with
  | [] => none
  | name :: before => some (before.reverse, name, parts.getLast? = some [])

def writeOctets (s : FileStore) (path : String) (octets : List UInt8) :
    Except FileFault FileStore :=
  match pathFault? path with
  | some fault => .error fault
  | none =>
    match splitLast? (pathParts path) with
    | none => .error .directory
    | some (before, name, slashed) => do
      let parent ← s.walk (s.start path) before
      if s.node? parent ≠ some .directory then .error .notDirectory
      else if name = ['.'] ∨ name = ['.', '.'] ∨ slashed then .error .directory
      else if nameLimit < octetLength name then .error .nameTooLong
      else
        let target := parent ++ [String.ofList name]
        if s.node? target = some .directory then .error .directory
        else .ok (s.setNode target (.file octets))

def writeText (s : FileStore) (path text : String) : Except FileFault FileStore :=
  s.writeOctets path (encodeUtf8 text.toList)

def place (s : FileStore) (p : NodePath) (n : FileNode) : FileStore :=
  let above := (List.range p.length).map fun k => p.take k
  (above.foldl (fun t q => if (t.node? q).isSome then t else t.setNode q .directory) s).setNode p n

def blank (workingDirectory : NodePath) : FileStore :=
  (FileStore.mk [] workingDirectory).place workingDirectory .directory

end FileStore
end SchemaDrift
