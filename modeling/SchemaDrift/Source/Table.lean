import SchemaDrift.Source

/-! A source of given texts. An error given for an address comes before a text given for it. -/
namespace SchemaDrift

structure Table where
  texts : List (Address × String)
  errors : List (Address × FetchError)
  deriving DecidableEq, Repr

namespace Table

def empty : Table := ⟨[], []⟩

def name : String := "static"

def put {α : Type} (a : Address) (value : α) : List (Address × α) → List (Address × α)
  | [] => [(a, value)]
  | (b, old) :: rest => if b = a then (a, value) :: rest else (b, old) :: put a value rest

def insert (t : Table) (a : Address) (text : String) : Table :=
  { t with texts := put a text t.texts }

def insertError (t : Table) (a : Address) (e : FetchError) : Table :=
  { t with errors := put a e t.errors }

def size (t : Table) : Nat := t.texts.length

def isEmpty (t : Table) : Bool := t.texts.isEmpty

def fetch (t : Table) (a : Address) : Except FetchError String :=
  match t.errors.lookup a with
  | some e => .error e
  | none =>
    match t.texts.lookup a with
    | some text => .ok text
    | none => .error ⟨.notFound, a.text⟩

end Table
end SchemaDrift
