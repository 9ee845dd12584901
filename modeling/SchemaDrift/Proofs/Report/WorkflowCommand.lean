import Mathlib.Data.List.Basic
import SchemaDrift.Proofs.Text.Numeral
import SchemaDrift.Report.WorkflowCommand

/-! Reading workflow commands back. A separator is escaped wherever it could stand inside a part, so
the first of its kind is the one between two parts, and decoding what stands between them gives the
level, the properties and the message of the change, whatever texts they are. -/
namespace SchemaDrift.WorkflowCommand

structure Code where
  char : Char
  first : Char
  second : Char
  deriving DecidableEq

def Code.text (code : Code) : List Char := ['%', code.first, code.second]

def dataCodes : List Code := [⟨'%', '2', '5'⟩, ⟨'\r', '0', 'D'⟩, ⟨'\n', '0', 'A'⟩]

def separatorCodes : List Code := [⟨':', '3', 'A'⟩, ⟨',', '2', 'C'⟩]

def propertyCodes : List Code := dataCodes ++ separatorCodes

def escape (codes : List Code) (c : Char) : List Char :=
  match codes.find? (·.char == c) with
  | some code => code.text
  | none => [c]

def decode (codes : List Code) : List Char → List Char
  | '%' :: a :: b :: rest =>
    match codes.find? fun code => code.first == a && code.second == b with
    | some code => code.char :: decode codes rest
    | none => '%' :: decode codes (a :: b :: rest)
  | c :: rest => c :: decode codes rest
  | [] => []

section Escaping
variable {codes : List Code} {s : List Char} {c : Char}

@[simp] theorem escapeNil (c : Char) : escape [] c = [c] := rfl

@[simp] theorem escapeCons (code : Code) (codes : List Code) (c : Char) :
    escape (code :: codes) c = if c = code.char then code.text else escape codes c := by
  by_cases same : c = code.char
  · simp [escape, same]
  · simp [escape, same, Ne.symm same]

theorem escapeOther (other : ∀ code ∈ codes, code.char ≠ c) : escape codes c = [c] := by
  have unfound : codes.find? (·.char == c) = none :=
    List.find?_eq_none.mpr fun code member => by simpa using other code member
  rw [escape, unfound]

theorem escapeNothing (others : ∀ c ∈ s, ∀ code ∈ codes, code.char ≠ c) :
    s.flatMap (escape codes) = s := by
  induction s with
  | nil => rfl
  | cons c s ih =>
    rw [List.forall_mem_cons] at others
    rw [List.flatMap_cons, escapeOther others.1, ih others.2]
    rfl

theorem escapeClass {kind : Char → Bool} (symbols : ∀ code ∈ codes, kind code.char = false)
    (all : ∀ c ∈ s, kind c = true) : s.flatMap (escape codes) = s :=
  escapeNothing fun c inside code member same => by
    have apart := symbols code member
    rw [same, all c inside] at apart
    contradiction

/- What is escaped does not stand in an escaped text, unless the codes themselves are written with it. -/
theorem escapedAbsent (escaped : ∃ code ∈ codes, code.char = c) (unused : ∀ code ∈ codes, c ∉ code.text) :
    c ∉ s.flatMap (escape codes) := by
  intro inside
  obtain ⟨d, _, written⟩ := List.mem_flatMap.mp inside
  unfold escape at written
  split at written
  · rename_i code found
    exact unused code (List.mem_of_find?_eq_some found) written
  · rename_i missing
    obtain ⟨code, member, rfl⟩ := escaped
    have apart := List.find?_eq_none.mp missing code member
    exact apart (by simp [List.mem_singleton.mp written])

structure Decodable (codes : List Code) : Prop where
  mark : ∃ code ∈ codes, code.char = '%'
  apart : ∀ code ∈ codes,
    codes.find? (fun d => d.first == code.first && d.second == code.second) = some code

theorem decodeOther (other : c ≠ '%') (rest : List Char) :
    decode codes (c :: rest) = c :: decode codes rest := by
  rw [decode]
  intro a b tail mark
  exact absurd mark other

theorem decodeEscape (decodable : Decodable codes) (c : Char) (rest : List Char) :
    decode codes (escape codes c ++ rest) = c :: decode codes rest := by
  unfold escape
  split
  · rename_i code found
    have same : code.char = c := by simpa using List.find?_some found
    have again := decodable.apart code (List.mem_of_find?_eq_some found)
    simp only [Code.text, List.cons_append, List.nil_append, decode, again, same]
  · rename_i missing
    refine decodeOther (fun mark => ?_) rest
    obtain ⟨code, member, same⟩ := decodable.mark
    exact List.find?_eq_none.mp missing code member (by simp [same, mark])

theorem decodeEscaped (decodable : Decodable codes) (s : List Char) :
    decode codes (s.flatMap (escape codes)) = s := by
  induction s with
  | nil => rw [List.flatMap_nil, decode]
  | cons c s ih => rw [List.flatMap_cons, decodeEscape decodable, ih]

theorem dataDecodable : Decodable dataCodes := ⟨by decide, by decide⟩

theorem propertyDecodable : Decodable propertyCodes := ⟨by decide, by decide⟩

def replaced (code : Code) (s : List Char) : List Char :=
  s.flatMap fun c => if c = code.char then code.text else [c]

def inTurn (codes : List Code) (s : List Char) : List Char :=
  codes.foldl (fun text code => replaced code text) s

theorem inTurnAtOnce (ordered : codes.Pairwise fun code later => later.char ∉ code.text)
    (s : List Char) : inTurn codes s = s.flatMap (escape codes) := by
  induction codes generalizing s with
  | nil => exact (escapeNothing (by simp)).symm
  | cons code codes ih =>
    obtain ⟨first, rest⟩ := List.pairwise_cons.mp ordered
    calc inTurn (code :: codes) s
      _ = (replaced code s).flatMap (escape codes) := ih rest _
      _ = s.flatMap (escape (code :: codes)) := by
        unfold replaced
        rw [List.flatMap_assoc]
        refine List.flatMap_congr fun c _ => ?_
        rw [escapeCons]
        split
        · exact escapeNothing fun d inside later member same => first later member (same ▸ inside)
        · exact List.flatMap_singleton ..

theorem dataInTurn (s : List Char) : escapeData s = inTurn dataCodes s := by
  rw [inTurnAtOnce (by decide)]
  refine List.flatMap_congr fun c _ => ?_
  simp only [dataCodes, escapeCons, escapeNil, Code.text]

theorem propertyInTurn (s : List Char) : escapeProperty s = inTurn propertyCodes s := by
  have separators : escapeProperty s = inTurn separatorCodes (escapeData s) := by
    rw [inTurnAtOnce (by decide)]
    refine List.flatMap_congr fun c _ => ?_
    simp only [separatorCodes, escapeCons, escapeNil, Code.text]
  rw [separators, dataInTurn]
  exact (List.foldl_append ..).symm

theorem propertyEscaped (s : List Char) : escapeProperty s = s.flatMap (escape propertyCodes) := by
  rw [propertyInTurn, inTurnAtOnce (by decide)]

theorem dataEscaped (s : List Char) : escapeData s = s.flatMap (escape dataCodes) := by
  rw [dataInTurn, inTurnAtOnce (by decide)]

end Escaping

structure Command where
  level : String
  properties : List (String × String)
  message : String
  deriving DecidableEq

def decoded (codes : List Code) (s : List Char) : String := String.ofList (decode codes s)

def property? (s : List Char) : Option (String × String) := do
  let (key, value) ← s.dropInfix? ['=']
  some (decoded dataCodes key, decoded propertyCodes value)

/-- The level ends at the first space, the properties at the next pair of colons. -/
def read? (line : String) : Option Command := do
  let body ← line.toList.dropPrefix? [':', ':']
  let (level, rest) ← body.dropInfix? [' ']
  let (properties, message) ← rest.dropInfix? [':', ':']
  let pairs ← (properties.splitOn ',').mapM property?
  some ⟨decoded dataCodes level, pairs, decoded dataCodes message⟩

section Parts

theorem cutAt {m : Char} {ms before after : List Char} (absent : m ∉ before) :
    (before ++ m :: ms ++ after).dropInfix? (m :: ms) = some (before, after) := by
  rw [List.dropInfix?_eq_some_iff]
  refine ⟨⟨_, rfl, by simp⟩, fun shorter mark rest same marked => ?_⟩
  rw [beq_iff_eq] at marked
  subst marked
  by_contra less
  rw [List.append_assoc, List.append_assoc, List.append_eq_append_iff] at same
  rcases same with ⟨more, equal, _⟩ | ⟨more, equal, tail⟩
  · exact less (by simp [equal])
  · cases more with
    | nil => exact less (by simp [equal])
    | cons d more =>
      have head : d = m := by simpa using (List.cons.inj tail).1.symm
      exact absent (by simp [equal, head])

def Letters (name : String) : Prop := name.toList.all Char.isAlpha = true

theorem lettersWithout {name : String} (letters : Letters name) {c : Char} (other : c.isAlpha = false) :
    c ∉ name.toList := by
  intro inside
  rw [List.all_eq_true.mp letters c inside] at other
  contradiction

theorem lettersDecoded {name : String} (letters : Letters name) :
    decoded dataCodes name.toList = name := by
  have plain : name.toList.flatMap (escape dataCodes) = name.toList :=
    escapeClass (by decide) (List.all_eq_true.mp letters)
  have read := decodeEscaped dataDecodable name.toList
  rw [plain] at read
  rw [decoded, read, String.ofList_toList]

theorem lettersLevel (c : Change) : Letters (level c) := by
  unfold level Letters
  split <;> decide

def coordinates : Option Location → List (String × String)
  | some l => [("line", Text.decimalText l.line.toNat), ("col", Text.decimalText l.column.toNat)]
  | none => []

def properties (file : String) (c : Change) : List (String × String) :=
  ("file", file) :: coordinates c.location ++ [("title", c.category.name)]

def written (p : String × String) : List Char := p.1.toList ++ ['='] ++ escapeProperty p.2.toList

theorem propertyNames (file : String) (c : Change) : (properties file c).map (·.1) =
    "file" :: (if c.location.isSome then ["line", "col"] else []) ++ ["title"] := by
  unfold properties
  cases c.location <;> rfl

theorem lettersProperty {file : String} {c : Change} : ∀ p ∈ properties file c, Letters p.1 := by
  have names : ∀ placed : Bool, ∀ name ∈ "file" :: (if placed then ["line", "col"] else []) ++ ["title"],
      name.toList.all Char.isAlpha = true := by decide
  intro p inside
  have named : p.1 ∈ (properties file c).map (·.1) := List.mem_map_of_mem inside
  rw [propertyNames] at named
  exact names c.location.isSome p.1 named

theorem propertyRead {p : String × String} (letters : Letters p.1) : property? (written p) = some p := by
  have cut : (written p).dropInfix? ['='] = some (p.1.toList, escapeProperty p.2.toList) :=
    cutAt (lettersWithout letters (by decide))
  have value : decoded propertyCodes (escapeProperty p.2.toList) = p.2 := by
    rw [decoded, propertyEscaped, decodeEscaped propertyDecodable, String.ofList_toList]
  simp only [property?, cut, Option.bind_eq_bind, Option.bind_some, lettersDecoded letters, value]

theorem propertiesRead {ps : List (String × String)} (letters : ∀ p ∈ ps, Letters p.1) :
    (ps.map written).mapM property? = some ps := by
  induction ps with
  | nil => rfl
  | cons p ps ih =>
    rw [List.forall_mem_cons] at letters
    simp [propertyRead letters.1, ih letters.2]

theorem separatorAbsent {p : String × String} (letters : Letters p.1) {c : Char}
    (separates : c ∈ ['\r', '\n', ':', ',']) : c ∉ written p := by
  obtain ⟨symbol, other, escaped, unused⟩ : c.isAlpha = false ∧ c ≠ '=' ∧
      (∃ code ∈ propertyCodes, code.char = c) ∧ ∀ code ∈ propertyCodes, c ∉ code.text := by
    simp only [List.mem_cons, List.not_mem_nil, or_false] at separates
    rcases separates with rfl | rfl | rfl | rfl <;> decide
  simp [written, lettersWithout letters symbol, other, propertyEscaped, escapedAbsent escaped unused]

theorem digitsEscaped (n : Nat) : escapeProperty (Text.decimal n) = Text.decimal n := by
  rw [propertyEscaped]
  exact escapeClass (by decide) (Text.digitsOfDecimal n)

theorem lineWritten (file : String) (c : Change) : (line file c).toList =
    [':', ':'] ++ ((level c).toList ++ [' '] ++
      ([','].intercalate ((properties file c).map written) ++ [':', ':'] ++
        escapeData c.message.toList)) := by
  unfold line properties
  cases c.location <;>
    simp [position, coordinates, written, escapedProperty, escapedData, Text.decimalText, digitsEscaped,
      List.intercalate]

theorem joinedWithout {c : Char} (other : c ≠ ',') {parts : List (List Char)}
    (absent : ∀ part ∈ parts, c ∉ part) : c ∉ [','].intercalate parts := by
  induction parts with
  | nil => simp
  | cons part parts ih =>
    rw [List.forall_mem_cons] at absent
    cases parts with
    | nil => simpa using absent.1
    | cons next parts =>
      rw [List.intercalate_cons_cons]
      simp [absent.1, other, ih absent.2]

theorem propertiesWithout {file : String} {c : Change} {d : Char} (other : d ≠ ',')
    (separates : d ∈ ['\r', '\n', ':', ',']) :
    d ∉ [','].intercalate ((properties file c).map written) := by
  refine joinedWithout other (List.forall_mem_map.mpr fun p inside => ?_)
  exact separatorAbsent (lettersProperty p inside) separates

theorem propertiesSplit (file : String) (c : Change) :
    ([','].intercalate ((properties file c).map written)).splitOn ',' =
      (properties file c).map written := by
  refine List.splitOn_intercalate ',' (List.forall_mem_map.mpr fun p inside => ?_) (by simp [properties])
  exact separatorAbsent (lettersProperty p inside) (by simp)

end Parts

theorem lineRead (file : String) (c : Change) :
    read? (line file c) = some ⟨level c, properties file c, c.message⟩ := by
  let pairs := [','].intercalate ((properties file c).map written)
  let tail := pairs ++ [':', ':'] ++ escapeData c.message.toList
  have start : (line file c).toList.dropPrefix? [':', ':'] =
      some ((level c).toList ++ [' '] ++ tail) := by
    rw [lineWritten]
    exact List.dropPrefix?_append_of_beq _ (by decide)
  have severity : ((level c).toList ++ [' '] ++ tail).dropInfix? [' '] = some ((level c).toList, tail) :=
    cutAt (lettersWithout (lettersLevel c) (by decide))
  have rest : tail.dropInfix? [':', ':'] = some (pairs, escapeData c.message.toList) :=
    cutAt (propertiesWithout (by decide) (by simp))
  have message : decoded dataCodes (escapeData c.message.toList) = c.message := by
    rw [decoded, dataEscaped, decodeEscaped dataDecodable, String.ofList_toList]
  simp only [read?, start, severity, rest, Option.bind_eq_bind, Option.bind_some, pairs,
    propertiesSplit, propertiesRead lettersProperty, lettersDecoded (lettersLevel c), message]

theorem lineUnbroken (file : String) (c : Change) {d : Char} (ends : d ∈ ['\r', '\n']) :
    d ∉ (line file c).toList := by
  obtain ⟨symbol, colon, blank, comma, separates, escaped, unused⟩ : d.isAlpha = false ∧ d ≠ ':' ∧
      d ≠ ' ' ∧ d ≠ ',' ∧ d ∈ ['\r', '\n', ':', ','] ∧ (∃ code ∈ dataCodes, code.char = d) ∧
      ∀ code ∈ dataCodes, d ∉ code.text := by
    simp only [List.mem_cons, List.not_mem_nil, or_false] at ends
    rcases ends with rfl | rfl <;> decide
  simp [lineWritten, colon, blank, lettersWithout (lettersLevel c) symbol, dataEscaped,
    escapedAbsent escaped unused, propertiesWithout comma separates]

namespace Command

def property? (command : Command) (key : String) : Option String := command.properties.lookup key

def number? (command : Command) (key : String) : Option (Option Nat) :=
  (command.property? key).map fun value => Text.readDecimal? value.toList

end Command

structure Recovers (file : String) (c : Change) (command : Command) : Prop where
  level : command.level = if c.category.isBreaking then "error" else "warning"
  names : command.properties.map (·.1) =
    "file" :: (if c.location.isSome then ["line", "col"] else []) ++ ["title"]
  file : command.property? "file" = some file
  line : command.number? "line" = c.location.map fun l => some l.line.toNat
  column : command.number? "col" = c.location.map fun l => some l.column.toNat
  title : command.property? "title" = some c.category.name
  message : command.message = c.message

theorem recovered (file : String) (c : Change) :
    Recovers file c ⟨level c, properties file c, c.message⟩ := by
  have numeral : ∀ n, Text.readDecimal? (Text.decimalText n).toList = some n := by
    intro n
    rw [Text.decimalText, String.toList_ofList, Text.decimalRead]
  constructor
  case level => rfl
  case names => exact propertyNames file c
  case message => rfl
  case file => rfl
  all_goals
    cases place : c.location <;>
      simp [Command.property?, Command.number?, properties, coordinates, place, List.lookup_cons, numeral]

/- Texts are escaped by replacements one after another, of which that of the percent sign is the first. -/
theorem lineReadBack (file : String) (c : Change) :
    (∀ s, escapeData s = inTurn dataCodes s ∧ escapeProperty s = inTurn propertyCodes s) ∧
    '\r' ∉ (line file c).toList ∧ '\n' ∉ (line file c).toList ∧
    ∃ command, read? (line file c) = some command ∧ Recovers file c command :=
  ⟨fun s => ⟨dataInTurn s, propertyInTurn s⟩, lineUnbroken file c (by simp),
    lineUnbroken file c (by simp), _, lineRead file c, recovered file c⟩

example : line "a,%0A:b" ⟨.typeRemoved, "100%\n::gone", "", none, false, none⟩ =
    "::error file=a%2C%250A%3Ab,title=TYPE_REMOVED::100%25%0A::gone" := by decide +kernel

end SchemaDrift.WorkflowCommand
