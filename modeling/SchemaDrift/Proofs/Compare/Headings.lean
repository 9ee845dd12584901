import SchemaDrift.Proofs.Compare.Told

/-! What a change is about, read off its category and message alone. A message puts the names that it
tells of in ticks, and in a path the owner ends at the first dot; names have neither. So two changes
of one category with one message are about the same element. -/
namespace SchemaDrift.Compare

section Reading

def upTo (mark : Char) (cs : List Char) : List Char × List Char :=
  (cs.takeWhile (· != mark), (cs.dropWhile (· != mark)).drop 1)

theorem upToMark {mark : Char} {xs rest : List Char} (clean : mark ∉ xs) :
    upTo mark (xs ++ mark :: rest) = (xs, rest) := by
  have others : ∀ c ∈ xs, (c != mark) = true := fun c inside =>
    bne_iff_ne.mpr fun same => clean (same ▸ inside)
  rw [upTo, List.takeWhile_append_of_pos others, List.dropWhile_append_of_pos others]
  simp

def tick : Char := '\x60'

def Tickless (s : String) : Prop := tick ∉ s.toList

instance : DecidablePred Tickless := fun s => inferInstanceAs (Decidable (tick ∉ s.toList))

def inFirstTicks (cs : List Char) : List Char × List Char := upTo tick (upTo tick cs).2

/- The first two names in ticks; a name that is missing is empty. -/
def namesInTicks (message : String) : String × String :=
  let first := inFirstTicks message.toList
  (String.ofList first.1, String.ofList (inFirstTicks first.2).1)

def pathParts (path : String) : List String :=
  let parts := upTo '.' path.toList
  [String.ofList parts.1, String.ofList parts.2]

theorem firstTicksRead {lead name : String} (before : Tickless lead) (clean : Tickless name)
    (rest : String) :
    inFirstTicks (lead ++ inTicks name ++ rest).toList = (name.toList, rest.toList) := by
  simp only [inTicks, String.toList_append, List.append_assoc]
  change inFirstTicks (lead.toList ++ tick :: (name.toList ++ tick :: rest.toList)) = _
  rw [inFirstTicks, upToMark before, upToMark clean]

theorem pathRead {owner : String} (named : IsName owner) (member : String) :
    pathParts (qualified owner member) = [owner, member] := by
  have text : (qualified owner member).toList = owner.toList ++ '.' :: member.toList := by
    simp [qualified]
  rw [pathParts, text, upToMark (markNotInName named rfl), String.ofList_toList, String.ofList_toList]

theorem nameTickless {s : String} (named : IsName s) : Tickless s := markNotInName named rfl

theorem pathTickless {owner member : String} (left : IsName owner) (right : IsName member) :
    Tickless (qualified owner member) := by
  simp only [Tickless, qualified, String.toList_append, List.mem_append, not_or]
  exact ⟨⟨nameTickless left, by decide⟩, nameTickless right⟩

theorem directiveTickless {name : String} (named : IsName name) : Tickless ("@" ++ name) := by
  simp only [Tickless, String.toList_append, List.mem_append, not_or]
  exact ⟨by decide, nameTickless named⟩

end Reading

/- In which order a message names the element, its owner and the path of its owner. -/
inductive Wording where
  | name
  | path
  | ownerName
  | nameOwner
  | pathName
  | namePath

def wording : Category → Wording
  | .typeRemoved | .typeChangedKind | .directiveRemoved => .name
  | .fieldRemoved | .fieldChangedKind => .path
  | .interfaceRemovedFromObject => .ownerName
  | .argRemoved | .argChangedKind | .argBecameRequired | .argDefaultValueChange => .pathName
  | .requiredArgAdded | .optionalArgAdded => .namePath
  | _ => .nameOwner

def Wording.address (w : Wording) (first second : String) : List String :=
  match w with
  | .name => [first]
  | .path => pathParts first
  | .ownerName => [first, second]
  | .nameOwner => [second, first]
  | .pathName => pathParts first ++ [second]
  | .namePath => pathParts second ++ [first]

def address (category : Category) (message : String) : List String :=
  (wording category).address (namesInTicks message).1 (namesInTicks message).2

def heading (c : Change) : Category × List String := (c.category, address c.category c.message)

theorem headingSame {c d : Change} (category : c.category = d.category)
    (message : c.message = d.message) : heading c = heading d := by
  rw [heading, heading, category, message]

section Wordings
variable {c : Change} {first second : String}

theorem headingOfFirst (lead rest : String) (text : c.message = lead ++ inTicks first ++ rest)
    (before : Tickless lead) (clean : Tickless first) :
    heading c = (c.category, (wording c.category).address first (namesInTicks c.message).2) := by
  have read : (namesInTicks c.message).1 = first := by
    rw [namesInTicks, text, firstTicksRead before clean, String.ofList_toList]
  rw [heading, address, read]

theorem headingOfBoth (lead between rest : String)
    (text : c.message = lead ++ inTicks first ++ (between ++ inTicks second ++ rest))
    (before : Tickless lead) (clean : Tickless first) (amid : Tickless between)
    (last : Tickless second) :
    heading c = (c.category, (wording c.category).address first second) := by
  have read : (namesInTicks c.message).2 = second := by
    rw [namesInTicks, text, firstTicksRead before clean, firstTicksRead amid last]
    exact String.ofList_toList
  rw [headingOfFirst lead _ text before clean, read]

end Wordings

section Changes
variable {options : Options} {o n : TypeDef} {owner name : String}

theorem typeRemovedHeading (named : IsName o.name) :
    heading (typeRemoved options o) = (.typeRemoved, [o.name]) :=
  headingOfFirst "" " removed from schema" (by simp [typeRemoved]) (by decide)
    (nameTickless named)

theorem kindChangeHeading (named : IsName o.name) :
    heading (kindChange options o n) = (.typeChangedKind, [o.name]) :=
  headingOfFirst "" (" changed from " ++ o.kind.phrase ++ " to " ++ n.kind.phrase)
    (by simp [kindChange, String.append_assoc]) (by decide) (nameTickless named)

section Paths
variable (left : IsName owner) (right : IsName name)
include left right

theorem fieldRemovedHeading (location : Option Location) (deprecated : Bool) :
    heading (fieldRemoved (qualified owner name) location deprecated) =
      (.fieldRemoved, [owner, name]) := by
  rw [headingOfFirst "" " removed from schema" (by simp [fieldRemoved]) (by decide)
    (pathTickless left right)]
  simp only [fieldRemoved, wording, Wording.address, pathRead left]

theorem fieldRetypedHeading (old new : TypeRef) (location : Option Location) (deprecated : Bool) :
    heading (fieldRetyped (qualified owner name) old new location deprecated) =
      (.fieldChangedKind, [owner, name]) := by
  rw [headingOfFirst "Field "
    (" changed type from " ++ inTicks old.text ++ " to " ++ inTicks new.text)
    (by simp [fieldRetyped, String.append_assoc]) (by decide) (pathTickless left right)]
  simp only [fieldRetyped, wording, Wording.address, pathRead left]

theorem argumentHeading {c : Change} {a : String} (worded : wording c.category = .pathName)
    (rest : String) (text : c.message = argumentText (qualified owner name) a ++ rest)
    (named : IsName a) : heading c = (c.category, [owner, name, a]) := by
  rw [headingOfBoth "" " arg " rest
    (by simpa [argumentText, String.append_assoc] using text) (by decide) (pathTickless left right)
    (by decide) (nameTickless named), worded]
  simp only [Wording.address, pathRead left, List.cons_append, List.nil_append]

theorem argumentAddedHeading {a : Argument} (named : IsName a.name) :
    heading (argumentAdded (qualified owner name) a) =
      ((argumentAdded (qualified owner name) a).category, [owner, name, a.name]) := by
  have worded : wording (argumentAdded (qualified owner name) a).category = .namePath := by
    unfold argumentAdded
    split <;> rfl
  have before : Tickless ((if a.isRequired then "A required" else "An optional") ++ " arg ") := by
    split <;> decide
  rw [headingOfBoth _ " on " " was added" (by simp [argumentAdded, String.append_assoc])
    before (nameTickless named) (by decide) (pathTickless left right), worded]
  simp only [Wording.address, pathRead left, List.cons_append, List.nil_append]

end Paths

/- The owner may be a directive, whose name the message starts with an at sign. -/
theorem partHeading {c : Change} (worded : wording c.category = .nameOwner)
    (lead between rest : String)
    (text : c.message = lead ++ inTicks name ++ (between ++ inTicks owner ++ rest))
    (before : Tickless lead) (amid : Tickless between) (left : Tickless owner)
    (right : Tickless name) : heading c = (c.category, [owner, name]) := by
  rw [headingOfBoth lead between rest text before right amid left, worded]
  rfl

theorem inputAddedHeading {e : String × Argument} (left : IsName owner) (right : IsName e.1) :
    heading (inputFieldAdded owner e) = ((inputFieldAdded owner e).category, [owner, e.1]) := by
  have worded : wording (inputFieldAdded owner e).category = .nameOwner := by
    cases required : e.2.isRequired <;> simp [inputFieldAdded, required, wording]
  have before : Tickless ((if e.2.isRequired then "A required" else "An optional") ++ " field ") := by
    split <;> decide
  exact partHeading worded _ " on input type " " was added"
    (by simp [inputFieldAdded, String.append_assoc]) before (by decide) (nameTickless left)
    (nameTickless right)

section Parts
variable {v : EnumValue} {member : String}

theorem valueRemovedHeading (owner : IsName o.name) (value : IsName v.name) :
    heading (valueRemoved options o n v) = (.valueRemovedFromEnum, [o.name, v.name]) :=
  partHeading rfl "Value " " removed from enum " ""
    (by simp [valueRemoved, String.append_assoc]) (by decide) (by decide) (nameTickless owner)
    (nameTickless value)

theorem valueAddedHeading (owner : IsName n.name) (value : IsName v.name) :
    heading (valueAdded n v) = (.valueAddedToEnum, [n.name, v.name]) :=
  partHeading rfl "" " was added to enum type " ""
    (by simp [valueAdded, String.append_assoc]) (by decide) (by decide) (nameTickless owner)
    (nameTickless value)

theorem memberRemovedHeading (owner : IsName o.name) (named : IsName member) :
    heading (memberRemoved o n member) = (.typeRemovedFromUnion, [o.name, member]) :=
  partHeading rfl "" " was removed from union type " ""
    (by simp [memberRemoved, changeAt, String.append_assoc]) (by decide) (by decide)
    (nameTickless owner) (nameTickless named)

theorem memberAddedHeading (owner : IsName n.name) (named : IsName member) :
    heading (memberAdded n member) = (.typeAddedToUnion, [n.name, member]) :=
  partHeading rfl "" " was added to union type " ""
    (by simp [memberAdded, changeAt, String.append_assoc]) (by decide) (by decide)
    (nameTickless owner) (nameTickless named)

theorem interfaceRemovedHeading (owner : IsName o.name) (named : IsName member) :
    heading (interfaceRemoved o n member) = (.interfaceRemovedFromObject, [o.name, member]) :=
  headingOfBoth "" " no longer implements interface " ""
    (by simp [interfaceRemoved, changeAt, String.append_assoc]) (by decide) (nameTickless owner)
    (by decide) (nameTickless named)

theorem interfaceAddedHeading (owner : IsName n.name) (named : IsName member) :
    heading (interfaceAdded n member) = (.interfaceAddedToObject, [n.name, member]) :=
  partHeading rfl "" " added to interfaces implemented by " ""
    (by simp [interfaceAdded, changeAt, String.append_assoc]) (by decide) (by decide)
    (nameTickless owner) (nameTickless named)

end Parts

section Directives
variable {resource : String} (named : Tickless resource)
include named

theorem directiveRemovedHeading :
    heading (directiveRemoved resource) = (.directiveRemoved, [resource]) :=
  headingOfFirst "" " removed from schema" (by simp [directiveRemoved]) (by decide) named

theorem directiveArgumentRemovedHeading {new : DirectiveDef} {a : Argument} (argument : IsName a.name) :
    heading (directiveArgumentRemoved options resource new a) =
      (.directiveArgRemoved, [resource, a.name]) :=
  partHeading rfl "" " was removed from " ""
    (by simp [directiveArgumentRemoved, droppedFrom, String.append_assoc]) (by decide) (by decide)
    named (nameTickless argument)

theorem directiveArgumentAddedHeading {a : Argument} (argument : IsName a.name) :
    heading (directiveArgumentAdded resource a) =
      (.requiredDirectiveArgAdded, [resource, a.name]) :=
  partHeading rfl "A required arg " " on directive " " was added"
    (by simp [directiveArgumentAdded, String.append_assoc]) (by decide) (by decide) named
    (nameTickless argument)

theorem siteRemovedHeading {new : DirectiveDef} {site : String} (place : IsName site) :
    heading (siteRemoved resource new site) = (.directiveLocationRemoved, [resource, site]) :=
  partHeading rfl "" " was removed from " ""
    (by simp [siteRemoved, droppedFrom, String.append_assoc]) (by decide) (by decide) named
    (nameTickless place)

end Directives

end Changes

end SchemaDrift.Compare
