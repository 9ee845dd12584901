import SchemaDrift.Compare.Arguments
import SchemaDrift.Compare.Directives
import SchemaDrift.Compare.EnumValues
import SchemaDrift.Compare.Fields
import SchemaDrift.Compare.InputFields
import SchemaDrift.Compare.Interfaces
import SchemaDrift.Compare.Types
import SchemaDrift.Compare.Unions

/-! The comparison of two models: core passes, then the extended ones where they are asked for, each
appended to what came before. `compare` sorts the changes at the end, `gathered` as the passes find
them. -/
namespace SchemaDrift.Compare

def coreChanges (old new : Model) (options : Options) : List Change :=
  removedTypes old new options ++ changedKinds old new options ++ fieldChanges old new options ++
    argumentChanges old new options ++ removedValues old new options

def extendedChanges (old new : Model) (options : Options) : List Change :=
  unionChanges old new ++ addedValues old new ++ interfaceChanges old new ++
    inputFieldChanges old new options ++ directiveChanges old new options

def changes (old new : Model) (options : Options) : List Change :=
  coreChanges old new options ++ if options.extended then extendedChanges old new options else []

def compare (old new : Model) (options : Options) : ChangeSet :=
  ChangeSet.ofList (changes old new options)

/-- The lists as the passes write them. Removed types, changed kinds, fields and removed values go to
the breaking changes without a look at severities; the other passes sort what they find. -/
def gathered (old new : Model) (options : Options) : ChangeSet :=
  let core := [⟨removedTypes old new options, []⟩, ⟨changedKinds old new options, []⟩,
    ⟨fieldChanges old new options, []⟩, ChangeSet.ofList (argumentChanges old new options),
    ⟨removedValues old new options, []⟩]
  let extended := [unionChanges old new, addedValues old new, interfaceChanges old new,
    inputFieldChanges old new options, directiveChanges old new options].map ChangeSet.ofList
  (core ++ if options.extended then extended else []).foldl ChangeSet.append .empty

end SchemaDrift.Compare
