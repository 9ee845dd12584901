import SchemaDrift.Proofs.Ordered
import SchemaDrift.Proofs.Sdl.DocumentModel

/-! Members of a type, in its definition and in an extension. A definition's members are converted and
collected as they stand; an extension's are added one after the other and must be new. Where they are,
adding them is the same as having written them into the definition. -/
namespace SchemaDrift.Sdl

section Runs

variable {ε α β σ : Type} {step : σ → α → Except ε σ} {convert : α → Except ε β} {put : σ → β → σ}
  {names : σ → List String} {name : α → String}

/- A step that adds a named member to those there are, where its name is new and it converts. -/
structure AddsNamed (step : σ → α → Except ε σ) (convert : α → Except ε β) (put : σ → β → σ)
    (names : σ → List String) (name : α → String) : Prop where
  adds : ∀ s x, (step s x).toOption =
    if name x ∈ names s then none else (convert x).toOption.map (put s)
  grows : ∀ s x, name x ∉ names s → Gives (convert x) fun y => names (put s y) = names s ++ [name x]

theorem AddsNamed.run (each : AddsNamed step convert put names name) (xs : List α) (s : σ) :
    (xs.foldlM step s).toOption =
      if Fresh (names s) (xs.map name) then (xs.mapM convert).toOption.map (·.foldl put s) else none := by
  induction xs generalizing s with
  | nil => exact (if_pos (freshNil _)).symm
  | cons x rest ih =>
    rw [List.foldlM_cons, List.mapM_cons, toOptionBind, toOptionBind, each.adds, List.map_cons]
    simp only [freshCons]
    by_cases known : name x ∈ names s
    · simp [known]
    · simp only [known, not_false_eq_true, true_and, if_false]
      cases converted : convert x with
      | error e => simp [Except.toOption]
      | ok y =>
        have grown := each.grows s x known y converted
        calc (rest.foldlM step (put s y)).toOption
          _ = if Fresh (names s ++ [name x]) (rest.map name) then
              (rest.mapM convert).toOption.map (·.foldl put (put s y)) else none := grown ▸ ih (put s y)
          _ = _ := by
            refine if_congr Iff.rfl ?_ rfl
            cases rest.mapM convert <;> rfl

end Runs

section Names

theorem fieldsNamed (owner : String) (nodes : List FieldNode) :
    Gives (nodes.mapM (fieldOf owner)) fun fs => fs.map (·.name) = nodes.map (·.name) :=
  givesNames (fieldNamed owner)

theorem argumentNamed (owner : String) (node : InputValue) :
    Gives (argumentOf owner node) fun a => a.name = node.name :=
  givesThen fun _ => givesThen fun _ => givesOk rfl

theorem argumentsNamed (owner : String) (nodes : List InputValue) :
    Gives (argumentsOf owner nodes) fun as => as.map (·.name) = nodes.map (·.name) :=
  givesNames (argumentNamed owner)

theorem valuesNamed (owner : String) (nodes : List EnumValueNode) :
    Gives (nodes.mapM (enumValueOf owner)) fun vs => vs.map (·.name) = nodes.map (·.name) :=
  givesNames (valueNamed owner)

end Names

section Added

theorem fieldAdds (owner : String) : AddsNamed (addField owner) (fieldOf owner)
    (fun fields f => fields.insert f.name f) Ordered.keys (·.name) where
  adds fields node := by
    by_cases known : node.name ∈ fields.keys
    · rw [addField, if_pos ((Ordered.containsIff ..).mpr known), if_pos known]
      rfl
    · rw [addField, if_neg fun present => known ((Ordered.containsIff ..).mp present), if_neg known]
      cases ok : fieldOf owner node with
      | error e => rfl
      | ok f =>
        have named : f.name = node.name := fieldNamed owner node f ok
        exact congrArg (fun name => some (fields.insert name f)) named.symm
  grows fields node absent := givesMono (fieldNamed owner node) fun f named => by
    rw [named, Ordered.keysInsertNew absent]

theorem inputFieldAdds (owner : String) : AddsNamed (addInputField owner) .ok
    (fun fields f => fields.insert f.name f) Ordered.keys Argument.name where
  adds fields f := by
    by_cases known : f.name ∈ fields.keys
    · rw [addInputField, if_pos ((Ordered.containsIff ..).mpr known), if_pos known]
      rfl
    · rw [addInputField, if_neg fun present => known ((Ordered.containsIff ..).mp present),
        if_neg known]
      rfl
  grows _ f absent := givesOk (Ordered.keysInsertNew absent f)

theorem valueAdds (owner : String) : AddsNamed (addEnumValue owner) (enumValueOf owner)
    (fun values v => values ++ [v]) (List.map EnumValue.name) (·.name) where
  adds values node := by
    have found : (enumValueNamed? values node.name).isSome = true ↔
        node.name ∈ values.map EnumValue.name := by
      simp [enumValueNamed?]
    by_cases known : node.name ∈ values.map EnumValue.name
    · rw [addEnumValue, if_pos (found.mpr known), if_pos known]
      rfl
    · rw [addEnumValue, if_neg fun present => known (found.mp present), if_neg known]
      cases enumValueOf owner node <;> rfl
  grows _ node _ := givesMono (valueNamed owner node) fun v named => by
    rw [List.map_append, List.map_singleton, named]

theorem addedFields (owner : String) (nodes : List FieldNode) (fields : Ordered Field) :
    (nodes.foldlM (addField owner) fields).toOption =
      if Fresh fields.keys (nodes.map (·.name)) then
        (nodes.mapM (fieldOf owner)).toOption.map fun fs =>
          fields.insertAll (Ordered.labelled Field.name fs)
      else none := by
  simp only [Ordered.insertAll, Ordered.labelled, List.foldl_map]
  exact (fieldAdds owner).run nodes fields

theorem addedInputFields (owner : String) (converted : List Argument) (fields : Ordered Argument) :
    (converted.foldlM (addInputField owner) fields).toOption =
      if Fresh fields.keys (converted.map (·.name)) then
        some (fields.insertAll (Ordered.labelled Argument.name converted))
      else none := by
  have all : converted.mapM Except.ok = (.ok converted : Outcome (List Argument)) :=
    (List.mapM_pure ..).trans (congrArg _ (List.map_id' converted))
  rw [(inputFieldAdds owner).run, all]
  simp only [Ordered.insertAll, Ordered.labelled, List.foldl_map]
  rfl

theorem addedValues (owner : String) (nodes : List EnumValueNode) (values : List EnumValue) :
    (nodes.foldlM (addEnumValue owner) values).toOption =
      if Fresh (values.map (·.name)) (nodes.map (·.name)) then
        (nodes.mapM (enumValueOf owner)).toOption.map (values ++ ·)
      else none := by
  have puts : ∀ vs : List EnumValue, vs.foldl (fun values v => values ++ [v]) values = values ++ vs := by
    intro vs
    rw [List.foldl_append_eq_append, ← List.flatMap_def, List.flatMap_singleton']
  have run := (valueAdds owner).run nodes values
  simp only [puts] at run
  exact run

theorem addMissingFresh {names added : List String} (fresh : Fresh names added) :
    addMissing names added = names ++ added := by
  induction added generalizing names with
  | nil => exact (List.append_nil _).symm
  | cons n rest ih =>
    obtain ⟨absent, later⟩ := freshCons.mp fresh
    have step : addMissing names (n :: rest) = addMissing (names ++ [n]) rest := by
      simp [addMissing, absent]
    rw [step, ih later, List.append_assoc]
    rfl

end Added

section Appended

def Members.append : Members → Members → Members
  | .object interfaces fields, .object others more => .object (interfaces ++ others) (fields ++ more)
  | .interface interfaces fields, .interface others more =>
    .interface (interfaces ++ others) (fields ++ more)
  | .union members, .union more => .union (members ++ more)
  | .enum values, .enum more => .enum (values ++ more)
  | .inputObject fields, .inputObject more => .inputObject (fields ++ more)
  | members, _ => members

def Members.Adds : Members → Members → Prop
  | .scalar, .scalar => True
  | .object interfaces fields, .object others more =>
    Fresh interfaces others ∧ Fresh (fields.map (·.name)) (more.map (·.name))
  | .interface interfaces fields, .interface others more =>
    Fresh interfaces others ∧ Fresh (fields.map (·.name)) (more.map (·.name))
  | .union members, .union more => Fresh members more
  | .enum values, .enum more => Fresh (values.map (·.name)) (more.map (·.name))
  | .inputObject fields, .inputObject more => Fresh (fields.map (·.name)) (more.map (·.name))
  | _, _ => False

theorem fieldsAppended (owner : String) {fields more : List FieldNode}
    (fresh : Fresh (fields.map (·.name)) (more.map (·.name))) :
    (fieldsOf owner (fields ++ more)).toOption =
      (fieldsOf owner fields).toOption.bind fun built => (more.foldlM (addField owner) built).toOption := by
  rw [fieldsOf, fieldsOf, toOptionBind, toOptionBind, toOptionMapMAppend, Option.bind_assoc,
    Option.bind_assoc]
  refine Option.bind_congr fun fs converted => ?_
  have names : fs.map (·.name) = fields.map (·.name) :=
    fieldsNamed owner fields fs (toOptionSome.mp converted)
  have added := addedFields owner more (Ordered.ofList (Ordered.labelled Field.name fs))
  rw [if_pos (Ordered.freshCollected (names ▸ fresh))] at added
  refine Eq.trans ?_ added.symm
  rw [Option.bind_map, Option.map_eq_bind]
  exact congrArg _ (funext fun gs => congrArg some (Ordered.collectedAppend ..))

theorem inputFieldsAppended (owner : String) {fields more : List InputValue}
    (fresh : Fresh (fields.map (·.name)) (more.map (·.name))) :
    (inputFieldsOf owner (fields ++ more)).toOption =
      (inputFieldsOf owner fields).toOption.bind fun built =>
        (argumentsOf owner more).toOption.bind fun converted =>
          (converted.foldlM (addInputField owner) built).toOption := by
  rw [inputFieldsOf, inputFieldsOf, toOptionBind, toOptionBind, argumentsOf, toOptionMapMAppend,
    Option.bind_assoc, Option.bind_assoc]
  refine Option.bind_congr fun fs converted => ?_
  have names : fs.map (·.name) = fields.map (·.name) :=
    argumentsNamed owner fields fs (toOptionSome.mp converted)
  rw [Option.bind_map]
  refine Option.bind_congr fun gs rest => ?_
  have added := addedInputFields owner gs (Ordered.ofList (Ordered.labelled Argument.name fs))
  rw [argumentsNamed owner more gs (toOptionSome.mp rest),
    if_pos (Ordered.freshCollected (names ▸ fresh))] at added
  exact (congrArg some (Ordered.collectedAppend ..)).trans added.symm

theorem valuesAppended (owner : String) {values more : List EnumValueNode}
    (fresh : Fresh (values.map (·.name)) (more.map (·.name))) :
    ((values ++ more).mapM (enumValueOf owner)).toOption =
      (values.mapM (enumValueOf owner)).toOption.bind fun built =>
        (more.foldlM (addEnumValue owner) built).toOption := by
  rw [toOptionMapMAppend]
  refine Option.bind_congr fun vs converted => ?_
  rw [addedValues, valuesNamed owner values vs (toOptionSome.mp converted), if_pos fresh]

theorem shapeAppended (owner : String) {interfaces others : List String} {fields more : List FieldNode}
    (implements : Fresh interfaces others) (fresh : Fresh (fields.map (·.name)) (more.map (·.name))) :
    ((fieldsOf owner (fields ++ more)).toOption.map fun built =>
        (⟨interfaces ++ others, built⟩ : ObjectShape)) =
      (fieldsOf owner fields).toOption.bind fun built =>
        (extendShape owner ⟨interfaces, built⟩ others more).toOption := by
  rw [fieldsAppended owner fresh, Option.map_bind]
  refine congrArg _ (funext fun built => ?_)
  rw [extendShape, toOptionBind, addMissingFresh implements, Function.comp_apply, Option.map_eq_bind]
  rfl

theorem bodyAppended (owner : String) {members more : Members} (adds : members.Adds more) :
    (bodyOf owner (members.append more)).toOption =
      (bodyOf owner members).toOption.bind fun body => (extendBody owner body more).toOption := by
  cases members <;> cases more <;> try contradiction
  case scalar => rfl
  case object interfaces fields others more =>
    have shapes := congrArg (Option.map TypeBody.object) (shapeAppended owner adds.1 adds.2)
    simp only [Members.append, bodyOf, extendBody, toOptionBind, toOptionOk, Option.bind_assoc,
      Option.bind_some]
    simpa only [Option.map_eq_bind, Option.bind_assoc, Option.bind_some, Function.comp_def] using shapes
  case interface interfaces fields others more =>
    have shapes := congrArg (Option.map TypeBody.interface) (shapeAppended owner adds.1 adds.2)
    simp only [Members.append, bodyOf, extendBody, toOptionBind, toOptionOk, Option.bind_assoc,
      Option.bind_some]
    simpa only [Option.map_eq_bind, Option.bind_assoc, Option.bind_some, Function.comp_def] using shapes
  case union names more =>
    simp only [Members.append, bodyOf, extendBody, toOptionOk, Option.bind_some, addMissingFresh adds]
  case enum values more =>
    simp only [Members.append, bodyOf, extendBody, toOptionBind, toOptionOk, Option.bind_assoc,
      Option.bind_some, valuesAppended owner adds]
  case inputObject fields more =>
    simp only [Members.append, bodyOf, extendBody, toOptionBind, toOptionOk, Option.bind_assoc,
      Option.bind_some, inputFieldsAppended owner adds]

end Appended

end SchemaDrift.Sdl
