import SchemaDrift.Proofs.Schema.Model
import SchemaDrift.Proofs.Sdl.Results
import SchemaDrift.Sdl.Read

/-! Models that documents describe: every element stands under its own name, and names, fields and
arguments have what conversion gives them, such as unstacked types. Declarations establish this,
extensions and the implicit scalars keep it. -/
namespace SchemaDrift.Sdl
variable {N : String → Prop} {P : Field → Prop} {Q : Argument → Prop}

def FieldsBuilt (P : Field → Prop) (fields : Ordered Field) : Prop :=
  ∀ e ∈ fields.entries, e.1 = e.2.name ∧ P e.2

def InputFieldsBuilt (Q : Argument → Prop) (fields : Ordered Argument) : Prop :=
  ∀ e ∈ fields.entries, e.1 = e.2.name ∧ Q e.2

structure ShapeBuilt (N : String → Prop) (P : Field → Prop) (shape : ObjectShape) : Prop where
  interfaces : ∀ name ∈ shape.interfaces, N name
  fields : FieldsBuilt P shape.fields

def BodyBuilt (N : String → Prop) (P : Field → Prop) (Q : Argument → Prop) : TypeBody → Prop
  | .scalar => True
  | .object shape => ShapeBuilt N P shape
  | .interface shape => ShapeBuilt N P shape
  | .union members => ∀ name ∈ members, N name
  | .enum values => ∀ v ∈ values, N v.name
  | .inputObject fields => InputFieldsBuilt Q fields

structure TypeBuilt (N : String → Prop) (P : Field → Prop) (Q : Argument → Prop) (t : TypeDef) :
    Prop where
  name : N t.name
  body : BodyBuilt N P Q t.body

structure DirectiveBuilt (N : String → Prop) (Q : Argument → Prop) (d : DirectiveDef) : Prop where
  name : N d.name
  arguments : ∀ a ∈ d.arguments, Q a
  sites : ∀ site ∈ d.sites, N site

structure Built (N : String → Prop) (P : Field → Prop) (Q : Argument → Prop) (m : Model) : Prop where
  types : ∀ e ∈ m.types.entries, e.1 = e.2.name ∧ TypeBuilt N P Q e.2
  directives : ∀ e ∈ m.directives.entries, e.1 = e.2.name ∧ DirectiveBuilt N Q e.2

def ArgumentsBecome (Q : Argument → Prop) (nodes : List InputValue) : Prop :=
  ∀ a ∈ nodes, ∀ owner, Gives (argumentOf owner a) Q

def FieldsBecome (P : Field → Prop) (nodes : List FieldNode) : Prop :=
  ∀ f ∈ nodes, ∀ owner, Gives (fieldOf owner f) P

structure ShapeBecomes (N : String → Prop) (P : Field → Prop) (interfaces : List String)
    (nodes : List FieldNode) : Prop where
  interfaces : ∀ name ∈ interfaces, N name
  fields : FieldsBecome P nodes

def Members.Become (N : String → Prop) (P : Field → Prop) (Q : Argument → Prop) : Members → Prop
  | .scalar => True
  | .object interfaces fields => ShapeBecomes N P interfaces fields
  | .interface interfaces fields => ShapeBecomes N P interfaces fields
  | .union members => ∀ name ∈ members, N name
  | .enum values => ∀ v ∈ values, N v.name
  | .inputObject fields => ArgumentsBecome Q fields

structure TypeNode.Becomes (N : String → Prop) (P : Field → Prop) (Q : Argument → Prop)
    (node : TypeNode) : Prop where
  name : N node.name
  members : node.members.Become N P Q

structure DirectiveNode.Becomes (N : String → Prop) (Q : Argument → Prop) (node : DirectiveNode) :
    Prop where
  name : N node.name
  arguments : ArgumentsBecome Q node.arguments
  sites : ∀ site ∈ node.sites, N site

def Definition.Become (N : String → Prop) (P : Field → Prop) (Q : Argument → Prop) : Definition → Prop
  | .type node => node.Becomes N P Q
  | .extension node => node.Becomes N P Q
  | .directive node => node.Becomes N Q
  | .schema _ _ => True

theorem fieldNamed (owner : String) (node : FieldNode) :
    Gives (fieldOf owner node) fun f => f.name = node.name := by
  refine givesThen fun _ => ?_
  exact givesThen fun _ => givesOk rfl

theorem valueNamed (owner : String) (node : EnumValueNode) :
    Gives (enumValueOf owner node) fun v => v.name = node.name :=
  givesThen fun _ => givesOk rfl

theorem fieldsBuilt {owner : String} {nodes : List FieldNode} (become : FieldsBecome P nodes) :
    Gives (fieldsOf owner nodes) (FieldsBuilt P) := by
  have fields : Gives (nodes.mapM (fieldOf owner)) fun fs => ∀ f ∈ fs, P f :=
    givesMapM fun f member => become f member owner
  refine givesBind fields fun fs all => givesOk fun e member => ?_
  obtain ⟨f, inside, rfl⟩ := List.mem_map.mp (Ordered.memOfList member)
  exact ⟨rfl, all f inside⟩

theorem argumentsBuilt {owner : String} {nodes : List InputValue} (become : ArgumentsBecome Q nodes) :
    Gives (argumentsOf owner nodes) fun as => ∀ a ∈ as, Q a :=
  givesMapM fun a member => become a member owner

theorem inputFieldsBuilt {owner : String} {nodes : List InputValue} (become : ArgumentsBecome Q nodes) :
    Gives (inputFieldsOf owner nodes) (InputFieldsBuilt Q) := by
  refine givesBind (argumentsBuilt become) fun fs all => givesOk fun e member => ?_
  obtain ⟨f, inside, rfl⟩ := List.mem_map.mp (Ordered.memOfList member)
  exact ⟨rfl, all f inside⟩

theorem valuesBuilt {owner : String} {nodes : List EnumValueNode} (named : ∀ v ∈ nodes, N v.name) :
    Gives (nodes.mapM (enumValueOf owner)) fun values => ∀ v ∈ values, N v.name :=
  givesMapM fun node member => givesMono (valueNamed owner node) fun _ same => same ▸ named node member

theorem bodyBuilt {owner : String} {members : Members} (become : members.Become N P Q) :
    Gives (bodyOf owner members) (BodyBuilt N P Q) := by
  cases members with
  | scalar => exact givesOk trivial
  | object interfaces fields =>
    exact givesBind (fieldsBuilt become.fields) fun _ built => givesOk ⟨become.interfaces, built⟩
  | interface interfaces fields =>
    exact givesBind (fieldsBuilt become.fields) fun _ built => givesOk ⟨become.interfaces, built⟩
  | union members => exact givesOk become
  | enum values => exact givesBind (valuesBuilt become) fun _ built => givesOk built
  | inputObject fields => exact givesBind (inputFieldsBuilt become) fun _ built => givesOk built

theorem typeBuilt {node : TypeNode} (become : node.Becomes N P Q) :
    Gives (typeOf node) (TypeBuilt N P Q) := by
  refine givesThen fun _ => ?_
  exact givesBind (bodyBuilt become.members) fun _ built => givesOk ⟨become.name, built⟩

theorem directiveBuilt {node : DirectiveNode} (become : node.Becomes N Q) :
    Gives (directiveOf node) (DirectiveBuilt N Q) :=
  givesBind (argumentsBuilt become.arguments) fun _ all => givesOk ⟨become.name, all, become.sites⟩

theorem memAddMissing {names added : List String} {name : String} (member : name ∈ addMissing names added) :
    name ∈ names ∨ name ∈ added := by
  induction added generalizing names with
  | nil => exact .inl member
  | cons first rest ih =>
    rcases ih member with grown | later
    · dsimp only at grown
      split at grown
      · exact .inl grown
      · exact (List.mem_append.mp grown).imp_right fun here => List.mem_cons.mpr (.inl (by simpa using here))
    · exact .inr (List.mem_cons_of_mem _ later)

theorem missingAdded {names added : List String} (all : ∀ name ∈ names, N name)
    (more : ∀ name ∈ added, N name) : ∀ name ∈ addMissing names added, N name :=
  fun name member => (memAddMissing member).elim (all name) (more name)

theorem addFieldBuilt {owner : String} {fields : Ordered Field} {node : FieldNode}
    (become : ∀ owner, Gives (fieldOf owner node) P) (built : FieldsBuilt P fields) :
    Gives (addField owner fields node) (FieldsBuilt P) := by
  unfold addField
  split
  · exact givesError
  · refine givesBind (givesAnd (fieldNamed owner node) (become owner)) fun f new => givesOk fun e member => ?_
    rcases Ordered.memInsert member with rfl | old
    · exact ⟨new.1.symm, new.2⟩
    · exact built e old

theorem addValueBuilt {owner : String} {values : List EnumValue} {node : EnumValueNode}
    (named : N node.name) (built : ∀ v ∈ values, N v.name) :
    Gives (addEnumValue owner values node) fun grown => ∀ v ∈ grown, N v.name := by
  unfold addEnumValue
  split
  · exact givesError
  · refine givesBind (valueNamed owner node) fun v same => givesOk ?_
    exact List.forall_mem_append.mpr ⟨built, by simpa [same] using named⟩

theorem addInputFieldBuilt {owner : String} {fields : Ordered Argument} {field : Argument}
    (new : Q field) (built : InputFieldsBuilt Q fields) :
    Gives (addInputField owner fields field) (InputFieldsBuilt Q) := by
  unfold addInputField
  split
  · exact givesError
  · refine givesOk fun e member => ?_
    rcases Ordered.memInsert member with rfl | old
    · exact ⟨rfl, new⟩
    · exact built e old

theorem shapeExtended {owner : String} {shape : ObjectShape} {interfaces : List String}
    {nodes : List FieldNode} (become : ShapeBecomes N P interfaces nodes) (built : ShapeBuilt N P shape) :
    Gives (extendShape owner shape interfaces nodes) (ShapeBuilt N P) :=
  givesBind (givesFoldlM built.fields fun f member _ kept => addFieldBuilt (become.fields f member) kept)
    fun _ kept => givesOk ⟨missingAdded built.interfaces become.interfaces, kept⟩

theorem bodyExtended {owner : String} {body : TypeBody} {members : Members}
    (become : members.Become N P Q) (built : BodyBuilt N P Q body) :
    Gives (extendBody owner body members) (BodyBuilt N P Q) := by
  unfold extendBody
  split
  · exact givesOk trivial
  · exact givesBind (shapeExtended become built) fun _ kept => givesOk kept
  · exact givesBind (shapeExtended become built) fun _ kept => givesOk kept
  · exact givesOk (missingAdded built become)
  · exact givesBind (givesFoldlM built fun v member _ kept => addValueBuilt (become v member) kept)
      fun _ kept => givesOk kept
  · refine givesBind (argumentsBuilt become) fun converted all => ?_
    refine givesBind (givesFoldlM built fun f member _ kept => addInputFieldBuilt (all f member) kept)
      fun _ kept => ?_
    exact givesOk kept
  · exact givesError

theorem typeExtended {t : TypeDef} {node : TypeNode} (become : node.Becomes N P Q)
    (built : TypeBuilt N P Q t) :
    Gives (extendType t node) fun u => u.name = t.name ∧ TypeBuilt N P Q u := by
  unfold extendType
  split
  · exact givesError
  · refine givesThen fun _ => ?_
    exact givesBind (bodyExtended become.members built.body) fun _ kept =>
      givesOk ⟨rfl, built.name, kept⟩

theorem insertTypeBuilt {m : Model} {t : TypeDef} (built : Built N P Q m) (new : TypeBuilt N P Q t) :
    Built N P Q (m.insertType t) where
  types := by
    intro e member
    rcases Ordered.memInsert member with rfl | old
    · exact ⟨rfl, new⟩
    · exact built.types e old
  directives := built.directives

theorem declareBuilt {m : Model} {d : Definition} (become : d.Become N P Q) (built : Built N P Q m) :
    Gives (declare m d) (Built N P Q) := by
  cases d with
  | schema roots uses => exact givesOk ⟨built.types, built.directives⟩
  | type node =>
    refine givesBind (typeBuilt become) fun t new => ?_
    split
    · exact givesError
    · exact givesOk (insertTypeBuilt built new)
  | extension node => exact givesOk built
  | directive node =>
    refine givesBind (directiveBuilt become) fun d new => ?_
    split
    · exact givesError
    · refine givesOk ⟨built.types, fun e member => ?_⟩
      rcases Ordered.memInsert member with rfl | old
      · exact ⟨rfl, new⟩
      · exact built.directives e old

theorem extendBuilt {m : Model} {d : Definition} (become : d.Become N P Q) (built : Built N P Q m) :
    Gives (extend m d) (Built N P Q) := by
  cases d with
  | extension node =>
    unfold extend
    simp only
    split
    · exact givesError
    · rename_i t found
      have old := built.types _ (Ordered.getIffMem.mp found)
      refine givesBind (typeExtended become old.2) fun u extended => givesOk ⟨?_, built.directives⟩
      intro e member
      rcases Ordered.memModify member with ⟨_, _, rfl⟩ | kept
      · exact ⟨old.1.trans extended.1.symm, extended.2⟩
      · exact built.types e kept
  | _ => exact givesOk built

theorem resolveBuilt {m : Model} (scalars : ∀ name ∈ builtInScalars, N name) (built : Built N P Q m) :
    Gives (resolve m) (Built N P Q) := by
  refine givesFoldlM built fun r _ n kept => ?_
  unfold resolveReference
  split
  · exact givesOk kept
  · split
    · rename_i scalar
      exact givesOk (insertTypeBuilt kept ⟨scalars _ (List.contains_iff_mem.mp scalar), trivial⟩)
    · exact givesError

def converted (document : Document) : Outcome Model := do
  let declared ← document.foldlM declare Model.empty
  document.foldlM extend declared

theorem modelConverted (document : Document) : model document = converted document >>= resolve := by
  rw [converted, bind_assoc]
  rfl

theorem convertedBuilt {document : Document} (become : ∀ d ∈ document, d.Become N P Q) :
    Gives (converted document) (Built N P Q) := by
  have empty : Built N P Q Model.empty :=
    ⟨fun e member => by contradiction, fun e member => by contradiction⟩
  refine givesBind (givesFoldlM empty fun d member _ => declareBuilt (become d member)) ?_
  exact fun declared built => givesFoldlM built fun d member _ => extendBuilt (become d member)

theorem modelBuilt {document : Document} (scalars : ∀ name ∈ builtInScalars, N name)
    (become : ∀ d ∈ document, d.Become N P Q) : Gives (model document) (Built N P Q) := by
  rw [modelConverted]
  exact givesBind (convertedBuilt become) fun _ => resolveBuilt scalars

theorem shapeBuilt {m : Model} (built : Built N P Q m) {t : TypeDef} (member : t ∈ m.typeList)
    {shape : ObjectShape} (shaped : t.shape? = some shape) : ShapeBuilt N P shape := by
  obtain ⟨key, entry⟩ := Model.memTypeList.mp member
  have body := (built.types _ entry).2.body
  unfold TypeDef.shape? at shaped
  split at shaped
  · rename_i same
    cases shaped
    rw [same] at body
    exact body
  · rename_i same
    cases shaped
    rw [same] at body
    exact body
  · contradiction

theorem inputBuilt {m : Model} (built : Built N P Q m) {t : TypeDef} (member : t ∈ m.typeList)
    {fields : Ordered Argument} (input : t.body = .inputObject fields) : InputFieldsBuilt Q fields := by
  obtain ⟨key, entry⟩ := Model.memTypeList.mp member
  have body := (built.types _ entry).2.body
  rw [input] at body
  exact body

theorem builtKeyed {m : Model} (built : Built N P Q m) : m.Keyed where
  types e member := (built.types e member).1
  directives e member := (built.directives e member).1
  fields _ member _ shaped e inside := ((shapeBuilt built member shaped).fields e inside).1
  inputFields _ member _ input e inside := (inputBuilt built member input e inside).1

section Wrappers

def ArgumentUnstacked (a : Argument) : Prop := a.type.Unstacked

def FieldUnstacked (f : Field) : Prop := f.type.Unstacked ∧ ∀ a ∈ f.arguments, a.type.Unstacked

theorem argumentUnstacked (node : InputValue) (owner : String) :
    Gives (argumentOf owner node) ArgumentUnstacked :=
  givesThen fun _ => givesThen fun _ => givesOk (TypeRef.unstackUnstacked _)

theorem fieldUnstacked (node : FieldNode) (owner : String) :
    Gives (fieldOf owner node) FieldUnstacked := by
  have arguments : Gives (argumentsOf (owner ++ "." ++ node.name) node.arguments) fun as =>
      ∀ a ∈ as, a.type.Unstacked := givesMapM fun a _ => argumentUnstacked a _
  refine givesBind arguments fun as unstacked => givesThen fun _ => ?_
  exact givesOk ⟨TypeRef.unstackUnstacked _, unstacked⟩

theorem membersUnstacked (members : Members) :
    members.Become (fun _ => True) FieldUnstacked ArgumentUnstacked := by
  cases members with
  | scalar => trivial
  | object interfaces fields => exact ⟨fun _ _ => trivial, fun f _ => fieldUnstacked f⟩
  | interface interfaces fields => exact ⟨fun _ _ => trivial, fun f _ => fieldUnstacked f⟩
  | union members => exact fun _ _ => trivial
  | enum values => exact fun _ _ => trivial
  | inputObject fields => exact fun a _ => argumentUnstacked a

theorem definitionUnstacked (d : Definition) :
    d.Become (fun _ => True) FieldUnstacked ArgumentUnstacked := by
  cases d with
  | type node => exact ⟨trivial, membersUnstacked node.members⟩
  | extension node => exact ⟨trivial, membersUnstacked node.members⟩
  | directive node => exact ⟨trivial, fun a _ => argumentUnstacked a, fun _ _ => trivial⟩
  | schema roots uses => trivial

end Wrappers

theorem readDocument {text : String} {m : Model} (read : readSchema text = .ok m) :
    ∃ document, parseDocument text = .ok document ∧ model document = .ok m := by
  unfold readSchema at read
  split at read
  · contradiction
  · rename_i document parsed
    split at read
    · contradiction
    · rename_i ok
      cases read
      exact ⟨document, parsed, ok⟩

theorem readKeyed {text : String} {m : Model} (read : readSchema text = .ok m) : m.Keyed := by
  obtain ⟨document, _, built⟩ := readDocument read
  exact builtKeyed (modelBuilt (fun _ _ => trivial) (fun d _ => definitionUnstacked d) m built)

def reads (text : String) (test : Model → Bool) : Bool :=
  match readSchema text with
  | .ok m => test m
  | .error _ => false

theorem modelRead (text : String) (test : Model → Bool) (passed : reads text test = true) :
    ∃ m, readSchema text = .ok m ∧ test m = true := by
  unfold reads at passed
  split at passed
  · rename_i m read
    exact ⟨m, read, passed⟩
  · contradiction

theorem modelsRead (before after : String) (test : Model → Model → Bool)
    (passed : reads before (fun old => reads after (test old)) = true) :
    ∃ old new, readSchema before = .ok old ∧ readSchema after = .ok new ∧ test old new = true := by
  obtain ⟨old, readOld, rest⟩ := modelRead before _ passed
  obtain ⟨new, readNew, holds⟩ := modelRead after _ rest
  exact ⟨old, new, readOld, readNew, holds⟩

end SchemaDrift.Sdl
