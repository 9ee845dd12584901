import SchemaDrift.Proofs.Schema.Names
import SchemaDrift.Proofs.Sdl.Resolution

/-! Names in what is read. A token takes a name as far as its characters go, and a parser makes no
names of its own; so all names in a document, and those in the model that it describes, consist of
the characters of names. -/
namespace SchemaDrift.Sdl
open SchemaDrift.Sdl.Parser

section Tokens

def Token.Named : Token → Prop
  | .name s => IsName s
  | _ => True

def Scan.Named (s : Scan) : Prop := ∀ l ∈ s.lexemes, l.token.Named

theorem numberNamed {cs : List Char} {token : Token} (read : numberToken? cs = some token) :
    token.Named := by
  unfold numberToken? at read
  split at read <;>
  · obtain ⟨_, _, rfl⟩ := Option.map_eq_some_iff.mp read
    trivial

theorem tokenNamed {cs : List Char} {token : Token} {n : Nat} (read : token? cs = some (token, n)) :
    token.Named := by
  unfold token? at read
  split at read
  case h_1 => contradiction
  case h_2 =>
    obtain ⟨_, _, same⟩ := Option.bind_eq_some_iff.mp read
    cases same
    trivial
  case h_3 =>
    obtain ⟨_, _, later⟩ := Option.bind_eq_some_iff.mp read
    obtain ⟨_, _, same⟩ := Option.bind_eq_some_iff.mp later
    cases same
    trivial
  case h_4 c cs _ _ =>
    split_ifs at read with mark start digit
    · cases read
      trivial
    · cases read
      intro d inside
      rw [String.toList_ofList] at inside
      rcases List.mem_cons.mp inside with rfl | rest
      · simp [isNameRest, start]
      · exact List.all_eq_true.mp List.all_takeWhile d rest
    · obtain ⟨t, number, same⟩ := Option.map_eq_some_iff.mp read
      cases same
      exact numberNamed number

theorem scanNamed (budget : Nat) (place : Position) (cs : List Char) :
    (scanFrom budget place cs).Named := by
  fun_induction scanFrom budget place cs with
  | case2 budget place c cs next separates ih => exact ih
  | case3 budget place cs n within separates ih => exact ih
  | case7 budget place c cs plain other token n read left spent rest ih =>
    exact List.forall_mem_cons.mpr ⟨tokenNamed read, ih⟩
  | _ => exact List.forall_mem_nil _

end Tokens

section Primitives

theorem keepsHere {I : Scan → Prop} : Keeps I here fun _ => True := by
  rintro ⟨_ | ⟨l, ls⟩, stop, complete⟩ kept <;> exact givesOk ⟨trivial, kept⟩

theorem keepsRefuse {I : Scan → Prop} {α : Type} {P : α → Prop} : Keeps I refuse P :=
  keepsBind keepsHere fun _ _ => keepsThrow

theorem readsNext : Keeps Scan.Named next? fun t => ∀ token, t = some token → token.Named := by
  rintro ⟨_ | ⟨l, ls⟩, stop, complete⟩ named
  · exact givesOk ⟨fun _ found => by contradiction, named⟩
  · exact givesOk ⟨fun token same => Option.some.inj same ▸ named l List.mem_cons_self, named⟩

theorem readsSkip : Keeps Scan.Named skip fun _ => True :=
  fun _ named => givesOk ⟨trivial, fun l inside => named l (List.mem_of_mem_drop inside)⟩

theorem readsAccept (token : Token) : Keeps Scan.Named (accept token) fun _ => True := by
  refine keepsBind (keepsBind readsNext fun t _ => keepsPure (P := fun _ => True) trivial) fun here _ => ?_
  cases here with
  | false => exact keepsPure trivial
  | true => exact keepsBind readsSkip fun _ _ => keepsPure trivial

theorem readsExpect (token : Token) : Keeps Scan.Named (expect token) fun _ => True := by
  refine keepsBind (readsAccept token) fun accepted _ => ?_
  cases accepted with
  | false => exact keepsRefuse
  | true => exact keepsPure trivial

theorem readsName : Keeps Scan.Named name IsName := by
  refine keepsBind readsNext fun t named => ?_
  split
  · exact keepsBind readsSkip fun _ _ => keepsPure (named _ rfl)
  · exact keepsRefuse

end Primitives

section Grammar

structure InputValue.Named (node : InputValue) : Prop where
  name : IsName node.name
  type : IsName node.type.core

structure FieldNode.Named (node : FieldNode) : Prop where
  name : IsName node.name
  arguments : ∀ a ∈ node.arguments, a.Named
  type : IsName node.type.core

structure ShapeNamed (interfaces : List String) (fields : List FieldNode) : Prop where
  interfaces : ∀ name ∈ interfaces, IsName name
  fields : ∀ f ∈ fields, f.Named

def Members.Named : Members → Prop
  | .scalar => True
  | .object interfaces fields => ShapeNamed interfaces fields
  | .interface interfaces fields => ShapeNamed interfaces fields
  | .union members => ∀ name ∈ members, IsName name
  | .enum values => ∀ v ∈ values, IsName v.name
  | .inputObject fields => ∀ f ∈ fields, f.Named

structure TypeNode.Named (node : TypeNode) : Prop where
  name : IsName node.name
  members : node.members.Named

structure DirectiveNode.Named (node : DirectiveNode) : Prop where
  name : IsName node.name
  arguments : ∀ a ∈ node.arguments, a.Named
  sites : ∀ site ∈ node.sites, IsName site

def Definition.Named : Definition → Prop
  | .type node => node.Named
  | .extension node => node.Named
  | .directive node => node.Named
  | .schema _ _ => True

theorem readsThen {α β : Type} {p : Parser α} {f : α → Parser β} {P : β → Prop}
    (first : Keeps Scan.Named p fun _ => True) (next : ∀ a, Keeps Scan.Named (f a) P) :
    Keeps Scan.Named (p >>= f) P :=
  keepsBind first fun a _ => next a

theorem readsSeparated {α : Type} {mark : Char} {item : Parser α} {P : α → Prop}
    (each : Keeps Scan.Named item P) :
    Keeps Scan.Named (separated1 mark item) fun xs => ∀ x ∈ xs, P x :=
  keepsBind each fun _ head => keepsBind (keepsMany (readsThen readsSkip fun _ => each)) fun _ tail =>
    keepsPure (List.forall_mem_cons.mpr ⟨head, tail⟩)

theorem readsEach {α : Type} {starts : Token → Bool} {item : Parser α}
    (each : Keeps Scan.Named item fun _ => True) : Keeps Scan.Named (many starts item) fun _ => True :=
  keepsMono (keepsMany each) fun _ _ => trivial

theorem readsNameThen {α : Type} {f : String → Parser α} {P : α → Prop}
    (next : ∀ name, IsName name → Keeps Scan.Named (f name) P) : Keeps Scan.Named (name >>= f) P :=
  keepsBind readsName next

theorem readsDescription : Keeps Scan.Named description fun _ => True := by
  refine keepsBind readsNext fun t _ => ?_
  split
  · exact readsSkip
  · exact keepsPure trivial

theorem readsValue (admitted : Bool) (depth : Nat) :
    Keeps Scan.Named (value admitted depth) fun _ => True := by
  induction depth with
  | zero => exact keepsRefuse
  | succ depth ih =>
    refine keepsBind readsNext fun t _ => ?_
    split
    · exact readsThen readsSkip fun _ => keepsPure trivial
    · exact readsThen readsSkip fun _ => keepsPure trivial
    · exact readsThen readsSkip fun _ => keepsPure trivial
    · exact readsThen readsSkip fun _ => keepsPure trivial
    · split
      · refine readsThen readsSkip fun _ => readsThen (readsEach ih) fun _ => ?_
        exact readsThen (readsExpect _) fun _ => keepsPure trivial
      · split
        · have entry : Keeps Scan.Named (do
              let key ← name
              expect (.mark ':')
              let v ← value admitted depth
              pure (key, v)) fun _ => True :=
            readsNameThen fun _ _ => readsThen (readsExpect _) fun _ => readsThen ih fun _ =>
              keepsPure trivial
          refine readsThen readsSkip fun _ => readsThen (readsEach entry) fun _ => ?_
          exact readsThen (readsExpect _) fun _ => keepsPure trivial
        · split
          · exact readsThen readsSkip fun _ => readsNameThen fun _ _ => keepsPure trivial
          · exact keepsRefuse
    · exact keepsRefuse

theorem readsTypeReference (depth : Nat) :
    Keeps Scan.Named (typeReference depth) fun type => IsName type.core := by
  induction depth with
  | zero => exact keepsRefuse
  | succ depth ih =>
    have ending {inner : TypeRef} (core : IsName inner.core) : Keeps Scan.Named (do
        if ← accept (.mark '!') then pure (.nonNull inner) else pure inner)
        fun type => IsName type.core := by
      refine readsThen (readsAccept _) fun required => ?_
      cases required with
      | false => exact keepsPure core
      | true => exact keepsPure core
    refine keepsBind readsNext fun t named => ?_
    split
    · rename_i s
      have core : IsName (TypeRef.named s).core := named _ rfl
      refine readsThen readsSkip fun _ => ?_
      exact keepsBind (Q := fun type => IsName type.core) (keepsPure core) fun _ => ending
    · refine readsThen readsSkip fun _ => keepsBind ih fun item core => readsThen (readsExpect _) fun _ => ?_
      exact keepsBind (Q := fun type => IsName type.core) (keepsPure core) fun _ => ending
    · exact keepsBind (Q := fun _ => False) keepsRefuse fun _ never => never.elim

theorem readsDirectives : Keeps Scan.Named directives fun _ => True := by
  have argument : Keeps Scan.Named (do
      let key ← name
      expect (.mark ':')
      let v ← value true nestingBound
      pure (key, v)) fun _ => True :=
    readsNameThen fun _ _ => readsThen (readsExpect _) fun _ => readsThen (readsValue _ _) fun _ =>
      keepsPure trivial
  refine readsEach (readsThen (readsExpect _) fun _ => readsNameThen fun _ _ => ?_)
  refine readsThen (readsAccept _) fun opened => ?_
  cases opened with
  | false => exact keepsPure trivial
  | true =>
    refine readsThen (keepsMono (keepsMany1 argument) fun _ _ => trivial) fun _ => ?_
    exact readsThen (readsExpect _) fun _ => keepsPure trivial

theorem readsInputValue : Keeps Scan.Named inputValue InputValue.Named := by
  refine readsThen keepsHere fun position => readsThen readsDescription fun _ => ?_
  refine readsNameThen fun name named => readsThen (readsExpect _) fun _ => ?_
  refine keepsBind (readsTypeReference _) fun type core => readsThen (readsAccept _) fun assigned => ?_
  have ending (default : Option Expression) : Keeps Scan.Named (do
      pure (⟨position, name, type, default, ← directives⟩ : InputValue)) InputValue.Named :=
    readsThen readsDirectives fun _ => keepsPure ⟨named, core⟩
  cases assigned with
  | false => exact readsThen (keepsPure trivial) ending
  | true => exact readsThen (keepsMap (readsValue _ _) fun _ _ => trivial) ending

theorem readsArguments : Keeps Scan.Named Sdl.arguments fun nodes => ∀ a ∈ nodes, a.Named := by
  refine readsThen (readsAccept _) fun opened => ?_
  cases opened with
  | false => exact keepsPure (by simp)
  | true => exact keepsBind (keepsMany1 readsInputValue) fun _ all => readsThen (readsExpect _) fun _ =>
      keepsPure all

theorem readsFieldNode : Keeps Scan.Named fieldNode FieldNode.Named := by
  refine readsThen keepsHere fun position => readsThen readsDescription fun _ => ?_
  refine readsNameThen fun name named => keepsBind readsArguments fun arguments all => ?_
  refine readsThen (readsExpect _) fun _ => keepsBind (readsTypeReference _) fun type core => ?_
  exact readsThen readsDirectives fun _ => keepsPure ⟨named, all, core⟩

theorem readsEnumValue : Keeps Scan.Named enumValueNode fun node => IsName node.name :=
  readsThen keepsHere fun _ => readsThen readsDescription fun _ => readsNameThen fun _ named =>
    readsThen readsDirectives fun _ => keepsPure named

theorem readsBlock {α : Type} {item : Parser α} {P : α → Prop} (each : Keeps Scan.Named item P) :
    Keeps Scan.Named (block item) fun xs => ∀ x ∈ xs, P x := by
  refine readsThen (readsAccept _) fun opened => ?_
  cases opened with
  | false => exact keepsPure (by simp)
  | true => exact keepsBind (keepsMany1 each) fun _ all => readsThen (readsExpect _) fun _ => keepsPure all

theorem readsImplemented : Keeps Scan.Named implemented fun names => ∀ name ∈ names, IsName name := by
  refine readsThen (readsAccept _) fun present => ?_
  cases present with
  | false => exact keepsPure (by simp)
  | true => exact readsThen (readsAccept _) fun _ => readsSeparated readsName

theorem readsUnionMembers : Keeps Scan.Named unionMembers fun names => ∀ name ∈ names, IsName name := by
  refine readsThen (readsAccept _) fun present => ?_
  cases present with
  | false => exact keepsPure (by simp)
  | true => exact readsThen (readsAccept _) fun _ => readsSeparated readsName

theorem readsType (position : Location) (kind : TypeKind) :
    Keeps Scan.Named (typeAfterKeyword position kind) TypeNode.Named := by
  refine readsNameThen fun name named => ?_
  cases kind with
  | scalar => exact readsThen readsDirectives fun _ => keepsPure ⟨named, trivial⟩
  | object =>
    exact keepsBind readsImplemented fun _ implements => readsThen readsDirectives fun _ =>
      keepsBind (readsBlock readsFieldNode) fun _ fields => keepsPure ⟨named, implements, fields⟩
  | interface =>
    exact keepsBind readsImplemented fun _ implements => readsThen readsDirectives fun _ =>
      keepsBind (readsBlock readsFieldNode) fun _ fields => keepsPure ⟨named, implements, fields⟩
  | union =>
    exact readsThen readsDirectives fun _ => keepsBind readsUnionMembers fun _ members =>
      keepsPure ⟨named, members⟩
  | enum =>
    exact readsThen readsDirectives fun _ => keepsBind (readsBlock readsEnumValue) fun _ values =>
      keepsPure ⟨named, values⟩
  | inputObject =>
    exact readsThen readsDirectives fun _ => keepsBind (readsBlock readsInputValue) fun _ fields =>
      keepsPure ⟨named, fields⟩

theorem readsExtension : Keeps Scan.Named typeExtension TypeNode.Named := by
  refine readsThen keepsHere fun position => keepsBind readsNext fun token _ => ?_
  split
  · exact keepsRefuse
  · refine readsThen readsSkip fun _ => keepsBind (readsType position _) fun node named => ?_
    split
    · exact keepsThrow
    · exact keepsPure named

theorem readsSite : Keeps Scan.Named site IsName := by
  refine keepsBind readsNext fun token named => ?_
  split
  · split
    · exact readsThen readsSkip fun _ => keepsPure (named _ rfl)
    · exact keepsRefuse
  · exact keepsRefuse

theorem readsSites : Keeps Scan.Named sites fun names => ∀ name ∈ names, IsName name := by
  refine keepsBind readsNext fun token _ => ?_
  split
  · exact readsThen readsSkip fun _ => readsSeparated readsSite
  · exact readsSeparated readsSite
  · exact keepsPure (by simp)

theorem readsDirective (position : Location) :
    Keeps Scan.Named (directiveAfterKeyword position) DirectiveNode.Named := by
  refine readsThen (readsExpect _) fun _ => readsNameThen fun name named => ?_
  refine keepsBind readsArguments fun arguments all => readsThen (readsAccept _) fun repeatable => ?_
  exact readsThen (readsExpect _) fun _ => keepsBind readsSites fun _ sites => keepsPure ⟨named, all, sites⟩

theorem readsSchema (position : Location) :
    Keeps Scan.Named (schemaAfterKeyword position) Definition.Named := by
  have operation : Keeps Scan.Named (do
      let operation ← name
      expect (.mark ':')
      let type ← name
      pure (operation, type)) fun _ => True :=
    readsNameThen fun _ _ => readsThen (readsExpect _) fun _ => readsNameThen fun _ _ => keepsPure trivial
  refine readsThen readsDirectives fun _ => readsThen (readsExpect _) fun _ => ?_
  refine readsThen (readsEach operation) fun operations => readsThen (readsExpect _) fun _ => ?_
  split
  · exact keepsPure trivial
  · exact keepsThrow

theorem readsDefinition : Keeps Scan.Named definition Definition.Named := by
  refine readsThen keepsHere fun position => readsThen (readsAccept _) fun schema => ?_
  cases schema with
  | true => exact readsSchema position
  | false =>
    refine readsThen (readsAccept _) fun extending => ?_
    cases extending with
    | true => exact keepsMap readsExtension fun _ named => named
    | false =>
      refine readsThen readsDescription fun _ => readsThen keepsHere fun keyword => ?_
      refine keepsBind readsNext fun token _ => ?_
      split
      · exact readsThen readsSkip fun _ => keepsMap (readsDirective keyword) fun _ named => named
      · split
        · exact readsThen readsSkip fun _ => keepsMap (readsType keyword _) fun _ named => named
        · exact keepsRefuse
      · exact keepsRefuse

theorem documentNamed (text : String) :
    Gives (parseDocument text) fun definitions => ∀ d ∈ definitions, d.Named := by
  intro definitions parsed
  unfold parseDocument at parsed
  split at parsed
  case h_1 => contradiction
  case h_2 read rest ok =>
    split at parsed
    · cases parsed
      exact (keepsMany1 readsDefinition (scan text) (scanNamed _ _ _) _ ok).1
    · contradiction

end Grammar

section Conversion

structure ArgumentNamed (a : Argument) : Prop where
  name : IsName a.name
  type : IsName a.type.core

structure FieldNamed (f : Field) : Prop where
  name : IsName f.name
  arguments : ∀ a ∈ f.arguments, ArgumentNamed a
  type : IsName f.type.core

theorem coreOfUnstacked (t : TypeRef) : t.unstack.core = t.core := by
  have required (t : TypeRef) : t.require.core = t.core := by cases t <;> rfl
  induction t with
  | named name => rfl
  | list item ih => exact ih
  | nonNull inner ih => exact (required _).trans ih

theorem argumentBecomes {node : InputValue} (named : node.Named) (owner : String) :
    Gives (argumentOf owner node) ArgumentNamed :=
  givesThen fun _ => givesThen fun _ => givesOk ⟨named.name, coreOfUnstacked node.type ▸ named.type⟩

theorem fieldBecomes {node : FieldNode} (named : node.Named) (owner : String) :
    Gives (fieldOf owner node) FieldNamed := by
  have arguments : Gives (argumentsOf (owner ++ "." ++ node.name) node.arguments) fun as =>
      ∀ a ∈ as, ArgumentNamed a := givesMapM fun a inside => argumentBecomes (named.arguments a inside) _
  refine givesBind arguments fun as all => givesThen fun _ => ?_
  exact givesOk ⟨named.name, all, coreOfUnstacked node.type ▸ named.type⟩

theorem shapeBecomes {interfaces : List String} {fields : List FieldNode}
    (named : ShapeNamed interfaces fields) : ShapeBecomes IsName FieldNamed interfaces fields :=
  ⟨named.interfaces, fun f inside => fieldBecomes (named.fields f inside)⟩

theorem membersBecome {members : Members} (named : members.Named) :
    members.Become IsName FieldNamed ArgumentNamed := by
  cases members with
  | scalar => trivial
  | object interfaces fields => exact shapeBecomes named
  | interface interfaces fields => exact shapeBecomes named
  | union members => exact named
  | enum values => exact named
  | inputObject fields => exact fun f inside => argumentBecomes (named f inside)

theorem definitionBecomes {d : Definition} (named : d.Named) :
    d.Become IsName FieldNamed ArgumentNamed := by
  cases d with
  | type node => exact ⟨named.name, membersBecome named.members⟩
  | extension node => exact ⟨named.name, membersBecome named.members⟩
  | directive node =>
    exact ⟨named.name, fun a inside => argumentBecomes (named.arguments a inside), named.sites⟩
  | schema roots uses => trivial

end Conversion

section Models
variable {m : Model}

theorem namesOfField {f : Field} (named : FieldNamed f) : ∀ name ∈ f.names, IsName name :=
  List.forall_mem_cons.mpr ⟨named.name, List.forall_mem_map.mpr fun a inside => (named.arguments a inside).name⟩

theorem namesOfShape {shape : ObjectShape} (built : ShapeBuilt IsName FieldNamed shape) : shape.Named := by
  refine List.forall_mem_append.mpr ⟨built.interfaces, ?_⟩
  refine List.forall_mem_flatMap.mpr fun e inside => ?_
  obtain ⟨key, field⟩ := built.fields e inside
  exact List.forall_mem_cons.mpr ⟨key ▸ field.name, namesOfField field⟩

theorem namesOfBody {body : TypeBody} (built : BodyBuilt IsName FieldNamed ArgumentNamed body) :
    ∀ name ∈ body.names, IsName name := by
  cases body with
  | scalar => exact List.forall_mem_nil _
  | object shape => exact namesOfShape built
  | interface shape => exact namesOfShape built
  | union members => exact built
  | enum values => exact List.forall_mem_map.mpr built
  | inputObject fields =>
    refine List.forall_mem_flatMap.mpr fun e inside => ?_
    obtain ⟨key, field⟩ := built e inside
    simp [key, field.name]

theorem namesOfModel (built : Built IsName FieldNamed ArgumentNamed m) : m.Named := by
  refine List.forall_mem_append.mpr ⟨?_, ?_⟩
  · refine List.forall_mem_flatMap.mpr fun t member => ?_
    obtain ⟨key, entry⟩ := Model.memTypeList.mp member
    have type := (built.types _ entry).2
    exact List.forall_mem_cons.mpr ⟨type.name, namesOfBody type.body⟩
  · refine List.forall_mem_flatMap.mpr fun d member => ?_
    obtain ⟨key, entry⟩ := Model.memDirectiveList.mp member
    have directive := (built.directives _ entry).2
    refine List.forall_mem_cons.mpr ⟨directive.name, List.forall_mem_append.mpr ⟨?_, directive.sites⟩⟩
    exact List.forall_mem_map.mpr fun a inside => (directive.arguments a inside).name

theorem readNamed {text : String} (read : readSchema text = .ok m) :
    m.Named ∧ m.EveryTypeRef fun type => IsName type.core := by
  obtain ⟨document, parsed, ok⟩ := readDocument read
  have become (d : Definition) (inside : d ∈ document) : d.Become IsName FieldNamed ArgumentNamed :=
    definitionBecomes (documentNamed text document parsed d inside)
  have built := modelBuilt (by decide) become m ok
  exact ⟨namesOfModel built, builtTypeRefs built
    (fun _ field => ⟨field.type, fun a inside => (field.arguments a inside).type⟩) fun _ a => a.type⟩

end Models

end SchemaDrift.Sdl
