import SchemaDrift.Proofs.Schema.Literal
import SchemaDrift.Proofs.Sdl.Results
import SchemaDrift.Sdl.DocumentModel

/-! Constants of a document: defaults and arguments of directives. A conversion screens them: it
succeeds only where there is no variable at any depth, blames none but a variable that is there, and
what it gives mirrors what is written, value by value. Each conversion screens what its parts do. -/
namespace SchemaDrift.Sdl

section Variables

mutual
def Value.variables : Value → List String
  | .variable name => [name]
  | .list items => Value.itemVariables items
  | .object entries => Value.entryVariables entries
  | _ => []

def Value.itemVariables : List Value → List String
  | [] => []
  | v :: rest => v.variables ++ Value.itemVariables rest

def Value.entryVariables : List (String × Value) → List String
  | [] => []
  | (_, v) :: rest => v.variables ++ Value.entryVariables rest
end

def DirectiveUse.variables (use : DirectiveUse) : List String := use.arguments.flatMap (·.2.value.variables)

def InputValue.variables (node : InputValue) : List String :=
  node.default.toList.flatMap (·.value.variables) ++ node.directives.flatMap DirectiveUse.variables

def FieldNode.variables (node : FieldNode) : List String :=
  node.arguments.flatMap InputValue.variables ++ node.directives.flatMap DirectiveUse.variables

def EnumValueNode.variables (node : EnumValueNode) : List String :=
  node.directives.flatMap DirectiveUse.variables

def Members.variables : Members → List String
  | .object _ fields => fields.flatMap FieldNode.variables
  | .interface _ fields => fields.flatMap FieldNode.variables
  | .enum values => values.flatMap EnumValueNode.variables
  | .inputObject fields => fields.flatMap InputValue.variables
  | _ => []

def TypeNode.variables (node : TypeNode) : List String :=
  node.directives.flatMap DirectiveUse.variables ++ node.members.variables

def DirectiveNode.variables (node : DirectiveNode) : List String :=
  node.arguments.flatMap InputValue.variables

end Variables

section Mirrors

mutual
def Value.ofLiteral : Literal → Value
  | .null => .null
  | .boolean b => .boolean b
  | .integer i => .integer i
  | .float x => .float x
  | .string s => .string s
  | .enumValue name => .enumValue name
  | .list items => .list (Value.ofItems items)
  | .object entries => .object (Value.ofEntries entries)

def Value.ofItems : List Literal → List Value
  | [] => []
  | l :: rest => Value.ofLiteral l :: Value.ofItems rest

def Value.ofEntries : List (String × Literal) → List (String × Value)
  | [] => []
  | (key, l) :: rest => (key, Value.ofLiteral l) :: Value.ofEntries rest
end

theorem Value.ofItemsMap (items : List Literal) : Value.ofItems items = items.map Value.ofLiteral := by
  induction items with
  | nil => rfl
  | cons l rest ih => rw [Value.ofItems, ih, List.map_cons]

theorem Value.ofEntriesMap (entries : List (String × Literal)) :
    Value.ofEntries entries = entries.map fun e => (e.1, Value.ofLiteral e.2) := by
  induction entries with
  | nil => rfl
  | cons e rest ih => rw [Value.ofEntries, ih, List.map_cons]

theorem ofLiteralDistinct (c : Constant) : (Value.ofLiteral c.literal).Distinct := by
  induction c using Constant.nestedInduction with
  | list items ih =>
    rw [Constant.literalList, Value.ofLiteral, Value.ofItemsMap, List.map_map]
    refine Value.distinctItemsIff.mpr fun v inside => ?_
    obtain ⟨c, member, rfl⟩ := List.mem_map.mp inside
    exact ih c member
  | object s ih =>
    rw [Constant.literalObject, Value.ofLiteral, Value.ofEntriesMap, List.map_map]
    refine ⟨by simpa [Function.comp_def] using s.distinct, ?_⟩
    refine Value.distinctEntriesIff.mpr fun e inside => ?_
    obtain ⟨d, member, rfl⟩ := List.mem_map.mp inside
    exact ih d member
  | _ => trivial

def Expression.ofConstant (c : Constant) : Expression := ⟨Value.ofLiteral c.literal, ofLiteralDistinct c⟩

/- Arguments are a store: the last one of a name counts, in the place of the first. -/
structure DirectiveUse.Mirrored (use : DirectiveUse) (d : AppliedDirective) : Prop where
  name : d.name = use.name
  arguments : d.arguments.map Expression.ofConstant = Ordered.ofList use.arguments

structure InputValue.Mirrored (node : InputValue) (a : Argument) : Prop where
  name : a.name = node.name
  default : a.default.map Expression.ofConstant = node.default
  directives : List.Forall₂ DirectiveUse.Mirrored node.directives a.directives

structure FieldNode.Mirrored (node : FieldNode) (f : Field) : Prop where
  name : f.name = node.name
  arguments : List.Forall₂ InputValue.Mirrored node.arguments f.arguments
  directives : List.Forall₂ DirectiveUse.Mirrored node.directives f.directives

structure EnumValueNode.Mirrored (node : EnumValueNode) (v : EnumValue) : Prop where
  name : v.name = node.name
  directives : List.Forall₂ DirectiveUse.Mirrored node.directives v.directives

def Collected {α β : Type} (R : α → β → Prop) (name : β → String) (nodes : List α)
    (store : Ordered β) : Prop :=
  ∃ xs, List.Forall₂ R nodes xs ∧ store = Ordered.ofList (Ordered.labelled name xs)

end Mirrors

section Screens
variable {α β σ : Type}

/- An outcome that some variables stand in the way of: a result is there only without any of them,
and an error about a variable is about one of them. -/
structure Screens (names : List String) (x : Outcome α) (P : α → Prop) : Prop where
  gives : Gives x fun a => names = [] ∧ P a
  blames : ∀ name context, x = .error (.variableInConstant name context) → name ∈ names

theorem screensOk {a : α} {P : α → Prop} (h : P a) : Screens [] (.ok a) P :=
  ⟨givesOk ⟨rfl, h⟩, fun _ _ failed => by contradiction⟩

theorem screensError {e : DocumentError} {names : List String} {P : α → Prop}
    (other : ∀ name context, e ≠ .variableInConstant name context) : Screens names (.error e) P :=
  ⟨givesError, fun name context failed => absurd (Except.error.inj failed) (other name context)⟩

theorem screensBind {x : Outcome α} {f : α → Outcome β} {Q : α → Prop} {P : β → Prop}
    {names more : List String} (first : Screens names x Q)
    (next : ∀ a, Q a → Screens more (f a) P) : Screens (names ++ more) (x >>= f) P where
  gives := givesBind first.gives fun a before => givesMono (next a before.2).gives fun _ after =>
    ⟨List.append_eq_nil_iff.mpr ⟨before.1, after.1⟩, after.2⟩
  blames name context failed := by
    cases ran : x with
    | error e =>
      rw [ran] at failed
      cases failed
      exact List.mem_append_left _ (first.blames name context ran)
    | ok a =>
      rw [ran] at failed
      exact List.mem_append_right _ ((next a (first.gives a ran).2).blames name context failed)

theorem screensMap {x : Outcome α} {g : α → β} {Q : α → Prop} {P : β → Prop} {names : List String}
    (first : Screens names x Q) (next : ∀ a, Q a → P (g a)) :
    Screens names (x >>= fun a => .ok (g a)) P :=
  List.append_nil names ▸ screensBind first fun a held => screensOk (next a held)

theorem screensMono {x : Outcome α} {P Q : α → Prop} {names : List String}
    (screened : Screens names x P) (weaker : ∀ a, P a → Q a) : Screens names x Q :=
  ⟨givesMono screened.gives fun a held => ⟨held.1, weaker a held.2⟩, screened.blames⟩

theorem screensAll {ι : Type} {x : Outcome α} {Q : ι → Prop} {P : ι → α → Prop} {names : List String}
    (inhabited : ∃ i, Q i) (each : ∀ i, Q i → Screens names x (P i)) :
    Screens names x fun a => ∀ i, Q i → P i a := by
  obtain ⟨i, held⟩ := inhabited
  have one := each i held
  exact ⟨fun a ok => ⟨(one.gives a ok).1, fun j other => ((each j other).gives a ok).2⟩, one.blames⟩

theorem screensMapM {f : α → Outcome β} {names : α → List String} {R : α → β → Prop}
    (each : ∀ x, Screens (names x) (f x) (R x)) (xs : List α) :
    Screens (xs.flatMap names) (xs.mapM f) (List.Forall₂ R xs) := by
  induction xs with
  | nil => exact screensOk .nil
  | cons x rest ih =>
    rw [List.mapM_cons, List.flatMap_cons]
    exact screensBind (each x) fun y head => screensMap ih fun ys tail => .cons head tail

/- The invariant is about the state and what has been consumed to reach it. -/
theorem screensFoldlM {f : σ → α → Outcome σ} {names : α → List String} {I : List α → σ → Prop}
    (step : ∀ done s x, I done s → Screens (names x) (f s x) (I (done ++ [x]))) (xs : List α)
    {done : List α} {s : σ} (start : I done s) :
    Screens (xs.flatMap names) (xs.foldlM f s) (I (done ++ xs)) := by
  induction xs generalizing done s with
  | nil => exact screensOk ((List.append_nil done).symm ▸ start)
  | cons x rest ih =>
    rw [List.foldlM_cons, List.flatMap_cons, List.append_cons]
    exact screensBind (step done s x start) fun t kept => ih kept

end Screens

section Conversions

mutual
theorem valueScreened (context : String) : (v : Value) → v.Distinct →
    Screens v.variables (constant context v) fun c => Value.ofLiteral c.literal = v
  | .variable name, _ =>
    ⟨givesError, fun _ _ failed => by
      cases failed
      exact List.mem_singleton_self name⟩
  | .null, _ => screensOk rfl
  | .boolean _, _ => screensOk rfl
  | .integer _, _ => screensOk rfl
  | .float _, _ => screensOk rfl
  | .string _, _ => screensOk rfl
  | .enumValue _, _ => screensOk rfl
  | .list items, distinct =>
    screensMap (itemsScreened context items distinct) fun _ same => congrArg Value.list same
  | .object entries, distinct =>
    screensMap (entriesScreened context entries distinct.2) fun es same => by
      have keys : es.map (·.1) = entries.map (·.1) := by
        simp [← same, Value.ofEntriesMap, Function.comp_def]
      have store : (Ordered.ofList es).entries = es := Ordered.entriesOfList (keys ▸ distinct.1)
      have written : (Constant.object (Ordered.ofList es)).literal =
          .object (es.map fun e => (e.1, e.2.literal)) := by
        rw [Constant.literalObject, store]
      exact (congrArg Value.ofLiteral written).trans (congrArg Value.object same)

theorem itemsScreened (context : String) : (items : List Value) → Value.DistinctItems items →
    Screens (Value.itemVariables items) (constants context items) fun cs =>
      Value.ofItems (cs.map (·.literal)) = items
  | [], _ => screensOk rfl
  | v :: rest, distinct => screensBind (valueScreened context v distinct.1) fun _ head =>
    screensMap (itemsScreened context rest distinct.2) fun _ tail => congrArg₂ List.cons head tail

theorem entriesScreened (context : String) : (entries : List (String × Value)) →
    Value.DistinctEntries entries →
    Screens (Value.entryVariables entries) (constantEntries context entries) fun es =>
      Value.ofEntries (es.map fun e => (e.1, e.2.literal)) = entries
  | [], _ => screensOk rfl
  | (key, v) :: rest, distinct => screensBind (valueScreened context v distinct.1) fun _ head =>
    screensMap (entriesScreened context rest distinct.2) fun _ tail =>
      congrArg₂ List.cons (congrArg (key, ·) head) tail
end

theorem constantScreened (context : String) (e : Expression) :
    Screens e.value.variables (constant context e.value) fun c => Expression.ofConstant c = e :=
  screensMono (valueScreened context e.value e.distinct) fun _ same => Expression.ext same

theorem appliedScreened (context : String) (use : DirectiveUse) :
    Screens use.variables (appliedDirective context use) use.Mirrored := by
  have each : ∀ e : String × Expression, Screens e.2.value.variables (do
      let given ← constant (context ++ " @" ++ use.name ++ "(" ++ e.1 ++ ":)") e.2.value
      .ok (e.1, given)) fun c => (c.1, Expression.ofConstant c.2) = e := fun e =>
    screensMap (constantScreened _ e.2) fun _ same => Prod.ext rfl same
  refine screensMap (screensMapM each use.arguments) fun converted pairs => ⟨rfl, ?_⟩
  have written : use.arguments = converted.map fun c => (c.1, Expression.ofConstant c.2) := by
    rw [← List.forall₂_eq_eq_eq, List.forall₂_map_right_iff]
    exact pairs.imp fun _ _ same => same.symm
  rw [written, Ordered.mapOfList]

theorem directivesScreened (context : String) (uses : List DirectiveUse) :
    Screens (uses.flatMap DirectiveUse.variables) (appliedDirectives context uses)
      (List.Forall₂ DirectiveUse.Mirrored uses) :=
  screensMapM (appliedScreened context) uses

theorem defaultScreened (context : String) (written : Option Expression) :
    Screens (written.toList.flatMap (·.value.variables))
      (written.mapM fun e => constant context e.value) fun default =>
        default.map Expression.ofConstant = written := by
  cases written with
  | none => exact screensOk rfl
  | some e =>
    rw [Option.toList_some, List.flatMap_singleton]
    exact screensMap (constantScreened context e) fun _ same => congrArg some same

theorem argumentScreened (owner : String) (node : InputValue) :
    Screens node.variables (argumentOf owner node) node.Mirrored :=
  screensBind (defaultScreened _ node.default) fun _ default =>
    screensMap (directivesScreened _ node.directives) fun _ directives => ⟨rfl, default, directives⟩

theorem argumentsScreened (owner : String) (nodes : List InputValue) :
    Screens (nodes.flatMap InputValue.variables) (argumentsOf owner nodes)
      (List.Forall₂ InputValue.Mirrored nodes) :=
  screensMapM (argumentScreened owner) nodes

theorem fieldScreened (owner : String) (node : FieldNode) :
    Screens node.variables (fieldOf owner node) node.Mirrored :=
  screensBind (argumentsScreened _ node.arguments) fun _ arguments =>
    screensMap (directivesScreened _ node.directives) fun _ directives => ⟨rfl, arguments, directives⟩

theorem fieldsScreened (owner : String) (nodes : List FieldNode) :
    Screens (nodes.flatMap FieldNode.variables) (fieldsOf owner nodes)
      (Collected FieldNode.Mirrored Field.name nodes) :=
  screensMap (screensMapM (fieldScreened owner) nodes) fun fields mirrored => ⟨fields, mirrored, rfl⟩

theorem inputFieldsScreened (owner : String) (nodes : List InputValue) :
    Screens (nodes.flatMap InputValue.variables) (inputFieldsOf owner nodes)
      (Collected InputValue.Mirrored Argument.name nodes) :=
  screensMap (argumentsScreened owner nodes) fun fields mirrored => ⟨fields, mirrored, rfl⟩

theorem enumValueScreened (owner : String) (node : EnumValueNode) :
    Screens node.variables (enumValueOf owner node) node.Mirrored :=
  screensMap (directivesScreened _ node.directives) fun _ directives => ⟨rfl, directives⟩

end Conversions

end SchemaDrift.Sdl
