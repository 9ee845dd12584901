import SchemaDrift.Proofs.Change.Json
import SchemaDrift.Proofs.Schema.Json.Value
import SchemaDrift.Schema.Json.Model

/-! Models are what their JSON form is read as. Each element is read from its own entries, whatever
tells its kind, and its form has no numbers but those of its constants; so the text of a model reads
back if the numbers do, which is assumed of the reader of numbers, and if it nests no deeper than
readers admit. -/
namespace SchemaDrift
open Json

/-- A JSON form that is read as the value it was written for, and whose numbers are of a kind. -/
structure Form {α : Type} (reads : Binary64 → Prop) (d : Decoder α) (j : Json) (a : α) : Prop where
  read : d j = .ok a
  exact : Exact reads j

section Forms
variable {α : Type} {reads : Binary64 → Prop} {d : Decoder α} {write : α → Json}

theorem stringForm (s : String) : Form reads decodeString (.string s) s := ⟨rfl, .string s⟩

theorem boolForm (b : Bool) : Form reads decodeBool (.boolean b) b := ⟨rfl, .boolean b⟩

theorem listForm {xs : List α} (each : ∀ x ∈ xs, Form reads d (write x) x) :
    Form reads (decodeList d) (listJson write xs) xs := by
  refine ⟨listRead fun x inside => (each x inside).read, .array fun j inside => ?_⟩
  obtain ⟨x, member, rfl⟩ := List.mem_map.mp inside
  exact (each x member).exact

theorem storeForm {s : Ordered α} (each : ∀ x ∈ s.values, Form reads d (write x) x) :
    Form reads (decodeStore d) (storeJson write s) s := by
  have value {e : String × α} (inside : e ∈ s.entries) : Form reads d (write e.2) e.2 :=
    each e.2 (List.mem_map_of_mem inside)
  refine ⟨?_, .object fun e inside => ?_⟩
  · have entries : (s.entries.map fun e => (e.1, write e.2)).mapM
        (fun e => do Except.ok (e.1, ← d e.2)) = Except.ok s.entries := by
      rw [List.mapM_map]
      refine (Ordered.mapMEach fun e inside => ?_).trans (congrArg Except.ok (List.map_id s.entries))
      simp only [Function.comp_apply, bind, Except.bind, (value inside).read]
      rfl
    rw [storeJson, decodeStore, entries]
    exact congrArg Except.ok (Ordered.ext (Ordered.entriesOfList s.distinct))
  · obtain ⟨entry, member, rfl⟩ := List.mem_map.mp inside
    exact (value member).exact

theorem optionForm {a? : Option α} (solid : ∀ a, write a ≠ .null)
    (each : ∀ a ∈ a?, Form reads d (write a) a) :
    Form reads (decodeOption d) ((a?.map write).getD .null) a? := by
  cases a? with
  | none => exact ⟨rfl, .null⟩
  | some a =>
    have form := each a rfl
    exact ⟨optionRead (solid a) form.read, form.exact⟩

theorem nameForm (name : Option String) :
    Form reads (decodeOption decodeString) ((name.map .string).getD .null) name :=
  optionForm (fun s => by simp) fun s _ => stringForm s

theorem locationForm (l : Option Location) : Form reads decodeLocation (optionalLocation l) l := by
  have written : optionalLocation l = (l.map Location.toJson).getD .null := by cases l <;> rfl
  rw [written]
  exact optionForm (fun l => by simp [Location.toJson]) fun l _ => ⟨l.readBack, .string _⟩

end Forms

def Constant.FloatsIn (reads : Binary64 → Prop) (c : Constant) : Prop :=
  ∀ x, .float x ∈ c.literal.scalars → reads x

theorem Constant.form {reads : Binary64 → Prop} {c : Constant} (known : c.FloatsIn reads) :
    Form reads decode c.toJson c :=
  ⟨c.readBack, c.literal.exact known⟩

theorem TypeRef.form {reads : Binary64 → Prop} (t : TypeRef) : Form reads decode t.toJson t :=
  ⟨t.readBack, t.exact reads⟩

section Elements
variable {reads : Binary64 → Prop}

def AppliedDirective.constants (d : AppliedDirective) : List Constant := d.arguments.values

def directiveConstants (ds : List AppliedDirective) : List Constant := ds.flatMap (·.constants)

def Argument.constants (a : Argument) : List Constant := a.default.toList ++ directiveConstants a.directives

def argumentConstants (as : List Argument) : List Constant := as.flatMap (·.constants)

def Field.constants (f : Field) : List Constant :=
  argumentConstants f.arguments ++ directiveConstants f.directives

def EnumValue.constants (v : EnumValue) : List Constant := directiveConstants v.directives

def DirectiveDef.constants (d : DirectiveDef) : List Constant := argumentConstants d.arguments

theorem AppliedDirective.form {d : AppliedDirective} (known : ∀ c ∈ d.constants, c.FloatsIn reads) :
    Form reads decode d.toJson d := by
  have nameForm := @stringForm reads d.name
  have argumentsForm : Form reads (decodeStore Constant.decode) _ d.arguments :=
    storeForm fun c inside => Constant.form (known c inside)
  refine ⟨readThen (by decide) (.refl _) fun r own => ?_, .object ?_⟩
  · have name : (r.cell "name" _).Holds _ := own.read rfl nameForm.read
    have arguments : (r.cell "arguments" _).Holds _ := own.read rfl argumentsForm.read
    simp only [bind, Except.bind, name.required, arguments.withDefault, Option.getD_some, own.finish]
  · simp only [List.forall_mem_cons]
    exact ⟨nameForm.exact, argumentsForm.exact, by simp⟩

theorem directivesForm {ds : List AppliedDirective} (known : ∀ c ∈ directiveConstants ds, c.FloatsIn reads) :
    Form reads decodeDirectives (directivesJson ds) ds :=
  listForm fun d inside => AppliedDirective.form fun c given =>
    known c (List.mem_flatMap.mpr ⟨d, inside, given⟩)

theorem defaultForm {default : Option Constant} (known : ∀ c ∈ default, c.FloatsIn reads) :
    Form reads (decodeOption Constant.decode) ((default.map Constant.toJson).getD .null) default := by
  have solid (c : Constant) : c.toJson ≠ .null := by
    obtain ⟨v, distinct⟩ := c
    cases v <;> simp [Constant.toJson, Literal.toJson, TagKeys.write, TagKeys.writeBare]
  exact optionForm solid fun c given => Constant.form (known c given)

theorem Argument.form {a : Argument} (known : ∀ c ∈ a.constants, c.FloatsIn reads) :
    Form reads decode a.toJson a := by
  obtain ⟨defaults, applied⟩ := List.forall_mem_append.mp known
  have nameForm := @stringForm reads a.name
  have typeForm := @TypeRef.form reads a.type
  have defaultForm : Form reads _ _ a.default := defaultForm fun c given => defaults c (by simpa using given)
  have locationForm := @locationForm reads a.location
  have directivesForm := directivesForm applied
  refine ⟨readThen (by decide) (.refl _) fun r own => ?_, .object ?_⟩
  · have name : (r.cell "name" _).Holds _ := own.read rfl nameForm.read
    have type : (r.cell "type" _).Holds _ := own.read rfl typeForm.read
    have default : (r.cell "default_value" _).Holds _ := own.read rfl defaultForm.read
    have location : (r.cell "location" _).Holds _ := own.read rfl locationForm.read
    have directives : (r.cell "directives" _).Holds _ := own.read rfl directivesForm.read
    simp only [bind, Except.bind, name.required, type.required, default.withDefault,
      location.withDefault, directives.withDefault, Option.getD_some, own.finish]
  · simp only [List.forall_mem_cons]
    exact ⟨nameForm.exact, typeForm.exact, defaultForm.exact, locationForm.exact,
      directivesForm.exact, by simp⟩

theorem argumentsForm {as : List Argument} (known : ∀ c ∈ argumentConstants as, c.FloatsIn reads) :
    Form reads (decodeList Argument.decode) (listJson Argument.toJson as) as :=
  listForm fun a inside => Argument.form fun c given =>
    known c (List.mem_flatMap.mpr ⟨a, inside, given⟩)

theorem Field.form {f : Field} (known : ∀ c ∈ f.constants, c.FloatsIn reads) :
    Form reads decode f.toJson f := by
  obtain ⟨given, applied⟩ := List.forall_mem_append.mp known
  have nameForm := @stringForm reads f.name
  have typeForm := @TypeRef.form reads f.type
  have argumentsForm := argumentsForm given
  have locationForm := @locationForm reads f.location
  have directivesForm := directivesForm applied
  refine ⟨readThen (by decide) (.refl _) fun r own => ?_, .object ?_⟩
  · have name : (r.cell "name" _).Holds _ := own.read rfl nameForm.read
    have type : (r.cell "type" _).Holds _ := own.read rfl typeForm.read
    have arguments : (r.cell "arguments" _).Holds _ := own.read rfl argumentsForm.read
    have location : (r.cell "location" _).Holds _ := own.read rfl locationForm.read
    have directives : (r.cell "directives" _).Holds _ := own.read rfl directivesForm.read
    simp only [bind, Except.bind, name.required, type.required, arguments.withDefault,
      location.withDefault, directives.withDefault, Option.getD_some, own.finish]
  · simp only [List.forall_mem_cons]
    exact ⟨nameForm.exact, typeForm.exact, argumentsForm.exact, locationForm.exact,
      directivesForm.exact, by simp⟩

theorem EnumValue.form {e : EnumValue} (known : ∀ c ∈ e.constants, c.FloatsIn reads) :
    Form reads decode e.toJson e := by
  have nameForm := @stringForm reads e.name
  have locationForm := @locationForm reads e.location
  have directivesForm := directivesForm known
  refine ⟨readThen (by decide) (.refl _) fun r own => ?_, .object ?_⟩
  · have name : (r.cell "name" _).Holds _ := own.read rfl nameForm.read
    have location : (r.cell "location" _).Holds _ := own.read rfl locationForm.read
    have directives : (r.cell "directives" _).Holds _ := own.read rfl directivesForm.read
    simp only [bind, Except.bind, name.required, location.withDefault, directives.withDefault,
      Option.getD_some, own.finish]
  · simp only [List.forall_mem_cons]
    exact ⟨nameForm.exact, locationForm.exact, directivesForm.exact, by simp⟩

theorem stringsForm (xs : List String) : Form reads (decodeList decodeString) (stringsJson xs) xs :=
  listForm fun s _ => stringForm s

theorem DirectiveDef.form {d : DirectiveDef} (known : ∀ c ∈ d.constants, c.FloatsIn reads) :
    Form reads decode d.toJson d := by
  have nameForm := @stringForm reads d.name
  have locationForm := @locationForm reads d.location
  have argumentsForm := argumentsForm known
  have sitesForm := @stringsForm reads d.sites
  have repeatableForm := @boolForm reads d.repeatable
  refine ⟨readThen (by decide) (.refl _) fun r own => ?_, .object ?_⟩
  · have name : (r.cell "name" _).Holds _ := own.read rfl nameForm.read
    have location : (r.cell "location" _).Holds _ := own.read rfl locationForm.read
    have arguments : (r.cell "arguments" _).Holds _ := own.read rfl argumentsForm.read
    have sites : (r.cell "locations" _).Holds _ := own.read rfl sitesForm.read
    have repeatable : (r.cell "repeatable" _).Holds _ := own.read rfl repeatableForm.read
    simp only [bind, Except.bind, name.required, location.present, arguments.required,
      sites.required, repeatable.required, own.finish]
  · simp only [List.forall_mem_cons]
    exact ⟨nameForm.exact, locationForm.exact, argumentsForm.exact, sitesForm.exact,
      repeatableForm.exact, by simp⟩

end Elements

section Types
variable {reads : Binary64 → Prop}

def ObjectShape.constants (s : ObjectShape) : List Constant := s.fields.values.flatMap (·.constants)

def TypeBody.constants : TypeBody → List Constant
  | .scalar => []
  | .object shape => shape.constants
  | .interface shape => shape.constants
  | .union _ => []
  | .enum values => values.flatMap (·.constants)
  | .inputObject fields => argumentConstants fields.values

def TypeDef.constants (t : TypeDef) : List Constant := directiveConstants t.directives ++ t.body.constants

structure BodyForm (reads : Binary64 → Prop) (body : TypeBody) : Prop where
  read {entries : List (String × Json)} {r : Record} (own : r.Of entries) :
    (∀ e ∈ TypeDef.bodyEntries body, entries.lookup e.1 = some e.2) →
      TypeDef.decodeBody r body.kind = .ok body
  exact : ∀ e ∈ TypeDef.bodyEntries body, Exact reads e.2

theorem shapeForm {s : ObjectShape} (known : ∀ c ∈ s.constants, c.FloatsIn reads) :
    (∀ {entries : List (String × Json)} {r : Record}, r.Of entries →
      (∀ e ∈ TypeDef.shapeEntries s, entries.lookup e.1 = some e.2) →
        TypeDef.decodeShape r = .ok s) ∧
    ∀ e ∈ TypeDef.shapeEntries s, Exact reads e.2 := by
  have interfacesForm := @stringsForm reads s.interfaces
  have fieldsForm : Form reads (decodeStore Field.decode) (storeJson Field.toJson s.fields) s.fields :=
    storeForm fun f inside => Field.form fun c given =>
      known c (List.mem_flatMap.mpr ⟨f, inside, given⟩)
  refine ⟨fun {entries r} own found => ?_, ?_⟩
  · simp only [TypeDef.shapeEntries, List.forall_mem_cons] at found
    have interfaces : (r.cell "interfaces" _).Holds _ := own.read found.1 interfacesForm.read
    have fields : (r.cell "fields" _).Holds _ := own.read found.2.1 fieldsForm.read
    simp only [TypeDef.decodeShape, bind, Except.bind, interfaces.required, fields.required]
  · simp only [TypeDef.shapeEntries, List.forall_mem_cons]
    exact ⟨interfacesForm.exact, fieldsForm.exact, by simp⟩

theorem bodyForm (body : TypeBody) (known : ∀ c ∈ body.constants, c.FloatsIn reads) : BodyForm reads body := by
  cases body with
  | scalar => exact ⟨fun _ _ => rfl, by simp [TypeDef.bodyEntries]⟩
  | object shape =>
    obtain ⟨read, exact⟩ := shapeForm known
    exact ⟨fun own found => congrArg (Except.map TypeBody.object) (read own found), exact⟩
  | interface shape =>
    obtain ⟨read, exact⟩ := shapeForm known
    exact ⟨fun own found => congrArg (Except.map TypeBody.interface) (read own found), exact⟩
  | union members =>
    have form := @stringsForm reads members
    refine ⟨fun {entries r} own found => ?_, List.forall_mem_singleton.mpr form.exact⟩
    have cell : (r.cell "members" _).Holds _ := own.read (found _ List.mem_cons_self) form.read
    exact congrArg (Except.map TypeBody.union) (cell.required r)
  | enum values =>
    have form : Form reads (decodeList EnumValue.decode) (listJson EnumValue.toJson values) values :=
      listForm fun e inside => EnumValue.form fun c given =>
        known c (List.mem_flatMap.mpr ⟨e, inside, given⟩)
    refine ⟨fun {entries r} own found => ?_, List.forall_mem_singleton.mpr form.exact⟩
    have cell : (r.cell "values" _).Holds _ := own.read (found _ List.mem_cons_self) form.read
    exact congrArg (Except.map TypeBody.enum) (cell.required r)
  | inputObject fields =>
    have form : Form reads (decodeStore Argument.decode) (storeJson Argument.toJson fields) fields :=
      storeForm fun a inside => Argument.form fun c given =>
        known c (List.mem_flatMap.mpr ⟨a, inside, given⟩)
    refine ⟨fun {entries r} own found => ?_, List.forall_mem_singleton.mpr form.exact⟩
    have cell : (r.cell "fields" _).Holds _ := own.read (found _ List.mem_cons_self) form.read
    exact congrArg (Except.map TypeBody.inputObject) (cell.required r)

namespace TypeDef

def ownEntries (t : TypeDef) : List (String × Json) :=
  [("name", .string t.name), ("location", optionalLocation t.location),
    ("directives", directivesJson t.directives)] ++ bodyEntries t.body

theorem ownKeys (t : TypeDef) :
    t.ownEntries.map (·.1) = ["name", "location", "directives"] ++ bodyFields t.kind := by
  obtain ⟨name, location, directives, body⟩ := t
  cases body <;> rfl

theorem fieldsOnce (kind : TypeKind) :
    (["name", "location", "directives"] ++ bodyFields kind).Nodup := by
  cases kind <;> decide

theorem kindRead (kind : TypeKind) : decodeKind (.string (kindName kind)) = .ok kind := by
  cases kind <;> rfl

theorem kindTaken (t : TypeDef) : takeKind t.toJson = .ok (t.kind, .object t.ownEntries) := by
  have written : t.toJson = .object (("kind", .string (kindName t.kind)) :: t.ownEntries) := rfl
  have other (e : String × Json) (inside : e ∈ t.ownEntries) : e.1 ≠ "kind" := by
    have key : e.1 ∈ t.ownEntries.map (·.1) := List.mem_map_of_mem inside
    have apart : ∀ kind, "kind" ∉ ["name", "location", "directives"] ++ bodyFields kind := by
      intro kind
      cases kind <;> decide
    rw [ownKeys] at key
    exact fun same => apart t.kind (same ▸ key)
  have named : t.ownEntries.filter (·.1 = "kind") = [] :=
    List.filter_eq_nil_iff.mpr fun e inside => by simpa using other e inside
  have rest : t.ownEntries.filter (·.1 ≠ "kind") = t.ownEntries :=
    List.filter_eq_self.mpr fun e inside => by simpa using other e inside
  rw [written, takeKind, List.filter_cons_of_pos (by simp), named, List.filter_cons_of_neg (by simp), rest]
  simp only [kindRead, bind, Except.bind]

theorem decodeOwn {t : TypeDef} (known : ∀ c ∈ t.constants, c.FloatsIn reads) :
    decodeAs t.kind (.object t.ownEntries) = .ok t := by
  obtain ⟨applied, inside⟩ := List.forall_mem_append.mp known
  have once : (t.ownEntries.map (·.1)).Nodup := t.ownKeys ▸ fieldsOnce t.kind
  refine readThen (fieldsOnce t.kind) (t.ownKeys ▸ .refl _) fun r own => ?_
  have name : (r.cell "name" _).Holds _ := own.read rfl (stringRead t.name)
  have location : (r.cell "location" _).Holds _ := own.read rfl (@locationForm reads t.location).read
  have directives : (r.cell "directives" _).Holds _ := own.read rfl (directivesForm applied).read
  -- The entries of the body follow the three of every type, so they are found by their keys only.
  have body : decodeBody r t.kind = .ok t.body := (bodyForm t.body inside).read own fun e member =>
    Ordered.lookupOfMem once (List.mem_append_right _ member)
  simp only [bind, Except.bind, name.required, location.present, directives.required, body, own.finish]

theorem form {t : TypeDef} (known : ∀ c ∈ t.constants, c.FloatsIn reads) :
    Form reads decode t.toJson t := by
  obtain ⟨applied, inside⟩ := List.forall_mem_append.mp known
  have exact : Exact reads t.toJson := by
    refine .object (List.forall_mem_append.mpr ⟨?_, (bodyForm t.body inside).exact⟩)
    simp only [List.forall_mem_cons]
    exact ⟨.string _, .string _, (locationForm t.location).exact, (directivesForm applied).exact, by simp⟩
  refine ⟨?_, exact⟩
  simp only [decode, exact.usable, Bool.not_true, Bool.false_eq_true, if_false, kindTaken, bind,
    Except.bind, decodeOwn known]

end TypeDef

end Types

theorem RootOperations.form {reads : Binary64 → Prop} (r : RootOperations) :
    Form reads decode r.toJson r := by
  have queryForm := @nameForm reads r.query
  have mutationForm := @nameForm reads r.mutation
  have subscriptionForm := @nameForm reads r.subscription
  refine ⟨readThen (by decide) (.refl _) fun record own => ?_, .object ?_⟩
  · have query : (record.cell "query" _).Holds _ := own.read rfl queryForm.read
    have mutation : (record.cell "mutation" _).Holds _ := own.read rfl mutationForm.read
    have subscription : (record.cell "subscription" _).Holds _ := own.read rfl subscriptionForm.read
    simp only [bind, Except.bind, query.faultless, mutation.faultless, subscription.faultless,
      settleNone, settleNil, query.present, mutation.present, subscription.present, own.finish]
  · simp only [List.forall_mem_cons]
    exact ⟨queryForm.exact, mutationForm.exact, subscriptionForm.exact, by simp⟩

def Constant.floats (c : Constant) : List Binary64 :=
  c.literal.scalars.filterMap fun s => match s with
    | .float x => some x
    | _ => none

def Binary64.IsFinite (x : Binary64) : Prop :=
  match x with
  | .finite .. => True
  | _ => False

instance : DecidablePred Binary64.IsFinite
  | .finite .. => .isTrue trivial
  | .nan => .isFalse id
  | .infinity _ => .isFalse id

theorem Binary64.IsFinite.written {x : Binary64} (finite : x.IsFinite) :
    ∃ digits, x.exchange? = some digits := by
  cases x with
  | finite negative m e canonical =>
    cases m with
    | zero => exact ⟨_, rfl⟩
    | succ m => exact ⟨_, rfl⟩
  | nan => contradiction
  | infinity => contradiction

namespace Model

def constants (m : Model) : List Constant :=
  m.typeList.flatMap (·.constants) ++ m.directiveList.flatMap (·.constants)

def floats (m : Model) : List Binary64 := m.constants.flatMap (·.floats)

theorem form {reads : Binary64 → Prop} {m : Model} (known : ∀ c ∈ m.constants, c.FloatsIn reads) :
    Form reads decode m.toJson m := by
  obtain ⟨ofTypes, ofDirectives⟩ := List.forall_mem_append.mp known
  have typesForm : Form reads (decodeStore TypeDef.decode) (storeJson TypeDef.toJson m.types) m.types :=
    storeForm fun t inside => TypeDef.form fun c given =>
      ofTypes c (List.mem_flatMap.mpr ⟨t, inside, given⟩)
  have directivesForm : Form reads (decodeStore DirectiveDef.decode)
      (storeJson DirectiveDef.toJson m.directives) m.directives :=
    storeForm fun d inside => DirectiveDef.form fun c given =>
      ofDirectives c (List.mem_flatMap.mpr ⟨d, inside, given⟩)
  have rootsForm := @RootOperations.form reads m.roots
  refine ⟨readThen (by decide) (.refl _) fun r own => ?_, .object ?_⟩
  · have types : (r.cell "types" _).Holds _ := own.read rfl typesForm.read
    have directives : (r.cell "directives" _).Holds _ := own.read rfl directivesForm.read
    have roots : (r.cell "roots" _).Holds _ := own.read rfl rootsForm.read
    simp only [bind, Except.bind, types.required, directives.withDefault, roots.withDefault,
      Option.getD_some, own.finish]
  · simp only [List.forall_mem_cons]
    exact ⟨typesForm.exact, directivesForm.exact, rootsForm.exact, by simp⟩

/- That the reader of numbers gives back what was written is assumed, of the numbers in the model. -/
theorem survivesJson {m : Model} (finite : ∀ x ∈ m.floats, x.IsFinite)
    (numbers : ∀ x ∈ m.floats, ∀ digits, x.exchange? = some digits →
      number? digits = some (.float x, []))
    (shallow : m.toJson.depth ≤ nestingLimit) :
    Json.parse? m.jsonText = some m.toJson ∧ decode m.toJson = .ok m := by
  have back (x : Binary64) (inside : x ∈ m.floats) : ReadsBack x := by
    obtain ⟨digits, written⟩ := (finite x inside).written
    exact ⟨digits, written, numbers x inside digits written⟩
  have known (c : Constant) (inside : c ∈ m.constants) : c.FloatsIn ReadsBack := fun x scalar =>
    back x (List.mem_flatMap.mpr ⟨c, inside, List.mem_filterMap.mpr ⟨.float x, scalar, rfl⟩⟩)
  have form := form known
  exact ⟨form.exact.parsed shallow, form.read⟩

def heldNumber? (digits : List Char) : Option Binary64 :=
  match number? digits with
  | some (.float x, []) => some x
  | _ => none

theorem heldNumberRead {digits : List Char} {x : Binary64} (held : heldNumber? digits = some x) :
    number? digits = some (.float x, []) := by
  unfold heldNumber? at held
  split at held
  case h_1 found =>
    cases held
    exact found
  case h_2 => contradiction

def oddModel : Model :=
  let argument (name : String) (default : Option Constant) : Argument :=
    ⟨name, .nonNull (.nonNull (.list (.nonNull (.named "Int")))), default, some ⟨2, 7⟩, []⟩
  let arguments := [argument "none" none, argument "null" (some .null), argument "int" (some (.integer 1)),
    argument "float" (some (.float (Binary64.ofInt 1))), argument "string" (some (.string "RED")),
    argument "enum" (some (.list [.enumValue "RED", .object .empty]))]
  let tag : AppliedDirective :=
    ⟨"tag", ⟨[("kind", .object ⟨[("kind", .string "\n\"\\"), ("value", .null)], by decide⟩)],
    by decide⟩⟩
  { types := ⟨[("Query", ⟨"Query", some ⟨1, 1⟩, [tag],
        .object ⟨["Node"], ⟨[("kind", ⟨"kind", .named "Color", arguments, none, [tag]⟩)], by decide⟩⟩⟩),
      ("Color", ⟨"Color", none, [], .enum [⟨"RED", none, [tag]⟩, ⟨"BLUE", some ⟨9, 2⟩, []⟩]⟩)], by decide⟩
    directives := ⟨[("tag", ⟨"tag", none, arguments, ["OBJECT"], true⟩)], by decide⟩
    roots := ⟨some "Query", none, some "Query"⟩ }

theorem oddModelSurvives :
    Json.parse? oddModel.jsonText = some oddModel.toJson ∧ decode oddModel.toJson = .ok oddModel := by
  have one : ∀ x ∈ oddModel.floats, x = Binary64.ofInt 1 := by decide +kernel
  have text : (Binary64.ofInt 1).exchange? = some ['1', '.', '0'] := by decide +kernel
  have value : number? ['1', '.', '0'] = some (.float (Binary64.ofInt 1), []) :=
    heldNumberRead (by decide +kernel)
  refine survivesJson (by decide +kernel) (fun x inside digits written => ?_) (by decide +kernel)
  rw [one x inside, text] at written
  cases written
  rw [value, one x inside]

end Model

end SchemaDrift
