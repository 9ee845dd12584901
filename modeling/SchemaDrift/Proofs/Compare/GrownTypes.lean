import SchemaDrift.Proofs.Compare.SelfComparison

/-! A type of the old version and its counterpart, before and after one addition to the counterpart:
the report of the pair grows by exactly the change that announces the addition. -/
namespace SchemaDrift.Compare

def announcedIn? (extended : Bool) (old : TypeDef) : Growth → Option Change
  | .field _ _ => none
  | .argument field _ a =>
    (old.shape?.bind fun shape => shape.fields.get? field).map fun _ =>
      { argumentAdded (qualified old.name field) a with category := .optionalArgAdded }
  | .value _ v => if extended then some (valueAdded old v) else none
  | .member _ name => if extended then some (memberAdded old name) else none
  | .interface _ name => if extended then some (interfaceAdded old name) else none
  | .inputField _ f =>
    if extended then
      some { inputFieldAdded old.name (f.name, f) with category := .optionalInputFieldAdded }
    else none

theorem addedOnce {α β : Type} {p : α → Bool} {x : α} (f : α → β) (i : Nat) (xs : List α)
    (counted : p x = true) :
    (((insertAt i x xs).filter p).map f).Perm ((xs.filter p).map f ++ [f x]) := by
  have front := ((insertAtPerm i x xs).filter p).map f
  rw [List.filter_cons_of_pos counted, List.map_cons] at front
  exact front.trans (List.perm_append_singleton _ _).symm

/- The keys are distinct, so only one part of the concatenation changes. -/
theorem flatMapChangedAt {α β : Type} {entries : List (String × α)}
    (distinct : (entries.map (·.1)).Nodup) {before after : String × α → List β} {key : String}
    {extra : α → List β} (away : ∀ e ∈ entries, e.1 ≠ key → after e = before e)
    (here : ∀ v, (key, v) ∈ entries → (after (key, v)).Perm (before (key, v) ++ extra v)) :
    (entries.flatMap after).Perm
      (entries.flatMap before ++ ((entries.lookup key).map extra).getD []) := by
  induction entries with
  | nil => simp
  | cons e rest ih =>
    obtain ⟨absent, distinct⟩ := List.nodup_cons.mp distinct
    have later : ∀ x ∈ rest, x.1 ≠ key → after x = before x :=
      fun x member => away x (List.mem_cons_of_mem _ member)
    rw [List.flatMap_cons, List.flatMap_cons, List.lookup_cons, List.append_assoc]
    by_cases same : key = e.1
    · have unchanged : rest.flatMap after = rest.flatMap before := by
        refine List.flatMap_congr fun x member => later x member fun other => ?_
        exact absent (List.mem_map.mpr ⟨x, member, other.trans same⟩)
      obtain ⟨name, value⟩ := e
      subst same
      rw [unchanged, beq_self_eq_true]
      have grown := (here value List.mem_cons_self).append_right (rest.flatMap before)
      rw [List.append_assoc] at grown
      exact grown.trans (List.perm_append_comm.append_left _)
    · rw [away e List.mem_cons_self (Ne.symm same), beq_false_of_ne same]
      have tail := ih distinct later fun v member => here v (List.mem_cons_of_mem _ member)
      exact tail.append_left _

section Shapes
variable {options : Options} {o n u : TypeDef} {before after next : ObjectShape}

theorem interfacesOfShapes (shapes : shapes? o n = some (before, after)) (kept : o.Extends n)
    (shape : before.Extends after) : interfacesChanged o n =
      (missingFrom after.interfaces before.interfaces).map (interfaceAdded o) := by
  have text : interfaceAdded n = interfaceAdded o := by
    funext name
    simp only [interfaceAdded, changeAt, kept.name, kept.location]
  simp only [interfacesChanged, onShapes, shapes, missingNone shape.interfaces, text, List.map_nil,
    List.nil_append]

theorem lookupsUnchanged (options : Options) (shapes : shapes? o n = some (before, after))
    (grown : shapes? o u = some (before, next))
    (same : ∀ k ∈ before.fields.keys, next.fields.get? k = after.fields.get? k) :
    fieldsChanged options o u = fieldsChanged options o n ∧
      argumentsChanged options o u = argumentsChanged options o n := by
  rw [fieldsOfShapes shapes, fieldsOfShapes grown, argumentsOfShapes shapes, argumentsOfShapes grown]
  refine ⟨List.flatMap_congr fun e member => ?_, List.flatMap_congr fun e member => ?_⟩
  · simp only [fieldChange, same e.1 (List.mem_map_of_mem member)]
  · simp only [fieldArgumentChanges, same e.1 (List.mem_map_of_mem member)]

theorem fieldArgumentGrown {name owner : String} {i : Nat} {a : Argument} {v f : Field}
    (kept : v.arguments.map (·.name) ⊆ f.arguments.map (·.name))
    (fresh : a.name ∉ f.arguments.map (·.name)) {fields grown : Ordered Field}
    (found : fields.get? name = some f)
    (lookup : grown.get? name = some { f with arguments := insertAt i a f.arguments }) :
    (fieldArgumentChanges options owner grown (name, v)).Perm
      (fieldArgumentChanges options owner fields (name, v) ++
        [argumentAdded (qualified owner name) a]) := by
  simp only [fieldArgumentChanges, found, lookup]
  have others : v.arguments.flatMap (argumentChange options (qualified owner name) name
        { f with arguments := insertAt i a f.arguments }) =
      v.arguments.flatMap (argumentChange options (qualified owner name) name f) := by
    refine List.flatMap_congr fun old member => ?_
    have different : a.name ≠ old.name :=
      fun same => fresh (same ▸ kept (List.mem_map_of_mem member))
    simp only [argumentChange, argumentRemoved, namedGrow different]
  have new : (argumentNamed? v.arguments a.name).isNone = true :=
    argumentMissing.mpr fun member => fresh (kept member)
  have added := addedOnce (p := fun a => (argumentNamed? v.arguments a.name).isNone)
    (argumentAdded (qualified owner name)) i f.arguments new
  rw [others, List.append_assoc]
  exact added.append_left _

theorem argumentsGrown (options : Options) (shapes : shapes? o n = some (before, after))
    (grown : shapes? o u = some (before, next)) (kept : before.Extends after) {name : String}
    {i : Nat} {a : Argument} {f : Field} (present : after.fields.get? name = some f)
    (fresh : a.name ∉ f.arguments.map (·.name))
    (lookup : ∀ k, next.fields.get? k = if k = name then
      some { f with arguments := insertAt i a f.arguments } else after.fields.get? k) :
    fieldsChanged options o u = fieldsChanged options o n ∧
      (argumentsChanged options o u).Perm (argumentsChanged options o n ++
        ((before.fields.get? name).map fun _ =>
          [argumentAdded (qualified o.name name) a]).getD []) := by
  rw [fieldsOfShapes shapes, fieldsOfShapes grown, argumentsOfShapes shapes, argumentsOfShapes grown]
  constructor
  · refine List.flatMap_congr fun e member => ?_
    by_cases here : e.1 = name
    · simp only [fieldChange, here, lookup, if_pos, present]
    · simp only [fieldChange, lookup, if_neg here]
  · refine flatMapChangedAt before.fields.distinct (fun e member away => ?_) fun v member => ?_
    · simp only [fieldArgumentChanges, lookup, if_neg away]
    · obtain ⟨g, found, names⟩ := kept.fields name v (Ordered.getIffMem.mpr member)
      cases Option.some.inj (present.symm.trans found)
      exact fieldArgumentGrown names fresh present ((lookup name).trans (if_pos rfl))

theorem argumentAddedOptional {path : String} {a : Argument} (optional : a.isRequired = false) :
    argumentAdded path a = { argumentAdded path a with category := .optionalArgAdded } := by
  simp [argumentAdded, optional]

theorem shapesReport {g : Growth} (shaped : o.shape? = some before)
    (shapes : shapes? o n = some (before, after)) (regrown : shapes? o u = some (before, next))
    (kept : o.Extends n) (more : o.Extends u) (shape : before.Extends after)
    (grown : after.Grown g next) :
    (pairReport options o u).Perm
      (pairReport options o n ++ (announcedIn? options.extended o g).toList) := by
  rw [reportOfShapes shapes, reportOfShapes regrown,
    interfacesOfShapes regrown more (shape.trans grown.extends),
    interfacesOfShapes shapes kept shape]
  cases grown with
  | @field i f fields inserted =>
    have same : ∀ k ∈ before.fields.keys, fields.get? k = after.fields.get? k := by
      intro k member
      obtain ⟨old, found⟩ := Ordered.existsOfKey member
      obtain ⟨new, present, _⟩ := shape.fields k old found
      exact Ordered.getInsertedAt inserted (Ordered.keyOfGet present)
    obtain ⟨fields, arguments⟩ := lookupsUnchanged options shapes regrown same
    rw [fields, arguments]
    simp [announcedIn?]
  | @argument name i a f fields present optional fresh lookup =>
    obtain ⟨fields, arguments⟩ :=
      argumentsGrown options shapes regrown shape present fresh lookup
    have told : (announcedIn? options.extended o (.argument name i a)).toList =
        ((before.fields.get? name).map fun _ => [argumentAdded (qualified o.name name) a]).getD [] := by
      rw [argumentAddedOptional optional]
      simp only [announcedIn?, shaped, Option.bind_some]
      cases before.fields.get? name <;> rfl
    rw [fields, told]
    have middle := (arguments.append_left (fieldsChanged options o n)).append_right
      (if options.extended = true then
        (missingFrom after.interfaces before.interfaces).map (interfaceAdded o) else [])
    refine middle.trans ?_
    simp only [List.append_assoc]
    exact (List.perm_append_comm.append_left _).append_left _
  | @interface i name fresh =>
    obtain ⟨fields, arguments⟩ :=
      lookupsUnchanged options shapes regrown fun _ _ => rfl
    rw [fields, arguments]
    have counted : (!before.interfaces.contains name) = true := by
      simpa using fun member => fresh (shape.interfaces member)
    have added := addedOnce (p := fun n => !before.interfaces.contains n) (interfaceAdded o) i
      after.interfaces counted
    cases extended : options.extended with
    | false => simp [announcedIn?]
    | true =>
      simp only [announcedIn?, if_true, List.append_assoc]
      exact (added.append_left _).append_left _

end Shapes

section Bodies
variable {options : Options} {o n u : TypeDef}

theorem unionReport {before members : List String} {i : Nat} {name : String}
    (old : o.body = .union before) (new : n.body = .union members)
    (grown : u.body = .union (insertAt i name members)) (kept : o.Extends n) (more : o.Extends u)
    (names : before ⊆ members) (fresh : name ∉ members) :
    (pairReport options o u).Perm
      (pairReport options o n ++ (announcedIn? options.extended o (.member i name)).toList) := by
  have text : ∀ {n : TypeDef}, o.Extends n → memberAdded n = memberAdded o := by
    intro n kept
    funext name
    simp only [memberAdded, changeAt, kept.name, kept.location]
  have still : before ⊆ insertAt i name members := fun x inside => memInsertAt.mpr (.inr (names inside))
  have counted : (!before.contains name) = true := by simpa using fun member => fresh (names member)
  have added := addedOnce (p := fun n => !before.contains n) (memberAdded o) i members counted
  rw [reportOfUnion old new, reportOfUnion old grown]
  cases extended : options.extended with
  | false => simp [announcedIn?]
  | true =>
    simp only [membersChanged, old, new, grown, missingNone names, missingNone still, text kept,
      text more, announcedIn?, if_true]
    exact added

theorem enumReport {before values : List EnumValue} {i : Nat} {v : EnumValue}
    (old : o.body = .enum before) (new : n.body = .enum values)
    (grown : u.body = .enum (insertAt i v values)) (kept : o.Extends n) (more : o.Extends u)
    (names : before.map (·.name) ⊆ values.map (·.name)) (fresh : v.name ∉ values.map (·.name)) :
    (pairReport options o u).Perm
      (pairReport options o n ++ (announcedIn? options.extended o (.value i v)).toList) := by
  have text : ∀ {n : TypeDef}, o.Extends n → valueAdded n = valueAdded o := by
    intro n kept
    funext v
    simp only [valueAdded, kept.name]
  have still := List.Subset.trans names (namesGrow (·.name) i v values)
  have counted : (enumValueNamed? before v.name).isNone = true := by
    refine Option.isNone_iff_eq_none.mpr (List.find?_eq_none.mpr fun w member same => ?_)
    exact fresh (names (beq_iff_eq.mp same ▸ List.mem_map_of_mem member))
  have added := addedOnce (p := fun v => (enumValueNamed? before v.name).isNone) (valueAdded o) i
    values counted
  rw [reportOfEnum old new, reportOfEnum old grown, valuesKept old new names,
    valuesKept old grown still]
  cases extended : options.extended with
  | false => simp [announcedIn?]
  | true =>
    simp only [valuesAdded, onEnums, old, new, grown, text kept, text more, announcedIn?, if_true]
    exact added

theorem inputFieldAddedOptional {owner : String} {f : Argument} (optional : f.isRequired = false) :
    inputFieldAdded owner (f.name, f) =
      { inputFieldAdded owner (f.name, f) with category := .optionalInputFieldAdded } := by
  simp [inputFieldAdded, optional]

theorem inputReport {before after next : Ordered Argument} {i : Nat} {f : Argument}
    (old : o.body = .inputObject before) (new : n.body = .inputObject after)
    (grown : u.body = .inputObject next) (kept : o.Extends n) (more : o.Extends u)
    (names : before.keys ⊆ after.keys) (optional : f.isRequired = false)
    (inserted : after.insertAt? i f.name f = some next) :
    (pairReport options o u).Perm
      (pairReport options o n ++ (announcedIn? options.extended o (.inputField i f)).toList) := by
  obtain ⟨fresh, entries⟩ := Ordered.insertedAt inserted
  have others : before.entries.flatMap (inputFieldChange options o.name next) =
      before.entries.flatMap (inputFieldChange options o.name after) := by
    refine List.flatMap_congr fun e member => ?_
    have present := names (List.mem_map_of_mem (f := (·.1)) member)
    simp only [inputFieldChange, Ordered.getInsertedAt inserted present]
  have counted : (!before.contains f.name) = true := by
    simpa using fun present => fresh (names ((Ordered.containsIff before f.name).mp present))
  have added := addedOnce (p := fun e : String × Argument => !before.contains e.1) (x := (f.name, f))
    (inputFieldAdded o.name) i after.entries counted
  rw [reportOfInput old new, reportOfInput old grown]
  cases extended : options.extended with
  | false => simp [announcedIn?]
  | true =>
    simp only [inputFieldsChanged, old, new, grown, others, entries, kept.name, more.name,
      announcedIn?, if_true, List.append_assoc, ← inputFieldAddedOptional optional]
    exact added.append_left _

theorem pairReportGrown {g : Growth} (kept : o.Extends n) (ok : n.grow? g = some u) :
    (pairReport options o u).Perm
      (pairReport options o n ++ (announcedIn? options.extended o g).toList) := by
  have more := kept.trans (TypeDef.grownExtends ok)
  obtain ⟨body, grows, rfl⟩ := Option.map_eq_some_iff.mp ok
  have bodies := kept.body
  have grown := bodyGrown grows
  generalize old : o.body = b at bodies
  generalize new : n.body = c at bodies grown
  cases bodies with
  | scalar => contradiction
  | object shape =>
    cases grown with
    | object h =>
      exact shapesReport (by simp [TypeDef.shape?, old]) (by simp [shapes?, old, new])
        (by simp [shapes?, old]) kept more shape h
  | interface shape =>
    cases grown with
    | interface h =>
      exact shapesReport (by simp [TypeDef.shape?, old]) (by simp [shapes?, old, new])
        (by simp [shapes?, old]) kept more shape h
  | union names => cases grown with | union fresh => exact unionReport old new rfl kept more names fresh
  | enum names => cases grown with | enum fresh => exact enumReport old new rfl kept more names fresh
  | inputObject names =>
    cases grown with
    | inputObject optional inserted =>
      exact inputReport old new rfl kept more names optional inserted

end Bodies

end SchemaDrift.Compare
