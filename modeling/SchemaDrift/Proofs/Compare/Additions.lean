import SchemaDrift.Proofs.Compare.GrownTypes

/-! Additive changes and what is reported of them: never anything breaking, and for each addition
inside a type of the old version the one dangerous change that tells of it, whatever was added
before and wherever. Additions inside added elements stay silent. -/
namespace SchemaDrift.Compare

def announced? (old : Model) (extended : Bool) : Edit → Option Change
  | .inType name g => (old.type? name).bind fun t => announcedIn? extended t g
  | _ => none

section Models
variable {options : Options} {old cur next new : Model}

theorem reportsGrown (kept : old.Extends cur) {name : String} {g : Growth} {t u : TypeDef}
    (present : cur.type? name = some t) (ok : t.grow? g = some u)
    (lookup : ∀ k, next.type? k = if k = name then some u else cur.type? k) :
    (old.types.entries.flatMap fun e => typeReport options e.2 (next.type? e.1)).Perm
      ((old.types.entries.flatMap fun e => typeReport options e.2 (cur.type? e.1)) ++
        (announced? old options.extended (.inType name g)).toList) := by
  have told : (announced? old options.extended (.inType name g)).toList =
      ((old.types.entries.lookup name).map fun o =>
        (announcedIn? options.extended o g).toList).getD [] := by
    simp only [announced?, Model.type?, Ordered.get?]
    cases old.types.entries.lookup name <;> rfl
  rw [told]
  refine flatMapChangedAt old.types.distinct (fun e member away => ?_) fun o member => ?_
  · rw [lookup, if_neg away]
  · obtain ⟨n, found, extended⟩ := kept.types name o (Ordered.getIffMem.mpr member)
    cases Option.some.inj (present.symm.trans found)
    simp only [lookup, if_true, present, typeReportOfPair]
    exact pairReportGrown extended ok

theorem reportsUnchanged (kept : old.Extends cur)
    (lookup : ∀ k t, cur.type? k = some t → next.type? k = some t) :
    (old.types.entries.flatMap fun e => typeReport options e.2 (next.type? e.1)) =
      old.types.entries.flatMap fun e => typeReport options e.2 (cur.type? e.1) := by
  refine List.flatMap_congr fun e member => ?_
  obtain ⟨n, found, _⟩ := kept.types e.1 e.2 (Ordered.getIffMem.mpr member)
  rw [found, lookup e.1 n found]

theorem changesGrown (keyed : old.Keyed) (kept : old.Extends cur) {e : Edit}
    (ok : cur.grow? e = some next) (options : Options) :
    (changes old next options).Perm
      (changes old cur options ++ (announced? old options.extended e).toList) := by
  have before := changesByType keyed options cur
  have after := changesByType keyed options next
  rw [directivePassKept keyed kept, List.append_nil] at before
  rw [directivePassKept keyed (kept.trans (Model.grownExtends ok)), List.append_nil] at after
  refine after.trans (List.Perm.trans ?_ (before.symm.append_right _))
  cases e with
  | type i t =>
    obtain ⟨types, inserted, rfl⟩ := Option.map_eq_some_iff.mp ok
    have still : ∀ k t, cur.type? k = some t → ({ cur with types } : Model).type? k = some t :=
      fun k t found => (Ordered.getInsertedAt inserted (Ordered.keyOfGet found)).trans found
    rw [reportsUnchanged kept still]
    simp [announced?]
  | directive i d =>
    obtain ⟨directives, inserted, rfl⟩ := Option.map_eq_some_iff.mp ok
    simp [announced?, Model.type?]
  | inType name g =>
    obtain ⟨types, updated, rfl⟩ := Option.map_eq_some_iff.mp ok
    obtain ⟨t, u, present, grown, lookup⟩ := Ordered.updatedAt updated
    exact reportsGrown kept present grown lookup
  | inDirective name g =>
    obtain ⟨directives, updated, rfl⟩ := Option.map_eq_some_iff.mp ok
    simp [announced?, Model.type?]

theorem changesOfRun (keyed : old.Keyed) (kept : old.Extends cur) {edits : List Edit}
    (run : edits.foldlM Model.grow? cur = some new) (options : Options) :
    (changes old new options).Perm
      (changes old cur options ++ edits.filterMap (announced? old options.extended)) := by
  induction edits generalizing cur with
  | nil =>
    cases Option.some.inj run
    simp
  | cons e rest ih =>
    rw [List.foldlM_cons] at run
    obtain ⟨next, ok, tail⟩ := Option.bind_eq_some_iff.mp run
    have later := ih (kept.trans (Model.grownExtends ok)) tail
    have here := (changesGrown keyed kept ok options).append_right
      (rest.filterMap (announced? old options.extended))
    have told : (e :: rest).filterMap (announced? old options.extended) =
        (announced? old options.extended e).toList ++
          rest.filterMap (announced? old options.extended) := by
      rw [List.filterMap_cons]
      cases announced? old options.extended e <;> rfl
    rw [told, ← List.append_assoc]
    exact later.trans here

theorem announcedDangerous {extended : Bool} {e : Edit} {c : Change}
    (told : announced? old extended e = some c) : c.isBreaking = false := by
  cases e with
  | inType name g =>
    obtain ⟨t, _, told⟩ := Option.bind_eq_some_iff.mp told
    unfold announcedIn? at told
    split at told
    · contradiction
    · obtain ⟨_, _, rfl⟩ := Option.map_eq_some_iff.mp told
      rfl
    all_goals
      split at told
      · cases told
        rfl
      · contradiction
  | _ => contradiction

end Models

theorem additionsAnnounced {old new : Model} {edits : List Edit} (keyed : old.Keyed)
    (names : old.EveryField Field.DistinctArguments)
    (run : edits.foldlM Model.grow? old = some new) (options : Options) :
    (compare old new options).breaking = [] ∧
    (compare old new options).dangerous.Perm
      (edits.filterMap (announced? old options.extended)) := by
  have self : changes old old options = [] :=
    (silentIffAgrees keyed).mpr fun t member shape shaped e inside =>
      agreesOfDistinct (names t member shape shaped e inside)
  have reported := changesOfRun keyed old.extendsRefl run options
  rw [self, List.nil_append] at reported
  have dangerous : ∀ c ∈ edits.filterMap (announced? old options.extended), c.isBreaking = false := by
    intro c member
    obtain ⟨e, _, told⟩ := List.mem_filterMap.mp member
    exact announcedDangerous told
  constructor
  · refine List.filter_eq_nil_iff.mpr fun c member => ?_
    simp [dangerous c (reported.mem_iff.mp member)]
  · have all : (edits.filterMap (announced? old options.extended)).filter (!·.isBreaking) =
        edits.filterMap (announced? old options.extended) :=
      List.filter_eq_self.mpr fun c member => by simp [dangerous c member]
    have kept := reported.filter (!·.isBreaking)
    rwa [all] at kept

def growthOfEachKind : List Edit :=
  let argument : Argument := ⟨"a", .named "Int", none, none, []⟩
  [.type 0 ⟨"N", none, [], .enum []⟩, .inType "N" (.value 0 ⟨"X", none, []⟩),
   .inType "Q" (.field 0 ⟨"g", .named "Int", [], none, []⟩), .inType "Q" (.argument "g" 0 argument),
   .inType "Q" (.argument "f" 1 argument), .inType "Q" (.interface 0 "N"),
   .inType "E" (.value 0 ⟨"B", none, []⟩), .inType "U" (.member 0 "N"),
   .inType "I" (.inputField 1 argument), .directive 0 ⟨"e", none, [], [], false⟩,
   .inDirective "e" (.argument 0 argument), .inDirective "d" (.argument 0 argument),
   .inDirective "d" (.site 0 "QUERY")]

def grownText : String :=
  "type Q \x7b f(b: [Int] = 1): Int \x7d enum E \x7b A \x7d union U = Q " ++
    "input I \x7b k: Int \x7d directive @d on FIELD"

theorem additionsAnnouncedOfEachKind : ∃ old new,
    Sdl.readSchema grownText = .ok old ∧ old.EveryField Field.DistinctArguments ∧
    growthOfEachKind.foldlM Model.grow? old = some new ∧
    (compare old new ⟨true, "deprecated", "required"⟩).breaking = [] ∧
    ((compare old new ⟨true, "deprecated", "required"⟩).dangerous.map (·.category)).Perm
      [.optionalArgAdded, .interfaceAddedToObject, .valueAddedToEnum, .typeAddedToUnion,
       .optionalInputFieldAdded] := by
  obtain ⟨old, read, passed⟩ := Sdl.modelRead grownText
    (fun m => decide (m.EveryField Field.DistinctArguments) &&
      (growthOfEachKind.foldlM Model.grow? m).isSome &&
      (growthOfEachKind.filterMap (announced? m true)).map (·.category) ==
        [.optionalArgAdded, .interfaceAddedToObject, .valueAddedToEnum, .typeAddedToUnion,
         .optionalInputFieldAdded]) (by decide +kernel)
  simp only [Bool.and_eq_true, decide_eq_true_eq, beq_iff_eq] at passed
  obtain ⟨⟨names, grown⟩, categories⟩ := passed
  obtain ⟨new, run⟩ := Option.isSome_iff_exists.mp grown
  obtain ⟨quiet, told⟩ := additionsAnnounced (Sdl.readKeyed read) names run
    ⟨true, "deprecated", "required"⟩
  have each := told.map (·.category)
  rw [categories] at each
  exact ⟨old, new, read, names, run, quiet, each⟩

end SchemaDrift.Compare
