import Mathlib.Data.List.Basic
import Mathlib.Data.List.Induction
import SchemaDrift.Ordered

/-! Laws of insertion-ordered stores: lookup sees exactly the entries, changing the value of a key
is seen under that key alone, and so is insertion, which keeps the place of a present key. -/
namespace SchemaDrift.Ordered
variable {α : Type}

theorem lookupOfMem {entries : List (String × α)} (distinct : (entries.map (·.1)).Nodup)
    {key : String} {value : α} (member : (key, value) ∈ entries) :
    entries.lookup key = some value := by
  induction entries with
  | nil => simp at member
  | cons e rest ih =>
    obtain ⟨absent, distinct⟩ := List.nodup_cons.mp distinct
    rcases List.mem_cons.mp member with rfl | inside
    · exact List.lookup_cons_self
    · have different : (key == e.1) = false :=
        beq_false_of_ne fun same => absent (List.mem_map.mpr ⟨_, inside, same⟩)
      rw [List.lookup_cons, different]
      exact ih distinct inside

theorem memOfLookup {entries : List (String × α)} {key : String} {value : α}
    (found : entries.lookup key = some value) : (key, value) ∈ entries := by
  obtain ⟨before, after, rfl, -⟩ := List.lookup_eq_some_iff.mp found
  exact List.mem_append_right before List.mem_cons_self

theorem getIffMem {s : Ordered α} {key : String} {value : α} :
    s.get? key = some value ↔ (key, value) ∈ s.entries :=
  ⟨memOfLookup, lookupOfMem s.distinct⟩

theorem getIsSomeIff {s : Ordered α} {key : String} : (s.get? key).isSome = true ↔ key ∈ s.keys :=
  containsIff s key

theorem getNoneIff {s : Ordered α} {key : String} : s.get? key = none ↔ key ∉ s.keys := by
  rw [← getIsSomeIff, Bool.not_eq_true, Option.isSome_eq_false_iff, Option.isNone_iff_eq_none]

theorem existsOfKey {s : Ordered α} {key : String} (member : key ∈ s.keys) :
    ∃ value, s.get? key = some value :=
  Option.isSome_iff_exists.mp (getIsSomeIff.mpr member)

theorem keyOfGet {s : Ordered α} {key : String} {value : α} (found : s.get? key = some value) :
    key ∈ s.keys :=
  getIsSomeIff.mp (Option.isSome_of_mem found)

theorem lookupMapAt (key k : String) (f : α → α) (entries : List (String × α)) :
    (mapAt key f entries).lookup k =
      if k = key then (entries.lookup k).map f else entries.lookup k := by
  induction entries with
  | nil => simp [mapAt]
  | cons e rest ih =>
    obtain ⟨name, value⟩ := e
    have step : mapAt key f ((name, value) :: rest) =
        (name, if name = key then f value else value) :: mapAt key f rest := by
      simp only [mapAt, List.map_cons]
      split <;> rfl
    rw [step, List.lookup_cons, List.lookup_cons, ih]
    by_cases here : k = name
    · subst here
      simp only [beq_self_eq_true]
      split <;> rfl
    · simp [beq_false_of_ne here]

theorem getModify (s : Ordered α) (key k : String) (f : α → α) :
    (s.modify key f).get? k = if k = key then (s.get? k).map f else s.get? k :=
  lookupMapAt key k f s.entries

theorem containsModify (s : Ordered α) (key k : String) (f : α → α) :
    (s.modify key f).contains k = s.contains k := by
  rw [Bool.eq_iff_iff, containsIff, containsIff, keysModify]

theorem modifyComm (s : Ordered α) {key other : String} (apart : key ≠ other) (f g : α → α) :
    (s.modify key f).modify other g = (s.modify other g).modify key f := by
  refine ext ?_
  simp only [modify, mapAt, List.map_map]
  refine List.map_congr_left fun e _ => ?_
  simp only [Function.comp_apply]
  by_cases here : e.1 = key
  · simp [here, apart]
  · by_cases there : e.1 = other
    · simp [there, Ne.symm apart]
    · simp [here, there]

theorem getInsert (s : Ordered α) (key k : String) (value : α) :
    (s.insert key value).get? k = if k = key then some value else s.get? k := by
  unfold insert
  split
  case isTrue present =>
    rw [getModify]
    split
    case isTrue same =>
      obtain ⟨old, found⟩ := existsOfKey ((containsIff s key).mp present)
      rw [same, found]
      rfl
    case isFalse => rfl
  case isFalse absent =>
    have unfound : s.entries.lookup key = none :=
      getNoneIff.mpr fun member => absent ((containsIff s key).mpr member)
    simp only [get?, List.lookup_append, List.lookup_cons, List.lookup_nil]
    by_cases same : k = key
    · simp [same, unfound]
    · simp [same, beq_false_of_ne same]

theorem getInsertNew {s : Ordered α} {key k : String} (absent : ¬ s.contains key = true) (value : α)
    {other : α} (found : s.get? k = some other) : (s.insert key value).get? k = some other := by
  have apart : k ≠ key := by
    rintro rfl
    exact absent (Option.isSome_of_mem found)
  rw [getInsert, if_neg apart, found]

theorem memInsert {s : Ordered α} {key : String} {value : α} {e : String × α}
    (member : e ∈ (s.insert key value).entries) : e = (key, value) ∨ e ∈ s.entries := by
  have found := getIffMem.mpr member
  rw [getInsert] at found
  split at found
  case isTrue same =>
    cases found
    exact .inl (Prod.ext same rfl)
  case isFalse => exact .inr (getIffMem.mp found)

theorem memModify {s : Ordered α} {key : String} {f : α → α} {e : String × α}
    (member : e ∈ (s.modify key f).entries) :
    (∃ old, (key, old) ∈ s.entries ∧ e = (key, f old)) ∨ e ∈ s.entries := by
  have found := getIffMem.mpr member
  rw [getModify] at found
  split at found
  case isTrue same =>
    obtain ⟨old, present, value⟩ := Option.map_eq_some_iff.mp found
    exact .inl ⟨old, same ▸ getIffMem.mp present, Prod.ext same value.symm⟩
  case isFalse => exact .inr (getIffMem.mp found)

def filter (keep : α → Bool) (s : Ordered α) : Ordered α :=
  ⟨s.entries.filter fun e => keep e.2, (List.filter_sublist.map _).nodup s.distinct⟩

theorem getMap {β : Type} (f : α → β) (s : Ordered α) (key : String) :
    (s.map f).get? key = (s.get? key).map f := by
  have run : ∀ entries : List (String × α),
      (entries.map fun e => (e.1, f e.2)).lookup key = (entries.lookup key).map f := by
    intro entries
    induction entries with
    | nil => rfl
    | cons e rest ih =>
      rw [List.map_cons, List.lookup_cons, List.lookup_cons, ih]
      cases key == e.1 <;> rfl
  exact run s.entries

theorem entriesMap {β : Type} (f : α → β) (s : Ordered α) :
    (s.map f).entries = s.entries.map fun e => (e.1, f e.2) := rfl

theorem containsMap {β : Type} (f : α → β) (s : Ordered α) (key : String) :
    (s.map f).contains key = s.contains key := by
  unfold contains
  rw [getMap, Option.isSome_map]

theorem getFilter (keep : α → Bool) (s : Ordered α) (key : String) :
    (s.filter keep).get? key = (s.get? key).filter keep := by
  refine Option.ext fun value => ?_
  rw [getIffMem, Option.filter_eq_some_iff, getIffMem]
  exact List.mem_filter

theorem valuesInsertNew {s : Ordered α} {key : String} (absent : s.contains key ≠ true) (value : α) :
    (s.insert key value).values = s.values ++ [value] := by
  unfold insert
  rw [dif_neg absent]
  exact List.map_append

theorem mapValuesModify {β : Type} (g : α → β) {s : Ordered α} {key : String} {f : α → α}
    (same : ∀ value, s.get? key = some value → g (f value) = g value) :
    (s.modify key f).values.map g = s.values.map g := by
  simp only [values, modify, mapAt, List.map_map]
  refine List.map_congr_left fun e member => ?_
  simp only [Function.comp_apply]
  split
  · rename_i here
    exact same e.2 (getIffMem.mpr (here ▸ member))
  · rfl

theorem memOfList {entries : List (String × α)} {e : String × α}
    (member : e ∈ (ofList entries).entries) : e ∈ entries := by
  have run : ∀ (entries : List (String × α)) (s : Ordered α),
      e ∈ (entries.foldl (fun s e => s.insert e.1 e.2) s).entries → e ∈ entries ∨ e ∈ s.entries := by
    intro entries
    induction entries with
    | nil => exact fun s inside => .inr inside
    | cons head rest ih =>
      intro s inside
      rcases ih _ inside with later | before
      · exact .inl (List.mem_cons_of_mem _ later)
      · rcases memInsert before with same | old
        · exact .inl (same ▸ List.mem_cons_self)
        · exact .inr old
  exact (run entries empty member).resolve_right (by simp [empty])

section Shared
variable {β γ : Type}

def shared (s : Ordered α) (t : Ordered β) : List (String × α × β) :=
  s.entries.filterMap fun e => (t.get? e.1).map fun value => (e.1, e.2, value)

theorem memShared {s : Ordered α} {t : Ordered β} {e : String × α × β} :
    e ∈ s.shared t ↔ s.get? e.1 = some e.2.1 ∧ t.get? e.1 = some e.2.2 := by
  unfold shared
  rw [List.mem_filterMap, getIffMem]
  constructor
  · rintro ⟨d, member, found⟩
    obtain ⟨value, there, rfl⟩ := Option.map_eq_some_iff.mp found
    exact ⟨member, there⟩
  · rintro ⟨member, there⟩
    exact ⟨_, member, Option.map_eq_some_iff.mpr ⟨_, there, rfl⟩⟩

theorem sharedNodup (s : Ordered α) (t : Ordered β) : (s.shared t).Nodup := by
  have keys : ((s.shared t).map (·.1)).Sublist s.keys := by
    unfold shared keys
    induction s.entries with
    | nil => exact .slnil
    | cons e rest ih =>
      rw [List.filterMap_cons, List.map_cons]
      cases t.get? e.1 with
      | none => exact ih.cons _
      | some value => exact ih.cons_cons _
  exact List.Pairwise.of_map (·.1) (fun _ _ different same => different (congrArg (·.1) same))
    (keys.nodup s.distinct)

theorem sharedReversed (s : Ordered α) (t : Ordered β) :
    (s.shared t).Perm ((t.shared s).map fun e => (e.1, e.2.2, e.2.1)) := by
  have back : ((t.shared s).map fun e => (e.1, e.2.2, e.2.1)).Nodup :=
    List.Pairwise.map _ (fun d e different same => by
      simp only [Prod.mk.injEq] at same
      exact different (Prod.ext same.1 (Prod.ext same.2.2 same.2.1))) (sharedNodup t s)
  refine (List.perm_ext_iff_of_nodup (sharedNodup s t) back).mpr fun e => ?_
  rw [memShared, List.mem_map]
  constructor
  · exact fun found => ⟨(e.1, e.2.2, e.2.1), memShared.mpr found.symm, rfl⟩
  · rintro ⟨d, member, rfl⟩
    exact (memShared.mp member).symm

theorem flatMapShared (s : Ordered α) (t : Ordered β) (f : String → α → β → List γ) :
    (s.entries.flatMap fun e => (t.get? e.1).elim [] (f e.1 e.2)) =
      (s.shared t).flatMap fun e => f e.1 e.2.1 e.2.2 := by
  unfold shared
  induction s.entries with
  | nil => rfl
  | cons e rest ih =>
    rw [List.filterMap_cons, List.flatMap_cons, ih]
    cases t.get? e.1 with
    | none => rfl
    | some value => rfl

end Shared

section FirstOccurrences
variable {α : Type} [DecidableEq α]

theorem eraseDupsSnoc (xs : List α) (x : α) :
    (xs ++ [x]).eraseDups = if x ∈ xs then xs.eraseDups else xs.eraseDups ++ [x] := by
  rw [List.eraseDups_append]
  by_cases known : x ∈ xs <;> simp [List.removeAll, known, List.eraseDups_cons]

theorem eraseDupsSublist (xs : List α) : xs.eraseDups.Sublist xs := by
  induction xs using List.reverseRecOn with
  | nil => simp
  | append_singleton xs x ih =>
    rw [eraseDupsSnoc]
    split
    · exact ih.trans (List.sublist_append_left ..)
    · exact ih.append_right _

theorem eraseDupsNodup (xs : List α) : xs.eraseDups.Nodup := by
  induction xs using List.reverseRecOn with
  | nil => simp
  | append_singleton xs x ih =>
    rw [eraseDupsSnoc]
    split
    case isTrue => exact ih
    case isFalse new =>
      refine List.nodup_append.mpr ⟨ih, by simp, fun y inside z last same => ?_⟩
      exact new (List.mem_eraseDups.mp (List.mem_singleton.mp last ▸ same ▸ inside))

theorem eraseDupsFirst (xs : List α) :
    xs.eraseDups.Pairwise fun x y => xs.idxOf x < xs.idxOf y := by
  induction xs using List.reverseRecOn with
  | nil => simp
  | append_singleton xs x ih =>
    have kept : xs.eraseDups.Pairwise fun y z => (xs ++ [x]).idxOf y < (xs ++ [x]).idxOf z :=
      ih.imp_of_mem fun first second earlier => by
        rwa [List.idxOf_append_of_mem (List.mem_eraseDups.mp first),
          List.idxOf_append_of_mem (List.mem_eraseDups.mp second)]
    rw [eraseDupsSnoc]
    split
    case isTrue => exact kept
    case isFalse new =>
      refine List.pairwise_append.mpr ⟨kept, List.pairwise_singleton .., fun y inside z last => ?_⟩
      have known := List.mem_eraseDups.mp inside
      rw [List.mem_singleton.mp last, List.idxOf_append_of_mem known,
        List.idxOf_append_of_notMem new]
      exact Nat.lt_add_right _ (List.idxOf_lt_length_iff.mpr known)

end FirstOccurrences

theorem mapMEach {m : Type → Type} [Monad m] [LawfulMonad m] {α β : Type} {f : α → m β} {g : α → β}
    {xs : List α} (each : ∀ x ∈ xs, f x = pure (g x)) : xs.mapM f = pure (xs.map g) := by
  induction xs with
  | nil => rfl
  | cons x xs ih =>
    rw [List.forall_mem_cons] at each
    rw [List.mapM_cons, each.1, ih each.2]
    simp

end SchemaDrift.Ordered

namespace SchemaDrift

def Fresh (names added : List String) : Prop := added.Nodup ∧ ∀ n ∈ added, n ∉ names

instance (names added : List String) : Decidable (Fresh names added) :=
  inferInstanceAs (Decidable (_ ∧ _))

theorem freshNil (names : List String) : Fresh names [] :=
  ⟨List.nodup_nil, fun _ inside => by contradiction⟩

theorem freshAppend {names first rest : List String} :
    Fresh names (first ++ rest) ↔ Fresh names first ∧ Fresh (names ++ first) rest := by
  simp only [Fresh, List.nodup_append, List.mem_append, not_or]
  constructor
  · rintro ⟨⟨distinct, others, apart⟩, absent⟩
    exact ⟨⟨distinct, fun n inside => absent n (.inl inside)⟩, others, fun n inside =>
      ⟨absent n (.inr inside), fun before => apart n before n inside rfl⟩⟩
  · rintro ⟨⟨distinct, absent⟩, others, later⟩
    refine ⟨⟨distinct, others, fun n before k inside same => ?_⟩, fun n inside => ?_⟩
    · exact (later k inside).2 (same ▸ before)
    · exact inside.elim (absent n) fun here => (later n here).1

theorem freshCons {names added : List String} {n : String} :
    Fresh names (n :: added) ↔ n ∉ names ∧ Fresh (names ++ [n]) added := by
  have single : Fresh names [n] ↔ n ∉ names := by simp [Fresh]
  have split : Fresh names ([n] ++ added) ↔ Fresh names [n] ∧ Fresh (names ++ [n]) added := freshAppend
  rwa [single] at split

theorem freshNodup {names added : List String} (distinct : names.Nodup) (fresh : Fresh names added) :
    (names ++ added).Nodup :=
  List.nodup_append.mpr ⟨distinct, fresh.1, fun _ before n inside same => fresh.2 n inside (same ▸ before)⟩

theorem freshOfSubset {names others added : List String} (inside : ∀ n ∈ names, n ∈ others)
    (fresh : Fresh others added) : Fresh names added :=
  ⟨fresh.1, fun n member known => fresh.2 n member (inside n known)⟩

namespace Ordered
variable {α : Type}

def labelled (label : α → String) (xs : List α) : List (String × α) := xs.map fun x => (label x, x)

theorem labels (label : α → String) (xs : List α) : (labelled label xs).map (·.1) = xs.map label :=
  List.map_map

def insertAll (s : Ordered α) (entries : List (String × α)) : Ordered α :=
  entries.foldl (fun s e => s.insert e.1 e.2) s

theorem ofListAppend (entries more : List (String × α)) :
    ofList (entries ++ more) = (ofList entries).insertAll more := List.foldl_append

theorem insertAllSnoc (s : Ordered α) (label : α → String) (xs : List α) (x : α) :
    s.insertAll (labelled label (xs ++ [x])) =
      (s.insertAll (labelled label xs)).insert (label x) x := by
  rw [labelled, List.map_append, insertAll, List.foldl_append]
  rfl

theorem collectedAppend (label : α → String) (xs ys : List α) :
    ofList (labelled label (xs ++ ys)) = (ofList (labelled label xs)).insertAll (labelled label ys) :=
  (congrArg ofList List.map_append).trans (ofListAppend ..)

theorem keysOfList (entries : List (String × α)) :
    (ofList entries).keys = (entries.map (·.1)).eraseDups := by
  induction entries using List.reverseRecOn with
  | nil => simp [ofList, empty, keys]
  | append_singleton entries e ih =>
    have last : (ofList (entries ++ [e])).keys = ((ofList entries).insert e.1 e.2).keys :=
      congrArg keys (ofListAppend entries [e])
    rw [last, keysInsert, ih, List.map_append, List.map_singleton, eraseDupsSnoc]
    simp only [List.mem_eraseDups]

theorem freshCollected {label : α → String} {xs : List α} {added : List String}
    (fresh : Fresh (xs.map label) added) : Fresh (ofList (labelled label xs)).keys added := by
  rw [keysOfList, labels]
  exact freshOfSubset (fun _ => List.mem_eraseDups.mp) fresh

theorem keysInsertNew {s : Ordered α} {key : String} (absent : key ∉ s.keys) (value : α) :
    (s.insert key value).keys = s.keys ++ [key] := by
  rw [keysInsert, if_neg absent]

theorem entriesInsertNew {s : Ordered α} {key : String} (absent : key ∉ s.keys) (value : α) :
    (s.insert key value).entries = s.entries ++ [(key, value)] := by
  unfold insert
  rw [dif_neg fun present => absent ((containsIff ..).mp present)]

theorem entriesInsertAll {s : Ordered α} {entries : List (String × α)}
    (fresh : Fresh s.keys (entries.map (·.1))) : (s.insertAll entries).entries = s.entries ++ entries := by
  induction entries generalizing s with
  | nil => exact (List.append_nil _).symm
  | cons e rest ih =>
    obtain ⟨absent, later⟩ := freshCons.mp fresh
    have step : (s.insertAll (e :: rest)).entries = ((s.insert e.1 e.2).insertAll rest).entries := rfl
    rw [step, ih (keysInsertNew absent e.2 ▸ later), entriesInsertNew absent, List.append_assoc]
    rfl

theorem entriesOfList {entries : List (String × α)} (distinct : (entries.map (·.1)).Nodup) :
    (ofList entries).entries = entries :=
  entriesInsertAll (s := empty) ⟨distinct, fun _ _ inside => by contradiction⟩

theorem insertModified {s : Ordered α} {key other : String} (absent : key ∉ s.keys)
    (apart : key ≠ other) (value : α) (f : α → α) :
    (s.modify other f).insert key value = (s.insert key value).modify other f := by
  have still : key ∉ (s.modify other f).keys := by rwa [keysModify]
  refine ext ?_
  calc ((s.modify other f).insert key value).entries
    _ = mapAt other f s.entries ++ [(key, value)] := entriesInsertNew still value
    _ = mapAt other f (s.entries ++ [(key, value)]) := by simp [mapAt, apart]
    _ = mapAt other f (s.insert key value).entries := by rw [entriesInsertNew absent]

theorem modifyInserted {s : Ordered α} {key : String} (absent : key ∉ s.keys) (value : α)
    (f : α → α) : (s.insert key value).modify key f = s.insert key (f value) := by
  have others : ∀ e ∈ s.entries, (if e.1 = key then (e.1, f e.2) else e) = e := fun e member =>
    if_neg fun (same : e.1 = key) => absent (same ▸ List.mem_map_of_mem member)
  refine ext ?_
  calc mapAt key f (s.insert key value).entries
    _ = mapAt key f s.entries ++ [(key, f value)] := by
      rw [entriesInsertNew absent]
      simp [mapAt]
    _ = s.entries ++ [(key, f value)] := by rw [mapAt, List.map_congr_left others, List.map_id']
    _ = (s.insert key (f value)).entries := (entriesInsertNew absent _).symm

theorem mapInsert {β : Type} (f : α → β) (s : Ordered α) (key : String) (value : α) :
    (s.insert key value).map f = (s.map f).insert key (f value) := by
  refine ext ?_
  by_cases present : s.contains key = true
  · have there : (s.map f).contains key = true := (containsMap f s key).trans present
    rw [insert, insert, dif_pos present, dif_pos there]
    simp only [entriesMap, modify, mapAt, List.map_map]
    refine List.map_congr_left fun e _ => ?_
    simp only [Function.comp_apply]
    split <;> rfl
  · have absent : key ∉ s.keys := fun inside => present ((containsIff ..).mpr inside)
    have still : key ∉ (s.map f).keys := fun inside =>
      present ((containsMap f s key).symm.trans ((containsIff ..).mpr inside))
    rw [entriesMap, entriesInsertNew absent, entriesInsertNew still, List.map_append, entriesMap]
    rfl

theorem mapOfList {β : Type} (f : α → β) (entries : List (String × α)) :
    (ofList entries).map f = ofList (entries.map fun e => (e.1, f e.2)) := by
  induction entries using List.reverseRecOn with
  | nil => rfl
  | append_singleton entries e ih =>
    have last : ofList (entries ++ [e]) = (ofList entries).insert e.1 e.2 := ofListAppend entries [e]
    have mapped : ofList ((entries ++ [e]).map fun e => (e.1, f e.2)) =
        (ofList (entries.map fun e => (e.1, f e.2))).insert e.1 (f e.2) :=
      (congrArg ofList List.map_append).trans (ofListAppend ..)
    rw [last, mapped, mapInsert, ih]

end Ordered
end SchemaDrift
