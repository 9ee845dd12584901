import SchemaDrift.Change

/-! Sets of changes by their history: what arrived, and what was retained since. A set that is appended
was built in the same way, so a history holds others. Only pushing looks at severities; that the two
lists are sorted by severity is kept by the other operations because they treat both lists alike. -/
namespace SchemaDrift.ChangeSet

theorem pushAppend (s : ChangeSet) (c : Change) : s.push c = s.append (ofList [c]) := by
  unfold push append ofList Change.isBreaking Change.severity Category.isBreaking
  cases severity : c.category.severity <;> simp [severity]

theorem appendEmpty (s : ChangeSet) : s.append (ofList []) = s := by
  simp [append, ofList]

theorem appendAssoc (s t u : ChangeSet) : (s.append t).append u = s.append (t.append u) := by
  simp [append]

theorem retainAppend (keep : Change → Bool) (s t : ChangeSet) :
    (s.append t).retain keep = (s.retain keep).append (t.retain keep) := by
  simp [append, retain]

theorem retainRetain (keep also : Change → Bool) (s : ChangeSet) :
    (s.retain keep).retain also = s.retain fun c => keep c && also c := by
  simp only [retain, List.filter_filter, Bool.and_comm]

theorem retainOfList (keep : Change → Bool) (changes : List Change) :
    (ofList changes).retain keep = ofList (changes.filter keep) := by
  simp only [retain, ofList, List.filter_filter, Bool.and_comm]

theorem retainAll {keep : Change → Bool} (all : ∀ c, keep c = true) (s : ChangeSet) :
    s.retain keep = s := by
  have kept : ∀ changes : List Change, changes.filter keep = changes :=
    fun _ => List.filter_eq_self.mpr fun c _ => all c
  rw [retain, kept, kept]

theorem toListOfList (changes : List Change) : (ofList changes).toList.Perm changes :=
  List.filter_append_perm _ _

theorem breakingFirst (changes : List Change) :
    (ofList changes).toList.Pairwise fun c d => d.isBreaking = true → c.isBreaking = true := by
  refine List.pairwise_append.mpr ⟨?_, ?_, fun c inside _ _ _ => (List.mem_filter.mp inside).2⟩
  · exact List.pairwise_of_forall_mem_list fun c inside _ _ _ => (List.mem_filter.mp inside).2
  · refine List.pairwise_of_forall_mem_list fun _ _ d inside breaks => ?_
    have mild := (List.mem_filter.mp inside).2
    rw [breaks] at mild
    contradiction

inductive History where
  | done
  | push (c : Change) (later : History)
  | append (inner later : History)
  | retain (keep : Change → Bool) (later : History)

namespace History

def after : ChangeSet → History → ChangeSet
  | s, .done => s
  | s, .push c later => later.after (s.push c)
  | s, .append inner later => later.after (s.append (inner.after empty))
  | s, .retain keep later => later.after (s.retain keep)

def built (h : History) : ChangeSet := h.after empty

/- Those of the history itself; an inner one has met its own before. -/
def retains : History → List (Change → Bool)
  | .done => []
  | .push _ later => later.retains
  | .append _ later => later.retains
  | .retain keep later => keep :: later.retains

def keeps (h : History) (c : Change) : Bool := h.retains.all fun keep => keep c

/- What arrived and was kept by every later retain, in order of arrival. -/
def survivors : History → List Change
  | .done => []
  | .push c later => [c].filter later.keeps ++ later.survivors
  | .append inner later => inner.survivors.filter later.keeps ++ later.survivors
  | .retain _ later => later.survivors

/- One step: what was there before the operation has yet to pass the later retains. -/
theorem arrivedBefore (s : ChangeSet) (arrived : List Change) (h : History) :
    ((s.append (ofList arrived)).retain h.keeps).append (ofList h.survivors) =
      (s.retain h.keeps).append (ofList (arrived.filter h.keeps ++ h.survivors)) := by
  rw [retainAppend, retainOfList, appendAssoc, ofListAppend]

theorem afterSurvivors (h : History) (s : ChangeSet) :
    h.after s = (s.retain h.keeps).append (ofList h.survivors) := by
  induction h generalizing s with
  | done =>
    have kept : s.retain History.done.keeps = s := retainAll (fun _ => rfl) s
    rw [after, survivors, kept, appendEmpty]
  | push c later ih =>
    rw [after, ih, pushAppend, arrivedBefore]
    rfl
  | append inner later inside ih =>
    have innerBuilt : inner.after empty = ofList inner.survivors := inside empty
    rw [after, ih, innerBuilt, arrivedBefore]
    rfl
  | retain keep later ih =>
    rw [after, ih, retainRetain]
    rfl

theorem builtSurvivors (h : History) : h.built = ofList h.survivors := h.afterSurvivors empty

end History

structure Survives (h : History) (s : ChangeSet) : Prop where
  breaking : s.breaking = h.survivors.filter (·.isBreaking)
  dangerous : s.dangerous = h.survivors.filter (!·.isBreaking)
  sum : s.size = s.breaking.length + s.dangerous.length
  size : s.size = h.survivors.length
  listed : s.toList = s.breaking ++ s.dangerous
  breakingFirst : s.toList.Pairwise fun c d => d.isBreaking = true → c.isBreaking = true
  everySurvivor : s.toList.Perm h.survivors

theorem builtSurvives (h : History) : Survives h h.built where
  breaking := congrArg breaking h.builtSurvivors
  dangerous := congrArg dangerous h.builtSurvivors
  sum := rfl
  size := by rw [h.builtSurvivors, sizeOfList]
  listed := rfl
  breakingFirst := h.builtSurvivors ▸ breakingFirst h.survivors
  everySurvivor := h.builtSurvivors ▸ toListOfList h.survivors

theorem setsKeepSurvivors : (∀ h : History, Survives h h.built) ∧
    (∀ (s : ChangeSet) keep also,
      (s.retain keep).retain also = s.retain fun c => keep c && also c) ∧
    ∀ (s t : ChangeSet) keep, (s.append t).retain keep = (s.retain keep).append (t.retain keep) :=
  ⟨builtSurvives, fun s keep also => retainRetain keep also s, fun s t keep => retainAppend keep s t⟩

example :
    let change (category : Category) (name : String) : Change :=
      ⟨category, name, name, none, false, none⟩
    (History.push (change .fieldRemoved "a") (.push (change .typeRemoved "b")
      (.retain (·.resource != "b") (.append (.push (change .optionalArgAdded "c")
        (.push (change .argRemoved "d") (.retain (·.resource != "c") .done))) .done)))).built =
      ⟨[change .fieldRemoved "a", change .argRemoved "d"], []⟩ := by
  decide

end SchemaDrift.ChangeSet
