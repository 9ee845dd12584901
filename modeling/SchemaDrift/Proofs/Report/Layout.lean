import SchemaDrift.Proofs.Change.Grouping
import SchemaDrift.Proofs.Text.Lines

/-! What the terminal and Markdown have in common. Below a head that does not look at the changes
stands one line if there are none, or else a section for each category with a line for each change;
and nothing else that is printed is the line of no changes. -/
namespace SchemaDrift
open Text (Unbroken unlines)

def OtherLine (line s : String) : Prop := Unbroken s ∧ s ≠ line

instance (line s : String) : Decidable (OtherLine line s) :=
  inferInstanceAs (Decidable (Unbroken s ∧ s ≠ line))

def OtherLead (line lead : String) : Prop := Unbroken lead ∧ ¬ lead.toList <+: line.toList

instance (line lead : String) : Decidable (OtherLead line lead) :=
  inferInstanceAs (Decidable (Unbroken lead ∧ ¬ lead.toList <+: line.toList))

theorem otherLine {line lead rest : String} (other : OtherLead line lead) (unbroken : Unbroken rest) :
    OtherLine line (lead ++ rest) := by
  refine ⟨Text.unbrokenAppend.mpr ⟨other.1, unbroken⟩, ?_⟩
  rintro rfl
  exact other.2 (String.toList_append ▸ List.prefix_append ..)

/- A heading is a mark, the name of the category and how many changes it has. -/
structure Layout where
  clean : String
  mark : Category → String
  size : Nat → String
  gap : List String
  bullet : String
  details : Change → String
  closing : List String
  unbroken : Unbroken clean
  headings : ∀ k n, OtherLine clean (mark k ++ k.name ++ size n)
  entries : ∀ c, Unbroken c.message → OtherLine clean (bullet ++ c.message ++ details c)
  others : ∀ s ∈ "" :: gap ++ closing, OtherLine clean s

namespace Layout
variable (l : Layout)

def entry (c : Change) : String := l.bullet ++ c.message ++ l.details c

def group (g : Category × List Change) : List String :=
  (l.mark g.1 ++ g.1.name ++ l.size g.2.length) :: l.gap ++ g.2.map l.entry ++ [""]

def listing (groups : List (Category × List Change)) : List String :=
  groups.flatMap l.group ++ l.closing

def body (total : Nat) (changes : List Change) : List String :=
  if total = 0 then l.clean :: l.closing else l.listing (groupByCategory changes)

theorem groupOther {g : Category × List Change} (messages : ∀ c ∈ g.2, Unbroken c.message) :
    ∀ s ∈ l.group g, OtherLine l.clean s := by
  have others := l.others
  simp only [List.cons_append, List.forall_mem_cons, List.forall_mem_append] at others
  refine List.forall_mem_append.mpr ⟨List.forall_mem_append.mpr ⟨?_, ?_⟩, ?_⟩
  · exact List.forall_mem_cons.mpr ⟨l.headings _ _, others.2.1⟩
  · exact List.forall_mem_map.mpr fun c inside => l.entries c (messages c inside)
  · exact List.forall_mem_singleton.mpr others.1

theorem listingOther {groups : List (Category × List Change)}
    (messages : ∀ g ∈ groups, ∀ c ∈ g.2, Unbroken c.message) :
    ∀ s ∈ l.listing groups, OtherLine l.clean s := by
  refine List.forall_mem_append.mpr ⟨List.forall_mem_flatMap.mpr ?_, ?_⟩
  · exact fun g inside => l.groupOther (messages g inside)
  · exact fun s inside => l.others s (List.mem_append_right _ inside)

/- The text says that there is nothing where there are no annotations, on a line of its own; else it
lists each change under its category, once, the categories of breaking changes first. What the text
was given, such as labels, may have line feeds; then only the lines below its head are known. -/
structure Prints (given : List String) (changes : List Change) (annotations : List String)
    (text : String) : Prop where
  clean : (∀ s ∈ given, Unbroken s) → (l.clean ∈ Text.lines text ↔ annotations = [])
  below : ∃ head body, text = head ++ unlines body ∧
    ((∀ s ∈ given, Unbroken s) → l.clean ∉ Text.lines head) ∧
    (∀ s ∈ body, Unbroken s) ∧ (l.clean ∈ body ↔ annotations = []) ∧
    (annotations ≠ [] → ∃ groups, Grouped changes groups ∧
      groups.Pairwise (fun g h => h.1.isBreaking = true → g.1.isBreaking = true) ∧
      body = l.listing groups)

variable {l}

section Body
variable {changes : List Change} {total : Nat} (messages : ∀ c ∈ changes, Unbroken c.message)
include messages

theorem changesListed {groups : List (Category × List Change)} (grouped : Grouped changes groups) :
    ∀ s ∈ l.listing groups, OtherLine l.clean s := by
  refine l.listingOther fun g inside c member => messages c ?_
  exact grouped.everyChange.subset (List.mem_flatMap.mpr ⟨g, inside, member⟩)

theorem bodyUnbroken : ∀ s ∈ l.body total changes, Unbroken s := by
  unfold body
  split
  · have closed : ∀ s ∈ l.closing, OtherLine l.clean s := fun s inside =>
      l.others s (List.mem_append_right _ inside)
    exact List.forall_mem_cons.mpr ⟨l.unbroken, fun s inside => (closed s inside).1⟩
  · exact fun s inside => (changesListed messages (changesGrouped changes) s inside).1

theorem cleanInBody (counted : total = changes.length) : l.clean ∈ l.body total changes ↔ changes = [] := by
  rw [← List.length_eq_zero_iff, ← counted, body]
  split
  case isTrue nothing => exact iff_of_true List.mem_cons_self nothing
  case isFalse listed =>
    exact iff_of_false (fun inside => (changesListed messages (changesGrouped changes) _ inside).2 rfl) listed

end Body

theorem cleanOutside {given head : List String}
    (others : (∀ s ∈ given, Unbroken s) → ∀ s ∈ head, OtherLine l.clean s)
    (plain : ∀ s ∈ given, Unbroken s) : (∀ s ∈ head, Unbroken s) ∧ l.clean ∉ head :=
  ⟨fun s inside => (others plain s inside).1, fun inside => (others plain _ inside).2 rfl⟩

theorem prints {breaking dangerous : List Change} (severe : ∀ c ∈ breaking, c.isBreaking = true)
    (mild : ∀ c ∈ dangerous, c.isBreaking = false)
    (messages : ∀ c ∈ breaking ++ dangerous, Unbroken c.message) (announce : Change → String)
    {total : Nat} (counted : total = (breaking ++ dangerous).length) {given head : List String}
    (others : (∀ s ∈ given, Unbroken s) → ∀ s ∈ head, OtherLine l.clean s) {text : String}
    (written : text = unlines head ++ unlines (l.body total (breaking ++ dangerous))) :
    l.Prints given (breaking ++ dangerous) ((breaking ++ dangerous).map announce) text := by
  have visible : l.clean ≠ "" := (l.others "" List.mem_cons_self).2.symm
  have told : l.clean ∈ l.body total (breaking ++ dangerous) ↔
      (breaking ++ dangerous).map announce = [] :=
    (cleanInBody messages counted).trans List.map_eq_nil_iff.symm
  constructor
  case clean =>
    intro plain
    obtain ⟨above, apart⟩ := cleanOutside others plain
    have whole : ∀ s ∈ head ++ l.body total (breaking ++ dangerous), Unbroken s :=
      List.forall_mem_append.mpr ⟨above, bodyUnbroken messages⟩
    rw [written, ← Text.unlinesAppend, Text.memLines whole visible, List.mem_append, or_iff_right apart, told]
  case below =>
    refine ⟨unlines head, _, written, fun plain => ?_, bodyUnbroken messages, told, fun present => ?_⟩
    · obtain ⟨above, apart⟩ := cleanOutside others plain
      rwa [Text.memLines above visible]
    · have nonzero : total ≠ 0 := by
        rw [counted]
        simpa using present
      exact ⟨_, changesGrouped _, breakingGroupsFirst severe mild, if_neg nonzero⟩

end Layout
end SchemaDrift
