import SchemaDrift.Config
import SchemaDrift.Proofs.Text.Glob

/-! What rules ignore: changes of their categories, and changes whose resource one of their patterns
spells out, with any text in the place of each star. -/
namespace SchemaDrift.IgnoreRules

theorem ignoresIff (rules : IgnoreRules) (c : Change) (oneLine : '\n' ∉ c.resource.toList) :
    rules.ignores c = true ↔ c.category ∈ rules.categories ∨
      ∃ p ∈ rules.resources, ∃ gaps, Text.Woven (p.toList.splitOn '*') gaps c.resource.toList := by
  have patterns : (rules.resources.any fun p => Text.matchesPattern p c.resource) = true ↔
      ∃ p ∈ rules.resources, ∃ gaps,
        Text.Woven (p.toList.splitOn '*') gaps c.resource.toList := by
    rw [List.any_eq_true]
    exact exists_congr fun p => and_congr_right fun _ => Text.matchesWoven oneLine p
  rw [ignores, Bool.or_eq_true, List.contains_iff_mem, patterns]

def sampleRules : IgnoreRules := ⟨["Query.*.id*", "ab*ba"], [.argDefaultValueChange]⟩

def removalOf (resource : String) : Change := ⟨.fieldRemoved, "", resource, .none, false, .none⟩

theorem ignoresIffSpelled :
    sampleRules.ignores (removalOf "Query.user.id") = true ∧
    sampleRules.ignores (removalOf "aba") = false ∧
    ¬ ∃ gaps, Text.Woven [['a', 'b'], ['b', 'a']] gaps ['a', 'b', 'a'] := by
  have split : "Query.*.id*".toList.splitOn '*' =
      [['Q', 'u', 'e', 'r', 'y', '.'], ['.', 'i', 'd'], []] := by decide
  have kept : sampleRules.ignores (removalOf "aba") = false := by decide
  refine ⟨?_, kept, fun woven => ?_⟩
  · refine (ignoresIff sampleRules _ (by decide)).mpr (.inr ⟨"Query.*.id*", by simp [sampleRules],
      [['u', 's', 'e', 'r'], []], ?_⟩)
    rw [split]
    exact .gap _ _ (.gap _ _ (.last _))
  · have ignored := (ignoresIff sampleRules (removalOf "aba") (by decide)).mpr
      (.inr ⟨"ab*ba", by simp [sampleRules], woven⟩)
    rw [kept] at ignored
    contradiction

end SchemaDrift.IgnoreRules
