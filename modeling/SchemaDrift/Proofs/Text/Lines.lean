import SchemaDrift.Proofs.Text.Numeral

/-! Texts by line. A text that was put together from lines, each ended by a line feed, is split into
the same lines if none of them has a line feed of its own. -/
namespace SchemaDrift.Text
variable {s t : String} {ls more : List String}

def lines (text : String) : List String := (text.toList.splitOn '\n').map String.ofList

def unlines : List String → String
  | [] => ""
  | l :: ls => l ++ "\n" ++ unlines ls

def Unbroken (s : String) : Prop := '\n' ∉ s.toList

instance : DecidablePred Unbroken := fun s => inferInstanceAs (Decidable ('\n' ∉ s.toList))

@[simp] theorem unbrokenAppend : Unbroken (s ++ t) ↔ Unbroken s ∧ Unbroken t := by
  simp [Unbroken, not_or]

@[simp] theorem unbrokenDecimal (n : Nat) : Unbroken (decimalText n) := by
  intro inside
  rw [decimalText, String.toList_ofList] at inside
  exact absurd (digitsOfDecimal n _ inside) (by decide)

@[simp] theorem unlinesAppend : unlines (ls ++ more) = unlines ls ++ unlines more := by
  induction ls with
  | nil => simp [unlines]
  | cons l ls ih => simp [unlines, ih, String.append_assoc]

theorem unlinesMap {α : Type} (f : α → String) (xs : List α) :
    unlines (xs.map f) = String.join (xs.map fun x => f x ++ "\n") := by
  induction xs with
  | nil => rfl
  | cons x xs ih => simp [unlines, ih]

theorem unlinesFlatMap {α : Type} (f : α → List String) (xs : List α) :
    unlines (xs.flatMap f) = String.join (xs.map fun x => unlines (f x)) := by
  induction xs with
  | nil => rfl
  | cons x xs ih => simp [ih]

theorem linesCons (unbroken : Unbroken s) : lines (s ++ "\n" ++ t) = s :: lines t := by
  have chars : (s ++ "\n" ++ t).toList = s.toList ++ '\n' :: t.toList := by simp
  have absent : ∀ c ∈ s.toList, (c == '\n') = false := fun c inside =>
    beq_eq_false_iff_ne.mpr fun same => unbroken (same ▸ inside)
  rw [lines, chars, List.splitOn, List.splitOnP_append_cons_of_forall_mem absent '\n' rfl, List.map_cons,
    String.ofList_toList]
  rfl

theorem linesOfUnlines (unbroken : ∀ l ∈ ls, Unbroken l) : lines (unlines ls ++ t) = ls ++ lines t := by
  induction ls with
  | nil => rw [unlines, String.empty_append, List.nil_append]
  | cons l ls ih =>
    rw [List.forall_mem_cons] at unbroken
    rw [unlines, String.append_assoc, linesCons unbroken.1, ih unbroken.2, List.cons_append]

/- The empty text after the last line feed counts as a line. -/
theorem memLines (unbroken : ∀ l ∈ ls, Unbroken l) (inhabited : s ≠ "") :
    s ∈ lines (unlines ls) ↔ s ∈ ls := by
  have split : lines (unlines ls) = ls ++ [""] := by
    rw [← String.append_empty (s := unlines ls), linesOfUnlines unbroken]
    rfl
  rw [split, List.mem_append, List.mem_singleton, or_iff_left inhabited]

end SchemaDrift.Text
