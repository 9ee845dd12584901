import SchemaDrift.Proofs.Schema.Literal

/-! List coercion of literals. What it gives has a list, or null, wherever the type has one, and such a
literal it leaves as it is, so coercing again changes nothing. Literals that are the same stay so. -/
namespace SchemaDrift.Literal

def Fits : TypeRef → Literal → Prop
  | .named _, _ => True
  | .nonNull inner, v => Fits inner v
  | .list item, v => v = .null ∨ ∃ items, v = .list items ∧ ∀ x ∈ items, Fits item x

def Single : Literal → Prop
  | .null => False
  | .list _ => False
  | _ => True

theorem coerceSingle {v : Literal} (single : v.Single) (item : TypeRef) :
    v.coerce (.list item) = .list [v.coerce item] := by
  cases v with
  | null => contradiction
  | list items => contradiction
  | _ => rfl

theorem coerceFits (t : TypeRef) (v : Literal) : Fits t (v.coerce t) := by
  induction t generalizing v with
  | named name => trivial
  | nonNull inner ih => exact ih v
  | list item ih =>
    have single : ∀ w : Literal, w.Single → Fits (.list item) (w.coerce (.list item)) := by
      intro w single
      rw [coerceSingle single]
      exact .inr ⟨_, rfl, List.forall_mem_singleton.mpr (ih w)⟩
    cases v with
    | null => exact .inl rfl
    | list items => exact .inr ⟨_, rfl, List.forall_mem_map.mpr fun x _ => ih x⟩
    | _ => exact single _ trivial

theorem coerceFitting {t : TypeRef} {v : Literal} (fits : Fits t v) : v.coerce t = v := by
  induction t generalizing v with
  | named name => rfl
  | nonNull inner ih => exact ih fits
  | list item ih =>
    rcases fits with rfl | ⟨items, rfl, all⟩
    · rfl
    · have kept : items.map (coerce item) = items.map id :=
        List.map_congr_left fun x inside => ih (all x inside)
      exact congrArg Literal.list (kept.trans (List.map_id items))

theorem sameSingle {a b : Literal} (single : a.Single) (h : a.same b = true) : b.Single := by
  cases b with
  | null => cases a <;> contradiction
  | list items => cases a <;> contradiction
  | _ => trivial

theorem coerceSame {t : TypeRef} {a b : Literal} (h : a.same b = true) :
    (a.coerce t).same (b.coerce t) = true := by
  induction t generalizing a b with
  | named name => exact h
  | nonNull inner ih => exact ih h
  | list item ih =>
    have single : a.Single → (a.coerce (.list item)).same (b.coerce (.list item)) = true := by
      intro single
      rw [coerceSingle single, coerceSingle (sameSingle single h)]
      simp only [same, sameItems, ih h, Bool.and_self]
    cases a with
    | null =>
      cases sameNull h
      rfl
    | list items =>
      obtain ⟨others, rfl, each⟩ := sameList h
      refine sameItemsIff.mpr ?_
      rw [List.forall₂_map_left_iff, List.forall₂_map_right_iff]
      exact each.imp fun _ _ => ih
    | _ => exact single trivial

theorem coercionCanonical (t : TypeRef) (v w : Literal) :
    Fits t (v.coerce t) ∧ (v.coerce t = v ↔ Fits t v) ∧ (v.coerce t).coerce t = v.coerce t ∧
      (v.same w = true → (v.coerce t).same (w.coerce t) = true) :=
  ⟨coerceFits t v, ⟨fun same => same ▸ coerceFits t v, coerceFitting⟩, coerceFitting (coerceFits t v),
    coerceSame⟩

section Examples

def unevenLists : Literal := .list [.integer 1, .null, .list [.integer 2, .null]]

def unevenFloats : Literal := .list [.float (Binary64.ofInt 1), .null, .list [.integer 2, .null]]

def integerLists : TypeRef := .nonNull (.list (.nonNull (.list (.named "Int"))))

theorem coercionCanonicalNested :
    unevenLists.coerce integerLists = .list [.list [.integer 1], .null, .list [.integer 2, .null]] ∧
    Fits integerLists (unevenLists.coerce integerLists) ∧ ¬ Fits integerLists unevenLists ∧
    (unevenLists.coerce integerLists).same (unevenFloats.coerce integerLists) = true := by
  obtain ⟨fits, fixed, _, same⟩ := coercionCanonical integerLists unevenLists unevenFloats
  refine ⟨rfl, fits, fun fitting => ?_, same (by decide +kernel)⟩
  have kept := fixed.mpr fitting
  simp [unevenLists, integerLists, coerce] at kept

end Examples

end SchemaDrift.Literal
