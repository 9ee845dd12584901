import Mathlib.Data.List.Forall2
import Mathlib.Data.Option.Basic
import SchemaDrift.Sdl.Grammar

/-! What the results of a reading satisfy, where it succeeds: for outcomes that may be errors and for
parsers, which are outcomes at every place of the text. Outcomes that agree up to their errors are
compared as options. -/
namespace SchemaDrift.Sdl
open SchemaDrift.Sdl.Parser

section Outcomes
variable {ε α β σ : Type}

def Gives (x : Except ε α) (P : α → Prop) : Prop := ∀ a, x = .ok a → P a

theorem givesOk {a : α} {P : α → Prop} (h : P a) : Gives (.ok a : Except ε α) P := by
  intro b same
  cases same
  exact h

theorem givesError {e : ε} {P : α → Prop} : Gives (.error e) P := by
  intro b same
  contradiction

theorem givesBind {x : Except ε α} {f : α → Except ε β} {Q : α → Prop} {P : β → Prop}
    (first : Gives x Q) (next : ∀ a, Q a → Gives (f a) P) : Gives (x >>= f) P := by
  intro b ok
  cases h : x with
  | error e =>
    rw [h] at ok
    contradiction
  | ok a =>
    rw [h] at ok
    exact next a (first a h) b ok

theorem givesThen {x : Except ε α} {f : α → Except ε β} {P : β → Prop} (next : ∀ a, Gives (f a) P) :
    Gives (x >>= f) P :=
  givesBind (Q := fun _ => True) (fun _ _ => trivial) fun a _ => next a

theorem givesMono {x : Except ε α} {P Q : α → Prop} (h : Gives x P) (weaker : ∀ a, P a → Q a) :
    Gives x Q :=
  fun a ok => weaker a (h a ok)

theorem okOfTest (x : Except ε α) (test : α → Bool) (passed : x.toOption.any test = true) :
    ∃ a, x = .ok a ∧ test a = true := by
  cases x with
  | error e => contradiction
  | ok a => exact ⟨a, rfl, passed⟩

theorem givesAnd {x : Except ε α} {P Q : α → Prop} (first : Gives x P) (second : Gives x Q) :
    Gives x fun a => P a ∧ Q a :=
  fun a ok => ⟨first a ok, second a ok⟩

theorem givesMapM {f : α → Except ε β} {P : β → Prop} {xs : List α}
    (each : ∀ x ∈ xs, Gives (f x) P) : Gives (xs.mapM f) fun ys => ∀ y ∈ ys, P y := by
  induction xs with
  | nil => exact givesOk (by simp)
  | cons x rest ih =>
    rw [List.mapM_cons]
    refine givesBind (each x List.mem_cons_self) fun y head => ?_
    refine givesBind (ih fun z member => each z (List.mem_cons_of_mem _ member)) fun ys tail => ?_
    exact givesOk (List.forall_mem_cons.mpr ⟨head, tail⟩)

theorem givesEach {f : α → Except ε β} {xs : List α} :
    Gives (xs.mapM f) fun ys => List.Forall₂ (fun x y => f x = .ok y) xs ys := by
  induction xs with
  | nil => exact givesOk .nil
  | cons x rest ih =>
    rw [List.mapM_cons]
    refine givesBind (Q := fun y => f x = .ok y) (fun y ok => ok) fun y head => ?_
    exact givesBind ih fun ys tail => givesOk (.cons head tail)

theorem partnerOf {R : α → β → Prop} {xs : List α} {ys : List β} (each : List.Forall₂ R xs ys) {x : α}
    (member : x ∈ xs) : ∃ y ∈ ys, R x y := by
  induction each with
  | nil => contradiction
  | cons head _ ih =>
    rcases List.mem_cons.mp member with rfl | inside
    · exact ⟨_, List.mem_cons_self, head⟩
    · obtain ⟨y, later, related⟩ := ih inside
      exact ⟨y, List.mem_cons_of_mem _ later, related⟩

theorem givesMember {f : α → Except ε β} {xs : List α} {x : α} (member : x ∈ xs) :
    Gives (xs.mapM f) fun ys => ∃ y ∈ ys, f x = .ok y :=
  givesMono givesEach fun _ each => partnerOf each member

theorem givesNames {f : α → Except ε β} {name : β → String} {label : α → String}
    (named : ∀ x, Gives (f x) fun y => name y = label x) {xs : List α} :
    Gives (xs.mapM f) fun ys => ys.map name = xs.map label := by
  refine givesMono givesEach fun ys each => ?_
  induction each with
  | nil => rfl
  | cons head _ ih => rw [List.map_cons, List.map_cons, ih, named _ _ head]

theorem givesFoldlM {f : σ → α → Except ε σ} {P : σ → Prop} {xs : List α} {s : σ} (start : P s)
    (step : ∀ x ∈ xs, ∀ t, P t → Gives (f t x) P) : Gives (xs.foldlM f s) P := by
  induction xs generalizing s with
  | nil => exact givesOk start
  | cons x rest ih =>
    rw [List.foldlM_cons]
    refine givesBind (step x List.mem_cons_self s start) fun t kept => ?_
    exact ih kept fun y member => step y (List.mem_cons_of_mem _ member)

def Agree (x y : Except ε α) : Prop :=
  (∃ a, x = .ok a ∧ y = .ok a) ∨ ∃ e f, x = .error e ∧ y = .error f

theorem agreeIff {x y : Except ε α} : Agree x y ↔ x.toOption = y.toOption := by
  cases x <;> cases y <;> simp [Agree, Except.toOption, eq_comm]

theorem Agree.ok {x y : Except ε α} (agree : Agree x y) {a : α} (built : x = .ok a) : y = .ok a := by
  rw [agreeIff, built] at agree
  cases y with
  | ok b => exact congrArg _ (Option.some.inj agree).symm
  | error e => contradiction

theorem Agree.error {x y : Except ε α} (agree : Agree x y) {e : ε} (failed : x = .error e) :
    ∃ f, y = .error f := by
  rw [agreeIff, failed] at agree
  cases y with
  | ok b => contradiction
  | error f => exact ⟨f, rfl⟩

@[simp] theorem toOptionOk (a : α) : (.ok a : Except ε α).toOption = some a := rfl

theorem toOptionSome {x : Except ε α} {a : α} : x.toOption = some a ↔ x = .ok a := by
  cases x <;> simp [Except.toOption]

theorem givesGuard {x : Except ε α} {p : Prop} [Decidable p] {y : Option α}
    (guarded : x.toOption = if p then y else none) : Gives x fun _ => p := by
  intro a ok
  by_contra off
  rw [ok, if_neg off] at guarded
  contradiction

theorem toOptionBind (x : Except ε α) (f : α → Except ε β) :
    (x >>= f).toOption = x.toOption.bind fun a => (f a).toOption := by
  cases x <;> rfl

theorem toOptionMapMAppend {f : α → Except ε β} {xs ys : List α} :
    ((xs ++ ys).mapM f).toOption = (xs.mapM f).toOption.bind fun as =>
      (ys.mapM f).toOption.map (as ++ ·) := by
  rw [List.mapM_append, toOptionBind]
  refine congrArg _ (funext fun as => ?_)
  rw [toOptionBind, Option.map_eq_bind]
  rfl

theorem stepPastRun {f : σ → Option σ} {g : σ → β → Option σ} {ys : List β}
    (step : ∀ y ∈ ys, ∀ s, (f s).bind (g · y) = (g s y).bind f) (s : σ) :
    (f s).bind (ys.foldlM g) = (ys.foldlM g s).bind f := by
  induction ys generalizing s with
  | nil => simp
  | cons y rest ih =>
    obtain ⟨head, tail⟩ := List.forall_mem_cons.mp step
    calc (f s).bind ((y :: rest).foldlM g)
      _ = ((f s).bind (g · y)).bind (rest.foldlM g) := by
        simp only [List.foldlM_cons, Option.bind_eq_bind, Option.bind_assoc]
      _ = (g s y).bind fun t => (f t).bind (rest.foldlM g) := by rw [head s, Option.bind_assoc]
      _ = (g s y).bind fun t => (rest.foldlM g t).bind f := congrArg _ (funext (ih tail))
      _ = ((y :: rest).foldlM g s).bind f := by
        simp only [List.foldlM_cons, Option.bind_eq_bind, Option.bind_assoc]

theorem runsCommute {f : σ → α → Option σ} {g : σ → β → Option σ} {xs : List α} {ys : List β}
    (step : ∀ x ∈ xs, ∀ y ∈ ys, ∀ s, (f s x).bind (g · y) = (g s y).bind (f · x)) (s : σ) :
    (xs.foldlM f s).bind (ys.foldlM g) = (ys.foldlM g s).bind (xs.foldlM f) :=
  stepPastRun (fun y inside s => (stepPastRun (fun x member t => (step x member y inside t).symm) s).symm) s

end Outcomes

section Parsers
variable {α β : Type} {I : Scan → Prop}

def Keeps (I : Scan → Prop) (p : Parser α) (P : α → Prop) : Prop :=
  ∀ s, I s → Gives (p s) fun r => P r.1 ∧ I r.2

theorem keepsPure {a : α} {P : α → Prop} (h : P a) : Keeps I (pure a) P := fun _ kept => givesOk ⟨h, kept⟩

theorem keepsThrow {l : Location} {P : α → Prop} : Keeps I (throw l) P := fun _ _ => givesError

theorem keepsBind {p : Parser α} {f : α → Parser β} {Q : α → Prop} {P : β → Prop}
    (first : Keeps I p Q) (next : ∀ a, Q a → Keeps I (f a) P) : Keeps I (p >>= f) P :=
  fun s kept => givesBind (first s kept) fun r h => next r.1 h.1 r.2 h.2

theorem keepsMono {p : Parser α} {P Q : α → Prop} (h : Keeps I p P) (weaker : ∀ a, P a → Q a) :
    Keeps I p Q :=
  fun s kept => givesMono (h s kept) fun r result => ⟨weaker r.1 result.1, result.2⟩

theorem keepsMap {p : Parser α} {f : α → β} {Q : α → Prop} {P : β → Prop} (first : Keeps I p Q)
    (next : ∀ a, Q a → P (f a)) : Keeps I (f <$> p) P :=
  keepsBind first fun a h => keepsPure (next a h)

theorem keepsMany {starts : Token → Bool} {item : Parser α} {P : α → Prop} (each : Keeps I item P) :
    Keeps I (many starts item) fun xs => ∀ x ∈ xs, P x := by
  intro s kept
  fun_induction many starts item s with
  | case1 s opened e failed => exact givesError
  | case2 s opened a rest read shorter ih =>
    have head := each s kept (a, rest) read
    refine givesBind (ih head.2) fun r tail => givesOk ?_
    exact ⟨List.forall_mem_cons.mpr ⟨head.1, tail.1⟩, tail.2⟩
  | case3 s opened a rest read stuck =>
    have head := each s kept (a, rest) read
    exact givesOk ⟨by simpa using head.1, head.2⟩
  | case4 s closed => exact givesOk ⟨by simp, kept⟩

theorem keepsMany1 {starts : Token → Bool} {item : Parser α} {P : α → Prop}
    (each : Keeps I item P) : Keeps I (many1 starts item) fun xs => ∀ x ∈ xs, P x :=
  keepsBind each fun _ head => keepsBind (keepsMany each) fun _ tail =>
    keepsPure (List.forall_mem_cons.mpr ⟨head, tail⟩)

end Parsers

end SchemaDrift.Sdl
