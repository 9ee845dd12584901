import SchemaDrift.FileStore
import SchemaDrift.Proofs.Text.Utf8

/-! Writing a file. It succeeds exactly where the path names a place for one, and then that file is
all that changes. The way to it goes through directories only, which it is none of, so the path still
leads to it. -/
namespace SchemaDrift.FileStore
open Text

variable {s after : FileStore} {path text : String} {here p target : NodePath} {n : FileNode}
  {octets : List UInt8} {before parts : List (List Char)} {name : List Char}

/-- A path to a name of its own in a directory, where no directory stands. -/
structure WritesTo (s : FileStore) (path : String) (target : NodePath) : Prop where
  sound : pathFault? path = none
  named : ∃ before name parent, pathParts path = before ++ [name] ∧
    s.walk (s.start path) before = .ok parent ∧ s.node? parent = some .directory ∧
    name ∉ [[], ['.'], ['.', '.']] ∧ octetLength name ≤ nameLimit ∧
    target = parent ++ [String.ofList name]
  free : s.node? target ≠ some .directory

def Writable (s : FileStore) (path : String) : Prop := ∃ target, s.WritesTo path target

structure Rewritten (s : FileStore) (path : String) (octets : List UInt8) (after : FileStore) :
    Prop where
  file : ∃ target, after.resolve path = .ok target ∧ after.node? target = some (.file octets) ∧
    ∀ p ≠ target, after.node? p = s.node? p
  workingDirectory : after.workingDirectory = s.workingDirectory

section Splitting

theorem splitLastPlain (plain : name ≠ []) : splitLast? (before ++ [name]) = some (before, name, false) := by
  simp [splitLast?, plain]

theorem partsOfSplit (split : splitLast? parts = some (before, name, false)) :
    parts = before ++ [name] ∧ name ≠ [] := by
  rcases List.eq_nil_or_concat parts with rfl | ⟨front, last, rfl⟩
  · simp [splitLast?] at split
  · by_cases empty : last = []
    · simp only [splitLast?] at split
      split at split <;> simp [empty] at split
    · rw [List.concat_eq_append, splitLastPlain empty] at split
      cases split
      exact ⟨List.concat_eq_append, empty⟩

end Splitting

theorem writtenTo (written : s.writeOctets path octets = .ok after) :
    ∃ target, s.WritesTo path target ∧ after = s.setNode target (.file octets) := by
  unfold writeOctets at written
  split at written
  case h_1 => contradiction
  case h_2 sound =>
    split at written
    case h_1 => contradiction
    case h_2 before name slashed split =>
      cases reached : s.walk (s.start path) before with
      | error fault =>
        rw [reached] at written
        contradiction
      | ok parent =>
        rw [reached] at written
        simp only [bind, Except.bind] at written
        split_ifs at written with folder odd long taken
        cases written
        simp only [not_or, Bool.not_eq_true] at odd
        obtain ⟨dot, dots, rfl⟩ := odd
        obtain ⟨parts, nonempty⟩ := partsOfSplit split
        have plain : name ∉ [[], ['.'], ['.', '.']] := by simp [nonempty, dot, dots]
        exact ⟨_, ⟨sound, ⟨before, name, parent, parts, reached, Decidable.not_not.mp folder, plain,
          Nat.not_lt.mp long, rfl⟩, taken⟩, rfl⟩

theorem WritesTo.written (place : s.WritesTo path target) (octets : List UInt8) :
    s.writeOctets path octets = .ok (s.setNode target (.file octets)) := by
  obtain ⟨sound, ⟨before, name, parent, parts, reached, folder, plain, short, rfl⟩, free⟩ := place
  simp only [List.mem_cons, List.not_mem_nil, or_false, not_or] at plain
  obtain ⟨nonempty, dot, dots⟩ := plain
  simp [writeOctets, sound, parts, splitLastPlain nonempty, reached, bind, Except.bind, folder, dot, dots,
    Nat.not_lt.mpr short, free]

theorem unwritable (closed : ¬ s.Writable path) (octets : List UInt8) :
    ∃ fault, s.writeOctets path octets = .error fault := by
  cases result : s.writeOctets path octets with
  | error fault => exact ⟨fault, rfl⟩
  | ok after =>
    obtain ⟨target, place, -⟩ := writtenTo result
    exact absurd ⟨target, place⟩ closed

theorem lookupReplaced (nodes : List (NodePath × FileNode)) (target p : NodePath) (n : FileNode) :
    (nodes.map fun e => if e.1 = target then (target, n) else e).lookup p =
      if p = target then (nodes.lookup target).map fun _ => n else nodes.lookup p := by
  induction nodes with
  | nil => simp
  | cons e nodes ih =>
    obtain ⟨q, m⟩ := e
    have head : (if q = target then (target, n) else (q, m)) = (q, if q = target then n else m) := by
      split
      case isTrue same => rw [same]
      case isFalse => rfl
    rw [List.map_cons, head, List.lookup_cons, ih]
    by_cases here : p = q
    · subst here
      by_cases asked : p = target
      · simp [asked]
      · simp [asked]
    · by_cases asked : p = target
      · subst asked
        simp [List.lookup_cons, beq_false_of_ne here]
      · simp [asked, List.lookup_cons, beq_false_of_ne here]

theorem nodeSet (deep : target ≠ []) :
    (s.setNode target n).node? p = if p = target then some n else s.node? p := by
  unfold node? setNode
  by_cases root : p = []
  · simp [root, deep.symm]
  · rw [if_neg root, if_neg root]
    split
    case isTrue present =>
      obtain ⟨old, found⟩ := Option.isSome_iff_exists.mp present
      rw [lookupReplaced, found, Option.map_some]
    case isFalse absent =>
      have unfound : s.nodes.lookup target = none := Option.not_isSome_iff_eq_none.mp absent
      rw [List.lookup_append]
      by_cases same : p = target
      · simp [same, unfound]
      · simp [same, List.lookup_cons, beq_false_of_ne same]

theorem startSet : (s.setNode target n).start path = s.start path := by
  unfold setNode
  split <;> rfl

theorem walkAppend {more : List (List Char)} :
    s.walk here (parts ++ more) = (s.walk here parts).bind (s.walk · more) := by
  induction parts generalizing here with
  | nil => rfl
  | cons part parts ih =>
    rw [List.cons_append, walk, walk]
    split
    case h_1 => rfl
    case h_2 => rfl
    case h_3 =>
      dsimp only
      split_ifs
      · exact ih
      · exact ih
      · rfl
      · exact ih
      · rfl

theorem walkSet (deep : target ≠ []) (free : s.node? target ≠ some .directory)
    (reached : s.walk here parts = .ok p) : (s.setNode target n).walk here parts = .ok p := by
  induction parts generalizing here with
  | nil => exact reached
  | cons part parts ih =>
    rw [walk] at reached ⊢
    split at reached
    case h_1 => contradiction
    case h_2 => contradiction
    case h_3 folder =>
      have apart : here ≠ target := fun same => free (same ▸ folder)
      have kept : ∀ q, (s.node? q).isSome = true → ((s.setNode target n).node? q).isSome = true := by
        intro q present
        rw [nodeSet deep]
        split
        · rfl
        · exact present
      rw [nodeSet deep, if_neg apart, folder]
      dsimp only at reached ⊢
      split_ifs at reached with stays up long present
      · rw [if_pos stays]
        exact ih reached
      · rw [if_neg stays, if_pos up]
        exact ih reached
      · rw [if_neg stays, if_neg up, if_neg long, if_pos (kept _ present)]
        exact ih reached

theorem WritesTo.rewritten (place : s.WritesTo path target) (octets : List UInt8) :
    s.Rewritten path octets (s.setNode target (.file octets)) := by
  obtain ⟨sound, ⟨before, name, parent, parts, reached, folder, plain, short, rfl⟩, free⟩ := place
  have deep : parent ++ [String.ofList name] ≠ [] := by simp
  have apart : parent ≠ parent ++ [String.ofList name] := by simp
  simp only [List.mem_cons, List.not_mem_nil, or_false, not_or] at plain
  refine ⟨⟨_, ?_, by rw [nodeSet deep, if_pos rfl], fun p other => by rw [nodeSet deep, if_neg other]⟩, ?_⟩
  · have last : (s.setNode (parent ++ [String.ofList name]) (.file octets)).walk parent [name] =
        .ok (parent ++ [String.ofList name]) := by
      simp [walk, nodeSet deep, folder, plain, Nat.not_lt.mpr short]
    rw [resolve, sound, startSet, parts, walkAppend, walkSet deep free reached]
    exact last
  · unfold setNode
    split <;> rfl

theorem Rewritten.read (rewritten : s.Rewritten path octets after) : after.readOctets path = .ok octets := by
  obtain ⟨target, found, file, -⟩ := rewritten.file
  rw [readOctets, found]
  simp [bind, Except.bind, file]

theorem Rewritten.readText (rewritten : s.Rewritten path (encodeUtf8 text.toList) after) :
    after.readText path = .ok text := by
  rw [FileStore.readText, rewritten.read]
  simp [bind, Except.bind, textOf, (decodeUtf8Iff (s := text.toList)).mpr rfl]

end SchemaDrift.FileStore
