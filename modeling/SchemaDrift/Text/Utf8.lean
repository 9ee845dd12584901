/-! UTF-8: the octets of a text, and reading octets back. A fault names the index of the first
octet of the ill-formed sequence and how many octets of it rule the text out; a sequence cut off by
the end has no such count. -/
namespace SchemaDrift.Text

structure Utf8Fault where
  index : Nat
  length : Option Nat
  deriving DecidableEq, Repr

def Utf8Fault.message (f : Utf8Fault) : String :=
  match f.length with
  | some n => "invalid utf-8 sequence of " ++ toString n ++ " bytes from index " ++ toString f.index
  | none => "incomplete utf-8 byte sequence from index " ++ toString f.index

def utf8Octets (c : Char) : List UInt8 :=
  let n := c.toNat
  let tail (shift : Nat) : UInt8 := UInt8.ofNat (0x80 + n / Nat.pow 2 shift % 0x40)
  if n < 0x80 then [UInt8.ofNat n]
  else if n < 0x800 then [UInt8.ofNat (0xC0 + n / 0x40), tail 0]
  else if n < 0x10000 then [UInt8.ofNat (0xE0 + n / 0x1000), tail 6, tail 0]
  else [UInt8.ofNat (0xF0 + n / 0x40000), tail 12, tail 6, tail 0]

def encodeUtf8 (s : List Char) : List UInt8 := s.flatMap utf8Octets

def octetLength (s : List Char) : Nat := (encodeUtf8 s).length

def dropOctets (n : Nat) : List Char → List Char
  | [] => []
  | c :: cs => if n = 0 then c :: cs else dropOctets (n - (utf8Octets c).length) cs

def takeOctets (n : Nat) : List Char → List Char
  | [] => []
  | c :: cs =>
    let width := (utf8Octets c).length
    if width ≤ n then c :: takeOctets (n - width) cs else []

/-- What a first octet promises: how many octets follow, the value bits it holds, and the range of
the second octet, which excludes overlong forms, surrogates and values past the last character. -/
structure Utf8Lead where
  following : Nat
  bits : Nat
  low : Nat
  high : Nat

def utf8Lead? (b : Nat) : Option Utf8Lead :=
  if 0xC2 ≤ b ∧ b ≤ 0xDF then some ⟨1, b - 0xC0, 0x80, 0xBF⟩
  else if b = 0xE0 then some ⟨2, 0, 0xA0, 0xBF⟩
  else if b = 0xED then some ⟨2, 0xD, 0x80, 0x9F⟩
  else if 0xE1 ≤ b ∧ b ≤ 0xEF then some ⟨2, b - 0xE0, 0x80, 0xBF⟩
  else if b = 0xF0 then some ⟨3, 0, 0x90, 0xBF⟩
  else if 0xF1 ≤ b ∧ b ≤ 0xF3 then some ⟨3, b - 0xF0, 0x80, 0xBF⟩
  else if b = 0xF4 then some ⟨3, 4, 0x80, 0x8F⟩
  else none

inductive Utf8Step where
  | read (value : Nat) (rest : List UInt8)
  | cut
  | bad (length : Nat)

def utf8Tail (following low high value taken : Nat) : List UInt8 → Utf8Step
  | octets =>
    match following, octets with
    | 0, rest => .read value rest
    | _ + 1, [] => .cut
    | n + 1, b :: rest =>
      if low ≤ b.toNat ∧ b.toNat ≤ high then
        utf8Tail n 0x80 0xBF (value * 0x40 + (b.toNat - 0x80)) (taken + 1) rest
      else .bad taken

def utf8Step (b : UInt8) (rest : List UInt8) : Utf8Step :=
  if b.toNat < 0x80 then .read b.toNat rest
  else match utf8Lead? b.toNat with
    | none => .bad 1
    | some lead => utf8Tail lead.following lead.low lead.high lead.bits 1 rest

theorem utf8TailShorter {following low high value taken : Nat} {octets rest : List UInt8} {v : Nat}
    (h : utf8Tail following low high value taken octets = .read v rest) :
    rest.length ≤ octets.length := by
  induction following generalizing low high value taken octets with
  | zero => simp only [utf8Tail, Utf8Step.read.injEq] at h; simp [h.2]
  | succ n ih =>
    cases octets with
    | nil => simp [utf8Tail] at h
    | cons b tail =>
      rw [utf8Tail] at h
      split at h
      · exact Nat.le_succ_of_le (ih h)
      · simp at h

theorem utf8StepShorter {b : UInt8} {octets rest : List UInt8} {v : Nat}
    (h : utf8Step b octets = .read v rest) : rest.length ≤ octets.length := by
  unfold utf8Step at h
  split at h
  · simp only [Utf8Step.read.injEq] at h; simp [h.2]
  · split at h
    · simp at h
    · exact utf8TailShorter h

def decodeUtf8From (index : Nat) : List UInt8 → Except Utf8Fault (List Char)
  | [] => .ok []
  | b :: octets =>
    match _h : utf8Step b octets with
    | .bad n => .error ⟨index, some n⟩
    | .cut => .error ⟨index, none⟩
    | .read value rest => do
      let tail ← decodeUtf8From (index + (octets.length + 1 - rest.length)) rest
      .ok (Char.ofNat value :: tail)
termination_by octets => octets.length
decreasing_by
  have := utf8StepShorter _h
  simp only [List.length_cons]; omega

def decodeUtf8 (octets : List UInt8) : Except Utf8Fault (List Char) := decodeUtf8From 0 octets

end SchemaDrift.Text
