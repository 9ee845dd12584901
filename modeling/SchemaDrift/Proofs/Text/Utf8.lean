import Mathlib.Algebra.Group.Nat.Defs
import Mathlib.Tactic.SplitIfs
import SchemaDrift.Text.Utf8

/-! UTF-8 there and back. A step reads exactly the octets of one character, and those of no surrogate
and of no longer form, so that what is read is written again as it was. -/
namespace SchemaDrift.Text

section Octets
variable {c : Char}

theorem charRange (c : Char) : c.toNat < 0xD800 ∨ 0xDFFF < c.toNat ∧ c.toNat < 0x110000 := c.valid

def continuation : Nat → Nat → List UInt8
  | 0, _ => []
  | k + 1, n => UInt8.ofNat (0x80 + n / 0x40 ^ k % 0x40) :: continuation k n

theorem octetsOne (small : c.toNat < 0x80) : utf8Octets c = [UInt8.ofNat c.toNat] := by
  rw [utf8Octets, if_pos small]

theorem octetsTwo (large : 0x80 ≤ c.toNat) (small : c.toNat < 0x800) :
    utf8Octets c = UInt8.ofNat (0xC0 + c.toNat / 0x40) :: continuation 1 c.toNat := by
  simp [utf8Octets, continuation, Nat.not_lt.mpr large, small]

theorem octetsThree (large : 0x800 ≤ c.toNat) (small : c.toNat < 0x10000) :
    utf8Octets c = UInt8.ofNat (0xE0 + c.toNat / 0x1000) :: continuation 2 c.toNat := by
  have more : ¬ c.toNat < 0x80 := by omega
  simp [utf8Octets, continuation, more, Nat.not_lt.mpr large, small]

theorem octetsFour (large : 0x10000 ≤ c.toNat) :
    utf8Octets c = UInt8.ofNat (0xF0 + c.toNat / 0x40000) :: continuation 3 c.toNat := by
  have more : ¬ c.toNat < 0x80 := by omega
  have evenMore : ¬ c.toNat < 0x800 := by omega
  simp [utf8Octets, continuation, more, evenMore, Nat.not_lt.mpr large]

theorem octetsOfChar (c : Char) : utf8Octets c = String.utf8EncodeChar c := by
  have range := charRange c
  unfold String.utf8EncodeChar
  simp only [Char.toNat_val, Nat.add_comm (_ % _)]
  split_ifs with one two three
  · exact octetsOne (by omega)
  · rw [octetsTwo (by omega) (by omega), Nat.mod_eq_of_lt (by omega : c.toNat / 64 < 32)]
    simp [continuation]
  · rw [octetsThree (by omega) (by omega), Nat.mod_eq_of_lt (by omega : c.toNat / 4096 < 16)]
    simp [continuation]
  · rw [octetsFour (by omega), Nat.mod_eq_of_lt (by omega : c.toNat / 262144 < 8)]
    simp [continuation]

theorem octetsOfText (t : String) : encodeUtf8 t.toList = t.toUTF8.data.toList := by
  rw [encodeUtf8, funext octetsOfChar, String.toUTF8, ← @String.ofList_toList t,
    String.toByteArray_ofList, List.utf8Encode, List.toList_data_toByteArray, String.toList_ofList]

end Octets

theorem leadOfTwo {m : Nat} (low : 2 ≤ m) (high : m < 0x20) :
    utf8Lead? (0xC0 + m) = some ⟨1, m, 0x80, 0xBF⟩ := by
  unfold utf8Lead?
  rw [if_pos (by omega), Nat.add_sub_cancel_left]

theorem leadOfThree {m : Nat} (high : m < 0x10) :
    utf8Lead? (0xE0 + m) =
      some ⟨2, m, if m = 0 then 0xA0 else 0x80, if m = 0xD then 0x9F else 0xBF⟩ := by
  unfold utf8Lead?
  grind

theorem leadOfFour {m : Nat} (high : m < 5) :
    utf8Lead? (0xF0 + m) =
      some ⟨3, m, if m = 0 then 0x90 else 0x80, if m = 4 then 0x8F else 0xBF⟩ := by
  unfold utf8Lead?
  grind

theorem leadWidth {b : Nat} {lead : Utf8Lead} (found : utf8Lead? b = some lead) :
    (∃ m, 2 ≤ m ∧ m < 0x20 ∧ b = 0xC0 + m) ∨ (∃ m < 0x10, b = 0xE0 + m) ∨ ∃ m < 5, b = 0xF0 + m := by
  have range : (0xC2 ≤ b ∧ b ≤ 0xDF) ∨ (0xE0 ≤ b ∧ b ≤ 0xEF) ∨ (0xF0 ≤ b ∧ b ≤ 0xF4) := by
    unfold utf8Lead? at found
    split_ifs at found <;> omega
  rcases range with two | three | four
  · exact .inl ⟨b - 0xC0, by omega, by omega, by omega⟩
  · exact .inr (.inl ⟨b - 0xE0, by omega, by omega⟩)
  · exact .inr (.inr ⟨b - 0xF0, by omega, by omega⟩)

section Steps
variable {k low high value taken v : Nat} {b : UInt8} {octets rest : List UInt8}

theorem octetNat {n : Nat} (small : n < 0x100) : (UInt8.ofNat n).toNat = n :=
  UInt8.toNat_ofNat_of_lt' small

theorem octetOf {n : Nat} (same : n = b.toNat) : UInt8.ofNat n = b := by
  rw [same, UInt8.ofNat_toNat]

theorem charOf (valid : v < 0xD800 ∨ 0xDFFF < v ∧ v < 0x110000) : (Char.ofNat v).toNat = v := by
  rw [Char.ofNat, dif_pos valid]
  rfl

theorem tailNext : utf8Tail (k + 1) low high value taken octets = .read v rest ↔
    ∃ b more, octets = b :: more ∧ (low ≤ b.toNat ∧ b.toNat ≤ high) ∧
      utf8Tail k 0x80 0xBF (value * 0x40 + (b.toNat - 0x80)) (taken + 1) more = .read v rest := by
  cases octets with
  | nil => simp [utf8Tail]
  | cons b more =>
    rw [utf8Tail]
    split
    case isTrue inside =>
      refine ⟨fun read => ⟨b, more, rfl, inside, read⟩, ?_⟩
      rintro ⟨_, _, same, _, read⟩
      cases same
      exact read
    case isFalse outside =>
      refine ⟨fun bad => by contradiction, ?_⟩
      rintro ⟨_, _, same, inside, _⟩
      cases same
      exact absurd inside outside

theorem tailFirst (least : 0x80 ≤ low) (most : high ≤ 0xBF)
    (later : ∀ {value taken : Nat} {octets : List UInt8},
      utf8Tail k 0x80 0xBF value taken octets = .read v rest ↔
        value = v / 0x40 ^ k ∧ octets = continuation k v ++ rest) :
    utf8Tail (k + 1) low high value taken octets = .read v rest ↔
      (value = v / 0x40 ^ (k + 1) ∧ octets = continuation (k + 1) v ++ rest) ∧
        low ≤ 0x80 + v / 0x40 ^ k % 0x40 ∧ 0x80 + v / 0x40 ^ k % 0x40 ≤ high := by
  rw [tailNext, Nat.pow_succ, ← Nat.div_div_eq_div_mul]
  constructor
  · rintro ⟨b, more, rfl, range, read⟩
    obtain ⟨same, rfl⟩ := later.mp read
    refine ⟨⟨by omega, ?_⟩, by omega⟩
    rw [continuation, octetOf (b := b) (by omega)]
    rfl
  · rintro ⟨⟨rfl, rfl⟩, range⟩
    have number := octetNat (n := 0x80 + v / 0x40 ^ k % 0x40) (by omega)
    refine ⟨_, _, rfl, by rwa [number], later.mpr ⟨?_, rfl⟩⟩
    rw [number]
    omega

theorem tailRead : utf8Tail k 0x80 0xBF value taken octets = .read v rest ↔
    value = v / 0x40 ^ k ∧ octets = continuation k v ++ rest := by
  induction k generalizing value taken octets with
  | zero => simp [utf8Tail, continuation]
  | succ k ih =>
    rw [tailFirst (by decide) (by decide) ih]
    exact and_iff_left (by omega)

theorem stepOfLead {bits : Nat} (large : 0x80 ≤ b.toNat) (least : 0x80 ≤ low) (most : high ≤ 0xBF)
    (found : utf8Lead? b.toNat = some ⟨k + 1, bits, low, high⟩) :
    utf8Step b octets = .read v rest ↔
      (bits = v / 0x40 ^ (k + 1) ∧ octets = continuation (k + 1) v ++ rest) ∧
        low ≤ 0x80 + v / 0x40 ^ k % 0x40 ∧ 0x80 + v / 0x40 ^ k % 0x40 ≤ high := by
  rw [utf8Step, if_neg (Nat.not_lt.mpr large), found]
  exact tailFirst least most tailRead

theorem stepOfTwo {m : Nat} (low : 2 ≤ m) (high : m < 0x20) (lead : b.toNat = 0xC0 + m) :
    utf8Step b octets = .read v rest ↔ m = v / 0x40 ∧ octets = continuation 1 v ++ rest := by
  rw [stepOfLead (by omega) (by decide) (by decide) (lead ▸ leadOfTwo low high)]
  exact and_iff_left (by omega)

theorem stepOfThree {m : Nat} (high : m < 0x10) (lead : b.toNat = 0xE0 + m) :
    utf8Step b octets = .read v rest ↔ (m = v / 0x1000 ∧ octets = continuation 2 v ++ rest) ∧
      (m = 0 → 0x800 ≤ v) ∧ (m = 0xD → v < 0xD800) := by
  rw [stepOfLead (by omega) (by split_ifs <;> decide) (by split_ifs <;> decide)
    (lead ▸ leadOfThree high)]
  refine and_congr_right fun ⟨value, _⟩ => ?_
  split_ifs <;> omega

theorem stepOfFour {m : Nat} (high : m < 5) (lead : b.toNat = 0xF0 + m) :
    utf8Step b octets = .read v rest ↔ (m = v / 0x40000 ∧ octets = continuation 3 v ++ rest) ∧
      (m = 0 → 0x10000 ≤ v) ∧ (m = 4 → v < 0x110000) := by
  rw [stepOfLead (by omega) (by split_ifs <;> decide) (by split_ifs <;> decide)
    (lead ▸ leadOfFour high)]
  refine and_congr_right fun ⟨value, _⟩ => ?_
  split_ifs <;> omega

theorem stepOfChar (c : Char) (rest : List UInt8) :
    ∃ b octets, utf8Octets c ++ rest = b :: octets ∧ utf8Step b octets = .read c.toNat rest := by
  have range := charRange c
  by_cases one : c.toNat < 0x80
  · refine ⟨UInt8.ofNat c.toNat, rest, by rw [octetsOne one]; rfl, ?_⟩
    rw [utf8Step, octetNat (by omega), if_pos one]
  by_cases two : c.toNat < 0x800
  · refine ⟨_, _, by rw [octetsTwo (by omega) two]; rfl, ?_⟩
    exact (stepOfTwo (by omega) (by omega) (octetNat (by omega))).mpr ⟨rfl, rfl⟩
  by_cases three : c.toNat < 0x10000
  · refine ⟨_, _, by rw [octetsThree (by omega) three]; rfl, ?_⟩
    exact (stepOfThree (by omega) (octetNat (by omega))).mpr ⟨⟨rfl, rfl⟩, by omega, by omega⟩
  · refine ⟨_, _, by rw [octetsFour (by omega)]; rfl, ?_⟩
    exact (stepOfFour (by omega) (octetNat (by omega))).mpr ⟨⟨rfl, rfl⟩, by omega, by omega⟩

/- The range of the second octet keeps out longer forms, surrogates and what is past the last
character, so the number that is read is that of a character of this width. -/
theorem charOfStep (read : utf8Step b octets = .read v rest) :
    ∃ c : Char, c.toNat = v ∧ b :: octets = utf8Octets c ++ rest := by
  by_cases one : b.toNat < 0x80
  · rw [utf8Step, if_pos one, Utf8Step.read.injEq] at read
    obtain ⟨rfl, rfl⟩ := read
    have number := charOf (v := b.toNat) (by omega)
    refine ⟨_, number, ?_⟩
    rw [octetsOne (by omega), number, UInt8.ofNat_toNat]
    rfl
  cases found : utf8Lead? b.toNat with
  | none => simp [utf8Step, one, found] at read
  | some lead =>
    rcases leadWidth found with ⟨m, low, high, first⟩ | ⟨m, high, first⟩ | ⟨m, high, first⟩
    · obtain ⟨value, rfl⟩ := (stepOfTwo low high first).mp read
      have number := charOf (v := v) (by omega)
      refine ⟨_, number, ?_⟩
      rw [octetsTwo (by omega) (by omega), number, octetOf (b := b) (by omega)]
      rfl
    · obtain ⟨⟨value, rfl⟩, long, surrogate⟩ := (stepOfThree high first).mp read
      have number := charOf (v := v) (by omega)
      refine ⟨_, number, ?_⟩
      rw [octetsThree (by omega) (by omega), number, octetOf (b := b) (by omega)]
      rfl
    · obtain ⟨⟨value, rfl⟩, long, last⟩ := (stepOfFour high first).mp read
      have number := charOf (v := v) (by omega)
      refine ⟨_, number, ?_⟩
      rw [octetsFour (by omega), number, octetOf (b := b) (by omega)]
      rfl

end Steps

theorem decodeNext {b : UInt8} {octets rest : List UInt8} {v : Nat}
    (read : utf8Step b octets = .read v rest) (index : Nat) :
    decodeUtf8From index (b :: octets) =
      decodeUtf8From (index + (octets.length + 1 - rest.length)) rest >>=
        fun tail => .ok (Char.ofNat v :: tail) := by
  rw [decodeUtf8From]
  split
  case h_1 bad => simp [read] at bad
  case h_2 cut => simp [read] at cut
  case h_3 again =>
    rw [read, Utf8Step.read.injEq] at again
    rw [again.1, again.2]

theorem encodedDecoded (s : List Char) (index : Nat) :
    decodeUtf8From index (encodeUtf8 s) = .ok s := by
  induction s generalizing index with
  | nil => simp [encodeUtf8, decodeUtf8From]
  | cons c s ih =>
    obtain ⟨b, octets, written, read⟩ := stepOfChar c (encodeUtf8 s)
    rw [encodeUtf8, List.flatMap_cons, ← encodeUtf8, written, decodeNext read, ih, Char.ofNat_toNat]
    rfl

theorem decodedEncoded {index : Nat} {octets : List UInt8} {s : List Char}
    (decoded : decodeUtf8From index octets = .ok s) : encodeUtf8 s = octets := by
  fun_induction decodeUtf8From index octets generalizing s with
  | case1 =>
    cases decoded
    rfl
  | case2 => contradiction
  | case3 => contradiction
  | case4 index b octets value rest read ih =>
    obtain ⟨c, rfl, written⟩ := charOfStep read
    cases more : decodeUtf8From (index + (octets.length + 1 - rest.length)) rest with
    | error fault =>
      rw [more] at decoded
      contradiction
    | ok tail =>
      rw [more, Char.ofNat_toNat] at decoded
      cases decoded
      rw [encodeUtf8, List.flatMap_cons, ← encodeUtf8, ih more, written]

theorem decodeUtf8Iff {octets : List UInt8} {s : List Char} :
    decodeUtf8 octets = .ok s ↔ octets = encodeUtf8 s :=
  ⟨fun decoded => (decodedEncoded decoded).symm, fun same => same ▸ encodedDecoded s 0⟩

end SchemaDrift.Text
