import Mathlib.Tactic.SplitIfs
import SchemaDrift.Proofs.Text.Utf8
import SchemaDrift.Text.Base64

/-! Base64 there and back. The characters of the alphabet stand for the numbers below 64 and a group
for its octets, so each octet string has one text and no other text is read. -/
namespace SchemaDrift.Text

theorem sextetRead : ∀ n < 64, sextet? (sextetChar n) = some n := by decide

theorem sextetUnpadded : ∀ n < 64, sextetChar n ≠ '=' := by decide

theorem sextetWritten {c : Char} {n : Nat} (read : sextet? c = some n) :
    n < 64 ∧ sextetChar n = c := by
  have upper : 'A' ≤ c ∧ c ≤ 'Z' ↔ 65 ≤ c.toNat ∧ c.toNat ≤ 90 := Iff.rfl
  have lower : 'a' ≤ c ∧ c ≤ 'z' ↔ 97 ≤ c.toNat ∧ c.toNat ≤ 122 := Iff.rfl
  have digit : '0' ≤ c ∧ c ≤ '9' ↔ 48 ≤ c.toNat ∧ c.toNat ≤ 57 := Iff.rfl
  have numbered : ∀ m, m = c.toNat → Char.ofNat m = c := fun m same => by rw [same, Char.ofNat_toNat]
  unfold sextet? at read
  simp only [upper, lower, digit] at read
  split_ifs at read with inUpper inLower inDigit plus slash <;> cases read
  · refine ⟨by omega, ?_⟩
    rw [sextetChar, if_pos (by omega)]
    exact numbered _ (by omega)
  · refine ⟨by omega, ?_⟩
    rw [sextetChar, if_neg (by omega), if_pos (by omega)]
    exact numbered _ (by omega)
  · refine ⟨by omega, ?_⟩
    rw [sextetChar, if_neg (by omega), if_neg (by omega), if_pos (by omega)]
    exact numbered _ (by omega)
  · exact ⟨by decide, plus.symm⟩
  · exact ⟨by decide, slash.symm⟩

theorem decodeGroup {a b c d : Char} (unpadded : d ≠ '=') (rest : List Char) :
    decodeBase64 (a :: b :: c :: d :: rest) = (do
      let w ← sextet? a
      let x ← sextet? b
      let y ← sextet? c
      let z ← sextet? d
      let octets ← decodeBase64 rest
      some (UInt8.ofNat (w * 4 + x / 16) :: UInt8.ofNat (x % 16 * 16 + y / 4) ::
        UInt8.ofNat (y % 4 * 64 + z) :: octets)) := by
  rw [decodeBase64]
  · exact fun _ padded _ => unpadded padded
  · exact fun padded _ => unpadded padded

section Groups
variable {w x y z : Nat} {a b c : UInt8} {octets : List UInt8}

theorem oneOctet (value : w < 64) (last : x < 64) :
    lastOctet? w x = some octets ↔
      ∃ a : UInt8, octets = [a] ∧ w = a.toNat / 4 ∧ x = a.toNat % 4 * 16 := by
  unfold lastOctet?
  constructor
  · intro found
    split_ifs at found with unused
    cases found
    refine ⟨_, rfl, ?_⟩
    rw [UInt8.toNat_ofNat']
    omega
  · rintro ⟨a, rfl, rfl, rfl⟩
    have small := a.toNat_lt
    rw [if_pos (by omega), octetOf (b := a) (by omega)]

theorem twoOctets (value : w < 64) (next : x < 64) (last : y < 64) :
    lastOctets? w x y = some octets ↔ ∃ a b : UInt8, octets = [a, b] ∧
      w = a.toNat / 4 ∧ x = a.toNat % 4 * 16 + b.toNat / 16 ∧ y = b.toNat % 16 * 4 := by
  unfold lastOctets?
  constructor
  · intro found
    split_ifs at found with unused
    cases found
    refine ⟨_, _, rfl, ?_⟩
    rw [UInt8.toNat_ofNat', UInt8.toNat_ofNat']
    omega
  · rintro ⟨a, b, rfl, rfl, rfl, rfl⟩
    have small := a.toNat_lt
    have small' := b.toNat_lt
    rw [if_pos (by omega), octetOf (b := a) (by omega), octetOf (b := b) (by omega)]

/- Here no bit is unused, so every four sextets have their octets. -/
theorem threeOctets (value : w < 64) (next : x < 64) (third : y < 64) (last : z < 64) :
    (UInt8.ofNat (w * 4 + x / 16) = a ∧ UInt8.ofNat (x % 16 * 16 + y / 4) = b ∧
        UInt8.ofNat (y % 4 * 64 + z) = c) ↔
      w = a.toNat / 4 ∧ x = a.toNat % 4 * 16 + b.toNat / 16 ∧ y = b.toNat % 16 * 4 + c.toNat / 64 ∧
        z = c.toNat % 64 := by
  constructor
  · rintro ⟨rfl, rfl, rfl⟩
    rw [UInt8.toNat_ofNat', UInt8.toNat_ofNat', UInt8.toNat_ofNat']
    omega
  · rintro ⟨rfl, rfl, rfl, rfl⟩
    have smallA := a.toNat_lt
    have smallB := b.toNat_lt
    have smallC := c.toNat_lt
    exact ⟨octetOf (by omega), octetOf (by omega), octetOf (by omega)⟩

end Groups

theorem encodedMade {kind : Char → Prop} (padding : kind '=') (alphabet : ∀ n < 64, kind (sextetChar n))
    (octets : List UInt8) : ∀ c ∈ encodeBase64 octets, kind c := by
  fun_induction encodeBase64 octets with
  | case1 => simp
  | case2 a =>
    have small := a.toNat_lt
    simp only [List.forall_mem_cons]
    exact ⟨alphabet _ (by omega), alphabet _ (by omega), padding, padding, by simp⟩
  | case3 a b =>
    have smallA := a.toNat_lt
    have smallB := b.toNat_lt
    simp only [List.forall_mem_cons]
    exact ⟨alphabet _ (by omega), alphabet _ (by omega), alphabet _ (by omega), padding, by simp⟩
  | case4 a b c rest ih =>
    have smallA := a.toNat_lt
    have smallB := b.toNat_lt
    have smallC := c.toNat_lt
    simp only [List.forall_mem_cons]
    exact ⟨alphabet _ (by omega), alphabet _ (by omega), alphabet _ (by omega),
      alphabet _ (by omega), ih⟩

theorem encodedRead (octets : List UInt8) : decodeBase64 (encodeBase64 octets) = some octets := by
  fun_induction encodeBase64 octets with
  | case1 => rfl
  | case2 a =>
    have small := a.toNat_lt
    have found := (oneOctet (by omega) (by omega)).mpr ⟨a, rfl, rfl, rfl⟩
    rw [decodeBase64, sextetRead _ (by omega), sextetRead _ (by omega)]
    exact found
  | case3 a b =>
    have smallA := a.toNat_lt
    have smallB := b.toNat_lt
    have found := (twoOctets (by omega) (by omega) (by omega)).mpr ⟨a, b, rfl, rfl, rfl, rfl⟩
    rw [decodeBase64, sextetRead _ (by omega), sextetRead _ (by omega), sextetRead _ (by omega)]
    · exact found
    · intro padded
      exact absurd padded (sextetUnpadded _ (by omega))
  | case4 a b c rest ih =>
    have smallA := a.toNat_lt
    have smallB := b.toNat_lt
    have smallC := c.toNat_lt
    obtain ⟨first, second, third⟩ := (threeOctets (a := a) (b := b) (c := c) (by omega) (by omega)
      (by omega) (by omega)).mpr ⟨rfl, rfl, rfl, rfl⟩
    rw [decodeGroup (sextetUnpadded _ (by omega)), sextetRead _ (by omega), sextetRead _ (by omega),
      sextetRead _ (by omega), sextetRead _ (by omega), ih]
    simp only [Option.bind_eq_bind, Option.bind_some, first, second, third]

theorem readEncoded {cs : List Char} {octets : List UInt8} (read : decodeBase64 cs = some octets) :
    encodeBase64 octets = cs := by
  fun_induction decodeBase64 cs generalizing octets with
  | case1 =>
    cases read
    rfl
  | case2 a b =>
    simp only [Option.bind_eq_bind, Option.bind_eq_some_iff] at read
    obtain ⟨w, readA, x, readB, found⟩ := read
    obtain ⟨smallA, rfl⟩ := sextetWritten readA
    obtain ⟨smallB, rfl⟩ := sextetWritten readB
    obtain ⟨a, rfl, rfl, rfl⟩ := (oneOctet smallA smallB).mp found
    rfl
  | case3 a b c unpadded =>
    simp only [Option.bind_eq_bind, Option.bind_eq_some_iff] at read
    obtain ⟨w, readA, x, readB, y, readC, found⟩ := read
    obtain ⟨smallA, rfl⟩ := sextetWritten readA
    obtain ⟨smallB, rfl⟩ := sextetWritten readB
    obtain ⟨smallC, rfl⟩ := sextetWritten readC
    obtain ⟨a, b, rfl, rfl, rfl, rfl⟩ := (twoOctets smallA smallB smallC).mp found
    rfl
  | case4 a b c d rest _ _ ih =>
    simp only [Option.bind_eq_bind, Option.bind_eq_some_iff] at read
    obtain ⟨w, readA, x, readB, y, readC, z, readD, octets, readRest, found⟩ := read
    obtain ⟨smallA, rfl⟩ := sextetWritten readA
    obtain ⟨smallB, rfl⟩ := sextetWritten readB
    obtain ⟨smallC, rfl⟩ := sextetWritten readC
    obtain ⟨smallD, rfl⟩ := sextetWritten readD
    cases found
    obtain ⟨first, second, third, fourth⟩ :=
      (threeOctets smallA smallB smallC smallD).mp ⟨rfl, rfl, rfl⟩
    rw [encodeBase64, ← first, ← second, ← third, ← fourth, ih readRest]
  | case5 => contradiction

theorem decodeBase64Iff {cs : List Char} {octets : List UInt8} :
    decodeBase64 cs = some octets ↔ cs = encodeBase64 octets :=
  ⟨fun read => (readEncoded read).symm, fun same => same ▸ encodedRead octets⟩

end SchemaDrift.Text
