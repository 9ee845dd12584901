/-! Punycode: a label with characters outside ASCII as one within it. The others are inserted in
ascending order, each as a distance in digits of base 36 whose thresholds follow a bias. -/
namespace SchemaDrift.Url.Punycode

def digit (d : Nat) : Char := if d < 26 then Char.ofNat (97 + d) else Char.ofNat (22 + d)

def threshold (k bias : Nat) : Nat :=
  if k ≤ bias then 1 else if bias + 26 ≤ k then 26 else k - bias

theorem thresholdBounds (k bias : Nat) : 1 ≤ threshold k bias ∧ threshold k bias ≤ 26 := by
  unfold threshold; split
  · omega
  · split <;> omega

def shrink (delta k : Nat) : Nat × Nat :=
  if 455 < delta then shrink (delta / 35) (k + 36) else (delta, k)
termination_by delta
decreasing_by exact Nat.div_lt_self (by omega) (by omega)

def adapt (delta points : Nat) (first : Bool) : Nat :=
  let halved := if first then delta / 700 else delta / 2
  let (rest, k) := shrink (halved + halved / points) 0
  k + 36 * rest / (rest + 38)

def distance (q k bias : Nat) : List Char :=
  let t := threshold k bias
  if q < t then [digit q]
  else digit (t + (q - t) % (36 - t)) :: distance ((q - t) / (36 - t)) (k + 36) bias
termination_by q
decreasing_by
  have := thresholdBounds k bias
  refine Nat.lt_of_le_of_lt (Nat.div_le_self _ _) ?_
  simp only [t] at *
  omega

structure Progress where
  delta : Nat
  bias : Nat
  handled : Nat
  text : List Char

def insertAll (n basic : Nat) (p : Progress) : List Nat → Progress
  | [] => p
  | c :: rest =>
    if c < n then insertAll n basic { p with delta := p.delta + 1 } rest
    else if c = n then
      insertAll n basic
        { delta := 0
          bias := adapt p.delta (p.handled + 1) (p.handled = basic)
          handled := p.handled + 1
          text := p.text ++ distance p.delta 36 p.bias } rest
    else insertAll n basic p rest

def insertPoints (label : List Nat) (basic n : Nat) (p : Progress) : List Nat → Progress
  | [] => p
  | m :: rest =>
    let raised := { p with delta := p.delta + (m - n) * (p.handled + 1) }
    let q := insertAll m basic raised label
    insertPoints label basic (m + 1) { q with delta := q.delta + 1 } rest

def encode (label : List Char) : List Char :=
  let points := label.map Char.toNat
  let basic := label.filter (·.toNat < 0x80)
  let others := ((points.filter (0x80 ≤ ·)).eraseDups).mergeSort
  let start := if basic.isEmpty then [] else basic ++ ['-']
  (insertPoints points basic.length 0x80 ⟨0, 72, basic.length, start⟩ others).text

end SchemaDrift.Url.Punycode
