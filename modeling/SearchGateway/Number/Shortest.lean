import SearchGateway.Number.Binary64

/-!
# The fewest digits that read back

`shortest r` is the decimal with the fewest digits that rounds to the finite rank `r`, and of two
such the one nearer to the exact value. For 1 to 17 digits it looks at the two neighbours of the
exact value on that decimal grid; a grid counts only if a neighbour reads back.
-/

namespace SearchGateway

/-- `coefficient · 10^exponent`. -/
structure Decimal where
  coefficient : Nat
  exponent : Int
  deriving DecidableEq

namespace Decimal

def stripZeros (c : Nat) (e : Int) : Nat → Decimal
  | 0 => ⟨c, e⟩
  | fuel + 1 => if c ≠ 0 ∧ c % 10 = 0 then stripZeros (c / 10) (e + 1) fuel else ⟨c, e⟩

/-- The same value without trailing zeros in the coefficient. -/
def normalize (d : Decimal) : Decimal :=
  stripZeros d.coefficient d.exponent (Binary64.digitCount d.coefficient)

/-- The decimal rounds to the finite rank `r`. -/
def readsAs (d : Decimal) (r : Nat) : Bool :=
  Binary64.ofDecimal? false d.coefficient d.exponent == some (Binary64.ofRank false r)

end Decimal

namespace Binary64

/-- The power `p` with `10^(p-1) ≤ v < 10^p` for the value `v` of a positive rank. -/
def decimalPlace (rank : Nat) : Int :=
  (digitCount (units rank * Nat.pow 10 324 / one) : Int) - 324

/-- Of two decimals the one that reads back; if both do, `low` is taken as told. -/
def pick? (rank : Nat) (low high : Decimal) (takeLow : Bool) : Option Decimal :=
  match low.readsAs rank, high.readsAs rank with
  | true, true => some (if takeLow then low else high)
  | true, false => some low
  | false, true => some high
  | false, false => none

/-- The neighbour with `n` digits that reads back, the nearer one if both do. -/
def candidate? (rank n : Nat) : Option Decimal :=
  let g : Int := decimalPlace rank - n
  let num := units rank * Nat.pow 10 (-g).toNat
  let den := one * Nat.pow 10 g.toNat
  pick? rank ⟨num / den, g⟩ ⟨num / den + 1, g⟩ (roundDiv num den = num / den)

/-- The value of a rank written out in full. -/
def exactDecimal (rank : Nat) : Decimal := ⟨units rank * Nat.pow 5 1074, -1074⟩

/-- The fewest digits that read back, without trailing zeros. -/
def shortest (rank : Nat) : Decimal :=
  if rank = 0 then ⟨0, 0⟩
  else
    let found := (List.range 17).findSome? fun n => candidate? rank (n + 1)
    (found.getD (exactDecimal rank)).normalize

end Binary64

end SearchGateway
