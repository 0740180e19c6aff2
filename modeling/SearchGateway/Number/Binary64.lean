/-!
# Double-precision numbers

A `Binary64` is its 64-bit word. The magnitude is read off the lower 63 bits, its *rank*: ranks
are ordered as the magnitudes are, and a finite rank stands for a whole number of *units* of
2⁻¹⁰⁷⁴. All arithmetic is exact, on natural numbers; `rankOf` rounds a quotient of units to the
nearest magnitude, a half to the even one.
-/

namespace SearchGateway

structure Binary64 where
  bits : UInt64
  deriving DecidableEq

namespace Binary64

/-- The least rank that is not finite: infinity. Ranks above it are not numbers. -/
def infinityRank : Nat := 2047 * Nat.pow 2 52

def negative (x : Binary64) : Bool := Nat.pow 2 63 ≤ x.bits.toNat

def rank (x : Binary64) : Nat := x.bits.toNat % Nat.pow 2 63

def isFinite (x : Binary64) : Bool := x.rank < infinityRank

def isInfinite (x : Binary64) : Bool := x.rank == infinityRank

def isNaN (x : Binary64) : Bool := infinityRank < x.rank

def isZero (x : Binary64) : Bool := x.rank == 0

/-- Finite and with all bits of precision. -/
def isNormal (x : Binary64) : Bool := Nat.pow 2 52 ≤ x.rank && x.isFinite

def ofRank (negative : Bool) (rank : Nat) : Binary64 :=
  ⟨UInt64.ofNat (rank + if negative then Nat.pow 2 63 else 0)⟩

def zero : Binary64 := ofRank false 0

def infinity (negative : Bool) : Binary64 := ofRank negative infinityRank

def nan : Binary64 := ofRank false (infinityRank + Nat.pow 2 51 + 1)

/-- Equality of numbers: both zeros are equal, and a value that is no number equals nothing. -/
def eqv (x y : Binary64) : Bool :=
  !x.isNaN && !y.isNaN && (x == y || (x.isZero && y.isZero))

/-- The units of a finite rank. -/
def units (rank : Nat) : Nat :=
  let e := rank / Nat.pow 2 52
  if e = 0 then rank else (Nat.pow 2 52 + rank % Nat.pow 2 52) * Nat.pow 2 (e - 1)

/-- The units of one. -/
def one : Nat := Nat.pow 2 1074

/-- `n / d` rounded to a whole number, a half to the even neighbour. -/
def roundDiv (n d : Nat) : Nat :=
  let q := n / d
  let r := n % d
  if d < 2 * r || (2 * r == d && q % 2 == 1) then q + 1 else q

/-- The rank nearest to `n / d` units. -/
def rankOf (n d : Nat) : Nat :=
  let shift := Nat.log2 (n / d) - 52
  roundDiv n (d * Nat.pow 2 shift) + shift * Nat.pow 2 52

/-- The number nearest to `n / d`, unless it is too large. -/
def ofRatio? (negative : Bool) (n d : Nat) : Option Binary64 :=
  let r := rankOf (n * one) d
  if r < infinityRank then some (ofRank negative r) else none

/-- Digits of `n` in base ten, at least one. -/
def digitCount (n : Nat) : Nat := (Nat.toDigits 10 n).length

/-- The number nearest to `c · 10^e`, unless it is too large. Exponents far outside the range are
settled before any power is computed. -/
def ofDecimal? (negative : Bool) (c : Nat) (e : Int) : Option Binary64 :=
  if c = 0 then some (ofRank negative 0)
  else
    let top := (digitCount c : Int) + e
    if 310 < top then none
    else if top < -330 then some (ofRank negative 0)
    else if 0 ≤ e then ofRatio? negative (c * Nat.pow 10 e.toNat) 1
    else ofRatio? negative c (Nat.pow 10 (-e).toNat)

/-- Whether `c · 10^e` lies halfway between a number's magnitude and the next one. -/
def isHalfAbove (x : Binary64) (c : Nat) (e : Int) : Bool :=
  let sum := units x.rank + units (x.rank + 1)
  2 * c * one * Nat.pow 10 e.toNat == sum * Nat.pow 10 (-e).toNat

/-- The number nearest to `c · 2^e`, unless it is too large. -/
def ofBinary? (negative : Bool) (c : Nat) (e : Int) : Option Binary64 :=
  if c = 0 then some (ofRank negative 0)
  else
    let top := (Nat.log2 c : Int) + e
    if 1030 < top then none
    else if top < -1100 then some (ofRank negative 0)
    else if 0 ≤ e then ofRatio? negative (c * Nat.pow 2 e.toNat) 1
    else ofRatio? negative c (Nat.pow 2 (-e).toNat)

/-- The number nearest to an integer of 64 bits. -/
def ofInt64 (i : Int64) : Binary64 :=
  ofRank (i.toInt < 0) (rankOf (i.toInt.natAbs * one) 1)

end Binary64

end SearchGateway
