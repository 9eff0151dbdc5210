import Hocon.Decimal.Binary64
import Hocon.Value

/-!
# Equality of values

Two values are the same when they are of one kind and hold the same contents. Numbers are compared
by what they are worth, across their kinds: a truth value is worth one or zero, an integer and a
floating-point number are compared exactly, and a complex number without imaginary part is worth
its real part. A value that is no number is not worth anything and differs from itself. The order
of the entries of a map does not matter; that of a sequence does.
-/

namespace Hocon

/-- What a real number is worth. -/
inductive Worth where
  /-- The number `n * 2 ^ exponent`. -/
  | finite (n exponent : Int)
  /-- Infinity, positive or negative. -/
  | infinite (negative : Bool)
  /-- Nothing. -/
  | nan
  deriving DecidableEq, Repr

namespace Worth

/-- The worth of a double. -/
def ofBits (bits : UInt64) : Worth :=
  if Binary64.isNaN bits then nan
  else if Binary64.isFinite bits then
    let x := Binary64.magnitude bits
    finite (if Binary64.isNegative bits then -(x.significand : Int) else x.significand) x.exponent
  else infinite (Binary64.isNegative bits)

/-- The worth of an integer that has been rounded to a double. -/
def ofPart (n : Int) : Worth :=
  let bits := (Decimal.mk n.natAbs 0).toBinary64
  ofBits (if n < 0 then Binary64.negate bits else bits)

/-- Whether two real numbers are worth the same. -/
def same : Worth → Worth → Bool
  | finite m d, finite n e => m * Nat.pow 2 (d - min d e).toNat == n * Nat.pow 2 (e - min d e).toNat
  | infinite a, infinite b => a == b
  | _, _ => false

end Worth

namespace Value

/-- The real and the imaginary part of a value that counts as a number. -/
def worth? : Value → Option (Worth × Worth)
  | bool b => some (.finite (if b then 1 else 0) 0, .finite 0 0)
  | int n => some (.finite n 0, .finite 0 0)
  | float bits => some (.ofBits bits, .finite 0 0)
  | complex re im => some (.ofPart re, .ofPart im)
  | _ => none

/-- Whether two values are numbers that are worth the same. -/
def sameWorth (a b : Value) : Bool :=
  match a.worth?, b.worth? with
  | some (re, im), some (re', im') => re.same re' && im.same im'
  | _, _ => false

mutual

/-- Whether two values are the same. -/
def same : Value → Value → Bool
  | null, null => true
  | str s, str t => s == t
  | bytes s, bytes t => s == t
  | ellipsis, ellipsis => true
  | set xs, set ys => xs.length == ys.length && sameItems xs ys
  | tuple xs, tuple ys => sameItems xs ys
  | list xs, list ys => sameItems xs ys
  | map xs, map ys => xs.length == ys.length && sameEntries xs ys
  | scalarNode v c, scalarNode w d => same v w && c == d
  | listNode xs _ _ c, listNode ys _ _ d => sameItems xs ys && c == d
  | mapNode xs _ c, mapNode ys _ d => xs.length == ys.length && sameEntries xs ys && c == d
  | v, w => sameWorth v w

/-- Whether two sequences are the same, item by item. -/
def sameItems : List Value → List Value → Bool
  | [], [] => true
  | v :: vs, w :: ws => same v w && sameItems vs ws
  | _, _ => false

/-- Whether each entry has a partner with the same key and the same value. -/
def sameEntries : List (Value × Value) → List (Value × Value) → Bool
  | [], _ => true
  | (k, v) :: rest, others =>
    (others.any fun e => same k e.1 && same v e.2) && sameEntries rest others

end

end Value

end Hocon
