/-
# Decimal text of numbers

A number is written with the fewest digits that read back as the same number; of several such
decimals the one nearest to the number is taken.  Numbers between `10 ^ -4` and `10 ^ 16` are
written positionally and always with a decimal point, the others with an exponent of at least two
digits.
-/
import KsyTools.Number.Binary64
import KsyTools.Text.CharClass

namespace KsyTools

/-- A positive decimal number: the digits, most significant first, stand for
`0.d₁d₂d₃… * 10 ^ point`. -/
structure Decimal where
  digits : List Nat
  point : Int
  deriving Repr, DecidableEq

namespace Decimal

/-- Ten to an integer power as a fraction. -/
def tenPow (k : Int) : Nat × Nat :=
  if 0 ≤ k then (Nat.pow 10 k.toNat, 1) else (1, Nat.pow 10 (-k).toNat)

/-- The number nearest to `n * 10 ^ k`.  Where the size of the result is beyond all finite numbers,
or below all positive ones, no power is computed. -/
def toBinary64 (negative : Bool) (n : Nat) (k : Int) : Binary64 :=
  if n = 0 then .zero negative
  else
    let size := (Nat.toDigits 10 n).length + k
    if size > 400 then .inf negative
    else if size < -400 then .zero negative
    else
      let (a, b) := tenPow k
      .ofFraction negative (n * a) b

/-- The power of ten just above a positive fraction: `10 ^ (k - 1) ≤ p / q < 10 ^ k`. -/
def magnitude (p q : Nat) : Int :=
  if q ≤ p then (Nat.toDigits 10 (p / q)).length
  else
    let below := (Nat.toDigits 10 (q / p)).length
    if p * Nat.pow 10 (below - 1) = q then 2 - (below : Int) else 1 - (below : Int)

/-- The decimal with `count` digits that reads back as the number `m * 2 ^ e` and is nearest to it,
if there is one among its two neighbours. -/
def withDigits? (m : Nat) (e : Int) (count : Nat) : Option (Nat × Int) :=
  let (p, q) := Binary64.fraction m e
  let k := magnitude p q - count
  let (a, b) := tenPow k
  -- the number is `num / den` units of the last digit
  let num := p * b
  let den := q * a
  let low := num / den
  let readsBack (n : Nat) : Bool := toBinary64 false n k == .finite false m e
  let lowNearer := 2 * (num % den) ≤ den
  let (first, second) := if lowNearer then (low, low + 1) else (low + 1, low)
  if readsBack first then some (first, k)
  else if readsBack second then some (second, k)
  else none

/-- The fewest digits that read back as the positive number `m * 2 ^ e`. -/
def shortest (m : Nat) (e : Int) : Decimal :=
  let (n, k) := ((List.range 17).findSome? fun i => withDigits? m e (i + 1)).getD (m, 0)
  let digits := Nat.toDigits 10 n
  let kept := (digits.reverse.dropWhile (· == '0')).reverse
  ⟨kept.map fun c => c.toNat - 48, digits.length + k⟩

/-- The characters of a list of digits. -/
def digitText (digits : List Nat) : String :=
  String.ofList (digits.map Nat.digitChar)

/-- A run of zeros. -/
def zeros (n : Nat) : String :=
  String.ofList (List.replicate n '0')

/-- Positional text, with a point and at least one digit on either side of it. -/
def positional (d : Decimal) : String :=
  let n := d.digits.length
  if d.point ≤ 0 then
    "0." ++ zeros (-d.point).toNat ++ digitText d.digits
  else
    let p := d.point.toNat
    if n ≤ p then
      digitText d.digits ++ zeros (p - n) ++ ".0"
    else
      s!"{digitText (d.digits.take p)}.{digitText (d.digits.drop p)}"

/-- Text with an exponent that has a sign and at least two digits. -/
def exponential (d : Decimal) : String :=
  let mantissa :=
    match d.digits with
    | [] => "0"
    | [x] => digitText [x]
    | x :: rest => s!"{digitText [x]}.{digitText rest}"
  let exponent := d.point - 1
  let size := toString exponent.natAbs
  let padded := if size.length < 2 then "0" ++ size else size
  let sign := if exponent < 0 then "-" else "+"
  s!"{mantissa}e{sign}{padded}"

/-- The text of a positive decimal. -/
def text (d : Decimal) : String :=
  if -4 < d.point ∧ d.point ≤ 16 then d.positional else d.exponential

end Decimal

/-- The text of a number. -/
def Binary64.text : Binary64 → String
  | .nan => "nan"
  | .inf s => if s then "-inf" else "inf"
  | .finite s m e =>
    let magnitude := if m = 0 then "0.0" else (Decimal.shortest m e).text
    if s then "-" ++ magnitude else magnitude

end KsyTools
