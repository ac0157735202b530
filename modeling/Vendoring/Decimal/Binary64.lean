/-!
# Decimal texts of binary64 numbers

A decimal number is read as the nearest binary64 number, and a binary64 number is written with the
fewest digits that read back as it. All arithmetic is exact: a number is `mantissa * 2 ^ exponent`
with a mantissa below `2 ^ 53`, and the decimals that read back as it are those between the
midpoints to its neighbours, ends included if the mantissa is even.
-/

namespace Vendoring.Decimal

/-- A finite binary64 number. -/
structure Binary64 where
  negative : Bool
  mantissa : Nat
  exponent : Int
deriving DecidableEq

/-- The least exponent of a binary64 number. -/
def leastExponent : Int := -1074

/-- The greatest exponent of a binary64 number. -/
def greatestExponent : Int := 971

/-- `n * b ^ e` as a fraction. -/
def scaled (n b : Nat) (e : Int) : Nat × Nat :=
  if 0 ≤ e then (n * Nat.pow b e.toNat, 1) else (n, Nat.pow b (-e).toNat)

/-- A quotient rounded to the nearest number, a half to the even one. -/
def roundHalfEven (num den : Nat) : Nat :=
  let q := num / den
  let r := num % den
  if 2 * r < den then q else if den < 2 * r then q + 1 else if q % 2 = 0 then q else q + 1

/-- The quotient of two fractions. -/
def divide (a b : Nat × Nat) : Nat × Nat :=
  (a.1 * b.2, a.2 * b.1)

/-- The mantissa and exponent nearest to a fraction that is not zero. -/
def nearest (num den : Nat) : Nat × Int :=
  let guess : Int := (Nat.log2 num : Int) - (Nat.log2 den : Int) - 52
  let fits (e : Int) : Bool :=
    let (n, d) := divide (num, den) (scaled 1 2 e)
    n < Nat.pow 2 53 * d
  let e := if fits (guess - 1) then guess - 1 else if fits guess then guess else guess + 1
  let e := max e leastExponent
  let (n, d) := divide (num, den) (scaled 1 2 e)
  let m := roundHalfEven n d
  if m = Nat.pow 2 53 then (Nat.pow 2 52, e + 1) else (m, e)

/-- The number nearest to `digits * 10 ^ exponent`, unless it is too great. Beyond 400 places before
or behind the point there is no need to compute. -/
def ofDecimal? (negative : Bool) (digits : Nat) (exponent : Int) : Option Binary64 :=
  let places : Int := (Nat.toDigits 10 digits).length + exponent
  if digits = 0 || places < -400 then some ⟨negative, 0, leastExponent⟩
  else if 400 < places then none
  else
    let (num, den) := scaled digits 10 exponent
    let (m, e) := nearest num den
    if greatestExponent < e then none else some ⟨negative, m, e⟩

/-- Whether a decimal `digits * 10 ^ exponent` reads back as the number: twice the distance from it
is at most the gap to the neighbour on that side. Below a power of two the gap is half as wide. -/
def readsBack (x : Binary64) (digits : Nat) (exponent : Int) : Bool :=
  let quarter := scaled 1 2 (x.exponent - 2)
  let (n, d) := divide (scaled digits 10 exponent) quarter
  let below := if x.mantissa = Nat.pow 2 52 && leastExponent < x.exponent then 1 else 2
  let low := (4 * x.mantissa - below) * d
  let high := (4 * x.mantissa + 2) * d
  if x.mantissa % 2 = 0 then low ≤ n && n ≤ high else low < n && n < high

/-- The neighbours of the number on the grid of multiples of `10 ^ exponent`, the nearer first. -/
def neighbours (x : Binary64) (exponent : Int) : List Nat :=
  let (n, d) := divide (scaled x.mantissa 2 x.exponent) (scaled 1 10 exponent)
  let q := n / d
  if 2 * (n % d) ≤ d then [q, q + 1] else [q + 1, q]

/-- The shortest digits that read back, and the exponent of the last one: the first grid, from the
coarsest, on which a neighbour of the number reads back. -/
def shortestFrom (x : Binary64) : Nat → Int → Nat × Int
  | 0, e => ((neighbours x e).headD 0, e)
  | steps + 1, e =>
    match (neighbours x e).find? (fun n => 0 < n && readsBack x n e) with
    | some n => (n, e)
    | none => shortestFrom x steps (e - 1)

/-- The fewest digits that read back as the number, and the exponent of the last one. -/
def shortest (x : Binary64) : Nat × Int :=
  if x.mantissa = 0 then (0, 0)
  else
    let (n, d) := scaled x.mantissa 2 x.exponent
    let places : Int := if d ≤ n then (Nat.toDigits 10 (n / d)).length
      else -((Nat.toDigits 10 (d / n)).length : Int) + 2
    shortestFrom x 20 places

/-- The number with a point and at least one digit on each side of it, without an exponent. -/
def positional (x : Binary64) : String :=
  let (digits, e) := shortest x
  let text := Nat.toDigits 10 digits
  let sign := if x.negative then "-" else ""
  if 0 ≤ e then sign ++ String.ofList (text ++ List.replicate e.toNat '0') ++ ".0"
  else
    let places := (-e).toNat
    let padded := List.replicate (places + 1 - text.length) '0' ++ text
    let whole := padded.take (padded.length - places)
    let fraction := padded.drop (padded.length - places)
    sign ++ String.ofList whole ++ "." ++ String.ofList fraction

end Vendoring.Decimal
