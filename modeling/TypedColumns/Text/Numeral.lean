/-!
Decimal numerals with a point, without exponents.
-/
namespace TypedColumns.Numeral

def zeros (n : Nat) : String := String.ofList (List.replicate n '0')

/-- Decimal digits, padded with zeros to at least `width`. -/
def padded (width n : Nat) : String :=
  let digits := toString n
  zeros (width - digits.length) ++ digits

/-- `n / 10 ^ scale`: the digits of `n`, padded to one more than `scale`, with a point before the
last `scale` of them. -/
def fixed (n scale : Nat) : String :=
  if scale = 0 then toString n
  else
    let digits := (padded (scale + 1) n).toList
    let whole := digits.length - scale
    String.ofList (digits.take whole) ++ "." ++ String.ofList (digits.drop whole)

/-- Lower-case hexadecimal digits, padded with zeros to at least `width`. -/
def hex (width n : Nat) : String :=
  let digits := String.ofList (Nat.toDigits 16 n)
  zeros (width - digits.length) ++ digits

def signed (negative : Bool) (digits : String) : String :=
  if negative then "-" ++ digits else digits

end TypedColumns.Numeral
