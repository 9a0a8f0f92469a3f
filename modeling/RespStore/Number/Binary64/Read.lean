import RespStore.Number.Binary64
import RespStore.Number.Decimal
import RespStore.Text.Ascii

/-! Numbers from text: an optional sign, then a name of infinity or a decimal numeral. -/
namespace RespStore.Binary64

private def digitsValue (ds : Bytes) : Nat :=
  ds.foldl (fun acc b => acc * 10 + (b.toNat - 48)) 0

/-- An exponent part, or nothing at all. -/
private def readExponent? : Bytes → Option Int
  | [] => some 0
  | e :: rest =>
    if e = 101 ∨ e = 69 then
      let (negative, ds) :=
        match rest with
        | 43 :: ds => (false, ds)
        | 45 :: ds => (true, ds)
        | ds => (false, ds)
      if ds.isEmpty || !ds.all Decimal.isDigit then none
      else some (if negative then -Int.ofNat (digitsValue ds) else Int.ofNat (digitsValue ds))
    else none

/-- The number nearest to `n · 10 ^ exponent`. Exponents out of all proportion are cut short: every
number of more than 310 places is infinite, and every one below 10⁻³³⁰ is zero. -/
def ofDecimal (negative : Bool) (n : Nat) (exponent : Int) : Binary64 :=
  let places := (Nat.toDigits 10 n).length + exponent
  if n = 0 ∨ places < -330 then signedZero negative
  else if 310 < places then infinity negative
  else if exponent < 0 then ofRatio negative n (Nat.pow 10 exponent.natAbs)
  else ofRatio negative (n * Nat.pow 10 exponent.toNat) 1

/-- Digits with an optional point, at least one digit in all, and an optional exponent. -/
private def readNumeral? (negative : Bool) (b : Bytes) : Option Binary64 :=
  let whole := b.takeWhile Decimal.isDigit
  let rest := b.dropWhile Decimal.isDigit
  let (fraction, rest) :=
    match rest with
    | 46 :: rest => (rest.takeWhile Decimal.isDigit, rest.dropWhile Decimal.isDigit)
    | rest => ([], rest)
  if whole.isEmpty && fraction.isEmpty then none
  else
    match readExponent? rest with
    | none => none
    | some e => some (ofDecimal negative (digitsValue (whole ++ fraction)) (e - fraction.length))

private def readSize? (negative : Bool) (b : Bytes) : Option Binary64 :=
  if Text.spells b "inf" || Text.spells b "infinity" then some (infinity negative)
  else readNumeral? negative b

/-- The number nearest to what a text denotes. A text that denotes no number is refused, whether
it is malformed or a name of NaN. -/
def read? : Bytes → Option Binary64
  | 43 :: rest => readSize? false rest
  | 45 :: rest => readSize? true rest
  | b => readSize? false b

end RespStore.Binary64
