import RespStore.Bytes
import RespStore.Number.Binary64

/-! Numbers as positional text: the fewest digits that read back as the number, of those the nearest
to it, and at a tie the larger. -/
namespace RespStore.Binary64

/-- A decimal `digits · 10 ^ exponent`. -/
structure Numeral where
  digits : Nat
  exponent : Int

/-- A size of `units` units is `scaled exponent units / gridUnit exponent` steps of a grid with
spacing `10 ^ exponent`. -/
private def scaled (exponent : Int) (units : Nat) : Nat := units * Nat.pow 10 (-exponent).toNat

private def gridUnit (exponent : Int) : Nat := unitsInOne * Nat.pow 10 exponent.toNat

/-- Whether a grid point reads back: it lies between the midpoints to the neighbouring numbers, and
at a midpoint the even number wins. -/
private def readsBack (magnitude : Nat) (exponent : Int) (point : Nat) : Bool :=
  let below := unitsOfMagnitude (magnitude - 1) + unitsOfMagnitude magnitude
  let above := unitsOfMagnitude magnitude + unitsOfMagnitude (magnitude + 1)
  let twice := 2 * point * gridUnit exponent
  if magnitude % 2 = 0 then
    scaled exponent below ≤ twice && twice ≤ scaled exponent above
  else scaled exponent below < twice && twice < scaled exponent above

/-- The grid point nearest to a positive number among its two neighbours that read back. -/
private def onGrid? (magnitude : Nat) (exponent : Int) : Option Nat :=
  let value := scaled exponent (unitsOfMagnitude magnitude)
  let low := value / gridUnit exponent
  let high := low + 1
  let remainder := value % gridUnit exponent
  if readsBack magnitude exponent low then
    if gridUnit exponent ≤ 2 * remainder && readsBack magnitude exponent high then some high
    else some low
  else if readsBack magnitude exponent high then some high
  else none

/-- Tries the grids of ever smaller spacing, `fuel` in all. -/
private def search (magnitude : Nat) : (fuel : Nat) → (exponent : Int) → Numeral
  | 0, exponent => ⟨scaled exponent (unitsOfMagnitude magnitude) / gridUnit exponent, exponent⟩
  | fuel + 1, exponent =>
    match onGrid? magnitude exponent with
    | some point => ⟨point, exponent⟩
    | none => search magnitude fuel (exponent - 1)

/-- The shortest decimal of a positive finite number. Seventeen digits always suffice. -/
def shortest (magnitude : Nat) : Numeral :=
  let whole := unitsOfMagnitude magnitude * Nat.pow 10 324 / unitsInOne
  search magnitude 18 ((Nat.toDigits 10 whole).length - 324)

def Numeral.text (d : Numeral) : String :=
  let digits := Nat.toDigits 10 d.digits
  if 0 ≤ d.exponent then String.ofList (digits ++ List.replicate d.exponent.toNat '0')
  else
    let places := d.exponent.natAbs
    let padded := List.replicate (places + 1 - digits.length) '0' ++ digits
    let point := padded.length - places
    String.ofList (padded.take point ++ '.' :: padded.drop point)

def text (x : Binary64) : String :=
  let sign := if x.negative then "-" else ""
  if !x.isFinite then sign ++ "inf"
  else if x.magnitude = 0 then sign ++ "0"
  else sign ++ (shortest x.magnitude).text

def bytes (x : Binary64) : Bytes := Bytes.ofString x.text

end RespStore.Binary64
