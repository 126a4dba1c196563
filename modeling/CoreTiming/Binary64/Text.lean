import CoreTiming.Binary64.Shortest
import CoreTiming.Numeral.Written

/-!
# Numbers as text

A number is written with its shortest digits: positionally, with at least one digit on either
side of the point, while the point stands at most sixteen places right and three places left of
the first digit, and else with a power of ten of at least two digits. `ofText?` reads what `text`
writes.
-/

namespace CoreTiming.Binary64

/-- Digits on both sides of the point, `point` of them in front. -/
def positional (digits : List Char) (point : Int) : List Char :=
  if point ≤ 0 then '0' :: '.' :: List.replicate (-point).toNat '0' ++ digits
  else
    let whole := digits.take point.toNat
    let zeros := List.replicate (point.toNat - digits.length) '0'
    let fraction := digits.drop point.toNat
    whole ++ zeros ++ '.' :: (if fraction.isEmpty then ['0'] else fraction)

/-- One digit in front of the point, and a power of ten. -/
def scientific (digits : List Char) (point : Int) : List Char :=
  let power := point - 1
  let fraction := digits.drop 1
  digits.take 1 ++ (if fraction.isEmpty then [] else '.' :: fraction)
    ++ 'e' :: (if power < 0 then '-' else '+') :: Numeral.padded 10 2 power.natAbs

/-- A positive number from its shortest decimal. -/
def writeDecimal (d : Decimal) : List Char :=
  let digits := Numeral.natural 10 d.1
  let point := d.2 + digits.length
  if -4 < point ∧ point ≤ 16 then positional digits point else scientific digits point

/-- A number as text. -/
def text : Binary64 → String
  | finite negative significand exponent =>
    let digits :=
      if significand = 0 then ['0', '.', '0'] else writeDecimal (shortest significand exponent)
    String.ofList (if negative then '-' :: digits else digits)
  | infinite negative => if negative then "-inf" else "inf"
  | notANumber => "nan"

/-! ## Reading -/

/-- The longest run of ASCII digits in front, and the text after it. -/
def spanDigits (text : List Char) : List Nat × List Char :=
  ((text.takeWhile Char.isDigit).map (fun c => c.toNat - '0'.toNat), text.dropWhile Char.isDigit)

/-- Reads the power of ten at the end of a number. -/
def readPower? : List Char → Option Int
  | [] => some 0
  | 'e' :: '-' :: rest =>
    match spanDigits rest with
    | (ds, []) => if ds.isEmpty then none else some (-(Numeral.ofDigits 10 ds : Int))
    | _ => none
  | 'e' :: '+' :: rest =>
    match spanDigits rest with
    | (ds, []) => if ds.isEmpty then none else some (Numeral.ofDigits 10 ds)
    | _ => none
  | _ => none

/-- Reads a number without its sign. -/
def readUnsigned? (negative : Bool) (text : List Char) : Option Binary64 :=
  if text = "inf".toList then some (infinite negative)
  else
    let (whole, rest) := spanDigits text
    let (fraction, rest) :=
      match rest with
      | '.' :: rest => spanDigits rest
      | rest => ([], rest)
    if whole.isEmpty then none
    else (readPower? rest).map fun power =>
      ofDecimal negative (Numeral.ofDigits 10 (whole ++ fraction)) (power - fraction.length)

/-- Reads a number from its text. -/
def ofText? (text : String) : Option Binary64 :=
  if text = "nan" then some notANumber
  else match text.toList with
    | '-' :: rest => readUnsigned? true rest
    | rest => readUnsigned? false rest

end CoreTiming.Binary64
