import Overlay.Toml.Item
import Overlay.Toml.Reader

/-!
# Numbers and moments

Integers, decimals and moments all begin with a sign or a digit.  Between the
digits of a number single underscores may stand.
-/

set_option autoImplicit false

namespace Overlay.Toml.Reader

/-- The digits at the front of a text, with single underscores between them left out. -/
def digitRun (accepts : Char → Bool) : List Char → List Char × List Char
  | [] => ([], [])
  | '_' :: digit :: rest =>
      if accepts digit then
        let (digits, rest) := digitRun accepts rest
        (digit :: digits, rest)
      else ([], '_' :: digit :: rest)
  | c :: rest =>
      if accepts c then
        let (digits, rest) := digitRun accepts rest
        (c :: digits, rest)
      else ([], c :: rest)

/-- Digits with underscores between them; the first must be a digit. -/
def digits (accepts : Char → Bool) : Reader (List Char) := do
  let first ← one accepts
  fun input =>
    let (more, rest) := digitRun accepts input
    some (first :: more, rest)

/-- Whether there is a sign, and whether it is a minus. -/
def sign : Reader Bool := do
  match ← attempt (one fun c => c == '+' || c == '-') with
  | some '-' => return true
  | _ => return false

/-- A sign and the digits of a whole number, which has no zero in front. -/
def whole : Reader (Bool × List Char) := do
  let negative ← sign
  match ← peek with
  | some '0' => char '0'; return (negative, ['0'])
  | _ => return (negative, ← digits isDecimal)

/-! ## Integers -/

/-- The largest integer. -/
def largest : Nat := 9223372036854775807

/-- An integer in a base that its beginning names. -/
def based (base : Nat) (accepts : Char → Bool) : Reader Int := do
  let value := number base (← digits accepts)
  require (decide (value ≤ largest))
  return value

/-- A decimal integer. -/
def plainInteger : Reader Int := do
  let (negative, digits) ← whole
  let value := number 10 digits
  require (decide (value ≤ (if negative then largest + 1 else largest)))
  return if negative then -value else value

/-- An integer of sixty-four bits. -/
def integer : Reader Int := fun input =>
  match input with
  | '0' :: 'x' :: rest => based 16 isHexadecimal rest
  | '0' :: 'o' :: rest => based 8 (fun c => '0' ≤ c && c ≤ '7') rest
  | '0' :: 'b' :: rest => based 2 (fun c => c == '0' || c == '1') rest
  | _ => plainInteger input

/-! ## Decimals -/

/-- An exponent after its letter. -/
def exponent : Reader Int := do
  let _ ← one fun c => c == 'e' || c == 'E'
  let negative ← sign
  let value := number 10 (← digits isDecimal)
  return if negative then -value else value

/-- The digits after a point. -/
def fraction : Reader (List Char) := do
  char '.'
  digits isDecimal

/-- The least magnitude that a double cannot hold, because it rounds to infinity. -/
def unbounded : Nat := Nat.pow 2 1024 - Nat.pow 2 970

/-- Whether digits times a power of ten are more than a double can hold. -/
def overflows (digits : Nat) (exponent : Int) : Bool :=
  let length : Int := (Nat.toDigits 10 digits).length
  if digits = 0 || length + exponent < 300 then false
  else if 400 < length + exponent then true
  else if 0 ≤ exponent then decide (unbounded ≤ digits * Nat.pow 10 exponent.toNat)
  else decide (unbounded * Nat.pow 10 (-exponent).toNat ≤ digits)

/-- A number with a fraction, an exponent or both. -/
def finite : Reader Decimal := do
  let (negative, digits) ← whole
  let fractional ← attempt fraction
  let power ←
    match fractional with
    | some _ => attempt exponent
    | none => some <$> exponent
  let tail := fractional.getD []
  let digits := number 10 (digits ++ tail)
  let exponent := power.getD 0 - tail.length
  require (negative || !overflows digits exponent)
  return .finite negative digits exponent

/-- A number that is not finite. -/
def special : Reader Decimal := do
  let negative ← sign
  (do literal "inf"; return .infinite negative) <|> (do literal "nan"; return .undefined)

/-! ## Moments -/

/-- Decimal digits of a fixed count, whose number lies between bounds. -/
def counted (count low high : Nat) : Reader Nat := do
  let value := number 10 (← exactly count isDecimal)
  require (decide (low ≤ value ∧ value ≤ high))
  return value

/-- Whether a year has a leap day. -/
def isLeapYear (year : Nat) : Bool :=
  year % 4 == 0 && (year % 100 != 0 || year % 400 == 0)

/-- How many days a month has. -/
def daysIn (year month : Nat) : Nat :=
  if month = 2 then (if isLeapYear year then 29 else 28)
  else if [4, 6, 9, 11].contains month then 30
  else 31

/-- A calendar day. -/
def day : Reader Day := do
  let year ← counted 4 0 9999
  char '-'
  let month ← counted 2 1 12
  char '-'
  let day ← counted 2 1 (daysIn year month)
  return { year, month, day }

/-- A time of day. -/
def timeOfDay : Reader TimeOfDay := do
  let hour ← counted 2 0 23
  char ':'
  let minute ← counted 2 0 59
  char ':'
  let second ← counted 2 0 60
  let fraction ← attempt (do char '.'; run1 isDecimal)
  return { hour, minute, second, fraction := fraction.getD [] }

/-- An offset in minutes. -/
def offset : Reader Int := do
  match ← one fun c => c == 'Z' || c == 'z' || c == '+' || c == '-' with
  | '+' => return (← minutes)
  | '-' => return -(← minutes)
  | _ => return 0
where
  minutes : Reader Int := do
    let hour ← counted 2 0 23
    char ':'
    let minute ← counted 2 0 59
    return (hour * 60 + minute : Nat)

/-- A time of day that follows a day. -/
def timeAfterDay : Reader (TimeOfDay × Option Int) := do
  let _ ← one fun c => c == 'T' || c == 't' || c == ' '
  let time ← timeOfDay
  return (time, ← attempt offset)

/-- A moment. -/
def moment : Reader Moment :=
  (do
    let day ← day
    match ← attempt timeAfterDay with
    | some (time, offset) => return { day := some day, time := some time, offset }
    | none => return { day := some day })
    <|> (do return { time := some (← timeOfDay) })

/-- A moment, a decimal or an integer, tried in this order. -/
def numeric : Reader Item :=
  (do return .moment (← moment))
    <|> (do return .decimal (← finite))
    <|> (do return .decimal (← special))
    <|> (do return .integer (← integer))

end Overlay.Toml.Reader
