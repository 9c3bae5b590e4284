import Adventure.Toml.Quoted
import Adventure.Toml.Value

/-!
# Numbers

The written forms of integers and floats. An integer lies between -2^127 and 2^128 - 1; a float that
is written out does not exceed the largest double, up to rounding.

The form of a number decides whether a document can be read at all; whether it stands for a number
is another matter. A text that has the form only is `Value.noNumber` (`number?`).

The part of `toml::from_str` that reads numbers.
-/

namespace Adventure.Toml

/-! ## Digits -/

/-- The number that digits spell in a base. -/
def ofDigits (base : Nat) (digits : List Char) : Nat :=
  digits.foldl (fun n d => base * n + (digitValue? d).getD 0) 0

/-- The character is a digit of the base. -/
def isDigitOf (base : Nat) (c : Char) : Bool :=
  (digitValue? c).any (· < base)

/-- The text is made of digits of the base, and of one at least. -/
def isNumeral (base : Nat) (cs : List Char) : Bool :=
  !cs.isEmpty && cs.all (isDigitOf base)

/-- The text without its underscores. Each must follow a digit and be followed by one; `afterDigit`
says that the text itself follows a digit. -/
def ungroup (isDigit : Char → Bool) (afterDigit : Bool) : List Char → Option (List Char)
  | [] => some []
  | c :: cs =>
    if c == '_' then
      if afterDigit && cs.head?.any isDigit then ungroup isDigit false cs else none
    else (ungroup isDigit (isDigit c) cs).map (c :: ·)

/-- The text begins with a zero and goes on. -/
def hasLeadingZero (cs : List Char) : Bool :=
  cs.head? == some '0' && 1 < cs.length

/-- The text without its sign, and whether that was a minus. -/
def unsigned : List Char → Bool × List Char
  | '-' :: cs => (true, cs)
  | '+' :: cs => (false, cs)
  | cs => (false, cs)

/-! ## Integers -/

/-- The integer of this sign and magnitude, if it is in range. -/
def Value.ofSignMagnitude (negative : Bool) (magnitude : Nat) : Value :=
  if negative then if magnitude ≤ Nat.pow 2 127 then .integer (-(magnitude : Int)) else .noNumber
  else if magnitude < Nat.pow 2 128 then .integer magnitude else .noNumber

/-- The integer that is written in a base after the mark of that base. -/
def radixInteger? (base : Nat) (cs : List Char) : Option Value := do
  let digits ← ungroup (isDigitOf base) false cs
  guard (digits.all (isDigitOf base))
  return if digits.isEmpty then .noNumber else .ofSignMagnitude false (ofDigits base digits)

/-- The integer that is written in base ten. A text with an underscore after its first digits may
hold any characters but a space, as long as the underscores are next to digits of base sixteen. -/
def decimalInteger? (negative : Bool) (cs : List Char) : Option Value := do
  let tail := cs.dropWhile (isDigitOf 10)
  guard (!cs.isEmpty && (tail.isEmpty || tail.head? == some '_'))
  guard (!tail.contains ' ' && !hasLeadingZero cs)
  let digits ← ungroup (isDigitOf 16) false cs
  return if isNumeral 10 digits then .ofSignMagnitude negative (ofDigits 10 digits)
    else .noNumber

/-! ## Floats -/

/-- The least number that rounds to no finite double. -/
def floatBound : Nat := (Nat.pow 2 54 - 1) * Nat.pow 2 970

/-- The decimal `digits · 10 ^ exponent` rounds to a finite double. -/
def isFinite (digits : List Char) (exponent : Int) : Bool :=
  let significant := digits.dropWhile (· == '0')
  let size : Int := significant.length + exponent
  significant.isEmpty || size < 309 ||
    (size == 309 &&
      ofDigits 10 significant * Nat.pow 10 exponent.toNat <
        floatBound * Nat.pow 10 (-exponent).toNat)

/-- The exponent of a float, written after its "e". -/
def exponent? (cs : List Char) : Option Int :=
  let (negative, digits) := unsigned cs
  if isNumeral 10 digits then
    if negative then some (-(ofDigits 10 digits : Int)) else some (ofDigits 10 digits)
  else none

/-- The character sets a float apart from an integer. -/
def isFloatMark (c : Char) : Bool :=
  c == '.' || c == 'e' || c == 'E'

/-- The float that is written out without a sign: digits, a fraction, an exponent. -/
def float? (cs : List Char) : Option Value := do
  let text ← ungroup (isDigitOf 10) false cs
  let mantissa := text.takeWhile fun c => c != 'e' && c != 'E'
  let wholeDigits := mantissa.takeWhile (· != '.')
  guard (isNumeral 10 wholeDigits && !hasLeadingZero wholeDigits)
  let fraction ← match mantissa.drop wholeDigits.length with
    | [] => some []
    | _ :: digits => if isNumeral 10 digits then some digits else none
  let exponent ← match text.drop mantissa.length with
    | [] => some 0
    | _ :: cs => exponent? cs
  return if isFinite (wholeDigits ++ fraction) (exponent - fraction.length) then .float
    else .noNumber

/-! ## Numbers -/

/-- The value of a text in the form of a number. Underscores may stand between digits. -/
def number? : List Char → Option Value
  | '0' :: 'x' :: cs => radixInteger? 16 cs
  | '0' :: 'o' :: cs => radixInteger? 8 cs
  | '0' :: 'b' :: cs => radixInteger? 2 cs
  | cs =>
    let (negative, body) := unsigned cs
    if body == ['i', 'n', 'f'] || body == ['n', 'a', 'n'] then some .float
    else if body.any isFloatMark then float? body
    else decimalInteger? negative body

end Adventure.Toml
