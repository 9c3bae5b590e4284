import Adventure.Toml.Quoted

/-!
# Moments in time

The written forms of dates and times: a date, a time, or both joined by "T" or a space. Only a date
with a time may be followed by an offset. Only the form and the ranges of the parts are checked.

The part of `toml::from_str` that reads dates and times.
-/

namespace Adventure.Toml

/-- The number at the front of the text that is written with so many digits. -/
def digits? : Nat → List Char → Option (Nat × List Char)
  | 0, cs => some (0, cs)
  | n + 1, c :: cs =>
    match digitValue? c, digits? n cs with
    | some d, some (value, rest) => if d < 10 then some (d * 10 ^ n + value, rest) else none
    | _, _ => none
  | _ + 1, [] => none

/-- The number of days of a month. -/
def daysIn (year month : Nat) : Nat :=
  if month == 2 then
    if year % 4 == 0 && (year % 100 != 0 || year % 400 == 0) then 29 else 28
  else if month == 4 || month == 6 || month == 9 || month == 11 then 30
  else 31

/-- The rest after one given character. -/
def afterChar? (c : Char) : List Char → Option (List Char)
  | [] => none
  | d :: cs => if d == c then some cs else none

/-- The rest after a date. -/
def afterDate? (cs : List Char) : Option (List Char) := do
  let (year, cs) ← digits? 4 cs
  let (month, cs) ← digits? 2 (← afterChar? '-' cs)
  let (day, cs) ← digits? 2 (← afterChar? '-' cs)
  guard (1 ≤ month ∧ month ≤ 12 ∧ 1 ≤ day ∧ day ≤ daysIn year month)
  return cs

/-- The rest after an hour and a minute. -/
def afterHourMinute? (cs : List Char) : Option (List Char) := do
  let (hour, cs) ← digits? 2 cs
  let (minute, cs) ← digits? 2 (← afterChar? ':' cs)
  guard (hour ≤ 23 ∧ minute ≤ 59)
  return cs

/-- The rest after a time of day. Seconds and their fraction may be left out. -/
def afterTime? (cs : List Char) : Option (List Char) := do
  let cs ← afterHourMinute? cs
  match cs with
  | ':' :: cs =>
    let (second, cs) ← digits? 2 cs
    guard (second ≤ 60)
    match cs with
    | '.' :: cs =>
      guard ((cs.head?.map (isAsciiDigit ·)).getD false)
      return cs.dropWhile isAsciiDigit
    | cs => return cs
  | cs => return cs
where
  /-- A digit of base ten. -/
  isAsciiDigit (c : Char) : Bool := '0' ≤ c && c ≤ '9'

/-- The text is an offset, or empty. -/
def isOffset : List Char → Bool
  | [] => true
  | ['Z'] => true
  | ['z'] => true
  | c :: cs => (c == '+' || c == '-') && afterHourMinute? cs == some []

/-- The text writes a date, a time, or both. -/
def isMoment (cs : List Char) : Bool :=
  match afterDate? cs with
  | none => afterTime? cs == some []
  | some [] => true
  | some (c :: rest) => (c == 'T' || c == 't' || c == ' ') && (afterTime? rest).any isOffset

end Adventure.Toml
