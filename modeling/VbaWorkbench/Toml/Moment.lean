import VbaWorkbench.Text.Digits

namespace VbaWorkbench.Toml

/-- A number of exactly `width` digits, up to `limit`, with its digits and what follows. -/
def readDigits (width limit : Nat) (t : Text) : Option (Text × Text) :=
  let digits := t.take width
  match Text.natural? 10 digits with
  | some n => if digits.length = width ∧ n ≤ limit then some (digits, t.drop width) else none
  | none => none

/-- Passes a character. -/
def expect (c : Char) : Text → Option Text
  | d :: rest => if c = d then some rest else none
  | [] => none

def isLeapYear (year : Nat) : Bool :=
  year % 4 == 0 && (year % 100 != 0 || year % 400 == 0)

/-- The days of a month, none for a number that names no month. -/
def daysOf (year month : Nat) : Nat :=
  if month = 2 then if isLeapYear year then 29 else 28
  else if month ∈ [4, 6, 9, 11] then 30
  else if 1 ≤ month ∧ month ≤ 12 then 31
  else 0

def readDate (t : Text) : Option (Text × Text) := do
  let (year, t) ← readDigits 4 9999 t
  let (month, t) ← readDigits 2 12 (← expect '-' t)
  let t ← expect '-' t
  let days := daysOf (Text.digitsValue 10 year) (Text.digitsValue 10 month)
  let (day, t) ← readDigits 2 days t
  if day = ['0', '0'] then none
  else return (year ++ '-' :: month ++ '-' :: day, t)

/-- The digits after the point of a second, of which nine count and zeros at the end do not. -/
def readFraction (t : Text) : Text × Text :=
  match t with
  | '.' :: rest =>
    let digits := rest.takeWhile Char.isDigit
    let kept := Text.trimRight (· == '0') (digits.take 9)
    if digits.isEmpty then ([], t)
    else (if kept.isEmpty then [] else '.' :: kept, rest.drop digits.length)
  | _ => ([], t)

def readTime (t : Text) : Option (Text × Text) := do
  let (hour, t) ← readDigits 2 23 t
  let (minute, t) ← readDigits 2 59 (← expect ':' t)
  let (second, t) ← readDigits 2 60 (← expect ':' t)
  let (fraction, t) := readFraction t
  return (hour ++ ':' :: minute ++ ':' :: second ++ fraction, t)

/-- The distance from universal time; it may be missing. -/
def readOffset (t : Text) : Option (Text × Text) :=
  match t with
  | 'Z' :: rest | 'z' :: rest => some (['Z'], rest)
  | sign :: rest =>
    if sign = '+' ∨ sign = '-' then do
      let (hour, rest) ← readDigits 2 23 rest
      let (minute, rest) ← readDigits 2 59 (← expect ':' rest)
      let isZero := (hour ++ minute).all (· == '0')
      return ((if isZero then '+' else sign) :: hour ++ ':' :: minute, rest)
    else some ([], t)
  | [] => some ([], t)

/-- An hour and a colon follow. -/
def beginsTime (t : Text) : Bool :=
  match readDigits 2 23 t with
  | some (_, ':' :: _) => true
  | _ => false

/-- Four digits and a hyphen follow, or two and a colon. -/
def beginsMoment (t : Text) : Bool :=
  match readDigits 4 9999 t with
  | some (_, '-' :: _) => true
  | _ => beginsTime t

/-- Reads a date, a time, or both with a `T` or a space between them. It counts as its text in
canonical form. -/
def readMoment (t : Text) : Option (Text × Text) := do
  if beginsTime t then readTime t
  else
    let (date, t) ← readDate t
    match t with
    | c :: rest =>
      if (c = 'T' ∨ c = 't' ∨ c = ' ') ∧ beginsTime rest then
        let (time, rest) ← readTime rest
        let (offset, rest) ← readOffset rest
        return (date ++ 'T' :: time ++ offset, rest)
      else return (date, t)
    | [] => return (date, t)

end VbaWorkbench.Toml
