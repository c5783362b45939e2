import TimelineStore.Toml.Number

/-!
# Dates and times of a settings document

A moment is a date, a time of day, or both, and with both it may say how far its
clock is from the universal one.  A day must exist in its month, and a minute may
have a leap second.
-/

namespace TimelineStore.Toml

/-- The number of exactly so many decimal digits, if it lies between two bounds, and the
rest. -/
def field? (width low high : Nat) (cs : List Char) : Option (Nat × List Char) :=
  match (cs.take width).mapM (digitValue? 10) with
  | none => none
  | some digits =>
    let value := ofDigits 10 digits
    if digits.length = width ∧ low ≤ value ∧ value ≤ high then some (value, cs.drop width)
    else none

/-- The rest after a character that must come first. -/
def after? (mark : Char) : List Char → Option (List Char)
  | [] => none
  | c :: rest => if c = mark then some rest else none

/-- How many days a month has. -/
def daysIn (year month : Nat) : Nat :=
  if month = 2 then
    if year % 4 = 0 ∧ (year % 100 ≠ 0 ∨ year % 400 = 0) then 29 else 28
  else if month = 4 ∨ month = 6 ∨ month = 9 ∨ month = 11 then
    30
  else
    31

/-- The rest after a date. -/
def afterDate? (cs : List Char) : Option (List Char) := do
  let (year, cs) ← field? 4 0 9999 cs
  let cs ← after? '-' cs
  let (month, cs) ← field? 2 1 12 cs
  let cs ← after? '-' cs
  let (_, cs) ← field? 2 1 (daysIn year month) cs
  return cs

/-- The rest after a fraction of a second, if there is one. -/
def afterFraction? : List Char → Option (List Char)
  | '.' :: cs =>
    if (cs.takeWhile Char.isDigit).isEmpty then none else some (cs.dropWhile Char.isDigit)
  | cs => some cs

/-- The rest after a time of day. -/
def afterTime? (cs : List Char) : Option (List Char) := do
  let (_, cs) ← field? 2 0 23 cs
  let cs ← after? ':' cs
  let (_, cs) ← field? 2 0 59 cs
  let cs ← after? ':' cs
  let (_, cs) ← field? 2 0 60 cs
  afterFraction? cs

/-- The rest after the distance from the universal clock, if one is given. -/
def afterOffset? : List Char → Option (List Char)
  | 'Z' :: cs => some cs
  | 'z' :: cs => some cs
  | c :: cs =>
    if c = '+' ∨ c = '-' then do
      let (_, cs) ← field? 2 0 23 cs
      let cs ← after? ':' cs
      let (_, cs) ← field? 2 0 59 cs
      return cs
    else
      some (c :: cs)
  | [] => some []

/-- What may stand between a date and a time. -/
def isBetween (c : Char) : Bool :=
  c = 'T' || c = 't' || c = ' '

/-- The text is a moment and nothing else. -/
def isMoment (cs : List Char) : Bool :=
  match afterDate? cs with
  | some [] => true
  | some (c :: rest) =>
    isBetween c && ((afterTime? rest).bind afterOffset?).any (·.isEmpty)
  | none => (afterTime? cs).any (·.isEmpty)

/-- The text is a date. -/
def isDate (cs : List Char) : Bool :=
  (afterDate? cs).any (·.isEmpty)

end TimelineStore.Toml
