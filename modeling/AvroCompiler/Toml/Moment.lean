namespace AvroCompiler.Toml

/-- A number of exactly `count` digits between two bounds, and what follows it. -/
def numeral? (count low high : Nat) (cs : List Char) : Option (Nat × List Char) :=
  let ds := cs.take count
  let value := ds.foldl (fun n c => n * 10 + (c.toNat - '0'.toNat)) 0
  if ds.length = count ∧ ds.all Char.isDigit ∧ low ≤ value ∧ value ≤ high then
    some (value, cs.drop count)
  else none

def expect? (c : Char) : List Char → Option (List Char)
  | d :: rest => if d = c then some rest else none
  | [] => none

def daysInMonth (year month : Nat) : Nat :=
  if month = 2 then
    if year % 4 = 0 ∧ (year % 100 ≠ 0 ∨ year % 400 = 0) then 29 else 28
  else if [4, 6, 9, 11].contains month then 30
  else 31

def before (cs rest : List Char) : List Char :=
  cs.take (cs.length - rest.length)

def date? (cs : List Char) : Option (List Char × List Char) := do
  let (year, rest) ← numeral? 4 0 9999 cs
  let (month, rest) ← numeral? 2 1 12 (← expect? '-' rest)
  let (_, rest) ← numeral? 2 1 (daysInMonth year month) (← expect? '-' rest)
  return (before cs rest, rest)

def trimZeros (ds : List Char) : List Char :=
  (ds.reverse.dropWhile (· = '0')).reverse

def fraction? (cs : List Char) : Option (List Char × List Char) :=
  match cs.takeWhile Char.isDigit, cs.dropWhile Char.isDigit with
  | [], _ => none
  | ds, rest =>
    match trimZeros (ds.take 9) with
    | [] => some ([], rest)
    | kept => some ('.' :: kept, rest)

def time? (cs : List Char) : Option (List Char × List Char) := do
  let (_, rest) ← numeral? 2 0 23 cs
  let (_, rest) ← numeral? 2 0 59 (← expect? ':' rest)
  let (_, rest) ← numeral? 2 0 60 (← expect? ':' rest)
  match rest with
  | '.' :: after =>
    let (part, after) ← fraction? after
    return (before cs rest ++ part, after)
  | _ => return (before cs rest, rest)

/-- An offset, to the end. No offset is written with a plus sign. -/
def offset? : List Char → Option (List Char)
  | ['Z'] => some ['Z']
  | ['z'] => some ['Z']
  | sign :: cs => do
    let (hours, rest) ← numeral? 2 0 23 cs
    let (minutes, rest) ← numeral? 2 0 59 (← expect? ':' rest)
    guard ((sign = '+' ∨ sign = '-') ∧ rest = [])
    return (if hours = 0 ∧ minutes = 0 then '+' else sign) :: cs
  | [] => none

def moment? (cs : List Char) : Option (List Char) :=
  match date? cs with
  | some (date, []) => some date
  | some (date, divider :: rest) => do
    guard (divider = 'T' ∨ divider = 't' ∨ divider = ' ')
    let (time, rest) ← time? rest
    if rest = [] then return date ++ 'T' :: time
    else return date ++ 'T' :: time ++ (← offset? rest)
  | none => do
    let (time, rest) ← time? cs
    guard (rest = [])
    return time

end AvroCompiler.Toml
