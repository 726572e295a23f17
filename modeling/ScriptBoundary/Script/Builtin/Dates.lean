import ScriptBoundary.Script.Builtin.Basic

/-!
# Dates

What scripts can do with dates. There is one time zone, without an offset, and `Calendar.ofDays`
finds the civil date of a day.
-/

namespace ScriptBoundary.Script

open Script.Comp

/-- A civil date. Months and days count from one. -/
structure Calendar where
  year : Int
  month : Nat
  day : Nat
deriving Repr, DecidableEq

namespace Calendar

/-- Days before a civil year, counted from the start of 1970. Years begin in March here, so that
the leap day comes last. -/
def daysOfMarchYear (y : Int) : Int := 365 * y + y / 4 - y / 100 + y / 400 - 719468

/-- The day number of a civil date. -/
def toDays (c : Calendar) : Int :=
  let y := if c.month ≤ 2 then c.year - 1 else c.year
  let m := (c.month + 9) % 12
  daysOfMarchYear y + ((153 * m + 2) / 5 : Nat) + (c.day : Int) - 1

/-- The civil date of a day number. -/
def ofDays (days : Int) : Calendar :=
  let z := days + 719468
  let era := z / 146097
  let doe := (z % 146097).toNat
  let yoe := (doe - doe / 1460 + doe / 36524 - doe / 146096) / 365
  let doy := doe - (365 * yoe + yoe / 4 - yoe / 100)
  let mp := (5 * doy + 2) / 153
  let day := doy - (153 * mp + 2) / 5 + 1
  let month := if mp < 10 then mp + 3 else mp - 9
  let year : Int := yoe + era * 400
  ⟨if month ≤ 2 then year + 1 else year, month, day⟩

end Calendar

/-- A time value taken apart. -/
structure Moment where
  date : Calendar
  weekday : Nat
  hour : Nat
  minute : Nat
  second : Nat
  millisecond : Nat

namespace Moment

def ofTime (t : Int) : Moment :=
  let days := t / 86400000
  let rest := (t % 86400000).toNat
  ⟨Calendar.ofDays days, ((days + 4) % 7).toNat, rest / 3600000, rest / 60000 % 60,
    rest / 1000 % 60, rest % 1000⟩

/-- A number with leading zeros. -/
def padded (width n : Nat) : String :=
  let s := toString n
  String.ofList (List.replicate (width - s.length) '0') ++ s

def weekdays : List String := ["Sun", "Mon", "Tue", "Wed", "Thu", "Fri", "Sat"]

def months : List String :=
  ["Jan", "Feb", "Mar", "Apr", "May", "Jun", "Jul", "Aug", "Sep", "Oct", "Nov", "Dec"]

/-- A year with four digits, and a sign where that is not enough. -/
def yearText (y : Int) (wide : Nat) : String :=
  if 0 ≤ y && y ≤ 9999 then padded 4 y.toNat
  else if y < 0 then "-" ++ padded wide y.natAbs
  else "+" ++ padded wide y.natAbs

def dayText (m : Moment) : String :=
  weekdays.getD m.weekday "" ++ " " ++ months.getD (m.date.month - 1) "" ++ " "
    ++ padded 2 m.date.day ++ " " ++ yearText m.date.year 4

def clockText (m : Moment) : String :=
  padded 2 m.hour ++ ":" ++ padded 2 m.minute ++ ":" ++ padded 2 m.second

/-- The text of a date. -/
def text (m : Moment) : String := m.dayText ++ " " ++ m.clockText ++ " GMT+0000"

def utcText (m : Moment) : String :=
  weekdays.getD m.weekday "" ++ ", " ++ padded 2 m.date.day ++ " "
    ++ months.getD (m.date.month - 1) "" ++ " " ++ yearText m.date.year 4 ++ " " ++ m.clockText
    ++ " GMT"

def isoText (m : Moment) : String :=
  yearText m.date.year 6 ++ "-" ++ padded 2 m.date.month ++ "-" ++ padded 2 m.date.day ++ "T"
    ++ m.clockText ++ "." ++ padded 3 m.millisecond ++ "Z"

/-- A number of exactly so many digits off the front. -/
def number? (width : Nat) (cs : List Char) : Option (Nat × List Char) :=
  let ds := cs.take width
  if ds.length == width && ds.all Char.isDigit then
    some (ds.foldl (fun n c => n * 10 + (c.toNat - 48)) 0, cs.drop width)
  else none

/-- What follows a mark, if the mark is there; the default otherwise. -/
def partAfter? (mark : Char) (width absent : Nat) (cs : List Char) : Option (Nat × List Char) :=
  match cs with
  | c :: rest => if c == mark then number? width rest else some (absent, cs)
  | [] => some (absent, [])

/-- The offset at the end of a written time, in minutes. -/
def zone? : List Char → Option Int
  | [] => some 0
  | ['Z'] => some 0
  | sign :: rest =>
    if sign == '+' || sign == '-' then do
      let (h, rest) ← number? 2 rest
      let (m, rest) ← partAfter? ':' 2 0 rest
      guard (rest.isEmpty && h < 24 && m < 60)
      return if sign == '-' then -(h * 60 + m : Int) else h * 60 + m
    else none

/-- Reads a date as `isoText` writes it; the time and the smaller parts may be missing. -/
def read? (s : String) : Option Int := do
  let (year, rest) ← (match s.toList with
    | '+' :: r => (number? 6 r).map fun (n, r) => ((n : Int), r)
    | '-' :: r => (number? 6 r).map fun (n, r) => (-(n : Int), r)
    | r => (number? 4 r).map fun (n, r) => ((n : Int), r) : Option (Int × List Char))
  let (month, rest) ← partAfter? '-' 2 1 rest
  let (day, rest) ← partAfter? '-' 2 1 rest
  let (hour, rest) ← partAfter? 'T' 2 0 rest
  let (minute, rest) ← partAfter? ':' 2 0 rest
  let (second, rest) ← partAfter? ':' 2 0 rest
  let (milli, rest) ← partAfter? '.' 3 0 rest
  let offset ← zone? rest
  guard (1 ≤ month && month ≤ 12 && 1 ≤ day && day ≤ 31 && hour ≤ 24 && minute < 60 && second < 60)
  let days := (Calendar.mk year month day).toDays
  return (((days * 24 + hour) * 60 + minute - offset) * 60 + second) * 1000 + milli

end Moment

namespace Builtin

/-- The time value of `this`. -/
def thisTime (c : BuiltinCall) : Comp Float := do
  match ← c.thisNature with
  | .date t => return t.ms
  | _ => throwType "'this' is not a Date"

/-- A part of a date as a number. -/
def datePart (name : String) (part : Moment → Int) : Builtin :=
  method .datePrototype ("Date.prototype." ++ name) 0 fun _ c => do
    let t ← thisTime c
    if t.isNaN then return .number t
    else return .number (Float.ofExactInt (part (Moment.ofTime t.toIntOrZero)))

/-- A text of a date. -/
def dateText (name : String) (text : Moment → String) : Builtin :=
  method .datePrototype ("Date.prototype." ++ name) 0 fun _ c => do
    let t ← thisTime c
    if t.isNaN then return Value.ofString "Invalid Date"
    else return Value.ofString (text (Moment.ofTime t.toIntOrZero))

/-- The time value of year, month and so on, each of them any number. -/
def timeOfParts (parts : List Float) : Time :=
  if parts.any fun x => x.isNaN || x.isInf then .invalid
  else
    let n (i : Nat) (absent : Int) : Int := ((parts[i]?).map Float.toIntOrZero).getD absent
    let year := n 0 1970
    let year := if 0 ≤ year && year ≤ 99 then year + 1900 else year
    let month := n 1 0
    let first := (Calendar.mk (year + month / 12) ((month % 12).toNat + 1) 1).toDays
    let days := first + n 2 1 - 1
    .clip (Float.ofExactInt
      ((((days * 24 + n 3 0) * 60 + n 4 0) * 60 + n 5 0) * 1000 + n 6 0))

/-- The time value a text is read as. -/
def timeOfText (t : Text) : Time :=
  match Moment.read? t.toString with
  | some n => .clip (Float.ofExactInt n)
  | none => .invalid

/-- Getters under their local and universal names, which agree here. -/
def dateParts : List Builtin :=
  ([("FullYear", fun m => m.date.year), ("Month", fun m => (m.date.month : Int) - 1),
    ("Date", fun m => m.date.day), ("Day", fun m => m.weekday), ("Hours", fun m => m.hour),
    ("Minutes", fun m => m.minute), ("Seconds", fun m => m.second),
    ("Milliseconds", fun m => m.millisecond)] : List (String × (Moment → Int))).flatMap
    fun (name, part) => [datePart ("get" ++ name) part, datePart ("getUTC" ++ name) part]

def dates : List Builtin :=
  [constructor .dateConstructor (some .datePrototype) "Date" 7 fun m c => do
      if c.newTarget.isNone then return Value.ofString (Moment.ofTime 0).text
      else
        let time ← (match c.args with
          | [] => pure .epoch
          | [v] => do
            match v, ← (match v with
              | .object r => do return (← readObject r).nature
              | _ => pure .plain : Comp Nature) with
            | _, .date t => return t
            | v, _ =>
              match ← m.toPrimitive v .default with
              | .text t => return timeOfText t
              | p => return .clip (← m.toNumber p)
          | vs => do return timeOfParts (← mapList m.toNumber (vs.take 7)) : Comp Time)
        c.make m (.date time) .datePrototype,
   method .dateConstructor "Date.UTC" 7 fun m c => do
      return .number (timeOfParts (← mapList m.toNumber (c.args.take 7))).ms,
   method .dateConstructor "Date.parse" 1 fun m c => do
      return .number (timeOfText (← m.toText (c.arg 0))).ms,
   method .datePrototype "Date.prototype.getTime" 0 fun _ c => do return .number (← thisTime c),
   method .datePrototype "Date.prototype.valueOf" 0 fun _ c => do return .number (← thisTime c),
   method .datePrototype "Date.prototype.getTimezoneOffset" 0 fun _ c => do
      let t ← thisTime c
      return .number (if t.isNaN then t else 0.0),
   method .datePrototype "Date.prototype.setTime" 1 fun m c => do
      let _ ← thisTime c
      let t := Time.clip (← m.toNumber (c.arg 0))
      match c.this with
      | .object r =>
        performOnly (.setNature r (.date t))
        return .number t.ms
      | _ => return .undefined,
   method .datePrototype "Date.prototype.toISOString" 0 fun _ c => do
      let t ← thisTime c
      if t.isNaN then raise .rangeError "Invalid time value"
      else return Value.ofString (Moment.ofTime t.toIntOrZero).isoText,
   method .datePrototype "Date.prototype.toJSON" 1 fun m c => do
      let r ← toObject c.this
      match ← m.toPrimitive (.object r) .number with
      | .number x =>
        if x.isNaN || x.isInf then return .null
        else m.call (← m.get r (Key.ofString "toISOString")) (.object r) []
      | _ => m.call (← m.get r (Key.ofString "toISOString")) (.object r) [],
   symbolMethod .datePrototype "Date.prototype[toPrimitive]" Symbol.toPrimitive 1 fun m c => do
      match c.this, c.arg 0 with
      | .object r, .text t =>
        match t.toString with
        | "string" | "default" => m.ordinaryPrimitive r .string
        | "number" => m.ordinaryPrimitive r .number
        | _ => throwType "Invalid hint"
      | _, _ => throwType "Date.prototype[@@toPrimitive] called on non object",
   dateText "toString" Moment.text,
   dateText "toLocaleString" Moment.text,
   dateText "toDateString" Moment.dayText,
   dateText "toTimeString" fun m => m.clockText ++ " GMT+0000",
   dateText "toUTCString" Moment.utcText] ++ dateParts

end Builtin

end ScriptBoundary.Script
