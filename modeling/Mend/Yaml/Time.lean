import Mend.Text
import Mend.Yaml.Error

/-!
# Times in YAML

A date, or a date with a time of day and perhaps a distance from universal time.
-/

namespace Mend.Yaml

/-- A time of day, with its distance from universal time in minutes if it has one. -/
structure Clock where
  hour : Nat
  minute : Nat
  second : Nat
  microsecond : Nat
  offset : Option Int
  deriving DecidableEq, Repr

/-- A date, with a time of day or without. -/
structure Time where
  year : Nat
  month : Nat
  day : Nat
  clock : Option Clock
  deriving DecidableEq, Repr

namespace Time

/-! ### Reading -/

/-- Between `least` and `most` digits at the beginning of a text. -/
def takeDigits? (least most : Nat) (t : Text) : Option (Nat × Text) :=
  let ds := (t.take most).takeWhile Text.isAsciiDigit
  if ds.length < least then none else some (Text.digitsValue ds, t.drop ds.length)

/-- A sign at the beginning of a text, and digits after it. -/
def takeAfter? (sign : CodePoint) (least most : Nat) : Text → Option (Nat × Text)
  | c :: t => if c = sign then takeDigits? least most t else none
  | [] => none

/-- The microseconds of a fraction of a second. -/
def takeFraction : Text → Nat × Text
  | '.' :: t =>
    let ds := t.takeWhile Text.isAsciiDigit
    (Text.digitsValue ((ds ++ (List.replicate 6 '0' : Text)).take 6), t.drop ds.length)
  | t => (0, t)

/-- The distance from universal time at the end of a text, if one is there. -/
def offset? (t : Text) : Option (Option Int) :=
  if t.isEmpty then some none
  else
    match t.dropWhile fun c => c = .char ' ' || c = .char '\t' with
    | ['Z'] => some (some 0)
    | sign :: t =>
      if sign = '+' || sign = '-' then do
        let (hours, t) ← takeDigits? 1 2 t
        let (minutes, t) ← if t.isEmpty then some (0, t) else takeAfter? ':' 2 2 t
        let total : Int := hours * 60 + minutes
        if t.isEmpty then some (some (if sign = '-' then -total else total)) else none
      else none
    | [] => none

/-- The time of day at the end of a text. -/
def clock? (t : Text) : Option Clock := do
  let (hour, t) ← takeDigits? 1 2 t
  let (minute, t) ← takeAfter? ':' 2 2 t
  let (second, t) ← takeAfter? ':' 2 2 t
  let (microsecond, t) := takeFraction t
  return ⟨hour, minute, second, microsecond, ← offset? t⟩

/-- What follows the sign between a date and a time of day. -/
def afterDate? : Text → Option Text
  | c :: t =>
    if c = 'T' || c = 't' then some t
    else if c = ' ' || c = '\t' then some (t.dropWhile fun c => c = .char ' ' || c = .char '\t')
    else none
  | [] => none

/-- The time that a text denotes, and whether its month and its day have two digits. -/
def read? (t : Text) : Option (Time × Bool) := do
  let (year, t) ← takeDigits? 4 4 t
  let (month, t₁) ← takeAfter? '-' 1 2 t
  let (day, t₂) ← takeAfter? '-' 1 2 t₁
  let full := t₁.length + 3 = t.length && t₂.length + 3 = t₁.length
  if t₂.isEmpty then return (⟨year, month, day, none⟩, full)
  return (⟨year, month, day, some (← clock? (← afterDate? t₂))⟩, full)

/-- Whether a text without a tag is a time: a date alone has two digits for its month and its day. -/
def isTime (t : Text) : Bool := (read? t).any fun (time, full) => full || time.clock.isSome

/-! ### Validity -/

/-- The number of days of a month. -/
def daysIn (year month : Nat) : Nat :=
  if month = 2 then
    if year % 4 = 0 && (year % 100 != 0 || year % 400 = 0) then 29 else 28
  else if [4, 6, 9, 11].elem month then 30 else 31

/-- The number of days before a date, from the first day of March of the year zero on. -/
def dayNumber (year month day : Nat) : Int :=
  let y : Int := if month < 3 then year - 1 else year
  let m : Nat := (month + 9) % 12
  365 * y + y / 4 - y / 100 + y / 400 + ((153 * m + 2) / 5 + day : Nat)

/-- The instant of a time whose distance from universal time is known, in microseconds. -/
def instant? (t : Time) : Option Int := do
  let c ← t.clock
  let offset ← c.offset
  let minutes := (dayNumber t.year t.month t.day * 24 + c.hour) * 60 + c.minute - offset
  return (minutes * 60 + c.second) * 1000000 + c.microsecond

/-- Days and seconds of so many minutes, as messages show them. -/
def durationText (minutes : Int) : Text :=
  let days := minutes.fdiv 1440
  let seconds := minutes.fmod 1440 * 60
  let parts : List Text :=
    (if days = 0 then [] else ["days=" ++ Text.ofInt days]) ++
      if seconds = 0 then [] else ["seconds=" ++ Text.ofInt seconds]
  "datetime.timedelta(" ++ (if parts.isEmpty then ("0" : Text) else Text.joinWith ", " parts) ++ ")"

/-- What is wrong with the distance from universal time. -/
def offsetFault? (c : Clock) : Option Text :=
  match c.offset with
  | some n =>
    if 1440 ≤ n.natAbs then
      some ("offset must be a timedelta strictly between -timedelta(hours=24) and " ++
        "timedelta(hours=24), not " ++ durationText n ++ ".")
    else none
  | none => none

/-- What is wrong with a time of day. -/
def clockFault? (c : Clock) : Option Text :=
  if 24 ≤ c.hour then some "hour must be in 0..23"
  else if 60 ≤ c.minute then some "minute must be in 0..59"
  else if 60 ≤ c.second then some "second must be in 0..59"
  else none

/-- What is wrong with a date. -/
def dateFault? (t : Time) : Option Text :=
  if t.year = 0 then some "year 0 is out of range"
  else if t.month = 0 || 12 < t.month then some "month must be in 1..12"
  else if t.day = 0 || daysIn t.year t.month < t.day then some "day is out of range for month"
  else none

/-- What is wrong with a time. -/
def fault? (t : Time) : Option Text :=
  (t.clock.bind offsetFault?) <|> t.dateFault? <|> t.clock.bind clockFault?

/-! ### Times in messages -/

/-- A distance from universal time as messages show it. -/
def offsetText (n : Int) : Text :=
  if n = 0 then "datetime.timezone.utc" else "datetime.timezone(" ++ durationText n ++ ")"

/-- The name of the kind of a time. -/
def kind (t : Time) : Text := if t.clock.isSome then "datetime" else "date"

/-- A time as messages show it. -/
def display (t : Time) : Text :=
  let numbers : List Nat := match t.clock with
    | none => []
    | some c =>
      [c.hour, c.minute] ++
        (if c.second = 0 && c.microsecond = 0 then [] else [c.second]) ++
        if c.microsecond = 0 then [] else [c.microsecond]
  let zone : List Text := match t.clock.bind (·.offset) with
    | some n => ["tzinfo=" ++ offsetText n]
    | none => []
  "datetime." ++ t.kind ++ "(" ++
    Text.joinWith ", " (([t.year, t.month, t.day] ++ numbers).map Text.ofNat ++ zone) ++ ")"

end Time

end Mend.Yaml
