import SessionRelay.Number.Integer

/-!
The date and the time of day at an instant, as log lines show them. Instants are milliseconds since
the beginning of 1970, in universal time.
-/

namespace SessionRelay.Calendar

/-- A day of the calendar. -/
structure Date where
  year : Int
  month : Nat
  day : Nat
  deriving DecidableEq, Repr

/-- Days in four hundred years. -/
def daysInEra : Nat := 146097

/-- Days from the first of March of the year 0 to the beginning of 1970. -/
def daysBefore1970 : Int := 719468

/-- The year of a day of an era, where years begin in March, so that a leap day is the last. Each
fourth, hundredth and four hundredth year ends in one or ends without. -/
def yearOfEra (day : Nat) : Nat := (day - day / 1460 + day / 36524 - day / 146096) / 365

/-- The date of a day, counted from the beginning of 1970. -/
def dateOf (day : Int) : Date :=
  let fromMarch := day + daysBefore1970
  let era := fromMarch.fdiv daysInEra
  let ofEra := (fromMarch.fmod daysInEra).toNat
  let year := yearOfEra ofEra
  let ofYear := ofEra - (365 * year + year / 4 - year / 100)
  let month := (5 * ofYear + 2) / 153
  { year := era * 400 + year + (if month < 10 then 0 else 1)
    month := if month < 10 then month + 3 else month - 9
    day := ofYear - (153 * month + 2) / 5 + 1 }

/-- A number with zeros in front of it up to a width. -/
def padded (width n : Nat) : String :=
  let digits := Integer.digits n
  String.ofList (List.replicate (width - digits.length) '0' ++ digits)

/-- An instant as text, to the millisecond. -/
def stamp (instant : Int) : String :=
  let date := dateOf (instant.fdiv 86400000)
  let time := (instant.fmod 86400000).toNat
  s!"{padded 4 date.year.toNat}-{padded 2 date.month}-{padded 2 date.day}T" ++
    s!"{padded 2 (time / 3600000)}:{padded 2 (time / 60000 % 60)}:{padded 2 (time / 1000 % 60)}" ++
    s!".{padded 3 (time % 1000)}Z"

example : stamp 951868799999 = "2000-02-29T23:59:59.999Z" := by decide +kernel

end SessionRelay.Calendar
