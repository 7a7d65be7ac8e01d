import FiveProtect.Lib.Text

/-!
# Instants and their ISO 8601 text

Time is counted in milliseconds since 1970-01-01T00:00:00Z.  `IsoTime.toISOString` is
`Date.prototype.toISOString`: four digits for the years 0 to 9999, a sign and six digits beyond.
The day is turned into a date with the 400 year cycle of the Gregorian calendar.
-/

/-- milliseconds since the epoch -/
abbrev Time := Nat

namespace IsoTime

/-- days since 0000-03-01, where leap days end a year -/
def marchDays (t : Time) : Nat := t / 86400000 + 719468

def dayOfEra (t : Time) : Nat := marchDays t % 146097

def yearOfEra (t : Time) : Nat :=
  (dayOfEra t - dayOfEra t / 1460 + dayOfEra t / 36524 - dayOfEra t / 146096) / 365

/-- day of the year that starts on March 1st -/
def dayOfYear (t : Time) : Nat :=
  dayOfEra t - (365 * yearOfEra t + yearOfEra t / 4 - yearOfEra t / 100)

/-- month counted from March -/
def marchMonth (t : Time) : Nat := (5 * dayOfYear t + 2) / 153

def day (t : Time) : Nat := dayOfYear t - (153 * marchMonth t + 2) / 5 + 1

def month (t : Time) : Nat := if marchMonth t < 10 then marchMonth t + 3 else marchMonth t - 9

def year (t : Time) : Nat :=
  yearOfEra t + marchDays t / 146097 * 400 + (if month t ≤ 2 then 1 else 0)

def digit (n : Nat) : Char := Nat.digitChar (n % 10)

def pad2 (n : Nat) : List Char := [digit (n / 10), digit n]

def pad3 (n : Nat) : List Char := [digit (n / 100), digit (n / 10), digit n]

def pad4 (n : Nat) : List Char := [digit (n / 1000), digit (n / 100), digit (n / 10), digit n]

def pad6 (n : Nat) : List Char := [digit (n / 100000), digit (n / 10000)] ++ pad4 n

def isoYear (y : Nat) : List Char := if y ≤ 9999 then pad4 y else '+' :: pad6 y

/-- `new Date(t).toISOString()` -/
def toISOString (t : Time) : String :=
  String.ofList (isoYear (year t) ++ ['-'] ++ pad2 (month t) ++ ['-'] ++ pad2 (day t) ++ ['T'] ++
    pad2 (t / 3600000 % 24) ++ [':'] ++ pad2 (t / 60000 % 60) ++ [':'] ++ pad2 (t / 1000 % 60) ++
    ['.'] ++ pad3 (t % 1000) ++ ['Z'])

example : toISOString 1785852581412 = "2026-08-04T14:09:41.412Z" := by decide

/-- a decimal digit is one ASCII byte -/
theorem utf8_digit (n : Nat) : Text.utf8Chars [digit n] = [UInt8.ofNat (48 + n % 10)] := by
  have h : ∀ d < 10, Text.utf8Chars [Nat.digitChar d] = [UInt8.ofNat (48 + d)] := by decide
  exact h (n % 10) (Nat.mod_lt _ (by decide))

end IsoTime
