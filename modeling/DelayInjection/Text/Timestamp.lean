/-! Points in time as text: date and time of day in coordinated universal time. -/

namespace DelayInjection.Text

/-- At least so many digits, with zeros in front. -/
def paddedDigits (width n : Nat) : String :=
  let digits := (toString n).toList
  String.ofList (List.replicate (width - digits.length) '0' ++ digits)

/-- Year, month and day of a number of days after the first day of 1970. Years start in March, so
that the day which some years lack is the last one. -/
def civilDate (days : Nat) : Nat × Nat × Nat :=
  let shifted := days + 719468
  let era := shifted / 146097
  let dayOfEra := shifted % 146097
  let yearOfEra := (dayOfEra - dayOfEra / 1460 + dayOfEra / 36524 - dayOfEra / 146096) / 365
  let dayOfYear := dayOfEra - (365 * yearOfEra + yearOfEra / 4 - yearOfEra / 100)
  let month := (5 * dayOfYear + 2) / 153
  let day := dayOfYear - (153 * month + 2) / 5 + 1
  let year := yearOfEra + 400 * era
  if month < 10 then (year, month + 3, day) else (year + 1, month - 9, day)

/-- The text of a number of microseconds after the start of 1970; a whole second has no fraction. -/
def timestamp (microseconds : Nat) : String :=
  let seconds := microseconds / 1000000
  let fraction := microseconds % 1000000
  let (year, month, day) := civilDate (seconds / 86400)
  let time := seconds % 86400
  paddedDigits 4 year ++ "-" ++ paddedDigits 2 month ++ "-" ++ paddedDigits 2 day ++ "T" ++
    paddedDigits 2 (time / 3600) ++ ":" ++ paddedDigits 2 (time / 60 % 60) ++ ":" ++
    paddedDigits 2 (time % 60) ++ (if fraction = 0 then "" else "." ++ paddedDigits 6 fraction) ++
    "+00:00"

end DelayInjection.Text
