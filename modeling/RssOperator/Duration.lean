/-
Durations in the specification: `parseDuration` and `parseInt64` of
`pkg/cluster/exec.go`, and the two places that use them, the timeout of a
command in `execute` and the interval of `run`.

# The pattern

`durationRegex` is the pattern of the source, part by part. It matches the
empty string, so there always is a match, and it is one at the front.

# Numbers

`int` and `time.Duration` are 64 bits wide and wrap around, so they are
`Int64` here. `strconv.Atoi` returns the nearest value together with a range
error; `parseInt64` looks at the error and `parseDuration` does not.
-/
import RssOperator.Exec
import RssOperator.Lib.Regex

namespace RssOperator

-- ============================================================= strconv

/-- The sign of a number, `true` for minus, and what follows it. -/
def splitSign : List Char → Bool × List Char
  | '+' :: digits => (false, digits)
  | '-' :: digits => (true, digits)
  | digits => (false, digits)

/-- `strconv.Atoi`: the value comes with the error, zero on a syntax error
and the nearest value on a range error. A number that `ParseUint` finds too
large is out of range whatever follows it. -/
def atoi (s : List Char) : Int × Bool :=
  let (neg, digits) := splitSign s
  let (un, err) := parseUint digits
  if err = some .malformed then (0, false)
  else if neg then
    if un ≤ 2 ^ 63 then (-un, true) else (-2 ^ 63, false)
  else
    if un < 2 ^ 63 then (un, true) else (2 ^ 63 - 1, false)

/-- The number in front of a one-letter unit, zero if there is none or if it
is too large. -/
def parseInt64 (value : List Char) : Int64 :=
  if value.length = 0 then 0
  else
    match atoi value.dropLast with
    | (_, false) => 0
    | (parsed, true) => Int64.ofInt parsed

-- ============================================================= pattern

/-- The groups of the pattern. -/
inductive Part where
  | years | months | days | hours | minutes | seconds
deriving DecidableEq, Repr

/-- The letter behind the number. -/
def Part.unit : Part → Char
  | years => 'Y'
  | months => 'M'
  | days => 'D'
  | hours => 'h'
  | minutes => 'm'
  | seconds => 's'

/-- `(?P<part>\d+u)` -/
def Part.regex (part : Part) : Regex Char Part :=
  .group part (.seq (.plus isDigit) (.sat (· == part.unit)))

def durationRegex : Regex Char Part :=
  .concat [.opt (Part.regex .years), .opt (Part.regex .months),
    .opt (Part.regex .days), .opt (.sat (· == 'T')),
    .opt (Part.regex .hours), .opt (Part.regex .minutes),
    .opt (Part.regex .seconds)]

-- ============================================================ durations

def second : Int64 := 1000000000

def minute : Int64 := 60 * second

def hour : Int64 := 60 * minute

/-- A duration in nanoseconds. -/
def parseDuration (str : Option String) : Int64 :=
  match str with
  | none => 0
  | some str =>
      let found := (durationRegex.search str.toList).getD
        (.nothing str.toList)
      let years := parseInt64 (found.group .years)
      let months := parseInt64 (found.group .months)
      let days := parseInt64 (found.group .days)
      let hours := parseInt64 (found.group .hours)
      let minutes := parseInt64 (found.group .minutes)
      let seconds :=
        -- simple numbers are treated as seconds
        if found.text = [] then Int64.ofInt (atoi str.toList).1
        else parseInt64 (found.group .seconds)
      years * 24 * 365 * hour + months * 30 * 24 * hour + days * 24 * hour
        + hours * hour + minutes * minute + seconds * second

/-- The timeout `execute` gives a command. -/
def commandTimeout (timeout : Option String) : Int64 :=
  let parsed := parseDuration timeout
  let minTimeout := 10 * second
  if parsed = 0 then 10 * minute
  else if parsed < minTimeout then minTimeout
  else parsed

/-- The time `run` waits between two reconciliations. -/
def reconcileInterval (interval : Option String) : Int64 :=
  let recInterval := parseDuration interval
  if recInterval ≤ 0 then minute else recInterval

end RssOperator
