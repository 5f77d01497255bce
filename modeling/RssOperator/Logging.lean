/-
The log formatter (`pkg/util/logging.go`): how an entry becomes a line.

# Panics

Two things in it can end the process: a slice whose bounds are out of range
(`extractPrefix`) and a field `prefix` that is not a string. A call returns
an `Except Panic`.

# The pattern

`^[(.*?)]` has no group. The brackets make it a class of the five characters
between them, so it matches one of those at the front of the message and
nothing else. They are single bytes, so positions are the same in characters
and in bytes.

# The first call

`Format` runs `init` once, behind a `sync.Once`, with the first entry it is
given. `TextFormatter.format` runs it on the entry of every call: it is the
first call of a formatter, and also a later one as long as the logger's
output stays what it was.

# What is given

The escape codes of a style (`ansi.ColorCode`), the time of an entry in a
layout, and the text of a value that is not a string. `SpacePadding` is a
width that `fmt` takes.
-/
import Mathlib.Data.String.Basic
import RssOperator.Exec
import RssOperator.Lib.Regex
import RssOperator.Lib.Sort

namespace RssOperator

/-- What ends the process here. -/
inductive Panic where
  | sliceBounds (low high : Int)
  | notAString
deriving DecidableEq, Repr

/-- `s[low:high]`. -/
def slice (low high : Int) (s : List Char) : Except Panic (List Char) :=
  if 0 ≤ low ∧ low ≤ high ∧ high ≤ s.length then
    .ok ((s.take high.toNat).drop low.toNat)
  else .error (.sliceBounds low high)

-- ====================================================== extractPrefix

/-- The characters between the brackets of the pattern. -/
def patternChars : List Char := ['(', '.', '*', '?', ')']

/-- The pattern without its anchor, which `Regex.first` stands for. -/
def pattern : Regex Char Unit := .sat fun c => patternChars.contains c

def extractPrefix (msg : List Char) :
    Except Panic (List Char × List Char) :=
  match pattern.first msg with
  | none => .ok ([], msg)
  | some m =>
      match slice 1 (m.text.length - 1) m.text with
      | .error panic => .error panic
      | .ok found =>
          match slice m.text.length msg.length msg with
          | .error panic => .error panic
          | .ok rest => .ok (found, trimSpace rest)

-- ============================================================= entries

inductive Level where
  | panic | fatal | error | warn | info | debug
deriving DecidableEq, Repr

/-- `entry.Level.String()`. -/
def Level.text : Level → String
  | panic => "panic"
  | fatal => "fatal"
  | error => "error"
  | warn => "warning"
  | info => "info"
  | debug => "debug"

/-- The value of a field: a string, an error with its message, or anything
else with the text it is printed as. -/
inductive FieldValue where
  | string (s : String)
  | error (message : String)
  | other (text : String)
deriving DecidableEq, Repr

/-- `%v` of a value. -/
def FieldValue.text : FieldValue → String
  | string s => s
  | error message => message
  | other text => text

structure Entry where
  level : Level
  message : String
  data : GoMap String FieldValue
  /-- The time of the entry, by layout. -/
  time : String → String
  /-- `miniTS()` -/
  seconds : Nat
  /-- Whether the logger writes to a terminal, if there is a logger. -/
  terminal : Option Bool

-- ============================================================== colors

/-- The styles of the parts of a line; the empty style paints nothing. -/
structure ColorScheme where
  infoLevelStyle : String
  warnLevelStyle : String
  errorLevelStyle : String
  fatalLevelStyle : String
  panicLevelStyle : String
  debugLevelStyle : String
  prefixStyle : String
  timestampStyle : String
deriving DecidableEq, Repr

def defaultColorScheme : ColorScheme where
  infoLevelStyle := ""
  warnLevelStyle := "yellow"
  errorLevelStyle := "red"
  fatalLevelStyle := "red"
  panicLevelStyle := "red"
  debugLevelStyle := "blue"
  prefixStyle := "cyan"
  timestampStyle := "grey+h"

def noColorsColorScheme : ColorScheme := ⟨"", "", "", "", "", "", "", ""⟩

/-- The style `getCompiledColor` compiles. -/
def getCompiledColor (main fallback : String) : String :=
  if main ≠ "" then main else fallback

def compileColorScheme (s : ColorScheme) : ColorScheme where
  infoLevelStyle :=
    getCompiledColor s.infoLevelStyle defaultColorScheme.infoLevelStyle
  warnLevelStyle :=
    getCompiledColor s.warnLevelStyle defaultColorScheme.warnLevelStyle
  errorLevelStyle :=
    getCompiledColor s.errorLevelStyle defaultColorScheme.errorLevelStyle
  fatalLevelStyle :=
    getCompiledColor s.fatalLevelStyle defaultColorScheme.fatalLevelStyle
  panicLevelStyle :=
    getCompiledColor s.panicLevelStyle defaultColorScheme.panicLevelStyle
  debugLevelStyle :=
    getCompiledColor s.debugLevelStyle defaultColorScheme.debugLevelStyle
  prefixStyle := getCompiledColor s.prefixStyle defaultColorScheme.prefixStyle
  timestampStyle :=
    getCompiledColor s.timestampStyle defaultColorScheme.timestampStyle

def ColorScheme.level (s : ColorScheme) : Level → String
  | .info => s.infoLevelStyle
  | .warn => s.warnLevelStyle
  | .error => s.errorLevelStyle
  | .fatal => s.fatalLevelStyle
  | .panic => s.panicLevelStyle
  | .debug => s.debugLevelStyle

/-- `ansi.ColorFunc(style)` on a text. -/
def colorFunc (colorCode : String → String) (style text : String) : String :=
  if style = "" ∨ text = "" then text
  else colorCode style ++ text ++ "\x1b[0m"

-- =========================================================== formatter

structure TextFormatter where
  forceColors : Bool := false
  disableColors : Bool := false
  forceFormatting : Bool := false
  disableTimestamp : Bool := false
  disableUppercase : Bool := false
  fullTimestamp : Bool := false
  timestampFormat : String := ""
  disableSorting : Bool := false
  quoteEmptyFields : Bool := false
  quoteCharacter : String := ""
  spacePadding : Nat := 0
  /-- Already compiled. -/
  colorScheme : Option ColorScheme := none
  isTerminal : Bool := false
deriving DecidableEq, Repr

/-- The formatter of every logger of the operator (`GetLogger`). -/
def rootFormatter : TextFormatter :=
  { forceFormatting := true, fullTimestamp := true, forceColors := true }

/-- Spaces in front, `%5s`. -/
def padLeft (width : Nat) (s : String) : String :=
  .ofList (List.replicate (width - s.length) ' ') ++ s

/-- Spaces behind, `%-5s`. -/
def padRight (width : Nat) (s : String) : String :=
  s ++ .ofList (List.replicate (width - s.length) ' ')

/-- `%04d` of a number. -/
def padZeros (n : Nat) : String :=
  .ofList (List.replicate (4 - (toString n).length) '0') ++ toString n

namespace TextFormatter

def init (f : TextFormatter) (entry : Entry) : TextFormatter :=
  { f with
    quoteCharacter := if f.quoteCharacter = "" then "\"" else f.quoteCharacter
    isTerminal := entry.terminal.getD f.isTerminal }

def levelText (f : TextFormatter) (level : Level) : String :=
  let text := if level ≠ .warn then level.text else "warn"
  if f.disableUppercase then text else text.toUpper

/-- The painted prefix and the message that is left. -/
def splitMessage (colorCode : String → String) (entry : Entry)
    (colorScheme : ColorScheme) : Except Panic (String × String) :=
  let paint := fun found =>
    colorFunc colorCode colorScheme.prefixStyle (" " ++ found ++ ":")
  match entry.data.lookup "prefix" with
  | some (.string value) => .ok (paint value, entry.message)
  | some _ => .error .notAString
  | none =>
      match extractPrefix entry.message.toList with
      | .error panic => .error panic
      | .ok (found, trimmedMsg) =>
          if 0 < found.length then
            .ok (paint (.ofList found), .ofList trimmedMsg)
          else .ok ("", entry.message)

/-- `messageFormat` applied to the message. -/
def padMessage (f : TextFormatter) (message : String) : String :=
  if f.spacePadding ≠ 0 then padRight f.spacePadding message else message

/-- What is printed before the fields. -/
def printHead (f : TextFormatter) (colorCode : String → String)
    (entry : Entry) (timestampFormat : String) (colorScheme : ColorScheme)
    (prefixText message : String) : String :=
  let level := colorFunc colorCode (colorScheme.level entry.level)
    (padLeft 5 (f.levelText entry.level))
  if f.disableTimestamp then
    level ++ prefixText ++ " " ++ f.padMessage message
  else
    let timestamp :=
      if f.fullTimestamp then "[" ++ entry.time timestampFormat ++ "]"
      else "[" ++ padZeros entry.seconds ++ "]"
    colorFunc colorCode colorScheme.timestampStyle timestamp ++ " "
      ++ level ++ prefixText ++ " "

/-- One turn of the loop over the fields. -/
def printField (colorCode : String → String) (entry : Entry)
    (levelStyle : String) (b k : String) : String :=
  if k ≠ "prefix" then
    b ++ " " ++ k ++ "=" ++ colorFunc colorCode levelStyle
      ((entry.data.lookup k).elim "<nil>" FieldValue.text)
  else b

def printColored (f : TextFormatter) (colorCode : String → String)
    (b : String) (entry : Entry) (keys : List String)
    (timestampFormat : String) (colorScheme : ColorScheme) :
    Except Panic String :=
  match splitMessage colorCode entry colorScheme with
  | .error panic => .error panic
  | .ok (prefixText, message) =>
      let levelStyle := colorScheme.level entry.level
      let b := b ++ f.printHead colorCode entry timestampFormat colorScheme
        prefixText message
      let b := keys.foldl (printField colorCode entry levelStyle) b
      .ok (b ++ ":\t " ++ colorFunc colorCode levelStyle
        (f.padMessage message))

def needsQuoting (f : TextFormatter) (text : String) : Bool :=
  (f.quoteEmptyFields && text == "")
    || text.toList.any fun ch =>
      !(('a' ≤ ch && ch ≤ 'z') || ('A' ≤ ch && ch ≤ 'Z')
        || ('0' ≤ ch && ch ≤ '9') || ch == '-' || ch == '.')

def appendValue (f : TextFormatter) (b : String) (value : FieldValue) :
    String :=
  match value with
  | .string s | .error s =>
      if f.needsQuoting s then b ++ f.quoteCharacter ++ s ++ f.quoteCharacter
      else b ++ s
  | .other text => b ++ text

def appendKeyValue (f : TextFormatter) (b key : String) (value : FieldValue)
    (appendSpace : Bool) : String :=
  let b := f.appendValue (b ++ key ++ "=") value
  if appendSpace then b ++ " " else b

/-- The layout of an entry that is not formatted. -/
def printPlain (f : TextFormatter) (b : String) (entry : Entry)
    (keys : List String) (timestampFormat : String) : String :=
  let b :=
    if f.disableTimestamp then b
    else f.appendKeyValue b "time" (.string (entry.time timestampFormat)) true
  let b := f.appendKeyValue b "level" (.string entry.level.text) true
  let b := keys.zipIdx.foldl (fun b k => f.appendKeyValue b k.1
    ((entry.data.lookup k.1).getD (.other "<nil>"))
    (keys.length - 1 != k.2)) b
  if entry.message ≠ "" then
    f.appendKeyValue b "msg" (.string entry.message) (0 < keys.length)
  else b

end TextFormatter

/-- One of the fields that have another meaning in a line, under a second
name. -/
def copyField (data : GoMap String FieldValue) (name : String) :
    GoMap String FieldValue :=
  match data.lookup name with
  | none => data
  | some value => data.insert ("fields." ++ name) value

def prefixFieldClashes (data : GoMap String FieldValue) :
    GoMap String FieldValue :=
  ["time", "msg", "level"].foldl copyField data

/-- `Format`, into the buffer `b`. The keys are collected before the clashing
fields get their second name. -/
def TextFormatter.format (f : TextFormatter) (colorCode : String → String)
    (sorter : Sorter String id) (o : Order String) (b : String)
    (entry : Entry) : Except Panic String :=
  let keys := entry.data.range o
  let keys := if f.disableSorting then keys else sorter.sort keys
  let entry := { entry with data := prefixFieldClashes entry.data }
  let f := f.init entry
  let timestampFormat :=
    if f.timestampFormat = "" then "2006-01-02T15:04:05Z07:00"
    else f.timestampFormat
  let line :=
    if f.forceFormatting || f.isTerminal then
      let colorScheme :=
        if (f.forceColors || f.isTerminal) && !f.disableColors then
          f.colorScheme.getD (compileColorScheme defaultColorScheme)
        else noColorsColorScheme
      f.printColored colorCode b entry keys timestampFormat colorScheme
    else .ok (f.printPlain b entry keys timestampFormat)
  line.map (· ++ "\n")

end RssOperator
