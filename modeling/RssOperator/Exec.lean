/-
Running a command in a pod: `ExecWithOptions`
(`pkg/util/k8sutil/exec_util.go`), the decoding of its error into an
exit code and the numbers read from a command's output
(`pkg/cluster/exec.go`, `strconv`).

# Answers

Everything the API server and the remote executor may do to one call is
an `ExecAnswer`: whether a client configuration could be loaded, what
the lookup of the pod returned, whether an executor could be created and
how the stream ended. `execWithOptions` is then a function, with the
early returns of the source in their order.

The one assumption about the executor is in the type: `Stream` returns
nil exactly if the command ended with exit code 0
(`StreamEnd.exitedZero`), and an error with some text otherwise.

# Text

Go strings are read as lists of characters where their content matters.
A timeout only configures the transport; how it is read is in `Duration`.
How the output gets from the executor to the caller is in `Capture`.
-/
import RssOperator.Api

namespace RssOperator

-- ============================================================= strconv

def isDigit (c : Char) : Bool := '0' ≤ c && c ≤ '9'

def digitVal (c : Char) : Nat := c.toNat - '0'.toNat

/-- The value of a string of digits; `none` is a syntax error. -/
def digitsVal (s : List Char) : Option Nat :=
  if s.isEmpty || !s.all isDigit then none
  else some (s.foldl (fun n c => n * 10 + digitVal c) 0)

/-- `ErrSyntax` and `ErrRange` of `strconv`. -/
inductive NumError where
  | malformed
  | outOfRange
deriving DecidableEq, Repr

/-- The loop of `strconv.ParseUint`, from the number read so far. It ends at
the first character that is no digit, and at the first digit that takes the
number beyond 64 bits: what is behind that is not looked at. -/
def parseUintLoop : Nat → List Char → Nat × Option NumError
  | n, [] => (n, none)
  | n, c :: s =>
      if !isDigit c then (0, some .malformed)
      else if 2 ^ 64 ≤ n * 10 + digitVal c then
        (2 ^ 64 - 1, some .outOfRange)
      else parseUintLoop (n * 10 + digitVal c) s

/-- `strconv.ParseUint(s, 10, 64)`: the value comes with the error, zero
on a syntax error and the largest value on a range error. -/
def parseUint (s : List Char) : Nat × Option NumError :=
  if s.isEmpty then (0, some .malformed) else parseUintLoop 0 s

/-- The same, with whether there is no error. -/
def parseUint64 (s : List Char) : Nat × Bool :=
  ((parseUint s).1, (parseUint s).2.isNone)

/-- `strconv.ParseInt(s, 10, 32)`, `none` on any error. -/
def parseInt32 (s : List Char) : Option Int :=
  let (neg, digits) :=
    match s with
    | '+' :: r => (false, r)
    | '-' :: r => (true, r)
    | r => (false, r)
  match digitsVal digits with
  | none => none
  | some n =>
      if neg then
        if n ≤ 2 ^ 31 then some (-n) else none
      else
        if n < 2 ^ 31 then some n else none

/-- `unicode.IsSpace`. -/
def isSpace (c : Char) : Bool :=
  [0x09, 0x0a, 0x0b, 0x0c, 0x0d, 0x20, 0x85, 0xa0, 0x1680, 0x2028, 0x2029,
    0x202f, 0x205f, 0x3000].contains c.toNat
    || (0x2000 ≤ c.toNat && c.toNat ≤ 0x200a)

/-- `strings.TrimSpace`. -/
def trimSpace (s : List Char) : List Char :=
  ((s.dropWhile isSpace).reverse.dropWhile isSpace).reverse

-- ========================================================== exit codes

/-- What follows the first occurrence of `search`. -/
def afterFirst (search : List Char) : List Char → Option (List Char)
  | [] => if search.isEmpty then some [] else none
  | c :: s =>
      if search.isPrefixOf (c :: s) then some ((c :: s).drop search.length)
      else afterFirst search s

/-- The exit code in the text of an error; 0 is for no error at all. -/
def parseExitCode (err : Option String) : Int :=
  match err with
  | none => 0
  | some str =>
      match afterFirst "command terminated with exit code ".toList
          str.toList with
      | none => 1
      | some sub => (parseInt32 sub).getD 1

-- ===================================================== ExecWithOptions

/-- How `Stream` ended. -/
inductive StreamEnd where
  /-- The command ran and ended with exit code 0. -/
  | exitedZero
  /-- Anything else, with the text of the error. -/
  | failed (text : String)
deriving DecidableEq, Repr

def StreamEnd.err : StreamEnd → Option String
  | exitedZero => none
  | failed text => some text

/-- What the cluster answers to one call of `ExecWithOptions`. -/
structure ExecAnswer where
  /-- The error of `setupContext`. -/
  setup : Option String
  /-- The pod's containers, or the error of the lookup. -/
  pod : Except String (List String)
  /-- The error of `NewSPDYExecutor`. -/
  executor : Option String
  stdout : String
  stderr : String
  stream : StreamEnd

/-- Output and error of one call. -/
structure ExecResult where
  stdout : String
  stderr : String
  err : Option String
deriving DecidableEq, Repr

/-- `execute` of `exec_util.go`: create the executor, then stream. -/
def streamCommand (a : ExecAnswer) : ExecResult :=
  match a.executor with
  | some err => ⟨"", "", some err⟩
  | none => ⟨a.stdout, a.stderr, a.stream.err⟩

/-- `ExecWithOptions`. Without a container name the first container of
the pod is used, and a pod that cannot be read, or has none, makes the
call return with a nil error. -/
def execWithOptions (containerName : String) (a : ExecAnswer) :
    ExecResult :=
  match a.setup with
  | some err => ⟨"", "", some err⟩
  | none =>
      if containerName = "" then
        match a.pod with
        | .error _ => ⟨"", "", none⟩
        | .ok [] => ⟨"", "", none⟩
        | .ok (_ :: _) => streamCommand a
      else streamCommand a

namespace ExecAnswer

/-- The lookup of the pod found a container to run in. -/
def findsContainer (a : ExecAnswer) : Bool :=
  match a.pod with
  | .ok (_ :: _) => true
  | _ => false

/-- The command reached a container of the pod. -/
def streamed (a : ExecAnswer) : Bool :=
  a.setup.isNone && a.findsContainer && a.executor.isNone

/-- The error of a call that leaves the container to be detected, as
every call of the operator does. -/
def err (a : ExecAnswer) : Option String := (execWithOptions "" a).err

/-- The exit code the operator reads from it. -/
def rc (a : ExecAnswer) : Int := parseExitCode a.err

/-- The call is taken for a success. -/
def succeeds (a : ExecAnswer) : Bool := a.err.isNone

theorem rc_of_succeeds {a : ExecAnswer} (h : a.succeeds = true) :
    a.rc = 0 := by
  unfold rc
  rw [Option.isNone_iff_eq_none.mp h]
  rfl

end ExecAnswer

end RssOperator
