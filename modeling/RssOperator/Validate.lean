/-
What the controller checks and fills in before it hands a resource on:
`Validate` and `Cleanup` (`pkg/apis/clusterlabs/v1alpha1`).

# Errors and faults

A resource that is not well formed is an error, and the text says what is
wrong with it. `Validate` can also end the process: a policy with an
operator secret and no member secrets makes it read through a nil pointer.
Faults are kept apart from errors.

# Order

The labels are looked at in the order of a `range` over a map, so which
reserved label is named depends on it. Whether there is one does not.
-/
import RssOperator.Api

namespace RssOperator

/-- What ends the process. -/
inductive Fault where
  /-- A read through a nil pointer. -/
  | nilPointer
  /-- A second `close` of a channel. -/
  | closeOfClosedChannel
  /-- A notification about something that is not a resource. -/
  | unknownObject
deriving DecidableEq, Repr

-- ============================================================= Validate

/-- What is wrong with a resource, one constructor a text. -/
inductive ValidateErr where
  | serverSecretUnset
  | operatorSecretUnset
  | noCommands
  | noCommand (key : CommandKey)
  | reservedLabel (key value : String)
  | reservedValue (key value : String)
  | noContainers (name : String)
  | noImage (position : Nat) (name : String)
deriving DecidableEq, Repr

def ValidateErr.text : ValidateErr → String
  | serverSecretUnset =>
      "operator secret set but member serverSecret not set"
  | operatorSecretUnset =>
      "member serverSecret set but operator secret not set"
  | noCommands => "Validate: no cluster commands specified"
  | noCommand key => "Validate: no " ++ key.text ++ " command specified"
  | reservedLabel key value =>
      "Validate: definition contains reserved label: " ++ key ++ "="
        ++ value
  | reservedValue key value =>
      "Validate: definition contains reserved value: " ++ key ++ "="
        ++ value
  | noContainers name => "Validate: No containers configured for: " ++ name
  | noImage position name =>
      "Validate: No image configured for container[" ++ toString position
        ++ "]: " ++ name

/-- `tp.Validate()` of a TLS policy. -/
def TLSPolicy.validate (tp : TLSPolicy) :
    Except Fault (Option ValidateErr) :=
  match tp.static with
  | none => .ok none
  | some st =>
      if st.operatorSecret ≠ "" then
        match st.member with
        | none => .error .nilPointer
        | some m =>
            .ok (if m.serverSecret = "" then some .serverSecretUnset
              else none)
      else
        match st.member with
        | none => .ok none
        | some m =>
            .ok (if m.serverSecret ≠ "" then some .operatorSecretUnset
              else none)

/-- The commands a resource has to have, in the order they are asked
for. -/
def requiredCommands : List CommandKey :=
  [.sequence, .status, .stop, .primary]

/-- What is wrong with a label. -/
def reservedErr (key value : String) : Option ValidateErr :=
  if key = "app" then some (.reservedLabel key value)
  else if "rss".toList.isPrefixOf key.toList then
    some (.reservedValue key value)
  else none

namespace ReplicatedStatefulSet

def commandErr (rss : ReplicatedStatefulSet) : Option ValidateErr :=
  if !rss.spec.hasCommands then some .noCommands
  else (requiredCommands.find? fun key =>
    (rss.spec.commands key).isNone).map .noCommand

def labelErr (o : Order String) (rss : ReplicatedStatefulSet) :
    Option ValidateErr :=
  (rss.labels.rangeEntries o).findSome? fun e => reservedErr e.1 e.2

def containerErr (rss : ReplicatedStatefulSet) : Option ValidateErr :=
  if rss.spec.containers.length < 1 then some (.noContainers rss.name)
  else (rss.spec.containers.zipIdx.find? fun c => c.1.image == "").map
    fun c => .noImage c.2 c.1.name

/-- `rss.Validate()`, with the labels in the order `o`. -/
def validate (o : Order String) (rss : ReplicatedStatefulSet) :
    Except Fault (Option ValidateErr) :=
  let rest := rss.commandErr.or ((rss.labelErr o).or rss.containerErr)
  match rss.spec.tls with
  | none => .ok rest
  | some tp => tp.validate.map fun err => err.or rest

end ReplicatedStatefulSet

-- ============================================================== Cleanup

/-- The requests with a default for the memory. -/
def defaultMemory (requests : GoMap String String) : GoMap String String :=
  match requests.lookup "memory" with
  | some _ => requests
  | none => requests.insert "memory" "2M"

/-- `c.Cleanup()`. -/
def ClusterSpec.cleanup (c : ClusterSpec) : ClusterSpec :=
  { c with requests := some (defaultMemory (c.requests.getD ∅)) }

/-- The resource after its spec has been cleaned up, in place. -/
def ReplicatedStatefulSet.cleaned (rss : ReplicatedStatefulSet) :
    ReplicatedStatefulSet :=
  { rss with spec := rss.spec.cleanup }

end RssOperator
