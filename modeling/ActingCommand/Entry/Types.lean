import ActingCommand.Machine

/-!
# The types of the MCP entry

The entry pipes JSON-RPC lines between one client and one current child. A line is its
bytes; what `serde_json` reads from them is a value. The reader is a parameter of the handlers
that use it, and so is the text a value is printed as. Times are milliseconds, and a child is the
number the entry gave it.
-/

namespace Entry

abbrev Bytes := List UInt8

/-! ## JSON values -/

/-- A number of a value; a float is its printed text. -/
inductive Number
  | posInt (value : Nat)
  | negInt (value : Int)
  | float (text : String)
deriving DecidableEq

inductive Value
  | null
  | bool (value : Bool)
  | number (value : Number)
  | string (value : String)
  | array (items : List Value)
  | object (members : List (String × Value))

abbrev Members := List (String × Value)

namespace Value

def get (name : String) : Value → Option Value
  | object members => members.lookup name
  | _ => none

def asStr : Value → Option String
  | string value => some value
  | _ => none

def asBool : Value → Option Bool
  | bool value => some value
  | _ => none

def asU64 : Value → Option Nat
  | number (.posInt value) => some value
  | _ => none

def asI64 : Value → Option Int
  | number (.posInt value) => if (value : Int) ≤ Machine.i64Max then some value else none
  | number (.negInt value) => some value
  | _ => none

def asArray : Value → Option (List Value)
  | array items => some items
  | _ => none

def isObject : Value → Bool
  | object _ => true
  | _ => false

def isArray : Value → Bool
  | array _ => true
  | _ => false

mutual

/-- Equality of values; the order of members does not count. -/
def same : Value → Value → Bool
  | null, null => true
  | bool a, bool b => a == b
  | number a, number b => a == b
  | string a, string b => a == b
  | array a, array b => sameItems a b
  | object a, object b => a.length == b.length && sameMembers a b
  | _, _ => false

def sameItems : List Value → List Value → Bool
  | [], [] => true
  | a :: as, b :: bs => same a b && sameItems as bs
  | _, _ => false

def sameMembers : Members → Members → Bool
  | [], _ => true
  | (name, value) :: rest, other =>
    (match other.lookup name with
      | some held => same value held
      | none => false) && sameMembers rest other

end

/-- `Map::insert`: in its place if the member is there, last otherwise. -/
def setMember (name : String) (value : Value) : Members → Members
  | [] => [(name, value)]
  | (other, held) :: rest =>
    if other = name then (name, value) :: rest else (other, held) :: setMember name value rest

end Value

/-- How `serde_json` prints a value. -/
class Printer where
  print : Value → String

def Value.toString [Printer] : Value → String := Printer.print

/-! ## The install and the plan -/

structure Tunables where
  pollMs : Nat
  settleMs : Nat
  verifyTimeoutMs : Nat
  drainMaxMs : Nat
  refusedRetryMaxMs : Nat

/-- What serves until the first plan answers. -/
def Tunables.first : Tunables := ⟨2000, 10000, 60000, 600000, 300000⟩

/-- Size and modification time of the watched files, none while a file is missing. -/
structure Stamp where
  files : List (Option (Nat × Nat))
deriving DecidableEq

structure Build where
  commit : String
  manifestSha256 : String

structure Plan where
  switch : Bool
  build : Build
  exe : String
  tunables : Tunables

structure Planned where
  build : Build
  exe : String
  stamp : Stamp

structure PlanRun where
  stamp : Stamp
  initial : Bool

/-- How a plan run ended: the plan's printed answer, or the failure to get one. -/
inductive PlanEnd
  | answered (answer : Value)
  | failed (failure : Value)

def entryProtocol : Nat := 1

def Build.ofValue : Value → Option Build
  | .array [commit, manifestSha256] => do pure ⟨← commit.asStr, ← manifestSha256.asStr⟩
  | value => do
    pure ⟨← (← value.get "commit").asStr, ← (← value.get "manifest_sha256").asStr⟩

def Tunables.ofValue : Value → Option Tunables
  | .array [pollMs, settleMs, verifyTimeoutMs, drainMaxMs, refusedRetryMaxMs] => do
    pure ⟨← pollMs.asU64, ← settleMs.asU64, ← verifyTimeoutMs.asU64, ← drainMaxMs.asU64,
      ← refusedRetryMaxMs.asU64⟩
  | value => do
    pure ⟨← (← value.get "poll_ms").asU64, ← (← value.get "settle_ms").asU64,
      ← (← value.get "verify_timeout_ms").asU64, ← (← value.get "drain_max_ms").asU64,
      ← (← value.get "refused_retry_max_ms").asU64⟩

def parseTunables (answer : Value) : Option Tunables := do
  Tunables.ofValue (← answer.get "tunables")

def parsePlan (answer : Value) : Option Plan := do
  guard ((← (← answer.get "entry_protocol").asU64) = entryProtocol)
  let switch ← (← answer.get "switch").asBool
  let build ← Build.ofValue (← answer.get "build")
  let exe ← (← (← (← answer.get "child").asArray).head?).asStr
  let tunables ← parseTunables answer
  pure ⟨switch, build, exe, tunables⟩

/-! ## Children -/

structure Slot where
  id : Nat
  pid : Nat
  build : Option String
  sinceMs : Nat
  /-- The `tools/call` requests forwarded to it. -/
  calls : Nat
  /-- The install's stamp when it was started. -/
  spawnStamp : Stamp
  /-- A fresh child's predecessor's build, until the first plan. -/
  previousBuild : Option String

/-- A candidate refused for one stamp. -/
structure Rejected where
  stamp : Stamp
  atMs : Nat
  retried : Bool

/-- The open `actingcommand/entryStatus` query and the current child's calls when it was sent. -/
structure StatusQuery where
  key : String
  deadlineMs : Nat
  calls : Nat

inductive Purpose
  | switch
  | fresh
deriving DecidableEq

/-- The steps of a starting child; `init` is the legacy handshake. -/
inductive Step
  | init
  | discover
  | toolsList
  | ready
deriving DecidableEq

structure Starting where
  slot : Slot
  purpose : Purpose
  step : Step
  request : Option String
  deadlineMs : Nat

/-- A client request on its way; `line` is the number of the client line that carries it. -/
structure Pending where
  id : Value
  call : Bool
  tool : Option String
  line : Nat

/-- The requests of a line, each under the text of its id. -/
abbrev Requests := List (String × Pending)

/-- A client line on its way to a child, by its number among the lines of the client. -/
structure Held where
  number : Nat
  line : Bytes
  requests : Requests

structure Handshake where
  initId : Option String
  initParams : Option Value
  initialized : Bool
  negotiated : Option String
  modernMeta : Option Value
  clientName : Option String
  clientVersion : Option String

def Handshake.default : Handshake := ⟨none, none, false, none, none, none, none⟩

inductive Ended
  | switched
  | exited

structure PastChild where
  pid : Nat
  build : Option String
  sinceUnixMs : Nat
  untilUnixMs : Nat
  ended : Ended

structure SwitchRecord where
  atUnixMs : Nat
  fromPid : Nat
  fromBuild : Option String
  toPid : Nat
  toBuild : Option String

inductive DeferKind
  | handles
  | handlesUnknown
  | callsInFlight
  | installBusy
  | planRefused
deriving DecidableEq

structure Deferral where
  kind : DeferKind
  sinceUnixMs : Nat
  outstandingHandles : Option Nat
  handleKinds : List String
  handles : List String
  pastDrainMax : Bool
deriving DecidableEq

inductive CandidateProblem
  | startFailed
  | initializeFailed
  | protocolVersionChanged
  | toolsListFailed
  | verifyTimeout
  | exited

def CandidateProblem.debug : CandidateProblem → String
  | startFailed => "StartFailed"
  | initializeFailed => "InitializeFailed"
  | protocolVersionChanged => "ProtocolVersionChanged"
  | toolsListFailed => "ToolsListFailed"
  | verifyTimeout => "VerifyTimeout"
  | exited => "Exited"

structure CandidateFailure where
  atUnixMs : Nat
  purpose : Purpose
  pid : Option Nat
  build : Option String
  problem : CandidateProblem

structure PlanRecord where
  atUnixMs : Nat
  switch : Option Bool
  build : Option Build
  outcome : Value

structure Notice where
  sentAtUnixMs : Nat
  legacy : Bool
  listenSubscriptions : Nat
  toolsListAfter : Bool
  toolsListAtUnixMs : Option Nat

/-- The codes of the answers the entry gives itself. -/
inductive EntryCode
  | outcomeUnknown
  | childUnavailable
deriving DecidableEq

def EntryCode.asStr : EntryCode → String
  | outcomeUnknown => "mcp_entry_outcome_unknown"
  | childUnavailable => "mcp_entry_child_unavailable"

structure EntryConfig where
  /-- The child before any plan names one. -/
  defaultExe : String
  /-- Passed to every child unchanged. -/
  childArgs : List String
  /-- The contract's outcome envelope of a code, for a tool where the request named one. -/
  envelope : EntryCode → Option String → Value

/-! ## Messages -/

def internalStart : String := "actingcommand-entry:"
def entryStatusMethod : String := "actingcommand/entryStatus"
def metaProtocolVersion : String := "io.modelcontextprotocol/protocolVersion"
def metaClientInfo : String := "io.modelcontextprotocol/clientInfo"
def metaSubscriptionId : String := "io.modelcontextprotocol/subscriptionId"
def modernVersion : String := "2026-07-28"
def probeVersion : String := "2025-11-25"
def methodNotFound : Int := -32601
def historyLimit : Nat := 8

variable [Printer]

def keyOf (id : Value) : String := id.toString

/-- The id of an answer to one of the entry's own requests. -/
def internalKey (message : Value) : Option String :=
  match message.get "method" with
  | some _ => none
  | none => (message.get "id").bind Value.asStr |>.filter fun id =>
      internalStart.toList.isPrefixOf id.toList

/-- A line the entry writes to a child. -/
inductive Line
  | client (number : Nat) (line : Bytes)
  | request (key method : String) (params : Value)
  | initialized

def utf8 (text : String) : Bytes := text.toUTF8.toList

def Line.bytes : Line → Bytes
  | client _ line => line
  | request key method params =>
    utf8 (Value.object [("jsonrpc", .string "2.0"), ("id", .string key),
      ("method", .string method), ("params", params)]).toString
  | initialized =>
    utf8 (Value.object [("jsonrpc", .string "2.0"),
      ("method", .string "notifications/initialized")]).toString

end Entry
