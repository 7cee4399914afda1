import ActingCommand.Entry.Types

/-!
# The entry's core

The core is driven by events and acts through its host, whose answers are arbitrary. Every
handler is a function of the core. `past` is not in the program: it records in order the lines
taken from the client and the children, the lines written to children, the answers the entry
gave itself and the replacements of the current child.
-/

namespace Entry

/-- What the host does for the core. -/
class Host (η : Type) where
  nowMs : η → Nat
  stamp : η → Stamp
  busy : η → Bool × η
  spawn : η → Nat → List String → Except String Nat × η
  send : η → Nat → Bytes → Bool × η
  stop : η → Nat → η
  startPlan : η → Option String → Nat → η
  toClient : η → Bytes → η
  writeStatus : η → η
  note : η → String → η

inductive Record
  /-- A line the client sent, taken while the client is open. -/
  | received (line : Bytes)
  | childLine (child : Nat) (line : Bytes)
  /-- A write to a child and whether it reported success. -/
  | sent (child : Nat) (line : Line) (written : Bool)
  /-- A request the entry answered itself. -/
  | answered (pending : Pending) (code : EntryCode)
  /-- A candidate replaced the current child, with the requests then in flight. -/
  | switched (old new : Slot) (inflight : List String)

/-- The lines taken from the client, in order. -/
def clientLines (past : List Record) : List Bytes :=
  past.filterMap fun
    | .received line => some line
    | _ => none

structure Core (η : Type) where
  host : η
  config : EntryConfig
  tunables : Tunables
  nextChild : Nat
  seq : Nat
  current : Option Slot
  starting : Option Starting
  /-- The stamp the current child's build stands for, once a plan named it. -/
  accepted : Option Stamp
  pending : Option (Stamp × Nat)
  rejected : Option Rejected
  planRunning : Option PlanRun
  planRetryAt : Nat
  planRefusals : Nat
  planned : Option Planned
  handlesClear : Bool
  statusQuery : Option StatusQuery
  handshake : Handshake
  inflight : Std.ExtTreeMap String Pending
  discoverIds : List String
  /-- Open `subscriptions/listen` requests, and whether each asked for tool changes. -/
  listens : Std.ExtTreeMap String (Value × Bool)
  held : List Held
  history : List PastChild
  lastSwitch : Option SwitchRecord
  deferred : Option Deferral
  failure : Option CandidateFailure
  lastPlan : Option PlanRecord
  notice : Option Notice
  closing : Bool
  dirty : Bool
  past : List Record

namespace Core

variable {η : Type} [Host η] [Printer]

def new (host : η) (config : EntryConfig) : Core η where
  host := host
  config := config
  tunables := .first
  nextChild := 0
  seq := 0
  current := none
  starting := none
  accepted := none
  pending := none
  rejected := none
  planRunning := none
  planRetryAt := 0
  planRefusals := 0
  planned := none
  handlesClear := false
  statusQuery := none
  handshake := .default
  inflight := ∅
  discoverIds := []
  listens := ∅
  held := []
  history := []
  lastSwitch := none
  deferred := none
  failure := none
  lastPlan := none
  notice := none
  closing := false
  dirty := true
  past := []

variable (core : Core η)

def nowMs : Nat := Host.nowMs core.host

def stamp : Stamp := Host.stamp core.host

def note (text : String) : Core η := { core with host := Host.note core.host text }

variable (kind : DeferKind) (now child : Nat)

def stop : Core η := { core with host := Host.stop core.host child }

def toClient (line : Bytes) : Core η :=
  { core with host := Host.toClient core.host line }

def sendClient (message : Value) : Core η := core.toClient (utf8 message.toString)

def send (line : Line) : Bool × Core η :=
  let (written, host) := Host.send core.host child line.bytes
  (written, { core with host, past := core.past ++ [.sent child line written] })

/-- The status no longer shows the core. -/
def touched : Core η := { core with dirty := true }

def currentChild : Option Nat := core.current.map (·.id)

/-! ## Answers, deferrals and notices -/

def answerError (pending : Pending) (code : EntryCode) : Core η :=
  let data := ("outcome", core.config.envelope code pending.tool) ::
    (if code = .outcomeUnknown then
      [("inspect_with", Value.array [.string "ac_get_run", .string "ac_overview"])] else [])
  let error := Value.object [("code", .number (.negInt (-32000))),
    ("message", .string code.asStr), ("data", .object data)]
  let core := core.sendClient
    (.object [("jsonrpc", .string "2.0"), ("id", pending.id), ("error", error)])
  { core with past := core.past ++ [.answered pending code] }

def answerErrors (requests : List Pending) (code : EntryCode) : Core η :=
  requests.foldl (fun core pending => core.answerError pending code) core

def defer (outstanding : Option Nat) (kinds handles : List String) (now : Nat) : Core η :=
  let since := match core.deferred with
    | some deferral => if deferral.kind = kind then deferral.sinceUnixMs else now
    | none => now
  let past := decide (kind = .handles ∧ core.tunables.drainMaxMs < now - since)
  let newlyPast := past && !core.deferred.any (·.pastDrainMax)
  let deferral : Deferral := ⟨kind, since, outstanding, kinds, handles, past⟩
  let core := if core.deferred ≠ some deferral then
    { core with deferred := some deferral, dirty := true } else core
  if newlyPast then
    core.note ("the switch has waited past install.mcp_entry.drain_max_ms for outstanding " ++
      "handles; it keeps waiting and never cuts them")
  else core

/-- A deferral of no handles. -/
def deferPlain : Core η :=
  core.defer kind none [] [] now

def toolListChanged (params : List (String × Value)) : Value :=
  .object ([("jsonrpc", .string "2.0"), ("method", .string "notifications/tools/list_changed")] ++
    params)

/-- The change notice of each generation the client speaks. -/
def sendNotices : Core η :=
  let legacy := core.handshake.initParams.isSome && core.handshake.initialized
  let core := if legacy then core.sendClient (toolListChanged []) else core
  let subscriptions := core.listens.toList.filterMap fun (_, id, tools) =>
    if tools then some id else none
  let core := subscriptions.foldl (fun core id => core.sendClient (toolListChanged
    [("params", .object [("_meta", .object [(metaSubscriptionId, id)])])])) core
  { core with notice := some ⟨now, legacy, subscriptions.length, false, none⟩ }

def retire (old : Slot) (now : Nat) (ended : Ended) : Core η :=
  { core with
    history := (⟨old.pid, old.build, old.sinceMs, now, ended⟩ :: core.history).take historyLimit }

/-- The id of the entry's next request of its own. -/
def nextKey : String :=
  let seq := core.seq + 1
  s!"{internalStart}{seq}"

def internalRequest (method : String) (params : Value) : Option String × Core η :=
  let key := core.nextKey
  match { core with seq := core.seq + 1 }.send child (.request key method params) with
  | (true, core) => (some key, core)
  | (false, core) => (none, core)

/-- The status document follows every change; its content is read by nobody here. -/
def finishEvent : Core η :=
  if core.dirty then { core with dirty := false, host := Host.writeStatus core.host } else core

end Core

end Entry
