import ActingCommand.Entry.Handlers

/-!
# The entry's events

The entry takes one event at a time: a line or the end of the client, a line or the exit
of a child, the answer of a plan, a tick. Between two events the host may change in any
way.
-/

namespace Entry

namespace Core

variable {η : Type} [Host η] [Printer] (parse : Bytes → Option Value)

/-! ## The client -/

variable (core : Core η)

def clientInfo (info : Value) : Core η :=
  let name := (info.get "name").bind Value.asStr
  if name.isSome ∧ core.handshake.clientName ≠ name then
    { core with
      handshake := { core.handshake with
        clientName := name
        clientVersion := (info.get "version").bind Value.asStr }
      dirty := true }
  else core

/-- `subscriptions/listen`: the entry owns the stream across children. -/
def listen (id : Value) (params : Option Value) : Core η :=
  let tools := (((params.bind (·.get "notifications")).bind (·.get "toolsListChanged")).bind
    Value.asBool).getD false
  let honoured := if tools then [("toolsListChanged", Value.bool true)] else []
  let core := { core with listens := core.listens.insert (keyOf id) (id, tools) }
  let core := core.sendClient (.object [("jsonrpc", .string "2.0"),
    ("method", .string "notifications/subscriptions/acknowledged"),
    ("params", .object [("_meta", .object [(metaSubscriptionId, id)]),
      ("notifications", .object honoured)])])
  { core with dirty := true }

def toolsListed : Core η :=
  match core.notice.filter fun notice => !notice.toolsListAfter with
  | none => core
  | some notice =>
    { core with
      notice := some { notice with toolsListAfter := true, toolsListAtUnixMs := some core.nowMs }
      dirty := true }

variable (number child : Nat) (line : Bytes) (name : String) (params : Option Value)

/-- The `_meta` of a 2026-07-28 message is kept to replay it. -/
def observeMeta : Core η :=
  match (params.bind (·.get "_meta")).filter fun modernMeta =>
      (modernMeta.get metaProtocolVersion).isSome with
  | none => core
  | some modernMeta =>
    let core := if core.handshake.modernMeta.any (Value.same · modernMeta) then core else
      { core with
        handshake := { core.handshake with modernMeta := some modernMeta }, dirty := true }
    match modernMeta.get metaClientInfo with
    | some info => core.clientInfo info
    | none => core

/-- What a request of the client changes besides being forwarded. -/
def observeRequest (key : String) (params : Option Value) : Core η :=
  if name = "initialize" then
    let core := { core with
      handshake := { core.handshake with initId := some key, initParams := params } }
    let core := match params.bind (·.get "clientInfo") with
      | some info => core.clientInfo info
      | none => core
    { core with dirty := true }
  else if name = "server/discover" then { core with discoverIds := core.discoverIds ++ [key] }
  else if name = "tools/list" then core.toolsListed
  else core

def isCall : Bool := name = "tools/call"

def calledTool : Option String :=
  if isCall name then (params.bind (·.get "name")).bind Value.asStr else none

/-- Notes what a client message changes: whether the line is forwarded, and the request the
message carries in the line of this number. -/
def observeClient (message : Value) : Bool × Requests × Core η :=
  if !message.isObject then (true, [], core)
  else
    let params := message.get "params"
    let core := core.observeMeta params
    match (message.get "method").bind Value.asStr, message.get "id" with
    | some name, some id =>
      if name = "subscriptions/listen" then (false, [], core.listen id params)
      else
        (true, [(keyOf id, ⟨id, isCall name, calledTool name params, number⟩)],
          core.observeRequest name (keyOf id) params)
    | some name, none =>
      if name = "notifications/cancelled" then
        match params.bind (·.get "requestId") with
        | none => (true, [], core)
        | some target =>
          let key := keyOf target
          if core.listens.contains key then
            (false, [], { core with listens := core.listens.erase key, dirty := true })
          -- A cancelled call gets no answer; the child's own count covers it until it ends.
          else (true, [], { core with inflight := core.inflight.erase key })
      else if name = "notifications/initialized" then
        (true, [], { core with
          handshake := { core.handshake with initialized := true }, dirty := true })
      else (true, [], core)
    | none, _ => (true, [], core)

/-- The messages of an array are noted in order and forwarded together. -/
def observeItems (core : Core η) (number : Nat) : List Value → Requests × Core η
  | [] => ([], core)
  | item :: rest =>
    let (_, requests, core) := core.observeClient number item
    let (later, core) := core.observeItems number rest
    (requests ++ later, core)

/-- What the client's line of this number changes before it is forwarded. -/
def observeLine : Bool × Requests × Core η :=
  match parse line with
  | some (.array items) => (true, core.observeItems number items)
  | some message => core.observeClient number message
  -- The child answers what it cannot parse.
  | none => (true, [], core)

def clientLine : Core η :=
  if core.closing then core
  else
    let number := (clientLines core.past).length
    let core := { core with past := core.past ++ [Record.received line] }
    match core.observeLine parse number line with
    | (true, requests, core) => (deliver startFresh core ⟨number, line, requests⟩).finishEvent
    | (false, _, core) => core.finishEvent

/-- A starting child is stopped without a word. -/
def stopCandidate : Core η :=
  match core.starting with
  | none => core
  | some starting => { core with starting := none }.stop starting.slot.id

def stopCurrent : Core η :=
  match core.current with
  | none => core
  | some current => core.stop current.id

def clientClosed : Core η :=
  ({ core with closing := true }.stopCandidate.stopCurrent).touched.finishEvent

/-! ## The children -/

/-- A line of the current child that is no answer to the entry's own requests. -/
def pipe : Core η :=
  match parse line with
  | some (.array items) => (items.foldl settle core).toClient line
  | some (.object object) =>
    match core.patchAnswer object with
    | (some patched, core) => (core.settle (.object patched)).sendClient (.object patched)
    | (none, core) => (core.settle (.object object)).toClient line
  | _ => core.toClient line

def childLine : Core η :=
  let core := { core with past := core.past ++ [Record.childLine child line] }
  match (parse line).bind fun message => (internalKey message).map fun key => (key, message) with
  | some (key, message) => (core.internalAnswer child key message).finishEvent
  | none =>
    if core.currentChild ≠ some child then
      (core.note s!"dropped a line of child {child}, which is not the current child").finishEvent
    else (core.pipe parse line).trySwitch.finishEvent

/-- The current child's session ends, and with it a candidate verified against it. -/
def endSession (old : Slot) : Core η :=
  let core := { core with
    current := none
    accepted := none
    planned := none
    pending := none
    statusQuery := none
    handlesClear := false
    deferred := none }.retire old core.nowMs .exited
  core.stopCandidate

/-- What the child had in flight is answered and never sent again. -/
def loseInflight : Core η :=
  let lost := core.inflight.toList.map Prod.snd
  let count := lost.length
  let core := { core with inflight := ∅ }
  let core := if lost.isEmpty then core else core.note
    (s!"child {child} ended with {count} request(s) in flight; their outcome is unknown and " ++
      "none is sent again")
  core.answerErrors lost .outcomeUnknown

def childExited : Core η :=
  if core.starting.any (·.slot.id = child) then (core.failStarting .exited).finishEvent
  else
    match core.current.filter (·.id = child) with
    | some old => ((core.endSession old).loseInflight child).touched.finishEvent
    | none => core.finishEvent

/-! ## Ticks and plans -/

def tick : Core η :=
  if core.closing then core
  else
    let now := core.nowMs
    let core := if core.starting.any fun starting =>
        starting.step ≠ .ready ∧ starting.deadlineMs ≤ now then
      core.failStarting .verifyTimeout else core
    let core := if core.statusQuery.any fun query => query.deadlineMs ≤ now then
      { core with statusQuery := none }.deferPlain .handlesUnknown now else core
    ((core.watch now).trySwitch).finishEvent

/-- Consecutive refusals double the wait before the next plan, up to a cap. -/
def planRefused (now : Nat) : Core η :=
  let core := core.deferPlain .planRefused now
  let base := max core.tunables.settleMs core.tunables.pollMs
  let factor := if core.planRefusals < 64 then 2 ^ core.planRefusals else Machine.u64Max
  let wait := min (min (base * factor) Machine.u64Max) core.tunables.refusedRetryMaxMs
  { core with
    planRefusals := min (core.planRefusals + 1) Machine.u32Max
    planRetryAt := Machine.saturatingAdd now wait
    dirty := true }.finishEvent

/-- The plan names the current child's build: no switch follows. -/
def acceptBuild (plan : Plan) (stamp : Stamp) (now : Nat) : Core η :=
  let differs := (core.current.bind (·.previousBuild)).any (· ≠ plan.build.commit)
  let core := { core with
    current := core.current.map fun slot : Slot =>
      { slot with build := some plan.build.commit, previousBuild := none }
    accepted := some stamp
    pending := none
    rejected := none }.clearDeferralWithoutPlan
  if differs then core.sendNotices now else core

/-- The plan answered: it no longer defers the switch. -/
def clearPlanDeferral : Core η :=
  if core.deferred.any fun deferral =>
      deferral.kind = .planRefused ∨ deferral.kind = .installBusy then
    { core with deferred := none } else core

def planAnswered (run : PlanRun) (plan : Plan) (now : Nat) : Core η :=
  let core := { core with tunables := plan.tunables, planRefusals := 0 }.clearPlanDeferral
  -- The install changed under the child: the plan's build is one it may not run.
  let changedUnderChild := run.initial && core.current.any (·.spawnStamp ≠ run.stamp)
  if (plan.switch && !run.initial) || changedUnderChild then
    { core with planned := some ⟨plan.build, plan.exe, run.stamp⟩ }.trySwitch.finishEvent
  else (core.acceptBuild plan run.stamp now).finishEvent

def planDone (ended : PlanEnd) : Core η :=
  match core.planRunning with
  | none => core
  | some run =>
    let core := { core with planRunning := none }
    let now := core.nowMs
    match ended with
    | .failed failure =>
      let shown := failure.toString
      let core := core.note s!"mcp-entry plan did not answer: {shown}"
      { core with lastPlan := some ⟨now, none, none, failure⟩ }.planRefused now
    | .answered answer =>
      let plan := parsePlan answer
      let core := { core with
        lastPlan := some ⟨now, plan.map Plan.switch, plan.map Plan.build,
          (answer.get "outcome").getD .null⟩
        dirty := true }
      match plan with
      | some plan => core.planAnswered run plan now
      | none =>
        let shown := answer.toString
        let core := core.note s!"mcp-entry plan refused: {shown}"
        { core with tunables := (parseTunables answer).getD core.tunables }.planRefused now

/-! ## Runs -/

/-- Starts the first child and asks the plan which build it is. -/
def start : Core η :=
  let core := core.startFresh
  (core.watch core.nowMs).finishEvent

end Core

inductive Event
  | clientLine (line : Bytes)
  | clientClosed
  | childLine (child : Nat) (line : Bytes)
  | childExited (child : Nat)
  | planDone (ended : PlanEnd)
  | tick

def Core.step {η : Type} [Host η] [Printer] (parse : Bytes → Option Value) (core : Core η) :
    Event → Core η
  | .clientLine line => core.clientLine parse line
  | .clientClosed => core.clientClosed
  | .childLine child line => core.childLine parse child line
  | .childExited child => core.childExited child
  | .planDone ended => core.planDone ended
  | .tick => core.tick

/-- The cores that some sequence of events leads to. -/
inductive Core.Reached {η : Type} [Host η] [Printer] (parse : Bytes → Option Value) :
    Core η → Prop
  | start (host : η) (config : EntryConfig) : Reached parse (Core.new host config).start
  | event {core : Core η} (reached : Reached parse core) (host : η) (event : Event) :
    Reached parse ({ core with host }.step parse event)

end Entry
