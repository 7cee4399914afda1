import ActingCommand.Entry.Core

/-!
# The entry's handlers

The handlers call each other in circles: a delivery without a child starts one, a child
that needs no handshake is ready at once, and a ready child gets the held lines delivered.
Each circle is cut where the inner call cannot come back: the call is a parameter of the
function that makes it. A child that takes over takes every held line itself, a fresh child does
not try to switch, and a candidate is not ready at once.
-/

namespace Entry

open Value

namespace Core

variable {η : Type} [Host η] [Printer]

/-! ## Plans -/

variable (core : Core η) (starting : Starting) (message : Value)

/-- The install changed while a planned switch waited: it is planned again. -/
def dropStalePlan : Core η :=
  match core.planned with
  | none => core
  | some _ =>
    { core with planned := none, dirty := true }.note
      ("the install changed while a planned switch waited; it is planned again once the " ++
        "change settles")

/-- No switch is planned and none follows: a deferral that a dropped plan left is cleared. -/
def clearDeferralWithoutPlan : Core η :=
  if core.planned.isNone ∧ core.deferred.isSome then
    { core with deferred := none, dirty := true } else core

/-- The planned switch's candidate failed: its stamp is rejected. -/
def rejectPlanned : Core η :=
  match core.planned with
  | none => core
  | some planned =>
    let retried := core.rejected.any fun rejected =>
      rejected.stamp = planned.stamp && rejected.retried
    { core with
      planned := none
      rejected := some ⟨planned.stamp, core.nowMs, retried⟩ }

variable (problem : CandidateProblem) (stamp : Stamp) (now : Nat) (current : Slot) (held : Held)

/-- Asks the plan, never while an install operation is under way; true when it runs. -/
def runPlan (current : Option String) (now : Nat) : Bool × Core η :=
  if now < core.planRetryAt then (false, core)
  else
    let (busy, host) := Host.busy core.host
    let core := { core with host }
    if busy then (false, core.deferPlain .installBusy now)
    else
      (true, { core with
        planRunning := some ⟨stamp, current.isNone⟩
        host := Host.startPlan core.host current core.tunables.verifyTimeoutMs
        dirty := true })

/-- A change that waits to settle is forgotten. -/
def forgetPending : Core η :=
  match core.pending with
  | none => core
  | some _ => { core with pending := none, dirty := true }

/-- A refused candidate's stamp is planned once more after `settle_ms`. -/
def watchRejected (rejected : Rejected) (stamp : Stamp) (now : Nat) : Core η :=
  let due := !rejected.retried && decide (core.tunables.settleMs ≤ now - rejected.atMs)
  let core := core.forgetPending
  if due then
    let (runs, core) := core.runPlan stamp (core.current.bind (·.build)) now
    if runs then { core with rejected := core.rejected.map ({ · with retried := true }) } else core
  else core

/-- The install is at a stamp that is not the current build's: it is planned once it settles. -/
def watchChanged : Core η :=
  match core.pending.filter fun pending => pending.1 = stamp with
  | none => { core with pending := some (stamp, now), dirty := true }
  | some (_, since) =>
    if core.tunables.settleMs ≤ now - since then
      (core.runPlan stamp (core.current.bind (·.build)) now).2
    else core

/-- What the watched stamp calls for while no plan waits for it. -/
def watchStamp : Core η :=
  match core.rejected.filter fun rejected => rejected.stamp = stamp with
  | some rejected => core.watchRejected rejected stamp now
  | none =>
    match core.accepted with
    -- The current child's build is not known yet: the plan names it.
    | none => (core.runPlan stamp none now).2
    | some accepted =>
      if accepted = stamp then core.forgetPending.clearDeferralWithoutPlan
      else core.watchChanged stamp now

def watch : Core η :=
  if core.current.isNone ∨ core.planRunning.isSome ∨ core.starting.isSome then core
  else
    match core.planned with
    | some planned =>
      if planned.stamp = core.stamp then core
      else core.dropStalePlan.watchStamp core.stamp now
    | none => core.watchStamp core.stamp now

/-! ## Starting and failing -/

def modernOnly : Bool :=
  core.handshake.initParams.isNone && core.handshake.modernMeta.isSome

def modernParams : Value :=
  match core.handshake.modernMeta with
  | some modernMeta => .object [("_meta", modernMeta)]
  | none => .object []

def spawnSlot (exe : String) (build : Option String) : Except String Slot × Core η :=
  let id := core.nextChild + 1
  let spawnStamp := core.stamp
  match Host.spawn core.host id (exe :: core.config.childArgs) with
  | (.ok pid, host) =>
    let core := { core with nextChild := id, host }
    (.ok ⟨id, pid, build, core.nowMs, 0, spawnStamp, none⟩, core)
  | (.error error, host) => (.error error, { core with nextChild := id, host })

/-- The held requests were never sent: each is answered. -/
def failHeld : Core η :=
  { core with held := [] }.answerErrors (core.held.flatMap fun held : Held =>
    held.requests.map Prod.snd)
    .childUnavailable

def Purpose.word : Purpose → String
  | .switch => "candidate"
  | .fresh => "fresh"

/-- The starting child is stopped, and the status says why. -/
def stopStarting : Core η :=
  let core := { core with starting := none }.stop starting.slot.id
  let word := Purpose.word starting.purpose
  let pid := starting.slot.pid
  let shown := problem.debug
  let core := core.note
    s!"the {word} child pid {pid} failed ({shown}); the current child keeps serving"
  { core with
    failure := some ⟨core.nowMs, starting.purpose, some pid, starting.slot.build, problem⟩ }

/-- The switch that was planned is off until its stamp is tried again. -/
def dropCandidate : Core η :=
  { core.rejectPlanned with deferred := none }.touched

def failStarting : Core η :=
  match core.starting with
  | none => core
  | some starting =>
    let core := core.stopStarting starting problem
    match starting.purpose with
    | .switch => core.dropCandidate
    | .fresh => core.failHeld.touched

/-! ## Delivering -/

/-- The child that takes a line now: none while a fresh child starts. -/
def serving : Option Slot :=
  if core.starting.any (·.purpose = .fresh) then none else core.current

def Requests.calls (requests : Requests) : Nat := requests.countP (·.2.call)

/-- The line's calls count for the child, and its requests are in flight. -/
def countForward : Core η :=
  let calls := Requests.calls held.requests
  { core with
    current := some { current with calls := current.calls + calls }
    handlesClear := if 0 < calls then false else core.handlesClear
    inflight := held.requests.foldl
      (fun inflight (request : String × Pending) => inflight.insert request.1 request.2)
      core.inflight }

/-- The line was not written: its requests are answered. -/
def answerUnsent : Core η :=
  let child := current.id
  held.requests.foldl (fun core (request : String × Pending) =>
    { core with inflight := core.inflight.erase request.1 }.answerError request.2
      .childUnavailable)
    (core.note s!"cannot write to child {child}; its requests were not sent")

/-- The line goes to the child; a failed write answers its requests. -/
def forward : Core η :=
  match (core.countForward current held).send current.id (.client held.number held.line) with
  | (true, core) => core.touched
  | (false, core) => (core.answerUnsent current held).touched

/-- Sends a client line to the current child, or holds it while a fresh child starts. -/
def deliver (startFresh : Core η → Core η) (core : Core η) (held : Held) : Core η :=
  match core.serving with
  | some current => core.forward current held
  | none =>
    let core := { core with held := core.held ++ [held] }
    if core.starting.isNone then startFresh core else core

/-! ## The steps of a starting child -/

/-- A fresh child becomes current; its build is learnt by the next plan. -/
def takeOver (slot : Slot) : Core η :=
  { core with
    starting := none
    current := some { slot with previousBuild := core.history.head?.bind (·.build) }
    accepted := none
    rejected := none
    handlesClear := false
    dirty := true
    held := [] }

/-- A fresh child takes over and gets the held lines; a candidate waits for its moment. -/
def onReady (trySwitch : Core η → Core η) (core : Core η) : Core η :=
  match core.starting with
  | none => core
  | some starting =>
    match starting.purpose with
    | .fresh => core.held.foldl (deliver id) (core.takeOver starting.slot)
    | .switch => trySwitch core

def probeParams : Value :=
  .object [("protocolVersion", .string probeVersion), ("capabilities", .object []),
    ("clientInfo", .object [("name", .string "actingcommand-mcp-entry"), ("version", .string "1")])]

/-- The request of a step, unless the child is ready. -/
def stepRequest : Step → Option (String × Value)
  | .init => some ("initialize", core.handshake.initParams.getD probeParams)
  | .discover => some ("server/discover", core.modernParams)
  | .toolsList =>
    some ("tools/list", if core.modernOnly then core.modernParams else .object [])
  | .ready => none

def sendStep (trySwitch : Core η → Core η) (core : Core η) : Core η :=
  match core.starting with
  | none => core
  | some starting =>
    match core.stepRequest starting.step with
    | none => core.onReady trySwitch
    | some (method, params) =>
      match core.internalRequest starting.slot.id method params with
      | (some key, core) =>
        { core with starting := core.starting.map ({ · with request := some key }) }
      | (none, core) => core.failStarting .exited

def firstStep : Purpose → Step
  | .fresh => if core.handshake.initParams.isSome then .init else .ready
  | .switch => if core.modernOnly then .discover else .init

def begin (trySwitch : Core η → Core η) (core : Core η) (slot : Slot) (purpose : Purpose) :
    Core η :=
  sendStep trySwitch { core with
    starting := some ⟨slot, purpose, core.firstStep purpose, none,
      Machine.saturatingAdd core.nowMs core.tunables.verifyTimeoutMs⟩
    dirty := true }

/-- A child that did not start is shown in the status. -/
def noteUnstarted (text : String) (purpose : Purpose) (build : Option String) : Core η :=
  let core := core.note text
  { core with failure := some ⟨core.nowMs, purpose, none, build, .startFailed⟩ }

def startFresh : Core η :=
  let exe := core.config.defaultExe
  match core.spawnSlot exe none with
  | (.ok slot, core) => core.begin id slot .fresh
  | (.error error, core) =>
    (core.noteUnstarted s!"the child {exe} did not start: {error}" .fresh none).failHeld.touched

/-! ## Switching -/

def queryStatus : Core η :=
  match core.current with
  | none => core
  | some current =>
    let params := match core.handshake.modernMeta, core.handshake.initParams with
      | some modernMeta, none => object [("_meta", modernMeta)]
      | _, _ => .object []
    match core.internalRequest current.id entryStatusMethod params with
    | (some key, core) =>
      let deadlineMs := Machine.saturatingAdd now core.tunables.verifyTimeoutMs
      { core with statusQuery := some ⟨key, deadlineMs, current.calls⟩ }
    | (none, core) => core.deferPlain .handlesUnknown now

def startCandidate : Core η :=
  match core.planned with
  | none => core
  | some planned =>
    -- The candidate would run the file the install holds now under the plan's build.
    if core.stamp ≠ planned.stamp then core.dropStalePlan
    else
      let exe := planned.exe
      match core.spawnSlot exe (some planned.build.commit) with
      | (.ok slot, core) => core.begin id slot .switch
      | (.error error, core) =>
        (core.noteUnstarted s!"the candidate child {exe} did not start: {error}" .switch
          (some planned.build.commit)).dropCandidate

/-- The current child leaves for the candidate. -/
def leave (old new : Slot) : Core η :=
  let now := core.nowMs
  let core := { core with
    past := core.past ++ [Record.switched old new core.inflight.keys] }.stop old.id
  let core := { core with lastSwitch := some ⟨now, old.pid, old.build, new.pid, new.build⟩ }
  core.retire old now .switched

/-- The candidate becomes current. -/
def enter (new : Slot) (planned : Planned) : Core η :=
  let pid := new.pid
  let commit := planned.build.commit
  let core := core.note s!"switched to child pid {pid} of build {commit}"
  { core with
    starting := none
    planned := none
    current := some new
    accepted := some planned.stamp
    pending := none
    rejected := none
    handlesClear := false
    deferred := none }

def commitSwitch : Core η :=
  match core.starting, core.planned with
  | some starting, some planned =>
    let now := core.nowMs
    let core := match core.current with
      | some old => core.leave old starting.slot
      | none => core
    ((core.enter starting.slot planned).sendNotices now).touched
  -- Both are taken before they are looked at.
  | _, _ => { core with starting := none, planned := none }

/-- Moves a planned switch on, only between calls and with no handle outstanding. -/
def trySwitch : Core η :=
  if core.closing ∨ core.planned.isNone then core
  else
    match core.current with
    | none => core
    | some current =>
      if core.starting.any fun starting => starting.purpose ≠ .switch ∨ starting.step ≠ .ready then
        core
      else
        let now := core.nowMs
        if !core.inflight.isEmpty then core.deferPlain .callsInFlight now
        else if core.statusQuery.isSome then core
        else if 0 < current.calls ∧ !core.handlesClear then core.queryStatus now
        else if core.starting.isSome then core.commitSwitch
        else core.startCandidate

/-! ## Answers of children -/

/-- What a step's answer leads to: the next step, or the problem that fails the child. -/
def nextStep : Except CandidateProblem Step :=
  let result := (message.get "result").filter (·.isObject)
  match starting.step with
  | .init =>
    match result with
    | none => .error .initializeFailed
    | some result =>
      let version := (result.get "protocolVersion").bind asStr
      if core.handshake.negotiated.any fun expected => version ≠ some expected then
        .error .protocolVersionChanged
      else .ok (if starting.purpose = .switch then .toolsList else .ready)
  | .discover =>
    if ((result.bind (·.get "supportedVersions")).bind asArray).any fun versions =>
        versions.any fun version => version.asStr = some modernVersion then .ok .toolsList
    else .error .protocolVersionChanged
  | .toolsList =>
    if (result.bind (·.get "tools")).any (·.isArray) then .ok .ready else .error .toolsListFailed
  | .ready => .ok .ready

/-- The handshake's last line goes to the child after it answered `initialize`. -/
def replayInitialized : Bool × Core η :=
  if starting.step = .init ∧ (core.handshake.initialized ∨ core.handshake.initParams.isNone) then
    core.send starting.slot.id .initialized
  else (true, core)

def stepAnswer : Core η :=
  match core.starting with
  | none => core
  | some starting =>
    if starting.step = .ready then core
    else
      match core.nextStep starting message with
      | .error problem => core.failStarting problem
      | .ok next =>
        match core.replayInitialized starting with
        | (false, core) => core.failStarting .exited
        | (true, core) =>
          sendStep trySwitch { core with
            starting := core.starting.map ({ · with step := next, request := none })
            dirty := true }

def clearHandles : Core η :=
  { core with handlesClear := true, deferred := none, dirty := true }.trySwitch

def resultStrings (member : String) : List String :=
  match ((message.get "result").bind (·.get member)).bind asArray with
  | some items => items.filterMap asStr
  | none => []

/-- The handles and calls the answer's result counts; a call count that is missing is zero. -/
def outstanding (result : Value) : Option Nat :=
  ((result.get "outstanding_handles").bind asU64).map fun handles =>
    Machine.saturatingAdd handles (((result.get "calls_in_flight").bind asU64).getD 0)

def isMethodNotFound : Bool :=
  ((message.get "error").bind (·.get "code")).bind asI64 = some methodNotFound

/-- The current child's answer to `actingcommand/entryStatus`. A zero counts only when no call
was delivered to the child since the query went out. -/
def statusAnswer (askedAtCalls : Nat) : Core η :=
  let now := core.nowMs
  let unchanged := core.current.any (·.calls = askedAtCalls)
  match message.get "result" with
  | some result =>
    match outstanding result with
    | some 0 => if unchanged then core.clearHandles else core.trySwitch
    | some count =>
      core.defer .handles (some count) (resultStrings message "kinds")
        (resultStrings message "handles") now
    | none => core.deferPlain .handlesUnknown now
  | none =>
    if isMethodNotFound message ∧ core.inflight.isEmpty then
      if unchanged then core.clearHandles else core.trySwitch
    else core.deferPlain .handlesUnknown now

def internalAnswer (child : Nat) (key : String) (message : Value) : Core η :=
  match core.statusQuery.filter fun query => query.key = key ∧ core.currentChild = some child with
  | some query => { core with statusQuery := none }.statusAnswer message query.calls
  | none =>
    if core.starting.any fun starting => starting.slot.id = child ∧ starting.request = some key then
      core.stepAnswer message
    else core.note s!"ignored a late answer {key} of child {child}"

/-- A response ends its request's flight. -/
def settle : Core η :=
  match message.get "method", message.get "id" with
  | none, some id =>
    let key := keyOf id
    if core.inflight.contains key then
      { core with inflight := core.inflight.erase key, dirty := true } else core
  | _, _ => core

/-- The member, or an empty object where it is none. -/
def objectMember (name : String) (members : Members) : Members :=
  match members.lookup name with
  | some (.object inner) => inner
  | _ => []

/-- The result with `capabilities.tools.listChanged` set. -/
def advertise (result : Members) : Members :=
  let capabilities := objectMember "capabilities" result
  let tools := objectMember "tools" capabilities
  setMember "capabilities" (.object (setMember "tools"
    (.object (setMember "listChanged" (.bool true) tools)) capabilities)) result

/-- The answers to the client's `initialize` and `server/discover` advertise the notice. -/
def patchAnswer (object : Members) : Option Members × Core η :=
  match object.lookup "method", (object.lookup "id").map keyOf with
  | none, some key =>
    let init := decide (core.handshake.initId = some key)
    let discover := core.discoverIds.contains key
    let core := { core with discoverIds := core.discoverIds.erase key }
    match object.lookup "result" with
    | some (.object result) =>
      if init || discover then
        let core := if init then
          { core with
            handshake := { core.handshake with
              negotiated := (result.lookup "protocolVersion").bind asStr }
            dirty := true } else core
        (some (setMember "result" (.object (advertise result)) object), core)
      else (none, core)
    | _ => (none, core)
  | _, _ => (none, core)

end Core

end Entry
