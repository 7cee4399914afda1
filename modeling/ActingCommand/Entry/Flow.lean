import ActingCommand.Entry.Events

/-!
# The flow of lines

What the delivery of a line and the permission to switch depend on is a part of the core: the
children, the lines on their way, the requests in flight, the open query and the past. Every
event of the entry is a sequence of moves of it, so whatever the moves keep holds of every core
reached.
-/

namespace Entry

open Std

/-- A child and the `tools/call` requests forwarded to it. -/
structure Child where
  id : Nat
  calls : Nat

def Slot.child (slot : Slot) : Child := ⟨slot.id, slot.calls⟩

structure Flow where
  current : Option Child
  starting : Option (Child × Purpose)
  inflight : ExtTreeMap String Pending
  held : List Held
  /-- The lines taken out and not yet delivered, while an event is handled. -/
  hand : List Held
  handlesClear : Bool
  statusQuery : Option StatusQuery
  closing : Bool
  nextChild : Nat
  past : List Record

def Core.flow {η : Type} (core : Core η) (hand : List Held) : Flow where
  current := core.current.map (·.child)
  starting := core.starting.map fun starting => (starting.slot.child, starting.purpose)
  inflight := core.inflight
  held := core.held
  hand := hand
  handlesClear := core.handlesClear
  statusQuery := core.statusQuery
  closing := core.closing
  nextChild := core.nextChild
  past := core.past

/-! ## What the past shows -/

/-- A message that is a `tools/call` request. -/
def Value.isCall (message : Value) : Bool :=
  message.isObject && (((message.get "method").bind asStr).any Core.isCall &&
    (message.get "id").isSome)

variable [Printer]

/-- The id of a request that the entry passes on, as text; a `subscriptions/listen` is its own. -/
def Value.requestKey (message : Value) : Option String :=
  match (message.get "method").bind asStr, message.get "id" with
  | some name, some id => if name = "subscriptions/listen" then none else some (keyOf id)
  | _, _ => none

/-- The id that a response answers. -/
def Value.responseKey (message : Value) : Option String :=
  match message.get "method", message.get "id" with
  | none, some id => some (keyOf id)
  | _, _ => none

/-- The id that a notification of the client cancels. -/
def Value.cancelKey (message : Value) : Option String :=
  match (message.get "method").bind asStr, message.get "id" with
  | some name, none =>
    if name = "notifications/cancelled" then
      ((message.get "params").bind (·.get "requestId")).map keyOf else none
  | _, _ => none

variable (parse : Bytes → Option Value)

/-- The messages of a line: an array carries several. -/
def messages (line : Bytes) : List Value :=
  match parse line with
  | some (.array items) => items
  | some message => [message]
  | none => []

/-- The `tools/call` requests of a client line. -/
def callsIn (line : Bytes) : Nat := (messages parse line).countP (·.isCall)

/-- The `tools/call` requests that a record sends to a child, whether or not the write succeeds. -/
def Record.callsTo (child : Nat) : Record → Nat
  | .sent target (.client _ line) _ => if target = child then callsIn parse line else 0
  | _ => 0

/-- The `tools/call` requests sent to a child. -/
def callsTo (past : List Record) (child : Nat) : Nat :=
  (past.map (Record.callsTo parse child)).sum

/-- The ids of the requests that a record sends to a child. -/
def Record.opened (child : Nat) : Record → List String
  | .sent target (.client _ line) _ =>
    if target = child then (messages parse line).filterMap Value.requestKey else []
  | _ => []

/-- The ids of a child's requests that a record ends: the child answers them, the client cancels
them, or the entry answers them itself. -/
def Record.ended (child : Nat) : Record → List String
  | .childLine speaker line =>
    if speaker = child then (messages parse line).filterMap Value.responseKey else []
  | .received line => (messages parse line).filterMap Value.cancelKey
  | .answered pending _ => [keyOf pending.id]
  | _ => []

def Record.track (child : Nat) (ids : List String) (record : Record) : List String :=
  ids.filter (· ∉ record.ended parse child) ++ record.opened parse child

/-- The ids of the requests that were sent to a child and not ended since. -/
def openTo (child : Nat) (past : List Record) : List String :=
  past.foldl (Record.track parse child) []

/-- The number of the client line that a record writes. -/
def Record.writes : Record → Option Nat
  | .sent _ (.client number _) true => some number
  | _ => none

/-- The numbers of the client lines written, in order. -/
def written (past : List Record) : List Nat := past.filterMap Record.writes

/-- The number of the client line whose request the entry answered itself. -/
def Record.refuses : Record → Option Nat
  | .answered pending _ => some pending.line
  | _ => none

/-- A record without a client line, an answer of the entry or a switch. -/
def Record.quiet : Record → Bool
  | .sent _ (.client ..) _ => false
  | .received _ => false
  | .answered .. => false
  | .switched .. => false
  | _ => true

/-- The answer counts no handle and no call, or does not know the query. -/
def Value.reportsNone (message : Value) : Bool :=
  match message.get "result" with
  | some result => Core.outstanding result = some 0
  | none => Core.isMethodNotFound message

/-! ## Moves -/

/-- The requests of a line are its own, each under its id, and its calls are counted. -/
structure Held.Carried (parse : Bytes → Option Value) (held : Held) : Prop where
  own : ∀ request ∈ held.requests, request.2.line = held.number ∧ keyOf request.2.id = request.1
  keys : held.requests.map Prod.fst = (messages parse held.line).filterMap Value.requestKey
  calls : Core.Requests.calls held.requests = callsIn parse held.line

def insertAll (requests : Requests) (inflight : ExtTreeMap String Pending) :
    ExtTreeMap String Pending :=
  requests.foldl (fun inflight request => inflight.insert request.1 request.2) inflight

def eraseAll (keys : List String) (inflight : ExtTreeMap String Pending) :
    ExtTreeMap String Pending :=
  keys.foldl (fun inflight key => inflight.erase key) inflight

def Flow.fresh (flow : Flow) : Bool := flow.starting.any fun starting => starting.2 = .fresh

/-- A line is handed to a child: its calls count, and its requests are in flight. -/
def Flow.forwarded (flow : Flow) (child : Child) (held : Held) : Flow :=
  let calls := Core.Requests.calls held.requests
  { flow with
    current := some ⟨child.id, child.calls + calls⟩
    handlesClear := if 0 < calls then false else flow.handlesClear
    inflight := insertAll held.requests flow.inflight }

def refusals (requests : List Pending) (code : EntryCode) : List Record :=
  requests.map fun pending => .answered pending code

/-- The current child has no open request of the id. -/
def Flow.Ended (flow : Flow) (key : String) : Prop :=
  ∀ child ∈ flow.current, key ∉ openTo parse child.id flow.past

/-- The child takes the line that is first in hand. -/
structure Flow.Serves (flow : Flow) (child : Child) (held : Held) (rest : List Held) : Prop where
  first : flow.hand = held :: rest
  current : flow.current = some child
  settled : flow.fresh = false
  ordered : flow.closing = false ∨ flow.held = []

inductive Move (parse : Bytes → Option Value) : Flow → Flow → Prop
  | log {flow : Flow} {record : Record} (quiet : record.quiet = true) :
    Move parse flow { flow with past := flow.past ++ [record] }
  | take {flow : Flow} {held : Held} (idle : flow.hand = [])
      (numbered : held.number = (clientLines flow.past).length) (carried : held.Carried parse) :
    Move parse flow { flow with hand := [held], past := flow.past ++ [.received held.line] }
  | drop {flow : Flow} : Move parse flow { flow with hand := [] }
  | hold {flow : Flow} {held : Held} (first : flow.hand = [held])
      (waits : flow.current = none ∨ flow.fresh = true) :
    Move parse flow { flow with hand := [], held := flow.held ++ [held] }
  | write {flow : Flow} {child : Child} {held : Held} {rest : List Held}
      (serves : flow.Serves child held rest) :
    Move parse flow { flow.forwarded child held with
      hand := rest
      past := flow.past ++ [.sent child.id (.client held.number held.line) true] }
  | miss {flow : Flow} {child : Child} {held : Held} {rest : List Held}
      (serves : flow.Serves child held rest) :
    Move parse flow { flow.forwarded child held with
      hand := rest
      inflight := eraseAll (held.requests.map Prod.fst) (flow.forwarded child held).inflight
      past := flow.past ++ .sent child.id (.client held.number held.line) false ::
        refusals (held.requests.map Prod.snd) .childUnavailable }
  | erase {flow : Flow} (key : String) (ended : flow.Ended parse key) :
    Move parse flow { flow with inflight := flow.inflight.erase key }
  | allot {flow : Flow} : Move parse flow { flow with nextChild := flow.nextChild + 1 }
  | begin {flow : Flow} (purpose : Purpose) (idle : flow.starting = none)
      (alone : purpose = .fresh → flow.current = none) :
    Move parse flow { flow with
      nextChild := flow.nextChild + 1
      starting := some (⟨flow.nextChild + 1, 0⟩, purpose) }
  | ready {flow : Flow} {child : Child} (starts : flow.starting = some (child, .fresh))
      (idle : flow.hand = []) :
    Move parse flow { flow with
      current := some child
      starting := none
      handlesClear := false
      hand := flow.held
      held := [] }
  | fail {flow : Flow} : Move parse flow { flow with starting := none }
  | refuse {flow : Flow} :
    Move parse flow { flow with
      held := []
      past := flow.past ++ refusals (flow.held.flatMap fun held => held.requests.map Prod.snd)
        .childUnavailable }
  | exit {flow : Flow} (idle : flow.hand = []) :
    Move parse flow { flow with
      current := none
      starting := none
      statusQuery := none
      handlesClear := false
      inflight := ∅
      past := flow.past ++ refusals (flow.inflight.toList.map Prod.snd) .outcomeUnknown }
  | commit {flow : Flow} {old new : Slot} (current : flow.current = some old.child)
      (starts : flow.starting = some (new.child, .switch)) (between : flow.inflight = ∅)
      (settled : flow.statusQuery = none) (open_ : flow.closing = false)
      (clear : old.calls = 0 ∨ flow.handlesClear = true) :
    Move parse flow { flow with
      current := some new.child
      starting := none
      handlesClear := false
      past := flow.past ++ [.switched old new []] }
  | ask {flow : Flow} {child : Child} (current : flow.current = some child) (key : String)
      (deadlineMs : Nat) (params : Value) :
    Move parse flow { flow with
      statusQuery := some ⟨key, deadlineMs, child.calls⟩
      past := flow.past ++ [.sent child.id (.request key entryStatusMethod params) true] }
  | forget {flow : Flow} : Move parse flow { flow with statusQuery := none }
  | clear {flow : Flow} {child : Child} {query : StatusQuery} {line : Bytes} {message : Value}
      (current : flow.current = some child) (asked : flow.statusQuery = some query)
      (unchanged : child.calls = query.calls) (read : parse line = some message)
      (answers : internalKey message = some query.key) (none : message.reportsNone = true) :
    Move parse flow { flow with
      statusQuery := .none
      handlesClear := true
      past := flow.past ++ [.childLine child.id line] }
  | close {flow : Flow} : Move parse flow { flow with closing := true, starting := none }

abbrev Moves : Flow → Flow → Prop :=
  Relation.ReflTransGen (Move parse)

end Entry
