import ActingCommand.Scan.Session

/-!
# The early-stop test and the decision

The early-stop test holds when no unknown position and no position that was not seen
could outrank the best member. The decision numbers the members in first-seen order and
evaluates them once, with the pinned snapshot and instant.
-/

namespace Scan

open Selection Machine

namespace Position

variable (position : Position)

def memberScore : Option Int :=
  match position.state with
  | .fixed _ _ (some (.member scoreMilli)) => scoreMilli
  | _ => none

/-- The evaluator's fields of a fixed position. -/
def fields : Std.ExtTreeMap String ScalarValue :=
  match position.state with
  | .fixed _ features _ => candidateFields features
  | _ => ∅

/-- Read, and neither a member nor gated out nor dropped by a table's own data. -/
def isUnknown : Bool :=
  match position.state with
  | .unread => false
  | .incomplete | .contradicted => true
  | state => !ScanSession.PositionState.settled state

end Position

namespace ScanSession

variable (session : ScanSession)

/-- The largest bound over the unknown positions, each at its known identity or over the whole
domain. -/
def unknownBound (stop : EarlyStop) : List Position → Bound → Except ScanError Bound
  | [], bound => pure bound
  | position :: rest, bound =>
    if position.isUnknown then
      let identities := position.identity.elim stop.identities fun identity => [identity]
      match upperBoundWithTables session.policy session.tables session.facts session.nowUnixMs
          identities stop.fieldDomains with
      | .ok upper => unknownBound stop rest (bound.sup (.ofUpperBound upper))
      | .error error => throw (.evaluationFailed error)
    else unknownBound stop rest bound

variable (state : ScanState)

def earlyStopHolds : Except ScanError Bool :=
  match session.earlyStop, (state.positions.filterMap (·.memberScore)).max? with
  | some stop, some best => do
    let unknown ← session.unknownBound stop state.positions .none
    pure (unknown.lt (.max best) &&
      (stop.unseen.lt (.max best) || (stop.unseen = .max best && stop.firstKeyLowestId)))
  | _, _ => pure false

/-! ## The decision -/

def scanProjectionMaxCandidates : Nat := 64

/-- Where a member was first seen: the viewport that fixed it, its content start, its index. -/
structure FirstSeen where
  viewport : Nat
  axis : Int
  cross : Int
  index : Nat

def FirstSeen.cmp (a b : FirstSeen) : Ordering :=
  (compare a.viewport b.viewport).then ((compare a.axis b.axis).then
    ((compare a.cross b.cross).then (compare a.index b.index)))

/-- A position that the decision numbers: a member, or a drop by a table's own data. -/
def numbered (position : Position) (index : Nat) : Option FirstSeen :=
  match position.state with
  | .fixed viewport _ (some (.member _)) | .fixed viewport _ (some .staticTableDrop) =>
    some ⟨viewport, position.rect.axis, position.rect.cross, index⟩
  | _ => none

def firstSeenOrder : List FirstSeen :=
  (state.positions.zipIdx.filterMap fun entry => numbered entry.1 entry.2).insertionSort
    fun a b => (a.cmp b).isLE

/-- More than 64 exceed the budget of the record's candidates. -/
def numberedMembers : Except ScanError (List Nat) :=
  let members := firstSeenOrder state
  if members.length > scanProjectionMaxCandidates then
    throw (.candidateBudgetExceeded members.length)
  else pure (members.map (·.index))

def memberId (number : Nat) : String := session.layout.id ++ "#" ++ padded 2 number

def memberFields (index : Nat) : Std.ExtTreeMap String ScalarValue :=
  (state.positions[index]?).elim ∅ (·.fields)

def memberCandidates (members : List Nat) : List Candidate :=
  members.zipIdx.map fun entry => ⟨session.memberId entry.2, memberFields state entry.1⟩

/-- The members, numbered in first-seen order and evaluated once. -/
def decide : Except ScanError SelectionDecision := do
  let members ← numberedMembers state
  let decision ← session.evaluateCandidates (session.memberCandidates state members)
  match decision.outcome with
  | .unknown _ _ => throw .decideAborted
  | _ => pure decision

def chosenPosition (decision : SelectionDecision) : Option Nat :=
  match decision.selected, numberedMembers state with
  | [chosen], .ok members =>
    (members.zipIdx.find? fun entry => session.memberId entry.2 = chosen).map (·.1)
  | _, _ => none

end ScanSession

end Scan
