import ActingCommand.Policy.Clock

/-!
# Facts and predicates of the scheduling catalog

A predicate is a tree over the kinds of the catalog; a kind no later module reads carries no
data here. An evaluation reads facts by scope and key, each with its confidence, the instant it
was observed at and its own expiry.
-/

namespace Policy

open Machine

inductive FactScalar
  | boolean (value : Bool)
  | integer (value : Int)
  | string (value : String)
  | timestampMs (value : Nat)
  | durationMs (value : Nat)
deriving DecidableEq

/-- The members of a record, in the order of their names. -/
abbrev FactRecord := List (String × FactScalar)

inductive FactValue
  | scalar (value : FactScalar)
  | recordList (records : List FactRecord)
deriving DecidableEq

structure ObservedFact where
  scope : ScopeSelector
  factKey : String
  value : FactValue
  observedAtUnixMs : Nat
  expiresAtUnixMs : Option Nat
  confidenceMilli : Nat

inductive Comparison
  | eq
  | notEq
  | lessThan
  | lessThanOrEqual
  | greaterThan
  | greaterThanOrEqual
  | contains

structure FactReference where
  factKey : String
  offset : Int

inductive FactComparand
  | value (value : FactValue)
  | fact (reference : FactReference)

inductive FactUnknownRule
  | probe

structure FactPredicate where
  scope : ScopeSelector
  factKey : String
  comparison : Comparison
  value : FactComparand
  maxAgeMs : Option Nat
  onUnknown : Option FactUnknownRule

structure RecordDeadline where
  scope : ScopeSelector
  factKey : String
  timestampField : String
  withinMs : Nat
  maxAgeMs : Option Nat

/-- A clock's `missed` rule is the grace after which an occurrence is skipped. -/
inductive PredicateSpec
  | all (predicates : List PredicateSpec)
  | any (predicates : List PredicateSpec)
  | not (predicate : PredicateSpec)
  | clock (schedule : ClockSchedule) (missed : Option Nat)
  | timelineActive
  | resourceProjection
  | fact (predicate : FactPredicate)
  | recordDeadline (predicate : RecordDeadline)
  | factTimeReached
  | dependencyCompleted (taskId : String) (terminalStates : List TaskTerminalState)
  | outcome

/-! ## What a predicate evaluates to -/

inductive PredicateTruth
  | true
  | false
  | unknown
deriving DecidableEq

structure DetectionSuggestion where
  scope : ScopeSelector
  factKey : String
  reason : String
deriving DecidableEq

structure PredicateEvaluation where
  truth : PredicateTruth
  suggestions : List DetectionSuggestion
  nextWakeUnixMs : Option Nat
  freshUntilUnixMs : Option Nat
deriving DecidableEq

def PredicateEvaluation.known (truth : Bool) (nextWakeUnixMs : Option Nat) : PredicateEvaluation :=
  ⟨if truth then .true else .false, [], nextWakeUnixMs, none⟩

def PredicateEvaluation.unknown (suggestion : DetectionSuggestion) : PredicateEvaluation :=
  ⟨.unknown, [suggestion], none, none⟩

def scopeKey : ScopeSelector → String
  | .ofInstance instanceId => s!"instance:{instanceId}"
  | .ofServer serverId => s!"server:{serverId}"
  | .ofGame gameId => s!"game:{gameId}"

def findFact (facts : List ObservedFact) (scope : ScopeSelector) (factKey : String) :
    Option ObservedFact :=
  facts.find? fun fact => fact.scope = scope ∧ fact.factKey = factKey

end Policy
