import ActingCommand.Selection.Collect

/-!
# What a known read holds

A passed document resolves every reference of its rules to one declared type. A field or a fact
that is read as known holds a value of its declared type, so no comparison of a passed document
meets a value of another kind. A document without record lists and tables reads fields and facts
only.
-/

namespace Selection

open List Except Std Predicate

lemma checkFacts_ok {declarations before facts}
    (passed : checkFacts declarations before = .ok facts) :
    Inserted (·.factKey) (·.valueType) declarations before facts := by
  induction declarations generalizing before with
  | nil =>
    cases passed
    exact .nil _
  | cons declaration rest ih =>
    simp only [checkFacts, bind_ok_iff, failIf_ok_iff] at passed
    obtain ⟨-, -, -, -, -, -, -, -, -, new, passed⟩ := passed
    exact (ih passed).cons new

/-- A map built from a list under distinct names holds each member under its name. -/
theorem getElem?_ofList_of_nodup {α β : Type*} {members : List α} {name : α → String}
    {value : α → β} (nodup : (members.map name).Nodup) {member : α} (inside : member ∈ members) :
    (ExtTreeMap.ofList (members.map fun member => (name member, value member)))[name member]? =
      some (value member) := by
  refine ExtTreeMap.getElem?_ofList_of_mem ReflCmp.compare_self ?_
    (List.mem_map_of_mem inside)
  rw [pairwise_map]
  refine (pairwise_map.mp nodup).imp fun apart same => ?_
  exact apart (LawfulEqCmp.eq_of_compare same)

/-! ## The types of a passed document -/

/-- The field or the fact is declared with the type. -/
def SelectionPolicy.Types (policy : SelectionPolicy) (reference : ValueRef)
    (valueType : ValueType) : Prop :=
  match reference with
  | .field field => ∃ declaration ∈ policy.fields,
      declaration.name = field ∧ declaration.valueType = valueType
  | .fact factKey => ∃ declaration ∈ policy.facts,
      declaration.factKey = factKey ∧ declaration.valueType = valueType
  | .keyedFact .. | .table .. => False

/-- The scope is the one a passed document checks its rules in. -/
structure SelectionPolicy.Scoped (policy : SelectionPolicy) (scope : Scope) : Prop where
  fieldNames : (policy.fields.map (·.name)).Nodup
  factKeys : (policy.facts.map (·.factKey)).Nodup
  fields : ∀ (name : String) (valueType : ValueType), scope.fields[name]? = some valueType →
    ∃ declaration ∈ policy.fields, declaration.name = name ∧ declaration.valueType = valueType
  facts : ∀ (factKey : String) (valueType : ValueType), scope.facts[factKey]? = some valueType →
    ∃ declaration ∈ policy.facts, declaration.factKey = factKey ∧
      declaration.valueType = valueType
  tables : ∀ (tableId : String) (declaration : TableDeclaration),
    scope.tables[tableId]? = some declaration → declaration ∈ policy.tables
  gates : checkGates scope [] policy.gates = .ok ()
  scoring : checkScoring scope policy.gates policy.scoring [] = .ok ()
  tieBreak : checkTieBreak policy scope policy.tieBreak = .ok ()

lemma SelectionPolicy.scoped_of_validate {policy : SelectionPolicy}
    (passed : policy.validate = .ok ()) : ∃ scope, policy.Scoped scope := by
  simp only [SelectionPolicy.validate, bind_ok_iff] at passed
  obtain ⟨_, -, fields, named, facts, keyed, _, -, tables, declared, _, gates, _, scoring, _,
    tieBreak, -⟩ := passed
  obtain ⟨fieldNames, -, fieldOrigin⟩ := checkFields_ok named
  obtain ⟨factKeys, -, factOrigin⟩ := checkFacts_ok keyed
  obtain ⟨-, -, tableOrigin⟩ := checkTables_ok declared
  refine ⟨⟨fields, facts, tables⟩, fieldNames, factKeys, fun name valueType known => ?_,
    fun factKey valueType known => ?_, fun tableId declaration known => ?_, gates, scoring,
    tieBreak⟩
  · exact (fieldOrigin name valueType known).resolve_left (by simp)
  · exact (factOrigin factKey valueType known).resolve_left (by simp)
  · obtain ⟨_, inside, -, rfl⟩ := (tableOrigin tableId declaration known).resolve_left (by simp)
    exact inside

section Types

variable {policy : SelectionPolicy} {scope : Scope} {reference : ValueRef} {valueType : ValueType}

/-- Without record lists and tables a rule reads a declared field or a declared fact. -/
theorem SelectionPolicy.Scoped.types (checked : policy.Scoped scope)
    (noLists : policy.usesRecordLists = false) (noTables : policy.usesTables = false)
    {owner : String} (resolved : scope.resolve reference owner = .ok valueType) :
    policy.Types reference valueType := by
  cases reference with
  | field field => exact checked.fields field valueType (okOr_ok_iff.mp resolved)
  | fact factKey =>
    simp only [Scope.resolve, bind_ok_iff, pure_ok_iff] at resolved
    obtain ⟨declared, found, _, -, rfl⟩ := resolved
    exact checked.facts factKey declared (okOr_ok_iff.mp found)
  | keyedFact factKey keyField valueColumn rowFilter absent =>
    simp only [Scope.resolve, Scope.resolveKeyedFact, bind_ok_iff] at resolved
    obtain ⟨declared, found, resolved⟩ := resolved
    obtain ⟨declaration, inside, -, typed⟩ :=
      checked.facts factKey declared (okOr_ok_iff.mp found)
    have scalar := List.any_eq_false.mp noLists declaration inside
    cases declared with
    | recordList keyColumn columns =>
      rw [typed] at scalar
      exact (scalar rfl).elim
    | integer | boolean | enumString _ => cases resolved
  | table tableId keyField pins valueColumn fallbackColumn absent =>
    simp only [Scope.resolve, Scope.resolveTable, bind_ok_iff, okOr_ok_iff]
      at resolved
    obtain ⟨table, found, -⟩ := resolved
    have inside := checked.tables tableId table found
    have empty : policy.tables = [] := by simpa [SelectionPolicy.usesTables] using noTables
    rw [empty] at inside
    cases inside

lemma SelectionPolicy.Scoped.valueRefs (checked : policy.Scoped scope)
    (noLists : policy.usesRecordLists = false) (noTables : policy.usesTables = false) :
    ∀ reference ∈ policy.valueRefs, ∃ valueType, policy.Types reference valueType := by
  intro reference listed
  obtain ⟨owner, valueType, resolved⟩ :=
    valueRefs_resolve checked.gates checked.scoring checked.tieBreak reference listed
  exact ⟨valueType, checked.types noLists noTables resolved⟩

/-- A field or a fact that is read as known holds a value of its declared type. -/
theorem SelectionPolicy.Scoped.read_matches (checked : policy.Scoped scope)
    (types : policy.Types reference valueType) {facts} {lists : ListIndex} {tables}
    {nowUnixMs : Nat} {candidate value}
    (read : (Resolver.new policy facts lists tables nowUnixMs).read reference candidate =
      .ok value) : value.matchesType valueType = true := by
  cases reference with
  | keyedFact | table => exact types.elim
  | field field =>
    obtain ⟨declaration, inside, rfl, rfl⟩ := types
    have declared : (Resolver.new policy facts lists tables nowUnixMs).fields[declaration.name]? =
        some declaration.valueType := getElem?_ofList_of_nodup checked.fieldNames inside
    simp only [Resolver.read, Resolver.readField, declared] at read
    cases held : candidate.fields[declaration.name]? with
    | none =>
      rw [held] at read
      cases read
    | some other =>
      rw [held] at read
      simp only at read
      split at read
      · rename_i matched
        obtain rfl := ok.inj read
        exact matched
      · cases read
  | fact factKey =>
    obtain ⟨declaration, inside, rfl, rfl⟩ := types
    have declared : (Resolver.new policy facts lists tables nowUnixMs).facts[declaration.factKey]? =
        some declaration :=
      @getElem?_ofList_of_nodup _ _ _ _ (fun declaration => declaration) checked.factKeys _ inside
    simp only [Resolver.read, Resolver.readFact, declared, SelectionFactSnapshot.resolve] at read
    split at read
    · cases read
    · cases read
    · cases read
    simp only [bind_ok_iff, failIf_ok_iff, pure_ok_iff] at read
    obtain ⟨_, -, _, matched, rfl⟩ := read
    simpa using matched

end Types

/-! ## Typed predicates -/

def ExpectedKind.fits : ExpectedKind → ScalarValue → Bool
  | integer, .integer _ => true
  | boolean, .boolean _ => true
  | string, .string _ => true
  | _, _ => false

variable {wanted : ExpectedKind}

lemma ExpectedKind.fits_of_matches {valueType} (accepts : wanted.accepts valueType = true) {value}
    (held : value.matchesType valueType = true) : wanted.fits value = true := by
  cases wanted <;> cases valueType <;> cases accepts <;> cases value <;> first | rfl | cases held

/-- Whatever the reference reads as known is of the kind. -/
def SelectionPolicy.Expects (policy : SelectionPolicy) (reference : ValueRef)
    (wanted : ExpectedKind) : Prop :=
  ∃ valueType, policy.Types reference valueType ∧ wanted.accepts valueType = true

mutual

/-- Every comparison expects the kind of the declared type. -/
def Predicate.Typed (policy : SelectionPolicy) : Predicate → Prop
  | .integerAtLeast value _ => policy.Expects value .integer
  | .integerAtMost value _ => policy.Expects value .integer
  | .integerEquals value _ => policy.Expects value .integer
  | .booleanEquals value _ => policy.Expects value .boolean
  | .stringIn value _ => policy.Expects value .string
  | .integerCompare left _ right _ _ =>
    policy.Expects left .integer ∧ policy.Expects right .integer
  | .all of => EachTyped policy of
  | .any of => EachTyped policy of
  | .not of => of.Typed policy

def Predicate.EachTyped (policy : SelectionPolicy) : List Predicate → Prop
  | [] => True
  | inner :: rest => inner.Typed policy ∧ EachTyped policy rest

end

section Predicates

variable {policy : SelectionPolicy} {scope : Scope}

lemma Predicate.eachTyped_iff {of} : EachTyped policy of ↔ ∀ inner ∈ of, inner.Typed policy := by
  induction of with
  | nil => simp [EachTyped]
  | cons inner rest ih => rw [EachTyped, ih, forall_mem_cons]

lemma Predicate.typed_any {of} :
    (any of).Typed policy ↔ (not (.all (of.map .not))).Typed policy := by
  simp [Typed, eachTyped_iff]

variable {value : ValueRef}

lemma Predicate.Compares.typed {predicate : Predicate} {decides}
    (compares : predicate.Compares value wanted decides) (typed : predicate.Typed policy) :
    policy.Expects value wanted := by
  cases compares <;> simpa only [Typed] using typed

section

variable (checked : policy.Scoped scope) (noLists : policy.usesRecordLists = false)
  (noTables : policy.usesTables = false) {owner : String}

include checked noLists noTables

lemma expectKind_expects (passed : expectKind scope owner value wanted = .ok ()) :
    policy.Expects value wanted := by
  simp only [expectKind, bind_ok_iff, failIf_ok_iff] at passed
  obtain ⟨valueType, resolved, accepted⟩ := passed
  exact ⟨valueType, checked.types noLists noTables resolved, by simpa using accepted⟩

lemma checkPredicate_typed : ∀ (predicate : Predicate) {depth nodes met : Nat},
      checkPredicate scope owner predicate depth nodes = .ok met → predicate.Typed policy
  | .integerAtLeast _ _, _, _, _, passed
  | .integerAtMost _ _, _, _, _, passed
  | .integerEquals _ _, _, _, _, passed
  | .booleanEquals _ _, _, _, _, passed
  | .stringIn _ _, _, _, _, passed => by
    simp only [checkPredicate, bind_ok_iff] at passed
    obtain ⟨_, -, _, expected, -⟩ := passed
    rw [Typed]
    exact expectKind_expects checked noLists noTables expected
  | .integerCompare _ _ _ _ _, _, _, _, passed => by
    simp only [checkPredicate, bind_ok_iff] at passed
    obtain ⟨_, -, _, first, _, second, -⟩ := passed
    rw [Typed]
    exact ⟨expectKind_expects checked noLists noTables first,
      expectKind_expects checked noLists noTables second⟩
  | .all of, _, _, _, passed
  | .any of, _, _, _, passed => by
    simp only [checkPredicate, bind_ok_iff] at passed
    obtain ⟨_, -, _, -, members⟩ := passed
    rw [Typed, eachTyped_iff]
    intro inner inside
    obtain ⟨_, _, own⟩ := checkPredicates_each members inner inside
    exact checkPredicate_typed inner own
  | .not of, _, _, _, passed => by
    simp only [checkPredicate, bind_ok_iff] at passed
    obtain ⟨_, -, negated⟩ := passed
    rw [Typed]
    exact checkPredicate_typed of negated

lemma checkGates_typed {earlier gates} (passed : checkGates scope earlier gates = .ok ()) :
    ∀ gate ∈ gates, gate.predicate.Typed policy := by
  induction gates generalizing earlier with
  | nil => simp
  | cons gate rest ih =>
    simp only [checkGates, bind_ok_iff] at passed
    obtain ⟨_, -, _, -, nodes, predicate, _, -, _, -, _, -, passed⟩ := passed
    rintro other (_ | ⟨_, listed⟩)
    · exact checkPredicate_typed checked noLists noTables _ predicate
    · exact ih passed other listed

end

end Predicates

end Selection
