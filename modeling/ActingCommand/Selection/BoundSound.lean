import ActingCommand.Selection.Bound
import ActingCommand.Selection.Verdict

/-!
# The upper bound is sound

The bound walks the same document as the evaluator, over sets of values. What a reference reads
for the candidate is always among what it reads for the candidate's identity, so each
predicate's truth value is possible, each contribution at most the term's largest, and the score
at most the bound.
-/

namespace Selection

open Machine ThreeValued List Option Except Predicate Hypothesis LookupKey Possible Resolver

/-- What was read is among what the hypothesis reads. -/
inductive Reading.Admits : Reading → Except UnknownReason ScalarValue → Prop
  | unknown (reason : UnknownReason) : Admits (.exact none) (.error reason)
  | exact (value : ScalarValue) : Admits (.exact (some value)) (.ok value)
  | boolean (value : Bool) : Admits .anyBoolean (.ok (.boolean value))
  | integer {min max value : Int} (lower : min ≤ value) (upper : value ≤ max) :
      Admits (.range min max) (.ok (.integer value))

lemma Reading.admits_toOption (read : Except UnknownReason ScalarValue) :
    (Reading.exact read.toOption).Admits read := by
  cases read with
  | error reason => exact .unknown reason
  | ok value => exact .exact value

variable {value : ValueRef}

/-! ## Predicates -/

section Predicates

variable {hypothesis : Hypothesis} {candidate : Candidate} {resolver : Resolver}

/-- A comparison over a range is sound when its value has one of the outcomes of the range. -/
theorem admits_of_outcomes {value : Bool} {outcomes : Bool × Bool}
    (truth : value = true → outcomes.1 = true) (falsity : value = false → outcomes.2 = true) :
    (mk outcomes.1 outcomes.2 false).Admits (Truth.ofBool value : Truth) := by
  cases value with
  | true => exact truth rfl
  | false => exact falsity rfl

variable {read : Except UnknownReason ScalarValue}

lemma integerPossible_admits {exact : Int → Bool} {range}
    (admits : (hypothesis.read value).Admits read)
    (truth : ∀ min max n, min ≤ n → n ≤ max → exact n = true → (range min max).1 = true)
    (falsity : ∀ min max n, min ≤ n → n ≤ max → exact n = false → (range min max).2 = true) :
    (hypothesis.integerPossible value exact range).Admits
      (leafTruth read (integerTest exact)) := by
  unfold integerPossible
  generalize hypothesis.read value = reading at admits
  cases admits with
  | unknown reason => exact admits_undecided reason
  | exact known =>
    cases known with
    | integer n => exact admits_exact (exact n)
    | boolean | string => exact admits_undecided _
  | boolean b => exact admits_undecided _
  | @integer min max n lower upper =>
    exact admits_of_outcomes (truth min max n lower upper) (falsity min max n lower upper)

lemma booleanEquals_admits {expected : Bool} (admits : (hypothesis.read value).Admits read) :
    (hypothesis.possible (.booleanEquals value expected)).Admits
      (leafTruth read (booleanTest fun value => value = expected)) := by
  rw [possible]
  generalize hypothesis.read value = reading at admits
  cases admits with
  | unknown reason => exact admits_undecided reason
  | exact known =>
    cases known with
    | boolean b => exact admits_exact _
    | integer | string => exact admits_undecided _
  | boolean b => cases b <;> cases expected <;> rfl
  | integer => exact admits_undecided _

lemma stringIn_admits {allowed} (admits : (hypothesis.read value).Admits read) :
    (hypothesis.possible (.stringIn value allowed)).Admits
      (leafTruth read (stringTest fun value => allowed.contains value)) := by
  rw [possible]
  generalize hypothesis.read value = reading at admits
  cases admits with
  | unknown reason => exact admits_undecided reason
  | exact known =>
    cases known with
    | string s => exact admits_exact _
    | integer | boolean => exact admits_undecided _
  | boolean | integer => exact admits_undecided _

/-- The integer a reference reads lies in its range; without a range it reads none. -/
theorem integerRange_admits (admits : (hypothesis.read value).Admits read) :
    match hypothesis.integerRange value with
    | some (min, max) => ∃ n, read.bind integerOf = .ok n ∧ min ≤ n ∧ n ≤ max
    | none => ∃ reason, read.bind integerOf = .error reason := by
  unfold integerRange
  generalize hypothesis.read value = reading at admits
  cases admits with
  | unknown reason => exact ⟨reason, rfl⟩
  | exact known =>
    cases known with
    | integer n => exact ⟨n, rfl, le_refl n, le_refl n⟩
    | boolean | string => exact ⟨_, rfl⟩
  | boolean b => exact ⟨_, rfl⟩
  | @integer min max n lower upper => exact ⟨n, rfl, lower, upper⟩

/-- The scale is not negative, so it keeps the order of the right side. -/
theorem scaled_mono (mul : Option Nat) (add : Option Int) {a b : Int} (order : a ≤ b) :
    scaled mul add a ≤ scaled mul add b := by
  unfold scaled
  have scale : (0 : Int) ≤ (mul.getD 1 : Nat) := Int.natCast_nonneg _
  have product := mul_le_mul_of_nonneg_right order scale
  omega

lemma integerCompare_admits {left right : ValueRef} {op mul add leftRead rightRead}
    (leftAdmits : (hypothesis.read left).Admits leftRead)
    (rightAdmits : (hypothesis.read right).Admits rightRead) :
    (hypothesis.possible (.integerCompare left op right mul add)).Admits
      (compareTruth op mul add leftRead rightRead) := by
  have leftRange := integerRange_admits leftAdmits
  have rightRange := integerRange_admits rightAdmits
  rw [possible, compareTruth]
  cases first : hypothesis.integerRange left with
  | none =>
    rw [first] at leftRange
    obtain ⟨reason, unknown⟩ := leftRange
    rw [unknown]
    exact admits_undecided reason
  | some leftBounds =>
    rw [first] at leftRange
    obtain ⟨n, known, lower, upper⟩ := leftRange
    rw [known]
    cases second : hypothesis.integerRange right with
    | none =>
      rw [second] at rightRange
      obtain ⟨reason, unknown⟩ := rightRange
      rw [unknown]
      exact admits_undecided reason
    | some rightBounds =>
      rw [second] at rightRange
      obtain ⟨m, known', lower', upper'⟩ := rightRange
      rw [known']
      have low := scaled_mono mul add lower'
      have high := scaled_mono mul add upper'
      refine admits_of_outcomes ?_ ?_
      all_goals cases op <;> simp [IntegerCompareOp.holds, comparePossible] <;> omega

lemma possibleEach_eq_map (of : List Predicate) :
    hypothesis.possibleEach of = of.map hypothesis.possible := by
  induction of with
  | nil => rfl
  | cons inner rest ih => rw [possibleEach, ih, map_cons]

/-- The truth value of a predicate is possible when everything it reads is. -/
theorem possible_admits : ∀ (predicate : Predicate),
    (∀ value ∈ predicate.values,
      (hypothesis.read value).Admits (resolver.read value candidate)) →
      (hypothesis.possible predicate).Admits (predicate.meaning candidate resolver)
  | .integerAtLeast value threshold, admits
  | .integerAtMost value threshold, admits => by
    rw [possible, meaning]
    refine integerPossible_admits (admits value (by simp [values])) ?_ ?_
    · simp only [decide_eq_true_eq]
      omega
    · simp only [decide_eq_true_eq, decide_eq_false_iff_not]
      omega
  | .integerEquals value expected, admits => by
    rw [possible, meaning]
    refine integerPossible_admits (admits value (by simp [values])) ?_ ?_
    · simp only [decide_eq_true_eq, Bool.and_eq_true]
      omega
    · simp only [decide_eq_true_eq, decide_eq_false_iff_not, Bool.or_eq_true]
      omega
  | .booleanEquals value expected, admits => by
    rw [meaning]
    exact booleanEquals_admits (admits value (by simp [values]))
  | .stringIn value allowed, admits => by
    rw [meaning]
    exact stringIn_admits (admits value (by simp [values]))
  | .integerCompare left op right mul add, admits => by
    rw [meaning]
    exact integerCompare_admits (admits left (by simp [values]))
      (admits right (by simp [values]))
  | .all of, admits => by
    rw [possible, meaning, possibleEach_eq_map, meanings_eq_map]
    simp only [values, mem_valuesOf] at admits
    exact admits_all fun inner inside => possible_admits inner fun value read =>
      admits value ⟨inner, inside, read⟩
  | .any of, admits => by
    rw [possible, meaning, possibleEach_eq_map, meanings_eq_map]
    simp only [values, mem_valuesOf] at admits
    exact admits_any fun inner inside => possible_admits inner fun value read =>
      admits value ⟨inner, inside, read⟩
  | .not of, admits => by
    rw [possible, meaning]
    exact admits_negate.mpr (possible_admits of
      (by simpa only [values] using admits))

end Predicates

/-! ## Reads -/

def FieldDomain.Holds : FieldDomain → ScalarValue → Prop
  | .identity, .string _ => True
  | .boolean, .boolean _ => True
  | .integer min max, .integer value => min ≤ value ∧ value ≤ max
  | _, _ => False

/-- The candidate's enumerated fields all hold the identity, and its other fields are present and
inside their domains. -/
structure Fits (policy : SelectionPolicy) (fieldDomains : Std.ExtTreeMap String FieldDomain)
    (identity : String) (candidate : Candidate) : Prop where
  enumerated : ∀ declaration ∈ policy.fields, declaration.valueType.isEnumString = true →
    candidate.fields[declaration.name]? = some (.string identity)
  others : ∀ declaration ∈ policy.fields, declaration.valueType.isEnumString = false →
    ∃ domain value, fieldDomains[declaration.name]? = some domain ∧
      candidate.fields[declaration.name]? = some value ∧ domain.Holds value

/-- The domain is one of the declared type, and an enumerated type lists every identity. -/
def FieldDomain.Describes (identities : List String) : FieldDomain → ValueType → Prop
  | .identity, .enumString allowed => ∀ identity ∈ identities, identity ∈ allowed
  | .boolean, .boolean => True
  | .integer min max, .integer => min ≤ max
  | _, _ => False

/-- The identities and the domains are ones the document can have. -/
def Describes (policy : SelectionPolicy) (identities : List String)
    (fieldDomains : Std.ExtTreeMap String FieldDomain) : Prop :=
  ∀ declaration ∈ policy.fields, ∃ domain, fieldDomains[declaration.name]? = some domain ∧
    domain.Describes identities declaration.valueType

lemma checkDomain_ok_iff {identities declaration domain} {u : Unit} :
    checkDomain identities declaration domain = .ok u ↔
      domain.Describes identities declaration.valueType := by
  unfold checkDomain
  cases domain with
  | identity =>
    cases declaration.valueType with
    | enumString allowed =>
      simp only [FieldDomain.Describes]
      cases found : identities.find? fun identity => !allowed.contains identity with
      | none => simpa [pure, Except.pure] using found
      | some identity =>
        have outside := find?_some found
        have listed := mem_of_find?_eq_some found
        simp only [throw, throwThe, MonadExceptOf.throw, reduceCtorEq, false_iff]
        intro members
        simp [members identity listed] at outside
    | integer | boolean | recordList =>
      simp [FieldDomain.Describes, throw, throwThe, MonadExceptOf.throw]
  | boolean =>
    cases declaration.valueType <;>
      simp [FieldDomain.Describes, throw, throwThe, MonadExceptOf.throw, pure, Except.pure]
  | integer min max =>
    cases declaration.valueType with
    | integer => simp [FieldDomain.Describes, failIf_ok_iff]
    | boolean | enumString | recordList =>
      simp [FieldDomain.Describes, throw, throwThe, MonadExceptOf.throw]

lemma checkDomains_ok_iff {policy identities fieldDomains} :
    checkDomains identities fieldDomains policy.fields = .ok () ↔
      Describes policy identities fieldDomains := by
  unfold Describes
  induction policy.fields with
  | nil => simp [checkDomains, pure, Except.pure]
  | cons declaration rest ih =>
    simp only [checkDomains, bind_ok_iff, okOr_ok_iff, checkDomain_ok_iff, ih,
      forall_mem_cons, Unique.exists_iff]
    constructor
    · rintro ⟨domain, found, describes, later⟩
      exact ⟨⟨domain, found, describes⟩, later⟩
    · rintro ⟨⟨domain, found, describes⟩, later⟩
      exact ⟨domain, found, describes, later⟩

section Reads

variable {policy : SelectionPolicy} {tables : SelectionTables} {facts : SelectionFactSnapshot}
  {nowUnixMs : Nat} {lists : ListIndex} {identities : List String}
  {fieldDomains : Std.ExtTreeMap String FieldDomain} {candidate : Candidate} {identity : String}

lemma resolver_fields (validated : policy.Validated) {declaration}
    (declared : declaration ∈ policy.fields) :
    (new policy facts lists tables nowUnixMs).fields[declaration.name]? =
      some declaration.valueType := by
  refine Std.ExtTreeMap.getElem?_ofList_of_mem Std.ReflCmp.compare_self ?_
    (List.mem_map_of_mem declared)
  have distinct := pairwise_map.mp validated.fieldNames
  refine pairwise_map.mpr (distinct.imp fun different same => different ?_)
  exact Std.LawfulEqCmp.eq_of_compare same

section

variable (validated : policy.Validated) (describes : Describes policy identities fieldDomains)
  (listed : identity ∈ identities) (fits : Fits policy fieldDomains identity candidate)

include validated describes listed fits

/-- A declared field reads a value of its domain. -/
theorem field_admits {declaration} (declared : declaration ∈ policy.fields) :
    ((Hypothesis.new policy fieldDomains facts lists tables nowUnixMs identity).read
      (.field declaration.name)).Admits
        ((new policy facts lists tables nowUnixMs).readField declaration.name
          candidate) := by
  have type := @resolver_fields policy tables facts nowUnixMs lists validated _ declared
  obtain ⟨domain, found, describes⟩ := describes declaration declared
  have enumerated := fits.enumerated declaration declared
  have others := fits.others declaration declared
  simp only [Hypothesis.read, Hypothesis.new, found, readField, type]
  cases valueType : declaration.valueType with
  | enumString allowed =>
    rw [valueType] at describes enumerated
    rw [enumerated rfl]
    cases domain with
    | identity =>
      have member : allowed.contains identity = true := by simpa using describes identity listed
      simp only [ScalarValue.matchesType, member, if_true]
      exact .exact _
    | boolean | integer => exact describes.elim
  | integer =>
    rw [valueType] at describes others
    obtain ⟨domain', value, same, holds, inside⟩ := others rfl
    obtain rfl : domain = domain' := some.inj (found.symm.trans same)
    rw [holds]
    cases domain with
    | integer min max =>
      cases value with
      | integer n => exact .integer inside.1 inside.2
      | boolean | string => exact inside.elim
    | identity | boolean => exact describes.elim
  | boolean =>
    rw [valueType] at describes others
    obtain ⟨domain', value, same, holds, inside⟩ := others rfl
    obtain rfl : domain = domain' := some.inj (found.symm.trans same)
    rw [holds]
    cases domain with
    | boolean =>
      cases value with
      | boolean b => exact .boolean b
      | integer | string => exact inside.elim
    | identity | integer => exact describes.elim
  | recordList keyColumn columns =>
    rw [valueType] at describes
    cases domain <;> exact describes.elim

theorem key_read {declaration} (declared : declaration ∈ policy.fields)
    (enumerated : declaration.valueType.isEnumString = true) :
    fieldDomains[declaration.name]? = some .identity ∧
      (new policy facts lists tables nowUnixMs).readKey declaration.name candidate =
        .ok identity := by
  have type := @resolver_fields policy tables facts nowUnixMs lists validated _ declared
  obtain ⟨domain, found, describes⟩ := describes declaration declared
  have holds := fits.enumerated declaration declared enumerated
  cases valueType : declaration.valueType with
  | enumString allowed =>
    rw [valueType] at describes type
    cases domain with
    | identity =>
      have member : allowed.contains identity = true := by simpa using describes identity listed
      refine ⟨found, ?_⟩
      simp only [readKey, readField, type, holds, ScalarValue.matchesType,
        member, if_true]
    | boolean | integer => exact describes.elim
  | integer | boolean | recordList => simp [valueType, ValueType.isEnumString] at enumerated

/-- Whatever the document reads for the candidate is among what it reads for the identity. -/
theorem read_admits (declared : policy.Declares value) :
    ((Hypothesis.new policy fieldDomains facts lists tables nowUnixMs identity).read value).Admits
      ((Resolver.new policy facts lists tables nowUnixMs).read value candidate) := by
  cases value with
  | field field =>
    obtain ⟨declaration, inside, rfl⟩ := declared
    exact field_admits validated describes listed fits inside
  | fact factKey => exact Reading.admits_toOption _
  | keyedFact factKey keyField valueColumn rowFilter absent =>
    obtain ⟨declaration, inside, rfl, enumerated⟩ := declared
    obtain ⟨domain, key⟩ := @key_read policy tables facts nowUnixMs lists _ _ _ _ validated
      describes listed fits _ inside enumerated
    have held : (Resolver.new policy facts lists tables nowUnixMs).lists = lists := rfl
    simp only [Hypothesis.read, Hypothesis.new, domain, ne_eq, not_true_eq_false, if_false,
      Resolver.read, key, held]
    cases lists.lookup (factKey, rowFilter) with
    | none => exact .unknown _
    | some rows =>
      simp only [bind_some]
      change Reading.Admits _ (Resolver.rowValue rows identity valueColumn absent)
      unfold Resolver.rowValue
      cases rows[identity]? with
      | none => exact .exact absent
      | some row =>
        simp only
        cases row[valueColumn]? with
        | none => exact .unknown _
        | some cell => exact .exact cell
  | table tableId keyField pins valueColumn fallbackColumn absent =>
    obtain ⟨declaration, inside, rfl, enumerated⟩ := declared
    obtain ⟨domain, key⟩ := @key_read policy tables facts nowUnixMs lists _ _ _ _ validated
      describes listed fits _ inside enumerated
    simp only [Hypothesis.read, Resolver.read, Resolver.tableReading, key]
    exact Reading.admits_toOption _

end

end Reads

/-! ## Terms -/

/-- Distinct members of a finite set that miss one of its members are fewer than it has. -/
theorem length_lt_card_of_missing {α : Type} [DecidableEq α] {members : List α} {set : Finset α}
    {wanted : α} (nodup : members.Nodup) (inside : ∀ a ∈ members, a ∈ set)
    (wantedIn : wanted ∈ set) (missing : wanted ∉ members) : members.length < set.card := by
  rw [← toFinset_card_of_nodup nodup]
  refine Finset.card_lt_card (Finset.ssubset_iff_subset_ne.mpr ⟨?_, ?_⟩)
  · intro a listed
    exact inside a (List.mem_toFinset.mp listed)
  intro same
  rw [← same, List.mem_toFinset] at wantedIn
  exact missing wantedIn

/-- The keys of a domain. -/
noncomputable def domainKeys : Option (Int × Int) → Finset LookupKey
  | some (min, max) => (Finset.Icc min max).image .integer
  | none => {.boolean true, .boolean false}

variable {range : Option (Int × Int)} {key : LookupKey}

lemma reachedIn_iff : key.reachedIn range = true ↔ key ∈ domainKeys range := by
  cases range with
  | none =>
    cases key with
    | boolean value => cases value <;> simp [reachedIn, domainKeys]
    | integer | string => simp [reachedIn, domainKeys]
  | some bounds => cases key <;> simp [reachedIn, domainKeys]

lemma card_domainKeys (member : key ∈ domainKeys range) :
    ((domainKeys range).card : Int) ≤ domainSize range := by
  cases range with
  | none => decide
  | some bounds =>
    obtain ⟨min, max⟩ := bounds
    obtain ⟨n, inside, rfl⟩ := Finset.mem_image.mp member
    rw [Finset.mem_Icc] at inside
    have count : ((Finset.Icc min max).image integer).card ≤ (Finset.Icc min max).card :=
      Finset.card_image_le
    rw [Int.card_Icc] at count
    simp only [domainKeys, domainSize]
    omega

/-- A domain value that no entry covers leaves the domain uncovered, as the keys are distinct. -/
theorem uncovered {entries : List LookupEntry} (distinct : (entries.map (·.key)).Nodup)
    (member : key.reachedIn range = true)
    (missing : entries.find? (fun entry => entry.key = key) = none) :
    ((entries.filter fun entry => entry.key.reachedIn range).map (·.valueMilli)).length <
      domainSize range := by
  rw [reachedIn_iff] at member
  refine lt_of_lt_of_le ?_ (card_domainKeys member)
  have keys : ((entries.filter fun entry => entry.key.reachedIn range).map (·.key)).Nodup :=
    distinct.sublist (filter_sublist.map _)
  have reached := length_lt_card_of_missing keys ?_ member ?_
  · simpa using reached
  · intro other listed
    obtain ⟨entry, inside, rfl⟩ := List.mem_map.mp listed
    exact reachedIn_iff.mp (mem_filter.mp inside).2
  intro listed
  obtain ⟨entry, inside, rfl⟩ := List.mem_map.mp listed
  simpa using find?_eq_none.mp missing entry (mem_of_mem_filter inside)

lemma rangedLookup_covers {entries : List LookupEntry} {defaultMilli value} {output : Int}
    (distinct : (entries.map (·.key)).Nodup) (member : (of value).reachedIn range = true)
    (applied : (Transform.lookup entries defaultMilli).apply value = .ok output) :
    output ∈ (rangedOutputs (.lookup entries defaultMilli) range).1 := by
  simp only [Transform.apply, okOr_ok_iff] at applied
  simp only [rangedOutputs]
  cases found : entries.find? fun entry => entry.key = of value with
  | some entry =>
    rw [found] at applied
    simp only [map_some, some_or, some.injEq] at applied
    have same : entry.key = of value := by simpa using find?_some found
    have reached : output ∈
        (entries.filter fun entry => entry.key.reachedIn range).map (·.valueMilli) :=
      List.mem_map.mpr ⟨entry,
        mem_filter.mpr ⟨mem_of_find?_eq_some found, by rw [same]; exact member⟩, applied⟩
    split
    · exact reached
    cases defaultMilli with
    | none => exact reached
    | some fallback => exact mem_append_left _ reached
  | none =>
    rw [found] at applied
    simp only [map_none, none_or] at applied
    subst defaultMilli
    rw [if_neg (not_le.mpr (uncovered distinct member found))]
    exact mem_append_right _ mem_cons_self

/-- The contribution of a value of the domain is at most that of one of the outputs. -/
theorem rangedOutputs_covers {transform value} {output : Int}
    (distinct : ∀ entries defaultMilli, transform = .lookup entries defaultMilli →
      (entries.map (·.key)).Nodup)
    (member : (of value).reachedIn range = true)
    (applied : transform.apply value = .ok output) (weightMilli : Int) :
    ∃ largest ∈ (rangedOutputs transform range).1,
      contributionOf output weightMilli ≤ contributionOf largest weightMilli := by
  cases transform with
  | lookup entries defaultMilli =>
    exact ⟨output, rangedLookup_covers (distinct entries defaultMilli rfl) member applied,
      le_refl _⟩
  | identity =>
    cases value with
    | integer n =>
      cases range with
      | none => simp [reachedIn, of] at member
      | some bounds =>
        obtain ⟨min, max⟩ := bounds
        obtain rfl : n = output := by simpa [Transform.apply, integerOf] using applied
        simp only [of, reachedIn, any_some, Bool.and_eq_true,
          decide_eq_true_eq] at member
        -- Over a range the contribution is largest at one of the ends.
        rcases le_total 0 weightMilli with positive | negative
        · exact ⟨max, by simp [rangedOutputs], Int.tdiv_le_tdiv (by norm_num)
            (mul_le_mul_of_nonneg_right member.2 positive)⟩
        · exact ⟨min, by simp [rangedOutputs], Int.tdiv_le_tdiv (by norm_num)
            (mul_le_mul_of_nonpos_right member.1 negative)⟩
    | boolean | string => simp [Transform.apply, integerOf] at applied
  | threshold atLeast thenMilli otherwiseMilli =>
    cases value with
    | integer n =>
      cases range with
      | none => simp [reachedIn, of] at member
      | some bounds =>
        obtain ⟨min, max⟩ := bounds
        simp only [of, reachedIn, any_some, Bool.and_eq_true,
          decide_eq_true_eq] at member
        refine ⟨output, ?_, le_refl _⟩
        simp only [Transform.apply, integerOf, Except.map, ok.injEq] at applied
        simp only [rangedOutputs, mem_append]
        subst output
        by_cases reached : n ≥ atLeast
        · rw [if_pos reached, if_pos (show max ≥ atLeast by omega)]
          exact .inl mem_cons_self
        · rw [if_neg reached, if_pos (show min < atLeast by omega)]
          exact .inr mem_cons_self
    | boolean | string => simp [Transform.apply, integerOf, Except.map] at applied

variable {scoreMilli : Int}

section Scores

variable {hypothesis : Hypothesis} {candidate : Candidate} {resolver : Resolver}

section

variable {term : ScoringTerm}
  (admits : (hypothesis.read term.value).Admits (resolver.read term.value candidate))
  (distinct : ∀ entries defaultMilli, term.transform = .lookup entries defaultMilli →
    (entries.map (·.key)).Nodup)

include admits distinct

/-- What the candidate's own transformed value can be, before the handling of an unknown input. -/
theorem rawOutputs_cover : (∀ output, termValue candidate resolver term = .ok output →
        ∃ largest ∈ (hypothesis.rawOutputs term).1,
          contributionOf output term.weightMilli ≤ contributionOf largest term.weightMilli) ∧
      ((∃ reason, termValue candidate resolver term = .error reason) →
        (hypothesis.rawOutputs term).2.1 = true ∨ (hypothesis.rawOutputs term).2.2 = true) := by
  rw [termValue_eq]
  unfold rawOutputs
  generalize hypothesis.read term.value = reading at admits
  generalize resolver.read term.value candidate = read at admits
  cases admits with
  | unknown reason => exact ⟨by simp [Except.bind], fun _ => .inl rfl⟩
  | exact value =>
    simp only [Except.bind]
    cases term.transform.apply value with
    | error reason => exact ⟨by simp, fun _ => .inl rfl⟩
    | ok output =>
      refine ⟨fun other same => ?_, by simp⟩
      obtain rfl := ok.inj same
      exact ⟨output, mem_cons_self, le_refl _⟩
  | boolean value =>
    refine ⟨fun output applied => ?_, fun _ => .inr rfl⟩
    exact rangedOutputs_covers distinct rfl applied term.weightMilli
  | @integer min max value lower upper =>
    refine ⟨fun output applied => ?_, fun _ => .inr rfl⟩
    refine rangedOutputs_covers distinct ?_ applied term.weightMilli
    simp [of, reachedIn, lower, upper]

lemma outputs_cover {transformedMilli : Int} {outputs}
    (transformed : term.Transformed candidate resolver transformedMilli)
    (answer : hypothesis.outputs term = some outputs) : ∃ largest ∈ outputs,
      contributionOf transformedMilli term.weightMilli ≤
        contributionOf largest term.weightMilli := by
  obtain ⟨known, unknown⟩ := rawOutputs_cover admits distinct
  simp only [Hypothesis.outputs] at answer
  rcases transformed with valued | ⟨missing, substituted⟩
  · obtain ⟨largest, inside, order⟩ := known _ valued
    have kept : ∀ a ∈ (hypothesis.rawOutputs term).1, a ∈ outputs := by
      intro a listed
      cases handling : term.onUnknown with
      | dropCandidate =>
        rw [handling] at answer
        obtain rfl := some.inj answer
        exact listed
      | abortEvaluation =>
        rw [handling] at answer
        simp only at answer
        split at answer
        · cases answer
        · obtain rfl := some.inj answer
          exact listed
      | substituteMilli valueMilli =>
        rw [handling] at answer
        simp only at answer
        split at answer
        · obtain rfl := some.inj answer
          exact mem_append_left _ listed
        · obtain rfl := some.inj answer
          exact listed
    exact ⟨largest, kept largest inside, order⟩
  · have joins := unknown missing
    rw [substituted] at answer
    simp only [Bool.or_eq_true, if_pos joins, some.injEq] at answer
    subst outputs
    exact ⟨transformedMilli, mem_append_right _ mem_cons_self, le_refl _⟩

end

lemma largestContribution_spec {weightMilli result : Int} {outputs largest}
    (answer : largestContribution weightMilli outputs largest = some result) :
    (∀ earlier, largest = some earlier → earlier ≤ result) ∧
      ∀ output ∈ outputs, contributionOf output weightMilli ≤ result := by
  induction outputs generalizing largest with
  | nil =>
    simp only [largestContribution, some.injEq] at answer
    refine ⟨?_, by simp⟩
    rintro earlier rfl
    exact le_of_eq answer
  | cons output rest ih =>
    simp only [largestContribution] at answer
    cases fits : toI64 (contributionOf output weightMilli) with
    | none =>
      rw [fits] at answer
      cases answer
    | some contribution =>
      rw [fits] at answer
      obtain ⟨reached, later⟩ := ih answer
      obtain ⟨rfl, -⟩ := toI64_eq_some_iff.mp fits
      have bound := reached _ rfl
      cases largest with
      | none => exact ⟨by simp, by simpa using ⟨bound, later⟩⟩
      | some earlier =>
        simp only [elim_some, max_le_iff] at bound
        exact ⟨by simpa using bound.1, by simpa using ⟨bound.2, later⟩⟩

/-- The score is at most the bound. -/
def Score.Covers : Score → Int → Prop
  | .excluded, _ => False
  | .max milli, score => score ≤ milli
  | .unbounded, _ => True

def UpperBound.Covers : UpperBound → Int → Prop
  | .noneEligible, _ => False
  | .max milli, score => score ≤ milli
  | .unbounded, _ => True

lemma totalBound_covers {terms contributions} {partialScore total : Int}
    (admits : ∀ term ∈ terms,
      (hypothesis.read term.value).Admits (resolver.read term.value candidate))
    (distinct : ∀ term ∈ terms, ∀ entries defaultMilli,
      term.transform = .lookup entries defaultMilli → (entries.map (·.key)).Nodup)
    (each : Contributions candidate resolver terms contributions) (order : partialScore ≤ total) :
    (hypothesis.totalBound terms total).Covers (partialScore + contributions.sum) := by
  induction each generalizing partialScore total with
  | nil =>
    simp only [totalBound, sum_nil, add_zero]
    cases fits : toI64 total with
    | none => exact trivial
    | some narrowed =>
      obtain ⟨rfl, -⟩ := toI64_eq_some_iff.mp fits
      exact order
  | @cons term contribution rest later head tail ih =>
    obtain ⟨transformedMilli, transformed, fits⟩ := head
    obtain ⟨rfl, -⟩ := toI64_eq_some_iff.mp fits
    rw [totalBound]
    cases answer : hypothesis.outputs term with
    | none => exact trivial
    | some outputs =>
      obtain ⟨output, inside, below⟩ := outputs_cover (admits term mem_cons_self)
        (distinct term mem_cons_self) transformed answer
      cases outputs with
      | nil => simp at inside
      | cons first others =>
        simp only
        cases bound : largestContribution term.weightMilli (first :: others) none with
        | none => exact trivial
        | some largest =>
          have above := (largestContribution_spec bound).2 output inside
          rw [sum_cons, ← add_assoc]
          refine ih (fun other listed => admits other (mem_cons_of_mem _ listed))
            (fun other listed => distinct other (mem_cons_of_mem _ listed)) ?_
          omega

/-- Gates that let the candidate through settle nothing about its identity. -/
theorem gatesBound_none {gates}
    (admits : ∀ gate ∈ gates, ∀ value ∈ gate.predicate.values,
      (hypothesis.read value).Admits (resolver.read value candidate))
    (tables : ∀ gate ∈ gates,
      gate.predicate.readsTable = true → gate.onUnknown.substitutes = false)
    (passes : ∀ gate ∈ gates, gate.Passes candidate resolver) :
    hypothesis.gatesBound gates = none := by
  induction gates with
  | nil => rfl
  | cons gate rest ih =>
    have later := ih (fun other listed => admits other (mem_cons_of_mem _ listed))
      (fun other listed => tables other (mem_cons_of_mem _ listed))
      (fun other listed => passes other (mem_cons_of_mem _ listed))
    have possible := possible_admits gate.predicate (admits gate mem_cons_self)
    have noStandIn := tables gate mem_cons_self
    rw [gatesBound]
    rcases passes gate mem_cons_self with holds | ⟨⟨reason, undecided⟩, substituted⟩
    · rw [holds] at possible
      have truth : (hypothesis.possible gate.predicate).truth = true := possible
      simp [truth, later]
    rw [undecided] at possible
    have unknown : (hypothesis.possible gate.predicate).unknown = true := possible
    have apart : gate.predicate.readsTable = false := by
      by_contra reads
      have := noStandIn (by simpa using reads)
      simp [substituted, GateUnknownHandling.substitutes] at this
    simp [apart, unknown, later]

lemma score_covers {policy} (validated : policy.Validated)
    (admits : ∀ value, policy.Declares value →
      (hypothesis.read value).Admits (resolver.read value candidate))
    (scores : Scores policy candidate resolver scoreMilli) :
    (hypothesis.score policy).Covers scoreMilli := by
  rw [score, gatesBound_none
    (fun gate inside value read => admits value (validated.gateReads gate inside value read))
    validated.tableGates scores.gates]
  obtain ⟨contributions, each, rfl⟩ := scores.terms
  have covers := totalBound_covers
    (fun term inside => admits term.value (validated.termReads term inside))
    validated.lookups each (le_refl 0)
  simpa using covers

end Scores

/-! ## The bound over the identities -/

lemma bestScore_covers {policy hypothesisOf identities best}
    (reached : (∃ earlier, best = some earlier ∧ scoreMilli ≤ earlier) ∨ ∃ identity ∈ identities,
      ((hypothesisOf identity).score policy).Covers scoreMilli) :
    (bestScore policy hypothesisOf identities best).Covers scoreMilli := by
  induction identities generalizing best with
  | nil =>
    rcases reached with ⟨earlier, rfl, order⟩ | ⟨identity, listed, -⟩
    · exact order
    · simp at listed
  | cons identity rest ih =>
    rw [bestScore]
    cases score : (hypothesisOf identity).score policy with
    | unbounded => exact trivial
    | excluded =>
      refine ih ?_
      rcases reached with earlier | ⟨other, listed, covers⟩
      · exact .inl earlier
      rcases mem_cons.mp listed with rfl | later
      · rw [score] at covers
        exact covers.elim
      · exact .inr ⟨other, later, covers⟩
    | max milli =>
      refine ih ?_
      rcases reached with ⟨earlier, rfl, order⟩ | ⟨other, listed, covers⟩
      · exact .inl ⟨_, rfl, le_trans order (le_max_left earlier milli)⟩
      rcases mem_cons.mp listed with rfl | later
      · rw [score] at covers
        refine .inl ⟨_, rfl, le_trans covers ?_⟩
        cases best with
        | none => exact le_refl milli
        | some earlier => exact le_max_right earlier milli
      · exact .inr ⟨other, later, covers⟩

section UpperBound

variable {digests : Digests} {policy : SelectionPolicy} {tables : SelectionTables}
  {candidates : List Candidate} {facts : SelectionFactSnapshot} {nowUnixMs : Nat}
  {identities : List String} {fieldDomains : Std.ExtTreeMap String FieldDomain}
  {candidate : Candidate} {identity : String}

/-- A bound is only answered for identities and domains that describe the document. -/
theorem describes_of_upperBound {bound}
    (answer : upperBoundWithTables policy tables facts nowUnixMs identities fieldDomains =
      .ok bound) : Describes policy identities fieldDomains := by
  simp only [upperBoundWithTables, bind_ok_iff] at answer
  obtain ⟨_, -, _, -, _, domains, -⟩ := answer
  exact checkDomains_ok_iff.mp domains

/-- The bound covers the score of a candidate of one of the identities, inside the domains. -/
theorem upperBound_covers_scores {lists} (listed : identity ∈ identities)
    (fits : Fits policy fieldDomains identity candidate)
    (describes : Describes policy identities fieldDomains) (valid : policy.validate = .ok ())
    (bound : tables.checkBound policy = .ok ())
    (read : readLists policy facts nowUnixMs = .ok lists)
    (scores : Scores policy candidate (.new policy facts lists tables nowUnixMs) scoreMilli) :
    ∃ bound, upperBoundWithTables policy tables facts nowUnixMs identities fieldDomains =
      .ok bound ∧ bound.Covers scoreMilli := by
  have validated := SelectionPolicy.validate_ok valid
  simp only [upperBoundWithTables, valid, bound, checkDomains_ok_iff.mpr describes, read]
  -- A table keyed by a field that does not hold the identity leaves the score unbounded.
  by_cases keyed : policy.tableKeyFields.any fun keyField =>
      fieldDomains[keyField]? ≠ some .identity
  · exact ⟨.unbounded, if_pos keyed, trivial⟩
  refine ⟨_, if_neg keyed, bestScore_covers (.inr ⟨identity, listed, ?_⟩)⟩
  exact score_covers validated
    (fun value declared => read_admits validated describes listed fits declared) scores

/-- A candidate of one of the identities, inside the domains, never scores above the bound; where
the bound says that no identity is eligible, no evaluation ranks it. -/
theorem upper_bound_sound (inside : candidate ∈ candidates) (listed : identity ∈ identities)
    (fits : Fits policy fieldDomains identity candidate) :
    (Describes policy identities fieldDomains → ∀ scoreMilli,
      Ranks digests policy tables candidates facts nowUnixMs candidate.candidateId scoreMilli →
        upperBoundWithTables policy tables facts nowUnixMs identities fieldDomains =
            .ok .unbounded ∨
          ∃ milli, upperBoundWithTables policy tables facts nowUnixMs identities fieldDomains =
              .ok (.max milli) ∧ scoreMilli ≤ milli) ∧
      (upperBoundWithTables policy tables facts nowUnixMs identities fieldDomains =
          .ok .noneEligible → ∀ scoreMilli,
        ¬ Ranks digests policy tables candidates facts nowUnixMs candidate.candidateId
          scoreMilli) := by
  constructor
  · intro describes scoreMilli ranks
    obtain ⟨valid, bound, lists, read, scores⟩ := ranks.scores inside
    obtain ⟨best, answer, covers⟩ :=
      upperBound_covers_scores listed fits describes valid bound read scores
    cases best with
    | noneEligible => exact covers.elim
    | max milli => exact .inr ⟨milli, answer, covers⟩
    | unbounded => exact .inl answer
  · intro none scoreMilli ranks
    obtain ⟨valid, bound, lists, read, scores⟩ := ranks.scores inside
    obtain ⟨best, answer, covers⟩ := upperBound_covers_scores listed fits
      (describes_of_upperBound none) valid bound read scores
    obtain rfl : UpperBound.noneEligible = best := ok.inj (none.symm.trans answer)
    exact covers

end UpperBound

namespace Sample

/-- One identity field, one number between 1 and 90 and one flag that gates the candidate. -/
def levelPolicy : SelectionPolicy where
  schemaVersion := selectionPolicySchemaVersion
  policyId := "policy-level"
  appliesTo := ⟨"layout-level", ⟨"selected", "empty", "insufficient", "ambiguous", "unknown"⟩⟩
  fields := [⟨"member", .enumString ["member-a", "member-b"]⟩, ⟨"level", .integer⟩,
    ⟨"ready", .boolean⟩]
  facts := []
  tables := []
  gates := [⟨"gate-ready", .booleanEquals (.field "ready") true, .dropCandidate⟩]
  scoring := [⟨"term-level", .field "level", .identity, -1000, .dropCandidate⟩,
    ⟨"term-member", .field "member", .lookup [⟨.string "member-a", 5000⟩] (some 0), 1000,
      .dropCandidate⟩]
  selection := ⟨.noneAllowed, 1⟩
  tieBreak := [.candidateId .lowestFirst]

def noTables : SelectionTables := ⟨∅⟩

def noFacts : SelectionFactSnapshot := ⟨"snapshot-none", 0, ∅⟩

def digests : Digests := ⟨fun _ => .ok "sha256:policy", fun _ => "sha256:input"⟩

def levelCandidate : Candidate where
  candidateId := "level#00"
  fields := .ofList [("member", ScalarValue.string "member-a"),
    ("level", ScalarValue.integer 40), ("ready", ScalarValue.boolean true)]

def levelDomains : Std.ExtTreeMap String FieldDomain :=
  .ofList [("member", FieldDomain.identity), ("level", FieldDomain.integer 1 90),
    ("ready", FieldDomain.boolean)]

lemma level_fits : Fits levelPolicy levelDomains "member-a" levelCandidate where
  enumerated := by simp only [levelPolicy, forall_mem_cons]; decide +kernel
  others := by
    simp only [levelPolicy, forall_mem_cons]
    refine ⟨by simp [ValueType.isEnumString], fun _ => ?_, fun _ => ?_, by simp⟩
    · exact ⟨.integer 1 90, .integer 40, rfl, rfl, by decide, by decide⟩
    · exact ⟨.boolean, .boolean true, rfl, rfl, trivial⟩

lemma level_ranks : Ranks digests levelPolicy noTables [levelCandidate] noFacts 0 "level#00" 4960 :=
  ⟨_, rfl, _, mem_cons_self, rfl, rfl, rfl⟩

/-- The candidate scores 4960, and the largest score of its identity is 4999. -/
theorem upper_bound_sound_level :
    Ranks digests levelPolicy noTables [levelCandidate] noFacts 0 "level#00" 4960 ∧
      upperBoundWithTables levelPolicy noTables noFacts 0 ["member-a"] levelDomains =
        .ok (.max 4999) ∧
      (upperBoundWithTables levelPolicy noTables noFacts 0 ["member-a"] levelDomains =
          .ok .unbounded ∨
        ∃ milli, upperBoundWithTables levelPolicy noTables noFacts 0 ["member-a"] levelDomains =
            .ok (.max milli) ∧ (4960 : Int) ≤ milli) :=
  ⟨level_ranks, rfl, (upper_bound_sound mem_cons_self mem_cons_self level_fits).1
    (checkDomains_ok_iff.mp rfl) 4960 level_ranks⟩

end Sample

end Selection
