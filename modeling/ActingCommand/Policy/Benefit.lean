import ActingCommand.Policy.Allocation
import ActingCommand.Policy.Clock
import ActingCommand.Policy.ExactSum

/-!
# The net benefit of a judged candidate

What a run produces less what it consumes, each pool's amount by its weight and its scale, summed
exactly together with a bound on what the rounding of the declared numbers can change. A sum within
its bound has no trusted sign; outside the band a benefit of at least one thousandth is positive.
-/

namespace Policy

open Machine List Except Nat

/-- A compiled entry declares one of a written amount, the pending marker and an expectation. -/
inductive EffectQuantity
  | units (amount : Nat)
  | pending
  | expectedMilli (amount : Nat)
deriving DecidableEq

structure ResourceEffectSpec where
  poolId : String
  quantity : EffectQuantity
  confidenceMilli : Nat

structure PoolValuation where
  scale : Nat
  baseWeightMilli : Nat
  positive : 0 < scale

inductive ValuationDeclaration
  | declared (valuation : PoolValuation)
  | pending

/-- A pool, with the fact its observation reads unless it reads an outcome. -/
structure PoolSpec where
  id : String
  scope : ScopeSelector
  valuation : Option ValuationDeclaration
  regenerating : Bool
  factKey : Option String

/-- A regenerating pool's reading: its capacity, what it projects to at the evaluation's instant,
unless it cannot be projected, and the next instant at which that changes. -/
structure PoolReading where
  capacity : Int
  projected : Option Int
  nextChange : Option Nat

structure ReserveSpec where
  poolId : String
  atLeast : Nat

structure JudgedTask where
  id : String
  produces : List ResourceEffectSpec
  consumes : List ResourceEffectSpec
  reserves : List ReserveSpec
  benefitRealization : Bool

/-- What a judgement reads; `weights` are the effective weights of the candidate's resource term. -/
structure JudgementContext where
  snapshot : InstanceSnapshot
  poolSpecs : Std.ExtTreeMap String PoolSpec
  poolValues : Std.ExtTreeMap String PoolReading
  weights : Std.ExtTreeMap String Nat

/-- Why a judged candidate's net benefit is unknown. -/
inductive Gap
  | noEffects
  | entryPending (poolId : String)
  | valuationPending (poolId : String)
  | valuationMissing (poolId : String)
  | readingUnknown (poolId : String) (factKey : Option String)

def JudgementContext.valuedPool (context : JudgementContext) (poolId : String) :
    Except Gap (PoolSpec × PoolValuation) :=
  match context.poolSpecs[poolId]? with
  | none => .error (.valuationMissing poolId)
  | some pool =>
    if !scopeMatchesInstance pool.scope context.snapshot then .error (.valuationMissing poolId)
    else
      match pool.valuation with
      | some (.declared valuation) => .ok (pool, valuation)
      | some .pending => .error (.valuationPending poolId)
      | none => .error (.valuationMissing poolId)

/-! ## What an entry is worth -/

def checkedU128 (value : Nat) : Option Nat := if value ≤ u128Max then some value else none

variable (effect : ResourceEffectSpec)

/-- Explicit expectations are not multiplied by the evidence's confidence. -/
def ResourceEffectSpec.yieldMilli : Nat :=
  match effect.quantity with
  | .expectedMilli amount => amount
  | .units amount => amount * effect.confidenceMilli / 1000 * 1000
  | .pending => 0

def ResourceEffectSpec.consumedMilli : Nat :=
  match effect.quantity with
  | .expectedMilli amount => amount
  | .units amount => amount * 1000
  | .pending => 0

/-- The sum of what the entries of one pool are worth. -/
def poolTotal (worth : ResourceEffectSpec → Nat) (effects : List ResourceEffectSpec)
    (poolId : String) : Nat :=
  ((effects.filter (·.poolId = poolId)).map worth).sum

def perRunYield (produces : List ResourceEffectSpec) (poolId : String) : Nat :=
  poolTotal (·.yieldMilli) produces poolId

/-- The sum only grows, so one check at its end is the check of every step. -/
def declaredConsumptionMilli (task : JudgedTask) (poolId : String) : Evaluated Nat :=
  let taskId := task.id
  orOverflow (checkedU128 (poolTotal (·.consumedMilli) task.consumes poolId))
    s!"task '{taskId}' declares a consumption of pool '{poolId}' beyond the integer range"

def ResourceEffectSpec.isExpected : Bool :=
  match effect.quantity with
  | .expectedMilli _ => true
  | _ => false

def expectedEntries (effects : List ResourceEffectSpec) (poolId : String) : Nat :=
  poolTotal (fun effect => if effect.isExpected then 1 else 0) effects poolId

/-- The numerator over four thousand scales of one pool's rounding bound. -/
def roundingNumerator (quantityMilli expectedEntries weightMilli : Nat) : Option Nat :=
  checkedU128 (2 * quantityMilli + expectedEntries * (2 * weightMilli + 1))

/-- The share of the weight that a consumed unit of a regenerating pool costs. -/
def discount (capacity current reserve : Int) : Ratio :=
  let missing := max (capacity - current) 0
  if room : 0 < capacity - reserve then
    let missing := (min missing (capacity - reserve)).natAbs
    let common := Nat.gcd missing (capacity - reserve).natAbs
    ⟨missing / common, (capacity - reserve).natAbs / common,
      Nat.div_pos (Nat.gcd_le_right _ (Int.natAbs_pos.mpr room.ne'))
        (Nat.gcd_pos_of_pos_right _ (Int.natAbs_pos.mpr room.ne'))⟩
  else if missing = 0 then ⟨0, 1, Nat.one_pos⟩
  else .one

/-! ## The judgement -/

structure Accounts where
  sum : ExactSum
  tolerance : ExactSum
  items : List String
  downstream : Bool
  readings : List PoolSpec
  wakeUnixMs : Option Nat

def Accounts.book (accounts : Accounts) (term bound : Ratio) (negative : Bool) (item : String) :
    Option Accounts := do
  let sum ← accounts.sum.add term negative
  let tolerance ← accounts.tolerance.add bound false
  some { accounts with sum := sum, tolerance := tolerance, items := accounts.items ++ [item] }

inductive Judgement
  | known (accounts : Accounts)
  | unknown (gap : Gap) (suggestions : List PoolSpec)

section Judge

variable (task : JudgedTask) (context : JudgementContext)

variable (poolId : String) (accounts : Accounts)

def JudgementContext.weightMilli (valuation : PoolValuation) : Nat :=
  context.weights[poolId]?.getD valuation.baseWeightMilli

def overflowDetail : String :=
  let taskId := task.id
  let instanceId := context.snapshot.instanceId
  s!"task '{taskId}' net benefit overflowed on instance '{instanceId}'"

def producePool : Evaluated Accounts :=
  match context.valuedPool poolId with
  | .error _ => .error (.invalid "a judged pool lost its valuation")
  | .ok (_, valuation) =>
    let produced := perRunYield task.produces poolId
    let weightMilli := context.weightMilli poolId valuation
    orOverflow (do
      let term ← ratio [produced, weightMilli] [valuation.scale, 1000]
      let rounding ←
        roundingNumerator produced (expectedEntries task.produces poolId) weightMilli
      let bound ← ratio [rounding] [valuation.scale, 4000]
      let amount := term.numerator / term.denominator
      { accounts with downstream := accounts.downstream || decide (0 < weightMilli) }.book
        term bound
        false s!"{poolId}:+{amount}") (overflowDetail task context)

def JudgedTask.reserve : Nat :=
  ((task.reserves.filter (·.poolId = poolId)).map (·.atLeast)).foldl max 0

/-- The share of the weight a consumed unit costs, with the pool's next change; nothing while the
pool's reading is unknown. -/
def shareRatio (pool : PoolSpec) (poolId : String) : Option (Ratio × Option Nat) :=
  if pool.regenerating then do
    let reading ← context.poolValues[poolId]?
    let current ← reading.projected
    some (discount reading.capacity current (task.reserve poolId), reading.nextChange)
  else some (.one, none)

def consumePool : Evaluated Accounts :=
  match context.valuedPool poolId with
  | .error _ => .error (.invalid "a judged pool lost its valuation")
  | .ok (pool, valuation) => do
    let consumed ← declaredConsumptionMilli task poolId
    match shareRatio task context pool poolId with
    | none => .ok { accounts with readings := accounts.readings ++ [pool] }
    | some (share, next) =>
      let weightMilli := context.weightMilli poolId valuation
      orOverflow (do
        let term ← ratio [consumed, weightMilli, share.numerator]
          [valuation.scale, 1000, share.denominator]
        let rounding ←
          roundingNumerator consumed (expectedEntries task.consumes poolId) weightMilli
        let bound ← ratio [rounding, share.numerator] [valuation.scale, 4000, share.denominator]
        let amount := (term.numerator + term.denominator - 1) / term.denominator
        { accounts with wakeUnixMs := minWake accounts.wakeUnixMs next }.book term bound true
          s!"{poolId}:-{amount}") (overflowDetail task context)

/-- Each pool of the entries once, in the order of its first entry. -/
def eachPool (step : String → Accounts → Evaluated Accounts) :
    List ResourceEffectSpec → List String → Accounts → Evaluated Accounts
  | [], _, accounts => .ok accounts
  | effect :: rest, seen, accounts =>
    if effect.poolId ∈ seen then eachPool step rest seen accounts
    else do
      let next ← step effect.poolId accounts
      eachPool step rest (effect.poolId :: seen) next

/-- The first entry that leaves the benefit unknown. -/
def firstGap : List ResourceEffectSpec → Option Gap
  | [] => none
  | effect :: rest =>
    if effect.quantity = .pending then some (.entryPending effect.poolId)
    else
      match context.valuedPool effect.poolId with
      | .error gap => some gap
      | .ok _ => firstGap rest

def judge : Evaluated Judgement :=
  if task.produces = [] ∧ task.consumes = [] then .ok (.unknown .noEffects [])
  else
    match firstGap context (task.produces ++ task.consumes) with
    | some gap => .ok (.unknown gap [])
    | none => do
      let produced ← eachPool (producePool task context) task.produces []
        ⟨.new, .new, [], false, [], none⟩
      let accounts ← eachPool (consumePool task context) task.consumes [] produced
      match accounts.readings with
      | [] => .ok (.known accounts)
      | first :: _ => .ok (.unknown (.readingUnknown first.id first.factKey) accounts.readings)

end Judge

/-! ## The gate -/

/-- Why a candidate within its rounding error is released, or deferred. -/
inductive ZeroTier
  | released
  | unmarked
  | noDownstreamValue
  | latestFailed
deriving DecidableEq

/-- The gate's verdict of a known benefit, with the wake of a deferred candidate. -/
inductive GateVerdict
  | withinTolerance (benefitMilli toleranceMilli : Int) (tier : ZeroTier) (wake : Option Nat)
  | positive (known : KnownBenefit)
  | nonpositive (benefitMilli : Int) (wake : Option Nat)

def saturatingMilli (value : Int) : Int :=
  max (-9223372036854775808) (min value 9223372036854775807)

/-- What the utility term divides by, at least 1. -/
def expectedDurationMs (expectedRuntimeMs lastDurationMs : Option Nat) (declaredMs : Nat) : Nat :=
  max (expectedRuntimeMs.getD ((lastDurationMs.filter (0 < ·)).getD declaredMs)) 1

def gateKnown (task : JudgedTask) (context : JudgementContext) (accounts : Accounts)
    (latest : Option TaskTerminalState) (expectedRuntimeMs lastDurationMs : Option Nat)
    (declaredMs nowUnixMs : Nat) : Evaluated GateVerdict :=
  let taskId := task.id
  let instanceId := context.snapshot.instanceId
  let benefitMilli := saturatingMilli accounts.sum.floor
  let wake := accounts.wakeUnixMs.filter (nowUnixMs < ·)
  match accounts.sum.within accounts.tolerance with
  | none => .error (.invalid
      s!"task '{taskId}' net benefit tolerance is negative on instance '{instanceId}'")
  | some true =>
    let tier : ZeroTier :=
      if !task.benefitRealization then .unmarked
      else if !accounts.downstream then .noDownstreamValue
      else if latest = some .failed then .latestFailed
      else .released
    .ok (.withinTolerance benefitMilli (saturatingMilli accounts.tolerance.ceil) tier
      (if tier = .released then none else wake))
  | some false =>
    if 0 < benefitMilli then
      .ok (.positive ⟨benefitMilli, expectedDurationMs expectedRuntimeMs lastDurationMs declaredMs,
        lt_of_lt_of_le one_pos (le_max_right _ _)⟩)
    else .ok (.nonpositive benefitMilli wake)

/-! ## What the accounts hold -/

/-- `clamp((capacity - current) / (capacity - reserve), 0, 1)`, and without room between the lines
0 at capacity and 1 below it. -/
def clampedShare (capacity current reserve : Int) : ℚ :=
  if capacity ≤ reserve then if capacity ≤ current then 0 else 1
  else max 0 (min 1 ((capacity - current) / (capacity - reserve)))

lemma discount_value (capacity current reserve : Int) :
    (discount capacity current reserve).value = clampedShare capacity current reserve := by
  unfold discount clampedShare
  by_cases room : 0 < capacity - reserve
  · have above : (0 : ℚ) < capacity - reserve := by exact_mod_cast room
    have whole : ((capacity - reserve).natAbs : ℚ) = capacity - reserve := by
      rw [Nat.cast_natAbs, abs_of_pos room, Int.cast_sub]
    rw [dif_pos room, if_neg (by omega)]
    simp only [Ratio.value]
    rw [Nat.cast_div (Nat.gcd_dvd_left _ _), Nat.cast_div (Nat.gcd_dvd_right _ _),
      div_div_div_cancel_right₀, whole]
    · rcases le_total capacity current with full | missing
      · have none : (min (max (capacity - current) 0) (capacity - reserve)).natAbs = 0 := by omega
        have below : ((capacity : ℚ) - current) / (capacity - reserve) ≤ 0 :=
          div_nonpos_of_nonpos_of_nonneg (by simpa using full) above.le
        rw [none, Nat.cast_zero, zero_div, max_eq_left ((min_le_right _ _).trans below)]
      rcases le_total (capacity - current) (capacity - reserve) with part | all
      · have own : (min (max (capacity - current) 0) (capacity - reserve)).natAbs =
            (capacity - current).toNat := by omega
        have amount : (((capacity - current).toNat : ℕ) : ℚ) = capacity - current := by
          rw [← Int.cast_natCast, Int.toNat_of_nonneg (by omega), Int.cast_sub]
        rw [own, amount, min_eq_right ((div_le_one above).mpr (by exact_mod_cast part)),
          max_eq_right (div_nonneg (by simpa using missing) above.le)]
      · have own : (min (max (capacity - current) 0) (capacity - reserve)).natAbs =
            (capacity - reserve).natAbs := by omega
        rw [own, whole, div_self above.ne',
          min_eq_left ((one_le_div above).mpr (by exact_mod_cast all)), max_eq_right one_pos.le]
    all_goals exact Nat.cast_ne_zero.mpr (Nat.gcd_pos_of_pos_right _ (by omega)).ne'
  · rw [dif_neg room, if_pos (show capacity ≤ reserve by omega)]
    by_cases full : capacity ≤ current
    · rw [if_pos (show max (capacity - current) 0 = 0 by omega), if_pos full]
      simp [Ratio.value]
    · rw [if_neg (show max (capacity - current) 0 ≠ 0 by omega), if_neg full]
      simp [Ratio.value, Ratio.one]

def pools (effects : List ResourceEffectSpec) : Finset String := (effects.map (·.poolId)).toFinset

lemma book_adds {accounts next : Accounts} {term bound : Ratio} {negative : Bool} {item : String}
    (booked : accounts.book term bound negative item = some next) :
    next.readings = accounts.readings ∧
      next.sum.value = accounts.sum.value + (if negative then -term.value else term.value) ∧
      next.tolerance.value = accounts.tolerance.value + bound.value := by
  simp only [Accounts.book, Option.bind_eq_bind, Option.bind_eq_some_iff] at booked
  obtain ⟨sum, added, tolerance, widened, same⟩ := booked
  obtain rfl := Option.some.inj same
  refine ⟨rfl, ExactSum.add_value added, ?_⟩
  simpa using ExactSum.add_value widened

/-- A step that adds a pool's term and bound, unless it leaves a reading unknown. -/
def Adds (step : String → Accounts → Evaluated Accounts) (term bound : String → ℚ) : Prop :=
  ∀ poolId accounts next, step poolId accounts = .ok next → next.readings = [] →
    accounts.readings = [] ∧ next.sum.value = accounts.sum.value + term poolId ∧
      next.tolerance.value = accounts.tolerance.value + bound poolId

theorem Adds.eachPool {step term bound} (adds : Adds step term bound)
    {effects seen accounts final} (answer : eachPool step effects seen accounts = .ok final)
    (known : final.readings = []) :
    accounts.readings = [] ∧
      final.sum.value = accounts.sum.value + ∑ p ∈ pools effects \ seen.toFinset, term p ∧
      final.tolerance.value =
        accounts.tolerance.value + ∑ p ∈ pools effects \ seen.toFinset, bound p := by
  induction effects generalizing seen accounts with
  | nil =>
    cases answer
    simp [known, pools]
  | cons effect rest ih =>
    rw [Policy.eachPool] at answer
    by_cases listed : effect.poolId ∈ seen
    · rw [if_pos listed] at answer
      have same : pools (effect :: rest) \ seen.toFinset = pools rest \ seen.toFinset := by
        simp [pools, Finset.insert_sdiff_of_mem, listed]
      rw [same]
      exact ih answer
    rw [if_neg listed, bind_ok_iff] at answer
    obtain ⟨next, stepped, later⟩ := answer
    obtain ⟨read, sums, bounds⟩ := ih later
    obtain ⟨before, own, widened⟩ := adds _ _ _ stepped read
    have split : pools (effect :: rest) \ seen.toFinset =
        insert effect.poolId (pools rest \ (effect.poolId :: seen).toFinset) := by
      ext p
      by_cases here : p = effect.poolId
      · simp [pools, here, listed]
      · simp [pools, here]
    have fresh : effect.poolId ∉ pools rest \ (effect.poolId :: seen).toFinset := by simp
    rw [split, Finset.sum_insert fresh, Finset.sum_insert fresh, sums, bounds, own, widened]
    exact ⟨before, by ring, by ring⟩

def weighed {K : Type} [Field K] (amount weight : K) (scale : Nat) : K :=
  amount * weight / (1000 * scale)

/-- Half a thousandth of weight on the amount, and of each expected entry at the greatest weight. -/
def rounding (amount entries weight scale : Nat) : ℚ :=
  amount / (2000 * scale) + entries * (2 * weight + 1) / (4000 * scale)

section Exact

variable (task : JudgedTask) (context : JudgementContext)

/-- The scale by which a pool's amount is divided. -/
def JudgementContext.scaleOf (poolId : String) : Nat :=
  match context.valuedPool poolId with
  | .ok (_, valuation) => valuation.scale
  | .error _ => 1

def JudgementContext.weightOf (poolId : String) : Nat :=
  match context.valuedPool poolId with
  | .ok (_, valuation) => context.weightMilli poolId valuation
  | .error _ => 0

/-- The share of the weight that a consumed unit costs: all of it, unless the pool regenerates. -/
def shareOf (poolId : String) : ℚ :=
  match context.valuedPool poolId, context.poolValues[poolId]?.bind (·.projected),
    context.poolValues[poolId]? with
  | .ok (pool, _), some current, some reading =>
    if pool.regenerating then clampedShare reading.capacity current (task.reserve poolId) else 1
  | _, _, _ => 1

/-- The net benefit of amounts and weights in thousandths. -/
def netBenefit {K : Type} [Field K] (produced consumed weight : String → K) : K :=
  ∑ p ∈ pools task.produces, weighed (produced p) (weight p) (context.scaleOf p) -
    ∑ p ∈ pools task.consumes,
      (shareOf task context p : K) * weighed (consumed p) (weight p) (context.scaleOf p)

/-- What the rounding of weights and expected amounts can change. -/
def roundingBound : ℚ :=
  ∑ p ∈ pools task.produces, rounding (perRunYield task.produces p)
      (expectedEntries task.produces p) (context.weightOf p) (context.scaleOf p) +
    ∑ p ∈ pools task.consumes, shareOf task context p *
      rounding (poolTotal (·.consumedMilli) task.consumes p) (expectedEntries task.consumes p)
        (context.weightOf p) (context.scaleOf p)

variable {task context}

lemma roundingNumerator_value {quantity entries weight rounding : Nat}
    (answer : roundingNumerator quantity entries weight = some rounding) :
    rounding = 2 * quantity + entries * (2 * weight + 1) := by
  unfold roundingNumerator checkedU128 at answer
  exact (Option.some.inj (Option.ite_none_right_eq_some.mp answer).2).symm

lemma scale_ne_zero (poolId : String) : (context.scaleOf poolId : ℚ) ≠ 0 := by
  rw [cast_ne_zero, JudgementContext.scaleOf]
  split
  · rename_i valuation _
    exact valuation.positive.ne'
  · exact one_ne_zero

lemma producePool_adds : Adds (producePool task context)
    (fun p => weighed (K := ℚ) (perRunYield task.produces p) (context.weightOf p)
      (context.scaleOf p))
    (fun p => rounding (perRunYield task.produces p) (expectedEntries task.produces p)
      (context.weightOf p) (context.scaleOf p)) := by
  intro p accounts next answer known
  have scale := @scale_ne_zero context p
  unfold producePool at answer
  cases found : context.valuedPool p with
  | error gap => simp [found] at answer
  | ok valued =>
    simp only [found, orOverflow_eq_ok_iff, Option.bind_eq_bind, Option.bind_eq_some_iff] at answer
    obtain ⟨term, valued', numerator, rounded, bound, widened, booked⟩ := answer
    obtain ⟨readings, sum, tolerance⟩ := book_adds booked
    have own : context.scaleOf p = valued.2.scale := by rw [JudgementContext.scaleOf, found]
    have weight : context.weightOf p = context.weightMilli p valued.2 := by
      rw [JudgementContext.weightOf, found]
    rw [own] at scale
    refine ⟨readings ▸ known, ?_, ?_⟩ <;> beta_reduce
    · rw [sum, ratio_value valued', own, weight, weighed]
      simp [mul_comm]
    rw [tolerance, ratio_value widened, roundingNumerator_value rounded, own, weight, rounding]
    simp only [prod_cons, prod_nil, mul_one]
    push_cast
    field_simp
    ring

lemma shareRatio_value {pool valuation} {poolId : String} {share : Ratio} {next}
    (found : context.valuedPool poolId = .ok (pool, valuation))
    (answer : shareRatio task context pool poolId = some (share, next)) :
    share.value = shareOf task context poolId := by
  unfold shareRatio at answer
  unfold shareOf
  rw [found]
  by_cases regenerates : pool.regenerating = true
  · simp only [regenerates, if_true, Option.bind_eq_bind, Option.bind_eq_some_iff] at answer
    obtain ⟨reading, read, current, projected, same⟩ := answer
    cases same
    simp [read, projected, regenerates, discount_value]
  simp only [regenerates, if_false, Bool.false_eq_true] at answer
  cases answer
  have one : Ratio.one.value = 1 := by simp [Ratio.value, Ratio.one]
  rw [one]
  split <;> simp_all

lemma consumePool_adds : Adds (consumePool task context)
    (fun p => -(shareOf task context p *
      weighed (K := ℚ) (poolTotal (·.consumedMilli) task.consumes p)
        (context.weightOf p) (context.scaleOf p)))
    (fun p => shareOf task context p *
      rounding (poolTotal (·.consumedMilli) task.consumes p) (expectedEntries task.consumes p)
        (context.weightOf p) (context.scaleOf p)) := by
  intro p accounts next answer known
  have scale := @scale_ne_zero context p
  unfold consumePool at answer
  cases found : context.valuedPool p with
  | error gap => simp [found] at answer
  | ok valued =>
    obtain ⟨pool, valuation⟩ := valued
    simp only [found, bind_ok_iff] at answer
    obtain ⟨consumed, declared, answer⟩ := answer
    have total : consumed = poolTotal (·.consumedMilli) task.consumes p := by
      simp only [declaredConsumptionMilli, orOverflow_eq_ok_iff, checkedU128] at declared
      exact (Option.some.inj (Option.ite_none_right_eq_some.mp declared).2).symm
    cases shared : shareRatio task context pool p with
    | none =>
      simp only [shared] at answer
      cases answer
      simp at known
    | some pair =>
      obtain ⟨share, change⟩ := pair
      simp only [shared, orOverflow_eq_ok_iff, Option.bind_eq_bind, Option.bind_eq_some_iff]
        at answer
      obtain ⟨term, valued', numerator, rounded, bound, widened, booked⟩ := answer
      obtain ⟨readings, sum, tolerance⟩ := book_adds booked
      have own : context.scaleOf p = valuation.scale := by rw [JudgementContext.scaleOf, found]
      have weight : context.weightOf p = context.weightMilli p valuation := by
        rw [JudgementContext.weightOf, found]
      have part : (share.denominator : ℚ) ≠ 0 := cast_ne_zero.mpr share.positive.ne'
      rw [own] at scale
      refine ⟨readings ▸ known, ?_, ?_⟩ <;> beta_reduce
      · rw [sum, ratio_value valued', own, weight, ← shareRatio_value found shared, total, weighed]
        simp only [if_true, prod_cons, prod_nil, mul_one, Ratio.value]
        push_cast
        field_simp
      rw [tolerance, ratio_value widened, roundingNumerator_value rounded, own, weight,
        ← shareRatio_value found shared, total, rounding]
      simp only [prod_cons, prod_nil, mul_one, Ratio.value]
      push_cast
      field_simp
      ring

lemma shareOf_nonneg (poolId : String) : 0 ≤ shareOf task context poolId := by
  have clamped (capacity current reserve : Int) : 0 ≤ clampedShare capacity current reserve := by
    unfold clampedShare
    split_ifs
    · exact le_rfl
    · exact zero_le_one
    · exact le_max_left _ _
  unfold shareOf
  split
  · split
    · exact clamped _ _ _
    · exact zero_le_one
  · exact zero_le_one

lemma rounding_nonneg (amount entries weight scale : Nat) :
    0 ≤ rounding amount entries weight scale := by
  unfold rounding
  positivity

variable (task context) in
def declaredBenefit : ℚ :=
  netBenefit task context (fun p => perRunYield task.produces p)
    (fun p => poolTotal (·.consumedMilli) task.consumes p) (fun p => context.weightOf p)

lemma judge_known {accounts} (known : judge task context = .ok (.known accounts)) :
    accounts.sum.value = declaredBenefit task context ∧
      accounts.tolerance.value = roundingBound task context := by
  unfold judge at known
  split at known
  · cases known
  split at known
  · cases known
  simp only [bind_ok_iff] at known
  obtain ⟨produced, first, final, second, answer⟩ := known
  split at answer
  · rename_i read
    cases answer
    obtain ⟨before, sum, bound⟩ := consumePool_adds.eachPool second read
    obtain ⟨-, sum', bound'⟩ := producePool_adds.eachPool first before
    have fresh : ExactSum.new.value = 0 := by simp [ExactSum.value, ExactSum.new]
    simp only [fresh, zero_add, toFinset_nil, Finset.sdiff_empty] at sum bound sum' bound'
    rw [sum, bound, sum', bound', Finset.sum_neg_distrib]
    simp [declaredBenefit, netBenefit, roundingBound, sub_eq_add_neg]
  · cases answer

inductive VerdictKind
  | withinTolerance
  | positive
  | nonpositive
deriving DecidableEq

def GateVerdict.kind : GateVerdict → VerdictKind
  | .withinTolerance .. => .withinTolerance
  | .positive _ => .positive
  | .nonpositive .. => .nonpositive

lemma gateKnown_kind {accounts} (valid : 0 ≤ accounts.tolerance.value)
    (latest : Option TaskTerminalState) (expectedRuntimeMs lastDurationMs : Option Nat)
    (declaredMs nowUnixMs : Nat) :
    ∃ verdict, gateKnown task context accounts latest expectedRuntimeMs lastDurationMs declaredMs
        nowUnixMs = .ok verdict ∧
      verdict.kind = if |accounts.sum.value| ≤ accounts.tolerance.value then .withinTolerance
        else if 1 ≤ ⌊accounts.sum.value⌋ then .positive else .nonpositive := by
  have exact := @ExactSum.within_eq accounts.sum _ valid
  unfold gateKnown
  by_cases within : |accounts.sum.value| ≤ accounts.tolerance.value
  · rw [exact, decide_eq_true within]
    exact ⟨_, rfl, by rw [if_pos within]; rfl⟩
  rw [exact, decide_eq_false within, if_neg within, ← accounts.sum.floor_value]
  by_cases benefit : 1 ≤ accounts.sum.floor
  · rw [if_pos benefit]
    have positive : 0 < saturatingMilli accounts.sum.floor := by
      unfold saturatingMilli
      omega
    simp only [if_pos positive]
    exact ⟨_, rfl, rfl⟩
  rw [if_neg benefit]
  have positive : ¬ 0 < saturatingMilli accounts.sum.floor := by
    unfold saturatingMilli
    omega
  simp only [if_neg positive]
  exact ⟨_, rfl, rfl⟩

lemma compare_div {a b c d : Nat} (left : 0 < b) (right : 0 < d) :
    compare (a * d) (c * b) = compare ((a : ℚ) / b) ((c : ℚ) / d) := by
  have lt {a b c d : Nat} (left : 0 < b) (right : 0 < d) :
      (a : ℚ) / b < (c : ℚ) / d ↔ a * d < c * b := by
    rw [div_lt_div_iff₀ (cast_pos.mpr left) (cast_pos.mpr right)]
    exact_mod_cast Iff.rfl
  rcases lt_trichotomy (a * d) (c * b) with h | h | h
  · rw [compare_lt_iff_lt.mpr h, compare_lt_iff_lt.mpr ((lt left right).mpr h)]
  · have same : (a : ℚ) / b = (c : ℚ) / d :=
      (div_eq_div_iff (cast_ne_zero.mpr left.ne') (cast_ne_zero.mpr right.ne')).mpr
        (by exact_mod_cast h)
    rw [compare_eq_iff_eq.mpr h, compare_eq_iff_eq.mpr same]
  · rw [compare_gt_iff_gt.mpr h, compare_gt_iff_gt.mpr ((lt right left).mpr h)]

/-- A known judgement is exact: its sum and its bound, the gate's verdict of them, and the
comparison that decides the band. -/
theorem judgement_exact {accounts : Accounts} (known : judge task context = .ok (.known accounts)) :
    accounts.sum.value = declaredBenefit task context ∧
    accounts.tolerance.value = roundingBound task context ∧
    (∀ latest expectedRuntimeMs lastDurationMs declaredMs nowUnixMs,
      ∃ verdict, gateKnown task context accounts latest expectedRuntimeMs lastDurationMs declaredMs
          nowUnixMs = .ok verdict ∧
        verdict.kind = if |accounts.sum.value| ≤ accounts.tolerance.value then .withinTolerance
          else if 1 ≤ ⌊accounts.sum.value⌋ then .positive else .nonpositive) ∧
    ∀ a b c d : Nat, 0 < b → 0 < d →
      compareRatios a b c d = some (compare ((a : ℚ) / b) ((c : ℚ) / d)) := by
  obtain ⟨sum, bound⟩ := judge_known known
  have valid : 0 ≤ accounts.tolerance.value := by
    rw [bound, roundingBound]
    refine add_nonneg (Finset.sum_nonneg fun p _ => rounding_nonneg _ _ _ _)
      (Finset.sum_nonneg fun p _ => mul_nonneg (shareOf_nonneg p) (rounding_nonneg _ _ _ _))
  refine ⟨sum, bound, gateKnown_kind valid, fun a b c d left right => ?_⟩
  rw [compareRatios_eq left right, compare_div left right]

/-! ## What the band covers -/

/-- An entry before its numbers were rounded, its amount in thousandths. -/
structure RealEffect where
  poolId : String
  amountMilli : ℝ

/-- An expected amount rounds to the declared one; an integer amount is exact. -/
def Rounds (worth : ResourceEffectSpec → Nat) (declared : ResourceEffectSpec) (real : RealEffect) :
    Prop :=
  real.poolId = declared.poolId ∧
    |real.amountMilli - worth declared| ≤ if declared.isExpected then 1 / 2 else 0

def realTotal (effects : List RealEffect) (poolId : String) : ℝ :=
  ((effects.filter (·.poolId = poolId)).map (·.amountMilli)).sum

lemma realTotal_near {worth declared real} (rounds : List.Forall₂ (Rounds worth) declared real)
    (poolId : String) :
    |realTotal real poolId - poolTotal worth declared poolId| ≤
      expectedEntries declared poolId / 2 := by
  induction rounds with
  | nil => simp [realTotal, poolTotal, expectedEntries]
  | @cons effect entry _ _ first later ih =>
    simp only [realTotal, poolTotal, expectedEntries, filter_cons, first.1] at ih ⊢
    by_cases here : effect.poolId = poolId
    · simp only [here, decide_true, if_true, map_cons, sum_cons, cast_add]
      have own := first.2
      have both := (abs_add_le (entry.amountMilli - worth effect) _).trans (add_le_add own ih)
      rw [add_sub_add_comm, add_div]
      refine both.trans (add_le_add_left (le_of_eq ?_) _)
      cases effect.isExpected <;> simp
    · simpa [here] using ih

lemma weighed_near {amount entries weight scale : Nat} {realAmount realWeight : ℝ}
    (positive : 0 < scale) (amounts : |realAmount - amount| ≤ entries / 2)
    (weights : |realWeight - weight| ≤ 1 / 2) :
    |weighed realAmount realWeight scale - weighed (amount : ℝ) weight scale| ≤
      (rounding amount entries weight scale : ℚ) := by
  have above : (0 : ℝ) < scale := cast_pos.mpr positive
  have greatest : |realWeight| ≤ weight + 1 / 2 := by
    rw [abs_le] at weights ⊢
    have natural : (0 : ℝ) ≤ weight := cast_nonneg _
    constructor <;> linarith
  have product : |realAmount * realWeight - amount * weight| ≤
      amount * (1 / 2) + entries / 2 * (weight + 1 / 2) := by
    have split : realAmount * realWeight - amount * weight =
        amount * (realWeight - weight) + (realAmount - amount) * realWeight := by ring
    rw [split]
    refine (abs_add_le _ _).trans (add_le_add ?_ ?_)
    · rw [abs_mul, abs_cast]
      exact mul_le_mul_of_nonneg_left weights (cast_nonneg _)
    · rw [abs_mul]
      exact mul_le_mul amounts greatest (abs_nonneg _) (by positivity)
  rw [weighed, weighed, ← sub_div, abs_div, abs_of_pos (by positivity : (0 : ℝ) < 1000 * scale),
    div_le_iff₀ (by positivity)]
  refine product.trans (le_of_eq ?_)
  rw [rounding]
  push_cast
  field_simp
  ring

lemma weighed_cast (amount weight : ℚ) (scale : Nat) :
    ((weighed amount weight scale : ℚ) : ℝ) = weighed (amount : ℝ) weight scale := by
  simp [weighed]

lemma scaleOf_pos (poolId : String) : 0 < context.scaleOf poolId :=
  pos_of_ne_zero (cast_ne_zero.mp (scale_ne_zero poolId))

/-- The zero band covers the rounding: from values that round to the declared ones the net benefit
is within the bound of the sum, so outside the band the sum has its sign. -/
theorem band_covers_rounding {accounts : Accounts}
    (known : judge task context = .ok (.known accounts)) {price : String → ℝ}
    {produced consumed : List RealEffect}
    (prices : ∀ p ∈ pools task.produces ∪ pools task.consumes,
      |price p - context.weightOf p| ≤ 1 / 2)
    (productions : List.Forall₂ (Rounds (·.yieldMilli)) task.produces produced)
    (consumptions : List.Forall₂ (Rounds (·.consumedMilli)) task.consumes consumed) :
    |netBenefit task context (realTotal produced) (realTotal consumed) price -
        accounts.sum.value| ≤ accounts.tolerance.value ∧
      (accounts.tolerance.value < |accounts.sum.value| →
        SignType.sign (netBenefit task context (realTotal produced) (realTotal consumed) price) =
          SignType.sign accounts.sum.value) := by
  obtain ⟨sum, bound⟩ := judge_known known
  have near : |netBenefit task context (realTotal produced) (realTotal consumed) price -
      accounts.sum.value| ≤ accounts.tolerance.value := by
    rw [sum, bound, declaredBenefit, netBenefit, netBenefit, roundingBound]
    push_cast
    rw [sub_sub_sub_comm, ← Finset.sum_sub_distrib, ← Finset.sum_sub_distrib]
    refine (abs_sub _ _).trans (add_le_add ?_ ?_)
    · refine (Finset.abs_sum_le_sum_abs _ _).trans (Finset.sum_le_sum fun p listed => ?_)
      rw [weighed_cast]
      exact weighed_near (scaleOf_pos p) (realTotal_near productions p)
        (prices p (Finset.mem_union_left _ listed))
    refine (Finset.abs_sum_le_sum_abs _ _).trans (Finset.sum_le_sum fun p listed => ?_)
    have share : (0 : ℝ) ≤ shareOf task context p := by exact_mod_cast shareOf_nonneg p
    rw [weighed_cast, ← mul_sub, abs_mul, abs_of_nonneg share]
    exact mul_le_mul_of_nonneg_left (weighed_near (scaleOf_pos p)
      (realTotal_near consumptions p) (prices p (Finset.mem_union_right _ listed))) share
  refine ⟨near, fun outside => ?_⟩
  have apart : (accounts.tolerance.value : ℝ) < |(accounts.sum.value : ℝ)| := by
    exact_mod_cast outside
  have close := abs_le.mp near
  rcases lt_trichotomy (accounts.sum.value : ℝ) 0 with below | level | above
  · rw [abs_of_neg below] at apart
    rw [sign_neg (by linarith), sign_neg (by exact_mod_cast below)]
  · rw [level, abs_zero] at apart
    linarith
  · rw [abs_of_pos above] at apart
    rw [sign_pos (by linarith), sign_pos (by exact_mod_cast above)]

end Exact

namespace Sample

/-- Three units of ore for two and a half bars. -/
def smelt : JudgedTask :=
  ⟨"smelt", [⟨"bar", .expectedMilli 2500, 900⟩], [⟨"ore", .units 3, 1000⟩], [], true⟩

def forgePool (id : String) (weight : Nat) : String × PoolSpec :=
  (id, ⟨id, .ofGame "game", some (.declared ⟨1, weight, Nat.one_pos⟩), false, none⟩)

def forge : JudgementContext where
  snapshot := ⟨"alpha", "north", "game"⟩
  poolSpecs := Std.ExtTreeMap.ofList [forgePool "bar" 500, forgePool "ore" 100]
  poolValues := ∅
  weights := ∅

def smeltKind : Option VerdictKind :=
  match judge smelt forge with
  | .ok (.known accounts) =>
    match gateKnown smelt forge accounts none none none 600000 1000 with
    | .ok verdict => some verdict.kind
    | .error _ => none
  | _ => none

lemma smelt_known : ∃ accounts, judge smelt forge = .ok (.known accounts) := ⟨_, rfl⟩

/-- The bars are worth more than the ore, by more than the band. -/
theorem smelt_exact : ∃ accounts, judge smelt forge = .ok (.known accounts) ∧
    accounts.sum.value = declaredBenefit smelt forge ∧
    accounts.tolerance.value = roundingBound smelt forge ∧
    (accounts.tolerance.value < |accounts.sum.value| ∧ 1 ≤ ⌊accounts.sum.value⌋) ∧
    compareRatios 5 2 7 3 = some .gt := by
  obtain ⟨accounts, known⟩ := smelt_known
  obtain ⟨sum, bound, gate, ratios⟩ := judgement_exact known
  obtain ⟨verdict, answer, kind⟩ := gate none none none 600000 1000
  have positive : smeltKind = some .positive := by decide +kernel
  refine ⟨accounts, known, sum, bound, ?_, (ratios 5 2 7 3 two_pos three_pos).trans ?_⟩
  · have own : verdict.kind = .positive := by simpa [smeltKind, known, answer] using positive
    rw [own] at kind
    split_ifs at kind with inside above
    exact ⟨not_le.mp inside, above⟩
  · exact congrArg some (compare_gt_iff_gt.mpr (by norm_num))

theorem smelt_band : ∃ accounts, judge smelt forge = .ok (.known accounts) ∧
    |netBenefit smelt forge (realTotal [⟨"bar", 12502 / 5⟩]) (realTotal [⟨"ore", 3000⟩])
      (fun p => forge.weightOf p) - accounts.sum.value| ≤ accounts.tolerance.value := by
  obtain ⟨accounts, known⟩ := smelt_known
  refine ⟨accounts, known, (band_covers_rounding known (fun p _ => by simp)
    (.cons ⟨rfl, ?_⟩ .nil) (.cons ⟨rfl, ?_⟩ .nil)).1⟩
  · norm_num [ResourceEffectSpec.yieldMilli, ResourceEffectSpec.isExpected]
  · norm_num [ResourceEffectSpec.consumedMilli, ResourceEffectSpec.isExpected]

end Sample

end Policy
