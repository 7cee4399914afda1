import ActingCommand.Policy.Predicate

/-!
# Record deadlines

A record-deadline predicate holds while some record of a fresh reading has its deadline ahead and
within the window. Its wake is the earliest of the end of freshness, a record entering the window
and the instant after a deadline; a deadline itself is already outside the window.
-/

namespace Policy

open Machine List

section Evaluate

variable (facts : List ObservedFact) (predicate : RecordDeadline) (unixMs : Nat)

def RecordDeadline.unknown (reason : String) : PredicateEvaluation :=
  .unknown ⟨predicate.scope, predicate.factKey, reason⟩

/-- Whether a deadline was found inside the window, and the wake so far. -/
abbrev Noted := Bool × Option Nat

def noteDeadline (cutoff : Nat) (noted : Noted) (deadline : Nat) : Noted :=
  if unixMs < deadline ∧ deadline ≤ cutoff then (true, minWake noted.2 (checkedAdd deadline 1))
  else if cutoff < deadline then (noted.1, minWake noted.2 (some (deadline - predicate.withinMs)))
  else noted

def foldDeadlines (cutoff : Nat) : List FactRecord → Noted → Except String Noted
  | [], noted => .ok noted
  | record :: rest, noted =>
    match record.lookup predicate.timestampField with
    | none => .error "field_missing"
    | some (.timestampMs deadline) =>
      foldDeadlines cutoff rest (noteDeadline predicate unixMs cutoff noted deadline)
    | some _ => .error "type_mismatch"

/-- Until when a reading counts: its maximal age and its own expiry. -/
def RecordDeadline.freshUntil (fact : ObservedFact) : Evaluated (Option Nat) :=
  let scope := scopeKey predicate.scope
  let factKey := predicate.factKey
  match predicate.maxAgeMs with
  | none => .ok fact.expiresAtUnixMs
  | some maxAge => do
    let expiration ← orOverflow (checkedAdd fact.observedAtUnixMs maxAge)
      s!"fact '{scope}:{factKey}' expiration overflowed"
    .ok (minWake (some expiration) fact.expiresAtUnixMs)

/-- The wake at the end of freshness. -/
def staleWake (freshUntil : Option Nat) : Option Nat :=
  (freshUntil.bind (checkedAdd · 1)).filter (unixMs < ·)

def scanRecords (freshUntil : Option Nat) (records : List FactRecord) :
    Evaluated PredicateEvaluation := do
  let scope := scopeKey predicate.scope
  let factKey := predicate.factKey
  let cutoff ← orOverflow (checkedAdd unixMs predicate.withinMs)
    s!"record deadline window for '{scope}:{factKey}' overflowed"
  match foldDeadlines predicate unixMs cutoff records (false, staleWake unixMs freshUntil) with
  | .error reason => .ok (predicate.unknown reason)
  | .ok noted => .ok ⟨if noted.1 then .true else .false, [], noted.2, freshUntil⟩

/-- A reading with some confidence. -/
def evaluateReading (fact : ObservedFact) (freshUntil : Option Nat) :
    Evaluated PredicateEvaluation :=
  if freshUntil.any (· < unixMs) then
    .ok (predicate.unknown
      (if fact.expiresAtUnixMs.any (· < unixMs) then "fact_expired" else "fact_stale"))
  else
    match fact.value with
    | .scalar _ => .ok (predicate.unknown "type_mismatch")
    | .recordList records => scanRecords predicate unixMs freshUntil records

def evaluateRecordDeadline : Evaluated PredicateEvaluation :=
  match findFact facts predicate.scope predicate.factKey with
  | none => .ok (predicate.unknown "fact_missing")
  | some fact =>
    if fact.confidenceMilli = 0 then .ok (predicate.unknown "fact_low_confidence")
    else do
      let freshUntil ← predicate.freshUntil fact
      evaluateReading predicate unixMs fact freshUntil

end Evaluate

/-! ## The wake of a reading -/

def deadlinesOf (field : String) : List FactRecord → Option (List Nat)
  | [] => some []
  | record :: rest =>
    match record.lookup field with
    | some (.timestampMs deadline) => (deadlinesOf field rest).map (deadline :: ·)
    | _ => none

lemma foldDeadlines_eq (predicate : RecordDeadline) (unixMs cutoff : Nat)
    (records : List FactRecord) (noted : Noted) :
    (foldDeadlines predicate unixMs cutoff records noted).toOption =
      (deadlinesOf predicate.timestampField records).map
        (·.foldl (noteDeadline predicate unixMs cutoff) noted) := by
  induction records generalizing noted with
  | nil => rfl
  | cons record rest ih =>
    unfold foldDeadlines deadlinesOf
    split
    · rename_i absent
      simp [absent, Except.toOption]
    · rename_i deadline held
      simp only [held, ih, Option.map_map]
      rfl
    rename_i value other held
    simp only [held]
    split
    · rename_i deadline same
      exact absurd (Option.some.inj same) (other deadline)
    · rfl

/-- What a pass over deadlines finds: whether one is in the window, and the earliest wake. -/
structure Found (unixMs within : Nat) (deadlines : List Nat) (before after : Noted) : Prop where
  actionable : after.1 = true ↔
    before.1 = true ∨ ∃ d ∈ deadlines, unixMs < d ∧ d ≤ unixMs + within
  wake (t : Nat) : (∃ w ∈ after.2, w ≤ t) ↔ (∃ w ∈ before.2, w ≤ t) ∨
    ∃ d ∈ deadlines, (unixMs < d ∧ d ≤ unixMs + within ∧ d < u64Max ∧ d < t) ∨
      (unixMs + within < d ∧ d ≤ t + within)

lemma minWake_le_iff {left right : Option Nat} {t : Nat} :
    (∃ w ∈ minWake left right, w ≤ t) ↔ (∃ w ∈ left, w ≤ t) ∨ ∃ w ∈ right, w ≤ t := by
  cases left <;> cases right <;> simp [minWake]

lemma checkedAdd_one_le_iff {d t : Nat} : (∃ w ∈ checkedAdd d 1, w ≤ t) ↔ d < u64Max ∧ d < t := by
  simp only [Option.mem_def, checkedAdd_eq_some_iff]
  constructor
  · rintro ⟨w, ⟨rfl, fits⟩, below⟩
    omega
  · rintro ⟨fits, below⟩
    exact ⟨d + 1, ⟨rfl, fits⟩, below⟩

lemma found_foldl (predicate : RecordDeadline) (unixMs : Nat) (deadlines : List Nat)
    (noted : Noted) :
    Found unixMs predicate.withinMs deadlines noted
      (deadlines.foldl (noteDeadline predicate unixMs (unixMs + predicate.withinMs)) noted) := by
  induction deadlines generalizing noted with
  | nil => exact ⟨by simp, by simp⟩
  | cons d rest ih =>
    obtain ⟨actionable, wake⟩ := ih (noteDeadline predicate unixMs (unixMs + predicate.withinMs)
      noted d)
    rw [foldl_cons]
    refine ⟨?_, fun t => ?_⟩
    · rw [actionable, exists_mem_cons_iff, ← or_assoc]
      refine or_congr_left ?_
      unfold noteDeadline
      split_ifs with inside beyond
      · simp [inside]
      · simp [inside]
      · simp [inside]
    rw [wake, exists_mem_cons_iff, ← or_assoc]
    refine or_congr_left ?_
    unfold noteDeadline
    split_ifs with inside beyond
    · rw [minWake_le_iff, checkedAdd_one_le_iff]
      refine or_congr_right ⟨fun h => .inl ⟨inside.1, inside.2, h⟩, ?_⟩
      rintro (h | h)
      · exact h.2.2
      · omega
    · rw [minWake_le_iff]
      simp only [Option.mem_def, Option.some.injEq, exists_eq_left']
      refine or_congr_right ⟨fun h => .inr ⟨beyond, by omega⟩, ?_⟩
      rintro (h | h) <;> omega
    · refine (or_iff_left ?_).symm
      omega

/-- The deadlines and the freshness of a reading the predicate can use. -/
def RecordDeadline.reading (facts : List ObservedFact) (predicate : RecordDeadline) :
    Option (List Nat × Option Nat) := do
  let fact ← findFact facts predicate.scope predicate.factKey
  if fact.confidenceMilli = 0 then none
  else
    let freshUntil ← (predicate.freshUntil fact).toOption
    match fact.value with
    | .scalar _ => none
    | .recordList records =>
      (deadlinesOf predicate.timestampField records).map (·, freshUntil)

section Reading

variable {facts : List ObservedFact} {predicate : RecordDeadline} {unixMs : Nat}

lemma scanRecords_spec {fresh : Option Nat} {records} :
    match deadlinesOf predicate.timestampField records with
    | none => ∀ evaluation, scanRecords predicate unixMs fresh records = .ok evaluation →
        evaluation.truth = .unknown
    | some deadlines =>
      if unixMs + predicate.withinMs ≤ u64Max then ∃ noted : Noted,
        scanRecords predicate unixMs fresh records =
          .ok ⟨if noted.1 then .true else .false, [], noted.2, fresh⟩ ∧
        Found unixMs predicate.withinMs deadlines (false, staleWake unixMs fresh) noted
      else ∀ evaluation, scanRecords predicate unixMs fresh records ≠ .ok evaluation := by
  have passed := foldDeadlines_eq predicate unixMs (unixMs + predicate.withinMs) records
    (false, staleWake unixMs fresh)
  have found := found_foldl predicate unixMs
  simp only [scanRecords, checkedAdd]
  by_cases fits : unixMs + predicate.withinMs ≤ u64Max
  · simp only [if_pos fits, orOverflow, Call.okOr, pure_bind]
    cases folded : foldDeadlines predicate unixMs (unixMs + predicate.withinMs) records
      (false, staleWake unixMs fresh) with
    | error reason =>
      rw [folded, eq_comm, Except.toOption, Option.map_eq_none_iff] at passed
      rw [passed]
      rintro evaluation ⟨⟩
      rfl
    | ok noted =>
      rw [folded, eq_comm, Except.toOption, Option.map_eq_some_iff] at passed
      obtain ⟨deadlines, collected, rfl⟩ := passed
      rw [collected]
      exact ⟨_, rfl, found deadlines _⟩
  · simp only [if_neg fits, orOverflow, Call.okOr]
    cases deadlinesOf predicate.timestampField records with
    | none | some => rintro evaluation ⟨⟩

/-- Without a usable reading the predicate is never decided; a usable one decides it while it is
fresh, unless the window overflows. -/
theorem evaluate_reading :
    match predicate.reading facts with
    | none => ∀ evaluation, evaluateRecordDeadline facts predicate unixMs = .ok evaluation →
        evaluation.truth = .unknown
    | some (deadlines, fresh) =>
      if fresh.any (· < unixMs) then ∃ evaluation,
        evaluateRecordDeadline facts predicate unixMs = .ok evaluation ∧
          evaluation.truth = .unknown
      else if unixMs + predicate.withinMs ≤ u64Max then ∃ noted : Noted,
        evaluateRecordDeadline facts predicate unixMs =
          .ok ⟨if noted.1 then .true else .false, [], noted.2, fresh⟩ ∧
        Found unixMs predicate.withinMs deadlines (false, staleWake unixMs fresh) noted
      else ∀ evaluation, evaluateRecordDeadline facts predicate unixMs ≠ .ok evaluation := by
  unfold RecordDeadline.reading evaluateRecordDeadline
  cases findFact facts predicate.scope predicate.factKey with
  | none => simp [RecordDeadline.unknown, PredicateEvaluation.unknown]
  | some fact =>
    by_cases confidence : fact.confidenceMilli = 0
    · simp [confidence, RecordDeadline.unknown, PredicateEvaluation.unknown]
    simp only [if_neg confidence, Option.bind_eq_bind, Option.bind_some]
    cases predicate.freshUntil fact with
    | error problem => simp [Except.toOption, bind, Except.bind]
    | ok fresh =>
      simp only [Except.toOption, Option.bind_some, bind, Except.bind, evaluateReading]
      cases fact.value with
      | scalar value =>
        split_ifs <;> simp [RecordDeadline.unknown, PredicateEvaluation.unknown]
      | recordList records =>
        have scanned := @scanRecords_spec predicate unixMs fresh records
        cases collected : deadlinesOf predicate.timestampField records with
        | none =>
          rw [collected] at scanned
          simp only [collected, Option.map_none]
          by_cases stale : fresh.any (· < unixMs) = true
          · simp only [if_pos stale]
            rintro evaluation ⟨⟩
            rfl
          · simp only [if_neg stale]
            exact scanned
        | some deadlines =>
          rw [collected] at scanned
          simp only [collected, Option.map_some]
          by_cases stale : fresh.any (· < unixMs) = true
          · simp only [if_pos stale]
            exact ⟨_, rfl, rfl⟩
          · simp only [if_neg stale]
            exact scanned

lemma staleWake_le_iff {fresh : Option Nat} {t : Nat} : (∃ w ∈ staleWake unixMs fresh, w ≤ t) ↔
    ∃ last ∈ fresh, unixMs ≤ last ∧ last < u64Max ∧ last < t := by
  cases fresh with
  | none => simp [staleWake]
  | some last =>
    have own := @checkedAdd_one_le_iff last t
    simp only [staleWake, Option.bind_some, checkedAdd] at own ⊢
    split_ifs at own ⊢ with fits
    · by_cases ahead : unixMs < last + 1
      · simp only [Option.mem_def, Option.filter_some, ahead, decide_true, if_true] at own ⊢
        simp only [Option.some.injEq, exists_eq_left']
        omega
      simp only [Option.mem_def, Option.filter_some, ahead, decide_false, Bool.false_eq_true,
        if_false, reduceCtorEq, false_and, exists_false, Option.some.injEq, exists_eq_left',
        false_iff]
      omega
    · simp only [Option.filter_none, Option.mem_def, reduceCtorEq, false_and, exists_false,
        Option.some.injEq, exists_eq_left', false_iff]
      omega

/-- A decided evaluation: whether a deadline is in the window, and what its wake covers. -/
structure Decided (predicate : RecordDeadline) (deadlines : List Nat) (fresh : Option Nat)
    (unixMs : Nat) (evaluation : PredicateEvaluation) : Prop where
  current : ∀ last ∈ fresh, unixMs ≤ last
  truth : evaluation.truth = .true ∧
    (∃ d ∈ deadlines, unixMs < d ∧ d ≤ unixMs + predicate.withinMs) ∨
    evaluation.truth = .false ∧ ∀ d ∈ deadlines, unixMs < d → unixMs + predicate.withinMs < d
  wake (t : Nat) : (∃ w ∈ evaluation.nextWakeUnixMs, w ≤ t) ↔
    (∃ last ∈ fresh, unixMs ≤ last ∧ last < u64Max ∧ last < t) ∨
    ∃ d ∈ deadlines, (unixMs < d ∧ d ≤ unixMs + predicate.withinMs ∧ d < u64Max ∧ d < t) ∨
      (unixMs + predicate.withinMs < d ∧ d ≤ t + predicate.withinMs)

lemma evaluate_cases {deadlines : List Nat} {fresh : Option Nat}
    (read : predicate.reading facts = some (deadlines, fresh)) :
    (∃ last ∈ fresh, last < unixMs ∧ ∃ evaluation,
      evaluateRecordDeadline facts predicate unixMs = .ok evaluation ∧
        evaluation.truth = .unknown) ∨
    (unixMs + predicate.withinMs ≤ u64Max ∧ ∃ evaluation,
      evaluateRecordDeadline facts predicate unixMs = .ok evaluation ∧
        Decided predicate deadlines fresh unixMs evaluation) ∨
    u64Max < unixMs + predicate.withinMs ∧
      ∀ evaluation, evaluateRecordDeadline facts predicate unixMs ≠ .ok evaluation := by
  have here := @evaluate_reading facts predicate unixMs
  rw [read] at here
  simp only at here
  split_ifs at here with stale fits
  · cases fresh with
    | none => simp at stale
    | some last => exact .inl ⟨last, rfl, by simpa using stale, here⟩
  · obtain ⟨noted, answer, found⟩ := here
    refine .inr (.inl ⟨fits, _, answer, ?_, ?_, fun t => ?_⟩)
    · intro last held
      subst held
      simpa using stale
    · have own := found.actionable
      cases actionable : noted.1 with
      | true => exact .inl ⟨rfl, by simpa [actionable] using own⟩
      | false =>
        refine .inr ⟨rfl, fun d listed ahead => ?_⟩
        simp only [actionable, Bool.false_eq_true, false_or, false_iff, not_exists, not_and] at own
        exact not_le.mp (own d listed ahead)
    · rw [found.wake t, staleWake_le_iff]
  · exact .inr (.inr ⟨not_le.mp fits, here⟩)

variable (facts predicate) in
/-- The deadline at which the predicate turns false without a wake: the only one left in the
window, still fresh, with no other record in the window by then. -/
structure EndsUnseen (unixMs d : Nat)
    (deadlines : List Nat) (fresh : Option Nat) : Prop where
  read : predicate.reading facts = some (deadlines, fresh)
  listed : d ∈ deadlines
  ahead : unixMs < d ∧ d ≤ unixMs + predicate.withinMs
  only : ∀ other ∈ deadlines, unixMs < other → other ≤ d + predicate.withinMs → other = d
  current : ∀ last ∈ fresh, d ≤ last
  fits : d + predicate.withinMs ≤ u64Max

/-- The wake comes in time exactly when no deadline ends the predicate unseen. -/
theorem deadline_wake_iff {evaluation : PredicateEvaluation}
    (answer : evaluateRecordDeadline facts predicate unixMs = .ok evaluation) :
    (∀ later other, unixMs < later → later ≤ u64Max →
      evaluateRecordDeadline facts predicate later = .ok other → other.truth ≠ evaluation.truth →
      ∃ wake ∈ evaluation.nextWakeUnixMs, wake ≤ later) ↔
    ¬ ∃ d deadlines fresh, EndsUnseen facts predicate unixMs d deadlines fresh := by
  cases read : predicate.reading facts with
  | none =>
    refine iff_of_true (fun later other _ _ answered apart => (apart ?_).elim) ?_
    · have here := @evaluate_reading facts predicate unixMs
      have there := @evaluate_reading facts predicate later
      rw [read] at here there
      rw [here _ answer, there _ answered]
    · rintro ⟨d, deadlines, fresh, ends⟩
      cases read.symm.trans ends.read
  | some reading =>
    obtain ⟨deadlines, fresh⟩ := reading
    constructor
    · rintro timely ⟨d, _, _, ends⟩
      cases read.symm.trans ends.read
      obtain ⟨ahead, inside⟩ := ends.ahead
      obtain ⟨last, held, below, -⟩ | ⟨-, _, answer', here⟩ | ⟨-, none⟩ := @evaluate_cases facts
        predicate unixMs _ _ read
      · exact absurd (ends.current last held) (by omega)
      · cases answer.symm.trans answer'
        obtain ⟨last, held, below, -⟩ | ⟨-, other, answered, there⟩ | ⟨above, -⟩ :=
          @evaluate_cases facts predicate d _ _ read
        · exact absurd (ends.current last held) (by omega)
        · have holds : evaluation.truth = .true := by
            rcases here.truth with ⟨holds, -⟩ | ⟨-, none⟩
            · exact holds
            · exact absurd (none d ends.listed ahead) (by omega)
          have fails : other.truth = .false := by
            rcases there.truth with ⟨-, next, listed, beyond, close⟩ | ⟨fails, -⟩
            · exact absurd (ends.only next listed (by omega) close) (by omega)
            · exact fails
          have woken := timely d other ahead (by have := ends.fits; omega) answered
            (by rw [holds, fails]; decide)
          rcases (here.wake d).mp woken with ⟨last, held, -, -, below⟩ | ⟨next, listed, wakes⟩
          · exact absurd (ends.current last held) (by omega)
          · have same := ends.only next listed (by omega) (by omega)
            omega
        · exact absurd ends.fits (by omega)
      · exact none _ answer
    · intro seen later other after fits answered apart
      by_contra late
      obtain ⟨last, held, below, _, stale, unknown⟩ | ⟨-, _, answer', here⟩ | ⟨-, none⟩ :=
        @evaluate_cases facts predicate unixMs _ _ read
      · cases answer.symm.trans stale
        obtain ⟨-, -, -, _, stale', unknown'⟩ | ⟨-, _, -, there⟩ | ⟨-, none⟩ :=
          @evaluate_cases facts predicate later _ _ read
        · cases answered.symm.trans stale'
          exact apart (unknown'.trans unknown.symm)
        · exact absurd (there.current last held) (by omega)
        · exact none _ answered
      · cases answer.symm.trans answer'
        rw [here.wake later] at late
        obtain ⟨last, held, below, -⟩ | ⟨room, _, answered', there⟩ | ⟨-, none⟩ :=
          @evaluate_cases facts predicate later _ _ read
        · exact late (.inl ⟨last, held, here.current last held, by omega, below⟩)
        · cases answered.symm.trans answered'
          -- what is in the window now has its deadline at `later` or after, and nothing enters
          have stays (d : Nat) (listed : d ∈ deadlines) (ahead : unixMs < d)
              (inside : d ≤ unixMs + predicate.withinMs) : later ≤ d := by
            by_contra passed
            exact late (.inr ⟨d, listed, .inl ⟨ahead, inside, by omega, by omega⟩⟩)
          have away (d : Nat) (listed : d ∈ deadlines)
              (beyond : unixMs + predicate.withinMs < d) : later + predicate.withinMs < d := by
            by_contra entered
            exact late (.inr ⟨d, listed, .inr ⟨beyond, by omega⟩⟩)
          rcases here.truth with ⟨holds, d, listed, ahead, inside⟩ | ⟨fails, none⟩
          · rcases there.truth with ⟨holds', -⟩ | ⟨-, none⟩
            · exact apart (holds'.trans holds.symm)
            have same (other : Nat) (listed : other ∈ deadlines) (ahead : unixMs < other)
                (close : other ≤ later + predicate.withinMs) : other = later := by
              have := none other listed
              have := stays other listed ahead
              have := away other listed
              omega
            have own := same d listed ahead (by omega)
            subst own
            exact seen ⟨d, deadlines, fresh, read, listed, ⟨ahead, inside⟩, same, there.current,
              room⟩
          · rcases there.truth with ⟨-, d, listed, ahead, inside⟩ | ⟨fails', -⟩
            · exact absurd (away d listed (none d listed (by omega))) (by omega)
            · exact apart (fails'.trans fails.symm)
        · exact none _ answered
      · exact none _ answer

end Reading

namespace Sample

/-- One record that is due at ten seconds, in a window of five. -/
def sale : RecordDeadline := ⟨.ofGame "game", "shop.sales", "ends_at", 5000, none⟩

def saleFacts : List ObservedFact :=
  [⟨.ofGame "game", "shop.sales", .recordList [[("ends_at", .timestampMs 10000)]], 0, none, 1000⟩]

/-- The predicate fails from the deadline on, a millisecond before the wake it named. -/
theorem sale_wake_late : ∃ evaluation other,
    evaluateRecordDeadline saleFacts sale 7000 = .ok evaluation ∧
    evaluateRecordDeadline saleFacts sale 10000 = .ok other ∧
    other.truth ≠ evaluation.truth ∧ ∀ wake ∈ evaluation.nextWakeUnixMs, 10000 < wake :=
  ⟨⟨.true, [], some 10001, none⟩, ⟨.false, [], none, none⟩, by decide⟩

/-- Before the sale is in the window, the wake is where it comes in. -/
theorem sale_wake_before :
    (¬ ∃ d deadlines fresh, EndsUnseen saleFacts sale 3000 d deadlines fresh) ∧
    ∀ later other, 3000 < later → later ≤ u64Max →
      evaluateRecordDeadline saleFacts sale later = .ok other → other.truth ≠ .false →
      ∃ wake ∈ some 5000, wake ≤ later := by
  have seen : ¬ ∃ d deadlines fresh, EndsUnseen saleFacts sale 3000 d deadlines fresh := by
    rintro ⟨d, deadlines, fresh, ends⟩
    obtain ⟨rfl, rfl⟩ := Prod.mk.inj (Option.some.inj
      ((rfl : sale.reading saleFacts = some ([10000], none)).symm.trans ends.read))
    have due := mem_singleton.mp ends.listed
    have inside := ends.ahead.2
    simp only [sale] at inside
    omega
  exact ⟨seen, (@deadline_wake_iff saleFacts sale 3000 ⟨.false, [], some 5000, none⟩
    (by decide)).mpr seen⟩

end Sample

end Policy
