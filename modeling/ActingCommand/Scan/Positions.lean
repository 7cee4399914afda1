import ActingCommand.Scan.Decide
import ActingCommand.Selection.Batch

/-!
# What a run keeps of its positions

A viewport never moves a position and never changes what an earlier viewport fixed,
except that it may contradict it. Every verdict a position carries is the evaluator's
verdict of the features that fixed it.
-/

namespace Scan

open Selection Machine List Option Except

/-! ## Positions over time -/

/-- The positions after the viewports from `viewport` on: none moved, and what was fixed before
`viewport` is as it was. -/
structure Evolves (viewport : Nat) (before after : List Position) : Prop where
  rects : ∀ (index : Nat) (position : Position), before[index]? = some position →
    ∃ later : Position, after[index]? = some later ∧ later.rect = position.rect
  fixedBefore : ∀ (index : Nat) (later : Position) fixedIn features verdict,
    after[index]? = some later →
    later.state = .fixed fixedIn features verdict → fixedIn < viewport →
      ∃ position : Position, before[index]? = some position ∧
        position.state = .fixed fixedIn features verdict ∧ position.rect = later.rect

lemma Evolves.refl (viewport : Nat) (positions : List Position) :
    Evolves viewport positions positions where
  rects _ position held := ⟨position, held, rfl⟩
  fixedBefore _ later _ _ _ held state _ := ⟨later, held, state, rfl⟩

variable {viewport : Nat}

lemma Evolves.trans {first second third} (earlier : Evolves viewport first second)
    (later : Evolves viewport second third) :
    Evolves viewport first third where
  rects index position held := by
    obtain ⟨middle, found, same⟩ := earlier.rects index position held
    obtain ⟨last, reached, also⟩ := later.rects index middle found
    exact ⟨last, reached, also.trans same⟩
  fixedBefore index last fixedIn features verdict held state before := by
    obtain ⟨middle, found, also, same⟩ :=
      later.fixedBefore index last fixedIn features verdict held state before
    obtain ⟨position, reached, first, rect⟩ :=
      earlier.fixedBefore index middle fixedIn features verdict found also before
    exact ⟨position, reached, first, rect.trans same⟩

variable {before : List Position}

lemma Evolves.mono {earlier : Nat} {after}
    (evolves : Evolves viewport before after) (order : earlier ≤ viewport) :
    Evolves earlier before after where
  rects := evolves.rects
  fixedBefore index later fixedIn features verdict held state bound :=
    evolves.fixedBefore index later fixedIn features verdict held state (by omega)

variable {position : Position}

lemma evolves_append (viewport : Nat) (positions : List Position)
    (unread : position.state = .unread) :
    Evolves viewport positions (positions ++ [position]) where
  rects index earlier held := by
    have bound : index < positions.length := (List.getElem?_eq_some_iff.mp held).1
    exact ⟨earlier, by rw [getElem?_append_left bound, held], rfl⟩
  fixedBefore index later fixedIn features verdict held state _ := by
    by_cases bound : index < positions.length
    · rw [getElem?_append_left bound] at held
      exact ⟨later, held, state, rfl⟩
    have last : later = position := by
      rw [getElem?_append_right (by omega)] at held
      exact (mem_singleton.mp (mem_of_getElem? held))
    rw [last, unread] at state
    cases state

variable {index : Nat}

theorem evolves_set {positions before after} (held : positions[index]? = some before)
    (rect : after.rect = before.rect)
    (kept : ∀ fixedIn features verdict, after.state = .fixed fixedIn features verdict →
      fixedIn < viewport → before.state = .fixed fixedIn features verdict) :
    Evolves viewport positions (positions.set index after) where
  rects other position found := by
    by_cases same : index = other
    · subst same
      have bound : index < positions.length := (List.getElem?_eq_some_iff.mp held).1
      obtain rfl : before = position := some.inj (held.symm.trans found)
      exact ⟨after, by rw [getElem?_set_self bound], rect⟩
    · exact ⟨position, by rw [getElem?_set_ne same, found], rfl⟩
  fixedBefore other later fixedIn features verdict found state bound := by
    by_cases same : index = other
    · subst same
      have inside : index < positions.length := (List.getElem?_eq_some_iff.mp held).1
      rw [getElem?_set_self inside] at found
      obtain rfl : after = later := some.inj found
      exact ⟨before, held, kept fixedIn features verdict state bound, rect.symm⟩
    · rw [getElem?_set_ne same] at found
      exact ⟨later, found, state, rfl⟩

/-! ## Verdicts -/

/-- The verdict says what the score says. -/
def Verdict.Reports : Verdict → Option Int → Prop
  | member scoreMilli, scored => scoreMilli = scored ∧ scored.isSome = true
  | _, scored => scored = none

namespace ScanSession

variable (session : ScanSession)

/-- The evaluator's reader of the session's pinned inputs. -/
def resolver (lists : ListIndex) : Resolver :=
  .new session.policy session.facts lists session.tables session.nowUnixMs

/-- A reading as a candidate; the evaluator says the same of it under every identifier. -/
def unnamed (features : CandidateFeatureMap) : Candidate := ⟨"", candidateFields features⟩

abbrev Pinned (lists : ListIndex) : Prop :=
  Ready session.digests session.policy session.tables session.facts session.nowUnixMs lists

def Judged (features : CandidateFeatureMap) (verdict : Verdict) : Prop :=
  ∃ lists, session.Pinned lists ∧
    Settles session.policy (session.resolver lists) (unnamed features) ∧
    Canonical session.policy session.tables session.facts session.nowUnixMs (unnamed features) ∧
    verdict.Reports (scoreOf session.policy (session.resolver lists) (unnamed features))

/-- Every verdict is the evaluator's, and no position was fixed after `viewport`. -/
structure Sound (viewport : Nat) (positions : List Position) : Prop where
  judged : ∀ position ∈ positions, ∀ fixedIn features verdict,
    position.state = .fixed fixedIn features (some verdict) → session.Judged features verdict
  below : ∀ position ∈ positions, ∀ fixedIn features verdict,
    position.state = .fixed fixedIn features verdict → fixedIn ≤ viewport

variable {session}

lemma Sound.append {positions} (sound : session.Sound viewport positions)
    (unread : position.state = .unread) :
    session.Sound viewport (positions ++ [position]) where
  judged other listed fixedIn features verdict state := by
    rcases mem_append.mp listed with earlier | last
    · exact sound.judged other earlier fixedIn features verdict state
    obtain rfl := mem_singleton.mp last
    rw [unread] at state
    cases state
  below other listed fixedIn features verdict state := by
    rcases mem_append.mp listed with earlier | last
    · exact sound.below other earlier fixedIn features verdict state
    obtain rfl := mem_singleton.mp last
    rw [unread] at state
    cases state

lemma Sound.set {positions after} (sound : session.Sound viewport positions)
    (judged : ∀ fixedIn features verdict, after.state = .fixed fixedIn features (some verdict) →
      session.Judged features verdict)
    (below : ∀ fixedIn features verdict, after.state = .fixed fixedIn features verdict →
      fixedIn ≤ viewport) :
    session.Sound viewport (positions.set index after) where
  judged other listed := by
    rcases mem_or_eq_of_mem_set listed with earlier | rfl
    · exact sound.judged other earlier
    · exact judged
  below other listed := by
    rcases mem_or_eq_of_mem_set listed with earlier | rfl
    · exact sound.below other earlier
    · exact below

/-! ## One viewport -/

/-- What holds while a viewport is read: the positions evolve from those before it, and a position
it fixed is still fixed by it, or contradicted. -/
structure Observing.Holds (session : ScanSession) (viewport : Nat) (before : List Position)
    (observing : Observing) : Prop where
  evolves : Evolves viewport before observing.positions
  sound : session.Sound viewport observing.positions
  fixedHere : ∀ index ∈ observing.fixed, ∀ position : Position,
    observing.positions[index]? = some position → ∀ fixedIn features verdict,
      position.state = .fixed fixedIn features verdict → fixedIn = viewport
  bounded : ∀ index ∈ observing.fixed, index < observing.positions.length

variable {features : CandidateFeatureMap}

lemma readState_fixed {state held} {fixedIn : Nat} {verdict}
    (after : session.readState state features viewport = .fixed fixedIn held verdict) :
    state = .fixed fixedIn held verdict ∨
      fixedIn = viewport ∧ verdict = none ∧ session.fixes state features = true := by
  cases state with
  | unread | incomplete =>
    simp only [readState] at after
    split at after
    · cases after
      exact Or.inr ⟨rfl, rfl, by assumption⟩
    · cases after
  | fixed earlier before judged =>
    simp only [readState] at after
    split at after
    · cases after
    · exact Or.inl after
  | contradicted => cases after

lemma read_ok {entry next} {fixes : Bool}
    (answer : session.read entry features viewport = .ok (next, fixes)) :
    next.rect = entry.rect ∧ next.state = session.readState entry.state features viewport ∧
      fixes = session.fixes entry.state features := by
  simp only [read, bind_ok_iff, pure_ok_iff, Prod.mk.injEq] at answer
  obtain ⟨_, -, rfl, rfl⟩ := answer
  exact ⟨rfl, rfl, rfl⟩

variable {observing : Observing}

/-- A new position changes nothing of what holds. -/
theorem Observing.Holds.positions (holds : observing.Holds session viewport before)
    (content : AxisRect) :
    Observing.Holds session viewport before
      { observing with
        positions := (session.positionOf observing.positions content viewport).1 } := by
  unfold positionOf
  split
  · exact holds
  refine ⟨holds.evolves.trans (evolves_append viewport _ rfl), holds.sound.append rfl, ?_, ?_⟩
  · intro index listed other held
    have bound := holds.bounded index listed
    rw [getElem?_append_left bound] at held
    exact holds.fixedHere index listed other held
  intro index listed
  have bound := holds.bounded index listed
  simp only [length_append, length_singleton]
  omega

lemma observeInstance_holds {offset : Int} {next tracked}
    (holds : observing.Holds session viewport before)
    (answer : session.observeInstance offset viewport observing tracked = .ok next) :
    next.Holds session viewport before := by
  have placed := holds.positions { tracked.rect with axis := tracked.rect.axis + offset }
  unfold observeInstance at answer
  simp only at answer placed
  generalize session.positionOf observing.positions
    { tracked.rect with axis := tracked.rect.axis + offset } viewport = place at answer placed
  obtain ⟨positions, index⟩ := place
  simp only at answer placed
  split at answer
  · cases found : positions[index]? with
    | none =>
      rw [found] at answer
      exact ok.inj answer ▸ placed
    | some entry =>
      rw [found] at answer
      simp only [bind_ok_iff] at answer
      obtain ⟨⟨later, fixes⟩, read, answer⟩ := answer
      obtain ⟨rect, state, fixed⟩ := read_ok read
      obtain rfl := ok.inj answer
      have inside : entry ∈ positions := mem_of_getElem? found
      have bound : index < positions.length := (List.getElem?_eq_some_iff.mp found).1
      refine ⟨placed.evolves.trans (evolves_set found rect ?_), placed.sound.set ?_ ?_, ?_, ?_⟩
      · intro fixedIn features verdict after earlier
        rcases readState_fixed (state.symm.trans after) with same | ⟨here, -, -⟩
        · exact same
        · omega
      · intro fixedIn features verdict after
        rcases readState_fixed (state.symm.trans after) with same | ⟨-, none, -⟩
        · exact placed.sound.judged entry inside fixedIn features verdict same
        · cases none
      · intro fixedIn features verdict after
        rcases readState_fixed (state.symm.trans after) with same | ⟨here, -, -⟩
        · exact placed.sound.below entry inside fixedIn features verdict same
        · exact le_of_eq here
      · intro other listed position held fixedIn features verdict after
        by_cases same : index = other
        · subst same
          rw [getElem?_set_self bound] at held
          obtain rfl : later = position := some.inj held
          rcases readState_fixed (state.symm.trans after) with kept | ⟨here, -, -⟩
          · -- A position fixed by an earlier viewport is not fixed again.
            have again : fixes = false := by rw [fixed, kept]; rfl
            simp only [again, Bool.false_eq_true, if_false] at listed
            exact placed.fixedHere index listed entry found fixedIn features verdict kept
          · exact here
        rw [getElem?_set_ne same] at held
        have earlier : other ∈ observing.fixed := by
          cases fixes with
          | false => exact listed
          | true =>
            rcases mem_append.mp listed with earlier | last
            · exact earlier
            · exact absurd (mem_singleton.mp last).symm same
        exact placed.fixedHere other earlier position held fixedIn features verdict after
      · intro other listed
        rw [length_set]
        cases fixes with
        | false => exact placed.bounded other listed
        | true =>
          rcases mem_append.mp listed with earlier | last
          · exact placed.bounded other earlier
          · exact (mem_singleton.mp last) ▸ bound
  · exact ok.inj answer ▸ placed

lemma mem_fixedCandidates {positions fixed candidate}
    (listed : (candidate, index) ∈ session.fixedCandidates positions fixed) :
    index ∈ fixed ∧ ∃ position, positions[index]? = some position ∧
      ∃ viewport features verdict, position.state = .fixed viewport features verdict ∧
        candidate.fields = candidateFields features := by
  simp only [fixedCandidates, mem_filterMap, bind_eq_some_iff] at listed
  obtain ⟨other, inside, position, held, entry⟩ := listed
  cases state : position.state with
  | fixed viewport features verdict =>
    rw [state] at entry
    simp only [some.injEq, Prod.mk.injEq] at entry
    obtain ⟨rfl, rfl⟩ := entry
    exact ⟨inside, position, held, viewport, features, verdict, state, rfl⟩
  | unread | incomplete | contradicted =>
    rw [state] at entry
    cases entry

/-- What holds while the verdicts of a viewport are written. -/
structure Judging (session : ScanSession) (viewport : Nat) (before : List Position)
    (identities : List (Candidate × Nat)) (positions : List Position) : Prop where
  evolves : Evolves viewport before positions
  sound : session.Sound viewport positions
  held : ∀ entry ∈ identities, ∀ position : Position, positions[entry.2]? = some position →
    ∀ fixedIn features verdict, position.state = .fixed fixedIn features verdict →
      fixedIn = viewport ∧ entry.1.fields = candidateFields features

lemma judge_fixed {verdict : Verdict} {fixedIn : Nat} {judged}
    (after : (judge position verdict).state = .fixed fixedIn features judged) :
    judged = some verdict ∧ ∃ earlier, position.state = .fixed fixedIn features earlier := by
  unfold judge at after
  cases state : position.state with
  | fixed viewport held earlier =>
    rw [state] at after
    cases after
    exact ⟨rfl, earlier, rfl⟩
  | unread | incomplete | contradicted =>
    rw [state] at after
    exact absurd (state.symm.trans after) (by simp)

lemma judge_rect (position : Position) (verdict : Verdict) :
    (judge position verdict).rect = position.rect := by
  unfold judge
  cases position.state <;> rfl

lemma judgeAll_judging {positions last identities verdicts}
    (judged : ∀ verdict ∈ verdicts, ∀ entry ∈ identities, entry.1.candidateId =
      verdict.candidateId → ∀ features, entry.1.fields = candidateFields features →
      session.Judged features (verdictOf verdict))
    (judging : Judging session viewport before identities positions)
    (answer : judgeAll identities verdicts positions = .ok last) :
    Judging session viewport before identities last := by
  induction verdicts generalizing positions with
  | nil => exact ok.inj answer ▸ judging
  | cons verdict rest ih =>
    simp only [judgeAll, bind_ok_iff, okOr_ok_iff] at answer
    obtain ⟨entry, found, answer⟩ := answer
    have listed := mem_of_find?_eq_some found
    have named : entry.1.candidateId = verdict.candidateId := by
      simpa using find?_some found
    refine ih (fun other later => judged other (mem_cons_of_mem _ later)) ?_ answer
    cases position : positions[entry.2]? with
    | none =>
      have beyond : positions.length ≤ entry.2 := List.getElem?_eq_none_iff.mp position
      rw [modify_eq_self beyond]
      exact judging
    | some held =>
      have modified : positions.modify entry.2 (fun position => judge position (verdictOf verdict))
          = positions.set entry.2 (judge held (verdictOf verdict)) := by
        rw [modify_eq_set_getElem?, position]
        rfl
      have inside : held ∈ positions := mem_of_getElem? position
      have bound : entry.2 < positions.length := (List.getElem?_eq_some_iff.mp position).1
      have here := judging.held entry listed held position
      rw [modified]
      refine ⟨judging.evolves.trans (evolves_set position (judge_rect _ _) ?_),
        judging.sound.set ?_ ?_, ?_⟩
      · intro fixedIn features after state earlier
        obtain ⟨-, previous, fixed⟩ := judge_fixed state
        have := (here fixedIn features previous fixed).1
        omega
      · intro fixedIn features after state
        obtain ⟨same, previous, fixed⟩ := judge_fixed state
        obtain rfl := some.inj same
        exact judged verdict mem_cons_self entry listed named features
          (here fixedIn features previous fixed).2
      · intro fixedIn features after state
        obtain ⟨-, previous, fixed⟩ := judge_fixed state
        exact judging.sound.below held inside fixedIn features previous fixed
      intro other also position' found' fixedIn features after state
      by_cases same : entry.2 = other.2
      · rw [← same, getElem?_set_self bound] at found'
        obtain rfl := some.inj found'
        obtain ⟨-, previous, fixed⟩ := judge_fixed state
        exact judging.held other also held (same ▸ position) fixedIn features previous fixed
      · rw [getElem?_set_ne same] at found'
        exact judging.held other also position' found' fixedIn features after state

lemma evaluateCandidates_ok {candidates decision}
    (answer : session.evaluateCandidates candidates = .ok decision) :
    evaluateWithTables session.digests session.policy session.tables candidates session.facts
      session.nowUnixMs = .ok decision := by
  unfold evaluateCandidates at answer
  split at answer
  · rename_i found
    obtain rfl := ok.inj answer
    exact found
  · cases answer

/-- A verdict of an evaluation that does not abort is the evaluator's verdict of its reading. -/
theorem judged_of_evaluate {candidates decision}
    (answer : session.evaluateCandidates candidates = .ok decision)
    (known : decision.outcome.isUnknown = false) {verdict}
    (listed : verdict ∈ decision.candidates) {candidate}
    (inside : candidate ∈ candidates) (named : candidate.candidateId = verdict.candidateId)
    (fields : candidate.fields = candidateFields features) :
    session.Judged features (verdictOf verdict) := by
  have evaluated := evaluateCandidates_ok answer
  obtain ⟨lists, ready, each⟩ := ready_of_evaluate evaluated known
  obtain ⟨settles, canonical⟩ := each candidate inside
  have same : (unnamed features).fields = candidate.fields := fields.symm
  obtain ⟨also, score⟩ := scoreOf_renamed settles same
  have reported := verdict_scoreOf evaluated ready listed inside named.symm
  refine ⟨lists, ready, also, canonical_renamed same canonical, ?_⟩
  change (verdictOf verdict).Reports (scoreOf _ (.new _ _ lists _ _) _)
  rw [score]
  unfold verdictOf
  cases status : verdict.status with
  | ranked =>
    rw [if_pos status] at reported
    exact ⟨reported.1, reported.1 ▸ reported.2⟩
  | gateRejected =>
    rw [if_neg (by simp [status])] at reported
    exact reported
  | unknownDropped =>
    rw [if_neg (by simp [status])] at reported
    simp only
    split <;> exact reported

lemma evaluateFixed_sound {positions} (holds : observing.Holds session viewport before)
    (answer : session.evaluateFixed observing.positions observing.fixed = .ok (.judged positions)) :
    Evolves viewport before positions ∧ session.Sound viewport positions := by
  unfold evaluateFixed at answer
  split at answer
  · obtain rfl := Evaluated.judged.inj (ok.inj answer)
    exact ⟨holds.evolves, holds.sound⟩
  simp only [bind_ok_iff] at answer
  obtain ⟨decision, evaluated, answer⟩ := answer
  cases unknown : decision.outcome.isUnknown with
  | true =>
    cases outcome : decision.outcome with
    | unknown reason detail =>
      rw [outcome] at answer
      cases answer
    | selected | empty | insufficient | ambiguous =>
      rw [outcome] at unknown
      cases unknown
  | false =>
    have judges : ∃ judged, judgeAll (session.fixedCandidates observing.positions observing.fixed)
        decision.candidates observing.positions = .ok judged ∧ judged = positions := by
      cases outcome : decision.outcome with
      | unknown reason detail =>
        rw [outcome] at unknown
        cases unknown
      | selected | empty | insufficient | ambiguous =>
        rw [outcome] at answer
        simp only [bind_ok_iff] at answer
        obtain ⟨judged, done, answer⟩ := answer
        exact ⟨judged, done, Evaluated.judged.inj (ok.inj answer)⟩
    obtain ⟨judged, done, rfl⟩ := judges
    have judging : Judging session viewport before
        (session.fixedCandidates observing.positions observing.fixed) observing.positions := by
      refine ⟨holds.evolves, holds.sound, ?_⟩
      rintro ⟨candidate, index⟩ listed position held fixedIn features verdict state
      obtain ⟨inside, other, found, _, also, _, fixed, fields⟩ := mem_fixedCandidates listed
      obtain rfl : other = position := some.inj (found.symm.trans held)
      obtain ⟨rfl, rfl, rfl⟩ := PositionState.fixed.inj (state.symm.trans fixed)
      exact ⟨holds.fixedHere index inside other held fixedIn features verdict state, fields⟩
    have last := judgeAll_judging (fun verdict listed entry also named features fields =>
      judged_of_evaluate evaluated unknown listed (List.mem_map_of_mem also) named fields)
      judging done
    exact ⟨last.evolves, last.sound⟩

/-! ## Whole runs -/

variable {state next : ScanState}

lemma observe_ok {current motion} {offset : Int} {endCheck : Bool}
    (sound : session.Sound (u32Of state.viewports.length) state.positions)
    (seen : session.observe state current motion offset endCheck = .ok (.viewport next)) :
    Evolves (u32Of state.viewports.length) state.positions next.positions ∧
      session.Sound (u32Of state.viewports.length) next.positions ∧
      next.viewports.length = state.viewports.length + 1 := by
  simp only [observe, bind_ok_iff] at seen
  obtain ⟨observing, observed, _, -, evaluated, judged, seen⟩ := seen
  have first : Observing.Holds session (u32Of state.viewports.length) state.positions
      ⟨state.positions, [], []⟩ :=
    ⟨.refl _ _, sound, by simp, by simp⟩
  have holds := foldlM_invariant
    (fun before tracked after holds stepped => observeInstance_holds holds stepped)
    first observed
  cases evaluated with
  | aborted decision => cases seen
  | judged positions =>
    obtain rfl := Observed.viewport.inj (ok.inj seen)
    obtain ⟨evolves, sound⟩ := evaluateFixed_sound holds judged
    exact ⟨evolves, sound, by simp⟩

/-- A step observes one viewport, whose index is not saturated. -/
theorem Step.observes (step : session.Step state next) :
    ∃ current motion offset endCheck,
      session.observe state current motion offset endCheck = .ok (.viewport next) ∧
        u32Of state.viewports.length = state.viewports.length := by
  cases step with
  | start first seen => exact ⟨_, _, _, _, seen, by simp [first, u32Of]⟩
  | advance admitted seen =>
    refine ⟨_, _, _, _, seen, ?_⟩
    have bound := session.maxViewports.toNat_lt
    unfold u32Of u32Max at *
    omega

variable (session state) in
/-- Every verdict is the evaluator's, and every position was fixed by an earlier viewport. -/
def Reached : Prop :=
  (∀ position ∈ state.positions, ∀ fixedIn features verdict,
    position.state = .fixed fixedIn features (some verdict) → session.Judged features verdict) ∧
  ∀ position ∈ state.positions, ∀ fixedIn features verdict,
    position.state = .fixed fixedIn features verdict → fixedIn < state.viewports.length

lemma Step.reached (step : session.Step state next) (reached : session.Reached state) :
    session.Reached next ∧ state.viewports.length < next.viewports.length ∧
      Evolves state.viewports.length state.positions next.positions := by
  obtain ⟨current, motion, offset, endCheck, seen, exact⟩ := step.observes
  have sound : session.Sound (u32Of state.viewports.length) state.positions := by
    refine ⟨reached.1, fun position listed fixedIn features verdict fixed => ?_⟩
    have := reached.2 position listed fixedIn features verdict fixed
    omega
  obtain ⟨evolves, after, length⟩ := observe_ok sound seen
  rw [exact] at evolves after
  refine ⟨⟨after.judged, fun position listed fixedIn features verdict fixed => ?_⟩, by omega,
    evolves⟩
  have := after.below position listed fixedIn features verdict fixed
  omega

lemma Run.reached {last} (run : session.Run state last) (reached : session.Reached state) :
    session.Reached last ∧ Evolves state.viewports.length state.positions last.positions := by
  have all : session.Reached last ∧ state.viewports.length ≤ last.viewports.length ∧
      Evolves state.viewports.length state.positions last.positions := by
    induction run with
    | refl => exact ⟨reached, le_refl _, .refl _ _⟩
    | tail _ step ih =>
      obtain ⟨middle, order, evolves⟩ := ih
      obtain ⟨next, grows, stepped⟩ := step.reached middle
      exact ⟨next, by omega, evolves.trans (stepped.mono order)⟩
  exact ⟨all.1, all.2.2⟩

lemma reached_initial : session.Reached .initial :=
  ⟨by simp [ScanState.initial], by simp [ScanState.initial]⟩

end ScanSession

end Scan
