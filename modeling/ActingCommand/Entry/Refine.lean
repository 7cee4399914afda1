import ActingCommand.Entry.Flow

/-!
# Events are moves

Most of the core is not part of the flow: plans, deferrals, notices and the host change it
in no way. What remains of each handler is a short sequence of moves.
-/

namespace Entry

open List Option Prod

namespace Core

section Outside

variable {η : Type} [Host η] {core : Core η} {hand : List Held}

/-! ## Outside the flow -/

@[simp] lemma note_flow (text : String) : (core.note text).flow hand = core.flow hand := rfl

@[simp] lemma stop_flow (child : Nat) : (core.stop child).flow hand = core.flow hand := rfl

@[simp] lemma toClient_flow (line : Bytes) : (core.toClient line).flow hand = core.flow hand :=
  rfl

@[simp] lemma finishEvent_flow : core.finishEvent.flow hand = core.flow hand := by
  unfold finishEvent
  split <;> rfl

variable (kind : DeferKind) (stamp : Stamp) (now : Nat)

@[simp] lemma defer_flow (outstanding : Option Nat) (kinds handles : List String) (now : Nat) :
    (core.defer kind outstanding kinds handles now).flow hand = core.flow hand := by
  have kept (deferral : Deferral) : (if core.deferred ≠ some deferral then
      { core with deferred := some deferral, dirty := true } else core).flow hand =
      core.flow hand := by
    split <;> rfl
  have told (past : Bool) (text : String) (core : Core η) :
      (if past then core.note text else core).flow hand = core.flow hand := by
    cases past <;> rfl
  exact (told _ _ _).trans (kept _)

@[simp] lemma deferPlain_flow : (core.deferPlain kind now).flow hand = core.flow hand :=
  defer_flow kind none [] [] now

omit [Host η] in
@[simp] lemma retire_flow (old : Slot) (now : Nat) (ended : Ended) :
    (core.retire old now ended).flow hand = core.flow hand := rfl

omit [Host η] in
lemma foldl_flow {α : Type} (act : Core η → α → Core η) (items : List α)
    (same : ∀ (core : Core η) item, (act core item).flow hand = core.flow hand) (core : Core η) :
    (items.foldl act core).flow hand = core.flow hand := by
  induction items generalizing core with
  | nil => rfl
  | cons item rest ih => rw [foldl_cons, ih, same]

@[simp] lemma dropStalePlan_flow : core.dropStalePlan.flow hand = core.flow hand := by
  unfold dropStalePlan
  split <;> rfl

omit [Host η] in
@[simp] lemma touched_flow : core.touched.flow hand = core.flow hand := rfl

omit [Host η] in
@[simp] lemma clearDeferralWithoutPlan_flow :
    core.clearDeferralWithoutPlan.flow hand = core.flow hand := by
  unfold clearDeferralWithoutPlan
  split <;> rfl

@[simp] lemma rejectPlanned_flow : core.rejectPlanned.flow hand = core.flow hand := by
  unfold rejectPlanned
  split <;> rfl

@[simp] lemma dropCandidate_flow : core.dropCandidate.flow hand = core.flow hand :=
  rejectPlanned_flow

@[simp] lemma noteUnstarted_flow (text : String) (purpose : Purpose) (build : Option String) :
    (core.noteUnstarted text purpose build).flow hand = core.flow hand := rfl

@[simp] lemma runPlan_flow (current : Option String) (now : Nat) :
    (core.runPlan stamp current now).2.flow hand = core.flow hand := by
  simp only [runPlan]
  split
  · rfl
  split
  · exact deferPlain_flow _ _
  · rfl

omit [Host η] in
@[simp] lemma forgetPending_flow : core.forgetPending.flow hand = core.flow hand := by
  unfold forgetPending
  split <;> rfl

@[simp] lemma watchRejected_flow (rejected : Rejected) (stamp : Stamp) (now : Nat) :
    (core.watchRejected rejected stamp now).flow hand = core.flow hand := by
  have ran := @runPlan_flow η _ core.forgetPending hand stamp
    (core.forgetPending.current.bind (·.build)) now
  rw [forgetPending_flow] at ran
  simp only [watchRejected]
  split
  · split
    · exact ran
    · exact ran
  · exact forgetPending_flow

@[simp] lemma watchChanged_flow : (core.watchChanged stamp now).flow hand = core.flow hand := by
  simp only [watchChanged]
  split
  · rfl
  split
  · exact runPlan_flow _ _ _
  · rfl

@[simp] lemma watchStamp_flow : (core.watchStamp stamp now).flow hand = core.flow hand := by
  simp only [watchStamp]
  split
  · exact watchRejected_flow _ _ _
  split
  · exact runPlan_flow _ _ _
  split
  · rw [clearDeferralWithoutPlan_flow, forgetPending_flow]
  · exact watchChanged_flow _ _

@[simp] lemma watch_flow : (core.watch now).flow hand = core.flow hand := by
  simp only [watch]
  split
  · rfl
  split
  · split
    · rfl
    · rw [watchStamp_flow, dropStalePlan_flow]
  · exact watchStamp_flow _ _

omit [Host η] in
@[simp] lemma clientInfo_flow (info : Value) :
    (core.clientInfo info).flow hand = core.flow hand := by
  simp only [clientInfo]
  split <;> rfl

@[simp] lemma toolsListed_flow : core.toolsListed.flow hand = core.flow hand := by
  simp only [toolsListed]
  split <;> rfl

omit [Host η] in
@[simp] lemma observeMeta_flow (params : Option Value) :
    (core.observeMeta params).flow hand = core.flow hand := by
  simp only [observeMeta]
  split
  · rfl
  split
  · rw [clientInfo_flow]
    split <;> rfl
  · split <;> rfl

@[simp] lemma observeRequest_flow (name key : String) (params : Option Value) :
    (core.observeRequest name key params).flow hand = core.flow hand := by
  simp only [observeRequest]
  split
  · split
    · exact clientInfo_flow _
    · rfl
  split
  · rfl
  split
  · exact toolsListed_flow
  · rfl

@[simp] lemma planRefused_flow : (core.planRefused now).flow hand = core.flow hand := by
  simp only [planRefused, finishEvent_flow]
  exact deferPlain_flow _ _

omit [Host η] in
lemma serving_eq_some {current : Slot} (serving : core.serving = some current) :
    core.current = some current ∧ (core.flow hand).fresh = false := by
  unfold Core.serving at serving
  split at serving
  · cases serving
  rename_i settled
  refine ⟨serving, ?_⟩
  simp only [Flow.fresh, flow, Option.any_map]
  simpa [Function.comp_def] using settled

lemma spawnSlot_flow {exe : String} {build started} {after : Core η}
    (answer : core.spawnSlot exe build = (started, after)) :
    after.flow hand = { core.flow hand with nextChild := core.nextChild + 1 } ∧
      ∀ slot, started = .ok slot → slot.child = ⟨core.nextChild + 1, 0⟩ := by
  simp only [spawnSlot] at answer
  split at answer
  · obtain ⟨rfl, rfl⟩ := Prod.mk.inj answer
    refine ⟨rfl, fun slot ok => ?_⟩
    obtain rfl := Except.ok.inj ok
    rfl
  · obtain ⟨rfl, rfl⟩ := Prod.mk.inj answer
    exact ⟨rfl, fun slot ok => nomatch ok⟩

lemma stopCandidate_flow :
    core.stopCandidate.flow hand = { core.flow hand with starting := none } := by
  unfold stopCandidate
  split
  · rename_i idle
    simp [flow, idle, map_none]
  · rfl

@[simp] lemma stopCurrent_flow : core.stopCurrent.flow hand = core.flow hand := by
  unfold stopCurrent
  split <;> rfl

omit [Host η] in
@[simp] lemma clearPlanDeferral_flow : core.clearPlanDeferral.flow hand = core.flow hand := by
  unfold clearPlanDeferral
  split <;> rfl

lemma lookup_setMember {name other : String} (value : Value) (members : Members)
    (differs : (other == name) = false) :
    (Value.setMember name value members).lookup other = members.lookup other := by
  induction members with
  | nil => simp [Value.setMember, lookup_cons, differs]
  | cons member rest ih =>
    obtain ⟨first, held⟩ := member
    rw [Value.setMember]
    split
    · rename_i same
      simp [lookup_cons, same, differs]
    · simp [lookup_cons, ih]

end Outside

variable {η : Type} [Host η] [Printer] {core : Core η} {hand : List Held}

@[simp] lemma sendClient_flow (message : Value) :
    (core.sendClient message).flow hand = core.flow hand := rfl

@[simp] lemma sendNotices_flow : (core.sendNotices now).flow hand = core.flow hand := by
  have told (core : Core η) (ids : List Value) : (ids.foldl (fun core id =>
      core.sendClient (toolListChanged
        [("params", .object [("_meta", .object [(metaSubscriptionId, id)])])])) core).flow hand =
      core.flow hand := by
    refine foldl_flow _ ids ?_ core
    intro core id
    rfl
  have legacy (told : Bool) : (if told then core.sendClient (toolListChanged []) else core).flow
      hand = core.flow hand := by
    cases told <;> rfl
  exact (told _ _).trans (legacy _)

@[simp] lemma listen_flow (id : Value) (params : Option Value) :
    (core.listen id params).flow hand = core.flow hand := rfl

omit [Host η] in
@[simp] lemma patchAnswer_flow (object : Members) :
    (core.patchAnswer object).2.flow hand = core.flow hand := by
  simp only [patchAnswer]
  split
  · split
    · split
      · split <;> rfl
      · rfl
    · rfl
  · rfl

@[simp] lemma acceptBuild_flow (plan : Plan) (stamp : Stamp) (now : Nat) :
    (core.acceptBuild plan stamp now).flow hand = core.flow hand := by
  have named : ({ core with
      current := core.current.map fun slot : Slot =>
        { slot with build := some plan.build.commit, previousBuild := none }
      accepted := some stamp, pending := none, rejected := none } : Core η).flow hand =
      core.flow hand := by
    simp only [flow, Option.map_map]
    rfl
  simp only [acceptBuild]
  split
  · rw [sendNotices_flow, clearDeferralWithoutPlan_flow, named]
  · rw [clearDeferralWithoutPlan_flow, named]

/-! ## Answers and failures -/

lemma answerErrors_flow (requests : List Pending) (code : EntryCode) (core : Core η) :
    (core.answerErrors requests code).flow hand =
      { core.flow hand with past := core.past ++ refusals requests code } := by
  induction requests generalizing core with
  | nil => simp [answerErrors, refusals, flow]
  | cons pending rest ih =>
    have later := ih (core.answerError pending code)
    simp only [answerErrors, foldl_cons] at later ⊢
    rw [later]
    simp [answerError, refusals, flow, sendClient, toClient]

variable {parse : Bytes → Option Value}

lemma failHeld_moves : Moves parse (core.flow hand) (core.failHeld.flow hand) := by
  simp only [failHeld, answerErrors_flow]
  exact .single .refuse

lemma failStarting_moves (problem : CandidateProblem) :
    Moves parse (core.flow hand) ((core.failStarting problem).flow hand) := by
  simp only [failStarting]
  split
  · exact .refl
  rename_i starting _
  have failed : Moves parse (core.flow hand) ((core.stopStarting starting problem).flow hand) :=
    .single .fail
  split
  · rw [dropCandidate_flow]
    exact failed
  · exact failed.trans failHeld_moves

lemma send_flow {child : Nat} {line : Line} {written : Bool} {after : Core η}
    (answer : core.send child line = (written, after)) :
    after.flow hand =
      { core.flow hand with past := core.past ++ [.sent child line written] } := by
  obtain ⟨rfl, rfl⟩ := Prod.mk.inj answer
  rfl

/-- A request of the entry's own leaves a record of its write. -/
theorem internalRequest_flow {child : Nat} {method : String} {params : Value} {key}
    {after : Core η} (answer : core.internalRequest child method params = (key, after)) :
    after.flow hand = { core.flow hand with
      past := core.past ++ [.sent child (.request core.nextKey method params) key.isSome] } ∧
      ∀ own ∈ key, own = core.nextKey := by
  simp only [internalRequest] at answer
  split at answer
  · rename_i sent written
    obtain ⟨rfl, rfl⟩ := Prod.mk.inj answer
    have left := @send_flow η _ _ _ hand _ _ _ _ written
    exact ⟨left, fun own same => (some.inj same).symm⟩
  rename_i sent unwritten
  obtain ⟨rfl, rfl⟩ := Prod.mk.inj answer
  have left := @send_flow η _ _ _ hand _ _ _ _ unwritten
  exact ⟨left, fun own same => nomatch same⟩

/-! ## Delivering -/

lemma eraseAnswer_flow (requests : Requests) (core : Core η) :
    (requests.foldl (fun core (request : String × Pending) =>
      { core with inflight := core.inflight.erase request.1 }.answerError request.2
        .childUnavailable) core).flow hand =
      { core.flow hand with
        inflight := eraseAll (requests.map fst) core.inflight
        past := core.past ++ refusals (requests.map snd) .childUnavailable } := by
  induction requests generalizing core with
  | nil => simp [eraseAll, refusals, flow]
  | cons request rest ih =>
    rw [foldl_cons, ih]
    simp [answerError, eraseAll, refusals, flow, sendClient, toClient]

/-- What a forwarded line leaves, written or not. -/
theorem forward_flow (current : Slot) (held : Held) :
    (core.forward current held).flow hand =
        { (core.flow hand).forwarded current.child held with
          past := core.past ++ [.sent current.id (.client held.number held.line) true] } ∨
      (core.forward current held).flow hand =
        { (core.flow hand).forwarded current.child held with
          inflight := eraseAll (held.requests.map fst)
            ((core.flow hand).forwarded current.child held).inflight
          past := core.past ++ .sent current.id (.client held.number held.line) false ::
            refusals (held.requests.map snd) .childUnavailable } := by
  unfold forward
  split
  · rename_i sent written
    exact .inl (send_flow written)
  rename_i sent unwritten
  refine .inr ?_
  have left := @send_flow η _ _ _ hand _ _ _ _ unwritten
  simp only [touched_flow, answerUnsent, eraseAnswer_flow, note_flow]
  have inflight : sent.inflight = insertAll held.requests core.inflight :=
    congrArg Flow.inflight left
  have past : sent.past = core.past ++ [.sent current.id (.client held.number held.line) false] :=
    congrArg Flow.past left
  rw [left]
  simp only [note, inflight, past, append_assoc]
  rfl

lemma forward_moves {current : Slot} {held : Held} {rest}
    (serves : (core.flow (held :: rest)).Serves current.child held rest) :
    Moves parse (core.flow (held :: rest)) ((core.forward current held).flow rest) := by
  rcases @forward_flow η _ _ core rest current held with written | missed
  · rw [written]
    exact .single (.write serves)
  · rw [missed]
    exact .single (.miss serves)

lemma deliver_moves {startFresh}
    (starts : ∀ core : Core η, core.starting = none → core.current = none →
      Moves parse (core.flow []) ((startFresh core).flow []))
    (held : Held) (ordered : core.closing = false ∨ core.held = []) :
    Moves parse (core.flow [held]) ((deliver startFresh core held).flow []) := by
  unfold deliver
  cases serving : core.serving with
  | some current =>
    obtain ⟨own, settled⟩ := @serving_eq_some η core [held] current serving
    exact forward_moves ⟨rfl, congrArg (Option.map Slot.child) own, settled, ordered⟩
  | none =>
    have waits : (core.flow [held]).current = none ∨ (core.flow [held]).fresh = true := by
      unfold Core.serving at serving
      split at serving
      · rename_i fresh
        refine .inr ?_
        simp only [Flow.fresh, flow, Option.any_map]
        simpa [Function.comp_def] using fresh
      · exact .inl (congrArg (Option.map Slot.child) serving)
    have holds : Moves parse (core.flow [held])
        ({ core with held := core.held ++ [held] }.flow []) := .single (.hold rfl waits)
    simp only
    split
    · rename_i idle
      refine holds.trans (starts _ (by simpa using idle) ?_)
      unfold Core.serving at serving
      have none : core.starting = none := by simpa using idle
      simpa [none] using serving
    · exact holds

/-- A child that takes a line while no other starts still takes the next. -/
theorem forward_serves {current : Slot} (held : Held) (settled : core.starting = none) :
    (∃ slot, (core.forward current held).current = some slot) ∧
      (core.forward current held).starting = none ∧
      (core.forward current held).held = core.held := by
  have left : (∃ child, ((core.forward current held).flow []).current = some child) ∧
      ((core.forward current held).flow []).starting = none ∧
      ((core.forward current held).flow []).held = core.held := by
    rcases @forward_flow η _ _ core [] current held with written | missed
    · rw [written]
      exact ⟨⟨_, rfl⟩, congrArg (Option.map _) settled, rfl⟩
    · rw [missed]
      exact ⟨⟨_, rfl⟩, congrArg (Option.map _) settled, rfl⟩
  obtain ⟨⟨child, still⟩, idle, kept⟩ := left
  obtain ⟨slot, own, -⟩ := map_eq_some_iff.mp still
  exact ⟨⟨slot, own⟩, map_eq_none_iff.mp idle, kept⟩

lemma deliver_eq_forward {startFresh} {current : Slot} (held : Held)
    (serves : core.current = some current) (settled : core.starting = none) :
    deliver startFresh core held = core.forward current held := by
  have serving : core.serving = some current := by simp [Core.serving, settled, serves]
  simp [deliver, serving]

/-- A child that nothing else starts beside takes every line in hand. -/
theorem drain_moves (lines : List Held) (core : Core η) (current : Slot)
    (serves : core.current = some current) (settled : core.starting = none)
    (empty : core.held = []) :
    Moves parse (core.flow lines) ((lines.foldl (deliver id) core).flow []) := by
  induction lines generalizing core current with
  | nil => exact .refl
  | cons held rest ih =>
    have fresh : (core.flow (held :: rest)).fresh = false := by simp [Flow.fresh, flow, settled]
    have moves := @forward_moves η _ _ core parse current held rest
      ⟨rfl, congrArg (Option.map Slot.child) serves, fresh, .inr empty⟩
    obtain ⟨⟨slot, still⟩, idle, kept⟩ := @forward_serves η _ _ core current held settled
    rw [foldl_cons, deliver_eq_forward held serves settled]
    exact moves.trans (ih _ slot still idle (kept.trans empty))

variable {trySwitch : Core η → Core η}

lemma onReady_moves
    (switches : ∀ core : Core η, Moves parse (core.flow []) ((trySwitch core).flow [])) :
    Moves parse (core.flow []) ((core.onReady trySwitch).flow []) := by
  unfold onReady
  split
  · exact .refl
  rename_i starting held
  split
  · rename_i purpose
    have ready : Moves parse (core.flow []) ((core.takeOver starting.slot).flow core.held) := by
      refine .single (.ready ?_ rfl)
      simp only [flow, held, map_some, purpose]
      rfl
    exact ready.trans (drain_moves _ _ _ rfl rfl rfl)
  · exact switches core

lemma sendStep_moves
    (switches : ∀ core : Core η, Moves parse (core.flow []) ((trySwitch core).flow [])) :
    Moves parse (core.flow []) ((core.sendStep trySwitch).flow []) := by
  unfold sendStep
  split
  · exact .refl
  rename_i starting held
  split
  · exact onReady_moves switches
  rename_i method params _
  have sends {key : Option String} {after : Core η}
      (answer : core.internalRequest starting.slot.id method params = (key, after)) :
      Moves parse (core.flow []) (after.flow []) := by
    rw [(internalRequest_flow answer).1]
    exact .single (.log rfl)
  split
  · rename_i key after answer
    have asked : ({ after with
        starting := after.starting.map ({ · with request := some key }) } : Core η).flow [] =
        after.flow [] := by
      simp only [flow, Option.map_map]
      rfl
    rw [asked]
    exact sends answer
  · rename_i after answer
    exact (sends answer).trans (failStarting_moves _)

/-! ## Starting a child -/

variable {after : Core η}

/-- A started child begins its steps. -/
theorem begin_moves {exe : String} {build} {slot : Slot} {purpose : Purpose}
    (switches : ∀ core : Core η, Moves parse (core.flow []) ((trySwitch core).flow []))
    (answer : core.spawnSlot exe build = (.ok slot, after)) (idle : core.starting = none)
    (alone : purpose = .fresh → core.current = none) :
    Moves parse (core.flow []) ((after.begin trySwitch slot purpose).flow []) := by
  obtain ⟨allotted, child⟩ := @spawnSlot_flow η _ core [] _ _ _ _ answer
  have begins : Move parse (core.flow []) { core.flow [] with
      nextChild := core.nextChild + 1
      starting := some (⟨core.nextChild + 1, 0⟩, purpose) } :=
    .begin purpose (congrArg (Option.map _) idle) fun fresh =>
      congrArg (Option.map _) (alone fresh)
  unfold begin
  refine .trans (.single ?_) (sendStep_moves switches)
  have same : ({ after with
      starting := some ⟨slot, purpose, after.firstStep purpose, none,
        Machine.saturatingAdd after.nowMs after.tunables.verifyTimeoutMs⟩
      dirty := true } : Core η).flow [] =
      { after.flow [] with starting := some (slot.child, purpose) } := rfl
  rw [same, allotted, child slot rfl]
  exact begins

lemma startFresh_moves (idle : core.starting = none) (alone : core.current = none) :
    Moves parse (core.flow []) (core.startFresh.flow []) := by
  simp only [startFresh]
  split
  · rename_i slot after answer
    exact begin_moves (fun _ => .refl) answer idle fun _ => alone
  rename_i error after answer
  have allotted : Moves parse (core.flow []) (after.flow []) := by
    rw [(spawnSlot_flow answer).1]
    exact .single .allot
  exact allotted.trans (@failHeld_moves η _ _ (after.noteUnstarted _ .fresh none) [] parse)

lemma startCandidate_moves (idle : core.starting = none) :
    Moves parse (core.flow []) (core.startCandidate.flow []) := by
  unfold startCandidate
  split
  · exact .refl
  split
  · rw [dropStalePlan_flow]
  simp only
  split
  · rename_i slot after answer
    exact begin_moves (fun _ => .refl) answer idle nofun
  rename_i error after answer
  rw [dropCandidate_flow, noteUnstarted_flow, (spawnSlot_flow answer).1]
  exact .single .allot

/-! ## Switching -/

lemma queryStatus_moves (now : Nat) :
    Moves parse (core.flow []) ((core.queryStatus now).flow []) := by
  simp only [queryStatus]
  split
  · exact .refl
  rename_i current held
  have own : (core.flow []).current = some current.child := congrArg (Option.map Slot.child) held
  split
  · rename_i key after answer
    obtain ⟨asked, same⟩ := @internalRequest_flow η _ _ core [] _ _ _ _ _ answer
    have rewritten : ({ after with statusQuery := some ⟨key,
        Machine.saturatingAdd now after.tunables.verifyTimeoutMs, current.calls⟩ } :
        Core η).flow [] = { after.flow [] with statusQuery := some ⟨key,
        Machine.saturatingAdd now after.tunables.verifyTimeoutMs, current.calls⟩ } := rfl
    rw [rewritten, asked, ← same key rfl]
    exact .single (.ask own _ _ _)
  · rename_i after answer
    rw [deferPlain_flow, (internalRequest_flow answer).1]
    exact .single (.log rfl)

lemma commitSwitch_moves {current : Slot} {starting} (held : core.current = some current)
    (starts : core.starting = some starting) (purpose : starting.purpose = .switch)
    (between : core.inflight = ∅) (settled : core.statusQuery = none)
    (open_ : core.closing = false) (clear : current.calls = 0 ∨ core.handlesClear = true) :
    Moves parse (core.flow []) (core.commitSwitch.flow []) := by
  have own : (core.flow []).current = some current.child := congrArg (Option.map Slot.child) held
  have candidate : (core.flow []).starting = some (starting.slot.child, .switch) := by
    simp [flow, starts, purpose]
  unfold commitSwitch
  split
  · rename_i first planned found _
    obtain rfl : first = starting := some.inj (found.symm.trans starts)
    have keys : core.inflight.keys = [] := by rw [between]; rfl
    have entered : ((core.leave current first.slot).enter first.slot planned).flow [] =
        { core.flow [] with
          current := some first.slot.child
          starting := none
          handlesClear := false
          past := core.past ++ [.switched current first.slot []] } := by
      rw [← keys]
      rfl
    simp only [held, touched_flow, sendNotices_flow, entered]
    exact .single (.commit own candidate between settled open_ clear)
  · exact .single .fail

lemma trySwitch_moves (core : Core η) : Moves parse (core.flow []) (core.trySwitch.flow []) := by
  unfold trySwitch
  split
  · exact .refl
  rename_i planned
  split
  · exact .refl
  rename_i current held
  split
  · exact .refl
  rename_i candidate
  simp only
  split
  · rw [deferPlain_flow]
  rename_i between
  split
  · exact .refl
  rename_i settled
  split
  · exact queryStatus_moves _
  rename_i clear
  split
  · rename_i starts
    obtain ⟨starting, starts⟩ := isSome_iff_exists.mp starts
    simp only [starts, any_some, decide_eq_true_eq, not_or, not_not] at candidate
    refine commitSwitch_moves held starts candidate.1 ?_ ?_ ?_ ?_
    · simpa using between
    · simpa using settled
    · simpa using (not_or.mp planned).1
    rcases Nat.eq_zero_or_pos current.calls with none | some
    · exact .inl none
    · exact .inr (by simpa [some] using clear)
  · rename_i idle
    exact startCandidate_moves (by simpa using idle)

/-! ## Answers of children -/

variable (message : Value) (child : Nat) (line : Bytes)

lemma stepAnswer_moves : Moves parse (core.flow []) ((core.stepAnswer message).flow []) := by
  unfold stepAnswer
  split
  · exact .refl
  rename_i starting held
  split
  · exact .refl
  split
  · exact failStarting_moves _
  rename_i next _
  have replays {written : Bool} {after : Core η}
      (answer : core.replayInitialized starting = (written, after)) :
      Moves parse (core.flow []) (after.flow []) := by
    unfold replayInitialized at answer
    split at answer
    · rw [send_flow answer]
      exact .single (.log rfl)
    · obtain ⟨-, rfl⟩ := Prod.mk.inj answer
      exact .refl
  split
  · rename_i after answer
    exact (replays answer).trans (failStarting_moves _)
  rename_i after answer
  have stepped : ({ after with
      starting := after.starting.map ({ · with step := next, request := none })
      dirty := true } : Core η).flow [] = after.flow [] := by
    simp only [flow, Option.map_map]
    rfl
  refine (replays answer).trans ?_
  rw [← stepped]
  exact sendStep_moves trySwitch_moves

/-- A status answer clears the handles, or leads where the core led before. -/
theorem statusAnswer_moves {start : Flow} {message : Value} {asked : Nat}
    (plain : Moves parse start (core.flow []))
    (clears : message.reportsNone = true → (∃ slot, core.current = some slot ∧ slot.calls = asked) →
      Moves parse start ({ core with handlesClear := true }.flow [])) :
    Moves parse start ((core.statusAnswer message asked).flow []) := by
  have tries : Moves parse start (core.trySwitch.flow []) := plain.trans (trySwitch_moves core)
  have cleared (none : message.reportsNone = true)
      (unchanged : core.current.any (fun slot => slot.calls = asked) = true) :
      Moves parse start (core.clearHandles.flow []) := by
    simp only [Option.any_eq_true, decide_eq_true_eq] at unchanged
    have tries := @trySwitch_moves η _ _ parse
      { core with handlesClear := true, deferred := .none, dirty := true }
    exact (clears none unchanged).trans tries
  simp only [statusAnswer]
  split
  · rename_i result read
    split
    · rename_i zero
      split
      · rename_i unchanged
        exact cleared (by simp [Value.reportsNone, read, zero]) unchanged
      · exact tries
    · rw [defer_flow]
      exact plain
    · rw [deferPlain_flow]
      exact plain
  · rename_i read
    split
    · rename_i missing
      split
      · rename_i unchanged
        exact cleared (by simpa [Value.reportsNone, read] using missing.1) unchanged
      · exact tries
    · rw [deferPlain_flow]
      exact plain

/-- Of the flow, only requests in flight of these ids are ended. -/
def Erases (keys : List String) (core after : Core η) : Prop :=
  ∃ erased, erased ⊆ keys ∧ ∀ hand, after.flow hand =
    { core.flow hand with inflight := eraseAll erased core.inflight }

omit [Host η] [Printer] in
lemma Erases.of_flow {keys : List String} (same : ∀ hand, after.flow hand = core.flow hand) :
    Erases keys core after :=
  ⟨[], nil_subset _, same⟩

omit [Host η] [Printer] in
lemma Erases.trans {middle : Core η} {keys more : List String} (first : Erases keys core middle)
    (second : Erases more middle after) : Erases (keys ++ more) core after := by
  obtain ⟨erased, inside, first⟩ := first
  obtain ⟨others, inside', second⟩ := second
  refine ⟨erased ++ others, append_subset.mpr ⟨subset_append_of_subset_left _ inside,
    subset_append_of_subset_right _ inside'⟩, fun hand => ?_⟩
  have inflight : middle.inflight = eraseAll erased core.inflight :=
    congrArg Flow.inflight (first hand)
  rw [second, first, inflight]
  simp [eraseAll, foldl_append]

lemma eraseAll_moves (keys : List String) (flow : Flow)
    (ended : ∀ key ∈ keys, flow.Ended parse key) :
    Moves parse flow { flow with inflight := eraseAll keys flow.inflight } := by
  induction keys generalizing flow with
  | nil => exact .refl
  | cons key rest ih =>
    have first : Moves parse flow { flow with inflight := flow.inflight.erase key } :=
      .single (.erase key (ended key mem_cons_self))
    exact first.trans (ih { flow with inflight := flow.inflight.erase key }
      fun other listed => ended other (mem_cons_of_mem _ listed))

omit [Host η] in
lemma Erases.moves {keys : List String} (erases : Erases keys core after)
    (ended : ∀ key ∈ keys, (core.flow hand).Ended parse key) :
    Moves parse (core.flow hand) (after.flow hand) := by
  obtain ⟨erased, inside, same⟩ := erases
  rw [same]
  exact eraseAll_moves erased (core.flow hand) fun key listed => ended key (inside listed)

omit [Host η] in
lemma settle_erases : Erases ([message].filterMap Value.responseKey) core
    (core.settle message) := by
  unfold settle
  split
  · rename_i id method own
    simp only
    split
    · exact ⟨[keyOf id], by simp [Value.responseKey, method, own], fun _ => rfl⟩
    · exact .of_flow fun _ => rfl
  · exact .of_flow fun _ => rfl

omit [Host η] in
lemma settleAll_erases (items : List Value) (core : Core η) :
    Erases (items.filterMap Value.responseKey) core (items.foldl settle core) := by
  induction items generalizing core with
  | nil => exact .of_flow fun _ => rfl
  | cons item rest ih =>
    have both := (settle_erases item).trans (ih (core.settle item))
    rw [← filterMap_append] at both
    exact both

omit [Host η] in
/-- The patched answer answers the same request. -/
lemma patchAnswer_responseKey {object patched : Members}
    (patch : core.patchAnswer object = (some patched, after)) :
    (Value.object patched).responseKey = (Value.object object).responseKey := by
  have shape : ∃ result, patched = Value.setMember "result" result object := by
    simp only [patchAnswer] at patch
    split at patch
    · split at patch
      · split at patch
        · exact ⟨_, (some.inj (Prod.mk.inj patch).1).symm⟩
        · cases (Prod.mk.inj patch).1
      · cases (Prod.mk.inj patch).1
    · cases (Prod.mk.inj patch).1
  obtain ⟨result, rfl⟩ := shape
  simp [Value.responseKey, Value.get, lookup_setMember]

/-- A line of the current child ends the requests it answers. -/
theorem pipe_erases : Erases ((messages parse line).filterMap Value.responseKey) core
    (core.pipe parse line) := by
  unfold pipe
  split
  · rename_i items read
    simp only [messages, read]
    exact settleAll_erases items core
  · rename_i object read
    simp only [messages, read]
    have patched {answer : Option Members} {after : Core η}
        (patch : core.patchAnswer object = (answer, after)) : Erases [] core after := by
      refine .of_flow fun hand => ?_
      have same := @patchAnswer_flow η _ core hand object
      rwa [patch] at same
    split
    · rename_i answer after patch
      rw [filterMap_cons, filterMap_nil, ← patchAnswer_responseKey patch]
      exact (patched patch).trans (settle_erases (.object answer))
    · rename_i after patch
      exact (patched patch).trans (settle_erases (.object object))
  · exact .of_flow fun _ => rfl

lemma internalAnswer_moves {child : Nat} {line : Bytes} {message : Value} {key : String}
    (read : parse line = some message) (answers : internalKey message = some key) :
    Moves parse (core.flow []) (({ core with past := core.past ++ [Record.childLine child line] }
      |>.internalAnswer child key message).flow []) := by
  have logged : Moves parse (core.flow [])
      ({ core with past := core.past ++ [Record.childLine child line] }.flow []) :=
    .single (.log rfl)
  unfold internalAnswer
  split
  · rename_i query found
    obtain ⟨asked, mine⟩ := filter_eq_some_iff.mp found
    simp only [Bool.decide_and, Bool.and_eq_true, decide_eq_true_eq] at mine
    obtain ⟨rfl, current⟩ := mine
    refine statusAnswer_moves (logged.trans (.single .forget)) ?_
    rintro none ⟨slot, own, unchanged⟩
    change core.current = some slot at own
    obtain rfl : slot.id = child := by
      change core.current.map (·.id) = some child at current
      rw [own] at current
      exact some.inj current
    have clears : Move parse (core.flow []) { core.flow [] with
        statusQuery := .none
        handlesClear := true
        past := core.past ++ [.childLine slot.child.id line] } :=
      .clear (congrArg (Option.map Slot.child) own) asked unchanged read answers none
    exact .single clears
  · split
    · exact logged.trans (stepAnswer_moves _)
    · rw [note_flow]
      exact logged

/-! ## The client -/

/-- The requests are those that these messages carry, in the line of this number. -/
structure Carries (number : Nat) (items : List Value) (requests : Requests) : Prop where
  own : ∀ request ∈ requests, request.2.line = number ∧ keyOf request.2.id = request.1
  keys : requests.map fst = items.filterMap Value.requestKey
  calls : Requests.calls requests = items.countP (·.isCall)

/-- What observing a message comes to: the flow keeps all but the requests it cancels, and the
request it carries is its own. -/
theorem observeClient_spec {number : Nat} {message : Value} {forwards : Bool} {requests}
    {after : Core η} (answer : core.observeClient number message = (forwards, requests, after)) :
    Erases ([message].filterMap Value.cancelKey) core after ∧
      Carries number [message] requests := by
  have noted := fun hand => @observeMeta_flow η core hand (message.get "params")
  have silent (other : message.isCall = false) (none : message.requestKey = none) :
      Carries number [message] [] :=
    ⟨by simp, by simp [none], by simp [other, Requests.calls]⟩
  simp only [observeClient] at answer
  split at answer
  · rename_i plain
    obtain ⟨-, rfl, rfl⟩ := answer
    refine ⟨.of_flow fun _ => rfl, silent (by simp_all [Value.isCall]) ?_⟩
    cases message with
    | object members => cases plain
    | _ => rfl
  rename_i object
  cases method : (message.get "method").bind Value.asStr with
  | none =>
    simp only [method] at answer
    obtain ⟨-, rfl, rfl⟩ := answer
    exact ⟨.of_flow noted, silent (by simp [Value.isCall, method])
      (by simp [Value.requestKey, method])⟩
  | some name =>
    cases id : message.get "id" with
    | none =>
      have quiet := silent (by simp [Value.isCall, id]) (by simp [Value.requestKey, id, method])
      simp only [method, id] at answer
      split at answer
      · rename_i cancels
        split at answer
        · obtain ⟨-, rfl, rfl⟩ := answer
          exact ⟨.of_flow noted, quiet⟩
        rename_i target named
        split at answer
        · obtain ⟨-, rfl, rfl⟩ := answer
          exact ⟨.of_flow noted, quiet⟩
        obtain ⟨-, rfl, rfl⟩ := answer
        refine ⟨⟨[keyOf target], ?_, fun hand => ?_⟩, quiet⟩
        · simp [Value.cancelKey, method, id, cancels, named]
        change { (core.observeMeta (message.get "params")).flow hand with
          inflight := ((core.observeMeta (message.get "params")).flow hand).inflight.erase
            (keyOf target) } = _
        rw [noted]
        rfl
      · split at answer
        · obtain ⟨-, rfl, rfl⟩ := answer
          exact ⟨.of_flow noted, quiet⟩
        · obtain ⟨-, rfl, rfl⟩ := answer
          exact ⟨.of_flow noted, quiet⟩
    | some own =>
      simp only [method, id] at answer
      split at answer
      · rename_i listens
        obtain ⟨-, rfl, rfl⟩ := answer
        refine ⟨.of_flow fun hand => ?_, silent ?_ ?_⟩
        · rw [listen_flow, noted]
        · simp [Value.isCall, method, listens, isCall]
        · simp [Value.requestKey, method, id, listens]
      rename_i other
      obtain ⟨-, rfl, rfl⟩ := answer
      refine ⟨.of_flow fun hand => ?_, by simp, ?_, ?_⟩
      · rw [observeRequest_flow, noted]
      · simp [Value.requestKey, method, id, other]
      have read : message.isCall = isCall name := by
        simp_all [Value.isCall]
      simp [Requests.calls, countP_cons, read]

lemma observeItems_spec {number : Nat} {items requests}
    (answer : core.observeItems number items = (requests, after)) :
    Erases (items.filterMap Value.cancelKey) core after ∧ Carries number items requests := by
  induction items generalizing core requests after with
  | nil =>
    obtain ⟨rfl, rfl⟩ := Prod.mk.inj answer
    exact ⟨.of_flow fun _ => rfl, by simp, rfl, rfl⟩
  | cons item rest ih =>
    rcases first : core.observeClient number item with ⟨forwards, here, middle⟩
    rcases second : middle.observeItems number rest with ⟨later, last⟩
    simp only [observeItems, first, second] at answer
    obtain ⟨rfl, rfl⟩ := Prod.mk.inj answer
    obtain ⟨erases, carries⟩ := observeClient_spec first
    obtain ⟨more, others⟩ := ih second
    refine ⟨?_, ?_, ?_, ?_⟩
    · have both := erases.trans more
      rw [← filterMap_append] at both
      exact both
    · intro request listed
      rcases mem_append.mp listed with own | own
      · exact carries.own request own
      · exact others.own request own
    · rw [map_append, carries.keys, others.keys, ← filterMap_append]
      rfl
    · have counted := congrArg₂ (· + ·) carries.calls others.calls
      simp only [Requests.calls, ← countP_append] at counted
      exact counted

lemma observeLine_spec {number : Nat} {line : Bytes} {forwards : Bool} {requests}
    (answer : core.observeLine parse number line = (forwards, requests, after)) :
    Erases ((messages parse line).filterMap Value.cancelKey) core after ∧
      Held.Carried parse ⟨number, line, requests⟩ := by
  suffices spec : Erases ((messages parse line).filterMap Value.cancelKey) core after ∧
      Carries number (messages parse line) requests from
    ⟨spec.1, spec.2.own, spec.2.keys, spec.2.calls⟩
  unfold observeLine at answer
  split at answer
  · rename_i items read
    obtain ⟨-, observed⟩ := Prod.mk.inj answer
    simpa only [messages, read] using observeItems_spec observed
  · rename_i message single read
    have alone : messages parse line = [message] := by
      cases message with
      | array items => exact absurd rfl (single items)
      | _ => simp [messages, read]
    rw [alone]
    exact observeClient_spec answer
  · rename_i read
    obtain ⟨-, rfl, rfl⟩ := answer
    simp only [messages, read]
    exact ⟨.of_flow fun _ => rfl, by simp, rfl, rfl⟩

/-- What a record ends is open no longer. -/
lemma ended_concat {flow : Flow} {record : Record} {key : String}
    (ends : ∀ child ∈ flow.current, key ∈ record.ended parse child.id)
    (opens : ∀ child, record.opened parse child = []) :
    Flow.Ended parse { flow with past := flow.past ++ [record] } key := by
  intro child serves listed
  have here := ends child serves
  simp [openTo, foldl_append, Record.track, opens, here] at listed

lemma clientLine_moves : Moves parse (core.flow []) ((core.clientLine parse line).flow []) := by
  unfold clientLine
  split
  · exact .refl
  rename_i closing
  have open_ : core.closing = false := by simpa using closing
  simp only
  rcases answer : observeLine parse _ _ _ with ⟨forwards, requests, after⟩
  obtain ⟨erases, carried⟩ := observeLine_spec answer
  have takes : Move parse (core.flow []) { core.flow [] with
      hand := [⟨(clientLines core.past).length, line, requests⟩]
      past := core.past ++ [.received line] } :=
    .take rfl rfl carried
  have ended {hand : List Held} : ∀ key ∈ (messages parse line).filterMap Value.cancelKey,
      ({ core with past := core.past ++ [Record.received line] }.flow hand).Ended parse key :=
    fun key listed => @ended_concat _ parse (core.flow hand) _ _ (fun _ _ => listed) fun _ => rfl
  cases forwards with
  | true =>
    obtain ⟨keys, -, same⟩ := id erases
    have still : after.closing = false := (congrArg Flow.closing (same [])).trans open_
    rw [finishEvent_flow]
    exact (Relation.ReflTransGen.single takes).trans ((erases.moves ended).trans
      (deliver_moves (fun _ idle alone => startFresh_moves idle alone) _ (.inl still)))
  | false =>
    rw [finishEvent_flow]
    exact ((Relation.ReflTransGen.single takes).trans (.single .drop)).trans (erases.moves ended)

lemma clientClosed_moves : Moves parse (core.flow []) (core.clientClosed.flow []) := by
  simp only [clientClosed, finishEvent_flow, touched_flow, stopCurrent_flow, stopCandidate_flow]
  exact .single .close

/-! ## Children, ticks and plans -/

lemma childLine_moves : Moves parse (core.flow []) ((core.childLine parse child line).flow []) := by
  have logged : Moves parse (core.flow [])
      ({ core with past := core.past ++ [Record.childLine child line] }.flow []) :=
    .single (.log rfl)
  simp only [childLine]
  split
  · rename_i key message found
    rw [finishEvent_flow]
    obtain ⟨read, known, keyed⟩ := bind_eq_some_iff.mp found
    obtain ⟨own, answers, same⟩ := map_eq_some_iff.mp keyed
    obtain ⟨rfl, rfl⟩ := Prod.mk.inj same
    exact internalAnswer_moves known answers
  · split
    · rw [finishEvent_flow, note_flow]
      exact logged
    · rename_i serves
      have current : core.currentChild = some child := not_not.mp serves
      have ended : ∀ key ∈ (messages parse line).filterMap Value.responseKey,
          ({ core with past := core.past ++ [Record.childLine child line] }.flow []).Ended
            parse key := by
        intro key listed
        refine @ended_concat _ parse (core.flow []) _ _ (fun own serves => ?_) fun _ => rfl
        obtain ⟨slot, here, rfl⟩ := Option.mem_map.mp serves
        rw [currentChild, Option.mem_def.mp here] at current
        have same : slot.id = child := some.inj current
        simpa [Record.ended, Slot.child, same] using listed
      rw [finishEvent_flow]
      exact logged.trans (((pipe_erases line).moves ended).trans (trySwitch_moves _))

lemma loseInflight_flow : (core.loseInflight child).flow hand =
    { core.flow hand with
      inflight := ∅
      past := core.past ++ refusals (core.inflight.toList.map snd) .outcomeUnknown } := by
  simp only [loseInflight, answerErrors_flow]
  split <;> rfl

lemma childExited_moves : Moves parse (core.flow []) ((core.childExited child).flow []) := by
  unfold childExited
  split
  · rw [finishEvent_flow]
    exact failStarting_moves _
  split
  · rename_i old found
    have ended : (core.endSession old).flow [] =
        { core.flow [] with
          current := none
          starting := none
          statusQuery := none
          handlesClear := false } := stopCandidate_flow
    have inflight : (core.endSession old).inflight = core.inflight :=
      congrArg Flow.inflight ended
    have past : (core.endSession old).past = core.past := congrArg Flow.past ended
    rw [finishEvent_flow, touched_flow, loseInflight_flow, ended, inflight, past]
    exact .single (.exit rfl)
  · rw [finishEvent_flow]

lemma tick_moves : Moves parse (core.flow []) (core.tick.flow []) := by
  have expires (core : Core η) (late : Bool) : Moves parse (core.flow [])
      ((if late then core.failStarting .verifyTimeout else core).flow []) := by
    cases late
    · exact .refl
    · exact failStarting_moves _
  have forgets (core : Core η) (late : Bool) (now : Nat) : Moves parse (core.flow [])
      ((if late then { core with statusQuery := none }.deferPlain .handlesUnknown now
        else core).flow []) := by
    cases late
    · exact .refl
    · simp only [if_true, deferPlain_flow]
      exact .single .forget
  simp only [tick]
  split
  · exact .refl
  rw [finishEvent_flow]
  refine .trans ?_ (trySwitch_moves _)
  rw [watch_flow]
  exact (expires core _).trans (forgets _ _ _)

lemma planAnswered_moves {flow : Flow} (core : Core η) (same : core.flow [] = flow)
    (run : PlanRun) (plan : Plan) (now : Nat) :
    Moves parse flow ((core.planAnswered run plan now).flow []) := by
  have cleared := (@clearPlanDeferral_flow η
    { core with tunables := plan.tunables, planRefusals := 0 } []).trans same
  simp only [planAnswered]
  split
  · rw [finishEvent_flow, ← cleared]
    exact trySwitch_moves { { core with
      tunables := plan.tunables, planRefusals := 0 }.clearPlanDeferral with
      planned := some ⟨plan.build, plan.exe, run.stamp⟩ }
  · rw [finishEvent_flow, acceptBuild_flow, cleared]

lemma planDone_moves (ended : PlanEnd) :
    Moves parse (core.flow []) ((core.planDone ended).flow []) := by
  simp only [planDone]
  split
  · exact .refl
  rename_i run _
  split
  · rw [planRefused_flow]
    exact .refl
  split
  · rename_i plan _
    refine @planAnswered_moves η _ _ parse (core.flow []) _ ?_ run plan _
    rfl
  · rw [planRefused_flow]
    exact .refl

/-- Every event is a sequence of moves. -/
theorem step_moves (event : Event) :
    Moves parse (core.flow []) ((core.step parse event).flow []) := by
  cases event with
  | clientLine line => exact clientLine_moves line
  | clientClosed => exact clientClosed_moves
  | childLine child line => exact childLine_moves child line
  | childExited child => exact childExited_moves child
  | planDone ended => exact planDone_moves ended
  | tick => exact tick_moves

end Core

/-- Before anything is started. -/
def Flow.initial : Flow := ⟨none, none, ∅, [], [], false, none, false, 0, []⟩

lemma Core.Reached.moves {η : Type} [Host η] [Printer] {parse} {core : Core η}
    (reached : core.Reached parse) : Moves parse .initial (core.flow []) := by
  induction reached with
  | start host config =>
    simp only [Core.start, Core.finishEvent_flow, Core.watch_flow]
    exact @Core.startFresh_moves η _ _ (.new host config) parse rfl rfl
  | @event core _ host event ih =>
    exact ih.trans (@Core.step_moves η _ _ { core with host } parse event)

end Entry
