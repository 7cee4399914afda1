import ActingCommand.Policy.Allocation
import ActingCommand.Policy.Predicate

/-!
# Chain handovers

A chain's predecessor can end on a page its successor starts on. The successor then goes first on
its instance: it is moved before the candidates of the instance that ranked ahead of it, and these
wait for it.
-/

namespace Policy

open List Std

structure RestingPage where
  pageId : String
  observedAtUnixMs : Nat

abbrev RestingPages := ExtTreeMap String RestingPage

/-- What a handover reads of a catalog task. -/
structure TaskSpec where
  id : String
  trigger : PredicateSpec

/-- The latest run of a task on an instance. -/
structure TaskRuntimeSnapshot where
  terminalState : Option TaskTerminalState
  lastDispatchedUnixMs : Option Nat
  completedAtUnixMs : Option Nat

/-- By task and instance. -/
abbrev TaskStates := String → String → Option TaskRuntimeSnapshot

inductive HandoverAllocation
  | pending
  | dispatched
  | waiting
  | notDispatched
deriving DecidableEq

structure Handover where
  successorWorkIndex : Nat
  successorTaskId : String
  pageId : String
  /-- The candidates of the instance that ranked ahead of the successor. -/
  ahead : List Nat
  allocation : HandoverAllocation

abbrev Handovers := ExtTreeMap String Handover

namespace Handover

def isSuccessor (handover : Handover) (workIndex : Nat) : Bool :=
  workIndex = handover.successorWorkIndex

def holds (handover : Handover) (workIndex : Nat) : Bool :=
  handover.ahead.contains workIndex && handover.allocation ≠ .notDispatched

end Handover

mutual

/-- The tasks a trigger follows; a `not` names none. -/
def predecessorsOf : PredicateSpec → List String
  | .all predicates | .any predicates => predecessorsOfEach predicates
  | .dependencyCompleted taskId terminalStates =>
    if TaskTerminalState.succeeded ∈ terminalStates then [taskId] else []
  | _ => []

def predecessorsOfEach : List PredicateSpec → List String
  | [] => []
  | predicate :: rest => predecessorsOf predicate ++ predecessorsOfEach rest

end

/-- A predecessor's latest run succeeded, and the resting page was recorded during it. -/
def followsOnPage (task : TaskSpec) (instanceId : String) (page : RestingPage)
    (states : TaskStates) : Bool :=
  (predecessorsOf task.trigger).any fun predecessor =>
    (states predecessor instanceId).any fun state =>
      state.terminalState = some .succeeded &&
        state.lastDispatchedUnixMs.any fun admitted =>
          state.completedAtUnixMs.any fun completed =>
            admitted ≤ page.observedAtUnixMs && page.observedAtUnixMs ≤ completed

/-- The candidates of a round in rank order. Each stands for an entry of the round's work, and no
two for the same one. -/
structure RankedCandidates where
  candidates : List PlacementCandidate
  own : (candidates.map (·.workIndex)).Nodup

section Plan

variable {ε : Type} (restingPages : RestingPages)
  (entryHolds : Nat → TaskSpec → String → String → Except ε Bool) (tasks : List TaskSpec)
  (states : TaskStates)

/-- The task and the page the candidate of a rank hands over with. A fact refresh reading is no
catalog task, and the package's entry is asked for only where the task follows its predecessor; its
answers can change from one rank to the next. -/
def handsOver (rank : Nat) (candidate : PlacementCandidate) :
    Except ε (Option (String × String)) :=
  match restingPages[candidate.instanceId]?,
    tasks.find? fun task => task.id = candidate.taskId with
  | some page, some task =>
    if followsOnPage task candidate.instanceId page states then do
      pure (if ← entryHolds rank task candidate.instanceId page.pageId then
        some (task.id, page.pageId) else none)
    else pure none
  | _, _ => pure none

def ofInstance (instanceId : String) (candidate : PlacementCandidate) : Bool :=
  candidate.instanceId = instanceId

/-- The first candidate of each instance that hands over, after those of `before`. -/
def findHandovers : List PlacementCandidate → List PlacementCandidate → Handovers →
    Except ε Handovers
  | _, [], found => pure found
  | before, candidate :: rest, found => do
    if found.contains candidate.instanceId then
      findHandovers (before ++ [candidate]) rest found
    else match ← handsOver restingPages entryHolds tasks states before.length candidate with
      | some (taskId, pageId) =>
        findHandovers (before ++ [candidate]) rest (found.insert candidate.instanceId
          ⟨candidate.workIndex, taskId, pageId,
            (before.filter (ofInstance candidate.instanceId)).map (·.workIndex), .pending⟩)
      | none => findHandovers (before ++ [candidate]) rest found

/-- The successor is taken out and put where the first candidate ahead of it stands. -/
def Handover.moveSuccessor (handover : Handover) (candidates : List PlacementCandidate) :
    List PlacementCandidate :=
  match candidates.findIdx? fun candidate => handover.ahead.contains candidate.workIndex,
    candidates.findIdx? fun candidate => handover.isSuccessor candidate.workIndex with
  | some first, some successor =>
    match candidates[successor]? with
    | some moved => (candidates.eraseIdx successor).insertIdx first moved
    | none => candidates
  | _, _ => candidates

def planHandovers (ranked : RankedCandidates) : Except ε (Handovers × List PlacementCandidate) := do
  let handovers ← findHandovers restingPages entryHolds tasks states [] ranked.candidates ∅
  pure (handovers, handovers.toList.foldl (fun candidates entry =>
    entry.2.moveSuccessor candidates) ranked.candidates)

end Plan

/-! ## One move -/

variable {candidates : List PlacementCandidate} {handover : Handover} {instanceId : String}

/-- The handover is the one of the instance in this order of its candidates. -/
def Handover.Waits (handover : Handover) (instanceId : String)
    (candidates : List PlacementCandidate) : Prop :=
  ∃ ahead successor behind, candidates.filter (ofInstance instanceId) =
      ahead ++ successor :: behind ∧
    handover.successorWorkIndex = successor.workIndex ∧
    handover.ahead = ahead.map (·.workIndex)

/-- The successor is the first of the instance's candidates. -/
def Handover.GoesFirst (handover : Handover) (instanceId : String)
    (candidates : List PlacementCandidate) : Prop :=
  ∃ successor behind, candidates.filter (ofInstance instanceId) = successor :: behind ∧
    handover.successorWorkIndex = successor.workIndex

lemma Handover.Waits.instance_eq (waits : handover.Waits instanceId candidates)
    (own : (candidates.map (·.workIndex)).Nodup) {candidate} (listed : candidate ∈ candidates)
    (successor : handover.isSuccessor candidate.workIndex = true) :
    candidate.instanceId = instanceId := by
  obtain ⟨ahead, first, behind, order, index, -⟩ := waits
  have member : first ∈ candidates.filter (ofInstance instanceId) := by simp [order]
  obtain ⟨kept, here⟩ := mem_filter.mp member
  have same : candidate = first := by
    refine inj_on_of_nodup_map own listed kept ?_
    rw [← index]
    exact of_decide_eq_true successor
  rw [same]
  exact of_decide_eq_true here

lemma findIdx?_split (p : PlacementCandidate → Bool) (before after : List PlacementCandidate)
    {found} (none : ∀ y ∈ before, p y = false) (here : p found = true) :
    (before ++ found :: after).findIdx? p = some before.length := by
  rw [findIdx?_append, findIdx?_eq_none_iff.mpr none, findIdx?_cons, if_pos here]
  simp

lemma insertIdx_split (before after : List PlacementCandidate) (new : PlacementCandidate) :
    (before ++ after).insertIdx before.length new = before ++ new :: after := by
  induction before with
  | nil => simp
  | cons first before ih => simpa using ih

/-- Where the first candidate ahead and the successor stand decides what a move does. -/
theorem Handover.moveSuccessor_split {a b c x s}
    (own : ((a ++ x :: (b ++ s :: c)).map (·.workIndex)).Nodup)
    (first : ∀ y ∈ a, y.workIndex ∉ handover.ahead) (ahead : x.workIndex ∈ handover.ahead)
    (index : handover.successorWorkIndex = s.workIndex) :
    handover.moveSuccessor (a ++ x :: (b ++ s :: c)) = a ++ s :: x :: (b ++ c) := by
  have firstAt := findIdx?_split (fun y => handover.ahead.contains y.workIndex) a (b ++ s :: c)
    (by simpa using first) (by simpa using ahead)
  have regroup : a ++ x :: (b ++ s :: c) = (a ++ x :: b) ++ s :: c := by simp
  rw [regroup] at own firstAt ⊢
  have apart : ∀ y ∈ a ++ x :: b, handover.isSuccessor y.workIndex = false := by
    intro y listed
    rw [map_append, nodup_append] at own
    exact decide_eq_false (index ▸ own.2.2 _ (mem_map_of_mem listed) _ (by simp))
  have successorAt := findIdx?_split (fun y => handover.isSuccessor y.workIndex) (a ++ x :: b) c
    apart (decide_eq_true index.symm)
  have moved : (a ++ x :: b ++ s :: c)[(a ++ x :: b).length]? = some s := by
    rw [getElem?_append_right (Nat.le_refl _), Nat.sub_self, getElem?_cons_zero]
  have taken : (a ++ x :: b ++ s :: c).eraseIdx (a ++ x :: b).length = a ++ x :: (b ++ c) := by
    rw [eraseIdx_append_of_length_le (Nat.le_refl _), Nat.sub_self, eraseIdx_cons_zero,
      append_assoc, cons_append]
  simp only [moveSuccessor, firstAt, successorAt, moved, taken, insertIdx_split]

/-- A move takes the successor to the front of its instance and leaves everything else. -/
theorem Handover.Waits.moveSuccessor (waits : handover.Waits instanceId candidates)
    (own : (candidates.map (·.workIndex)).Nodup) :
    (handover.moveSuccessor candidates).Perm candidates ∧
      (∀ keep : PlacementCandidate → Bool, (∀ candidate ∈ candidates,
        handover.isSuccessor candidate.workIndex = true → keep candidate = false) →
        (handover.moveSuccessor candidates).filter keep = candidates.filter keep) ∧
      handover.GoesFirst instanceId (handover.moveSuccessor candidates) := by
  obtain ⟨ahead, s, behind, order, index, waiting⟩ := waits
  cases ahead with
  | nil =>
    -- Nothing ranked ahead of the successor, so nothing moves.
    have still : handover.moveSuccessor candidates = candidates := by
      have absent : candidates.findIdx? (fun y => handover.ahead.contains y.workIndex) = none :=
        findIdx?_eq_none_iff.mpr (by simp [waiting])
      simp only [Handover.moveSuccessor, absent]
    rw [still]
    exact ⟨Perm.refl _, fun _ _ => rfl, s, behind, order, index⟩
  | cons x ahead =>
    have inside : ∀ y ∈ candidates, y.workIndex ∈ handover.ahead →
        ofInstance instanceId y = true := by
      intro y listed member
      rw [waiting] at member
      obtain ⟨z, earlier, same⟩ := mem_map.mp member
      have kept : z ∈ candidates.filter (ofInstance instanceId) :=
        order ▸ mem_append_left _ earlier
      obtain ⟨held, here⟩ := mem_filter.mp kept
      rwa [← inj_on_of_nodup_map own held listed same]
    obtain ⟨a, l, rfl, before, -, order⟩ := filter_eq_cons_iff.mp order
    obtain ⟨front, back, rfl, -, order⟩ := filter_eq_append_iff.mp order
    obtain ⟨b, c, rfl, -, here, -⟩ := filter_eq_cons_iff.mp order
    rw [← append_assoc] at own inside ⊢
    have split := Handover.moveSuccessor_split own (fun y listed member =>
      before y listed (inside y (by simp [listed]) member)) (by simp [waiting]) index
    rw [split]
    have aside : (x :: (front ++ b) ++ s :: c).Perm (s :: (x :: (front ++ b) ++ c)) := perm_middle
    refine ⟨aside.symm.append_left a,
      fun keep left => ?_, s, (x :: (front ++ b ++ c)).filter (ofInstance instanceId), ?_, index⟩
    · have dropped := left s (by simp) (decide_eq_true index.symm)
      simp [filter_cons, dropped]
    · rw [filter_append, filter_eq_nil_iff.mpr before, nil_append, filter_cons_of_pos here]

/-! ## The whole plan -/

/-- Moves on different instances do not disturb each other. -/
theorem moveSuccessors_spec (entries : List (String × Handover))
    (candidates : List PlacementCandidate) (own : (candidates.map (·.workIndex)).Nodup)
    (apart : (entries.map (·.1)).Nodup)
    (waits : ∀ entry ∈ entries, entry.2.Waits entry.1 candidates) :
    let moved := entries.foldl (fun candidates entry => entry.2.moveSuccessor candidates) candidates
    moved.Perm candidates ∧
      (∀ keep : PlacementCandidate → Bool, (∀ entry ∈ entries, ∀ candidate ∈ candidates,
        entry.2.isSuccessor candidate.workIndex = true → keep candidate = false) →
        moved.filter keep = candidates.filter keep) ∧
      ∀ entry ∈ entries, entry.2.GoesFirst entry.1 moved := by
  induction entries generalizing candidates with
  | nil => exact ⟨Perm.refl _, fun _ _ => rfl, by simp⟩
  | cons entry rest ih =>
    obtain ⟨new, apart⟩ := nodup_cons.mp apart
    have other : ∀ later ∈ rest, later.1 ≠ entry.1 := fun later listed same =>
      new (mem_map.mpr ⟨later, listed, same⟩)
    have here := waits entry mem_cons_self
    obtain ⟨perm, frame, first⟩ := here.moveSuccessor own
    have owned : ((entry.2.moveSuccessor candidates).map (·.workIndex)).Nodup :=
      (perm.map _).nodup_iff.mpr own
    have later : ∀ later ∈ rest, later.2.Waits later.1 (entry.2.moveSuccessor candidates) := by
      intro later listed
      have same := frame (ofInstance later.1) fun candidate member successor =>
        decide_eq_false fun same =>
          other later listed (same.symm.trans (here.instance_eq own member successor))
      unfold Handover.Waits
      rw [same]
      exact waits later (mem_cons_of_mem _ listed)
    obtain ⟨perms, frames, firsts⟩ := ih _ owned apart later
    refine ⟨perms.trans perm, fun keep left => ?_, forall_mem_cons.mpr ⟨?_, firsts⟩⟩
    · exact (frames keep fun later listed candidate member => left later
        (mem_cons_of_mem _ listed) candidate (perm.mem_iff.mp member)).trans
        (frame keep (left entry mem_cons_self))
    have same := frames (ofInstance entry.1) fun next listed candidate member successor =>
      decide_eq_false fun same => other next listed
        (((later next listed).instance_eq owned member successor).symm.trans same)
    unfold Handover.GoesFirst
    rw [foldl_cons, same]
    exact first

section Plan

variable {ε : Type} {restingPages : RestingPages}
  {entryHolds : Nat → TaskSpec → String → String → Except ε Bool} {tasks : List TaskSpec}
  {states : TaskStates}

/-- The handover is the one of a candidate of `rest`, with those of its instance that come before
it, in `before` or in `rest`, ahead of it. -/
def Handover.FoundIn (handover : Handover) (instanceId : String)
    (before rest : List PlacementCandidate) : Prop :=
  ∃ front successor back, rest = front ++ successor :: back ∧
    successor.instanceId = instanceId ∧ handover.successorWorkIndex = successor.workIndex ∧
    handover.allocation = .pending ∧
    handover.ahead = ((before ++ front).filter (ofInstance instanceId)).map (·.workIndex)

lemma Handover.FoundIn.cons {candidate before rest}
    (found : handover.FoundIn instanceId (before ++ [candidate]) rest) :
    handover.FoundIn instanceId before (candidate :: rest) := by
  obtain ⟨front, successor, back, rfl, place⟩ := found
  exact ⟨candidate :: front, successor, back, rfl, by simpa using place⟩

lemma findHandovers_spec {before rest} {found handovers : Handovers}
    (answer : findHandovers restingPages entryHolds tasks states before rest found = .ok handovers)
    (planned : handovers[instanceId]? = some handover) :
    found[instanceId]? = some handover ∨ handover.FoundIn instanceId before rest := by
  induction rest generalizing before found with
  | nil =>
    cases answer
    exact Or.inl planned
  | cons candidate rest ih =>
    rw [findHandovers] at answer
    split at answer
    · exact (ih answer).imp_right .cons
    obtain ⟨hands, asked, answer⟩ := Except.bind_ok_iff.mp answer
    split at answer
    · rcases ih answer with kept | later
      · rw [ExtTreeMap.getElem?_insert] at kept
        split at kept
        · rename_i same
          obtain rfl : candidate.instanceId = instanceId := by simpa using same
          cases kept
          exact Or.inr ⟨[], candidate, rest, rfl, rfl, rfl, rfl, by simp⟩
        · exact Or.inl kept
      · exact Or.inr later.cons
    · exact (ih answer).imp_right .cons

def noSuccessor (handovers : Handovers) (candidate : PlacementCandidate) : Bool :=
  handovers.toList.all fun entry => !entry.2.isSuccessor candidate.workIndex

/-- A plan reorders the candidates: those that are no successor keep their order, a successor
stands before every other candidate of its instance, and the candidates that wait for it are those
of the instance that ranked before it. -/
theorem plan_moves_only_successors {ranked : RankedCandidates} {handovers : Handovers}
    {moved : List PlacementCandidate}
    (answer : planHandovers restingPages entryHolds tasks states ranked = .ok (handovers, moved)) :
    moved.Perm ranked.candidates ∧
      moved.filter (noSuccessor handovers) = ranked.candidates.filter (noSuccessor handovers) ∧
      ∀ instanceId (handover : Handover), handovers[instanceId]? = some handover →
        (∃ before successor after, moved = before ++ successor :: after ∧
          handover.isSuccessor successor.workIndex = true ∧ successor.instanceId = instanceId ∧
          ∀ other ∈ before, other.instanceId ≠ instanceId) ∧
        ∃ before successor after, ranked.candidates = before ++ successor :: after ∧
          handover.isSuccessor successor.workIndex = true ∧ successor.instanceId = instanceId ∧
          ∀ workIndex, handover.holds workIndex = true ↔
            ∃ other ∈ before, other.instanceId = instanceId ∧ other.workIndex = workIndex := by
  obtain ⟨found, searched, answer⟩ := Except.bind_ok_iff.mp answer
  cases answer
  have place : ∀ instanceId (handover : Handover), handovers[instanceId]? = some handover →
      handover.FoundIn instanceId [] ranked.candidates := fun instanceId handover planned =>
    (findHandovers_spec searched planned).resolve_left (by simp)
  have listed : ∀ entry ∈ handovers.toList, handovers[entry.1]? = some entry.2 :=
    fun entry member => ExtTreeMap.mem_toList_iff_getElem?_eq_some.mp member
  have waits : ∀ entry ∈ handovers.toList, entry.2.Waits entry.1 ranked.candidates := by
    intro entry member
    obtain ⟨front, successor, back, order, here, index, -, ahead⟩ :=
      place _ _ (listed entry member)
    refine ⟨_, successor, back.filter (ofInstance entry.1), ?_, index, ahead⟩
    have kept : ofInstance entry.1 successor = true := decide_eq_true here
    rw [order, filter_append, filter_cons_of_pos kept, nil_append]
  have apart : (handovers.toList.map (·.1)).Nodup := by
    rw [ExtTreeMap.map_fst_toList_eq_keys]
    exact ExtTreeMap.nodup_keys
  obtain ⟨perm, frame, first⟩ := moveSuccessors_spec _ _ ranked.own apart waits
  refine ⟨perm, frame _ fun entry member candidate _ successor => ?_,
    fun instanceId handover planned => ?_⟩
  · rw [noSuccessor, all_eq_false]
    exact ⟨entry, member, by simp [successor]⟩
  obtain ⟨successor, behind, order, index⟩ :=
    first (instanceId, handover) (ExtTreeMap.mem_toList_iff_getElem?_eq_some.mpr planned)
  obtain ⟨front, found, back, ranks, here, same, idle, ahead⟩ := place _ _ planned
  obtain ⟨before, after, place, none, kept, -⟩ := filter_eq_cons_iff.mp order
  refine ⟨⟨before, successor, after, place, decide_eq_true index.symm, of_decide_eq_true kept,
    fun other member inside => none other member (decide_eq_true inside)⟩,
    front, found, back, ranks, decide_eq_true same.symm, here, fun workIndex => ?_⟩
  simp only [Handover.holds, idle, ahead, nil_append, contains_iff_mem, mem_map,
    mem_filter, ofInstance, decide_eq_true_eq, ne_eq, reduceCtorEq, not_false_eq_true,
    decide_true, Bool.and_true, and_assoc]

end Plan

namespace Sample

/-- The cleanup ended on the page the crafting starts on. -/
def crafting : List TaskSpec := [⟨"craft", .dependencyCompleted "cleanup" [.succeeded]⟩]

def workshop : RestingPages := (∅ : RestingPages).insert "alpha" ⟨"workshop", 7⟩

def cleaned : TaskStates := fun taskId _ =>
  if taskId = "cleanup" then some ⟨some .succeeded, some 5, some 9⟩ else none

def enters (_ : Nat) (_ : TaskSpec) (_ _ : String) : Except String Bool := .ok true

def tidying : RankedCandidates := ⟨[cleanup, craft], by decide⟩

theorem crafting_goes_first : ∃ handovers moved,
    planHandovers workshop enters crafting cleaned tidying = .ok (handovers, moved) ∧
      moved.map (·.workIndex) = [1, 0] ∧ moved.Perm tidying.candidates := by
  have answer : planHandovers workshop enters crafting cleaned tidying = .ok _ := rfl
  exact ⟨_, _, answer, rfl, (plan_moves_only_successors answer).1⟩

end Sample

end Policy
