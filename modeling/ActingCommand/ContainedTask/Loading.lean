import Mathlib

/-!
# The loading allowance of a wait

A frame that shows a loading page, a transition frame, pauses its wait until the allowance is spent,
and the first one after that ends it. Under `shadow` the same is counted and recorded and no
decision changes.
-/

namespace ContainedTask

inductive LoadingMode
  | off | shadow | on
deriving DecidableEq

inductive LoadingEventKind
  | entered | left | limitReached

structure LoadingEvent where
  kind : LoadingEventKind
  loadingPageId : String
  spent : Nat
  limit : Nat
  packOperationId : Option String
  pageId : Option String
  exitGap : Option Nat

structure LoadingLimit where
  page : String
  spent : Nat
  limit : Nat

inductive Charge
  | none
  | paused (span : Nat)
  | spent (limit : LoadingLimit)

/-- A frame of a wait: whether it is a transition frame, the page of the package on it, the loading
pages that held on it, its instant and that of the frame before it. A frame that only watches spends
nothing. -/
structure LoadingFrame where
  transition : Bool
  page : Option String
  held : List String
  now : Nat
  previous : Nat
  spends : Bool

structure Stretch where
  page : String
  last : Nat

structure LoadingAllowance where
  mode : LoadingMode
  added : List String
  limit : Nat
  spent : Nat
  packOperationId : Option String
  stretch : Option Stretch
  limitRecorded : Bool

namespace LoadingAllowance

-- Whether the label of a page names an added one, in the package's game.
variable (pageAnchorMatches : String → String → Bool)

def start (mode : LoadingMode) (added : List String) (limit : Nat)
    (packOperationId : Option String) :
    LoadingAllowance :=
  ⟨mode, added, limit, 0, packOperationId, none, false⟩

variable (allowance : LoadingAllowance)

def adds (label : String) : Bool := allowance.added.any (pageAnchorMatches label)

def record (kind : LoadingEventKind) (loadingPageId : String) (pageId : Option String)
    (exitGap : Option Nat) : LoadingEvent :=
  ⟨kind, loadingPageId, allowance.spent, allowance.limit, allowance.packOperationId,
    pageId, exitGap⟩

/-- What a transition frame that spends comes to. -/
def charge (frame : LoadingFrame) (page : String) (suppressed : Option String) :
    Charge × List LoadingEvent × LoadingAllowance :=
  let left := allowance.limit - allowance.spent
  if left = 0 then
    (if allowance.mode = .on then .spent ⟨page, allowance.spent, allowance.limit⟩ else .none,
      if allowance.limitRecorded then [] else [allowance.record .limitReached page suppressed none],
      { allowance with limitRecorded := true })
  else
    let span := min (frame.now - frame.previous) left
    (if allowance.mode = .on then .paused span else .none, [],
      { allowance with spent := allowance.spent + span })

/-- What a frame does with the allowance, and the events it records. -/
def account (frame : LoadingFrame) : Charge × List LoadingEvent × LoadingAllowance :=
  if allowance.mode = .off then (.none, [], allowance)
  else if frame.transition then
    let suppressed := frame.page.filter fun label => !allowance.adds pageAnchorMatches label
    let (page, entered) := match allowance.stretch with
      | some stretch => (stretch.page, [])
      | none =>
        let page := (frame.held.head? <|> frame.page).getD ""
        (page, [allowance.record .entered page suppressed none])
    let within := { allowance with stretch := some ⟨page, frame.now⟩ }
    if frame.spends then
      let (charge, reached, after) := within.charge frame page suppressed
      (charge, entered ++ reached, after)
    else (.none, entered, within)
  else match allowance.stretch with
    | some stretch =>
      (.none, [allowance.record .left stretch.page frame.page (some (frame.now - stretch.last))],
        { allowance with stretch := none })
    | none => (.none, [], allowance)

/-- What the frames come to, in their order. -/
def run (allowance : LoadingAllowance) :
    List LoadingFrame → List Charge × List LoadingEvent × LoadingAllowance
  | [] => ([], [], allowance)
  | frame :: later =>
    let (charge, events, after) := allowance.account pageAnchorMatches frame
    let (charges, more, last) := run after later
    (charge :: charges, events ++ more, last)

end LoadingAllowance

def Charge.pause : Charge → Nat
  | .paused span => span
  | .none | .spent _ => 0

/-- Inside a stretch or not, and with the limit recorded or not, these events may follow: a stretch
is entered and left in turn, and the limit is reached once, within a stretch. -/
def Follows (inside recorded : Bool) : List LoadingEventKind → Prop
  | [] => True
  | .entered :: later => inside = false ∧ Follows true recorded later
  | .left :: later => inside = true ∧ Follows false recorded later
  | .limitReached :: later => inside = true ∧ recorded = false ∧ Follows true true later

namespace LoadingAllowance

variable {pageAnchorMatches : String → String → Bool} {allowance : LoadingAllowance}
  {frame : LoadingFrame} {frames : List LoadingFrame}

/-- What one frame keeps, under the allowance's mode. -/
lemma account_step (counts : allowance.mode ≠ .off) (within : allowance.spent ≤ allowance.limit) :
    let (charge, events, after) := allowance.account pageAnchorMatches frame
    after.mode = allowance.mode ∧ after.limit = allowance.limit ∧ after.spent ≤ allowance.limit ∧
      (∀ later, Follows after.stretch.isSome after.limitRecorded later →
        Follows allowance.stretch.isSome allowance.limitRecorded
          (events.map LoadingEvent.kind ++ later)) ∧
      if allowance.mode = .on then after.spent = allowance.spent + charge.pause ∧
        ((∃ limit, charge = .spent limit) ↔
          frame.transition ∧ frame.spends ∧ allowance.spent = allowance.limit)
      else charge = .none := by
  obtain ⟨mode, added, limit, spent, op, stretch, recorded⟩ := allowance
  dsimp only at counts within
  cases moves : frame.transition with
  | false =>
    cases stretch with
    | none | some => simp [account, Follows, record, Charge.pause, counts, within, moves]
  | true =>
    cases pays : frame.spends with
    | false =>
      cases stretch with
      | none | some => simp [account, Follows, record, Charge.pause, counts, within, moves, pays]
    | true =>
      by_cases full : limit - spent = 0
      · obtain rfl : spent = limit := by omega
        cases stretch with
        | none | some =>
          cases recorded with
          | false | true =>
            simp +contextual [account, charge, Follows, record, Charge.pause, counts, moves, pays]
      have less : spent ≠ limit := by omega
      have most : spent + min (frame.now - frame.previous) (limit - spent) ≤ limit := by omega
      cases stretch with
      | none | some =>
        simp +contextual [account, charge, Follows, record, Charge.pause, counts, moves, pays,
          full, less, most]

/-- What the frames of an allowance keep. -/
theorem run_spec (counts : allowance.mode ≠ .off) (within : allowance.spent ≤ allowance.limit) :
    let (charges, events, after) := allowance.run pageAnchorMatches frames
    after.spent ≤ allowance.limit ∧
      Follows allowance.stretch.isSome allowance.limitRecorded (events.map LoadingEvent.kind) ∧
      if allowance.mode = .on then after.spent = allowance.spent + (charges.map Charge.pause).sum ∧
        ∀ i charge frame, charges[i]? = some charge → frames[i]? = some frame →
          ((∃ limit, charge = .spent limit) ↔ frame.transition ∧ frame.spends ∧
            (allowance.run pageAnchorMatches (frames.take i)).2.2.spent = allowance.limit)
      else ∀ charge ∈ charges, charge = .none := by
  induction frames generalizing allowance with
  | nil => simp [run, Follows, within]
  | cons frame later ih =>
    have step := @account_step pageAnchorMatches allowance frame counts within
    simp only [run]
    rcases accounted : allowance.account pageAnchorMatches frame with ⟨charge, events, after⟩
    rw [accounted] at step
    obtain ⟨mode, limit, most, follows, decided⟩ := step
    obtain ⟨spent, more, rest⟩ := ih (mode ▸ counts) (limit ▸ most)
    rw [limit] at spent
    refine ⟨spent, ?_, ?_⟩
    · rw [List.map_append]
      exact follows _ more
    rw [mode] at rest
    split at decided
    · rename_i on
      simp only [on, if_true] at rest ⊢
      refine ⟨by rw [rest.1, decided.1, List.map_cons, List.sum_cons, add_assoc], ?_⟩
      intro i other current charged shown
      cases i with
      | zero =>
        obtain rfl := Option.some.inj charged
        obtain rfl := Option.some.inj shown
        exact decided.2
      | succ i =>
        have ends := rest.2 i other current charged shown
        simpa [run, accounted, limit] using ends
    · rename_i watched
      simp only [watched, if_false, List.forall_mem_cons] at rest ⊢
      exact ⟨decided, rest⟩

lemma account_mode {mode : LoadingMode} (counts : mode ≠ .off) :
    ({ allowance with mode := mode }.account pageAnchorMatches frame).2 =
      let (_, events, after) := { allowance with mode := .on }.account pageAnchorMatches frame
      (events, { after with mode := mode }) := by
  obtain ⟨_, added, limit, spent, op, stretch, recorded⟩ := allowance
  simp only [account, counts, reduceCtorEq, if_false]
  cases frame.transition with
  | false => cases stretch <;> rfl
  | true =>
    cases frame.spends with
    | false => cases stretch <;> rfl
    | true =>
      cases stretch with
      | none | some =>
        simp only [if_true, charge]
        split <;> rfl

lemma run_mode {mode : LoadingMode} (counts : mode ≠ .off) :
    ({ allowance with mode := mode }.run pageAnchorMatches frames).2 =
      let (_, events, after) := { allowance with mode := .on }.run pageAnchorMatches frames
      (events, { after with mode := mode }) := by
  induction frames generalizing allowance with
  | nil => rfl
  | cons frame later ih =>
    have same := @account_mode pageAnchorMatches allowance frame _ counts
    have kept := @account_mode pageAnchorMatches allowance frame .on (by decide)
    rcases on : { allowance with mode := .on }.account pageAnchorMatches frame with
      ⟨charge, events, after⟩
    rcases shaded : { allowance with mode := mode }.account pageAnchorMatches frame with
      ⟨_, _, _⟩
    rw [on] at kept
    rw [on, shaded] at same
    obtain ⟨rfl, rfl⟩ := Prod.mk.inj same
    have own : after = { after with mode := .on } := (Prod.mk.inj kept).2
    have rest := @ih after
    rw [← own] at rest
    simp [run, on, shaded, rest]

/-- On, the time spent is that of the pauses and stays within the limit, which a wait ends on when
it spends with nothing left; and stretches are recorded in turn. Under `shadow` the same is
recorded and spent, and nothing is decided. -/
theorem allowance_of_frames (added : List String) (limit : Nat) (op : Option String)
    (frames : List LoadingFrame) :
    let (charges, events, after) := (start .on added limit op).run pageAnchorMatches frames
    let (decided, recorded, watched) := (start .shadow added limit op).run pageAnchorMatches frames
    after.spent ≤ limit ∧ after.spent = (charges.map Charge.pause).sum ∧
      (∀ i charge frame, charges[i]? = some charge → frames[i]? = some frame →
        ((∃ reached, charge = .spent reached) ↔ frame.transition ∧ frame.spends ∧
          ((start .on added limit op).run pageAnchorMatches (frames.take i)).2.2.spent = limit)) ∧
      Follows false false (events.map LoadingEvent.kind) ∧
      (∀ charge ∈ decided, charge = .none) ∧ recorded = events ∧ watched.spent = after.spent := by
  obtain ⟨within, ordered, spent, ends⟩ := @run_spec pageAnchorMatches (start .on added limit op)
    frames (by simp [start]) (Nat.zero_le _)
  obtain ⟨-, -, undecided⟩ := @run_spec pageAnchorMatches (start .shadow added limit op)
    frames (by simp [start]) (Nat.zero_le _)
  have same := @run_mode pageAnchorMatches (start .on added limit op) frames .shadow (by decide)
  exact ⟨within, spent.trans (Nat.zero_add _), ends, ordered, undecided, (congrArg Prod.fst same :),
    (congrArg (·.2.spent) same :)⟩

end LoadingAllowance

end ContainedTask
