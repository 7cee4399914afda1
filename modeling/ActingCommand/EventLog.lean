import ActingCommand.Machine

/-!
# Event logs read in pages

The sequences of a log count from 1. A page holds the first selected events after a
position. Page after page gives every selected event in order; windows read backwards
from a position give them newest first. A source hands out its entries one at a time and
may fail at any of them.
-/

namespace EventLog

open Machine List Option

variable {ε : Type*}

/-- The events with their sequences, the first one at `start`. -/
def numbered (start : Nat) : List ε → List (Nat × ε)
  | [] => []
  | event :: rest => (start, event) :: numbered (start + 1) rest

/-- The selected events after a sequence, through another one. -/
def selected (events : List ε) (select : Nat × ε → Bool) (after through : Nat) :
    List (Nat × ε) :=
  (numbered 1 events).filter fun entry =>
    select entry && (after < entry.1 && entry.1 ≤ through)

def page (events : List ε) (select : Nat × ε → Bool) (after through limit : Nat) :
    List (Nat × ε) :=
  (selected events select after through).take limit

section Numbered

lemma numbered_append (start : Nat) (events others : List ε) :
    numbered start (events ++ others) =
      numbered start events ++ numbered (start + events.length) others := by
  induction events generalizing start with
  | nil => rfl
  | cons event rest ih =>
    rw [cons_append, numbered, numbered, ih, length_cons, cons_append]
    congr 3
    omega

lemma mem_numbered {start : Nat} {events : List ε} {entry : Nat × ε}
    (listed : entry ∈ numbered start events) :
    start ≤ entry.1 ∧ entry.1 < start + events.length := by
  induction events generalizing start with
  | nil => cases listed
  | cons event rest ih =>
    rw [length_cons]
    rcases mem_cons.mp listed with rfl | later
    · exact ⟨le_refl _, by omega⟩
    · have bounds := ih later
      omega

/-- An entry stands at the place its sequence counts to. -/
theorem mem_numbered_iff {start : Nat} {events : List ε} {entry : Nat × ε} :
    entry ∈ numbered start events ↔
      start ≤ entry.1 ∧ events[entry.1 - start]? = some entry.2 := by
  induction events generalizing start with
  | nil => simp [numbered]
  | cons event rest ih =>
    rw [numbered, mem_cons, ih]
    constructor
    · rintro (rfl | ⟨bound, held⟩)
      · simp
      refine ⟨by omega, ?_⟩
      rw [show entry.1 - start = entry.1 - (start + 1) + 1 by omega, getElem?_cons_succ]
      exact held
    · rintro ⟨bound, held⟩
      rcases Nat.eq_or_lt_of_le bound with first | later
      · refine Or.inl (Prod.ext first.symm ?_)
        rw [first, Nat.sub_self] at held
        exact (some.inj held).symm
      refine Or.inr ⟨later, ?_⟩
      rw [show entry.1 - start = entry.1 - (start + 1) + 1 by omega, getElem?_cons_succ] at held
      exact held

lemma numbered_strict (start : Nat) (events : List ε) :
    (numbered start events).Pairwise fun a b => a.1 < b.1 := by
  induction events generalizing start with
  | nil => exact .nil
  | cons event rest ih =>
    refine .cons (fun later listed => ?_) (ih (start + 1))
    have bounds := mem_numbered listed
    change start < later.1
    omega

variable {events : List ε} {select : Nat × ε → Bool} {after through : Nat}

lemma mem_selected {entry : Nat × ε} (listed : entry ∈ selected events select after through) :
    entry ∈ numbered 1 events ∧ select entry = true ∧ after < entry.1 ∧ entry.1 ≤ through := by
  obtain ⟨inside, chosen⟩ := mem_filter.mp listed
  simp only [Bool.and_eq_true, decide_eq_true_eq] at chosen
  exact ⟨inside, chosen⟩

lemma selected_of_le (closed : through ≤ after) : selected events select after through = [] := by
  rw [selected, filter_eq_nil_iff]
  intro entry _ chosen
  simp only [Bool.and_eq_true, decide_eq_true_eq] at chosen
  omega

/-- A position between the two ends cuts the selection in two. -/
theorem selected_split {middle : Nat} (lower : after ≤ middle) (upper : middle ≤ through) :
    selected events select after through =
      selected events select after middle ++ selected events select middle through := by
  unfold selected
  have sorted := numbered_strict 1 events
  generalize numbered 1 events = entries at sorted ⊢
  induction entries with
  | nil => rfl
  | cons entry rest ih =>
    obtain ⟨below, later⟩ := pairwise_cons.mp sorted
    have tail := ih later
    by_cases early : entry.1 ≤ middle
    · have within : entry.1 ≤ through := early.trans upper
      simp only [filter_cons, tail, early, within, Nat.not_lt.mpr early, decide_true,
        decide_false, Bool.and_true, Bool.and_false, Bool.false_eq_true, if_false]
      split <;> rfl
    -- Everything from here on lies after the cut.
    have none : (entry :: rest).filter (fun entry =>
        select entry && (decide (after < entry.1) && decide (entry.1 ≤ middle))) = [] := by
      rw [filter_eq_nil_iff]
      intro other listed
      have beyond : middle < other.1 := by
        rcases mem_cons.mp listed with rfl | inside
        · omega
        · have := below other inside
          omega
      simp [Nat.not_le.mpr beyond]
    rw [none, nil_append]
    refine filter_congr fun other listed => ?_
    have beyond : middle < other.1 := by
      rcases mem_cons.mp listed with rfl | inside
      · omega
      · have := below other inside
        omega
    rw [decide_eq_true beyond, decide_eq_true (lower.trans_lt beyond)]

theorem selected_append (event : ε) (bound : after ≤ events.length) :
    selected (events ++ [event]) select after (events.length + 1) =
      selected events select after events.length ++
        if select (events.length + 1, event) then [(events.length + 1, event)] else [] := by
  have last : numbered (1 + events.length) [event] = [(events.length + 1, event)] := by
    rw [numbered, numbered, Nat.add_comm]
  have earlier : (numbered 1 events).filter (fun entry => select entry &&
      (decide (after < entry.1) && decide (entry.1 ≤ events.length + 1))) =
        selected events select after events.length := by
    refine filter_congr fun entry listed => ?_
    have bounds := (mem_numbered listed).2
    rw [decide_eq_true (by omega : entry.1 ≤ events.length + 1),
      decide_eq_true (by omega : entry.1 ≤ events.length)]
  rw [selected, numbered_append, filter_append, earlier, last]
  have inside : after < events.length + 1 := by omega
  simp [filter_cons, inside]

variable (events select after through) in
/-- What is selected through a position is selected among the events up to it. -/
theorem selected_take :
    selected (events.take through) select after through =
      selected events select after through := by
  have behind : (numbered (1 + (events.take through).length) (events.drop through)).filter
      (fun entry => select entry && (after < entry.1 && entry.1 ≤ through)) = [] := by
    rw [filter_eq_nil_iff]
    intro entry listed
    obtain ⟨lower, upper⟩ := mem_numbered listed
    rw [length_take, length_drop] at upper
    rw [length_take] at lower
    have beyond : ¬ entry.1 ≤ through := by omega
    simp [beyond]
  conv_rhs => rw [selected, ← take_append_drop through events, numbered_append,
    filter_append, behind, append_nil]
  rfl

end Numbered

/-! ## Pages -/

/-- The number of events a page holds at most. -/
structure PageSize where
  events : Nat
  positive : 0 < events

section Pages

variable {events : List ε} {select : Nat × ε → Bool} {after through : Nat}

lemma mem_page {limit : Nat} {entry : Nat × ε}
    (listed : entry ∈ page events select after through limit) :
    after < entry.1 ∧ entry.1 ≤ through :=
  (mem_selected (mem_of_mem_take listed)).2.2

variable (events select through) in
/-- Page after page, until one is not full. -/
def readPages (size : PageSize) (after : Nat) : List (Nat × ε) :=
  let found := page events select after through size.events
  match last : found.getLast? with
  | none => found
  | some entry =>
    have := mem_page (mem_of_getLast? last)
    if found.length < size.events then found else found ++ readPages size entry.1
termination_by through - after

/-- After a full page the selection goes on behind the page's last event. -/
theorem selected_page {limit : Nat} {last : Nat × ε}
    (found : (page events select after through limit).getLast? = some last) :
    selected events select after through =
      page events select after through limit ++ selected events select last.1 through := by
  obtain ⟨after_lt, le_through⟩ := mem_page (mem_of_getLast? found)
  obtain ⟨front, shape⟩ := getLast?_eq_some_iff.mp found
  have sorted : (selected events select after through).Pairwise fun a b => a.1 < b.1 :=
    (numbered_strict 1 events).filter _
  rw [← take_append_drop limit (selected events select after through)] at sorted
  obtain ⟨inner, -, across⟩ := pairwise_append.mp sorted
  change (page events select after through limit).Pairwise _ at inner
  have early : ∀ entry ∈ page events select after through limit, entry.1 ≤ last.1 := by
    intro entry listed
    rw [shape] at inner listed
    rcases mem_append.mp listed with before | own
    · exact Nat.le_of_lt ((pairwise_append.mp inner).2.2 entry before last
        mem_cons_self)
    · exact le_of_eq (congrArg Prod.fst (mem_singleton.mp own))
  have late : ∀ entry ∈ (selected events select after through).drop limit,
      last.1 < entry.1 := fun entry listed =>
    across last (mem_of_getLast? found) entry listed
  -- The part behind the page is what the position of its last event leaves.
  have rest : (selected events select after through).drop limit =
      selected events select last.1 through := by
    have cut := @selected_split _ events select after through last.1 (Nat.le_of_lt after_lt)
      le_through
    have whole := take_append_drop limit (selected events select after through)
    have behind : (selected events select after through).filter (fun entry => last.1 < entry.1) =
        (selected events select after through).drop limit := by
      nth_rewrite 1 [← whole]
      rw [filter_append, filter_eq_nil_iff.mpr, nil_append, filter_eq_self.mpr]
      · exact fun entry listed => decide_eq_true (late entry listed)
      intro entry listed
      have bound := early entry listed
      simp only [decide_eq_true_eq, Nat.not_lt]
      exact bound
    rw [← behind, selected, List.filter_filter, selected]
    refine filter_congr fun entry _ => ?_
    by_cases beyond : last.1 < entry.1
    · simp [beyond, after_lt.trans beyond]
    · simp [beyond]
  rw [← rest]
  exact (take_append_drop limit _).symm

/-- Reading page after page gives every selected event, in order. -/
theorem readPages_eq (size : PageSize) (after : Nat) :
    readPages events select through size after = selected events select after through := by
  fun_induction readPages events select through size after with
  | case1 after found empty =>
    have none : found = [] := getLast?_eq_none_iff.mp empty
    have short : (selected events select after through).take size.events = [] := none
    rw [take_eq_nil_iff] at short
    have positive := size.positive
    rw [none, short.resolve_left (by omega)]
  | case2 after found entry last bounds short =>
    have whole : (selected events select after through).length ≤ size.events := by
      have length : found.length = min size.events (selected events select after through).length :=
        length_take
      omega
    exact take_of_length_le whole
  | case3 after found entry last bounds full ih =>
    rw [ih]
    exact (selected_page last).symm

end Pages

/-! ## Newest first -/

/-- A read that goes back from `upper`: the events it holds but has not handed out, and the size of
its next window. -/
structure Backwards (ε : Type*) where
  upper : Nat
  window : Nat
  floor : Nat
  buffered : List (Nat × ε)
  positive : 0 < window

namespace Backwards

variable (events : List ε) (select : Nat × ε → Bool) (size : PageSize)

/-- Windows that double, each read in pages, until one of them holds an event. -/
def fill (read : Backwards ε) : Backwards ε :=
  if waiting : read.buffered = [] ∧ 0 < read.upper then
    let floor := if read.floor < read.upper then read.floor else 0
    let lower := max (read.upper - read.window) floor
    fill
      { upper := lower
        window := min (read.window * 2) u64Max
        floor := read.floor
        buffered := readPages events select read.upper size lower
        positive := by
          have positive := read.positive
          unfold u64Max
          omega }
  else read
termination_by read.upper
decreasing_by
  have positive := read.positive
  split <;> omega

/-- The next older event, and the read behind it. -/
def next (read : Backwards ε) : Option ((Nat × ε) × Backwards ε) :=
  let filled := fill events select size read
  match filled.buffered.getLast? with
  | none => none
  | some entry => some (entry, { filled with buffered := filled.buffered.dropLast })

/-- What the read still hands out, oldest first. -/
def remaining (read : Backwards ε) : List (Nat × ε) :=
  selected events select 0 read.upper ++ read.buffered

variable {events select size}

lemma fill_spec (read : Backwards ε) :
    (fill events select size read).remaining events select = read.remaining events select ∧
      ((fill events select size read).buffered = [] →
        (fill events select size read).upper = 0) := by
  fun_induction fill events select size read with
  | case1 read waiting floor lower ih =>
    refine ⟨ih.1.trans ?_, ih.2⟩
    have below : lower ≤ read.upper := by
      have : floor ≤ read.upper := by
        change (if read.floor < read.upper then read.floor else 0) ≤ read.upper
        split <;> omega
      omega
    rw [remaining, remaining, readPages_eq, waiting.1, append_nil,
      selected_split (Nat.zero_le lower) below]
  | case2 read ready =>
    refine ⟨rfl, fun empty => ?_⟩
    by_contra positive
    exact ready ⟨empty, Nat.pos_of_ne_zero positive⟩

lemma next_eq_none {read : Backwards ε} (done : next events select size read = none) :
    read.remaining events select = [] := by
  obtain ⟨same, empty⟩ := @fill_spec _ events select size read
  unfold next at done
  simp only at done
  split at done
  · rename_i last
    have none := getLast?_eq_none_iff.mp last
    rw [← same, remaining, none, empty none, selected_of_le (le_refl 0)]
    rfl
  · cases done

lemma next_eq_some {read rest : Backwards ε} {entry : Nat × ε}
    (found : next events select size read = some (entry, rest)) :
    read.remaining events select = rest.remaining events select ++ [entry] := by
  obtain ⟨same, -⟩ := @fill_spec _ events select size read
  unfold next at found
  simp only at found
  split at found
  · cases found
  rename_i newest last
  simp only [some.injEq, Prod.mk.injEq] at found
  obtain ⟨rfl, rfl⟩ := found
  rw [← same, remaining, remaining, append_assoc]
  congr 1
  exact (dropLast_append_getLast? newest last).symm

end Backwards

/-! ## Sources -/

/-- What hands out one entry after another; a state holds fewer entries than the one before it. -/
structure Source (σ ε α : Type*) where
  next : σ → Except ε (Option (α × σ))
  size : σ → Nat
  smaller : ∀ {state rest : σ} {entry : α}, next state = .ok (some (entry, rest)) →
    size rest < size state

namespace Source

variable {σ ε α : Type*}

/-- The source hands out these entries without a failure. -/
inductive Yields (source : Source σ ε α) : σ → List α → Prop
  | done {state : σ} : source.next state = .ok none → Yields source state []
  | more {state rest : σ} {entry : α} {entries : List α} :
    source.next state = .ok (some (entry, rest)) → Yields source rest entries →
      Yields source state (entry :: entries)

/-- The source hands out these entries and then stands at the last state. -/
inductive Reads (source : Source σ ε α) : σ → List α → σ → Prop
  | here {state : σ} : Reads source state [] state
  | more {state rest last : σ} {entry : α} {entries : List α} :
    source.next state = .ok (some (entry, rest)) → Reads source rest entries last →
      Reads source state (entry :: entries) last

variable {source : Source σ ε α}

lemma Yields.reads {entries others : List α} {state : σ}
    (yields : source.Yields state (entries ++ others)) :
    ∃ rest, source.Reads state entries rest ∧ source.Yields rest others := by
  induction entries generalizing state with
  | nil => exact ⟨state, .here, yields⟩
  | cons entry entries ih =>
    cases yields with
    | more found yields =>
      obtain ⟨rest, reads, later⟩ := ih yields
      exact ⟨rest, .more found reads, later⟩

lemma Reads.split {entries others : List α} {state last : σ}
    (reads : source.Reads state (entries ++ others) last) :
    ∃ rest, source.Reads state entries rest ∧ source.Reads rest others last := by
  induction entries generalizing state with
  | nil => exact ⟨state, .here, reads⟩
  | cons entry entries ih =>
    cases reads with
    | more found reads =>
      obtain ⟨rest, first, later⟩ := ih reads
      exact ⟨rest, .more found first, later⟩

end Source

end EventLog
