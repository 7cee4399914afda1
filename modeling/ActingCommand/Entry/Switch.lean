import ActingCommand.Entry.Delivery

/-!
# A switch never cuts work

The requests sent to the current child are in flight until it answers them, the client cancels
them or the entry answers them itself. Its calls are counted as they are sent, a status query
remembers the count it was sent at, and an answer that reports nothing outstanding counts only
while the count has not moved. So the permission to switch always rests on an answer to a query
that came after the last call, and no request is open then.
-/

namespace Entry

open List Option Nat

variable {parse : Bytes → Option Value}

/-! ## What the past says of a child -/

@[simp] lemma callsTo_append (past records : List Record) (child : Nat) :
    callsTo parse (past ++ records) child =
      callsTo parse past child + callsTo parse records child := by
  simp [callsTo]

@[simp] lemma callsTo_cons (record : Record) (past : List Record) (child : Nat) :
    callsTo parse (record :: past) child =
      record.callsTo parse child + callsTo parse past child := by
  simp [callsTo]

@[simp] lemma callsTo_nil (child : Nat) : callsTo parse [] child = 0 := rfl

@[simp] lemma callsTo_refusals (requests : List Pending) (code : EntryCode) (child : Nat) :
    callsTo parse (refusals requests code) child = 0 := by
  induction requests with
  | nil => rfl
  | cons pending rest ih =>
    rw [refusals, map_cons, callsTo_cons]
    exact (zero_add _).trans ih

/-- A client line goes to the child. -/
def Record.reaches (child : Nat) : Record → Bool
  | .sent target (.client ..) _ => target = child
  | _ => false

/-- No client line went to the child. -/
def Untouched (past : List Record) (child : Nat) : Prop :=
  ∀ record ∈ past, record.reaches child = false

variable {past records : List Record} {child : Nat}

lemma reaches_quiet {record : Record} (quiet : record.quiet = true) (child : Nat) :
    record.reaches child = false := by
  unfold Record.quiet at quiet
  unfold Record.reaches
  split <;> simp_all

lemma untouched_refusals (requests : List Pending) (code : EntryCode) (child : Nat) :
    Untouched (refusals requests code) child := by
  intro record listed
  obtain ⟨pending, -, rfl⟩ := List.mem_map.mp listed
  rfl

lemma Untouched.append (before : Untouched past child) (after : Untouched records child) :
    Untouched (past ++ records) child :=
  forall_mem_append.mpr ⟨before, after⟩

lemma Untouched.calls (untouched : Untouched past child) : callsTo parse past child = 0 := by
  refine sum_eq_zero fun count listed => ?_
  obtain ⟨record, inside, rfl⟩ := List.mem_map.mp listed
  have apart := untouched record inside
  unfold Record.reaches at apart
  unfold Record.callsTo
  split <;> simp_all

/-! ## Answers to a status query -/

/-- The query went to the child when its calls had the count the query remembers. -/
def Asked (parse : Bytes → Option Value) (past : List Record) (child : Nat)
    (query : StatusQuery) : Prop :=
  ∃ before params after,
    past = before ++ .sent child (.request query.key entryStatusMethod params) true :: after ∧
      callsTo parse before child = query.calls

/-- The child answered a status query with nothing outstanding, or as a method it does not know,
and no call was sent to it since the query. -/
def Cleared (parse : Bytes → Option Value) (past : List Record) (child : Nat) : Prop :=
  ∃ before key params middle line message after,
    past = before ++ .sent child (.request key entryStatusMethod params) true ::
        (middle ++ .childLine child line :: after) ∧
      parse line = some message ∧ internalKey message = some key ∧ message.reportsNone = true ∧
      callsTo parse middle child = 0 ∧ callsTo parse after child = 0

lemma Asked.append {query : StatusQuery} (asked : Asked parse past child query)
    (records : List Record) : Asked parse (past ++ records) child query := by
  obtain ⟨before, params, after, rfl, count⟩ := asked
  exact ⟨before, params, after ++ records, by simp, count⟩

lemma Cleared.append (cleared : Cleared parse past child) (none : callsTo parse records child = 0) :
    Cleared parse (past ++ records) child := by
  obtain ⟨before, key, params, middle, line, message, after, rfl, read, answers, clear, first,
    second⟩ := cleared
  exact ⟨before, key, params, middle, line, message, after ++ records, by simp, read, answers,
    clear, first, by simp [second, none]⟩

/-! ## The requests in flight -/

variable {requests : Requests} {inflight : Std.ExtTreeMap String Pending} {key : String}

lemma mem_insertAll (held : key ∈ requests.map Prod.fst ∨ key ∈ inflight) :
    key ∈ insertAll requests inflight := by
  induction requests generalizing inflight with
  | nil => simpa [insertAll] using held
  | cons request rest ih =>
    refine ih ?_
    rw [Std.ExtTreeMap.mem_insert, Std.LawfulEqCmp.compare_eq_iff_eq]
    rw [map_cons, mem_cons] at held
    tauto

lemma mem_eraseAll {keys : List String} (apart : key ∉ keys) (held : key ∈ inflight) :
    key ∈ eraseAll keys inflight := by
  induction keys generalizing inflight with
  | nil => exact held
  | cons first rest ih =>
    rw [mem_cons, not_or] at apart
    refine ih apart.2 (Std.ExtTreeMap.mem_erase.mpr ⟨?_, held⟩)
    exact fun same => apart.1 (Std.LawfulEqCmp.eq_of_compare same).symm

section Permission

variable [Printer]

/-! ## What is open at a child -/

lemma openTo_append : openTo parse child (past ++ records) =
    records.foldl (Record.track parse child) (openTo parse child past) :=
  foldl_append

lemma Untouched.track_subset (untouched : Untouched records child) (ids : List String) :
    records.foldl (Record.track parse child) ids ⊆ ids := by
  induction records generalizing ids with
  | nil => exact List.Subset.refl _
  | cons record rest ih =>
    have none : record.opened parse child = [] := by
      have apart := untouched record mem_cons_self
      unfold Record.reaches at apart
      unfold Record.opened
      split <;> simp_all
    refine List.Subset.trans
      (ih (fun other listed => untouched other (mem_cons_of_mem _ listed)) _) ?_
    rw [Record.track, none, append_nil]
    exact filter_subset_self _

lemma Untouched.openTo (untouched : Untouched past child) : openTo parse child past = [] :=
  subset_nil.mp (untouched.track_subset [])

/-- What the entry answered itself is open no longer. -/
lemma mem_track_refusals {requests : List Pending} {code : EntryCode} {ids : List String}
    {key : String} (open_ : key ∈ (refusals requests code).foldl (Record.track parse child) ids) :
    key ∈ ids ∧ ∀ pending ∈ requests, keyOf pending.id ≠ key := by
  induction requests generalizing ids with
  | nil => exact ⟨open_, by simp⟩
  | cons pending rest ih =>
    obtain ⟨listed, others⟩ := ih open_
    simp only [Record.track, Record.ended, Record.opened, append_nil, mem_filter, mem_singleton,
      decide_eq_true_eq] at listed
    exact ⟨listed.1, forall_mem_cons.mpr ⟨Ne.symm listed.2, others⟩⟩

/-! ## Switches -/

/-- A switch in the past was allowed by what came before it. -/
def Record.Permitted (parse : Bytes → Option Value) (before : List Record) : Record → Prop
  | .switched old _ inflight =>
    inflight = [] ∧ openTo parse old.id before = [] ∧
      (Entry.callsTo parse before old.id = 0 ∨ Cleared parse before old.id)
  | _ => True

variable (parse past) in
/-- Every switch in the past was allowed. -/
def Permitted : Prop :=
  ∀ before record after, past = before ++ record :: after → record.Permitted parse before

lemma Permitted.snoc (permitted : Permitted parse past) {record : Record}
    (last : record.Permitted parse past) : Permitted parse (past ++ [record]) := by
  intro before other after split
  rcases eq_nil_or_concat after with rfl | ⟨rest, final, rfl⟩
  · obtain ⟨rfl, same⟩ := append_inj' split rfl
    obtain rfl := cons.inj same |>.1
    exact last
  · rw [concat_eq_append, ← cons_append, ← append_assoc] at split
    exact permitted before other rest (append_inj' split rfl).1

lemma Permitted.append (permitted : Permitted parse past)
    (others : ∀ record ∈ records, ∀ before, record.Permitted parse before) :
    Permitted parse (past ++ records) := by
  induction records generalizing past with
  | nil => simpa using permitted
  | cons record rest ih =>
    rw [append_cons]
    exact ih (permitted.snoc (others record mem_cons_self past)) fun other listed =>
      others other (mem_cons_of_mem _ listed)

lemma refusals_permitted (requests : List Pending) (code : EntryCode) :
    ∀ record ∈ refusals requests code, ∀ before, record.Permitted parse before := by
  intro record listed before
  obtain ⟨pending, -, rfl⟩ := List.mem_map.mp listed
  trivial

/-! ## The invariant -/

structure Permission (parse : Bytes → Option Value) (flow : Flow) : Prop where
  unused : ∀ child, flow.nextChild < child → Untouched flow.past child
  current : ∀ child ∈ flow.current,
    child.id ≤ flow.nextChild ∧ child.calls = callsTo parse flow.past child.id
  -- Every request that is open is in flight.
  tracked : ∀ child ∈ flow.current, ∀ key ∈ openTo parse child.id flow.past, key ∈ flow.inflight
  starting : ∀ entry ∈ flow.starting, entry.1.id ≤ flow.nextChild ∧ entry.1.calls = 0 ∧
    Untouched flow.past entry.1.id ∧ ∀ child ∈ flow.current, child.id ≠ entry.1.id
  asked : ∀ query ∈ flow.statusQuery,
    ∃ child, flow.current = some child ∧ Asked parse flow.past child.id query
  clear : flow.handlesClear = true →
    ∃ child, flow.current = some child ∧ Cleared parse flow.past child.id
  permitted : Permitted parse flow.past

namespace Permission

variable {flow after : Flow}

lemma initial : Permission parse .initial where
  unused := by simp [Flow.initial, Untouched]
  current := by simp [Flow.initial]
  tracked := by simp [Flow.initial]
  starting := by simp [Flow.initial]
  asked := by simp [Flow.initial]
  clear := by simp [Flow.initial]
  permitted := by
    intro before record after split
    simp [Flow.initial] at split

section Extend

variable (inv : Permission parse flow) (next : flow.nextChild ≤ after.nextChild)
  (current : after.current = flow.current ∨
    after.current = none ∧ after.statusQuery = none ∧ after.handlesClear = false)
  (starting : after.starting = flow.starting ∨ after.starting = none)
  (asked : after.statusQuery = flow.statusQuery ∨ after.statusQuery = none)
  (clear : after.handlesClear = true → flow.handlesClear = true)
  (flying : ∀ child ∈ after.current, ∀ key ∈ openTo parse child.id after.past,
    key ∈ flow.inflight → key ∈ after.inflight)

include inv next current starting asked clear flying

/-- The children, the query and the permission stay or go, and no client line is sent. -/
theorem extend (past : after.past = flow.past ++ records)
    (silent : ∀ child, Untouched records child)
    (others : ∀ record ∈ records, ∀ before, record.Permitted parse before) :
    Permission parse after := by
  have calls (child : Nat) : callsTo parse after.past child = callsTo parse flow.past child := by
    rw [past, callsTo_append, (silent child).calls, add_zero]
  have still {child : Child} (own : child ∈ after.current) : child ∈ flow.current := by
    rcases current with same | ⟨gone, -⟩
    · exact same ▸ own
    · rw [gone] at own
      cases own
  refine ⟨fun child beyond => ?_, fun child own => ?_, fun child own key listed => ?_,
    fun entry own => ?_, fun query own => ?_, fun cleared => ?_, ?_⟩
  · rw [past]
    exact (inv.unused child (lt_of_le_of_lt next beyond)).append (silent child)
  · obtain ⟨bound, count⟩ := inv.current child (still own)
    exact ⟨bound.trans next, (calls child.id).symm ▸ count⟩
  · refine flying child own key listed (inv.tracked child (still own) key ?_)
    rw [past, openTo_append] at listed
    exact (silent child.id).track_subset _ listed
  · rcases starting with same | gone
    · obtain ⟨bound, zero, untouched, apart⟩ := inv.starting entry (same ▸ own)
      exact ⟨bound.trans next, zero, past ▸ untouched.append (silent _),
        fun child other => apart child (still other)⟩
    · rw [gone] at own
      cases own
  · rcases current with same | ⟨-, none, -⟩
    · rcases asked with kept | none
      · obtain ⟨child, held, went⟩ := inv.asked query (kept ▸ own)
        exact ⟨child, same.trans held, past ▸ went.append records⟩
      · rw [none] at own
        cases own
    · rw [none] at own
      cases own
  · rcases current with same | ⟨-, -, none⟩
    · obtain ⟨child, held, before⟩ := inv.clear (clear cleared)
      exact ⟨child, same.trans held, past ▸ before.append (silent child.id).calls⟩
    · rw [none] at cleared
      cases cleared
  · rw [past]
    exact inv.permitted.append others

/-- A change that records nothing. -/
theorem keep (past : after.past = flow.past) : Permission parse after :=
  inv.extend next current starting asked clear flying (past.trans (append_nil _).symm)
    (fun _ => forall_mem_nil _) (forall_mem_nil _)

end Extend

/-- A line is sent to the current child, written or not: its calls count. -/
theorem forward (inv : Permission parse flow) {child : Child} {held : Held} {written : Bool}
    {requests : List Pending} (current : flow.current = some child) (carried : held.Carried parse)
    (now : after.current = some ⟨child.id, child.calls + Core.Requests.calls held.requests⟩)
    (clears : after.handlesClear =
      if 0 < Core.Requests.calls held.requests then false else flow.handlesClear)
    (starting : after.starting = flow.starting) (next : after.nextChild = flow.nextChild)
    (asked : after.statusQuery = flow.statusQuery)
    (past : after.past = flow.past ++ .sent child.id (.client held.number held.line) written ::
      refusals requests .childUnavailable)
    (tracked : ∀ key ∈ openTo parse child.id after.past, key ∈ after.inflight) :
    Permission parse after := by
  have calls (other : Nat) : callsTo parse after.past other = callsTo parse flow.past other +
      if child.id = other then callsIn parse held.line else 0 := by
    rw [past, callsTo_append, callsTo_cons, callsTo_refusals]
    rfl
  have apart {other : Nat} (differs : child.id ≠ other) (untouched : Untouched flow.past other) :
      Untouched after.past other := by
    rw [past]
    refine untouched.append (forall_mem_cons.mpr ⟨?_, untouched_refusals _ _ _⟩)
    exact decide_eq_false differs
  obtain ⟨bound, count⟩ := inv.current child current
  refine ⟨fun other beyond => ?_, fun other own => ?_, fun other own => ?_, fun entry own => ?_,
    fun query own => ?_, fun cleared => ?_, ?_⟩
  · rw [next] at beyond
    exact apart (by omega) (inv.unused other beyond)
  · rw [now] at own
    obtain rfl := some.inj own
    simp only [calls, if_true, next]
    exact ⟨bound, by rw [count, carried.calls]⟩
  · rw [now] at own
    obtain rfl := some.inj own
    exact tracked
  · rw [starting] at own
    obtain ⟨below, zero, untouched, differs⟩ := inv.starting entry own
    refine ⟨next ▸ below, zero, apart (differs child current) untouched, fun other mine => ?_⟩
    rw [now] at mine
    obtain rfl := some.inj mine
    exact differs child current
  · rw [asked] at own
    obtain ⟨other, mine, went⟩ := inv.asked query own
    obtain rfl := some.inj (mine.symm.trans current)
    exact ⟨_, now, past ▸ went.append _⟩
  · -- The permission outlives only a line without calls.
    rw [clears] at cleared
    split at cleared
    · cases cleared
    rename_i none
    obtain ⟨other, mine, before⟩ := inv.clear cleared
    obtain rfl := some.inj (mine.symm.trans current)
    refine ⟨_, now, past ▸ before.append ?_⟩
    rw [callsTo_cons, callsTo_refusals]
    simp only [Record.callsTo, if_true]
    rw [← carried.calls]
    omega
  · rw [past]
    refine inv.permitted.append ?_
    rintro record (_ | ⟨_, listed⟩) before
    · trivial
    · exact refusals_permitted _ _ record listed before

section Forwarded

variable {child : Child} {held : Held} (inv : Permission parse flow)
  (current : flow.current = some child) (carried : held.Carried parse)

include inv current carried

/-- The requests of a line that was written are in flight. -/
theorem write_tracked : ∀ key ∈ openTo parse child.id
      (flow.past ++ [.sent child.id (.client held.number held.line) true]),
    key ∈ (flow.forwarded child held).inflight := by
  intro key open_
  simp only [openTo_append, foldl_cons, foldl_nil, Record.track, Record.ended, Record.opened,
    if_true, mem_append, mem_filter] at open_
  rw [← carried.keys] at open_
  exact mem_insertAll (open_.symm.imp_right fun before => inv.tracked child current key before.1)

/-- The requests of a line that was not written are answered. -/
theorem miss_tracked : ∀ key ∈ openTo parse child.id
      (flow.past ++ .sent child.id (.client held.number held.line) false ::
        refusals (held.requests.map Prod.snd) .childUnavailable),
    key ∈ eraseAll (held.requests.map Prod.fst) (flow.forwarded child held).inflight := by
  intro key open_
  rw [openTo_append, foldl_cons] at open_
  obtain ⟨listed, unanswered⟩ := mem_track_refusals open_
  have apart : key ∉ held.requests.map Prod.fst := by
    intro own
    obtain ⟨request, inside, rfl⟩ := List.mem_map.mp own
    exact unanswered _ (List.mem_map_of_mem inside) (carried.own request inside).2
  simp only [Record.track, Record.ended, Record.opened, if_true, mem_append, mem_filter] at listed
  rw [← carried.keys] at listed
  have before := (listed.resolve_right apart).1
  exact mem_eraseAll apart (mem_insertAll (.inr (inv.tracked child current key before)))

end Forwarded

lemma move (inv : Permission parse flow) (delivery : Delivery parse flow)
    (moves : Move parse flow after) : Permission parse after := by
  have carried {child : Child} {held : Held} {rest : List Held}
      (serves : flow.Serves child held rest) : held.Carried parse := by
    refine (delivery.waiting held ?_).2
    rw [Flow.waiting, serves.first]
    exact mem_append_right _ mem_cons_self
  have one {record : Record} (other : ∀ before, record.Permitted parse before) :
      ∀ listed ∈ [record], ∀ before, listed.Permitted parse before := by
    simpa using other
  have alone {record : Record} (apart : ∀ child, record.reaches child = false) :
      ∀ child, Untouched [record] child := by
    simpa [Untouched] using apart
  have same : ∀ child ∈ flow.current, ∀ key ∈ openTo parse child.id flow.past,
      key ∈ flow.inflight → key ∈ flow.inflight := fun _ _ _ _ => id
  cases moves with
  | @log record quiet =>
    refine inv.extend (Nat.le_refl _) (.inl rfl) (.inl rfl) (.inl rfl) id (fun _ _ _ _ => id) rfl
      (alone (reaches_quiet quiet)) (one fun before => ?_)
    cases record <;> trivial
  | take _ _ _ =>
    exact inv.extend (Nat.le_refl _) (.inl rfl) (.inl rfl) (.inl rfl) id (fun _ _ _ _ => id) rfl
      (alone fun _ => rfl) (one fun _ => trivial)
  | drop | hold _ _ =>
    exact inv.keep (Nat.le_refl _) (.inl rfl) (.inl rfl) (.inl rfl) id same rfl
  | erase key ended =>
    refine inv.keep (Nat.le_refl _) (.inl rfl) (.inl rfl) (.inl rfl) id ?_ rfl
    intro child serves other open_ flies
    refine Std.ExtTreeMap.mem_erase.mpr ⟨fun same => ended child serves ?_, flies⟩
    rwa [Std.LawfulEqCmp.eq_of_compare same]
  | write serves =>
    exact @forward parse _ flow _ inv _ _ true [] serves.current (carried serves)
      rfl rfl rfl rfl rfl rfl (inv.write_tracked serves.current (carried serves))
  | miss serves =>
    exact inv.forward serves.current (carried serves) rfl rfl rfl rfl rfl rfl
      (inv.miss_tracked serves.current (carried serves))
  | allot =>
    exact inv.keep (Nat.le_succ _) (.inl rfl) (.inl rfl) (.inl rfl) id same rfl
  | begin purpose empty lone =>
    refine ⟨fun child beyond => inv.unused child (Nat.lt_of_succ_lt beyond), fun child own => ?_,
      inv.tracked, fun entry own => ?_, inv.asked, inv.clear, inv.permitted⟩
    · obtain ⟨bound, count⟩ := inv.current child own
      exact ⟨Nat.le_succ_of_le bound, count⟩
    obtain rfl := some.inj own
    refine ⟨Nat.le_refl _, rfl, inv.unused _ (Nat.lt_succ_self _), fun child other => ?_⟩
    have bound := (inv.current child other).1
    exact Nat.ne_of_lt (Nat.lt_succ_of_le bound)
  | @ready child starts empty =>
    have gone : flow.current = none := delivery.alone (by simp [Flow.fresh, starts])
    obtain ⟨bound, zero, untouched, -⟩ := inv.starting _ starts
    refine ⟨inv.unused, fun other own => ?_, fun other own key open_ => ?_,
      fun entry own => (by cases own), fun query own => ?_, fun clear => (by cases clear),
      inv.permitted⟩
    · obtain rfl := some.inj own
      exact ⟨bound, zero.trans untouched.calls.symm⟩
    · obtain rfl := some.inj own
      rw [untouched.openTo] at open_
      cases open_
    obtain ⟨other, held, -⟩ := inv.asked query own
    rw [gone] at held
    cases held
  | fail | close =>
    exact inv.keep (Nat.le_refl _) (.inl rfl) (.inr rfl) (.inl rfl) id same rfl
  | refuse =>
    exact inv.extend (Nat.le_refl _) (.inl rfl) (.inl rfl) (.inl rfl) id (fun _ _ _ _ => id) rfl
      (untouched_refusals _ _) (refusals_permitted _ _)
  | exit _ =>
    exact inv.extend (Nat.le_refl _) (.inr ⟨rfl, rfl, rfl⟩) (.inr rfl) (.inr rfl)
      (fun clear => by cases clear) (fun _ gone => by cases gone) rfl (untouched_refusals _ _)
      (refusals_permitted _ _)
  | @commit old new current starts between settled open_ clear =>
    obtain ⟨bound, zero, untouched, -⟩ := inv.starting _ starts
    have later {child : Nat} (before : Untouched flow.past child) :
        Untouched (flow.past ++ [.switched old new []]) child :=
      before.append (alone (fun _ => rfl) child)
    refine ⟨fun child beyond => later (inv.unused child beyond), fun child own => ?_,
      fun child own key listed => ?_, fun entry own => (by cases own), fun query own => ?_,
      fun clear => (by cases clear), ?_⟩
    · obtain rfl := some.inj own
      exact ⟨bound, zero.trans (later untouched).calls.symm⟩
    · obtain rfl := some.inj own
      rw [(later untouched).openTo] at listed
      cases listed
    · rw [settled] at own
      cases own
    refine inv.permitted.snoc ⟨rfl, ?_, ?_⟩
    · refine eq_nil_iff_forall_not_mem.mpr fun key listed => ?_
      have flies := inv.tracked _ current key listed
      rw [between] at flies
      exact Std.ExtTreeMap.not_mem_empty flies
    rcases clear with never | cleared
    · have count := (inv.current _ current).2
      exact .inl (count.symm.trans never)
    obtain ⟨child, mine, before⟩ := inv.clear cleared
    obtain rfl := some.inj (mine.symm.trans current)
    exact .inr before
  | @ask child current key deadlineMs params =>
    have sent : Permission parse { flow with past := flow.past ++
        [.sent child.id (.request key entryStatusMethod params) true] } :=
      inv.extend (Nat.le_refl _) (.inl rfl) (.inl rfl) (.inl rfl) id (fun _ _ _ _ => id) rfl
        (alone fun _ => rfl) (one fun _ => trivial)
    refine ⟨sent.unused, sent.current, sent.tracked, sent.starting, fun query own => ?_, sent.clear,
      sent.permitted⟩
    obtain rfl := some.inj own
    exact ⟨child, current, flow.past, params, [], rfl, ((inv.current child current).2).symm⟩
  | forget =>
    exact inv.keep (Nat.le_refl _) (.inl rfl) (.inl rfl) (.inr rfl) id same rfl
  | @clear child query line message current asked unmoved read answers none =>
    have answered : Permission parse { flow with
        past := flow.past ++ [.childLine child.id line] } :=
      inv.extend (Nat.le_refl _) (.inl rfl) (.inl rfl) (.inl rfl) id (fun _ _ _ _ => id) rfl
        (alone fun _ => rfl) (one fun _ => trivial)
    refine ⟨answered.unused, answered.current, answered.tracked, answered.starting,
      fun query own => (by cases own), fun _ => ?_, answered.permitted⟩
    obtain ⟨other, mine, before, params, since, sent, count⟩ := inv.asked query asked
    obtain rfl := some.inj (mine.symm.trans current)
    -- The count has not moved since the query, so no call was sent.
    have unchanged := (inv.current other current).2.symm.trans unmoved
    refine ⟨other, current, before, query.key, params, since, line, message, [], ?_, read, answers,
      none, ?_, rfl⟩
    · simp [sent]
    · simp only [sent, callsTo_append, callsTo_cons] at unchanged
      omega

lemma of_moves (moves : Moves parse .initial flow) : Permission parse flow := by
  induction moves with
  | refl => exact initial
  | tail before step ih => exact ih.move (Delivery.of_moves before) step

end Permission

/-- Whenever a candidate replaced the current child, nothing was in flight: every request sent to
the replaced child had been answered by its id, cancelled, or answered by the entry. Either no
`tools/call` had been sent to it or it had answered a status query, sent after the last such call,
with nothing outstanding or as a method it does not know. -/
theorem switch_never_cuts {η : Type} [Host η] {core : Core η} (reached : core.Reached parse)
    {before after : List Record} {old new : Slot} {inflight : List String}
    (switched : core.past = before ++ .switched old new inflight :: after) :
    inflight = [] ∧ openTo parse old.id before = [] ∧
      (callsTo parse before old.id = 0 ∨ Cleared parse before old.id) :=
  (Permission.of_moves reached.moves).permitted before _ after switched

/-- The counter of the child that serves is the number of calls ever sent to it, and a child that
starts is another one, to which none was sent. -/
theorem calls_counted {η : Type} [Host η] {core : Core η} (reached : core.Reached parse) :
    (∀ slot ∈ core.current, slot.calls = callsTo parse core.past slot.id) ∧
      ∀ starting ∈ core.starting, callsTo parse core.past starting.slot.id = 0 ∧
        ∀ slot ∈ core.current, slot.id ≠ starting.slot.id := by
  have inv := Permission.of_moves reached.moves
  constructor
  · intro slot serves
    exact (inv.current _ (Option.mem_map_of_mem Slot.child serves)).2
  · intro starting begun
    obtain ⟨-, -, untouched, apart⟩ := inv.starting _ (Option.mem_map_of_mem _ begun)
    exact ⟨untouched.calls, fun slot serves => apart _ (Option.mem_map_of_mem Slot.child serves)⟩

end Permission

namespace Sample

def newStamp : Stamp := ⟨[some (2, 2)]⟩

def planAnswer (switch : Bool) : Value :=
  .object [("entry_protocol", nat 1), ("switch", .bool switch),
    ("build", .array [.string "commit", .string "sha256"]), ("child", .array [.string "exe"]),
    ("tunables", .array [nat 2000, nat 10000, nat 60000, nat 600000, nat 300000])]

/-- A call is answered, the install changes, and the planned switch goes through its steps; the
replaced child's status answer gives its calls in flight. -/
def switchRun (calls : Value) : Core SampleHost :=
  run (sampleParse calls)
    [(startHost, .clientLine [1]), (startHost, .childLine 1 [2]),
      (startHost, .planDone (.answered (planAnswer false))), (⟨20000, newStamp⟩, .tick),
      (⟨40000, newStamp⟩, .tick), (⟨40000, newStamp⟩, .planDone (.answered (planAnswer true))),
      (⟨40000, newStamp⟩, .childLine 1 [3]), (⟨40000, newStamp⟩, .childLine 2 [4]),
      (⟨40000, newStamp⟩, .childLine 2 [5])]

/-- The child a switch replaced. -/
def replaced : Record → Option Nat
  | .switched old _ _ => some old.id
  | _ => none

def beforeSwitch (past : List Record) : List Record :=
  past.takeWhile fun record => (replaced record).isNone

lemma split_at_switch
    (first : past.findSome? replaced = some child) :
    ∃ old new inflight after, old.id = child ∧
      past = beforeSwitch past ++ .switched old new inflight :: after := by
  induction past with
  | nil => cases first
  | cons record rest ih =>
    cases record with
    | switched old new inflight => exact ⟨old, new, inflight, rest, some.inj first, rfl⟩
    | received | childLine | sent | answered =>
      obtain ⟨old, new, inflight, after, same, split⟩ := ih first
      exact ⟨old, new, inflight, after, same, congrArg (List.cons _) split⟩

variable (parse past) in
/-- The first child's answers to requests of the entry. -/
def ownAnswers : List Value :=
  past.filterMap fun
    | .childLine 1 line => (parse line).filter fun message => (internalKey message).isSome
    | _ => none

/-- The calls in flight an answer reports, as text. -/
def reportedCalls (message : Value) : Option String :=
  ((message.get "result").bind (·.get "calls_in_flight")).map Value.toString

def two : Value := .number (.float "2.0")

end Sample

open Sample

theorem switch_never_cuts_sample :
    ∃ before old new after,
      (switchRun (nat 0)).past = before ++ .switched old new [] :: after ∧
        callsTo (sampleParse (nat 0)) before old.id = 1 ∧
        openTo (sampleParse (nat 0)) old.id before = [] ∧
        Cleared (sampleParse (nat 0)) before old.id := by
  obtain ⟨old, new, inflight, after, same, split⟩ :=
    @split_at_switch (switchRun (nat 0)).past 1 (by decide +kernel)
  have calls : callsTo (sampleParse (nat 0))
      (beforeSwitch (switchRun (nat 0)).past) old.id = 1 := by
    rw [same]
    decide +kernel
  obtain ⟨rfl, closed, none | cleared⟩ := switch_never_cuts (run_reached _ _) split
  · rw [calls] at none
    cases none
  · exact ⟨_, old, new, after, split, calls, closed, cleared⟩

/-- A child that reports its calls in flight as `2.0` is replaced: a count that is not an unsigned
integer is read as zero. -/
theorem switch_with_reported_calls :
    ∃ before old new after,
      (switchRun two).Reached (sampleParse two) ∧
        (switchRun two).past = before ++ .switched old new [] :: after ∧
        old.id = 1 ∧ callsTo (sampleParse two) before 1 = 1 ∧
        (ownAnswers (sampleParse two) before).map reportedCalls =
          [some "2.0"] := by
  obtain ⟨old, new, inflight, after, same, split⟩ :=
    @split_at_switch (switchRun two).past 1 (by decide +kernel)
  have reached : (switchRun two).Reached (sampleParse two) :=
    run_reached _ _
  obtain rfl := ((Permission.of_moves reached.moves).permitted _ _ _ split).1
  exact ⟨_, old, new, after, reached, split, same, by decide +kernel, by decide +kernel⟩

theorem calls_counted_lost_call : ∃ slot ∈ lostCall.current,
    slot.calls = callsTo (sampleParse (nat 0)) lostCall.past slot.id := by
  have serves : lostCall.current.isSome := by decide +kernel
  obtain ⟨slot, current⟩ := Option.isSome_iff_exists.mp serves
  exact ⟨slot, current, (calls_counted (run_reached _ _)).1 slot current⟩

end Entry
