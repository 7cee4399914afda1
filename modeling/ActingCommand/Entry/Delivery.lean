import ActingCommand.Entry.Refine

/-!
# At-most-once delivery

The lines written, the lines held and the lines in hand are numbered in the client's
order, each once. A line leaves this order in one of two ways: it is written, or its
requests are answered by the entry and it is dropped. So no line is written twice, and
none is written after the entry answered one of its requests.
-/

namespace Entry

open List Option Std

/-! ## The past grows -/

lemma written_append (past records : List Record) :
    written (past ++ records) = written past ++ written records :=
  filterMap_append

lemma clientLines_append (past records : List Record) :
    clientLines (past ++ records) = clientLines past ++ clientLines records :=
  filterMap_append

/-- A record that neither writes nor takes a client line. -/
def Record.silent : Record → Bool
  | .received _ => false
  | .sent _ (.client ..) true => false
  | _ => true

variable {records : List Record}

lemma written_silent (silent : ∀ record ∈ records, record.silent = true) :
    written records = [] := by
  refine filterMap_eq_nil_iff.mpr fun record listed => ?_
  have quiet := silent record listed
  unfold Record.silent at quiet
  unfold Record.writes
  split <;> simp_all

lemma clientLines_silent (silent : ∀ record ∈ records, record.silent = true) :
    clientLines records = [] := by
  refine filterMap_eq_nil_iff.mpr fun record listed => ?_
  have quiet := silent record listed
  cases record <;> simp_all [Record.silent]

variable {record : Record}

lemma writes_silent (silent : record.silent = true) : record.writes = none := by
  unfold Record.silent at silent
  unfold Record.writes
  split <;> simp_all

lemma quiet_silent (quiet : record.quiet = true) : record.silent = true := by
  unfold Record.quiet at quiet
  unfold Record.silent
  split <;> simp_all

lemma quiet_refuses (quiet : record.quiet = true) : record.refuses = none := by
  cases record <;> simp_all [Record.quiet, Record.refuses]

lemma alone_silent (silent : record.silent = true) : ∀ other ∈ [record], other.silent = true := by
  simpa using silent

lemma refusals_silent (requests : List Pending) (code : EntryCode) :
    ∀ record ∈ refusals requests code, record.silent = true := by
  intro record listed
  obtain ⟨pending, -, rfl⟩ := List.mem_map.mp listed
  rfl

variable {number : Nat}

lemma mem_refusals {requests : List Pending} {code : EntryCode}
    (listed : record ∈ refusals requests code) (refuses : number ∈ record.refuses) :
    ∃ pending ∈ requests, pending.line = number := by
  obtain ⟨pending, inside, rfl⟩ := List.mem_map.mp listed
  exact ⟨pending, inside, some.inj refuses⟩

/-! ## The requests in flight -/

lemma insertAll_getElem? {requests : Requests} {inflight} {key : String} {pending : Pending}
    (found : (insertAll requests inflight)[key]? = some pending) :
    (key, pending) ∈ requests ∨ inflight[key]? = some pending := by
  induction requests generalizing inflight with
  | nil => exact .inr found
  | cons request rest ih =>
    rcases ih found with later | before
    · exact .inl (mem_cons_of_mem _ later)
    rw [ExtTreeMap.getElem?_insert] at before
    split at before
    · rename_i same
      obtain rfl := LawfulEqCmp.eq_of_compare same
      obtain rfl := some.inj before
      exact .inl mem_cons_self
    · exact .inr before

lemma eraseAll_getElem? {keys : List String} {inflight} {key : String} {pending : Pending}
    (found : (eraseAll keys inflight)[key]? = some pending) :
    key ∉ keys ∧ inflight[key]? = some pending := by
  induction keys generalizing inflight with
  | nil => exact ⟨not_mem_nil, found⟩
  | cons first rest ih =>
    obtain ⟨apart, before⟩ := ih found
    rw [ExtTreeMap.getElem?_erase] at before
    split at before
    · cases before
    rename_i differs
    refine ⟨fun listed => ?_, before⟩
    rcases mem_cons.mp listed with rfl | later
    · exact differs ReflCmp.compare_self
    · exact apart later

/-! ## The invariant -/

section Invariant

variable [Printer]

/-- The lines on their way to a child, in the client's order. -/
def Flow.waiting (flow : Flow) : List Held := flow.held ++ flow.hand

structure Delivery (parse : Bytes → Option Value) (flow : Flow) : Prop where
  ordered : (written flow.past ++ flow.waiting.map Held.number).Pairwise (· < ·)
  sent : ∀ child number line, .sent child (.client number line) true ∈ flow.past →
    (clientLines flow.past)[number]? = some line
  waiting : ∀ held ∈ flow.waiting, (clientLines flow.past)[held.number]? = some held.line ∧
    held.Carried parse
  -- A line is held only while no child takes it.
  held : flow.held ≠ [] → flow.closing = true ∨ flow.fresh = true ∨ flow.current = none
  alone : flow.fresh = true → flow.current = none
  flying : ∀ (key : String) (pending : Pending), flow.inflight[key]? = some pending →
    pending.line ∈ written flow.past
  idle : flow.current = none → flow.inflight = ∅
  refused : ∀ record ∈ flow.past, ∀ number ∈ record.refuses,
    number < (clientLines flow.past).length ∧ number ∉ flow.waiting.map Held.number
  late : flow.past.Pairwise fun before after => ∀ number ∈ before.refuses, number ∉ after.writes

namespace Delivery

variable {parse : Bytes → Option Value} {flow after : Flow}

lemma initial : Delivery parse .initial where
  ordered := .nil
  sent := by simp [Flow.initial]
  waiting := by simp [Flow.initial, Flow.waiting]
  held := by simp [Flow.initial]
  alone := by simp [Flow.initial]
  flying := by simp [Flow.initial]
  idle := by simp [Flow.initial]
  refused := by simp [Flow.initial]
  late := .nil

lemma written_lt (inv : Delivery parse flow) (listed : number ∈ written flow.past) :
    number < (clientLines flow.past).length := by
  obtain ⟨record, inside, writes⟩ := mem_filterMap.mp listed
  unfold Record.writes at writes
  split at writes
  · rename_i child own line
    obtain rfl := some.inj writes
    exact (List.getElem?_eq_some_iff.mp (inv.sent _ _ _ inside)).1
  · cases writes

variable {held : Held}

lemma waiting_lt (inv : Delivery parse flow) (listed : held ∈ flow.waiting) :
    held.number < (clientLines flow.past).length :=
  (List.getElem?_eq_some_iff.mp (inv.waiting held listed).1).1

/-- A line that was written waits no longer. -/
theorem written_not_waiting (inv : Delivery parse flow) (listed : number ∈ written flow.past) :
    number ∉ flow.waiting.map Held.number := by
  intro also
  exact Nat.lt_irrefl number ((pairwise_append.mp inv.ordered).2.2 number listed number also)

/-- The lines that wait become fewer, and the records that come write and take no line. -/
theorem extend (inv : Delivery parse flow) (past : after.past = flow.past ++ records)
    (silent : ∀ record ∈ records, record.silent = true) (fewer : after.waiting.Sublist flow.waiting)
    (refused : ∀ record ∈ records, ∀ number ∈ record.refuses,
      number < (clientLines flow.past).length ∧ number ∉ after.waiting.map Held.number)
    (flying : ∀ (key : String) (pending : Pending), after.inflight[key]? = some pending →
      flow.inflight[key]? = some pending)
    (held : after.held ≠ [] → after.closing = true ∨ after.fresh = true ∨ after.current = none)
    (alone : after.fresh = true → after.current = none)
    (idle : after.current = none → after.inflight = ∅) : Delivery parse after := by
  have lines : clientLines after.past = clientLines flow.past := by
    rw [past, clientLines_append, clientLines_silent silent, append_nil]
  have numbers : written after.past = written flow.past := by
    rw [past, written_append, written_silent silent, append_nil]
  refine ⟨?_, ?_, ?_, held, alone, ?_, idle, ?_, ?_⟩
  · rw [numbers]
    exact inv.ordered.sublist ((List.Sublist.refl _).append (fewer.map _))
  · intro child number line listed
    rw [past] at listed
    rw [lines]
    rcases mem_append.mp listed with before | new
    · exact inv.sent child number line before
    · cases silent _ new
  · intro held listed
    rw [lines]
    exact inv.waiting held (fewer.subset listed)
  · intro key pending found
    rw [numbers]
    exact inv.flying key pending (flying key pending found)
  · intro record listed number refuses
    rw [lines]
    rw [past] at listed
    rcases mem_append.mp listed with before | new
    · obtain ⟨bound, apart⟩ := inv.refused record before number refuses
      exact ⟨bound, fun also => apart ((fewer.map Held.number).subset also)⟩
    · exact refused record new number refuses
  rw [past, pairwise_append]
  refine ⟨inv.late, ?_, ?_⟩
  · refine List.Pairwise.imp_of_mem ?_ (pairwise_of_forall fun _ _ => trivial)
    intro _ new _ inside _ number _ writes
    rw [writes_silent (silent _ inside)] at writes
    cases writes
  · intro before _ new inside number _ writes
    rw [writes_silent (silent new inside)] at writes
    cases writes

/-- A new line of the client is in hand. -/
theorem take (inv : Delivery parse flow) (empty : flow.hand = [])
    (numbered : held.number = (clientLines flow.past).length) (carried : held.Carried parse) :
    Delivery parse { flow with hand := [held], past := flow.past ++ [.received held.line] } := by
  have lines : clientLines (flow.past ++ [.received held.line]) =
      clientLines flow.past ++ [held.line] := clientLines_append _ _
  have numbers : written (flow.past ++ [.received held.line]) = written flow.past := by
    rw [written_append]
    exact append_nil _
  have waits : flow.waiting = flow.held := by rw [Flow.waiting, empty, append_nil]
  have keeps {number : Nat} {line : Bytes} (known : (clientLines flow.past)[number]? = some line) :
      (clientLines flow.past ++ [held.line])[number]? = some line := by
    rw [getElem?_append_left (List.getElem?_eq_some_iff.mp known).1]
    exact known
  refine ⟨?_, ?_, ?_, inv.held, inv.alone, ?_, inv.idle, ?_, ?_⟩
  · -- The new number is beyond every number used so far.
    have order := inv.ordered
    rw [waits] at order
    simp only [Flow.waiting, numbers, map_append, ← append_assoc, map_cons, map_nil]
    refine pairwise_append.mpr ⟨order, pairwise_singleton _ _, ?_⟩
    intro number listed new same
    obtain rfl := mem_singleton.mp same
    rw [numbered]
    rcases mem_append.mp listed with old | waiting
    · exact inv.written_lt old
    · obtain ⟨other, inside, rfl⟩ := List.mem_map.mp waiting
      exact inv.waiting_lt (waits ▸ inside)
  · intro child number line listed
    rw [lines]
    rcases mem_append.mp listed with before | new
    · exact keeps (inv.sent child number line before)
    · cases mem_singleton.mp new
  · intro other listed
    rw [lines]
    rcases mem_append.mp listed with before | new
    · obtain ⟨known, carries⟩ := inv.waiting other (waits ▸ before)
      exact ⟨keeps known, carries⟩
    · obtain rfl := mem_singleton.mp new
      exact ⟨by rw [numbered]; exact getElem?_concat_length, carried⟩
  · intro key pending found
    rw [numbers]
    exact inv.flying key pending found
  · intro record listed number refuses
    rw [lines]
    rcases mem_append.mp listed with before | new
    · obtain ⟨bound, apart⟩ := inv.refused record before number refuses
      refine ⟨by simp; omega, fun also => ?_⟩
      simp only [Flow.waiting, map_append, mem_append, map_cons, map_nil, mem_singleton] at also
      rcases also with old | same
      · exact apart (by rw [waits]; exact old)
      · omega
    · obtain rfl := mem_singleton.mp new
      cases refuses
  · refine pairwise_append.mpr ⟨inv.late, pairwise_singleton _ _, ?_⟩
    intro before _ new inside number _ writes
    obtain rfl := mem_singleton.mp inside
    cases writes

variable {child : Child} {rest : List Held}

section

variable (inv : Delivery parse flow)

include inv

/-- A child takes a line only when none is held. -/
theorem held_empty (serves : flow.Serves child held rest) : flow.held = [] := by
  rcases serves.ordered with open_ | empty
  · by_contra nonempty
    rcases inv.held nonempty with closing | fresh | gone
    · rw [open_] at closing
      cases closing
    · rw [serves.settled] at fresh
      cases fresh
    · rw [serves.current] at gone
      cases gone
  · exact empty

/-- The first line in hand is written. -/
theorem write (serves : flow.Serves child held rest) :
    Delivery parse { flow.forwarded child held with
      hand := rest
      past := flow.past ++ [.sent child.id (.client held.number held.line) true] } := by
  have none := inv.held_empty serves
  have waits : flow.waiting = held :: rest := by rw [Flow.waiting, none, serves.first]; rfl
  have lines : clientLines (flow.past ++ [.sent child.id (.client held.number held.line) true]) =
      clientLines flow.past := by
    rw [clientLines_append]
    exact append_nil _
  have numbers : written (flow.past ++ [.sent child.id (.client held.number held.line) true]) =
      written flow.past ++ [held.number] := written_append _ _
  obtain ⟨known, carried⟩ := inv.waiting held (waits ▸ mem_cons_self)
  have order := inv.ordered
  rw [waits, map_cons] at order
  have left : (Flow.waiting { flow.forwarded child held with
      hand := rest
      past := flow.past ++ [.sent child.id (.client held.number held.line) true] }) = rest := by
    simp [Flow.waiting, Flow.forwarded, none, nil_append]
  refine ⟨?_, ?_, ?_, fun nonempty => absurd none nonempty, ?_, ?_, ?_, ?_, ?_⟩
  · rw [left]
    simpa only [numbers, append_assoc, cons_append, nil_append] using order
  · intro other number line listed
    rw [lines]
    rcases mem_append.mp listed with before | new
    · exact inv.sent other number line before
    · cases mem_singleton.mp new
      exact known
  · intro other listed
    rw [left] at listed
    rw [lines]
    exact inv.waiting other (waits ▸ mem_cons_of_mem _ listed)
  · exact fun fresh => absurd (serves.settled.symm.trans fresh) (by simp)
  · intro key pending found
    rw [numbers]
    rcases insertAll_getElem? found with own | before
    · rw [(carried.own _ own).1]
      exact mem_append_right _ mem_cons_self
    · exact mem_append_left _ (inv.flying key pending before)
  · intro gone
    cases gone
  · intro record listed number refuses
    rw [left, lines]
    rcases mem_append.mp listed with before | new
    · obtain ⟨bound, apart⟩ := inv.refused record before number refuses
      refine ⟨bound, fun also => apart ?_⟩
      rw [waits]
      exact mem_cons_of_mem _ also
    · obtain rfl := mem_singleton.mp new
      cases refuses
  · refine pairwise_append.mpr ⟨inv.late, pairwise_singleton _ _, ?_⟩
    intro before listed new inside number refuses writes
    obtain rfl := mem_singleton.mp inside
    obtain rfl : held.number = number := some.inj writes
    -- A refused number waits no longer, so it is not the first in hand.
    apply (inv.refused before listed held.number refuses).2
    rw [waits]
    exact mem_cons_self

/-- The first line in hand could not be written: its requests are answered. -/
theorem miss (serves : flow.Serves child held rest) :
    Delivery parse { flow.forwarded child held with
      hand := rest
      inflight := eraseAll (held.requests.map Prod.fst) (flow.forwarded child held).inflight
      past := flow.past ++ .sent child.id (.client held.number held.line) false ::
        refusals (held.requests.map Prod.snd) .childUnavailable } := by
  have waits : flow.waiting = flow.held ++ held :: rest := by rw [Flow.waiting, serves.first]
  have inside : held ∈ flow.waiting := by
    rw [waits]
    exact mem_append_right _ mem_cons_self
  have fewer : (flow.held ++ rest).Sublist flow.waiting := by
    rw [waits]
    exact (List.Sublist.refl _).append (sublist_cons_self _ _)
  obtain ⟨known, carried⟩ := inv.waiting held inside
  refine inv.extend rfl ?_ fewer ?_ ?_ (fun nonempty => absurd (inv.held_empty serves) nonempty)
    ?_ nofun
  · rintro record (_ | ⟨_, listed⟩)
    · rfl
    · exact refusals_silent _ _ record listed
  · rintro record (_ | ⟨_, listed⟩) number refuses
    · cases refuses
    obtain ⟨pending, asked, rfl⟩ := mem_refusals listed refuses
    obtain ⟨request, own, rfl⟩ := List.mem_map.mp asked
    rw [(carried.own request own).1]
    refine ⟨inv.waiting_lt inside, fun also => ?_⟩
    -- The numbers that wait rise, so the line's number is not among the others.
    have order := (pairwise_append.mp inv.ordered).2.1
    rw [waits, map_append, map_cons] at order
    have apart : (held.number :: (flow.held ++ rest).map Held.number).Nodup := by
      rw [map_append]
      exact nodup_middle.mp (order.imp Nat.ne_of_lt)
    exact (nodup_cons.mp apart).1 also
  · intro key pending found
    obtain ⟨apart, stays⟩ := eraseAll_getElem? found
    rcases insertAll_getElem? stays with own | before
    · exact absurd (List.mem_map_of_mem own) apart
    · exact before
  · exact fun fresh => absurd (serves.settled.symm.trans fresh) (by simp)

/-- The held lines are dropped, and their requests answered. -/
theorem refuse : Delivery parse { flow with
      held := []
      past := flow.past ++ refusals (flow.held.flatMap fun held => held.requests.map Prod.snd)
        .childUnavailable } := by
  have fewer : flow.hand.Sublist flow.waiting := sublist_append_right _ _
  refine inv.extend rfl (refusals_silent _ _) fewer ?_ (fun _ _ found => found) nofun
    inv.alone inv.idle
  intro record listed number refuses
  obtain ⟨pending, asked, rfl⟩ := mem_refusals listed refuses
  obtain ⟨held, inside, own⟩ := mem_flatMap.mp asked
  obtain ⟨request, carried, rfl⟩ := List.mem_map.mp own
  have waits : held ∈ flow.waiting := mem_append_left _ inside
  rw [((inv.waiting held waits).2.own request carried).1]
  refine ⟨inv.waiting_lt waits, fun also => ?_⟩
  have order := (pairwise_append.mp inv.ordered).2.1
  rw [Flow.waiting, map_append] at order
  have below := (pairwise_append.mp order).2.2 held.number (List.mem_map_of_mem inside)
    held.number also
  exact Nat.lt_irrefl _ below

/-- The current child is gone: what it had in flight is answered. -/
theorem exit : Delivery parse { flow with
      current := none
      starting := none
      statusQuery := none
      handlesClear := false
      inflight := ∅
      past := flow.past ++ refusals (flow.inflight.toList.map Prod.snd) .outcomeUnknown } := by
  refine inv.extend rfl (refusals_silent _ _) (List.Sublist.refl _) ?_ ?_ (fun _ => by simp)
    (fun _ => rfl) (fun _ => rfl)
  · intro record listed number refuses
    obtain ⟨pending, asked, rfl⟩ := mem_refusals listed refuses
    obtain ⟨⟨key, own⟩, listed, rfl⟩ := List.mem_map.mp asked
    have sent := inv.flying key own
      (ExtTreeMap.mem_toList_iff_getElem?_eq_some.mp listed)
    exact ⟨inv.written_lt sent, inv.written_not_waiting sent⟩
  · intro key pending found
    simp at found

/-- A change that records nothing. -/
theorem keep (past : after.past = flow.past) (fewer : after.waiting.Sublist flow.waiting)
    (flying : ∀ (key : String) (pending : Pending), after.inflight[key]? = some pending →
      flow.inflight[key]? = some pending)
    (held : after.held ≠ [] → after.closing = true ∨ after.fresh = true ∨ after.current = none)
    (alone : after.fresh = true → after.current = none)
    (idle : after.current = none → after.inflight = ∅) : Delivery parse after :=
  inv.extend (past.trans (append_nil _).symm) (forall_mem_nil _) fewer
    (forall_mem_nil _) flying held alone idle

lemma move (moves : Move parse flow after) : Delivery parse after := by
  have same : ∀ (key : String) (pending : Pending), flow.inflight[key]? = some pending →
      flow.inflight[key]? = some pending := fun _ _ found => found
  have unrefused {record : Record} (quiet : record.refuses = none) : ∀ other ∈ [record],
      ∀ number ∈ other.refuses, number < (clientLines flow.past).length ∧
        number ∉ flow.waiting.map Held.number := by
    intro other listed number refuses
    obtain rfl := mem_singleton.mp listed
    rw [quiet] at refuses
    cases refuses
  cases moves with
  | take empty numbered carried => exact inv.take empty numbered carried
  | write serves => exact inv.write serves
  | miss serves => exact inv.miss serves
  | refuse => exact inv.refuse
  | exit _ => exact inv.exit
  | log quiet =>
    exact inv.extend rfl (alone_silent (quiet_silent quiet)) (.refl _)
      (unrefused (quiet_refuses quiet)) same inv.held inv.alone inv.idle
  | drop =>
    exact inv.keep rfl ((List.Sublist.refl _).append (nil_sublist _)) same inv.held inv.alone
      inv.idle
  | @hold held first waits =>
    have kept : (flow.held ++ [held] ++ []).Sublist flow.waiting := by
      rw [Flow.waiting, first, append_nil]
    exact inv.keep rfl kept same (fun _ => .inr waits.symm) inv.alone inv.idle
  | erase key _ =>
    refine inv.keep rfl (.refl _) ?_ inv.held inv.alone fun gone => ?_
    · intro other pending found
      exact (@eraseAll_getElem? [key] _ _ _ found).2
    · simp only [inv.idle gone]
      rfl
  | allot | forget =>
    exact inv.keep rfl (.refl _) same inv.held inv.alone inv.idle
  | begin purpose empty lone =>
    refine inv.keep rfl (.refl _) same (fun nonempty => ?_) ?_ inv.idle
    · rcases inv.held nonempty with closing | fresh | gone
      · exact .inl closing
      · simp [Flow.fresh, empty] at fresh
      · exact .inr (.inr gone)
    · intro fresh
      exact lone (by simpa [Flow.fresh] using fresh)
  | ready starts empty =>
    have kept : ([] ++ flow.held).Sublist flow.waiting := by
      rw [Flow.waiting, empty, append_nil, nil_append]
    exact inv.keep rfl kept same (fun some => absurd rfl some) (fun fresh => by cases fresh)
      (fun gone => by cases gone)
  | fail =>
    refine inv.keep rfl (.refl _) same (fun nonempty => ?_) (fun fresh => by cases fresh)
      inv.idle
    rcases inv.held nonempty with closing | fresh | gone
    · exact .inl closing
    · exact .inr (.inr (inv.alone fresh))
    · exact .inr (.inr gone)
  | commit current starts between settled open_ clear =>
    refine inv.extend rfl (alone_silent rfl) (.refl _) (unrefused rfl) same (fun nonempty => ?_)
      (fun fresh => by cases fresh) (fun gone => by cases gone)
    -- A candidate starts beside the current child, so no line is held.
    rcases inv.held nonempty with closing | fresh | gone
    · rw [open_] at closing
      cases closing
    · simp [Flow.fresh, starts] at fresh
    · rw [current] at gone
      cases gone
  | ask | clear =>
    exact inv.extend rfl (alone_silent rfl) (.refl _) (unrefused rfl) same inv.held inv.alone
      inv.idle
  | close =>
    exact inv.keep rfl (.refl _) same (fun _ => .inl rfl) (fun fresh => by cases fresh)
      inv.idle

end

lemma of_moves (moves : Moves parse .initial flow) : Delivery parse flow := by
  induction moves with
  | refl => exact initial
  | tail _ step ih => exact ih.move step

end Delivery

/-! ## Delivery over any sequence of events -/

/-- Of the client's lines, each is written at most once and in the client's order; a line one of
whose requests the entry answered itself is not written afterwards; and without a current child
nothing is in flight. -/
theorem at_most_once_delivery {η : Type} [Host η] {parse : Bytes → Option Value} {core : Core η}
    (reached : core.Reached parse) :
    (written core.past).Pairwise (· < ·) ∧
      (∀ child number line, .sent child (.client number line) true ∈ core.past →
        (clientLines core.past)[number]? = some line) ∧
      (core.past.Pairwise fun before after =>
        ∀ number ∈ before.refuses, number ∉ after.writes) ∧
      (core.current = none → core.inflight = ∅) := by
  have inv := Delivery.of_moves reached.moves
  refine ⟨(pairwise_append.mp inv.ordered).1, inv.sent, inv.late, fun gone => ?_⟩
  exact inv.idle (congrArg (Option.map Slot.child) gone)

/-- The lines held back follow every line written, in the client's order and as the client sent
them; what is in flight belongs to a line written; and lines are held only while no child takes
them. -/
theorem held_lines_in_order {η : Type} [Host η] {parse : Bytes → Option Value} {core : Core η}
    (reached : core.Reached parse) :
    (written core.past ++ core.held.map Held.number).Pairwise (· < ·) ∧
      (∀ held ∈ core.held, (clientLines core.past)[held.number]? = some held.line) ∧
      (∀ (key : String) (pending : Pending), core.inflight[key]? = some pending →
        pending.line ∈ written core.past) ∧
      (core.held ≠ [] → core.closing = true ∨ (core.flow []).fresh = true ∨
        core.current = none) := by
  have inv := Delivery.of_moves reached.moves
  have waiting : (core.flow []).waiting = core.held := append_nil _
  have ordered := inv.ordered
  have waits := inv.waiting
  rw [waiting] at ordered waits
  refine ⟨ordered, fun held listed => (waits held listed).1, inv.flying, fun some => ?_⟩
  simpa [Core.flow] using inv.held some

end Invariant

namespace Sample

/-- A host whose starts and writes succeed. -/
structure SampleHost where
  now : Nat
  stamp : Stamp

instance : Host SampleHost where
  nowMs host := host.now
  stamp host := host.stamp
  busy host := (false, host)
  spawn host id _ := (.ok id, host)
  send host _ _ := (true, host)
  stop host _ := host
  startPlan host _ _ := host
  toClient host _ := host
  writeStatus host := host
  note host _ := host

/-- Numbers and texts as they print. -/
scoped instance : Printer where
  print
    | .number (.posInt value) => value.repr
    | .number (.float text) | .string text => text
    | _ => "null"

def config : EntryConfig := ⟨"actingctl.exe", [], fun _ _ => .null⟩

def nat (value : Nat) : Value := .number (.posInt value)

def ownAnswer (seq : String) (result : Members) : Value :=
  .object [("id", .string (internalStart ++ seq)), ("result", .object result)]

/-- The lines of the sample: a call, its answer, a child's answer to the entry's first query that
gives its calls in flight, a candidate's answers to its first two steps, the client's handshake and
a second call. -/
def sampleParse (calls : Value) : Bytes → Option Value
  | [1] => some (.object [("method", .string "tools/call"), ("id", nat 1)])
  | [2] => some (.object [("id", nat 1), ("result", .object [])])
  | [3] => some (ownAnswer "1" [("outstanding_handles", nat 0), ("calls_in_flight", calls)])
  | [4] => some (ownAnswer "2" [])
  | [5] => some (ownAnswer "3" [("tools", .array [])])
  | [6] => some (.object [("method", .string "initialize"), ("id", nat 0),
      ("params", .object [])])
  | [7] => some (.object [("method", .string "tools/call"), ("id", nat 2)])
  | _ => none

def oldStamp : Stamp := ⟨[some (1, 1)]⟩

def startHost : SampleHost := ⟨0, oldStamp⟩

section

variable (parse : Bytes → Option Value) (events : List (SampleHost × Event))

def run : Core SampleHost :=
  events.foldl (fun core entry => { core with host := entry.1 }.step parse entry.2)
    (Core.new startHost config).start

lemma run_reached : (run parse events).Reached parse := by
  have extend : ∀ core : Core SampleHost, core.Reached parse →
      (events.foldl (fun core entry => { core with host := entry.1 }.step parse entry.2)
        core).Reached parse := by
    induction events with
    | nil => exact fun _ reached => reached
    | cons entry rest ih => exact fun core reached => ih _ (reached.event entry.1 entry.2)
  exact extend _ (Core.Reached.start startHost config)

end

/-- The first child exits with a call in flight; the call that comes then goes to the next child. -/
def lostCall : Core SampleHost :=
  run (sampleParse (nat 0))
    [(startHost, .clientLine [1]), (startHost, .childExited 1),
      (startHost, .clientLine [1])]

/-- The first child exits after the client's handshake: the calls that come then are held while the
next child answers the handshake again. -/
def restarting : List (SampleHost × Event) :=
  [(startHost, .clientLine [6]), (startHost, .childExited 1), (startHost, .clientLine [1]),
    (startHost, .clientLine [7])]

def restart : Core SampleHost := run (sampleParse (nat 0)) restarting

/-- The next child has answered the handshake. -/
def restarted : Core SampleHost :=
  run (sampleParse (nat 0)) (restarting ++ [(startHost, .childLine 2 [3])])

end Sample

open Sample

theorem at_most_once_delivery_lost_call :
    written lostCall.past = [0, 1] ∧
      (lostCall.past.Pairwise fun before after =>
        ∀ number ∈ before.refuses, number ∉ after.writes) ∧
      lostCall.past.filterMap Record.refuses = [0] :=
  ⟨by decide +kernel, (at_most_once_delivery (run_reached _ _)).2.2.1, by decide +kernel⟩

theorem held_lines_in_order_restart :
    restart.held.map Held.number = [1, 2] ∧
      (written restart.past ++ restart.held.map Held.number).Pairwise (· < ·) ∧
      (∀ held ∈ restart.held, (clientLines restart.past)[held.number]? = some held.line) ∧
      (restart.closing = true ∨ (restart.flow []).fresh = true ∨ restart.current = none) ∧
      ∃ pending, restarted.inflight["2"]? = some pending ∧
        pending.line ∈ written restarted.past := by
  have numbers : restart.held.map Held.number = [1, 2] := by decide +kernel
  have some : restart.held ≠ [] := by
    intro none
    rw [none] at numbers
    cases numbers
  obtain ⟨ordered, lines, -, holds⟩ := held_lines_in_order (run_reached (sampleParse (nat 0))
    restarting)
  obtain ⟨-, -, flying, -⟩ := held_lines_in_order (run_reached (sampleParse (nat 0))
    (restarting ++ [(startHost, .childLine 2 [3])]))
  have flies : restarted.inflight["2"]?.isSome := by decide +kernel
  obtain ⟨pending, found⟩ := Option.isSome_iff_exists.mp flies
  exact ⟨numbers, ordered, lines, holds some, pending, found, flying "2" pending found⟩

end Entry
