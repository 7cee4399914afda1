import ActingCommand.Machine

/-!
# Charges on a frame memory budget

A budget counts the bytes of the charges taken on it, which their owners split, shrink, move into
one another and drop in any order. A charge is its number of bytes.
-/

namespace Device

open Machine

inductive FrameMemoryFailure
  | capacity | owner | accounting | budgetSource

/-- The counter of a budget and the charges that exist on it. -/
structure FrameMemory where
  live : Nat
  charges : Multiset Nat

namespace FrameMemory

/-- A reservation under the limit read for it, if it could be read. -/
def reserve (memory : FrameMemory) (limit : Option Nat) (bytes : Nat) :
    Except FrameMemoryFailure Nat × FrameMemory :=
  match limit with
  | none => (.error .budgetSource, memory)
  | some limit => match (checkedAdd memory.live bytes).filter (· ≤ limit) with
    | none => (.error .capacity, memory)
    | some total => (.ok bytes, ⟨total, bytes ::ₘ memory.charges⟩)

def splitOff (charge bytes : Nat) : Except FrameMemoryFailure Nat × Nat :=
  if bytes ≤ charge then (.ok bytes, charge - bytes) else (.error .accounting, charge)

/-- The excess is split off and dropped next; others may act before that. -/
def shrinkTo (charge bytes : Nat) : Except FrameMemoryFailure Nat × Nat :=
  if bytes ≤ charge then splitOff charge (charge - bytes) else (.error .accounting, charge)

/-- Both charges after bytes of the first were to move into the second. -/
def transferTo (sameOwner : Bool) (charge target bytes : Nat) :
    Except FrameMemoryFailure Unit × Nat × Nat :=
  if !sameOwner ∨ charge < bytes then (.error .accounting, charge, target)
  else match checkedAdd target bytes with
    | none => (.error .accounting, charge, target)
    | some total => (.ok (), charge - bytes, total)

/-- The counter after the drop of a charge, unless it underflows. -/
def drop (live charge : Nat) : Option Nat := if charge ≤ live then some (live - charge) else none

/-- The charges that a split leaves. -/
def parts : Except FrameMemoryFailure Nat × Nat → Multiset Nat
  | (.ok new, left) => {new, left}
  | (.error _, left) => {left}

/-- An operation of some owner, whether it succeeds or not. -/
inductive Step : FrameMemory → FrameMemory → Prop
  | reserve {memory} (limit : Option Nat) (bytes : Nat) : Step memory (memory.reserve limit bytes).2
  | split {live charge others} (bytes : Nat) :
      Step ⟨live, charge ::ₘ others⟩ ⟨live, parts (splitOff charge bytes) + others⟩
  | shrink {live charge others} (bytes : Nat) :
      Step ⟨live, charge ::ₘ others⟩ ⟨live, parts (shrinkTo charge bytes) + others⟩
  | transfer {live charge target others} (sameOwner : Bool) (bytes : Nat) :
      Step ⟨live, charge ::ₘ target ::ₘ others⟩
        ⟨live, (transferTo sameOwner charge target bytes).2.1 ::ₘ
          (transferTo sameOwner charge target bytes).2.2 ::ₘ others⟩
  | drop {live charge others left} (counted : drop live charge = some left) :
      Step ⟨live, charge ::ₘ others⟩ ⟨left, others⟩

/-- A refusal leaves everything as it was. -/
def Kept {α β : Type} (outcome : Except FrameMemoryFailure α × β) (before : β) : Prop :=
  ∀ e, outcome.1 = .error e → outcome.2 = before

variable {memory after : FrameMemory} {charge target bytes : Nat}

lemma reserve_ok {limit : Option Nat} (made : (memory.reserve limit bytes).1 = .ok charge) :
    ∃ most ∈ limit, memory.live + bytes ≤ most ∧
      (memory.reserve limit bytes).2 = ⟨memory.live + bytes, bytes ::ₘ memory.charges⟩ := by
  cases limit with
  | none => cases made
  | some most =>
    cases counted : (checkedAdd memory.live bytes).filter (· ≤ most) with
    | none => simp [reserve, counted] at made
    | some total =>
      obtain ⟨added, within⟩ := Option.filter_eq_some_iff.mp counted
      obtain ⟨rfl, -⟩ := checkedAdd_eq_some_iff.mp added
      exact ⟨most, rfl, of_decide_eq_true within, by simp [reserve, counted]⟩

lemma reserve_kept {limit : Option Nat} : Kept (memory.reserve limit bytes) memory := by
  unfold Kept reserve
  split
  · simp
  · split <;> simp

lemma splitOff_sum : (parts (splitOff charge bytes)).sum = charge := by
  unfold splitOff
  split
  · simp [parts]
    omega
  · simp [parts]

lemma shrinkTo_sum : (parts (shrinkTo charge bytes)).sum = charge := by
  unfold shrinkTo
  split
  · exact splitOff_sum
  · simp [parts]

lemma splitOff_kept : Kept (splitOff charge bytes) charge := by
  unfold Kept splitOff
  split <;> simp

lemma transferTo_sum (sameOwner : Bool) : (transferTo sameOwner charge target bytes).2.1 +
    (transferTo sameOwner charge target bytes).2.2 = charge + target := by
  unfold transferTo
  split
  · rfl
  split
  · rfl
  · rename_i total added
    obtain ⟨rfl, -⟩ := checkedAdd_eq_some_iff.mp added
    dsimp only
    omega

lemma Step.counts (step : Step memory after) (counted : memory.live = memory.charges.sum) :
    after.live = after.charges.sum := by
  cases step with
  | reserve limit bytes =>
    cases made : (memory.reserve limit bytes).1 with
    | error e => rwa [reserve_kept e made]
    | ok charge =>
      obtain ⟨-, -, -, made⟩ := reserve_ok made
      simp [made, counted, add_comm]
  | split bytes => simpa [splitOff_sum] using counted
  | shrink bytes => simpa [shrinkTo_sum] using counted
  | transfer sameOwner bytes => simpa [← add_assoc, transferTo_sum] using counted
  | drop dropped =>
    simp only [FrameMemory.drop, Option.ite_none_right_eq_some, Option.some.injEq,
      Multiset.sum_cons] at counted dropped ⊢
    omega

/-- The counter is the sum of the charges, whatever the order of the operations; a reservation stays
under its limit, a refusal changes nothing, and a drop does not underflow. -/
theorem live_counts_charges (run : Relation.ReflTransGen Step ⟨0, 0⟩ memory) :
    memory.live = memory.charges.sum ∧
      (∀ limit bytes, Kept (memory.reserve limit bytes) memory ∧
        ∀ charge, (memory.reserve limit bytes).1 = .ok charge →
          ∃ most ∈ limit, (memory.reserve limit bytes).2.live ≤ most) ∧
      ∀ charge ∈ memory.charges, drop memory.live charge ≠ none ∧ ∀ bytes,
        Kept (splitOff charge bytes) charge ∧ Kept (shrinkTo charge bytes) charge ∧
        ∀ sameOwner target, Kept (transferTo sameOwner charge target bytes) (charge, target) := by
  have counted : memory.live = memory.charges.sum := by
    induction run with
    | refl => rfl
    | tail _ step ih => exact step.counts ih
  refine ⟨counted, fun limit bytes => ⟨reserve_kept, fun charge made => ?_⟩, fun charge exists_ =>
    ⟨?_, fun bytes => ⟨splitOff_kept, ?_, fun sameOwner target => ?_⟩⟩⟩
  · obtain ⟨most, read, within, made⟩ := reserve_ok made
    exact ⟨most, read, by rwa [made]⟩
  · have part := Multiset.le_sum_of_mem exists_
    simp [drop, counted, part]
  · unfold shrinkTo
    split
    · exact splitOff_kept
    · simp [Kept]
  · unfold Kept transferTo
    split
    · simp
    · split <;> simp

/-- Six and ten bytes reserved under sixteen; four of the ten split off, one of these moved into the
six, the rest shrunk to two, and the excess dropped. -/
def traded : FrameMemory := ⟨15, {2, 7, 6}⟩

lemma traded_run : Relation.ReflTransGen Step ⟨0, 0⟩ traded := by
  have first : Step ⟨0, 0⟩ ⟨6, {6}⟩ := .reserve (some 16) 6
  have second : Step ⟨6, {6}⟩ ⟨16, {10, 6}⟩ := .reserve (some 16) 10
  have cut : Step ⟨16, {10, 6}⟩ ⟨16, {4, 6, 6}⟩ := .split 4
  have moved : Step ⟨16, {4, 6, 6}⟩ ⟨16, {3, 7, 6}⟩ := .transfer true 1
  have shrunk : Step ⟨16, {3, 7, 6}⟩ ⟨16, {1, 2, 7, 6}⟩ := .shrink 2
  have dropped : Step ⟨16, {1, 2, 7, 6}⟩ traded := .drop rfl
  exact (((((Relation.ReflTransGen.single first).tail second).tail cut).tail moved).tail
    shrunk).tail dropped

theorem live_counts_charges_traded :
    traded.live = traded.charges.sum ∧
      (traded.reserve (some 16) 2).1 = .error .capacity ∧
      (traded.reserve (some 16) 2).2 = traded ∧
      (∃ most ∈ some 16, (traded.reserve (some 16) 1).2.live ≤ most) ∧
      (∀ charge ∈ traded.charges, drop traded.live charge ≠ none) ∧
      ((splitOff 2 3).1 = .error .accounting ∧ (splitOff 2 3).2 = 2) ∧
      ((shrinkTo 7 8).1 = .error .accounting ∧ (shrinkTo 7 8).2 = 7) ∧
      ((transferTo false 2 7 1).1 = .error .accounting ∧ (transferTo false 2 7 1).2 = (2, 7)) := by
  obtain ⟨counted, reserved, charged⟩ := live_counts_charges traded_run
  have two := (charged 2 (by decide)).2
  exact ⟨counted, rfl, (reserved (some 16) 2).1 _ rfl, (reserved (some 16) 1).2 1 rfl,
    fun charge exists_ => (charged charge exists_).1, ⟨rfl, (two 3).1 _ rfl⟩,
    ⟨rfl, ((charged 7 (by decide)).2 8).2.1 _ rfl⟩, rfl, (two 1).2.2 false 7 _ rfl⟩

end FrameMemory

end Device
