import ActingCommand.Call

/-!
# Following a union of intervals by point queries

A query lists intervals `[start, stop)` around a point. The union that contains a point is
followed forward to the latest end of the intervals around the end reached so far, and backward
likewise. A walk that stops by itself ends at a point with no interval around it.
-/

namespace IntervalUnion

open List Option Except

variable {ι ε : Type} (start stop : ι → Nat) (query : Nat → Except ε (List ι))

/-- Forward, through at most `steps` intervals. -/
def followEnd : Nat → Nat → Except ε Nat
  | 0, reached => pure reached
  | steps + 1, reached => do
    let found ← query reached
    match (found.map stop).max? with
    | some further => if reached < further then followEnd steps further else pure reached
    | none => pure reached

/-- Backward, through at most `steps` intervals. -/
def followStart : Nat → Nat → Except ε Nat
  | 0, reached => pure reached
  | _ + 1, 0 => pure 0
  | steps + 1, before + 1 => do
    let found ← query before
    match (found.map start).min? with
    | some earlier => if earlier < before + 1 then followStart steps earlier else pure (before + 1)
    | none => pure (before + 1)

/-- The points that a walk back asks about. -/
inductive AskedBack : Nat → Nat → Prop
  | here (x : Nat) : AskedBack x x
  | back {x before y : Nat} {found : List ι} (asked : query x = .ok found)
      (earliest : (found.map start).min? = some (before + 1)) (rest : AskedBack before y) :
      AskedBack x y

/-- What a query lists lies around the point and inside a set. -/
structure Sound (C : Set Nat) : Prop where
  around : ∀ x found, query x = .ok found → ∀ i ∈ found, start i ≤ x ∧ x < stop i
  inside : ∀ x found, query x = .ok found → ∀ i ∈ found, ∀ y, start i ≤ y → y < stop i → y ∈ C

variable {start stop query}

lemma followEnd_of_latest {reached further : Nat} {found : List ι}
    (asked : query reached = .ok found) (latest : (found.map stop).max? = some further)
    (after : reached < further) (steps : Nat) :
    followEnd stop query (steps + 1) reached = followEnd stop query steps further := by
  simp [followEnd, asked, latest, after, bind, Except.bind]

lemma followStart_of_earliest {before earlier : Nat} {found : List ι}
    (asked : query before = .ok found) (earliest : (found.map start).min? = some earlier)
    (le : earlier ≤ before) (steps : Nat) :
    followStart start query (steps + 1) (before + 1) = followStart start query steps earlier := by
  simp [followStart, asked, earliest, Nat.lt_succ_of_le le, bind, Except.bind]

variable (start query) in
/-- A walk back that has stopped: it asked about no point without an interval around it, except
the one before its end. -/
structure StoppedBack (before ended : Nat) : Prop where
  last : ended = 0 ∨
    ∃ last, ended = last + 1 ∧ AskedBack start query before last ∧ query last = .ok []
  every : ∀ y, AskedBack start query before y →
    ∃ found, query y = .ok found ∧ (found = [] → ended = y + 1)

namespace StoppedBack

variable {before ended : Nat} {found : List ι}

lemma of_nil (asked : query before = .ok []) : StoppedBack start query before (before + 1) := by
  refine ⟨Or.inr ⟨before, rfl, .here _, asked⟩, fun y path => ?_⟩
  cases path with
  | here => exact ⟨[], asked, fun _ => rfl⟩
  | back asked' earliest =>
    cases asked.symm.trans asked'
    cases earliest

lemma of_zero (asked : query before = .ok found) (earliest : (found.map start).min? = some 0) :
    StoppedBack start query before 0 := by
  refine ⟨Or.inl rfl, fun y path => ?_⟩
  cases path with
  | here =>
    refine ⟨found, asked, ?_⟩
    rintro rfl
    cases earliest
  | back asked' earliest' =>
    cases asked.symm.trans asked'
    cases earliest.symm.trans earliest'

lemma back {earlier : Nat} (asked : query before = .ok found)
    (earliest : (found.map start).min? = some (earlier + 1))
    (rest : StoppedBack start query earlier ended) : StoppedBack start query before ended := by
  refine ⟨rest.last.imp_right ?_, fun y path => ?_⟩
  · rintro ⟨last, same, path, empty⟩
    exact ⟨last, same, .back asked earliest path, empty⟩
  cases path with
  | here =>
    refine ⟨found, asked, ?_⟩
    rintro rfl
    cases earliest
  | back asked' earliest' path =>
    cases asked.symm.trans asked'
    cases earliest.symm.trans earliest'
    exact rest.every y path

end StoppedBack

variable {C : Set Nat} (sound : Sound start stop query C)

include sound

/-- One step forward: to the end of an interval around the point, or none is around it. -/
theorem followEnd_succ {steps reached ended : Nat}
    (answer : followEnd stop query (steps + 1) reached = .ok ended) :
    ∃ found, query reached = .ok found ∧ (found = [] ∧ ended = reached ∨
      ∃ i ∈ found, (found.map stop).max? = some (stop i) ∧
        followEnd stop query steps (stop i) = .ok ended) := by
  obtain ⟨found, asked, answer⟩ := bind_ok_iff.mp answer
  refine ⟨found, asked, ?_⟩
  split at answer
  · rename_i further latest
    obtain ⟨i, listed, rfl⟩ := List.mem_map.mp (max?_mem latest)
    rw [if_pos (sound.around _ _ asked i listed).2] at answer
    exact Or.inr ⟨i, listed, latest, answer⟩
  · rename_i empty
    exact Or.inl ⟨by simpa [max?_eq_none_iff] using empty, (ok.inj answer).symm⟩

lemma followStart_succ {steps before ended : Nat}
    (answer : followStart start query (steps + 1) (before + 1) = .ok ended) :
    ∃ found, query before = .ok found ∧ (found = [] ∧ ended = before + 1 ∨
      ∃ i ∈ found, (found.map start).min? = some (start i) ∧
        followStart start query steps (start i) = .ok ended) := by
  obtain ⟨found, asked, answer⟩ := bind_ok_iff.mp answer
  refine ⟨found, asked, ?_⟩
  split at answer
  · rename_i earlier earliest
    obtain ⟨i, listed, rfl⟩ := List.mem_map.mp (min?_mem earliest)
    rw [if_pos (Nat.lt_succ_of_le (sound.around _ _ asked i listed).1)] at answer
    exact Or.inr ⟨i, listed, earliest, answer⟩
  · rename_i empty
    exact Or.inl ⟨by simpa [min?_eq_none_iff] using empty, (ok.inj answer).symm⟩

/-- A walk forward stays inside the set. -/
theorem followEnd_inside {steps reached ended : Nat}
    (answer : followEnd stop query steps reached = .ok ended) :
    reached ≤ ended ∧ ∀ y, reached ≤ y → y < ended → y ∈ C := by
  induction steps generalizing reached with
  | zero =>
    obtain rfl := ok.inj answer
    exact ⟨le_rfl, fun y le lt => absurd le (not_le_of_gt lt)⟩
  | succ steps ih =>
    obtain ⟨found, asked, ⟨-, rfl⟩ | ⟨i, listed, -, answer⟩⟩ := followEnd_succ sound answer
    · exact ⟨le_rfl, fun y le lt => absurd le (not_le_of_gt lt)⟩
    obtain ⟨before, after⟩ := sound.around _ _ asked i listed
    obtain ⟨le, rest⟩ := ih answer
    refine ⟨after.le.trans le, fun y from_reached upto => ?_⟩
    rcases lt_or_ge y (stop i) with here | later
    · exact sound.inside _ _ asked i listed y (before.trans from_reached) here
    · exact rest y later upto

lemma followEnd_le {bound steps reached ended : Nat}
    (fits : ∀ x found, query x = .ok found → ∀ i ∈ found, stop i ≤ bound)
    (answer : followEnd stop query steps reached = .ok ended) (le : reached ≤ bound) :
    ended ≤ bound := by
  induction steps generalizing reached with
  | zero =>
    obtain rfl := ok.inj answer
    exact le
  | succ steps ih =>
    obtain ⟨found, asked, ⟨-, rfl⟩ | ⟨i, listed, -, answer⟩⟩ := followEnd_succ sound answer
    · exact le
    · exact ih answer (fits _ _ asked i listed)

/-- A walk that one more step takes no further has no interval around its end. -/
theorem followEnd_settled {steps reached ended : Nat}
    (answer : followEnd stop query steps reached = .ok ended)
    (settled : followEnd stop query (steps + 1) reached = .ok ended) : query ended = .ok [] := by
  induction steps generalizing reached with
  | zero =>
    obtain rfl := ok.inj answer
    obtain ⟨found, asked, ⟨rfl, -⟩ | ⟨i, listed, -, settled⟩⟩ := followEnd_succ sound settled
    · exact asked
    have after := (sound.around _ _ asked i listed).2
    rw [ok.inj settled] at after
    exact absurd after (lt_irrefl _)
  | succ steps ih =>
    obtain ⟨found, asked, ⟨rfl, rfl⟩ | ⟨i, listed, latest, answer⟩⟩ := followEnd_succ sound answer
    · exact asked
    obtain ⟨found', asked', ⟨rfl, -⟩ | ⟨j, -, latest', settled⟩⟩ := followEnd_succ sound settled
    · cases asked.symm.trans asked'
      cases listed
    cases asked.symm.trans asked'
    rw [← some.inj (latest.symm.trans latest')] at settled
    exact ih answer settled

/-- A walk back stays inside the set. -/
theorem followStart_inside {steps reached ended : Nat}
    (answer : followStart start query steps reached = .ok ended) :
    ended ≤ reached ∧ ∀ y, ended ≤ y → y < reached → y ∈ C := by
  induction steps generalizing reached with
  | zero =>
    obtain rfl := ok.inj answer
    exact ⟨le_rfl, fun y le lt => absurd le (not_le_of_gt lt)⟩
  | succ steps ih =>
    cases reached with
    | zero =>
      obtain rfl := ok.inj answer
      exact ⟨le_rfl, fun y le lt => absurd le (not_le_of_gt lt)⟩
    | succ before =>
      obtain ⟨found, asked, ⟨-, rfl⟩ | ⟨i, listed, -, answer⟩⟩ := followStart_succ sound answer
      · exact ⟨le_rfl, fun y le lt => absurd le (not_le_of_gt lt)⟩
      obtain ⟨begins, ends⟩ := sound.around _ _ asked i listed
      obtain ⟨le, rest⟩ := ih answer
      refine ⟨le.trans (begins.trans (Nat.le_succ _)), fun y from_ended upto => ?_⟩
      rcases lt_or_ge y (start i) with earlier | here
      · exact rest y from_ended earlier
      · exact sound.inside _ _ asked i listed y here (by omega)

lemma followStart_stopped {steps before ended : Nat}
    (answer : followStart start query steps (before + 1) = .ok ended)
    (settled : followStart start query (steps + 1) (before + 1) = .ok ended) :
    StoppedBack start query before ended := by
  induction steps generalizing before with
  | zero =>
    obtain rfl := ok.inj answer
    obtain ⟨found, asked, ⟨rfl, -⟩ | ⟨i, listed, -, settled⟩⟩ := followStart_succ sound settled
    · exact .of_nil asked
    have begins := (sound.around _ _ asked i listed).1
    rw [ok.inj settled] at begins
    exact absurd begins (Nat.not_succ_le_self _)
  | succ steps ih =>
    obtain ⟨found, asked, ⟨rfl, rfl⟩ | ⟨i, listed, earliest, answer⟩⟩ :=
      followStart_succ sound answer
    · exact .of_nil asked
    obtain ⟨found', asked', ⟨rfl, -⟩ | ⟨j, -, earliest', settled⟩⟩ :=
      followStart_succ sound settled
    · cases asked.symm.trans asked'
      cases listed
    cases asked.symm.trans asked'
    rw [← some.inj (earliest.symm.trans earliest')] at settled
    cases reached : start i with
    | zero =>
      rw [reached] at answer earliest
      obtain rfl : 0 = ended := by
        cases steps <;> exact ok.inj answer
      exact .of_zero asked earliest
    | succ earlier =>
      rw [reached] at answer settled earliest
      exact .back asked earliest (ih answer settled)

end IntervalUnion
