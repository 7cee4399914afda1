import Mathlib

/-!
# Calls on mutable state that may fail

A call reads and writes one state and answers a value or an error. The state it
leaves behind is kept on both outcomes, so that a write made before a failure is
visible in the model. Every rule below is about the relation `Steps`, which names
the state before, the answer and the state after; no later proof unfolds the monad.
-/

abbrev Call (σ ε α : Type) := ExceptT ε (StateM σ) α

namespace Call

variable {σ ε α β : Type}

/-- The answer of a call on `s`, with the state it leaves. -/
def runOn (x : Call σ ε α) (s : σ) : Except ε α × σ := StateT.run (ExceptT.run x) s

/-- From `s` the call answers `r` and leaves `t`. -/
def Steps (x : Call σ ε α) (s : σ) (r : Except ε α) (t : σ) : Prop := x.runOn s = (r, t)

/-- A check that ends the call. -/
def failIf {m : Type → Type} [Monad m] [MonadExceptOf ε m] (condition : Prop)
    [Decidable condition] (error : ε) : m Unit :=
  if condition then throw error else pure ()

/-- The value of an option, or the error that ends the call. -/
def okOr {m : Type → Type} [Monad m] [MonadExceptOf ε m] (value : Option α) (error : ε) : m α :=
  match value with
  | some a => pure a
  | none => throw error

/-- A read-only check made inside a call. -/
def read (x : Except ε α) : Call σ ε α :=
  match x with
  | .ok a => pure a
  | .error e => throw e

lemma steps_of_run {x : Call σ ε α} {s t u : σ} {a r : Except ε α} (runs : x.runOn s = (a, u)) :
    Steps x s r t ↔ r = a ∧ t = u := by
  rw [Steps, runs, Prod.mk.injEq, eq_comm (a := a), eq_comm (a := u)]

@[simp] lemma steps_pure {a : α} {s t : σ} {r : Except ε α} :
    Steps (pure a : Call σ ε α) s r t ↔ r = .ok a ∧ t = s :=
  steps_of_run rfl

@[simp] lemma steps_throw {e : ε} {s t : σ} {r : Except ε α} :
    Steps (throw e : Call σ ε α) s r t ↔ r = .error e ∧ t = s :=
  steps_of_run rfl

@[simp] lemma steps_get {s t : σ} {r : Except ε σ} :
    Steps (get : Call σ ε σ) s r t ↔ r = .ok s ∧ t = s :=
  steps_of_run rfl

@[simp] lemma steps_set {s t u : σ} {r : Except ε PUnit} :
    Steps (set u : Call σ ε PUnit) s r t ↔ r = .ok ⟨⟩ ∧ t = u :=
  steps_of_run rfl

@[simp] lemma steps_modify {f : σ → σ} {s t : σ} {r : Except ε PUnit} :
    Steps (modify f : Call σ ε PUnit) s r t ↔ r = .ok ⟨⟩ ∧ t = f s :=
  steps_of_run rfl

variable {x : Call σ ε α}

/-- A sequence fails where its first part fails, or goes on from where it stopped. -/
theorem steps_bind {f : α → Call σ ε β} {s t : σ} {r : Except ε β} :
    Steps (x >>= f) s r t ↔
      (∃ e, Steps x s (.error e) t ∧ r = .error e) ∨
      (∃ a u, Steps x s (.ok a) u ∧ Steps (f a) u r t) := by
  have unfolded : (x >>= f).runOn s = match x.runOn s with
      | (.ok a, u) => (f a).runOn u
      | (.error e, u) => (.error e, u) := by
    change StateT.run (ExceptT.run (x >>= f)) s = _
    simp only [ExceptT.run_bind, StateT.run_bind, runOn]
    cases hx : StateT.run (ExceptT.run x) s with
    | mk a u => cases a <;> rfl
  simp only [Steps, unfolded]
  cases hx : x.runOn s with
  | mk a u =>
    cases a with
    | error e =>
      constructor
      · intro h
        have same : (Except.error e, u) = (r, t) := h
        simp only [Prod.mk.injEq] at same
        obtain ⟨rfl, rfl⟩ := same
        exact Or.inl ⟨e, rfl, rfl⟩
      · rintro (⟨e', he, rfl⟩ | ⟨a, u', ha, _⟩)
        · simpa using he
        · simp at ha
    | ok a =>
      constructor
      · intro h
        exact Or.inr ⟨a, u, rfl, h⟩
      · rintro (⟨e', he, _⟩ | ⟨a', u', ha, h⟩)
        · simp at he
        simp only [Prod.mk.injEq, Except.ok.injEq] at ha
        obtain ⟨rfl, rfl⟩ := ha
        exact h

variable {condition : Prop} {error : ε}

@[simp] lemma steps_failIf [Decidable condition] {s t : σ} {r : Except ε Unit} :
    Steps (failIf condition error : Call σ ε Unit) s r t ↔
      (condition ∧ r = .error error ∨ ¬ condition ∧ r = .ok ()) ∧ t = s := by
  unfold failIf
  by_cases h : condition
  · simp [h]
  · simp [h]

variable {value : Option α}

@[simp] lemma steps_okOr {s t : σ} {r : Except ε α} :
    Steps (okOr value error : Call σ ε α) s r t ↔
      (value = none ∧ r = .error error ∨ ∃ a, value = some a ∧ r = .ok a) ∧ t = s := by
  cases value <;> simp [okOr]

@[simp] lemma steps_read {x : Except ε α} {s t : σ} {r : Except ε α} :
    Steps (read x : Call σ ε α) s r t ↔ r = x ∧ t = s := by
  cases x <;> simp [read]

/-! ## A primitive followed by the rest of the call -/

section Sequence

variable {f : α → Call σ ε β} {s t : σ} {r : Except ε β}

@[simp] lemma steps_get_bind {f : σ → Call σ ε β} :
    Steps (get >>= f) s r t ↔ Steps (f s) s r t := by
  simp [steps_bind]

@[simp] lemma steps_set_bind {f : PUnit → Call σ ε β} {u : σ} :
    Steps (set u >>= f) s r t ↔ Steps (f ⟨⟩) u r t := by
  simp [steps_bind, Unique.exists_iff]

@[simp] lemma steps_modify_bind {f : PUnit → Call σ ε β} {g : σ → σ} :
    Steps (modify g >>= f) s r t ↔ Steps (f ⟨⟩) (g s) r t := by
  simp [steps_bind, Unique.exists_iff]

@[simp] lemma steps_failIf_bind {f : Unit → Call σ ε β} [Decidable condition] :
    Steps (failIf condition error >>= f) s r t ↔
      (condition ∧ r = .error error ∧ t = s) ∨ (¬ condition ∧ Steps (f ()) s r t) := by
  by_cases h : condition
  · simp [steps_bind, h, and_comm]
  · simp [steps_bind, h, Unique.exists_iff]

@[simp] lemma steps_okOr_bind :
    Steps (okOr value error >>= f) s r t ↔
      (value = none ∧ r = .error error ∧ t = s) ∨ ∃ a, value = some a ∧ Steps (f a) s r t := by
  cases value with
  | none => simp [steps_bind, and_comm]
  | some a => simp [steps_bind]

@[simp] lemma steps_read_bind {x : Except ε α} :
    Steps (read x >>= f) s r t ↔
      (∃ e, x = .error e ∧ r = .error e ∧ t = s) ∨ ∃ a, x = .ok a ∧ Steps (f a) s r t := by
  cases x with
  | error e => simp [steps_bind, and_comm]
  | ok a => simp [steps_bind]

end Sequence

@[simp] lemma steps_map {g : α → β} {s t : σ} {r : Except ε β} :
    Steps (g <$> x) s r t ↔ ∃ q, Steps x s q t ∧ r = q.map g := by
  have unfolded : g <$> x = x >>= fun a => pure (g a) := (bind_pure_comp g x).symm
  rw [unfolded, steps_bind]
  constructor
  · rintro (⟨e, step, rfl⟩ | ⟨a, u, step, rest⟩)
    · exact ⟨.error e, step, rfl⟩
    · obtain ⟨rfl, rfl⟩ := steps_pure.mp rest
      exact ⟨.ok a, step, rfl⟩
  · rintro ⟨q, step, rfl⟩
    cases q with
    | error e => exact Or.inl ⟨e, step, rfl⟩
    | ok a => exact Or.inr ⟨a, t, step, steps_pure.mpr ⟨rfl, rfl⟩⟩

lemma steps_bind_pure {g : α → β} {s t : σ} {r : Except ε β} :
    Steps (x >>= fun a => pure (g a)) s r t ↔ ∃ q, Steps x s q t ∧ r = q.map g := by
  rw [bind_pure_comp]
  exact steps_map

/-! ## Refusals -/

/-- From `s` the call fails and writes nothing. -/
def Refuses (x : Call σ ε α) (s : σ) : Prop := ∀ r t, Steps x s r t → (∃ e, r = .error e) ∧ t = s

section Refusals

variable {f : α → Call σ ε β} {s : σ}

lemma refuses_get_bind {f : σ → Call σ ε β} (later : Refuses (f s) s) : Refuses (get >>= f) s :=
  fun r t step => later r t (steps_get_bind.mp step)

lemma refuses_failIf_bind {f : Unit → Call σ ε β} [Decidable condition]
    (later : ¬ condition → Refuses (f ()) s) : Refuses (failIf condition error >>= f) s := by
  intro r t step
  rcases steps_failIf_bind.mp step with ⟨_, rfl, rfl⟩ | ⟨passed, step⟩
  · exact ⟨⟨error, rfl⟩, rfl⟩
  · exact later passed r t step

lemma refuses_read_bind {x : Except ε α} (later : ∀ a, x = .ok a → Refuses (f a) s) :
    Refuses (read x >>= f) s := by
  intro r t step
  rcases steps_read_bind.mp step with ⟨e, _, rfl, rfl⟩ | ⟨a, passed, step⟩
  · exact ⟨⟨e, rfl⟩, rfl⟩
  · exact later a passed r t step

lemma Refuses.map (refuses : Refuses x s) (g : α → β) : Refuses (g <$> x) s := by
  intro r t mapped
  obtain ⟨q, step, rfl⟩ := steps_map.mp mapped
  obtain ⟨⟨e, rfl⟩, same⟩ := refuses q t step
  exact ⟨⟨e, rfl⟩, same⟩

end Refusals

end Call

namespace Except

open List Except

variable {ε α β : Type}

lemma bind_ok_iff {x : Except ε α} {f : α → Except ε β} {b : β} :
    (x >>= f) = .ok b ↔ ∃ a, x = .ok a ∧ f a = .ok b := by
  cases x with
  | error | ok => simp [bind, Except.bind]

variable {error : ε}

lemma failIf_ok_iff {condition : Prop} [Decidable condition] {u : Unit} :
    (Call.failIf condition error : Except ε Unit) = .ok u ↔ ¬ condition := by
  unfold Call.failIf
  by_cases h : condition
  · simp only [h, if_true, not_true_eq_false, iff_false]
    intro bad
    cases bad
  · simp only [h, if_false, not_false_eq_true, iff_true]
    rfl

@[simp] lemma pure_ok_iff {a b : α} : (pure a : Except ε α) = .ok b ↔ a = b := by
  simp [pure, Except.pure]

lemma okOr_ok_iff {value : Option α} {a : α} :
    (Call.okOr value error : Except ε α) = .ok a ↔ value = some a := by
  cases value with
  | none =>
    simp [Call.okOr, reduceCtorEq]
  | some b =>
    simp [Call.okOr, pure_ok_iff, Option.some.injEq]

variable {e : ε}

lemma bind_error_iff {x : Except ε α} {f : α → Except ε β} :
    (x >>= f) = .error e ↔ x = .error e ∨ ∃ a, x = .ok a ∧ f a = .error e := by
  cases x with
  | error | ok => simp [bind, Except.bind]

lemma failIf_error_iff {condition : Prop} [Decidable condition] :
    (Call.failIf condition error : Except ε Unit) = .error e ↔ condition ∧ error = e := by
  unfold Call.failIf
  by_cases h : condition
  · simp [h, throw, throwThe, MonadExceptOf.throw]
  · simp [h, pure, Except.pure]

lemma okOr_error_iff {value : Option α} :
    (Call.okOr value error : Except ε α) = .error e ↔ value = none ∧ error = e := by
  cases value with
  | none => simp [Call.okOr, throw, throwThe, MonadExceptOf.throw]
  | some a => simp [Call.okOr, pure, Except.pure]

/-- What every step of a loop keeps holds at its end. -/
theorem foldlM_invariant {P : β → Prop} {f : β → α → Except ε β} {l : List α} {start last : β}
    (step : ∀ b a next, P b → f b a = .ok next → P next) (first : P start)
    (answer : l.foldlM f start = .ok last) : P last := by
  induction l generalizing start with
  | nil =>
    rw [foldlM_nil] at answer
    exact ok.inj answer ▸ first
  | cons a rest ih =>
    rw [foldlM_cons, bind_ok_iff] at answer
    obtain ⟨next, stepped, later⟩ := answer
    exact ih (step start a next first stepped) later

end Except
