import Mathlib

/-!
# The inverse index of a partial map

Places hold at most one key each; an index answers where a key is held. The index is
exact when the two agree in both directions, and then no key is held twice.
-/

namespace InverseIndex

universe u v

variable {ι : Type u} {κ : Type v} {index index' : κ → Option ι} {held held' : ι → Option κ}

variable (index held) in
/-- The index answers exactly the place that holds the key. -/
def Exact : Prop :=
  ∀ k i, index k = some i ↔ held i = some k

lemma Exact.unique (exact : Exact index held) {k : κ} {i j : ι} (first : held i = some k)
    (second : held j = some k) : i = j :=
  Option.some.inj (((exact k i).mpr first).symm.trans ((exact k j).mpr second))

lemma Exact.congr (exact : Exact index held) (places : ∀ i, held' i = held i)
    (keys : ∀ k, index' k = index k) : Exact index' held' := by
  intro k i
  rw [places i, keys k]
  exact exact k i

/-- One place changes what it holds, to nothing or to a key that was not held elsewhere, and the
index follows: it forgets the old key and learns the new one. -/
theorem Exact.write [DecidableEq κ] (exact : Exact index held) {i : ι} (new : Option κ)
    (here : held' i = new) (there : ∀ j, i ≠ j → held' j = held j)
    (fresh : ∀ k, new = some k → held i = some k ∨ index k = none)
    (keys : ∀ k, index' k =
      if new = some k then some i else if held i = some k then none else index k) :
    Exact index' held' := by
  intro k j
  rw [keys k]
  by_cases place : i = j
  · subst j
    rw [here]
    by_cases written : new = some k
    · simp [written]
    by_cases old : held i = some k
    · simp [written, old]
    · simp [written, old, exact k i]
  rw [there j place]
  by_cases written : new = some k
  · have elsewhere : held j ≠ some k := by
      intro other
      have located := (exact k j).mpr other
      rcases fresh k written with same | missing
      · exact place (exact.unique same other)
      · rw [missing] at located
        cases located
    simp [written, place, elsewhere]
  · by_cases old : held i = some k
    · have elsewhere : held j ≠ some k := fun other => place (exact.unique old other)
      simp [written, old, elsewhere]
    · simp [written, old, exact k j]

end InverseIndex
