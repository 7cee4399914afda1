import Mathlib

/-!
# Families of lists with distinct keys

Lists whose elements carry a key, with no key twice in the whole family. Taking elements away
keeps that, and so does adding one with a new key. `Departed` says that a list of keys names
every element that is gone, and each once.
-/

namespace Keyed

open List

universe u v w

variable {ι : Type u} {α : Type v} {κ : Type w} {key : α → κ} {lists later : ι → List α}

variable (key lists) in
/-- No key occurs twice in the family. -/
structure Distinct : Prop where
  within : ∀ i, ((lists i).map key).Nodup
  across : ∀ i j a b, a ∈ lists i → b ∈ lists j → key a = key b → i = j

lemma Distinct.sub (distinct : Distinct key lists)
    (fewer : ∀ i, (later i).Sublist (lists i)) : Distinct key later where
  within i := (distinct.within i).sublist ((fewer i).map key)
  across i j a b ha hb same :=
    distinct.across i j a b ((fewer i).subset ha) ((fewer j).subset hb) same

lemma Distinct.insert [DecidableEq ι] (distinct : Distinct key lists) {i : ι} {a : α}
    (fresh : ∀ j, ∀ b ∈ lists j, key b ≠ key a) (here : (later i).Perm (a :: lists i))
    (there : ∀ j, i ≠ j → later j = lists j) : Distinct key later where
  within j := by
    by_cases same : i = j
    · subst j
      rw [(here.map key).nodup_iff, map_cons, nodup_cons]
      refine ⟨?_, distinct.within i⟩
      intro repeated
      obtain ⟨b, hb, equal⟩ := List.mem_map.mp repeated
      exact fresh i b hb equal
    · rw [there j same]
      exact distinct.within j
  across j k b c hb hc same := by
    -- An element of the new family is the new one, in its list, or an old one.
    have origin : ∀ l d, d ∈ later l → (l = i ∧ d = a) ∨ d ∈ lists l := by
      intro l d hd
      by_cases equal : i = l
      · subst l
        rcases mem_cons.mp (here.mem_iff.mp hd) with new | old
        · exact Or.inl ⟨rfl, new⟩
        · exact Or.inr old
      · rw [there l equal] at hd
        exact Or.inr hd
    rcases origin j b hb with ⟨rfl, rfl⟩ | oldB
    · rcases origin k c hc with ⟨rfl, rfl⟩ | oldC
      · rfl
      · exact absurd same.symm (fresh k c oldC)
    rcases origin k c hc with ⟨rfl, rfl⟩ | oldC
    · exact absurd same (fresh j b oldB)
    · exact distinct.across j k b c oldB oldC same

/-- Joined over indices that do not repeat, the keys do not repeat. -/
theorem Distinct.flatMap_nodup {indices : List ι} (distinct : Distinct key lists)
    (nodup : indices.Nodup) : ((indices.flatMap lists).map key).Nodup := by
  rw [map_flatMap, nodup_flatMap]
  refine ⟨fun i _ => distinct.within i, nodup.imp ?_⟩
  intro i j different k ki kj
  obtain ⟨a, ha, rfl⟩ := List.mem_map.mp ki
  obtain ⟨b, hb, same⟩ := List.mem_map.mp kj
  exact different (distinct.across i j a b ha hb same.symm)

/-! ## Departures -/

variable (key lists later) in
/-- The keys name the elements that are no longer in their lists, each of them once. -/
structure Departed (keys : List κ) : Prop where
  gone : ∀ i, ∀ a ∈ lists i, a ∉ later i ↔ key a ∈ keys
  known : ∀ k ∈ keys, ∃ i, ∃ a ∈ lists i, key a = k
  once : keys.Nodup

lemma Departed.none (kept : ∀ i, ∀ a ∈ lists i, a ∈ later i) :
    Departed key lists later [] where
  gone i a ha := by simp [kept i a ha]
  known k listed := absurd listed not_mem_nil
  once := nodup_nil

/-- What later joins the lists under a key they did not have departs from none of them. -/
theorem Departed.grow {last : ι → List α} {keys : List κ} (departed : Departed key lists later keys)
    (joins : ∀ i, ∀ a ∈ lists i, a ∈ last i ↔ a ∈ later i) : Departed key lists last keys where
  gone i a ha := by
    rw [joins i a ha]
    exact departed.gone i a ha
  known := departed.known
  once := departed.once

/-- The elements that a predicate drops from some of the lists depart. -/
theorem Departed.sweep [DecidableEq ι] {indices : List ι} {drop : α → Bool}
    (distinct : Distinct key lists) (nodup : indices.Nodup)
    (swept : ∀ i, later i =
      if i ∈ indices then (lists i).filter fun a => !drop a else lists i) :
    Departed key lists later ((indices.flatMap fun i => (lists i).filter drop).map key) where
  gone i a ha := by
    have listed : key a ∈ (indices.flatMap fun i => (lists i).filter drop).map key ↔
        i ∈ indices ∧ drop a = true := by
      constructor
      · intro named
        obtain ⟨b, dropped, same⟩ := List.mem_map.mp named
        obtain ⟨j, hj, hb⟩ := mem_flatMap.mp dropped
        obtain ⟨inside, chosen⟩ := mem_filter.mp hb
        obtain rfl := distinct.across j i b a inside ha same
        obtain rfl := inj_on_of_nodup_map (distinct.within j) inside ha same
        exact ⟨hj, chosen⟩
      · rintro ⟨hi, chosen⟩
        exact List.mem_map_of_mem
          (mem_flatMap.mpr ⟨i, hi, mem_filter.mpr ⟨ha, chosen⟩⟩)
    rw [listed, swept i]
    by_cases hi : i ∈ indices
    · simp [hi, ha]
    · simp [hi, ha]
  known k named := by
    obtain ⟨a, dropped, rfl⟩ := List.mem_map.mp named
    obtain ⟨i, _, ha⟩ := mem_flatMap.mp dropped
    exact ⟨i, a, mem_of_mem_filter ha, rfl⟩
  once := (distinct.sub fun i => filter_sublist).flatMap_nodup nodup

/-- One element taken out by its position departs alone. -/
theorem Departed.erase [DecidableEq ι] {i : ι} {a : α} {position : Nat}
    (distinct : Distinct key lists) (found : (lists i)[position]? = some a)
    (here : later i = (lists i).eraseIdx position) (there : ∀ j, i ≠ j → later j = lists j) :
    Departed key lists later [key a] where
  gone j b hb := by
    obtain ⟨inside, rfl⟩ := List.getElem?_eq_some_iff.mp found
    rw [mem_singleton]
    by_cases same : i = j
    · subst j
      have single : (lists i).Nodup := (distinct.within i).of_map
      rw [here, mem_eraseIdx_iff_getElem]
      constructor
      · intro gone
        by_contra different
        obtain ⟨k, hk, rfl⟩ := getElem_of_mem hb
        exact gone ⟨k, hk, fun equal => different (by subst equal; rfl), rfl⟩
      · rintro equal ⟨k, hk, apart, rfl⟩
        have same := inj_on_of_nodup_map (distinct.within i) hb (getElem_mem inside) equal
        exact apart ((single.getElem_inj_iff).mp same)
    · rw [there j same]
      refine ⟨fun gone => absurd hb gone, fun equal => ?_⟩
      exact absurd (distinct.across j i b _ hb (getElem_mem inside) equal).symm same
  known k named := by
    rw [mem_singleton] at named
    subst k
    exact ⟨i, a, mem_of_getElem? found, rfl⟩
  once := nodup_singleton _

end Keyed
