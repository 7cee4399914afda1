import Mathlib

/-!
# The members of a set on either side of a point

The greatest member of a set not after a point and the least one after it, each an option that
is empty when there is none, and the list of the newest members not after a point that a reader
accepts.
-/

namespace Nearest

open List

universe u v

variable {α : Type u} {β : Type v} [LinearOrder α] [LinearOrder β]

/-- The greatest member not after `now`. -/
def IsLatest (S : Set α) (now : α) : Option α → Prop
  | some a => IsGreatest {b ∈ S | b ≤ now} a
  | none => ∀ b ∈ S, now < b

/-- The least member after `now`. -/
def IsNext (S : Set α) (now : α) : Option α → Prop
  | some a => IsLeast {b ∈ S | now < b} a
  | none => ∀ b ∈ S, b ≤ now

variable {S : Set α} {now : α} {x y : Option α}

lemma le_latest_or_next_le {a b c : α} (latest : IsLatest S now (some a))
    (next : IsNext S now (some b)) (hc : c ∈ S) : c ≤ a ∨ b ≤ c := by
  rcases le_or_gt c now with h | h
  · exact Or.inl (latest.2 ⟨hc, h⟩)
  · exact Or.inr (next.2 ⟨hc, h⟩)

lemma IsLatest.unique (hx : IsLatest S now x) (hy : IsLatest S now y) : x = y := by
  cases x with
  | none =>
    cases y with
    | none => rfl
    | some b => exact absurd hy.1.2 (not_le_of_gt (hx b hy.1.1))
  | some a =>
    cases y with
    | none => exact absurd hx.1.2 (not_le_of_gt (hy a hx.1.1))
    | some b => exact congrArg some (hx.unique hy)

section Image

variable {R : α → β → Prop} (mono : ∀ {a a' b b'}, R a b → R a' b' → (a ≤ a' ↔ b ≤ b'))
variable {now' : β} (here : R now now')

include mono here

/-- The members on either side of a point, read on another scale that keeps the order. -/
theorem IsLatest.image (latest : IsLatest S now x) {y : Option β}
    (read : Option.Rel R x y) : IsLatest {b | ∃ a ∈ S, R a b} now' y := by
  cases read with
  | none =>
    rintro b ⟨a, ha, hab⟩
    exact lt_of_not_ge fun h => not_le_of_gt (latest a ha) ((mono hab here).mpr h)
  | some hab =>
    refine ⟨⟨⟨_, latest.1.1, hab⟩, (mono hab here).mp latest.1.2⟩, ?_⟩
    rintro b ⟨⟨a, ha, hb⟩, h⟩
    exact (mono hb hab).mp (latest.2 ⟨ha, (mono hb here).mpr h⟩)

lemma IsNext.image (next : IsNext S now x) {y : Option β}
    (read : Option.Rel R x y) : IsNext {b | ∃ a ∈ S, R a b} now' y := by
  cases read with
  | none =>
    rintro b ⟨a, ha, hab⟩
    exact (mono hab here).mp (next a ha)
  | some hab =>
    have after {a : α} {b : β} (h : R a b) : now < a ↔ now' < b := by
      rw [← not_le, ← not_le, mono h here]
    refine ⟨⟨⟨_, next.1.1, hab⟩, (after hab).mp next.1.2⟩, ?_⟩
    rintro b ⟨⟨a, ha, hb⟩, h⟩
    exact (mono hab hb).mp (next.2 ⟨ha, (after hb).mpr h⟩)

end Image

/-- The newest members not after `now`, the newest first and without a gap, for as long as
`read` accepts them and at most `limit` of them. -/
structure Newest (S : Set α) (now : α) (read : α → Bool) (limit : Nat) (found : List α) :
    Prop where
  descending : found.Pairwise (· > ·)
  member : ∀ a ∈ found, a ∈ S ∧ a ≤ now ∧ read a = true
  gapless : ∀ a ∈ found, ∀ b ∈ S, a ≤ b → b ≤ now → b ∈ found
  fits : found.length ≤ limit
  stops : found.length = limit ∨
    ∀ a, IsGreatest {b ∈ S | b ≤ now ∧ ∀ c ∈ found, b < c} a → read a = false

namespace Newest

variable {read : α → Bool} {limit : Nat} {found : List α} {a before : α}

lemma zero : Newest S now read 0 [] := ⟨.nil, by simp, by simp, Nat.le_refl _, Or.inl rfl⟩

lemma refused (latest : IsLatest S now x) (no : ∀ a, x = some a → read a = false) :
    Newest S now read limit [] := by
  refine ⟨.nil, by simp, by simp, Nat.zero_le _, Or.inr fun a h => no a ?_⟩
  refine latest.unique ⟨⟨h.1.1, h.1.2.1⟩, fun b hb => h.2 ⟨hb.1, hb.2, by simp⟩⟩

/-- The greatest member, and then the newest ones below it. -/
theorem cons (latest : IsLatest S now (some a)) (ok : read a = true)
    (below : ∀ b ∈ S, b < a ↔ b ≤ before) (rest : Newest S before read limit found) :
    Newest S now read (limit + 1) (a :: found) := by
  have lower {b : α} (hb : b ∈ found) : b < a := by
    obtain ⟨mem, le, -⟩ := rest.member b hb
    exact (below b mem).mpr le
  refine ⟨.cons (fun b hb => lower hb) rest.descending, ?_, ?_, Nat.succ_le_succ rest.fits, ?_⟩
  · intro b hb
    rcases mem_cons.mp hb with rfl | hb
    · exact ⟨latest.1.1, latest.1.2, ok⟩
    · obtain ⟨mem, -, ok⟩ := rest.member b hb
      exact ⟨mem, (lower hb).le.trans latest.1.2, ok⟩
  · intro b hb c hc above le
    rcases (latest.2 ⟨hc, le⟩).eq_or_lt with rfl | lt
    · exact mem_cons_self
    rcases mem_cons.mp hb with rfl | hb
    · exact absurd above (not_le_of_gt lt)
    · exact mem_cons_of_mem _ (rest.gapless b hb c hc above ((below c hc).mp lt))
  refine rest.stops.imp (congrArg Nat.succ) fun stops b h => stops b ?_
  have apart (b : α) (hb : b ∈ S) : (b ≤ now ∧ ∀ c ∈ a :: found, b < c) ↔
      b ≤ before ∧ ∀ c ∈ found, b < c := by
    rw [forall_mem_cons, below b hb]
    constructor
    · exact fun h => h.2
    · exact fun h => ⟨((below b hb).mpr h.1).le.trans latest.1.2, h⟩
  exact ⟨⟨h.1.1, (apart b h.1.1).mp h.1.2⟩, fun c hc => h.2 ⟨hc.1, (apart c hc.1).mpr hc.2⟩⟩

/-- The least member ends the list. -/
theorem single (latest : IsLatest S now (some a)) (ok : read a = true)
    (lowest : ∀ b ∈ S, a ≤ b) : Newest S now read (limit + 1) [a] := by
  refine ⟨pairwise_singleton _ _, ?_, ?_, Nat.succ_le_succ (Nat.zero_le _), Or.inr ?_⟩
  · intro b hb
    obtain rfl := mem_singleton.mp hb
    exact ⟨latest.1.1, latest.1.2, ok⟩
  · intro b hb c hc above le
    obtain rfl := mem_singleton.mp hb
    exact mem_singleton.mpr (le_antisymm (latest.2 ⟨hc, le⟩) above)
  · intro b h
    exact absurd (h.1.2.2 a mem_cons_self) (not_lt_of_ge (lowest b h.1.1))

end Newest

end Nearest
