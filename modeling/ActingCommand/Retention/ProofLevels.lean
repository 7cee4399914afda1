import Mathlib

/-!
# Eviction proofs in shared levels

The eviction proofs are a few immutable levels that the published copies share. A change adds a
level of its one proof and merges it into the levels before it while they are at most twice its
size.
-/

namespace Retention

abbrev Level (Artifact Proof : Type) := Finmap fun _ : Artifact => Proof

inductive ProofEvent (Artifact Proof : Type)
  | changed (artifact : Artifact) (proof : Proof)
  | published

variable {Artifact Proof : Type} [DecidableEq Artifact]

namespace ProofLevels

/-- The loop of `set` over the older levels, the newest first. A merge keeps the newer proof. -/
def mergeInto (newest : Level Artifact Proof) :
    List (Level Artifact Proof) → List (Level Artifact Proof)
  | [] => [newest]
  | older :: rest =>
    if 2 * newest.keys.card < older.keys.card then newest :: older :: rest
    else mergeInto (newest ∪ older) rest

variable (levels : List (Level Artifact Proof)) (artifact : Artifact)

def set (proof : Proof) : List (Level Artifact Proof) :=
  mergeInto (Finmap.singleton artifact proof) levels

def get : Option Proof := levels.findSome? (·.lookup artifact)

/-- The writer's levels and the copies published so far, after events with the newest first. -/
def run : List (ProofEvent Artifact Proof) →
    List (Level Artifact Proof) × List (List (Level Artifact Proof))
  | [] => ([], [])
  | .changed artifact proof :: earlier => (set (run earlier).1 artifact proof, (run earlier).2)
  | .published :: earlier => ((run earlier).1, (run earlier).1 :: (run earlier).2)

def lastProof : List (ProofEvent Artifact Proof) → Option Proof
  | [] => none
  | .changed other proof :: earlier => if other = artifact then some proof else lastProof earlier
  | .published :: earlier => lastProof earlier

def beforePublished : List (ProofEvent Artifact Proof) → List (List (ProofEvent Artifact Proof))
  | [] => []
  | .changed _ _ :: earlier => beforePublished earlier
  | .published :: earlier => earlier :: beforePublished earlier

def artifacts : List (ProofEvent Artifact Proof) → Finset Artifact
  | [] => ∅
  | .changed artifact _ :: earlier => insert artifact (artifacts earlier)
  | .published :: earlier => artifacts earlier

/-- Every level holds more than twice as many proofs as the next newer one. -/
def Spread : Prop := (0 :: levels.map (·.keys.card)).IsChain fun newer older => 2 * newer < older

variable {levels artifact} {newest : Level Artifact Proof}
  {events : List (ProofEvent Artifact Proof)}

lemma get_mergeInto :
    get (mergeInto newest levels) artifact = (newest.lookup artifact).or (get levels artifact) := by
  induction levels generalizing newest with
  | nil => cases found : newest.lookup artifact <;> simp [mergeInto, get, found]
  | cons older rest ih =>
    unfold mergeInto
    split
    · cases found : newest.lookup artifact <;> simp [get, found]
    rw [ih]
    by_cases inside : artifact ∈ newest
    · obtain ⟨proof, found⟩ := Option.isSome_iff_exists.mp (Finmap.lookup_isSome.mpr inside)
      simp [Finmap.lookup_union_left inside, found]
    · rw [Finmap.lookup_union_right inside, Finmap.lookup_eq_none.mpr inside]
      cases found : older.lookup artifact <;> simp [get, found]

lemma spread_mergeInto (spread : Spread levels) (holds : 0 < newest.keys.card) :
    Spread (mergeInto newest levels) := by
  induction levels generalizing newest with
  | nil => simpa [Spread, mergeInto] using holds
  | cons older rest ih =>
    obtain ⟨-, chain⟩ := List.isChain_cons_cons.mp spread
    unfold mergeInto
    split
    · exact .cons_cons (by omega) (.cons_cons ‹_› chain)
    · refine ih ?_ (holds.trans_le ?_)
      · cases rest with
        | nil => exact .singleton _
        | cons next rest =>
          obtain ⟨larger, chain⟩ := List.isChain_cons_cons.mp chain
          exact .cons_cons (by omega) chain
      · rw [Finmap.keys_union]
        exact Finset.card_le_card Finset.subset_union_left

/-- Sizes that more than double end in one over a power of two. -/
lemma two_pow_le {sizes : List Nat} {least : Nat}
    (chain : (least :: sizes).IsChain fun newer older => 2 * newer < older) :
    ∃ size ∈ least :: sizes, (least + 1) * 2 ^ sizes.length ≤ size + 1 := by
  induction sizes generalizing least with
  | nil => exact ⟨least, by simp⟩
  | cons next sizes ih =>
    obtain ⟨larger, chain⟩ := List.isChain_cons_cons.mp chain
    obtain ⟨size, listed, large⟩ := ih chain
    refine ⟨size, .tail _ listed, le_trans ?_ large⟩
    rw [List.length_cons, pow_succ', ← mul_assoc]
    exact Nat.mul_le_mul_right _ (by omega)

lemma get_run : get (run events).1 artifact = lastProof artifact events := by
  induction events with
  | nil => rfl
  | cons event earlier ih =>
    cases event with
    | published => exact ih
    | changed other proof =>
      simp only [run, set, get_mergeInto, ih, lastProof]
      split
      · rename_i same
        simp [same]
      · rename_i apart
        simp [Finmap.lookup_eq_none.mpr, Ne.symm apart]

lemma mem_artifacts (known : lastProof artifact events ≠ none) : artifact ∈ artifacts events := by
  induction events with
  | nil => exact absurd rfl known
  | cons event earlier ih =>
    cases event with
    | published => exact ih known
    | changed other proof =>
      by_cases same : other = artifact
      · simp [artifacts, same]
      · exact Finset.mem_insert_of_mem (ih (by simpa [lastProof, same] using known))

lemma spread_run : Spread (run events).1 := by
  induction events with
  | nil => exact .singleton _
  | cons event earlier ih =>
    cases event with
    | published => exact ih
    | changed artifact proof => exact spread_mergeInto ih (by simp)

lemma published_run :
    List.Forall₂ (fun copy before => ∀ artifact, get copy artifact = lastProof artifact before)
      (run events).2 (beforePublished events) := by
  induction events with
  | nil => exact .nil
  | cons event earlier ih =>
    cases event with
    | published => exact .cons (fun _ => get_run) ih
    | changed => exact ih

/-- The writer's set and each copy answer the last proof set before them; the levels double in size,
so there are at most logarithmically many. -/
theorem published_proofs (events : List (ProofEvent Artifact Proof)) :
    (∀ artifact, get (run events).1 artifact = lastProof artifact events) ∧
      List.Forall₂ (fun copy before => ∀ artifact, get copy artifact = lastProof artifact before)
        (run events).2 (beforePublished events) ∧
      Spread (run events).1 ∧ (run events).1.length ≤ (artifacts events).card.log2 + 1 := by
  refine ⟨fun _ => get_run, published_run, spread_run, ?_⟩
  obtain ⟨size, listed, large⟩ := two_pow_le (@spread_run _ _ _ events)
  have few : size ≤ (artifacts events).card := by
    rcases List.mem_cons.mp listed with rfl | listed
    · exact Nat.zero_le _
    · obtain ⟨level, member, rfl⟩ := List.mem_map.mp listed
      refine Finset.card_le_card fun artifact holds => mem_artifacts ?_
      rw [← get_run, get, ne_eq, List.findSome?_eq_none_iff]
      intro missing
      exact Finmap.lookup_eq_none.mp (missing level member) (Finmap.mem_keys.mp holds)
  have bound := (artifacts events).card.lt_log2_self
  rw [List.length_map, zero_add, one_mul] at large
  exact (Nat.pow_le_pow_iff_right (by decide)).mp (large.trans (by omega))

end ProofLevels

end Retention
