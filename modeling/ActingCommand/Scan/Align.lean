import ActingCommand.GapClusters
import ActingCommand.Scan.Declaration

/-!
# The alignment of a viewport

A frame is placed against instances of known content coordinates. Every pair of a known and a
seen instance that agree across the axis, in identity and in colour proposes an offset; the
pairs are clustered along their offsets, and the median of the one consistent cluster inside the
motion's window is the frame's offset. The order of the two lists plays no part.
-/

namespace Scan

open GapClusters List Prod

/-- The mean colours of a rectangle's cells. -/
structure ColorDigest where
  columns : Nat
  rows : Nat
  cells : List (Nat × Nat × Nat)

namespace ColorDigest

def absDiff (a b : Nat) : Nat := (a - b) + (b - a)

/-- The mean distance of the cells of two digests in thousandths; two grids do not compare, and
neither do digests without cells. -/
def meanMilli (expected observed : ColorDigest) : Option Nat :=
  if expected.columns ≠ observed.columns ∨ expected.rows ≠ observed.rows then none
  else
    let distances := (expected.cells.zip observed.cells).map fun ((r, g, b), (r', g', b')) =>
      absDiff r r' + absDiff g g' + absDiff b b'
    if distances = [] then none
    else some (1000 * distances.sum / (expected.columns * expected.rows))

end ColorDigest

/-- A tracked instance with its signature, and the identity it read when it is actionable. -/
structure SignedInstance extends TrackedInstance where
  signature : ColorDigest
  identity : Option String

/-- One instance an alignment pairs against, in content coordinates. -/
structure Reference where
  axis : Int
  cross : Int
  signature : ColorDigest
  identity : Option String

/-- A known and a seen instance, by their places in their lists, and the offset they propose. -/
structure Pair where
  reference : Nat
  current : Nat
  offset : Int

inductive ScanAlignmentFailure
  | tooFewMatches
  | noConsistentShift
  | ambiguousShift
  | unexpectedDisplacement
deriving DecidableEq

structure AlignmentRejected where
  failure : ScanAlignmentFailure
  best : Nat
deriving DecidableEq

/-- Two known identities agree; an unknown one contradicts nothing. -/
def identitiesAgree : Option String → Option String → Bool
  | some kept, some read => kept == read
  | _, _ => true

/-- The pair of two instances, when they can be one. -/
def pairOf (geometry : ScanGeometry) (track : DeclaredTrack) (known : Reference × Nat)
    (seen : SignedInstance × Nat) : Option Pair :=
  if |known.1.cross - seen.1.rect.cross| > geometry.tolerance then none
  else if !identitiesAgree known.1.identity seen.1.identity then none
  else
    match known.1.signature.meanMilli seen.1.signature with
    | none => none
    | some mean =>
      if mean > track.signatureMaxDistanceMilli then none
      else some ⟨known.2, seen.2, known.1.axis - seen.1.rect.axis⟩

/-- The order of the pairs: by offset, then by the places of the instances. -/
def Pair.Le (a b : Pair) : Prop :=
  a.offset < b.offset ∨ a.offset = b.offset ∧
    (a.reference < b.reference ∨ a.reference = b.reference ∧ a.current ≤ b.current)

instance : DecidableRel Pair.Le :=
  fun a b => inferInstanceAs (Decidable (a.offset < b.offset ∨ a.offset = b.offset ∧
    (a.reference < b.reference ∨ a.reference = b.reference ∧ a.current ≤ b.current)))

instance : Std.Total Pair.Le where
  total a b := by
    simp only [Pair.Le]
    omega

instance : IsTrans Pair Pair.Le where
  trans a b c := by
    simp only [Pair.Le]
    omega

/-- Whether an offset lies in one of the window's closed intervals. -/
def inWindow (window : List (Int × Int)) (offset : Int) : Bool :=
  window.any fun interval => decide (interval.1 ≤ offset ∧ offset ≤ interval.2)

section Align

variable (geometry : ScanGeometry) (track : DeclaredTrack) (reference : List Reference)
  (region : Int × Int) (current : List SignedInstance)

def alignPairs : List Pair :=
  reference.zipIdx.flatMap fun known =>
    current.zipIdx.filterMap fun seen => pairOf geometry track known seen

/-- The clusters of the pairs: split where two neighbours lie more than one tolerance apart, then
merged where two medians lie within two. -/
def alignClusters : List (List Pair) :=
  merge Pair.offset (2 * geometry.tolerance)
    (split Pair.offset geometry.tolerance
      ((alignPairs geometry track reference current).insertionSort Pair.Le))

section

variable (window : List (Int × Int)) (cluster : List Pair)

/-- Every known instance the cluster's offset places inside the core is paired. -/
def referencesPaired : Bool :=
  reference.zipIdx.all fun known =>
    !geometry.inCore (known.1.axis - median Pair.offset cluster) ||
      decide (known.2 ∈ cluster.map Pair.reference)

/-- Every seen core instance the cluster's offset places inside the region is paired. -/
def currentsPaired : Bool :=
  current.zipIdx.all fun seen =>
    let content := seen.1.rect.axis + median Pair.offset cluster
    let referenced := decide (region.1 ≤ content ∧ content + geometry.extent ≤ region.2)
    !geometry.inCore seen.1.rect.axis || !referenced ||
      decide (seen.2 ∈ cluster.map Pair.current)

/-- No instance occurs twice, the pairs suffice and the overlap is matched completely. -/
def consistent : Bool :=
  decide (cluster.map Pair.reference).Nodup && decide (cluster.map Pair.current).Nodup &&
    decide (track.minOverlapInstances ≤ cluster.length) &&
    referencesPaired geometry reference cluster &&
    currentsPaired geometry region current cluster

/-- A consistent cluster whose offset lies inside the window. -/
def qualifies : Bool :=
  consistent geometry track reference region current cluster &&
    inWindow window (median Pair.offset cluster)

/-- A consistent cluster whose offset lies outside the window. -/
def displaced : Bool :=
  consistent geometry track reference region current cluster &&
    !inWindow window (median Pair.offset cluster)

/-- The content offset of the current frame, or why no single offset holds. -/
def align : Except AlignmentRejected Int :=
  let clusters := alignClusters geometry track reference current
  let best := ((clusters.map length).max?).getD 0
  match (clusters.filter (qualifies geometry track reference region current window)).map
      (median Pair.offset) with
  | [offset] => .ok offset
  | _ :: _ :: _ => .error ⟨.ambiguousShift, best⟩
  | [] =>
    if clusters.any (displaced geometry track reference region current window) then
      .error ⟨.unexpectedDisplacement, best⟩
    else if best < track.minOverlapInstances then .error ⟨.tooFewMatches, best⟩
    else .error ⟨.noConsistentShift, best⟩

end

end Align

/-! ## What an offset rests on -/

section Support

variable {geometry : ScanGeometry} {track : DeclaredTrack} {reference : List Reference}
  {region : Int × Int} {current : List SignedInstance} {window : List (Int × Int)} {offset : Int}

/-- The pairs in the order the clusters are built from. -/
theorem sortedPairs_ordered (pairs : List Pair) :
    (pairs.insertionSort Pair.Le).Pairwise fun a b => a.offset ≤ b.offset := by
  refine (pairwise_insertionSort Pair.Le pairs).imp fun {a b} order => ?_
  simp only [Pair.Le] at order
  omega

lemma alignClusters_flatten :
    (alignClusters geometry track reference current).flatten =
      (alignPairs geometry track reference current).insertionSort Pair.Le := by
  rw [alignClusters, flatten_merge]
  exact (built_split (Int.natCast_nonneg _) (sortedPairs_ordered _)).flatten

/-- Every cluster is a non-empty part of the sorted pairs. -/
theorem mem_alignClusters {cluster}
    (listed : cluster ∈ alignClusters geometry track reference current) :
    cluster ≠ [] ∧ (cluster.map Pair.offset).Pairwise (· ≤ ·) ∧
      ∀ pair ∈ cluster, pair ∈ alignPairs geometry track reference current := by
  have part : cluster.Sublist
      ((alignPairs geometry track reference current).insertionSort Pair.Le) := by
    rw [← alignClusters_flatten]
    exact sublist_flatten_of_mem listed
  refine ⟨?_, ?_, ?_⟩
  · exact merge_nonempty
      (built_split (Int.natCast_nonneg _) (sortedPairs_ordered _)).nonempty cluster listed
  · exact pairwise_map.mpr ((sortedPairs_ordered _).sublist part)
  · intro pair held
    exact (perm_insertionSort _ _).mem_iff.mp (part.subset held)

/-- The median of a cluster is its element in the middle, the lower one of two. -/
theorem median_mem {cluster} (nonempty : cluster ≠ []) :
    (cluster.map Pair.offset)[(cluster.length - 1) / 2]? = some (median Pair.offset cluster) := by
  have positive := length_pos_iff.mpr nonempty
  have bound : (cluster.length - 1) / 2 < cluster.length := by omega
  rw [median, getElem?_map, getElem?_eq_getElem bound]
  rfl

lemma referencesPaired_iff {cluster} :
    referencesPaired geometry reference cluster = true ↔
      ∀ i known, reference[i]? = some known →
        geometry.inCore (known.axis - median Pair.offset cluster) = true →
        ∃ pair ∈ cluster, pair.reference = i := by
  simp only [referencesPaired, all_eq_true, Bool.or_eq_true, Bool.not_eq_true',
    decide_eq_true_eq, Prod.forall, mem_zipIdx_iff_getElem?, mem_map]
  constructor
  · intro all i known held inCore
    rcases all known i held with outside | paired
    · rw [inCore] at outside
      cases outside
    · exact paired
  · intro all known i held
    cases inCore : geometry.inCore (known.axis - median Pair.offset cluster) with
    | false => exact .inl rfl
    | true => exact .inr (all i known held inCore)

lemma currentsPaired_iff {cluster} :
    currentsPaired geometry region current cluster = true ↔
      ∀ j seen, current[j]? = some seen → geometry.inCore seen.rect.axis = true →
        region.1 ≤ seen.rect.axis + median Pair.offset cluster →
        seen.rect.axis + median Pair.offset cluster + geometry.extent ≤ region.2 →
        ∃ pair ∈ cluster, pair.current = j := by
  simp only [currentsPaired, all_eq_true, Bool.or_eq_true, Bool.not_eq_true',
    decide_eq_true_eq, decide_eq_false_iff_not, Prod.forall, mem_zipIdx_iff_getElem?,
    mem_map]
  constructor
  · intro all j seen held inCore above below
    rcases all seen j held with (outside | unreferenced) | paired
    · rw [inCore] at outside
      cases outside
    · exact absurd ⟨above, below⟩ unreferenced
    · exact paired
  · intro all seen j held
    cases inCore : geometry.inCore seen.rect.axis with
    | false => exact .inl (.inl rfl)
    | true =>
      by_cases referenced : region.1 ≤ seen.rect.axis + median Pair.offset cluster ∧
          seen.rect.axis + median Pair.offset cluster + geometry.extent ≤ region.2
      · exact .inr (all j seen held inCore referenced.1 referenced.2)
      · exact .inl (.inr referenced)

/-- An offset is the median of exactly one cluster that qualifies. -/
theorem align_ok (aligned : align geometry track reference region current window = .ok offset) :
    ∃ before cluster after,
      alignClusters geometry track reference current = before ++ cluster :: after ∧
      offset = median Pair.offset cluster ∧
      qualifies geometry track reference region current window cluster = true ∧
      ∀ other ∈ before ++ after,
        qualifies geometry track reference region current window other = false := by
  unfold align at aligned
  simp only at aligned
  split at aligned
  · rename_i held found
    obtain ⟨cluster, only, rfl⟩ := map_eq_singleton_iff.mp found
    obtain ⟨before, after, shape, early, own, late⟩ := filter_eq_cons_iff.mp only
    refine ⟨before, cluster, after, shape, (Except.ok.inj aligned).symm, own, ?_⟩
    intro other listed
    rcases mem_append.mp listed with inBefore | inAfter
    · exact Bool.eq_false_iff.mpr (early other inBefore)
    · exact Bool.eq_false_iff.mpr (filter_eq_nil_iff.mp late other inAfter)
  · cases aligned
  · split at aligned
    · cases aligned
    split at aligned
    · cases aligned
    · cases aligned

lemma align_inWindow (aligned : align geometry track reference region current window = .ok offset) :
    inWindow window offset = true := by
  obtain ⟨-, cluster, -, -, rfl, own, -⟩ := align_ok aligned
  exact (Bool.and_eq_true_iff.mp own).2

end Support

/-! ## Renamed instances -/

/-- The places of a permuted list are those of the list under an injective renaming. -/
theorem exists_renaming {α : Type} {before after : List α} (same : before.Perm after) :
    ∃ f : Nat → Nat, f.Injective ∧
      (before.zipIdx.map (Prod.map id f)).Perm after.zipIdx := by
  induction same with
  | nil => exact ⟨id, Function.injective_id, .refl _⟩
  | @cons head before after _ ih =>
    obtain ⟨f, injective, perm⟩ := ih
    refine ⟨fun | 0 => 0 | i + 1 => f i + 1, ?_, ?_⟩
    · rintro (_ | i) (_ | j) equal
      · rfl
      · cases equal
      · cases equal
      · rw [injective (Nat.succ_injective equal)]
    · have shifted := perm.map fun (entry, i) => (entry, i + 1)
      rw [List.map_map] at shifted
      rw [zipIdx_cons, zipIdx_cons, map_cons, zipIdx_succ, zipIdx_succ, List.map_map]
      exact .cons _ shifted
  | swap x y rest =>
    refine ⟨fun i => if i = 0 then 1 else if i = 1 then 0 else i, ?_, ?_⟩
    · intro i j equal
      simp only at equal
      split_ifs at equal <;> omega
    have kept : (rest.zipIdx 2).map (Prod.map id fun i =>
        if i = 0 then 1 else if i = 1 then 0 else i) = rest.zipIdx 2 := by
      refine (map_congr_left fun entry listed => ?_).trans (List.map_id _)
      have := le_snd_of_mem_zipIdx listed
      exact Prod.ext rfl (by simp only [Prod.map_snd, id]; split_ifs <;> omega)
    simp only [zipIdx_cons, map_cons, kept]
    exact .swap _ _ _
  | trans _ _ first second =>
    obtain ⟨f, injectiveF, permF⟩ := first
    obtain ⟨g, injectiveG, permG⟩ := second
    refine ⟨g ∘ f, injectiveG.comp injectiveF, ?_⟩
    have composed := (permF.map (Prod.map id g)).trans permG
    rwa [List.map_map] at composed

def Pair.rename (f g : Nat → Nat) (pair : Pair) : Pair :=
  ⟨f pair.reference, g pair.current, pair.offset⟩

section Renaming

variable {geometry : ScanGeometry} {track : DeclaredTrack} {reference reference' : List Reference}
  {region : Int × Int} {current current' : List SignedInstance} {f g : Nat → Nat}

lemma alignPairs_rename (references : (reference.zipIdx.map (map id f)).Perm reference'.zipIdx)
    (currents : (current.zipIdx.map (map id g)).Perm current'.zipIdx) :
    ((alignPairs geometry track reference current).map (Pair.rename f g)).Perm
      (alignPairs geometry track reference' current') := by
  rw [alignPairs, alignPairs, map_flatMap]
  refine Perm.trans ?_ (references.flatMap_right _)
  rw [flatMap_map]
  refine Perm.flatMap_left _ fun known _ => ?_
  refine Perm.trans (.of_eq ?_) (currents.filterMap _)
  rw [filterMap_map, map_filterMap]
  refine filterMap_congr fun seen _ => ?_
  simp only [pairOf, Function.comp_apply, map_fst, map_snd, id]
  repeat' split
  all_goals rfl

/-- Two clusters with the same offsets in order and the same pairs under other names. -/
structure Renamed (f g : Nat → Nat) (cluster other : List Pair) : Prop where
  offsets : cluster.map Pair.offset = other.map Pair.offset
  perm : (cluster.map (Pair.rename f g)).Perm other

lemma Renamed.append {left right left' right'} (first : Renamed f g left right)
    (second : Renamed f g left' right') : Renamed f g (left ++ left') (right ++ right') where
  offsets := by rw [map_append, map_append, first.offsets, second.offsets]
  perm := by
    rw [map_append]
    exact first.perm.append second.perm

/-- Sorted, renamed pairs propose the same offsets in the same order. -/
theorem renamed_sorted {pairs other : List Pair} (perm : (pairs.map (Pair.rename f g)).Perm other) :
    Renamed f g (pairs.insertionSort Pair.Le) (other.insertionSort Pair.Le) := by
  have same : ((pairs.insertionSort Pair.Le).map (Pair.rename f g)).Perm
      (other.insertionSort Pair.Le) :=
    ((perm_insertionSort _ pairs).map _).trans
      (perm.trans (perm_insertionSort _ other).symm)
  refine ⟨?_, same⟩
  have offsets := same.map Pair.offset
  rw [List.map_map] at offsets
  exact offsets.eq_of_pairwise (fun _ _ _ _ => le_antisymm)
    (pairwise_map.mpr (sortedPairs_ordered pairs))
    (pairwise_map.mpr (sortedPairs_ordered other))

/-- The split sees only the offsets, so it parts renamed pairs alike. -/
theorem split_renamed {gap : Int} (spread : 0 ≤ gap) {pairs other}
    (ordered : pairs.Pairwise fun a b => a.offset ≤ b.offset)
    (otherOrdered : other.Pairwise fun a b => a.offset ≤ b.offset)
    (renamed : Renamed f g pairs other) :
    Forall₂ (Renamed f g) (split Pair.offset gap pairs) (split Pair.offset gap other) := by
  rw [split_eq_filter spread ordered, split_eq_filter spread otherOrdered, ← renamed.offsets,
    forall₂_map_left_iff, forall₂_map_right_iff, forall₂_same]
  intro keys _
  constructor
  · have parted := congrArg (filter (fun offset => decide (offset ∈ keys))) renamed.offsets
    rw [filter_map, filter_map] at parted
    exact parted
  · have parted := renamed.perm.filter fun pair => decide (pair.offset ∈ keys)
    rw [filter_map] at parted
    exact parted

/-! ## Renamed clusters qualify alike -/

namespace Renamed

variable {cluster other : List Pair}

lemma median_eq (renamed : Renamed f g cluster other) :
    median Pair.offset cluster = median Pair.offset other :=
  median_congr renamed.offsets

lemma length_eq (renamed : Renamed f g cluster other) : cluster.length = other.length := by
  simpa using renamed.perm.length_eq

lemma references (renamed : Renamed f g cluster other) :
    ((cluster.map Pair.reference).map f).Perm (other.map Pair.reference) := by
  have perm := renamed.perm.map Pair.reference
  rw [List.map_map] at perm ⊢
  exact perm

lemma currents (renamed : Renamed f g cluster other) :
    ((cluster.map Pair.current).map g).Perm (other.map Pair.current) := by
  have perm := renamed.perm.map Pair.current
  rw [List.map_map] at perm ⊢
  exact perm

end Renamed

lemma consistent_renamed (injectiveF : f.Injective) (injectiveG : g.Injective)
    (references : (reference.zipIdx.map (map id f)).Perm reference'.zipIdx)
    (currents : (current.zipIdx.map (map id g)).Perm current'.zipIdx)
    {cluster other} (renamed : Renamed f g cluster other) :
    consistent geometry track reference region current cluster =
      consistent geometry track reference' region current' other := by
  have nodupReferences : (cluster.map Pair.reference).Nodup ↔ (other.map Pair.reference).Nodup := by
    rw [← renamed.references.nodup_iff, nodup_map_iff injectiveF]
  have nodupCurrents : (cluster.map Pair.current).Nodup ↔ (other.map Pair.current).Nodup := by
    rw [← renamed.currents.nodup_iff, nodup_map_iff injectiveG]
  have pairedReferences : referencesPaired geometry reference cluster =
      referencesPaired geometry reference' other := by
    rw [referencesPaired, referencesPaired, ← references.all_eq, all_map, renamed.median_eq]
    refine congrArg (reference.zipIdx.all ·) (funext fun known => ?_)
    simp only [Function.comp_apply, map_fst, map_snd, id,
      ← renamed.references.mem_iff, mem_map_of_injective injectiveF]
  have pairedCurrents : currentsPaired geometry region current cluster =
      currentsPaired geometry region current' other := by
    rw [currentsPaired, currentsPaired, ← currents.all_eq, all_map, renamed.median_eq]
    refine congrArg (current.zipIdx.all ·) (funext fun seen => ?_)
    simp only [Function.comp_apply, map_fst, map_snd, id,
      ← renamed.currents.mem_iff, mem_map_of_injective injectiveG]
  simp [consistent, nodupReferences, nodupCurrents, renamed.length_eq, pairedReferences,
    pairedCurrents]

end Renaming

/-! ## The result does not depend on the order of the lists -/

lemma map_filter_eq_of_forall₂ {α β γ : Type} {R p q} {m : α → γ} {n : β → γ}
    (agree : ∀ a b, R a b → p a = q b ∧ m a = n b) {lefts : List α} {rights : List β}
    (related : Forall₂ R lefts rights) : (lefts.filter p).map m = (rights.filter q).map n := by
  induction related with
  | nil => rfl
  | cons head _ ih =>
    obtain ⟨same, value⟩ := agree _ _ head
    rw [filter_cons, filter_cons, same]
    split
    · rw [map_cons, map_cons, value, ih]
    · exact ih

lemma any_eq_of_forall₂ {α β : Type} {R p q} (agree : ∀ a b, R a b → p a = q b) {lefts : List α}
    {rights : List β} (related : Forall₂ R lefts rights) : lefts.any p = rights.any q := by
  induction related with
  | nil => rfl
  | cons head _ ih => rw [any_cons, any_cons, agree _ _ head, ih]

section Order

variable {geometry : ScanGeometry} {track : DeclaredTrack} {reference reference' : List Reference}
  {region : Int × Int} {current current' : List SignedInstance} {window : List (Int × Int)}

lemma align_perm (references : reference.Perm reference') (currents : current.Perm current') :
    align geometry track reference region current window =
      align geometry track reference' region current' window := by
  obtain ⟨f, injectiveF, permF⟩ := exists_renaming references
  obtain ⟨g, injectiveG, permG⟩ := exists_renaming currents
  have related : Forall₂ (Renamed f g) (alignClusters geometry track reference current)
      (alignClusters geometry track reference' current') :=
    merge_related (fun _ _ renamed => renamed.offsets) (fun _ _ _ _ => Renamed.append)
      (split_renamed (Int.natCast_nonneg _) (sortedPairs_ordered _) (sortedPairs_ordered _)
        (renamed_sorted (alignPairs_rename permF permG)))
  have alike : ∀ cluster other, Renamed f g cluster other →
      consistent geometry track reference region current cluster =
        consistent geometry track reference' region current' other :=
    fun _ _ renamed => consistent_renamed injectiveF injectiveG permF permG renamed
  have lengths : (alignClusters geometry track reference current).map length =
      (alignClusters geometry track reference' current').map length := by
    have kept := map_filter_eq_of_forall₂ (p := fun _ => true) (q := fun _ => true)
      (fun _ _ renamed => ⟨rfl, renamed.length_eq⟩) related
    simpa only [filter_true] using kept
  have inside : ((alignClusters geometry track reference current).filter
        (qualifies geometry track reference region current window)).map (median Pair.offset) =
      ((alignClusters geometry track reference' current').filter
        (qualifies geometry track reference' region current' window)).map (median Pair.offset) :=
    map_filter_eq_of_forall₂ (fun cluster other renamed =>
      ⟨by rw [qualifies, qualifies, alike _ _ renamed, renamed.median_eq],
        renamed.median_eq⟩) related
  have outside : (alignClusters geometry track reference current).any
        (displaced geometry track reference region current window) =
      (alignClusters geometry track reference' current').any
        (displaced geometry track reference' region current' window) :=
    any_eq_of_forall₂ (fun cluster other renamed => by
      rw [displaced, displaced, alike _ _ renamed, renamed.median_eq]) related
  simp [align, lengths, inside, outside]

end Order

/-- An offset lies in the window and is the median of a cluster of pairs in which no instance
occurs twice, that pairs every known instance the offset places in the core and every seen core
instance it places in the region, that has the minimum of pairs, and that alone qualifies; and
offset and failure are the same for every order of the two lists. -/
theorem alignment_sound_and_order_free (geometry : ScanGeometry) (track : DeclaredTrack)
    (reference : List Reference) (region : Int × Int) (current : List SignedInstance)
    (window : List (Int × Int)) :
    (∀ offset, align geometry track reference region current window = .ok offset →
      inWindow window offset = true ∧
      ∃ before cluster after,
        alignClusters geometry track reference current = before ++ cluster :: after ∧
        (∀ pair ∈ cluster, pair ∈ alignPairs geometry track reference current) ∧
        (cluster.map Pair.offset).Pairwise (· ≤ ·) ∧
        (cluster.map Pair.offset)[(cluster.length - 1) / 2]? = some offset ∧
        (cluster.map Pair.reference).Nodup ∧ (cluster.map Pair.current).Nodup ∧
        (∀ i known, reference[i]? = some known → geometry.inCore (known.axis - offset) = true →
          ∃ pair ∈ cluster, pair.reference = i) ∧
        (∀ j seen, current[j]? = some seen → geometry.inCore seen.rect.axis = true →
          region.1 ≤ seen.rect.axis + offset →
          seen.rect.axis + offset + geometry.extent ≤ region.2 →
          ∃ pair ∈ cluster, pair.current = j) ∧
        track.minOverlapInstances ≤ cluster.length ∧
        ∀ other ∈ before ++ after,
          qualifies geometry track reference region current window other = false) ∧
    ∀ reference' current', reference.Perm reference' → current.Perm current' →
      align geometry track reference' region current' window =
        align geometry track reference region current window := by
  constructor
  · intro offset aligned
    obtain ⟨before, cluster, after, shape, rfl, own, others⟩ := align_ok aligned
    have listed : cluster ∈ alignClusters geometry track reference current := by
      rw [shape]
      exact mem_append_right _ mem_cons_self
    obtain ⟨nonempty, ascending, pairs⟩ := mem_alignClusters listed
    obtain ⟨holds, inside⟩ := Bool.and_eq_true_iff.mp own
    simp only [consistent, Bool.and_eq_true, decide_eq_true_eq] at holds
    obtain ⟨⟨⟨⟨references, currents⟩, enough⟩, known⟩, seen⟩ := holds
    exact ⟨inside, before, cluster, after, shape, pairs, ascending, median_mem nonempty, references,
      currents, referencesPaired_iff.mp known, currentsPaired_iff.mp seen, enough, others⟩
  · intro reference' current' references currents
    exact (align_perm references currents).symm

namespace Sample

/-- Rows of 60 pixels in a frame of 720, tracked by one cell of colour with a pixel of jitter. -/
def rowTrack : DeclaredTrack where
  area := ⟨0, 0, 1280, 720⟩
  edgeMarginPx := 2
  signature := ⟨⟨0, 0, 80, 60⟩, 1, 1⟩
  signatureMaxDistanceMilli := 2000
  positionTolerancePx := 1
  minOverlapInstances := 2
  spacing := ⟨100, 1, 100, 100, 100⟩

def rowGeometry : ScanGeometry := ⟨⟨0, 720, 0, 1280⟩, (2, 718), ⟨0, 720, 0, 1280⟩, 60, 1⟩

def rowDigest (shade : Nat) : ColorDigest := ⟨1, 1, [(shade, shade, shade)]⟩

/-- Two known rows, 80 pixels apart. -/
def knownRows : List Reference :=
  [⟨200, 0, rowDigest 3, some "member-a"⟩, ⟨280, 0, rowDigest 9, some "member-b"⟩]

/-- The two rows 100 pixels further up, the second one a pixel off and read without identity. -/
def seenRows : List SignedInstance :=
  [⟨⟨⟨100, 60, 0, 80⟩, true, ∅⟩, rowDigest 3, some "member-a"⟩,
    ⟨⟨⟨181, 60, 1, 80⟩, true, ∅⟩, rowDigest 9, none⟩]

/-- The two rows align at the lower of their two offsets, whatever order they are listed in. -/
theorem rows_align :
    align rowGeometry rowTrack knownRows (0, 720) seenRows [(0, 200)] = .ok 99 ∧
      inWindow [(0, 200)] 99 = true ∧
      align rowGeometry rowTrack knownRows.reverse (0, 720) seenRows [(0, 200)] = .ok 99 := by
  have aligned : align rowGeometry rowTrack knownRows (0, 720) seenRows [(0, 200)] = .ok 99 := by
    decide +kernel
  obtain ⟨offset, order⟩ := alignment_sound_and_order_free rowGeometry rowTrack knownRows (0, 720)
    seenRows [(0, 200)]
  exact ⟨aligned, (offset 99 aligned).1,
    (order _ _ (reverse_perm _).symm (.refl _)).trans aligned⟩

end Sample

end Scan
