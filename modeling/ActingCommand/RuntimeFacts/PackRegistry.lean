import ActingCommand.RuntimeFacts.Record

/-!
# Keys of the loaded-package table

Each entry of the loaded-package table has a runtime fact of its own, whose key names the entry:
a procedure's package, a prerequisite's package, or the startup package of an instance. The key is
read back as the entry it was built from.
-/

namespace RuntimeFacts

open Machine List Option Except String

def packRegistryFactPrefix : String := "host.pack_registry."

def packRegistryStartupFactKey : String := "host.pack_registry.startup"

def packRegistryPrerequisiteFactPrefix : String := "host.pack_registry.prerequisite."

/-- What stands behind the start of a text, if it starts so. -/
def stripPrefix (start text : String) : Option String :=
  if start.toList.isPrefixOf text.toList then
    some (ofList (text.toList.drop start.toList.length))
  else none

/-- An entry of the loaded-package table. -/
inductive PackRegistryFactKey
  | procedure (packageId : String)
  | startup (instanceId : InstanceId)
  | prerequisite (packageId : String)
deriving DecidableEq

def invalidKey : SanitizationError := ⟨.invalidRuntimeFactKey, "key"⟩

namespace PackRegistryFactKey

/-- Where the record of an entry applies. -/
def scope : PackRegistryFactKey → RuntimeFactScope
  | procedure _ | prerequisite _ => .runtime
  | startup instanceId => .instance instanceId

def packageIdText (key : String) : String :=
  (stripPrefix packRegistryPrerequisiteFactPrefix key <|>
    stripPrefix packRegistryFactPrefix key).getD ""

/-- The text of an entry's key. A procedure's package that would read back as a prerequisite is
refused. -/
def keyText : PackRegistryFactKey → Except SanitizationError String
  | procedure packageId =>
    if (stripPrefix "prerequisite." packageId).isSome then .error invalidKey
    else .ok (packRegistryFactPrefix ++ packageId)
  | startup _ => .ok packRegistryStartupFactKey
  | prerequisite packageId => .ok (packRegistryPrerequisiteFactPrefix ++ packageId)

/-- The key of an entry; a key that no runtime fact may have is refused. -/
def factKey (entry : PackRegistryFactKey) : Except SanitizationError String := do
  let key ← entry.keyText
  Call.failIf ((packageIdText key).isEmpty) invalidKey
  validateRuntimeFactKey key
  return key

/-- The entry that a record of this scope and key names. -/
def fromFact (scope : RuntimeFactScope) (key : String) :
    Except SanitizationError PackRegistryFactKey := do
  validateRuntimeFactKey key
  match stripPrefix packRegistryFactPrefix key with
  | none => .error invalidKey
  | some rest =>
    match scope with
    | .instance instanceId =>
      if key = packRegistryStartupFactKey then .ok (startup instanceId) else .error invalidKey
    | .runtime =>
      match stripPrefix "prerequisite." rest with
      | some packageId =>
        if ¬ packageId.isEmpty then .ok (prerequisite packageId) else .error invalidKey
      | none => if ¬ rest.isEmpty then .ok (procedure rest) else .error invalidKey

end PackRegistryFactKey

lemma stripPrefix_eq_some_iff {start text rest : String} :
    stripPrefix start text = some rest ↔ text = start ++ rest := by
  unfold stripPrefix
  constructor
  · intro stripped
    split at stripped
    · rename_i starts
      obtain ⟨more, isText⟩ := isPrefixOf_iff_prefix.mp starts
      rw [← isText, drop_left] at stripped
      obtain rfl := some.inj stripped
      rw [← toList_inj, toList_append, toList_ofList, isText]
    · cases stripped
  · rintro rfl
    rw [if_pos]
    · rw [toList_append, drop_left, ofList_toList]
    · rw [ isPrefixOf_iff_prefix, toList_append]
      exact prefix_append _ _

lemma stripPrefix_append (start rest : String) : stripPrefix start (start ++ rest) = some rest :=
  stripPrefix_eq_some_iff.mpr rfl

lemma append_left_cancel {start first second : String} (same : start ++ first = start ++ second) :
    first = second := by
  have stripped := stripPrefix_append start second
  rw [← same, stripPrefix_append] at stripped
  exact some.inj stripped

lemma prerequisiteFactPrefix_eq :
    packRegistryPrerequisiteFactPrefix = packRegistryFactPrefix ++ "prerequisite." := by
  decide

lemma startupFactKey_eq : packRegistryStartupFactKey = packRegistryFactPrefix ++ "startup" := by
  decide

namespace PackRegistryFactKey

/-- The texts that name an entry. -/
def Names (key : String) : PackRegistryFactKey → Prop
  | procedure packageId =>
    stripPrefix "prerequisite." packageId = none ∧ ¬ packageId.isEmpty ∧
      key = packRegistryFactPrefix ++ packageId
  | startup _ => key = packRegistryStartupFactKey
  | prerequisite packageId =>
    ¬ packageId.isEmpty ∧ key = packRegistryPrerequisiteFactPrefix ++ packageId

lemma packageIdText_procedure {packageId : String}
    (notPrerequisite : stripPrefix "prerequisite." packageId = none) :
    packageIdText (packRegistryFactPrefix ++ packageId) = packageId := by
  have other : stripPrefix packRegistryPrerequisiteFactPrefix
      (packRegistryFactPrefix ++ packageId) = none := by
    rw [eq_none_iff_forall_ne_some]
    intro rest stripped
    rw [stripPrefix_eq_some_iff, prerequisiteFactPrefix_eq, String.append_assoc] at stripped
    rw [append_left_cancel stripped, stripPrefix_append] at notPrerequisite
    cases notPrerequisite
  rw [packageIdText, other, stripPrefix_append]
  rfl

lemma packageIdText_prerequisite (packageId : String) :
    packageIdText (packRegistryPrerequisiteFactPrefix ++ packageId) = packageId := by
  rw [packageIdText, stripPrefix_append]
  rfl

lemma keyText_ok_iff {entry : PackRegistryFactKey} {key : String} :
    (entry.keyText = .ok key ∧ ¬ (packageIdText key).isEmpty) ↔ entry.Names key := by
  cases entry with
  | procedure packageId =>
    by_cases starts : stripPrefix "prerequisite." packageId = none
    · simp only [keyText, starts, Names, isSome_none, Bool.false_eq_true, if_false,
        ok.injEq, true_and]
      constructor
      · rintro ⟨rfl, some⟩
        rw [packageIdText_procedure starts] at some
        exact ⟨some, rfl⟩
      · rintro ⟨some, rfl⟩
        exact ⟨rfl, by rwa [packageIdText_procedure starts]⟩
    · simp [keyText, Names, starts, isSome_iff_ne_none]
  | startup instanceId =>
    simp only [keyText, Names, ok.injEq]
    constructor
    · rintro ⟨rfl, -⟩
      rfl
    · rintro rfl
      exact ⟨rfl, by decide⟩
  | prerequisite packageId =>
    simp only [keyText, Names, ok.injEq]
    constructor
    · rintro ⟨rfl, some⟩
      rw [packageIdText_prerequisite] at some
      exact ⟨some, rfl⟩
    · rintro ⟨some, rfl⟩
      exact ⟨rfl, by rwa [packageIdText_prerequisite]⟩

lemma factKey_ok_iff {entry : PackRegistryFactKey} {key : String} :
    entry.factKey = .ok key ↔ entry.Names key ∧ validateRuntimeFactKey key = .ok () := by
  unfold factKey
  simp only [bind_ok_iff, failIf_ok_iff]
  constructor
  · rintro ⟨text, isText, _, some, _, valid, same⟩
    cases same
    exact ⟨keyText_ok_iff.mp ⟨isText, some⟩, valid⟩
  · rintro ⟨names, valid⟩
    obtain ⟨isText, some⟩ := keyText_ok_iff.mpr names
    exact ⟨key, isText, (), some, (), valid, rfl⟩

lemma fromFact_ok_iff {scope} {key : String} {entry} :
    fromFact scope key = .ok entry ↔
      entry.scope = scope ∧ entry.Names key ∧ validateRuntimeFactKey key = .ok () := by
  unfold fromFact
  rw [bind_ok_iff]
  constructor
  · rintro ⟨_, valid, read⟩
    split at read
    · cases read
    rename_i rest stripped
    rw [stripPrefix_eq_some_iff] at stripped
    split at read
    · split at read
      · rename_i isStartup
        cases read
        exact ⟨rfl, isStartup, valid⟩
      · cases read
    split at read
    · rename_i packageId isRest
      rw [stripPrefix_eq_some_iff] at isRest
      split at read
      · rename_i some
        cases read
        refine ⟨rfl, ⟨some, ?_⟩, valid⟩
        rw [stripped, isRest, prerequisiteFactPrefix_eq, String.append_assoc]
      · cases read
    · rename_i notPrerequisite
      split at read
      · rename_i some
        cases read
        exact ⟨rfl, ⟨notPrerequisite, some, stripped⟩, valid⟩
      · cases read
  · rintro ⟨rfl, names, valid⟩
    refine ⟨(), valid, ?_⟩
    cases entry with
    | procedure packageId =>
      obtain ⟨notPrerequisite, some, rfl⟩ := names
      simp only [stripPrefix_append, scope, notPrerequisite]
      exact if_pos some
    | startup instanceId =>
      obtain rfl : key = packRegistryStartupFactKey := names
      rw [startupFactKey_eq, stripPrefix_append]
      exact if_pos startupFactKey_eq.symm
    | prerequisite packageId =>
      obtain ⟨some, rfl⟩ := names
      simp only [prerequisiteFactPrefix_eq, String.append_assoc, stripPrefix_append, scope]
      exact if_pos some

/-- The key of an entry, with its scope, reads back as the entry; what a scope and a key read as
has that key and scope; and so no two entries share a key and a scope. -/
theorem pack_registry_round_trip :
    (∀ (entry : PackRegistryFactKey) (key : String), entry.factKey = .ok key →
      fromFact entry.scope key = .ok entry) ∧
    (∀ (scope : RuntimeFactScope) (key : String) (entry : PackRegistryFactKey),
      fromFact scope key = .ok entry → entry.factKey = .ok key ∧ entry.scope = scope) ∧
    ∀ (first second : PackRegistryFactKey) (key : String), first.factKey = .ok key →
      second.factKey = .ok key → first.scope = second.scope → first = second := by
  have reads : ∀ (entry : PackRegistryFactKey) (key : String), entry.factKey = .ok key →
      fromFact entry.scope key = .ok entry := by
    intro entry key built
    obtain ⟨names, valid⟩ := factKey_ok_iff.mp built
    exact fromFact_ok_iff.mpr ⟨rfl, names, valid⟩
  refine ⟨reads, ?_, ?_⟩
  · intro scope key entry read
    obtain ⟨isScope, names, valid⟩ := fromFact_ok_iff.mp read
    exact ⟨factKey_ok_iff.mpr ⟨names, valid⟩, isScope⟩
  intro first second key firstBuilt secondBuilt sameScope
  have firstRead := reads first key firstBuilt
  rw [sameScope, reads second key secondBuilt] at firstRead
  exact (ok.inj firstRead).symm

lemma startup_factKey (instanceId : InstanceId) :
    (startup instanceId).factKey = .ok packRegistryStartupFactKey :=
  factKey_ok_iff.mpr ⟨rfl, by decide +kernel⟩

theorem pack_registry_round_trip_startup :
    fromFact (.instance ⟨1⟩) "host.pack_registry.startup" = .ok (startup ⟨1⟩) ∧
      fromFact .runtime "host.pack_registry.daily" = .ok (procedure "daily") ∧
      (prerequisite "daily").factKey = .ok "host.pack_registry.prerequisite.daily" ∧
      (prerequisite "daily").scope = .runtime := by
  obtain ⟨reads, back, -⟩ := pack_registry_round_trip
  exact ⟨reads (startup ⟨1⟩) packRegistryStartupFactKey (startup_factKey ⟨1⟩),
    reads (procedure "daily") _ (by decide +kernel), back _ _ _ (by decide +kernel)⟩

/-- The startup entries of two instances have one key; their scopes tell them apart. -/
theorem startup_keys_equal :
    ∃ (first second : PackRegistryFactKey) (key : String), first ≠ second ∧
      first.factKey = .ok key ∧ second.factKey = .ok key :=
  ⟨startup ⟨1⟩, startup ⟨2⟩, packRegistryStartupFactKey, by decide, startup_factKey ⟨1⟩,
    startup_factKey ⟨2⟩⟩

end PackRegistryFactKey

end RuntimeFacts
