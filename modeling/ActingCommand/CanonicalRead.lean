import ActingCommand.Call
import ActingCommand.CanonicalJson

/-!
# Reading canonical JSON

A document becomes a canonical value as the text reader visits it: its integers in the safe range,
no floating point number and no key twice in an object, whose members are kept in the order of
their keys. Reading forgets the order of the members, and the canonical bytes forget nothing else.
The text reader and the writer of strings are parameters.
-/

namespace CanonicalJson

open List Except

/-! ## Canonical values -/

/-- Every object of the value is a map: its keys ascend. -/
inductive Ordered : JsonValue → Prop
  | null : Ordered .null
  | boolean (value : Bool) : Ordered (.boolean value)
  | integer (value : Int) : Ordered (.integer value)
  | text (value : String) : Ordered (.text value)
  | array {items : List JsonValue} (each : ∀ item ∈ items, Ordered item) : Ordered (.array items)
  | object {entries : List (String × JsonValue)} (ascending : entries.Pairwise fun a b => a.1 < b.1)
      (each : ∀ entry ∈ entries, Ordered entry.2) : Ordered (.object entries)

@[ext] structure CanonicalValue where
  json : JsonValue
  ordered : Ordered json

def CanonicalValue.write (quote : String → List Char) (value : CanonicalValue) : ByteArray :=
  (value.json.write quote).toUTF8

lemma ascending_unique {α : Type} {entries others : List (String × α)}
    (perm : entries.Perm others) (ascending : entries.Pairwise fun a b => a.1 < b.1)
    (ascending' : others.Pairwise fun a b => a.1 < b.1) : entries = others :=
  perm.eq_of_pairwise (fun _ _ _ _ below above => absurd (below.trans above) (lt_irrefl _))
    ascending ascending'

lemma eq_of_map_eq {α β : Type} {f : α → β} {items others : List α}
    (apart : ∀ a ∈ items, ∀ b ∈ others, f a = f b → a = b)
    (same : items.map f = others.map f) : items = others := by
  induction items generalizing others with
  | nil => simpa [eq_comm] using same
  | cons item rest ih =>
    obtain ⟨other, others, rfl, first, later⟩ := map_eq_cons_iff.mp same.symm
    rw [apart item (by simp) other (by simp) first.symm,
      ih (fun a ha b hb => apart a (by simp [ha]) b (by simp [hb])) later.symm]

/-- Two maps with the same canonical form are one. -/
theorem Ordered.eq_of_normal {value other : JsonValue} (ordered : Ordered value)
    (ordered' : Ordered other) (same : value.normal = other.normal) : value = other := by
  induction ordered generalizing other with
  | null | boolean | integer | text => cases ordered' <;> simp_all [JsonValue.normal]
  | @array items each ih =>
    cases ordered' with
    | @array others each' =>
      simp only [JsonValue.normal, normalItems_eq, JsonValue.array.injEq] at same ⊢
      exact eq_of_map_eq (fun item listed other listed' =>
        ih item listed (each' other listed')) same
    | _ => simp [JsonValue.normal] at same
  | @object entries ascending each ih =>
    cases ordered' with
    | @object others ascending' each' =>
      have members := ascending_unique (normal_object_perm same) (pairwise_map.mpr ascending)
        (pairwise_map.mpr ascending')
      refine congrArg _ (eq_of_map_eq (fun entry listed other listed' same => ?_) members)
      obtain ⟨key, value⟩ := Prod.mk.inj same
      exact Prod.ext key (ih entry listed (each' other listed') value)
    | _ => simp [JsonValue.normal] at same

/-! ## The visitor -/

/-- A document as the text reader visits it, the members of an object in the order of the text. A
floating point number is kept as it prints, and what cannot be read as the reader's complaint. -/
inductive Document
  | unit
  | bool (value : Bool)
  | i64 (value : Int)
  | u64 (value : Nat)
  | f64 (printed : String)
  | str (value : String)
  | seq (items : List Document)
  | map (members : List (String × Document))
  | broken (message : String)

variable (message : String) (entry : String × JsonValue) (entries : List (String × JsonValue))

/-- The keys of an object in ascending order. -/
def insertEntry : List (String × JsonValue) :=
  entries.orderedInsert (fun a b => a.1 ≤ b.1) entry

mutual

def visit : Document → Except String JsonValue
  | .unit => .ok .null
  | .bool value => .ok (.boolean value)
  | .i64 value =>
    if safeInteger value then .ok (.integer value)
    else .error s!"`{value}` is outside the safe integer range"
  | .u64 value =>
    if (value : Int) ≤ safeIntegerMax then .ok (.integer value)
    else .error s!"`{value}` is outside the safe integer range"
  | .f64 printed => .error s!"`{printed}` is a floating point number"
  | .str value => .ok (.text value)
  | .seq items => (visitSeq items).map .array
  | .map members => (visitMap members []).map .object
  | .broken message => .error message

def visitSeq : List Document → Except String (List JsonValue)
  | [] => .ok []
  | item :: rest => do
    let value ← visit item
    let values ← visitSeq rest
    .ok (value :: values)

def visitMap : List (String × Document) → List (String × JsonValue) →
    Except String (List (String × JsonValue))
  | [], entries => .ok entries
  | (key, document) :: rest, entries => do
    let value ← visit document
    if key ∈ entries.map (·.1) then .error s!"duplicate object key `{key}`"
    else visitMap rest (insertEntry (key, value) entries)

end

lemma insertEntry_perm : (insertEntry entry entries).Perm (entry :: entries) :=
  perm_orderedInsert _ _ _

lemma insertEntry_ascending {key : String} {value entries}
    (ascending : entries.Pairwise fun a b => a.1 < b.1) (new : key ∉ entries.map (·.1)) :
    (insertEntry (key, value) entries).Pairwise fun a b => a.1 < b.1 := by
  induction entries with
  | nil => simp [insertEntry]
  | cons first rest ih =>
    simp only [map_cons, mem_cons, not_or] at new
    rw [pairwise_cons] at ascending
    rw [insertEntry, orderedInsert_cons]
    split
    · rename_i below
      have below : key < first.1 := lt_of_le_of_ne below new.1
      exact pairwise_cons.mpr ⟨fun entry listed => (mem_cons.mp listed).elim
        (fun same => same ▸ below) fun listed => below.trans (ascending.1 entry listed),
        pairwise_cons.mpr ascending⟩
    rename_i above
    refine pairwise_cons.mpr ⟨fun entry listed => ?_, ih ascending.2 new.2⟩
    rcases mem_cons.mp ((insertEntry_perm _ _).subset listed) with rfl | listed
    · exact not_le.mp above
    · exact ascending.1 entry listed

/-- What the visitor makes of a member. -/
def Decodes (member : String × Document) (entry : String × JsonValue) : Prop :=
  member.1 = entry.1 ∧ visit member.2 = .ok entry.2

/-- An object is read as the map of its members, if no key comes twice. -/
theorem visitMap_ok_iff {members : List (String × Document)}
    {before entries} (sorted : before.Pairwise fun a b => a.1 < b.1) :
    visitMap members before = .ok entries ↔ ∃ decoded, List.Forall₂ Decodes members decoded ∧
      entries.Perm (decoded ++ before) ∧ entries.Pairwise fun a b => a.1 < b.1 := by
  induction members generalizing before with
  | nil =>
    simp only [visitMap, ok.injEq, List.forall₂_nil_left_iff, exists_eq_left, nil_append]
    constructor
    · rintro rfl
      exact ⟨.refl _, sorted⟩
    · rintro ⟨perm, ascending⟩
      exact ascending_unique perm.symm sorted ascending
  | cons member rest ih =>
    obtain ⟨key, document⟩ := member
    simp only [visitMap, bind_ok_iff, List.forall₂_cons_left_iff]
    constructor
    · rintro ⟨value, first, later⟩
      split at later
      · cases later
      rename_i new
      obtain ⟨decoded, each, perm, ascending⟩ := (ih (insertEntry_ascending sorted new)).mp later
      refine ⟨_, ⟨(key, value), decoded, ⟨rfl, first⟩, each, rfl⟩, ?_, ascending⟩
      exact perm.trans ((List.Perm.append_left _ (insertEntry_perm _ _)).trans
        perm_middle)
    · rintro ⟨_, ⟨⟨_, value⟩, decoded, ⟨rfl, first⟩, each, rfl⟩, perm, ascending⟩
      have distinct := ((perm.map Prod.fst).nodup_iff.mp
        (pairwise_map.mpr (ascending.imp ne_of_lt)))
      have new : key ∉ before.map (·.1) := by
        simp only [cons_append, map_cons, map_append, nodup_cons, mem_append, not_or] at distinct
        exact distinct.1.2
      refine ⟨value, first, ?_⟩
      rw [if_neg new]
      refine (ih (insertEntry_ascending sorted new)).mpr ⟨decoded, each, ?_, ascending⟩
      exact perm.trans (perm_middle.symm.trans
        (List.Perm.append_left _ (insertEntry_perm _ _).symm))

lemma map_ok_iff {ε α β : Type} {x : Except ε α} {f : α → β} {b : β} :
    x.map f = .ok b ↔ ∃ a, x = .ok a ∧ f a = b := by
  cases x <;> simp [Except.map]

lemma visitMap_ascending {members} {entries}
    (answer : visitMap members [] = .ok entries) : entries.Pairwise fun a b => a.1 < b.1 := by
  obtain ⟨_, _, _, ascending⟩ := (visitMap_ok_iff List.Pairwise.nil).mp answer
  exact ascending

mutual

/-- What the visitor answers is a canonical value. -/
theorem visit_ordered {document : Document} {value}
    (answer : visit document = .ok value) : Ordered value := by
  cases document with
  | unit | bool | str => cases answer; constructor
  | f64 | broken => cases answer
  | i64 | u64 =>
    simp only [visit] at answer
    split at answer <;> cases answer
    constructor
  | seq items =>
    obtain ⟨values, visited, rfl⟩ := map_ok_iff.mp answer
    exact .array (visitSeq_ordered visited)
  | map members =>
    obtain ⟨entries, visited, rfl⟩ := map_ok_iff.mp answer
    exact .object (visitMap_ascending visited) (visitMap_ordered visited (by simp))

lemma visitSeq_ordered {items} {values}
    (answer : visitSeq items = .ok values) : ∀ value ∈ values, Ordered value := by
  cases items with
  | nil => cases answer; simp
  | cons item rest =>
    simp only [visitSeq, bind_ok_iff, ok.injEq] at answer
    obtain ⟨value, first, values, later, rfl⟩ := answer
    exact forall_mem_cons.mpr ⟨visit_ordered first, visitSeq_ordered later⟩

lemma visitMap_ordered {members before entries} (answer : visitMap members before = .ok entries)
    (each : ∀ entry ∈ before, Ordered entry.2) : ∀ entry ∈ entries, Ordered entry.2 := by
  cases members with
  | nil => cases answer; exact each
  | cons member rest =>
    obtain ⟨key, document⟩ := member
    simp only [visitMap, bind_ok_iff] at answer
    obtain ⟨value, first, later⟩ := answer
    split at later
    · cases later
    refine visitMap_ordered later fun entry listed => ?_
    rcases mem_cons.mp ((insertEntry_perm _ _).subset listed) with rfl | listed
    · exact visit_ordered first
    · exact each entry listed

end

/-! ## Documents that differ in the order of their members -/

/-- The members of any objects in another order. -/
inductive Reordered : Document → Document → Prop
  | refl (document : Document) : Reordered document document
  | trans {a b c : Document} : Reordered a b → Reordered b c → Reordered a c
  | members {a b : List (String × Document)} : a.Perm b → Reordered (.map a) (.map b)
  | item {a b : Document} (front back : List Document) :
      Reordered a b → Reordered (.seq (front ++ a :: back)) (.seq (front ++ b :: back))
  | member {a b : Document} (front back : List (String × Document)) (key : String) :
      Reordered a b → Reordered (.map (front ++ (key, a) :: back))
        (.map (front ++ (key, b) :: back))

lemma visit_map_perm {a b} {value : JsonValue} (perm : a.Perm b)
    (answer : visit (.map a) = .ok value) : visit (.map b) = .ok value := by
  simp only [visit, map_ok_iff, visitMap_ok_iff List.Pairwise.nil] at answer ⊢
  obtain ⟨entries, ⟨decoded, each, same, ascending⟩, rfl⟩ := answer
  obtain ⟨others, each, perm⟩ := List.perm_comp_forall₂ perm.symm each
  exact ⟨entries, ⟨others, each, same.trans (perm.symm.append_right []), ascending⟩, rfl⟩

/-- Reading forgets the order of the members. -/
theorem Reordered.visit_eq {a b : Document} (reordered : Reordered a b) {value} :
    visit a = .ok value ↔ visit b = .ok value := by
  induction reordered generalizing value with
  | refl => rfl
  | trans _ _ first second => exact first.trans second
  | members perm => exact ⟨visit_map_perm perm, visit_map_perm perm.symm⟩
  | @item a b front back _ ih =>
    have inside (values : List JsonValue) :
        visitSeq (front ++ a :: back) = .ok values ↔
          visitSeq (front ++ b :: back) = .ok values := by
      induction front generalizing values with
      | nil => simp [nil_append, visitSeq, bind_ok_iff, ih]
      | cons first front later => simp [cons_append, visitSeq, bind_ok_iff, later]
    simp [visit, map_ok_iff, inside]
  | @member a b front back key _ ih =>
    have inside (before entries : List (String × JsonValue)) :
        visitMap (front ++ (key, a) :: back) before = .ok entries ↔
          visitMap (front ++ (key, b) :: back) before = .ok entries := by
      induction front generalizing before with
      | nil => simp [nil_append, visitMap, bind_ok_iff, ih]
      | cons first front later =>
        simp only [cons_append, visitMap, bind_ok_iff]
        refine exists_congr fun value => and_congr_right fun _ => ?_
        split
        · rfl
        · exact later _
    simp [visit, map_ok_iff, inside]

/-! ## Parsing -/

inductive CanonicalJsonErrorKind
  | invalidJson
  | duplicateKey
  | floatRejected
  | integerOutOfRange

structure CanonicalJsonError where
  kind : CanonicalJsonErrorKind
  detail : String

def mentions (part : String) : Bool := decide (part.toList <:+: message.toList)

/-- The kind of an error, told from its message. -/
def classify : CanonicalJsonError :=
  let kind : CanonicalJsonErrorKind :=
    if mentions message "duplicate object key" then .duplicateKey
    else if mentions message "floating point" then .floatRejected
    else if mentions message "safe integer range" then .integerOutOfRange
    else .invalidJson
  ⟨kind, message⟩

section Parse

-- the text reader: what it visits of the bytes, and its complaint about what follows
variable (read : ByteArray → Document × Except String Unit)

def parseCanonicalJson (bytes : ByteArray) : Except CanonicalJsonError CanonicalValue :=
  match visited : visit (read bytes).1, (read bytes).2 with
  | .error message, _ => .error (classify message)
  | .ok _, .error message => .error (classify message)
  | .ok json, .ok () => .ok ⟨json, visit_ordered visited⟩

lemma parseCanonicalJson_toOption (bytes : ByteArray) (value : CanonicalValue) :
    (parseCanonicalJson read bytes).toOption = some value ↔
      visit (read bytes).1 = .ok value.json ∧ (read bytes).2 = .ok () := by
  unfold parseCanonicalJson
  split <;> simp_all [Except.toOption, CanonicalValue.ext_iff]

end Parse

/-! ## Texts -/

/-- Insignificant whitespace. -/
abbrev Blank := { chars : List Char // ∀ c ∈ chars, c ∈ [' ', '\t', '\n', '\r'] }

/-- A JSON text by its tokens, a scalar and a key as they are spelled, with blanks before and after
every token. -/
inductive Text
  | scalar (spelled : List Char)
  | seq (inner : Blank) (items : List Text)
  | map (inner : Blank) (members : List ((Blank × List Char × Blank) × Text))
  | padded (before : Blank) (text : Text) (after : Blank)

namespace Text

mutual

def chars : Text → List Char
  | scalar spelled => spelled
  | seq inner items => '[' :: (inner.1 ++ joined (itemChars items) ++ [']'])
  | map inner members => '\x7b' :: (inner.1 ++ joined (memberChars members) ++ ['\x7d'])
  | padded before text after => before.1 ++ chars text ++ after.1

def itemChars : List Text → List (List Char)
  | [] => []
  | item :: rest => chars item :: itemChars rest

def memberChars : List ((Blank × List Char × Blank) × Text) → List (List Char)
  | [] => []
  | ((before, spelled, after), value) :: rest =>
    (before.1 ++ spelled ++ after.1 ++ ':' :: chars value) :: memberChars rest

end

def bytes (text : Text) : ByteArray := (String.ofList text.chars).toUTF8

section

-- what a spelled scalar and a spelled key stand for
variable (scalarOf : List Char → Document) (keyOf : List Char → String)

mutual

/-- What the text says, without its blanks. -/
def document : Text → Document
  | scalar spelled => scalarOf spelled
  | seq _ items => .seq (itemDocuments items)
  | map _ members => .map (memberDocuments members)
  | padded _ text _ => document text

def itemDocuments : List Text → List Document
  | [] => []
  | item :: rest => document item :: itemDocuments rest

def memberDocuments : List ((Blank × List Char × Blank) × Text) → List (String × Document)
  | [] => []
  | ((_, spelled, _), value) :: rest =>
    (keyOf spelled, document value) :: memberDocuments rest

end

/-- The reader visits the whole text, and visits what it says. -/
def Reads (read : ByteArray → Document × Except String Unit) (text : Text) : Prop :=
  read text.bytes = (text.document scalarOf keyOf, .ok ())

/-- The texts say the same but for the order of members: blanks say nothing. -/
def Rewritten (text other : Text) : Prop :=
  Reordered (text.document scalarOf keyOf) (other.document scalarOf keyOf)

end

end Text

/-- Canonical bytes identify a value, and the texts of one document have one canonical value. -/
theorem canonical_identity (quote : String → List Char) (injective : Function.Injective quote)
    (delimited : SelfDelimiting quote) :
    (∀ value other : CanonicalValue, value.write quote = other.write quote → value = other) ∧
    ∀ (scalarOf : List Char → Document) (keyOf : List Char → String)
      (read : ByteArray → Document × Except String Unit) (text other : Text),
      text.Rewritten scalarOf keyOf other →
      text.Reads scalarOf keyOf read → other.Reads scalarOf keyOf read →
      (parseCanonicalJson read text.bytes).toOption.map (·.write quote) =
          (parseCanonicalJson read other.bytes).toOption.map (·.write quote) ∧
        ∀ value : CanonicalValue, (parseCanonicalJson read text.bytes).toOption = some value ↔
          visit (text.document scalarOf keyOf) = .ok value.json := by
  constructor
  · intro value other same
    have texts : value.json.write quote = other.json.write quote := String.toByteArray_inj.mp same
    exact CanonicalValue.ext (value.ordered.eq_of_normal other.ordered
      (JsonValue.write_injective delimited injective texts))
  · intro scalarOf keyOf read text other rewritten reads reads'
    have answers {text : Text} (reads : text.Reads scalarOf keyOf read) (value : CanonicalValue) :
        (parseCanonicalJson read text.bytes).toOption = some value ↔
          visit (text.document scalarOf keyOf) = .ok value.json := by
      rw [parseCanonicalJson_toOption, reads]
      exact and_iff_left rfl
    refine ⟨?_, answers reads⟩
    congr 1
    refine Option.ext fun value => ?_
    rw [answers reads, answers reads']
    exact Reordered.visit_eq rewritten

namespace Sample

/-- Quotes with a backslash before every quote and backslash. -/
def escape (c : Char) : List Char := if c = '"' ∨ c = '\\' then ['\\', c] else [c]

def quote (value : String) : List Char := '"' :: (value.toList.flatMap escape ++ ['"'])

lemma escape_eq (c : Char) :
    escape c = ['\\', c] ∨ escape c = [c] ∧ c ≠ '"' ∧ c ≠ '\\' := by
  unfold escape
  split <;> simp_all

/-- An escaped character is read back, and is no closing quote. -/
lemma escape_reads : ∀ (text other rest rest' : List Char),
    text.flatMap escape ++ '"' :: rest = other.flatMap escape ++ '"' :: rest' →
      text = other ∧ rest = rest'
  | [], [], _, _, same => ⟨rfl, (cons.inj same).2⟩
  | [], d :: other, _, _, same => by
    rcases escape_eq d with escaped | ⟨plain, apart⟩ <;> simp_all [eq_comm]
  | c :: text, [], _, _, same => by
    rcases escape_eq c with escaped | ⟨plain, apart⟩ <;> simp_all
  | c :: text, d :: other, rest, rest', same => by
    have first : c = d ∧
        text.flatMap escape ++ '"' :: rest = other.flatMap escape ++ '"' :: rest' := by
      rcases escape_eq c with escaped | ⟨plain, apart⟩ <;>
        rcases escape_eq d with escaped' | ⟨plain', apart'⟩ <;> simp_all
      exact absurd same.1.symm apart'.2
    obtain ⟨rfl, behind⟩ := escape_reads text other rest rest' first.2
    exact ⟨by rw [first.1], behind⟩

lemma quote_injective : Function.Injective quote := by
  intro value other same
  exact String.toList_injective (escape_reads _ _ [] [] (cons.inj same).2).1

lemma quote_delimited : SelfDelimiting quote where
  opens value := ⟨_, rfl⟩
  closes value other front := by
    obtain ⟨rest, same⟩ := front
    simp only [quote, cons_append, append_assoc, nil_append, cons.injEq, true_and] at same
    rw [quote, quote, (escape_reads _ _ _ _ same).1]

def noBlank : Blank := ⟨[], by simp⟩

def space : Blank := ⟨[' '], by simp⟩

def key (before : Blank) (name : Char) : Blank × List Char × Blank :=
  (before, ['"', name, '"'], noBlank)

/-- The members `a` and `b`, without a blank. -/
def compact : Text :=
  .map noBlank [(key noBlank 'a', .scalar ['1']), (key noBlank 'b', .scalar ['-', '2'])]

/-- The members the other way round, with blanks. -/
def spaced : Text :=
  .map noBlank [(key space 'b', .padded space (.scalar ['-', '2']) noBlank),
    (key space 'a', .padded space (.scalar ['1']) space)]

def scalarOf (spelled : List Char) : Document :=
  if spelled = ['1'] then .u64 1 else .i64 (-2)

def keyOf (spelled : List Char) : String := String.ofList [spelled.getD 1 ' ']

/-- Reads a text of fourteen bytes and a longer one. -/
def readPair (bytes : ByteArray) : Document × Except String Unit :=
  if bytes.size ≤ 14 then (compact.document scalarOf keyOf, .ok ())
  else (spaced.document scalarOf keyOf, .ok ())

end Sample

open Sample

theorem readPair_identity :
    (parseCanonicalJson readPair compact.bytes).toOption.map (·.write Sample.quote) =
        some "\x7b\"a\":1,\"b\":-2\x7d".toUTF8 ∧
      (parseCanonicalJson readPair spaced.bytes).toOption.map (·.write Sample.quote) =
        some "\x7b\"a\":1,\"b\":-2\x7d".toUTF8 := by
  have first : (parseCanonicalJson readPair compact.bytes).toOption.map (·.write Sample.quote) =
      some "\x7b\"a\":1,\"b\":-2\x7d".toUTF8 := by decide +kernel
  have same := ((canonical_identity Sample.quote quote_injective quote_delimited).2 scalarOf keyOf
    readPair compact spaced (.members (List.Perm.swap _ _ _)) rfl rfl).1
  exact ⟨first, same ▸ first⟩

end CanonicalJson
