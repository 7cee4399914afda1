import Mathlib

/-!
# Canonical JSON

The closed JSON model without floating point numbers, and its canonical text: object keys
sorted by their UTF-16 code units, no insignificant whitespace, arrays left in order. How a
string is quoted is a parameter. The text determines the value up to the order of its members,
so a digest of the text that never collides identifies the value.
-/

namespace CanonicalJson

open List Option

/-- A value with the members of its objects in the order they were serialized. -/
inductive JsonValue
  | null
  | boolean (value : Bool)
  | integer (value : Int)
  | text (value : String)
  | array (items : List JsonValue)
  | object (entries : List (String × JsonValue))

/-- The largest integer that canonical JSON holds, of either sign. -/
def safeIntegerMax : Int := 9007199254740991

def safeInteger (value : Int) : Bool := -safeIntegerMax ≤ value && value ≤ safeIntegerMax

/-! ## The canonical form -/

def integerText : Int → List Char
  | .ofNat value => Nat.toDigits 10 value
  | .negSucc value => '-' :: Nat.toDigits 10 (value + 1)

def utf16 (value : String) : List Nat :=
  value.toList.flatMap fun c =>
    if c.toNat < 0x10000 then [c.toNat]
    else [0xD800 + (c.toNat - 0x10000) / 0x400, 0xDC00 + (c.toNat - 0x10000) % 0x400]

def sortEntries {α : Type} (entries : List (String × α)) : List (String × α) :=
  entries.insertionSort fun left right => utf16 left.1 ≤ utf16 right.1

/-- The texts with commas between them. -/
def joined : List (List Char) → List Char
  | [] => []
  | [text] => text
  | text :: rest => text ++ ',' :: joined rest

namespace JsonValue

mutual

/-- The members of every object in key order. -/
def normal : JsonValue → JsonValue
  | null => null
  | boolean value => boolean value
  | integer value => integer value
  | text value => text value
  | array items => array (normalItems items)
  | object entries => object (sortEntries (normalEntries entries))

def normalItems : List JsonValue → List JsonValue
  | [] => []
  | item :: rest => normal item :: normalItems rest

def normalEntries : List (String × JsonValue) → List (String × JsonValue)
  | [] => []
  | (key, value) :: rest => (key, normal value) :: normalEntries rest

end

section Write

variable (quote : String → List Char)

mutual

/-- The text of a value, its members in the order they stand in. -/
def render : JsonValue → List Char
  | null => ['n', 'u', 'l', 'l']
  | boolean true => ['t', 'r', 'u', 'e']
  | boolean false => ['f', 'a', 'l', 's', 'e']
  | integer value => integerText value
  | text value => quote value
  | array items => '[' :: (joined (renderItems items) ++ [']'])
  | object entries => '{' :: (joined (renderEntries entries) ++ ['}'])

def renderItems : List JsonValue → List (List Char)
  | [] => []
  | item :: rest => render item :: renderItems rest

def renderEntries : List (String × JsonValue) → List (List Char)
  | [] => []
  | (key, value) :: rest => (quote key ++ ':' :: render value) :: renderEntries rest

end

/-- The canonical text. -/
def write (value : JsonValue) : String := String.ofList (value.normal.render quote)

end Write

end JsonValue

/-! ## Reading a text back -/

/-- What follows a value does not go on with a digit. -/
def Ends (rest : List Char) : Prop := ∀ c ∈ rest.head?, c.isDigit = false

lemma ends_nil : Ends [] := by simp [Ends]

lemma ends_cons {c : Char} (rest : List Char) (other : c.isDigit = false) : Ends (c :: rest) := by
  simpa [Ends] using other

/-- The value in front of a text, when it can be read there in one way only. -/
def ReadsBack {α : Type} (print : α → List Char) (value : α) : Prop :=
  ∀ (other : α) (rest rest' : List Char), Ends rest → Ends rest' →
    print value ++ rest = print other ++ rest' → value = other ∧ rest = rest'

/-- A quoted string opens with a quote, and is the beginning of no other. -/
structure SelfDelimiting (quote : String → List Char) : Prop where
  opens : ∀ value, ∃ rest, quote value = '"' :: rest
  closes : ∀ value other, quote value <+: quote other → quote value = quote other

section Quote

variable {quote : String → List Char} (injective : Function.Injective quote)
  (delimited : SelfDelimiting quote)

include injective delimited

/-- A quoted string ends where it says. -/
theorem quote_reads {value other : String} {rest rest'}
    (same : quote value ++ rest = quote other ++ rest') : value = other ∧ rest = rest' := by
  have texts : quote value = quote other := by
    have front : quote value <+: quote other ++ rest' := same ▸ prefix_append _ _
    rcases prefix_or_prefix_of_prefix front (prefix_append _ _) with short | long
    · exact delimited.closes value other short
    · exact (delimited.closes other value long).symm
  rw [texts] at same
  exact ⟨injective texts, append_cancel_left same⟩

end Quote

lemma isDigit_of_mem_integerText {value : Nat} {c : Char} (listed : c ∈ Nat.toDigits 10 value) :
    c.isDigit = true :=
  Nat.isDigit_of_mem_toDigits (by decide) (by decide) listed

/-- Digits end where no digit follows. -/
theorem digits_reads {digits digits' rest rest'} (all : ∀ c ∈ digits, c.isDigit = true)
    (all' : ∀ c ∈ digits', c.isDigit = true) (ends : Ends rest) (ends' : Ends rest')
    (same : digits ++ rest = digits' ++ rest') : digits = digits' ∧ rest = rest' := by
  have front {digits rest : List Char} (all : ∀ c ∈ digits, c.isDigit = true) (ends : Ends rest) :
      (digits ++ rest).takeWhile Char.isDigit = digits := by
    rw [takeWhile_append_of_pos all]
    cases rest with
    | nil => simp
    | cons c rest => simp [ends c rfl]
  have digits_eq : digits = digits' := by
    rw [← front all ends, ← front all' ends', same]
  subst digits_eq
  exact ⟨rfl, append_cancel_left same⟩

lemma toDigits_injective {value other : Nat}
    (same : Nat.toDigits 10 value = Nat.toDigits 10 other) : value = other :=
  Nat.repr_inj.mp (congrArg String.ofList same)

lemma integerText_reads (value : Int) : ReadsBack integerText value := by
  have minus (digits : Nat) (tail : List Char) (rest : List Char) :
      Nat.toDigits 10 digits ++ rest ≠ '-' :: tail := by
    intro same
    cases text : Nat.toDigits 10 digits with
    | nil => exact Nat.toDigits_ne_nil text
    | cons c more =>
      have digit : c.isDigit = true :=
        isDigit_of_mem_integerText (text ▸ mem_cons_self)
      rw [text] at same
      rw [(cons.inj same).1] at digit
      exact absurd digit (by decide)
  intro other rest rest' ends ends' same
  match value, other with
  | .ofNat a, .ofNat b =>
    obtain ⟨digits, behind⟩ := digits_reads (fun c => isDigit_of_mem_integerText)
      (fun c => isDigit_of_mem_integerText) ends ends' same
    exact ⟨congrArg Int.ofNat (toDigits_injective digits), behind⟩
  | .ofNat a, .negSucc b => exact absurd same (minus _ _ _)
  | .negSucc a, .ofNat b => exact absurd same.symm (minus _ _ _)
  | .negSucc a, .negSucc b =>
    obtain ⟨digits, behind⟩ := digits_reads (fun c => isDigit_of_mem_integerText)
      (fun c => isDigit_of_mem_integerText) ends ends' (cons.inj same).2
    have := toDigits_injective digits
    exact ⟨congrArg Int.negSucc (by omega), behind⟩

/-- What follows the first text of a list: the bracket that closes it, or a comma and the rest. -/
def behindFirst (close : Char) (rest : List Char) : List (List Char) → List Char
  | [] => close :: rest
  | text :: texts => ',' :: (joined (text :: texts) ++ close :: rest)

lemma joined_cons (text : List Char) (texts : List (List Char)) (close : Char) (rest : List Char) :
    joined (text :: texts) ++ close :: rest = text ++ behindFirst close rest texts := by
  cases texts with
  | nil => rfl
  | cons next texts => rw [joined, behindFirst, append_assoc, cons_append]; simp

lemma ends_behindFirst {close : Char} (closes : close.isDigit = false) (rest : List Char)
    (texts : List (List Char)) : Ends (behindFirst close rest texts) := by
  cases texts with
  | nil => exact ends_cons _ closes
  | cons text texts => exact ends_cons _ (by decide)

/-- A list of values ends at the bracket that closes it. -/
theorem joined_reads {α : Type} {print} {close : Char} (closes : close.isDigit = false)
    (apart : close ≠ ',') (starts : ∀ value rest rest', print value ++ rest ≠ close :: rest') :
    ∀ (values others : List α) {rest rest'},
      (∀ value ∈ values, ReadsBack print value) →
      joined (values.map print) ++ close :: rest = joined (others.map print) ++ close :: rest' →
      values = others ∧ rest = rest'
  | [], [], _, _, _, same => ⟨rfl, (cons.inj same).2⟩
  | [], other :: others, rest, rest', _, same => by
    rw [map_cons, joined_cons] at same
    exact absurd same.symm (starts other _ _)
  | value :: values, [], rest, rest', _, same => by
    rw [map_cons, joined_cons] at same
    exact absurd same (starts value _ _)
  | value :: values, other :: others, rest, rest', reads, same => by
    rw [map_cons, map_cons, joined_cons, joined_cons] at same
    obtain ⟨rfl, behind⟩ := reads value mem_cons_self other _ _
      (ends_behindFirst closes _ _) (ends_behindFirst closes _ _) same
    have later : ∀ value ∈ values, ReadsBack print value :=
      fun value listed => reads value (mem_cons_of_mem _ listed)
    match values, others with
    | [], [] => exact ⟨rfl, (cons.inj behind).2⟩
    | [], next :: others => exact absurd (cons.inj behind).1 apart
    | next :: values, [] => exact absurd (cons.inj behind).1.symm apart
    | next :: values, next' :: others =>
      obtain ⟨tail, behind⟩ := joined_reads closes apart starts (next :: values)
        (next' :: others) later (cons.inj behind).2
      exact ⟨congrArg (value :: ·) tail, behind⟩

namespace JsonValue

section Render

variable {quote : String → List Char}

lemma renderItems_eq (items : List JsonValue) :
    renderItems quote items = items.map (render quote) := by
  induction items with
  | nil => rfl
  | cons item rest ih => rw [renderItems, ih, map_cons]

/-- The text of one member of an object. -/
def renderEntry (quote : String → List Char) (entry : String × JsonValue) : List Char :=
  quote entry.1 ++ ':' :: entry.2.render quote

lemma renderEntries_eq (entries : List (String × JsonValue)) :
    renderEntries quote entries = entries.map (renderEntry quote) := by
  induction entries with
  | nil => rfl
  | cons entry rest ih =>
    obtain ⟨key, value⟩ := entry
    rw [renderEntries, ih, map_cons]
    rfl

inductive Kind
  | null
  | boolean
  | integer
  | text
  | array
  | object

def kind : JsonValue → Kind
  | null => .null
  | boolean _ => .boolean
  | integer _ => .integer
  | text _ => .text
  | array _ => .array
  | object _ => .object

/-- The first character of a value's text tells its kind. -/
def kindOf (c : Char) : Kind :=
  if c = 'n' then .null
  else if c = 't' ∨ c = 'f' then .boolean
  else if c = '"' then .text
  else if c = '[' then .array
  else if c = '{' then .object
  else .integer

lemma kindOf_digit {c : Char} (digit : c.isDigit = true) : kindOf c = .integer := by
  have other (d : Char) (none : d.isDigit = false) : c ≠ d := by
    rintro rfl
    rw [digit] at none
    cases none
  simp [kindOf, other]

variable (delimited : SelfDelimiting quote)

include delimited

lemma render_kind (value : JsonValue) :
    ∃ c rest, value.render quote = c :: rest ∧ kindOf c = value.kind ∧ c ≠ ']' := by
  cases value with
  | null | array | object => exact ⟨_, _, rfl, rfl, by decide⟩
  | boolean value => cases value <;> exact ⟨_, _, rfl, rfl, by decide⟩
  | text value =>
    obtain ⟨rest, opens⟩ := delimited.opens value
    exact ⟨_, rest, opens, rfl, by decide⟩
  | integer value =>
    cases value with
    | negSucc value => exact ⟨_, _, rfl, rfl, by decide⟩
    | ofNat value =>
      cases digits : Nat.toDigits 10 value with
      | nil => exact absurd digits Nat.toDigits_ne_nil
      | cons c rest =>
        have digit : c.isDigit = true :=
          isDigit_of_mem_integerText (digits ▸ mem_cons_self)
        refine ⟨c, rest, by rw [render, integerText, digits], kindOf_digit digit, ?_⟩
        rintro rfl
        exact absurd digit (by decide)

lemma same_kind {value other : JsonValue} {rest rest'}
    (same : value.render quote ++ rest = other.render quote ++ rest') :
    value.kind = other.kind := by
  obtain ⟨c, tail, shape, own, -⟩ := value.render_kind delimited
  obtain ⟨d, tail', shape', own', -⟩ := other.render_kind delimited
  rw [shape, shape'] at same
  rw [← own, ← own', (cons.inj same).1]

lemma render_ne_bracket (value : JsonValue) (rest rest' : List Char) :
    value.render quote ++ rest ≠ ']' :: rest' := by
  intro same
  obtain ⟨c, tail, shape, -, apart⟩ := value.render_kind delimited
  rw [shape] at same
  exact apart (cons.inj same).1

lemma renderEntry_ne_bracket (entry : String × JsonValue) (rest rest' : List Char) :
    renderEntry quote entry ++ rest ≠ '}' :: rest' := by
  intro same
  obtain ⟨tail, opens⟩ := delimited.opens entry.1
  rw [renderEntry, opens] at same
  exact absurd (cons.inj same).1 (by decide)

variable (injective : Function.Injective quote)

include injective

/-- The text of a value determines the value, whatever follows it. -/
theorem render_reads (value : JsonValue) : ReadsBack (render quote) value := by
  intro other rest rest' ends ends' same
  match value, other, same_kind delimited same with
  | null, null, _ => exact ⟨rfl, append_cancel_left same⟩
  | boolean true, boolean true, _ => exact ⟨rfl, append_cancel_left same⟩
  | boolean false, boolean false, _ => exact ⟨rfl, append_cancel_left same⟩
  | boolean true, boolean false, _ => exact absurd (cons.inj same).1 (by decide)
  | boolean false, boolean true, _ => exact absurd (cons.inj same).1 (by decide)
  | integer value, integer other, _ =>
    obtain ⟨rfl, behind⟩ := integerText_reads value other rest rest' ends ends' same
    exact ⟨rfl, behind⟩
  | text value, text other, _ =>
    obtain ⟨rfl, behind⟩ := quote_reads injective delimited same
    exact ⟨rfl, behind⟩
  | array items, array others, _ =>
    simp only [render, renderItems_eq, cons_append, append_assoc, cons.injEq,
      true_and, nil_append] at same
    obtain ⟨rfl, behind⟩ := joined_reads (by decide) (by decide)
      (render_ne_bracket delimited) items others (fun item listed => render_reads item) same
    exact ⟨rfl, behind⟩
  | object entries, object others, _ =>
    simp only [render, renderEntries_eq, cons_append, append_assoc, cons.injEq,
      true_and, nil_append] at same
    obtain ⟨rfl, behind⟩ := joined_reads (by decide) (by decide)
      (renderEntry_ne_bracket delimited) entries others
        (fun entry listed other rest rest' ends ends' same => by
        rw [renderEntry, renderEntry, append_assoc, append_assoc] at same
        obtain ⟨key, behind⟩ := quote_reads injective delimited same
        obtain ⟨value, behind⟩ := render_reads entry.2 other.2 rest rest' ends ends'
          (cons.inj behind).2
        exact ⟨Prod.ext key value, behind⟩) same
    exact ⟨rfl, behind⟩
termination_by sizeOf value
decreasing_by
  · have smaller := sizeOf_lt_of_mem listed
    simp only [array.sizeOf_spec]
    omega
  have smaller := sizeOf_lt_of_mem listed
  have inner : sizeOf entry.2 < sizeOf entry := by
    obtain ⟨key, value⟩ := entry
    simp only [Prod.mk.sizeOf_spec]
    omega
  simp only [object.sizeOf_spec]
  omega

/-- The canonical text determines the value, up to the order of its members. -/
theorem write_injective {value other : JsonValue} (same : value.write quote = other.write quote) :
    value.normal = other.normal := by
  have texts : value.normal.render quote ++ [] = other.normal.render quote ++ [] := by
    rw [append_nil, append_nil]
    exact String.ofList_injective same
  exact (render_reads delimited injective _ _ _ _ ends_nil ends_nil texts).1

end Render

end JsonValue

open JsonValue

lemma sortEntries_perm {α : Type} (entries : List (String × α)) :
    (sortEntries entries).Perm entries :=
  perm_insertionSort _ _

lemma normalEntries_eq (entries : List (String × JsonValue)) :
    normalEntries entries = entries.map fun entry => (entry.1, entry.2.normal) := by
  induction entries with
  | nil => rfl
  | cons entry rest ih =>
    obtain ⟨key, value⟩ := entry
    rw [normalEntries, ih, map_cons]

lemma normalItems_eq (items : List JsonValue) :
    normalItems items = items.map normal := by
  induction items with
  | nil => rfl
  | cons item rest ih => rw [normalItems, ih, map_cons]

lemma normal_object_perm {entries others}
    (same : (object entries).normal = (object others).normal) :
    (entries.map fun entry => (entry.1, entry.2.normal)).Perm
      (others.map fun entry => (entry.1, entry.2.normal)) := by
  simp only [normal, normalEntries_eq, object.injEq] at same
  exact (sortEntries_perm _).symm.trans (same.symm ▸ sortEntries_perm _)

end CanonicalJson
