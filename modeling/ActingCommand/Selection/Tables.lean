import ActingCommand.Selection.Facts

/-!
# Shared tables

A table is read by one rule: the key, the pins, the row, the cell, the declared value; the
evaluator and the upper bound both read through `SelectionTables.read`. A loaded table keeps its
positions and its rows by key as functions of the table itself.
-/

namespace Selection

open List Option Std ExtTreeMap

inductive StandardPackTableCell
  | null
  | integer (value : Int)
  | boolean (value : Bool)
  | text (value : String)
deriving DecidableEq

/-- The derived order: null, integers, booleans, texts. -/
def StandardPackTableCell.cmp : StandardPackTableCell → StandardPackTableCell → Ordering
  | null, null => .eq
  | null, _ => .lt
  | integer _, null => .gt
  | integer a, integer b => compare a b
  | integer _, _ => .lt
  | boolean a, boolean b => compare a b
  | boolean _, text _ => .lt
  | boolean _, _ => .gt
  | text a, text b => compare a b
  | text _, _ => .gt

/-- A table whose expired columns already read null. -/
structure LoadedTable where
  tableId : String
  rowKey : List String
  columnNames : List String
  rows : List (List StandardPackTableCell)

namespace LoadedTable

/-- Each column's position in a row, by name. -/
def positions (loaded : LoadedTable) : ExtTreeMap String Nat :=
  ofList loaded.columnNames.zipIdx

def cell (loaded : LoadedTable) (row : Nat) (column : String) : Option StandardPackTableCell := do
  let position ← loaded.positions[column]?
  let cells ← loaded.rows[row]?
  cells[position]?

/-- The rows of one key, in file order. -/
def byKey (loaded : LoadedTable) (key : String) : List Nat :=
  match loaded.rowKey with
  | [] => []
  | keyColumn :: _ =>
    (List.range loaded.rows.length).filter fun row => loaded.cell row keyColumn = some (.text key)

end LoadedTable

def cellHolds : StandardPackTableCell → ScalarValue → Bool
  | .integer cell, .integer value => cell == value
  | .boolean cell, .boolean value => cell == value
  | .text cell, .string value => cell == value
  | _, _ => false

def cellValue : StandardPackTableCell → Option ScalarValue
  | .null => none
  | .integer value => some (.integer value)
  | .boolean value => some (.boolean value)
  | .text value => some (.string value)

variable (loaded : LoadedTable) (bound : BoundTable) (row : Nat)

/-- The row of `key` whose pinned columns hold `pins`. -/
def LoadedTable.rowOf (key : String) (pins : List (String × ScalarValue)) : Option Nat :=
  (loaded.byKey key).find? fun row =>
    pins.all fun pin => (loaded.cell row pin.1).any fun cell => cellHolds cell pin.2

/-- A loaded table and the declaration it was checked against. -/
structure BoundTable where
  loaded : LoadedTable
  declaration : TableDeclaration

/-- The tables one evaluation reads. -/
structure SelectionTables where
  tables : ExtTreeMap String BoundTable

structure TableReading where
  value : Except UnknownReason ScalarValue
  usedFallback : Bool
  otherwiseColumn : Option String
  staticUnknown : Bool

namespace TableReading

def known (value : ScalarValue) : TableReading := ⟨.ok value, false, none, false⟩

def unknown (reason : UnknownReason) (staticUnknown : Bool) : TableReading :=
  ⟨.error reason, false, none, staticUnknown⟩

end TableReading

open TableReading

/-- How a pinned fact resolves in the pinned snapshot. -/
abbrev FactReader := String → Except UnknownReason ScalarValue

/-- The literal, the fact, or the fact's `otherwise`, whose column is noted once. -/
def pinValue (pin : TablePin) (fact : FactReader) (otherwiseColumn : Option String) :
    Except UnknownReason (ScalarValue × Option String) :=
  match pin.equals, pin.equalsFact with
  | some literal, _ => pure (literal, otherwiseColumn)
  | none, none => throw .typeMismatch
  | none, some factKey =>
    match fact factKey with
    | .ok value => pure (value, otherwiseColumn)
    | .error reason =>
      let other : Except UnknownReason ScalarValue := match pin.otherwise with
        | some ⟨some literal, _⟩ => .ok literal
        | some ⟨none, some otherKey⟩ => fact otherKey
        | some ⟨none, none⟩ => .error reason
        | none => .error reason
      match other with
      | .ok value => pure (value, otherwiseColumn.or (some pin.column))
      | .error _ => throw reason

def pinValues (fact : FactReader) : List TablePin → Option String →
    Except UnknownReason (List (String × ScalarValue) × Option String)
  | [], otherwiseColumn => pure ([], otherwiseColumn)
  | pin :: rest, otherwiseColumn => do
    let (value, otherwiseColumn) ← pinValue pin fact otherwiseColumn
    let (pinned, otherwiseColumn) ← pinValues fact rest otherwiseColumn
    pure ((pin.column, value) :: pinned, otherwiseColumn)

/-- The cell a read takes from its row: the value column's, or the fallback's where that is null
and the fallback's is not. -/
def readCell (valueColumn : String) (fallbackColumn : Option String) :
    Option ScalarValue × String × Bool :=
  match (loaded.cell row valueColumn).bind cellValue, fallbackColumn with
  | some value, _ => (some value, valueColumn, false)
  | none, none => (none, valueColumn, false)
  | none, some fallback =>
    match (loaded.cell row fallback).bind cellValue with
    | some value => (some value, fallback, true)
    | none => (none, valueColumn, false)

namespace SelectionTables

/-- `dangling_reference` for a table the document declares and nothing bound. -/
def checkBound (tables : SelectionTables) (policy : SelectionPolicy) :
    Except SelectionError Unit :=
  match policy.tables.find? fun declaration => !tables.tables.contains declaration.tableId with
  | some declaration =>
    let tableId := declaration.tableId
    throw ⟨.danglingReference, s!"table_id={tableId} unbound"⟩
  | none => pure ()

/-- A bound table's value for a key, once the pins have their values. -/
def readPinned (key : String) (pinned : List (String × ScalarValue))
    (valueColumn : String) (fallbackColumn : Option String) (absent : Option ScalarValue)
    (otherwiseColumn : Option String) : TableReading :=
  if bound.loaded.byKey key = [] then
    { unknown .lookupMiss true with otherwiseColumn }
  else
    match bound.loaded.rowOf key pinned with
    | none =>
      match absent with
      | some value => { known value with otherwiseColumn }
      | none => { unknown .lookupMiss false with otherwiseColumn }
    | some row =>
      match readCell bound.loaded row valueColumn fallbackColumn with
      | (none, _, _) => { unknown .lookupMiss true with otherwiseColumn }
      | (some value, readColumn, usedFallback) =>
        if (bound.declaration.columns.lookup readColumn).any value.matchesType then
          { known value with usedFallback, otherwiseColumn }
        else { unknown .typeMismatch true with otherwiseColumn }

def read (tables : SelectionTables) (reference : ValueRef) (key : String) (fact : FactReader) :
    TableReading :=
  match reference with
  | .table tableId _ pins valueColumn fallbackColumn absent =>
    match tables.tables[tableId]? with
    | none => .unknown .typeMismatch false
    | some bound =>
      match pinValues fact pins none with
      | .error reason => .unknown reason false
      | .ok (pinned, otherwiseColumn) =>
        readPinned bound key pinned valueColumn fallbackColumn absent otherwiseColumn
  | _ => .unknown .typeMismatch false

end SelectionTables

/-! ## The rows of the input identity -/

/-- A row's cells under the row key. -/
def projection : List StandardPackTableCell :=
  bound.declaration.rowKey.map fun column => (bound.loaded.cell row column).getD .null

def compareProjections : List StandardPackTableCell → List StandardPackTableCell → Ordering
  | [], [] => .eq
  | [], _ => .lt
  | _, [] => .gt
  | a :: as, b :: bs => (a.cmp b).then (compareProjections as bs)

/-- A row of the input identity, by column name. -/
abbrev TableRow := ExtTreeMap String StandardPackTableCell

/-- A row's key column and every declared column. -/
def rowObject : TableRow :=
  ofList
    ((bound.declaration.rowKey.take 1 ++ bound.declaration.columns.map (·.1)).map fun column =>
      (column, (bound.loaded.cell row column).getD .null))

/-- The rows read, each once, in the order of the row key's projection. -/
def orderedRows (read : List Nat) : List TableRow :=
  let ascending := read.dedup.insertionSort (· ≤ ·)
  let ordered := ascending.insertionSort fun a b =>
    (compareProjections (projection bound a) (projection bound b)).isLE
  ordered.map (rowObject bound)

namespace SelectionTables

section

variable (tables : SelectionTables) (policy : SelectionPolicy) (candidates : List Candidate)
  (keyOf : String → Candidate → Option String) (fact : FactReader)

/-- The rows of one table that a reference reads for the candidates. -/
def rowsOf (tableId : String) : ValueRef → List Nat
  | .table read keyField pins _ _ _ =>
    match tables.tables[read]?, pinValues fact pins none with
    | some bound, .ok (pinned, _) =>
      if read = tableId then
        candidates.filterMap fun candidate =>
          (keyOf keyField candidate).bind fun key => bound.loaded.rowOf key pinned
      else []
    | _, _ => []
  | _ => []

/-- The rows of one table that the document's references read for the candidates. -/
def rowsRead (tableId : String) : List Nat :=
  policy.valueRefs.flatMap (tables.rowsOf candidates keyOf fact tableId)

def readRows : ExtTreeMap String (List TableRow) :=
  ofList
    (policy.tables.filterMap fun declaration =>
      (tables.tables[declaration.tableId]?).map fun bound =>
        (declaration.tableId,
          orderedRows bound (tables.rowsRead policy candidates keyOf fact declaration.tableId)))

end

end SelectionTables

/-- A map built from entries whose values are a function of their keys. -/
theorem getElem?_ofList_of_function {β : Type*} {entries} {value : String → β}
    (each : ∀ entry ∈ entries, entry.2 = value entry.1) (key : String) :
    (ofList entries)[key]? =
      if key ∈ entries.map Prod.fst then some (value key) else none := by
  rw [ofList_eq_insertMany_empty, getElem?_insertMany_list,
    getElem?_empty, or_none]
  induction entries with
  | nil => rfl
  | cons entry rest ih =>
    have later := ih fun other listed => each other (mem_cons_of_mem _ listed)
    have first := each entry mem_cons_self
    obtain ⟨name, held⟩ := entry
    obtain rfl : held = value name := first
    rw [List.findSomeRev?, later]
    by_cases listed : key ∈ rest.map Prod.fst
    · simp [listed]
    by_cases here : key = name
    · subst here
      simp [listed]
    · have apart : name ≠ key := fun same => here same.symm
      simp [listed, here, apart]

section Rows

variable {policy : SelectionPolicy} {tables : SelectionTables} {fact : FactReader}
  {keyOf : String → Candidate → Option String} {candidates : List Candidate}

lemma mem_orderedRows {bound : BoundTable} {read : List Nat} {row : TableRow} :
    row ∈ orderedRows bound read ↔ ∃ index ∈ read, rowObject bound index = row := by
  simp only [orderedRows, List.mem_map]
  refine exists_congr fun index => and_congr_left fun _ => ?_
  rw [(perm_insertionSort _ _).mem_iff, (perm_insertionSort _ _).mem_iff, mem_dedup]

lemma readRows_getElem? (tableId : String) :
    (tables.readRows policy candidates keyOf fact)[tableId]? =
      if tableId ∈ policy.tables.map (·.tableId) then
        (tables.tables[tableId]?).map fun bound =>
          orderedRows bound (tables.rowsRead policy candidates keyOf fact tableId)
      else none := by
  let value (tableId : String) : List TableRow := (tables.tables[tableId]?).elim [] fun bound =>
    orderedRows bound (tables.rowsRead policy candidates keyOf fact tableId)
  rw [SelectionTables.readRows, @getElem?_ofList_of_function _ _ value]
  · have keys : tableId ∈ (policy.tables.filterMap fun declaration =>
        (tables.tables[declaration.tableId]?).map fun bound =>
          (declaration.tableId, orderedRows bound
            (tables.rowsRead policy candidates keyOf fact declaration.tableId))).map Prod.fst ↔
        tableId ∈ policy.tables.map (·.tableId) ∧ (tables.tables[tableId]?).isSome = true := by
      simp only [List.mem_map, mem_filterMap, map_eq_some_iff, isSome_iff_exists]
      constructor
      · rintro ⟨_, ⟨declaration, inside, bound, found, rfl⟩, rfl⟩
        exact ⟨⟨declaration, inside, rfl⟩, bound, found⟩
      · rintro ⟨⟨declaration, inside, rfl⟩, bound, found⟩
        exact ⟨_, ⟨declaration, inside, bound, found, rfl⟩, rfl⟩
    simp only [keys]
    cases held : tables.tables[tableId]? with
    | none => simp
    | some bound => simp [value, held]
  · intro entry listed
    simp only [mem_filterMap, map_eq_some_iff] at listed
    obtain ⟨declaration, -, bound, found, rfl⟩ := listed
    simp [value, found]

end Rows

end Selection
