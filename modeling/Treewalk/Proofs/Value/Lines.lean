import Treewalk.Proofs.Value.Renaming

/-!
# Values on other lines

Lines stand in errors and in the trees of functions. `Value.mapLines` changes them there and nothing
else: it is the renaming of lines alone, so every operation commutes with it. Writing a value shows the
line of an error only, so a plain value is written the same on other lines.
-/

namespace Treewalk

variable {f : Int → Int}

namespace Value

mutual

/-- A value with every line changed. -/
def mapLines (f : Int → Int) : Value → Value
  | .array id items => .array id (mapLinesItems f items)
  | .hash id entries => .hash id (mapLinesParts f entries)
  | .function id parameters body home =>
    .function id (parameters.map (Name.mapLine f)) (body.mapLines f) home
  | .result id value => .result id (value.mapLines f)
  | .error id line fault => .error id (f line) fault
  | value => value

/-- Each item of an array with every line changed. -/
def mapLinesItems (f : Int → Int) : List Value → List Value
  | [] => []
  | value :: more => value.mapLines f :: mapLinesItems f more

/-- Each entry of a hash with every line changed. -/
def mapLinesParts (f : Int → Int) : List (Key × Value) → List (Key × Value)
  | [] => []
  | (key, value) :: more => (key, value.mapLines f) :: mapLinesParts f more

end

/-- A value without its lines. -/
def unlined (value : Value) : Value := value.mapLines fun _ => 0

theorem mapLinesItems_eq_map (items : List Value) : mapLinesItems f items = items.map (mapLines f) := by
  induction items with
  | nil => rfl
  | cons value more ih => rw [mapLinesItems, ih, List.map_cons]

theorem mapLinesParts_eq_map (entries : List (Key × Value)) :
    mapLinesParts f entries = entries.map fun entry => (entry.1, entry.2.mapLines f) := by
  induction entries with
  | nil => rfl
  | cons entry more ih => rw [mapLinesParts, ih, List.map_cons]

@[simp]
theorem mapLines_array (id : Nat) (items : List Value) :
    (Value.array id items).mapLines f = .array id (items.map (mapLines f)) := by
  rw [mapLines, mapLinesItems_eq_map]

@[simp]
theorem mapLines_hash (id : Nat) (entries : List (Key × Value)) :
    (Value.hash id entries).mapLines f =
      .hash id (entries.map fun entry => (entry.1, entry.2.mapLines f)) := by
  rw [mapLines, mapLinesParts_eq_map]

end Value

/-- Other names for lines alone. -/
def Renaming.lines (f : Int → Int) : Renaming where
  line := f
  object own := own
  scope own := own
  injective := Function.injective_id
  shared := rfl
  ordered := strictMono_id

theorem Number.rename_lines (x : Number) : x.rename (.lines f) = x := by
  cases x <;> rfl

theorem Key.rename_lines (key : Key) : key.rename (.lines f) = key := by
  cases key with
  | number x => exact congrArg Key.number x.rename_lines
  | _ => rfl

namespace Value

theorem renameEntry_lines (entry : Key × Value) :
    renameEntry (.lines f) entry = (entry.1, entry.2.rename (.lines f)) := by
  rw [renameEntry, Key.rename_lines]

theorem mapLines_eq_rename : mapLines f = rename (.lines f) := by
  funext value
  induction value using inside_induction with
  | step value ih =>
    cases value with
    | number x => exact congrArg Value.number x.rename_lines.symm
    | array id items =>
        have each : items.map (mapLines f) = items.map (rename (.lines f)) := List.map_congr_left ih
        rw [mapLines_array, rename_array, each]
        rfl
    | hash id entries =>
        have each : ∀ entry ∈ entries,
            (entry.1, entry.2.mapLines f) = renameEntry (.lines f) entry := by
          intro entry member
          rw [renameEntry_lines, ih entry.2 (List.mem_map_of_mem member)]
        rw [mapLines_hash, rename_hash, List.map_congr_left each]
        rfl
    | result id held =>
        rw [mapLines, rename, ih held List.mem_cons_self]
        rfl
    | _ => rfl

theorem renameEntry_lines_eq : renameEntry (.lines f) = fun entry => (entry.1, entry.2.mapLines f) := by
  rw [mapLines_eq_rename]
  exact funext renameEntry_lines

theorem Atomic.mapLines {value : Value} (atomic : value.Atomic) : value.mapLines f = value := by
  cases value with
  | null | boolean | number | text | builtin => rfl
  | array | hash | function | result | error => exact False.elim atomic

/-! ## What is asked of a value -/

@[simp]
theorem kind_mapLines (value : Value) : (value.mapLines f).kind = value.kind := by
  rw [mapLines_eq_rename, kind_rename]

@[simp]
theorem truthy_mapLines (value : Value) : (value.mapLines f).truthy = value.truthy := by
  rw [mapLines_eq_rename, truthy_rename]

@[simp]
theorem key?_mapLines (value : Value) : (value.mapLines f).key? = value.key? := by
  cases value <;> rfl

@[simp]
theorem unwrapped_mapLines (value : Value) :
    (value.mapLines f).unwrapped = value.unwrapped.mapLines f := by
  rw [mapLines_eq_rename, unwrapped_rename]

end Value

/-! ## Operations -/

theorem Entries.insert_mapLines (key : Key) (value : Value) (entries : Entries) :
    Entries.insert key (value.mapLines f) (entries.map fun entry => (entry.1, entry.2.mapLines f)) =
      (Entries.insert key value entries).map fun entry => (entry.1, entry.2.mapLines f) := by
  have renamed := Entries.insert_rename (R := .lines f) key value entries
  rwa [Key.rename_lines, Value.renameEntry_lines_eq, ← Value.mapLines_eq_rename] at renamed

namespace Operator

theorem unary_mapLines (id : Nat) (operator : String) (operand : Value) :
    unary id operator (operand.mapLines f) = (unary id operator operand).map (Value.mapLines f) := by
  rw [Value.mapLines_eq_rename]
  exact unary_rename id operator operand

theorem binary_mapLines (id : Nat) (operator : String) (left right : Value) :
    binary id operator (left.mapLines f) (right.mapLines f) =
      (binary id operator left right).map (Value.mapLines f) := by
  rw [Value.mapLines_eq_rename]
  exact binary_rename id operator left right

theorem index_mapLines (subject position : Value) :
    index (subject.mapLines f) (position.mapLines f) =
      (index subject position).map (Value.mapLines f) := by
  rw [Value.mapLines_eq_rename]
  exact index_rename subject position

end Operator

theorem Builtin.apply_mapLines (id : Nat) (builtin : Builtin) (arguments : List Value) :
    builtin.apply id (arguments.map (Value.mapLines f)) =
      (builtin.apply id arguments).map (Value.mapLines f) := by
  rw [Value.mapLines_eq_rename]
  exact apply_rename id builtin arguments

/-! ## Writing values -/

/-- A plain value is written without lines. -/
theorem Value.Plain.display_mapLines {value : Value} (plain : value.Plain Node.Lineless) :
    (value.mapLines f).display = value.display := by
  rw [mapLines_eq_rename]
  exact plain.display_rename fun _ every => Node.render_mapLines every

theorem Builtin.printed_mapLines (builtin : Builtin) {arguments : List Value}
    (plain : ∀ argument ∈ arguments, argument.Plain Node.Lineless) :
    builtin.printed (arguments.map (Value.mapLines f)) = builtin.printed arguments := by
  rw [Value.mapLines_eq_rename]
  exact builtin.printed_rename plain fun _ every => Node.render_mapLines every

end Treewalk
