import Treewalk.Eval.Builtin
import Treewalk.Eval.Operator
import Treewalk.Proofs.Tree.Lines
import Treewalk.Proofs.Value.Plain

/-!
# Values under other names

The lines of a program, the ids of objects and the numbers of scopes are names that a run hands on. A
`Renaming` gives others for them, and `Value.rename` puts these into a value: into its parts, its keys
and the payloads of its not-a-numbers. No operation looks at a name but to see whether two ids are the
same, so each operation commutes with every renaming. What is written of a plain value shows no name.
-/

namespace Treewalk

/-- Other names for lines, ids and scopes. Ids that differ go on to differ, the shared not-a-number
stays what it is, and scopes stay in the order in which they were made. -/
structure Renaming where
  line : Int → Int
  object : Nat → Nat
  scope : Nat → Nat
  injective : Function.Injective object
  shared : object Number.sharedPayload = Number.sharedPayload
  ordered : StrictMono scope

variable {R : Renaming}

/-! ## Numbers and keys -/

namespace Number

/-- A number under another name: only a not-a-number has one. -/
def rename (R : Renaming) : Number → Number
  | .nan payload => .nan (R.object payload)
  | x => x

@[simp]
theorem rename_finite (negative : Bool) (count : Nat) (valid : Representable count) :
    (finite negative count valid).rename R = finite negative count valid :=
  rfl

@[simp]
theorem rename_infinite (negative : Bool) : (infinite negative).rename R = infinite negative := rfl

@[simp]
theorem rank_rename (x : Number) : (x.rename R).rank = x.rank := by
  cases x <;> rfl

@[simp]
theorem toInt?_rename (x : Number) : (x.rename R).toInt? = x.toInt? := by
  cases x <;> rfl

@[simp]
theorem isZero_rename (x : Number) : (x.rename R).isZero = x.isZero := by
  cases x <;> rfl

theorem text_rename (x : Number) : (x.rename R).text = x.text := by
  cases x <;> rfl

theorem eq_rename (x y : Number) : (x.rename R).eq (y.rename R) = x.eq y := by
  simp only [eq, rank_rename]

theorem lt_rename (x y : Number) : (x.rename R).lt (y.rename R) = x.lt y := by
  simp only [lt, rank_rename]

theorem le_rename (x y : Number) : (x.rename R).le (y.rename R) = x.le y := by
  simp only [le, rank_rename]

theorem same_rename (x y : Number) : (x.rename R).same (y.rename R) = x.same y := by
  cases x with
  | nan payload =>
      cases y with
      | nan other => exact Bool.eq_iff_iff.mpr (by simp [same, rename, R.injective.eq_iff])
      | _ => rfl
  | _ => cases y <;> rfl

@[simp]
theorem rename_round (negative : Bool) (num den : Nat) :
    (round negative num den).rename R = round negative num den := by
  unfold round
  split <;> rfl

@[simp]
theorem rename_ofNat (n : Nat) : (ofNat n).rename R = ofNat n :=
  rename_round false (n * Quanta.one) 1

theorem neg_rename (payload : Nat) (x : Number) :
    (x.rename R).neg (R.object payload) = (x.neg payload).rename R := by
  cases x <;> rfl

theorem add_rename (payload : Nat) (x y : Number) :
    (x.rename R).add (R.object payload) (y.rename R) = (x.add payload y).rename R := by
  cases x with
  | nan => cases y <;> rfl
  | infinite s =>
      cases y with
      | infinite t =>
          simp only [rename_infinite, add]
          split <;> rfl
      | _ => rfl
  | finite s count valid =>
      cases y with
      | finite t other validOther =>
          simp only [rename_finite, add]
          split
          · rfl
          · rw [rename_round]
      | _ => rfl

theorem sub_rename (payload : Nat) (x y : Number) :
    (x.rename R).sub (R.object payload) (y.rename R) = (x.sub payload y).rename R := by
  rw [sub, neg_rename, add_rename, sub]

theorem mul_rename (payload : Nat) (x y : Number) :
    (x.rename R).mul (R.object payload) (y.rename R) = (x.mul payload y).rename R := by
  cases x with
  | nan => cases y <;> rfl
  | infinite s =>
      cases y with
      | finite t other validOther =>
          simp only [rename_finite, rename_infinite, mul]
          split <;> rfl
      | _ => rfl
  | finite s count valid =>
      cases y with
      | finite t other validOther =>
          simp only [rename_finite, mul, rename_round]
      | infinite t =>
          simp only [rename_finite, rename_infinite, mul]
          split <;> rfl
      | nan => rfl

/-- What division by zero gives is shared, so it has no name of its own. -/
theorem div_rename (payload : Nat) (x y : Number) :
    (x.rename R).div (R.object payload) (y.rename R) = (x.div payload y).rename R := by
  have shared : (nan sharedPayload).rename R = nan sharedPayload := congrArg nan R.shared
  cases x with
  | nan own =>
      have renamed : ((nan own).rename R).div (R.object payload) (y.rename R) =
          if y.isZero then nan sharedPayload else nan (R.object payload) := by
        rw [← isZero_rename (R := R)]
        cases y <;> rfl
      have plain : (nan own).div payload y = if y.isZero then nan sharedPayload else nan payload := by
        cases y <;> rfl
      rw [renamed, plain]
      split
      · exact shared.symm
      · rfl
  | infinite s => cases y <;> rfl
  | finite s count valid =>
      cases y with
      | finite t other validOther =>
          simp only [rename_finite, div]
          split
          · split
            · exact shared.symm
            · rfl
          · rw [rename_round]
      | _ => rfl

end Number

namespace Key

def rename (R : Renaming) : Key → Key
  | .number x => .number (x.rename R)
  | key => key

theorem same_rename (key other : Key) : (key.rename R).same (other.rename R) = key.same other := by
  cases key with
  | number x =>
      cases other with
      | number y => exact Number.same_rename x y
      | _ => rfl
  | _ => cases other <;> rfl

theorem display_rename (key : Key) : (key.rename R).display = key.display := by
  cases key with
  | number x => exact Number.text_rename x
  | _ => rfl

end Key

/-! ## Values -/

namespace Value

mutual

/-- A value under other names. -/
def rename (R : Renaming) : Value → Value
  | .number x => .number (x.rename R)
  | .array id items => .array (R.object id) (renameItems R items)
  | .hash id entries => .hash (R.object id) (renameParts R entries)
  | .function id parameters body home =>
    .function (R.object id) (parameters.map (Name.mapLine R.line)) (body.mapLines R.line) (R.scope home)
  | .result id value => .result (R.object id) (value.rename R)
  | .error id line fault => .error (R.object id) (R.line line) fault
  | value => value

/-- Each item of an array under other names. -/
def renameItems (R : Renaming) : List Value → List Value
  | [] => []
  | value :: more => value.rename R :: renameItems R more

/-- Each entry of a hash under other names. -/
def renameParts (R : Renaming) : List (Key × Value) → List (Key × Value)
  | [] => []
  | (key, value) :: more => (key.rename R, value.rename R) :: renameParts R more

end

/-- An entry of a hash under other names. -/
def renameEntry (R : Renaming) (entry : Key × Value) : Key × Value :=
  (entry.1.rename R, entry.2.rename R)

theorem renameItems_eq_map (items : List Value) : renameItems R items = items.map (rename R) := by
  induction items with
  | nil => rfl
  | cons value more ih => rw [renameItems, ih, List.map_cons]

theorem renameParts_eq_map (entries : List (Key × Value)) :
    renameParts R entries = entries.map (renameEntry R) := by
  induction entries with
  | nil => rfl
  | cons entry more ih =>
      rw [renameParts, ih, List.map_cons]
      rfl

@[simp]
theorem rename_array (id : Nat) (items : List Value) :
    (Value.array id items).rename R = .array (R.object id) (items.map (rename R)) := by
  rw [rename, renameItems_eq_map]

@[simp]
theorem rename_hash (id : Nat) (entries : List (Key × Value)) :
    (Value.hash id entries).rename R = .hash (R.object id) (entries.map (renameEntry R)) := by
  rw [rename, renameParts_eq_map]

/-- Only numbers among the values without parts have names. -/
theorem Atomic.rename {value : Value} (atomic : value.Atomic) (other : value.kind ≠ .number) :
    value.rename R = value := by
  cases value with
  | null | boolean | text | builtin => rfl
  | number => exact absurd rfl other
  | array | hash | function | result | error => exact False.elim atomic

@[simp]
theorem kind_rename (value : Value) : (value.rename R).kind = value.kind := by
  cases value <;> rfl

@[simp]
theorem truthy_rename (value : Value) : (value.rename R).truthy = value.truthy := by
  cases value <;> rfl

@[simp]
theorem key?_rename (value : Value) : (value.rename R).key? = value.key?.map (Key.rename R) := by
  cases value <;> rfl

@[simp]
theorem unwrapped_rename (value : Value) :
    (value.rename R).unwrapped = value.unwrapped.rename R := by
  cases value <;> rfl

theorem exists_of_kind_number {value : Value} (number : value.kind = .number) :
    ∃ x, value = .number x := by
  cases value <;> cases number
  exact ⟨_, rfl⟩

theorem exists_of_kind_text {value : Value} (text : value.kind = .text) : ∃ s, value = .text s := by
  cases value <;> cases text
  exact ⟨_, rfl⟩

theorem same_rename (left right : Value) :
    (left.rename R).same (right.rename R) = left.same right := by
  have ids (id other : Nat) : (R.object id == R.object other) = (id == other) :=
    Bool.eq_iff_iff.mpr (by simp [R.injective.eq_iff])
  cases left with
  | number x =>
      cases right with
      | number y => exact Number.same_rename x y
      | _ => rfl
  | array id | hash id | function id | result id | error id =>
      cases right <;> first | rfl | exact ids id _
  | _ => cases right <;> rfl

end Value

/-! ## Operations -/

theorem Entries.insert_rename (key : Key) (value : Value) (entries : Entries) :
    Entries.insert (key.rename R) (value.rename R) (entries.map (Value.renameEntry R)) =
      (Entries.insert key value entries).map (Value.renameEntry R) := by
  induction entries with
  | nil => rfl
  | cons entry more ih =>
      simp only [List.map_cons, insert, Value.renameEntry, Key.same_rename]
      split
      · rfl
      · rw [ih, List.map_cons]
        rfl

theorem Entries.find?_rename (entries : Entries) (key : Key) :
    Entries.find? (entries.map (Value.renameEntry R)) (key.rename R) =
      (entries.find? key).map (Value.rename R) := by
  simp [find?, List.find?_map, Function.comp_def, Value.renameEntry, Key.same_rename]

namespace Operator

theorem unary_rename (id : Nat) (operator : String) (operand : Value) :
    unary (R.object id) operator (operand.rename R) = (unary id operator operand).map (Value.rename R) := by
  by_cases bang : operator = "!"
  · subst bang
    exact congrArg (fun truth => Except.ok (Value.boolean !truth)) operand.truthy_rename
  by_cases minus : operator = "-"
  · subst minus
    cases operand with
    | number x => exact congrArg (fun y => Except.ok (Value.number y)) (Number.neg_rename id x)
    | _ => rfl
  · have other (id : Nat) (value : Value) :
        unary id operator value = .error (.unknownUnary operator value.kind) := by
      unfold unary
      split
      · exact absurd rfl bang
      · exact absurd rfl minus
      · rfl
    rw [other, other, Value.kind_rename]
    rfl

theorem numeric?_rename (id : Nat) (operator : String) (x y : Number) :
    numeric? (R.object id) operator (x.rename R) (y.rename R) =
      (numeric? id operator x y).map (Value.rename R) := by
  unfold numeric?
  split <;> simp only [Number.add_rename, Number.sub_rename, Number.mul_rename, Number.div_rename,
    Number.lt_rename, Number.le_rename, Number.eq_rename, Option.map_some, Option.map_none, Value.rename]

theorem textual?_rename (operator : String) (s t : String) :
    (textual? operator s t).map (Value.rename R) = textual? operator s t := by
  unfold textual?
  split <;> rfl

theorem identical?_rename (operator : String) (left right : Value) :
    identical? operator (left.rename R) (right.rename R) =
      (identical? operator left right).map (Value.rename R) := by
  unfold identical?
  rw [Value.same_rename]
  split <;> rfl

theorem binary_of_numbers (id : Nat) (operator : String) (x y : Number) :
    binary id operator (.number x) (.number y) =
      (numeric? id operator x y).elim (.error (.unknownBinary .number operator .number)) .ok := by
  unfold binary
  dsimp only
  rw [if_pos (by rfl)]
  cases numeric? id operator x y <;> rfl

theorem binary_of_texts (id : Nat) (operator : String) (s t : String) :
    binary id operator (.text s) (.text t) =
      (textual? operator s t).elim (.error (.unknownBinary .text operator .text)) .ok := by
  unfold binary
  dsimp only
  rw [if_pos (by rfl)]
  cases textual? operator s t <;> rfl

theorem binary_of_others (id : Nat) (operator : String) {left right : Value}
    (kinds : left.kind = right.kind) (number : left.kind ≠ .number) (text : left.kind ≠ .text) :
    binary id operator left right = (identical? operator left right).elim
      (.error (.unknownBinary left.kind operator right.kind)) .ok := by
  unfold binary
  dsimp only
  rw [if_pos kinds]
  cases left with
  | number => exact absurd rfl number
  | text => exact absurd rfl text
  | _ => cases identical? operator _ right <;> rfl

theorem elim_rename (fault : Fault) (outcome : Option Value) :
    (outcome.map (Value.rename R)).elim (.error fault) .ok =
      (outcome.elim (.error fault) .ok : Except Fault Value).map (Value.rename R) := by
  cases outcome <;> rfl

theorem binary_rename (id : Nat) (operator : String) (left right : Value) :
    binary (R.object id) operator (left.rename R) (right.rename R) =
      (binary id operator left right).map (Value.rename R) := by
  by_cases kinds : left.kind = right.kind
  · by_cases number : left.kind = .number
    · obtain ⟨x, rfl⟩ := Value.exists_of_kind_number number
      obtain ⟨y, rfl⟩ := Value.exists_of_kind_number (kinds ▸ number)
      rw [Value.rename, Value.rename, binary_of_numbers, binary_of_numbers, numeric?_rename, elim_rename]
    by_cases text : left.kind = .text
    · obtain ⟨s, rfl⟩ := Value.exists_of_kind_text text
      obtain ⟨t, rfl⟩ := Value.exists_of_kind_text (kinds ▸ text)
      show binary (R.object id) operator (.text s) (.text t) = _
      rw [binary_of_texts, binary_of_texts, ← elim_rename, textual?_rename]
    · have renamed : (left.rename R).kind = (right.rename R).kind := by simpa using kinds
      rw [binary_of_others _ operator kinds number text, binary_of_others _ operator renamed
        (by simpa using number) (by simpa using text), identical?_rename, elim_rename,
        Value.kind_rename, Value.kind_rename]
  · have mismatch (id : Nat) {left right : Value} (kinds : left.kind ≠ right.kind) :
        binary id operator left right = .error (.mismatch left.kind operator right.kind) := by
      unfold binary
      dsimp only
      rw [if_neg kinds]
    rw [mismatch id kinds, mismatch _ (by simpa using kinds), Value.kind_rename, Value.kind_rename]
    rfl

theorem index_rename (subject position : Value) :
    index (subject.rename R) (position.rename R) = (index subject position).map (Value.rename R) := by
  cases subject with
  | array id items =>
      cases position with
      | number x =>
          rw [Value.rename_array]
          simp only [index, Value.rename, Number.toInt?_rename]
          cases x.toInt? with
          | none => rfl
          | some n =>
              simp only [Except.map]
              split
              · rfl
              · rw [List.getElem?_map]
                cases items[n.toNat]? <;> rfl
      | _ => rfl
  | hash id entries =>
      rw [Value.rename_hash]
      simp only [index, Value.key?_rename, Value.kind_rename]
      cases position.key? with
      | none => rfl
      | some key =>
          simp only [Option.map_some, Entries.find?_rename, Except.map]
          cases Entries.find? entries key <;> rfl
  | _ => rfl

end Operator

namespace Builtin

/-- What a function makes of the items of an array argument. -/
theorem items_rename (builtin : Builtin) (argument : Value) {make image : List Value → Value}
    (makes : ∀ items : List Value, image (items.map (Value.rename R)) = (make items).rename R) :
    (items builtin (argument.rename R)).map image =
      ((items builtin argument).map make).map (Value.rename R) := by
  cases argument with
  | array id items =>
      rw [Value.rename_array]
      exact congrArg Except.ok (makes items)
  | _ => rfl

theorem result_rename (id : Nat) (builtin : Builtin) (arguments : List Value) :
    builtin.result (R.object id) (arguments.map (Value.rename R)) =
      (builtin.result id arguments).map (Value.rename R) := by
  have counted (n : Nat) : Value.number (.ofNat n) = (Value.number (.ofNat n)).rename R :=
    congrArg Value.number (Number.rename_ofNat n).symm
  rcases arguments with _ | ⟨argument, _ | ⟨item, _ | ⟨third, more⟩⟩⟩
  · cases builtin <;> rfl
  · cases builtin with
    | len =>
        cases argument with
        | array own items =>
            rw [List.map_singleton, Value.rename_array, result, result, List.length_map]
            exact congrArg Except.ok (counted items.length)
        | text s => exact congrArg Except.ok (counted s.length)
        | _ => rfl
    | first =>
        refine items_rename .first argument fun items => ?_
        cases items <;> rfl
    | last =>
        refine items_rename .last argument fun items => ?_
        rw [List.getLast?_map]
        cases items.getLast? <;> rfl
    | rest =>
        refine items_rename .rest argument fun items => ?_
        cases items with
        | nil => rfl
        | cons first others => exact (Value.rename_array id others).symm
    | push | puts => rfl
  · cases builtin with
    | push =>
        refine items_rename .push argument fun items => ?_
        rw [Value.rename_array, List.map_append, List.map_singleton]
    | len => cases argument <;> rfl
    | _ => rfl
  · cases builtin <;> cases argument <;> rfl

theorem apply_rename (id : Nat) (builtin : Builtin) (arguments : List Value) :
    builtin.apply (R.object id) (arguments.map (Value.rename R)) =
      (builtin.apply id arguments).map (Value.rename R) := by
  unfold apply
  rw [List.length_map, result_rename]
  split
  · split <;> rfl
  · rfl

end Builtin

/-! ## Writing values -/

theorem displayEach_eq_map (values : List Value) : displayEach values = values.map Value.display := by
  induction values with
  | nil => rfl
  | cons value more ih => rw [displayEach, ih, List.map_cons]

theorem displayEntries_eq_map (entries : List (Key × Value)) :
    displayEntries entries = entries.map fun entry => entry.1.display ++ ": " ++ entry.2.display := by
  induction entries with
  | nil => rfl
  | cons entry more ih => rw [displayEntries, ih, List.map_cons]

/-- What is written of a plain value shows no names, if its functions are written the same. -/
theorem Value.Plain.display_rename {fact : Node → Prop} {value : Value} (plain : value.Plain fact)
    (trees : ∀ node : Node, node.Every fact → (node.mapLines R.line).render = node.render) :
    (value.rename R).display = value.display := by
  induction plain with
  | null | boolean | text | builtin => rfl
  | number => exact Number.text_rename _
  | @array id items _ ih =>
      have each : items.map (display ∘ rename R) = items.map display := List.map_congr_left ih
      rw [rename_array, display, display, displayEach_eq_map, displayEach_eq_map, List.map_map, each]
  | @hash id entries _ ih =>
      have each : ∀ entry ∈ entries,
          (entry.1.rename R).display ++ ": " ++ (entry.2.rename R).display =
            entry.1.display ++ ": " ++ entry.2.display := by
        intro entry member
        rw [ih entry member, Key.display_rename]
      rw [rename_hash, display, display, displayEntries_eq_map, displayEntries_eq_map, List.map_map]
      exact congrArg (braced ∘ commaSeparated) (List.map_congr_left each)
  | function every =>
      rw [rename, display, display, Node.renderParameters_mapLine, trees _ every]

theorem Builtin.printed_rename {fact : Node → Prop} (builtin : Builtin) {arguments : List Value}
    (plain : ∀ argument ∈ arguments, argument.Plain fact)
    (trees : ∀ node : Node, node.Every fact → (node.mapLines R.line).render = node.render) :
    builtin.printed (arguments.map (Value.rename R)) = builtin.printed arguments := by
  cases builtin with
  | puts =>
      rw [printed, printed, List.map_map]
      exact List.map_congr_left fun argument member => (plain argument member).display_rename trees
  | _ => rfl

end Treewalk
