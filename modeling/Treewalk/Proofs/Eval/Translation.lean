import Treewalk.Proofs.Eval.Discipline
import Treewalk.Proofs.Tree.Lines

/-!
# Runs in translation

A `Translation` says what becomes of lines, ids, scopes, values and stores when the same program is run
elsewhere. `Translation.Lawful` asks of each operation and each effect that it commutes with the
translation, once. From this `Translation.eval_carries` shows that running a tree does: the run of the
translated tree in the translated store does, translated, what the run does. `Translation.apply_carries`
shows the same of calls.

What the laws may take for granted of stores and values is what a discipline keeps up along the run.
-/

namespace Treewalk

open Eval

/-- What becomes of a run elsewhere. -/
structure Translation where
  line : Int → Int
  id : Nat → Nat
  scope : Nat → Nat
  key : Key → Key
  value : Value → Value
  store : Store → Store

namespace Translation

variable (T : Translation) {α β γ δ : Type}

/-- `image` does in the translated store what `run` does in the store. -/
def Carries (f : α → β) (store : Store) (run : Eval α) (image : Eval β) : Prop :=
  image (T.store store) =
    match run store with
    | .ok value after => .ok (f value) (T.store after)
    | .error cut after => .error cut (T.store after)

/-- The values of a row, or the signal that stopped it. -/
def row : Except Value (List Value) → Except Value (List Value)
  | .ok values => .ok (values.map T.value)
  | .error signal => .error (T.value signal)

def entry (entry : Key × Value) : Key × Value := (T.key entry.1, T.value entry.2)

/-- The entries of a hash, or the signal that stopped it. -/
def entries : Except Value Entries → Except Value Entries
  | .ok made => .ok (made.map T.entry)
  | .error signal => .error (T.value signal)

/-- What a translation has to withstand along runs that keep to a discipline. -/
structure Lawful (D : Discipline) : Prop where
  zero : T.line 0 = 0
  -- Values
  atom : ∀ {value}, value.Atomic → value.kind ≠ .number → T.value value = value
  number : ∀ {line value literal}, D.fact (.number line value literal) →
    T.value (.number value) = .number value
  array : ∀ id items, T.value (.array id items) = .array (T.id id) (items.map T.value)
  hash : ∀ id entries, T.value (.hash id entries) = .hash (T.id id) (entries.map T.entry)
  function : ∀ id parameters body home, T.value (.function id parameters body home) =
    .function (T.id id) (parameters.map (Name.mapLine T.line)) (body.mapLines T.line) (T.scope home)
  kind : ∀ value, (T.value value).kind = value.kind
  truthy : ∀ value, (T.value value).truthy = value.truthy
  unwrapped : ∀ value, (T.value value).unwrapped = T.value value.unwrapped
  -- Operations on values
  key? : ∀ value, (T.value value).key? = value.key?.map T.key
  insert : ∀ key value entries, Entries.insert (T.key key) (T.value value) (entries.map T.entry) =
    (Entries.insert key value entries).map T.entry
  unary : ∀ {store operand} id operator, D.plain store operand →
    Operator.unary (T.id id) operator (T.value operand) =
      (Operator.unary id operator operand).map T.value
  binary : ∀ {store left right} id operator, D.plain store left → D.plain store right →
    Operator.binary (T.id id) operator (T.value left) (T.value right) =
      (Operator.binary id operator left right).map T.value
  index : ∀ {store subject position}, D.plain store subject → D.plain store position →
    Operator.index (T.value subject) (T.value position) = (Operator.index subject position).map T.value
  builtin : ∀ {store arguments} id builtin, (∀ argument ∈ arguments, D.plain store argument) →
    Builtin.apply (T.id id) builtin (arguments.map T.value) =
      (Builtin.apply id builtin arguments).map T.value
  printed : ∀ {store arguments} builtin, (∀ argument ∈ arguments, D.plain store argument) →
    Builtin.printed builtin (arguments.map T.value) = Builtin.printed builtin arguments
  -- Effects
  lookup : ∀ {store} scope name, D.inv store →
    (T.store store).lookup (T.scope scope) name = (store.lookup scope name).map T.value
  fresh : ∀ {store}, D.inv store → T.Carries T.id store fresh fresh
  raise : ∀ {store} line fault, D.inv store →
    T.Carries T.value store (raise line fault) (raise (T.line line) fault)
  giveBack : ∀ {store} value, D.inv store →
    T.Carries T.value store (giveBack value) (giveBack (T.value value))
  assign : ∀ {store} scope name value, D.inv store →
    T.Carries (fun _ => ()) store (assign scope name value) (assign (T.scope scope) name (T.value value))
  openScope : ∀ {store} home, D.inv store →
    T.Carries T.scope store (openScope home) (openScope (T.scope home))
  print : ∀ {store} line, D.inv store →
    T.Carries (fun _ => ()) store (record (.printed line)) (record (.printed line))
  close : ∀ store scope value, T.Carries (fun _ => ()) store (record (.closed scope value))
    (record (.closed (T.scope scope) (T.value value)))

/-- A meaning of calls and its translation. -/
def Answers (D : Discipline) (call image : Call) : Prop :=
  ∀ (store : Store) (line : Int) (function : Node) (nodes : List Node) (callee : Value)
    (arguments : List Value), D.inv store → D.fact (.call line function nodes) →
    D.plain store callee → (∀ argument ∈ arguments, D.plain store argument) →
    T.Carries T.value store (call callee arguments line)
      (image (T.value callee) (arguments.map T.value) (T.line line))

variable {T} {D : Discipline} {store : Store}

/-! ## Sequences -/

theorem carries_pure {f : α → β} (value : α) : T.Carries f store (pure value) (pure (f value)) := rfl

theorem carries_pure_of {f : α → β} {value : α} {image : β} (same : f value = image) :
    T.Carries f store (pure value) (pure image) :=
  same ▸ carries_pure value

theorem carries_bind {f : α → β} {g : γ → δ} {run : Eval α} {image : Eval β} {next : α → Eval γ}
    {imageNext : β → Eval δ} (first : T.Carries f store run image)
    (then_ : run.Ends store (fun value after => T.Carries g after (next value) (imageNext (f value)))
      fun _ => True) : T.Carries g store (run >>= next) (image >>= imageNext) := by
  unfold Carries at first ⊢
  unfold Ends at then_
  simp only [bind, EStateM.bind]
  cases result : run store with
  | ok value after =>
      rw [result] at first then_
      simp only [first]
      exact then_
  | error cut after =>
      rw [result] at first
      simp only [first]

theorem isSignal_of_kind {value other : Value} (same : value.kind = other.kind) :
    value.isSignal = other.isSignal := by
  have shown (value : Value) : value.isSignal = (value.kind == .result || value.kind == .error) := by
    cases value <;> rfl
  rw [shown, shown, same]

section Rules

variable (laws : T.Lawful D)

include laws

theorem Lawful.null : T.value .null = .null := laws.atom trivial nofun

theorem Lawful.boolean (b : Bool) : T.value (.boolean b) = .boolean b := laws.atom trivial nofun

theorem Lawful.value_text (value : String) : T.value (.text value) = .text value := laws.atom trivial nofun

theorem Lawful.value_builtin (builtin : Builtin) : T.value (.builtin builtin) = .builtin builtin :=
  laws.atom trivial nofun

theorem Lawful.isSignal (value : Value) : (T.value value).isSignal = value.isSignal :=
  isSignal_of_kind (laws.kind value)

/-- Going on with the value of a part; a signal is passed on in translation too. -/
theorem carries_andThen {run image : Eval Value} {next imageNext : Value → Eval Value}
    (follows : D.Follows store run) (first : T.Carries T.value store run image)
    (then_ : ∀ value after, D.inv after → D.moves store after → D.plain after value →
      T.Carries T.value after (next value) (imageNext (T.value value))) :
    T.Carries T.value store (andThen run next) (andThen image imageNext) := by
  refine carries_bind first (follows.imp ?_ fun _ _ => trivial)
  intro value after arrives
  rw [laws.isSignal]
  split
  case isTrue => exact carries_pure value
  case isFalse ordinary =>
    obtain ⟨inv, moves, plain⟩ := arrives.plain ordinary
    exact then_ value after inv moves plain

theorem carries_fresh {next imageNext : Nat → Eval Value} (inv : D.inv store)
    (then_ : T.Carries T.value { store with nextId := store.nextId + 1 } (next store.nextId)
      (imageNext (T.id store.nextId))) :
    T.Carries T.value store (fresh >>= next) (fresh >>= imageNext) :=
  carries_bind (laws.fresh inv) (ends_fresh.mpr then_)

theorem carries_settle (line : Int) {outcome image : Except Fault Value}
    (same : image = outcome.map T.value) (inv : D.inv store) :
    T.Carries T.value store (settle line outcome) (settle (T.line line) image) := by
  rw [same]
  cases outcome with
  | ok value => exact carries_pure value
  | error fault => exact laws.raise line fault inv

end Rules

/-- Going on with what a row of parts gives. -/
theorem carries_collected {f : Except Value γ → Except Value γ} {good : Store → γ → Prop}
    {run image : Eval (Except Value γ)} {next imageNext : Except Value γ → Eval Value}
    (collects : D.Collects good store run) (first : T.Carries f store run image)
    (passes : ∀ signal after,
      T.Carries T.value after (next (.error signal)) (imageNext (f (.error signal))))
    (then_ : ∀ values after, D.inv after → D.moves store after → good after values →
      T.Carries T.value after (next (.ok values)) (imageNext (f (.ok values)))) :
    T.Carries T.value store (run >>= next) (image >>= imageNext) := by
  refine carries_bind first (collects.imp ?_ fun _ _ => trivial)
  intro collected after gathers
  cases collected with
  | ok values => exact then_ values after gathers.1 gathers.2.1 gathers.2.2
  | error signal => exact passes signal after

/-! ## Rows of trees -/

/-- Running a tree keeps to the discipline and is carried by the translation. -/
structure Carried (T : Translation) (D : Discipline) (call image : Call) (scope : Nat) (node : Node)
    (store : Store) : Prop where
  follows : D.Follows store (node.eval call scope)
  carries : T.Carries T.value store (node.eval call scope)
    ((node.mapLines T.line).eval image (T.scope scope))

section Rows

variable {call image : Call} {scope : Nat} (laws : T.Lawful D)

include laws

theorem carries_evalEach {nodes : List Node} (inv : D.inv store)
    (each : ∀ node ∈ nodes, ∀ store, D.inv store → Carried T D call image scope node store) :
    T.Carries T.row store (evalEach call scope nodes)
      (evalEach image (T.scope scope) (nodes.map (Node.mapLines T.line))) := by
  induction nodes generalizing store with
  | nil => exact carries_pure (Except.ok [])
  | cons node more ih =>
      have here := each node List.mem_cons_self store inv
      rw [List.map_cons, evalEach, evalEach]
      refine carries_bind here.carries (here.follows.imp ?_ fun _ _ => trivial)
      intro value after arrives
      rw [laws.isSignal]
      split
      case isTrue => exact carries_pure (Except.error value)
      case isFalse ordinary =>
        have rest := ih (arrives.plain ordinary).1 fun other member =>
          each other (List.mem_cons_of_mem _ member)
        refine carries_bind rest (ends_of_forall ?_ fun _ => trivial)
        intro collected last
        cases collected with
        | ok values => exact carries_pure (Except.ok (value :: values))
        | error signal => exact carries_pure (Except.error signal)

theorem carries_evalEntries {pairs : List (Node × Node)} {done : Entries} (inv : D.inv store)
    (each : ∀ entry ∈ pairs, ∀ store, D.inv store →
      Carried T D call image scope entry.1 store ∧ Carried T D call image scope entry.2 store) :
    T.Carries T.entries store (evalEntries call scope done pairs)
      (evalEntries image (T.scope scope) (done.map T.entry)
        (pairs.map fun entry => (entry.1.mapLines T.line, entry.2.mapLines T.line))) := by
  induction pairs generalizing store done with
  | nil => exact carries_pure (Except.ok done)
  | cons pair more ih =>
      obtain ⟨keyNode, valueNode⟩ := pair
      have here := each (keyNode, valueNode) List.mem_cons_self
      have first := (here store inv).1
      rw [List.map_cons, evalEntries, evalEntries]
      refine carries_bind first.carries (first.follows.imp ?_ fun _ _ => trivial)
      intro key middle arrives
      rw [laws.isSignal]
      split
      case isTrue => exact carries_pure (Except.error key)
      case isFalse ordinary =>
        have inv := (arrives.plain ordinary).1
        rw [laws.key?, Node.line_mapLines laws.zero, laws.kind]
        cases key.key? with
        | none =>
            refine carries_bind (laws.raise _ _ inv) (ends_of_forall ?_ fun _ => trivial)
            exact fun signal after => carries_pure (Except.error signal)
        | some found =>
            have second := (here middle inv).2
            refine carries_bind second.carries (second.follows.imp ?_ fun _ _ => trivial)
            intro value last arrives
            rw [laws.isSignal]
            split
            case isTrue => exact carries_pure (Except.error value)
            case isFalse ordinary =>
              rw [laws.insert]
              exact ih (arrives.plain ordinary).1 fun other member =>
                each other (List.mem_cons_of_mem _ member)

theorem carries_evalStatements {statements : List Node} (last : Value) (inv : D.inv store)
    (each : ∀ node ∈ statements, ∀ store, D.inv store → Carried T D call image scope node store) :
    T.Carries T.value store (evalStatements call scope last statements)
      (evalStatements image (T.scope scope) (T.value last) (statements.map (Node.mapLines T.line))) := by
  induction statements generalizing store last with
  | nil => exact carries_pure last
  | cons node more ih =>
      have here := each node List.mem_cons_self store inv
      rw [List.map_cons, evalStatements, evalStatements]
      refine carries_andThen laws here.follows here.carries ?_
      intro value after inv _ _
      exact ih value inv fun other member => each other (List.mem_cons_of_mem _ member)

end Rows

/-! ## Trees -/

/-- Running a tree is carried by every lawful translation that carries calls. -/
theorem eval_carried {call image : Call} {scope : Nat} (laws : T.Lawful D) (lawful : D.Lawful scope)
    (answers : D.Answers call) (images : T.Answers D call image) (assigns : ∀ name, D.assigns name)
    (node : Node) (every : node.Every D.fact) (store : Store) (inv : D.inv store) :
    Carried T D call image scope node store := by
  refine ⟨Discipline.eval_follows lawful answers node every (fun name _ => assigns name) store inv, ?_⟩
  induction node using Node.child_induction generalizing store with
  | step node ih =>
    -- The laws ask for what the discipline says of the store and the values at hand, so along with
    -- being carried each part has to keep to the discipline.
    have below : ∀ child ∈ node.children, ∀ store, D.inv store →
        Carried T D call image scope child store := by
      intro child member store inv
      have every := every.child member
      exact ⟨Discipline.eval_follows lawful answers child every (fun name _ => assigns name) store inv,
        ih child member every store inv⟩
    have fact := every.here
    cases node with
    | missing =>
        have raised := laws.raise 0 (.nothingToEvaluate "NoneType") inv
        rw [laws.zero] at raised
        exact raised
    | bare line => exact laws.raise line (.nothingToEvaluate "Node") inv
    | number line value literal => exact carries_pure_of (laws.number fact)
    | text line value => exact carries_pure_of (laws.value_text value)
    | boolean line value => exact carries_pure_of (laws.boolean value)
    | identifier line name =>
        rw [Node.eval, Node.mapLines, Node.eval]
        -- What is read here is the store itself, translated.
        refine carries_bind (f := T.store) rfl (ends_get.mpr ?_)
        rw [laws.lookup scope name inv]
        cases store.lookup scope name with
        | some value => exact carries_pure value
        | none =>
            simp only [Option.map_none]
            cases Builtin.find? name with
            | some builtin => exact carries_pure_of (laws.value_builtin builtin)
            | none => exact laws.raise line (.notFound name) inv
    | unary line operator operand =>
        have part := below operand (by simp [Node.children]) store inv
        rw [Node.eval, Node.mapLines, Node.eval]
        refine carries_andThen laws part.follows part.carries ?_
        intro value after inv _ plain
        refine carries_fresh laws inv ?_
        exact carries_settle laws line (laws.unary _ operator plain) (lawful.fresh inv).1
    | binary line left operator right =>
        have first := below left (by simp [Node.children]) store inv
        rw [Node.eval, Node.mapLines, Node.eval]
        refine carries_andThen laws first.follows first.carries ?_
        intro a middle inv _ plainA
        have second := below right (by simp [Node.children]) middle inv
        refine carries_andThen laws second.follows second.carries ?_
        intro b after inv moves plainB
        refine carries_fresh laws inv ?_
        exact carries_settle laws line (laws.binary _ operator (lawful.mono moves plainA) plainB)
          (lawful.fresh inv).1
    | logical line left operator right =>
        have first := below left (by simp [Node.children]) store inv
        rw [Node.eval, Node.mapLines, Node.eval]
        refine carries_andThen laws first.follows first.carries ?_
        intro a middle inv _ _
        rw [laws.truthy]
        split
        · exact carries_pure_of (laws.boolean false)
        split
        · exact carries_pure_of (laws.boolean true)
        · have second := below right (by simp [Node.children]) middle inv
          refine carries_andThen laws second.follows second.carries ?_
          intro b after _ _ _
          rw [laws.truthy]
          exact carries_pure_of (laws.boolean b.truthy)
    | conditional line condition consequence alternative =>
        cases alternative with
        | none =>
            have first := below condition (by simp [Node.children]) store inv
            rw [Node.eval, Node.mapLines, Node.eval]
            refine carries_andThen laws first.follows first.carries ?_
            intro value after inv _ _
            rw [laws.truthy]
            split
            · exact (below consequence (by simp [Node.children]) after inv).carries
            · exact carries_pure_of laws.null
        | some alternative =>
            have first := below condition (by simp [Node.children]) store inv
            rw [Node.eval, Node.mapLines, Node.eval]
            refine carries_andThen laws first.follows first.carries ?_
            intro value after inv _ _
            rw [laws.truthy]
            split
            · exact (below consequence (by simp [Node.children]) after inv).carries
            · exact (below alternative (by simp [Node.children]) after inv).carries
    | function line parameters body =>
        rw [Node.eval, Node.mapLines, Node.eval]
        exact carries_fresh laws inv (carries_pure_of (laws.function ..))
    | call line callee arguments =>
        have first := below callee (by simp [Node.children]) store inv
        have each : ∀ node ∈ arguments, ∀ store, D.inv store → Carried T D call image scope node store :=
          fun node member => below node (by simp [Node.children, member])
        rw [Node.eval, Node.mapLines, Node.eval, mapLinesEach_eq_map]
        refine carries_andThen laws first.follows first.carries ?_
        intro function middle inv _ plain
        refine carries_collected (Discipline.collects_evalEach lawful inv fun node member store inv =>
          (each node member store inv).follows) (carries_evalEach laws inv each)
          (fun signal _ => carries_pure signal) ?_
        intro values after inv moves plainValues
        exact images after line _ _ function values inv fact (lawful.mono moves plain) plainValues
    | array line items =>
        rw [Node.eval, Node.mapLines, Node.eval, mapLinesEach_eq_map]
        refine carries_collected (Discipline.collects_evalEach lawful inv fun node member store inv =>
          (below node member store inv).follows) (carries_evalEach laws inv below)
          (fun signal _ => carries_pure signal) ?_
        intro values after inv _ _
        exact carries_fresh laws inv (carries_pure_of (laws.array ..))
    | index line subject position =>
        have first := below subject (by simp [Node.children]) store inv
        rw [Node.eval, Node.mapLines, Node.eval]
        refine carries_andThen laws first.follows first.carries ?_
        intro a middle inv _ plainA
        have second := below position (by simp [Node.children]) middle inv
        refine carries_andThen laws second.follows second.carries ?_
        intro b after inv moves plainB
        exact carries_settle laws line (laws.index (lawful.mono moves plainA) plainB) inv
    | hash line pairs =>
        have each : ∀ entry ∈ pairs, ∀ store, D.inv store →
            Carried T D call image scope entry.1 store ∧ Carried T D call image scope entry.2 store := by
          intro entry member store inv
          have halves := Node.mem_children_hash line member
          exact ⟨below _ halves.1 store inv, below _ halves.2 store inv⟩
        rw [Node.eval, Node.mapLines, Node.eval, mapLinesEntries_eq_map]
        have none : ∀ entry ∈ ([] : Entries), D.Entry store entry := by simp
        have collects := Discipline.collects_evalEntries lawful inv fact (fun _ h => h) none
          fun entry member store inv =>
            ⟨(each entry member store inv).1.follows, (each entry member store inv).2.follows⟩
        refine carries_collected collects (carries_evalEntries laws inv each)
          (fun signal _ => carries_pure signal) ?_
        intro made after inv _ _
        exact carries_fresh laws inv (carries_pure_of (laws.hash ..))
    | binding line name value =>
        have part := below value (by simp [Node.children]) store inv
        rw [Node.eval, Node.mapLines, Node.eval]
        refine carries_andThen laws part.follows part.carries ?_
        intro value after inv _ _
        exact carries_bind (laws.assign scope name.text value inv)
          (ends_assign.mpr (carries_pure_of laws.null))
    | result line value =>
        cases value with
        | none =>
            have given := laws.giveBack .null inv
            rw [laws.null] at given
            exact given
        | some value =>
            have part := below value (by simp [Node.children]) store inv
            rw [Node.eval, Node.mapLines, Node.eval]
            refine carries_andThen laws part.follows part.carries ?_
            intro value after inv _ _
            exact laws.giveBack value inv
    | expression line inner => exact (below inner (by simp [Node.children]) store inv).carries
    | block line statements =>
        have run := carries_evalStatements laws .null inv below
        rw [laws.null] at run
        rw [Node.eval, Node.mapLines, Node.eval, mapLinesEach_eq_map]
        exact run
    | program line statements =>
        have run := carries_evalStatements laws .null inv below
        rw [laws.null] at run
        rw [Node.eval, Node.mapLines, Node.eval, mapLinesEach_eq_map]
        refine carries_bind run (ends_of_forall ?_ fun _ => trivial)
        exact fun value after => carries_pure_of (laws.unwrapped value).symm

/-! ## Calls -/

/-- A discipline that runs keep to in every scope and at every depth of calls. -/
structure Kept (D : Discipline) : Prop where
  lawful : ∀ scope, D.Lawful scope
  answers : ∀ depth, D.Answers (apply depth)
  assigns : ∀ name, D.assigns name
  opened : ∀ {store} home, D.inv store →
    D.inv { store.addScope (some home) with log := .opened store.scopes.size home :: store.log } ∧
      D.moves store
        { store.addScope (some home) with log := .opened store.scopes.size home :: store.log }
  body : ∀ {store id parameters body home}, D.plain store (.function id parameters body home) →
    body.Every D.fact

theorem apply_of_kind {callee : Value} (depth : Nat) (arguments : List Value) (line : Int)
    (function : callee.kind ≠ .function) (builtin : callee.kind ≠ .builtin) :
    apply depth callee arguments line = raise line (.notAFunction callee.kind) := by
  cases callee with
  | function => exact absurd rfl function
  | builtin => exact absurd rfl builtin
  | _ =>
      unfold apply
      rfl

section Calls

variable (laws : T.Lawful D) (kept : Kept D)

include laws kept

theorem carries_printAll (lines : List String) (inv : D.inv store) :
    T.Carries (fun _ => ()) store (printAll lines) (printAll lines) := by
  induction lines generalizing store with
  | nil => exact carries_pure ()
  | cons line lines ih =>
      rw [printAll]
      exact carries_bind (laws.print line inv) (ends_record.mpr (ih ((kept.lawful 0).print line inv).1))

theorem carries_assignAll (scope : Nat) (names : List Name) (values : List Value) (inv : D.inv store)
    (plain : ∀ value ∈ values, D.plain store value) :
    T.Carries (fun _ => ()) store (assignAll scope names values)
      (assignAll (T.scope scope) (names.map (Name.mapLine T.line)) (values.map T.value)) := by
  induction names generalizing values store with
  | nil => exact carries_pure ()
  | cons name names ih =>
      cases values with
      | nil => exact carries_pure ()
      | cons value values =>
          obtain ⟨bound, moves⟩ := (kept.lawful scope).assign inv (plain value List.mem_cons_self)
            (kept.assigns name.text)
          rw [List.map_cons, List.map_cons, assignAll, assignAll]
          refine carries_bind (laws.assign scope name.text value inv) (ends_assign.mpr ?_)
          exact ih values bound fun other member =>
            (kept.lawful scope).mono moves (plain other (List.mem_cons_of_mem _ member))

/-- A call of a function with one level of calls more than its body has. -/
theorem carries_body {rest id home : Nat} {parameters : List Name} {body : Node}
    {arguments : List Value} (line : Int) (inner : T.Answers D (apply rest) (apply rest))
    (inv : D.inv store) (plainCallee : D.plain store (.function id parameters body home))
    (plain : ∀ argument ∈ arguments, D.plain store argument)
    (matching : arguments.length = parameters.length) :
    T.Carries T.value store (apply (rest + 1) (.function id parameters body home) arguments line)
      (apply (rest + 1) (T.value (.function id parameters body home)) (arguments.map T.value)
        (T.line line)) := by
  obtain ⟨opened, moves⟩ := kept.opened home inv
  have plain : ∀ argument ∈ arguments, D.plain _ argument := fun argument member =>
    (kept.lawful 0).mono moves (plain argument member)
  rw [laws.function]
  unfold apply
  simp only [List.length_map, matching, ne_eq, not_true_eq_false, if_false]
  refine carries_bind (laws.openScope home inv) (ends_openScope.mpr ?_)
  have assigned := carries_assignAll laws kept store.scopes.size parameters arguments opened plain
  have entered := Discipline.ends_assignAll (kept.lawful store.scopes.size) parameters arguments opened
    plain fun name _ => kept.assigns name.text
  refine carries_bind assigned (entered.imp ?_ fun _ _ => trivial)
  rintro _ inside ⟨inv, _⟩
  have run := eval_carried laws (kept.lawful store.scopes.size) (kept.answers rest) inner kept.assigns
    body (kept.body plainCallee) inside inv
  refine carries_bind run.carries (ends_of_forall ?_ fun _ => trivial)
  intro value left
  rw [laws.unwrapped]
  refine carries_bind (laws.close left _ value.unwrapped) (ends_record.mpr ?_)
  exact carries_pure value.unwrapped

/-- A call is carried if calls are where the body of a function is run. -/
theorem carries_apply {depth : Nat} {callee : Value} {arguments : List Value} {line : Int}
    (inner : ∀ rest, depth = rest + 1 → T.Answers D (apply rest) (apply rest)) (inv : D.inv store)
    (plainCallee : D.plain store callee) (plain : ∀ argument ∈ arguments, D.plain store argument) :
    T.Carries T.value store (apply depth callee arguments line)
      (apply depth (T.value callee) (arguments.map T.value) (T.line line)) := by
  -- A translation keeps the kind of a value, so what cannot be called cannot be called there either.
  have other (function : callee.kind ≠ .function) (builtin : callee.kind ≠ .builtin) :
      T.Carries T.value store (apply depth callee arguments line)
        (apply depth (T.value callee) (arguments.map T.value) (T.line line)) := by
    rw [apply_of_kind depth arguments line function builtin,
      apply_of_kind depth _ _ (by rwa [laws.kind]) (by rwa [laws.kind]), laws.kind]
    exact laws.raise line _ inv
  cases callee with
  | function id parameters body home =>
      by_cases matching : arguments.length = parameters.length
      · cases depth with
        | succ rest => exact carries_body laws kept line (inner rest rfl) inv plainCallee plain matching
        | zero =>
            rw [laws.function]
            unfold apply
            simp only [List.length_map, matching, ne_eq, not_true_eq_false, if_false]
            rfl
      · rw [laws.function]
        unfold apply
        simp only [List.length_map, ne_eq, matching, not_false_eq_true, if_true]
        exact laws.raise line _ inv
  | builtin builtin =>
      rw [laws.value_builtin]
      unfold apply
      rw [laws.printed builtin plain]
      have printed := Discipline.ends_printAll (kept.lawful 0) (builtin.printed arguments) inv
      refine carries_bind (carries_printAll laws kept _ inv) (printed.imp ?_ fun _ _ => trivial)
      rintro _ after ⟨inv, moves⟩
      refine carries_fresh laws inv ?_
      exact carries_settle laws line (laws.builtin _ builtin plain) ((kept.lawful 0).fresh inv).1
  | _ => exact other (by simp [Value.kind]) (by simp [Value.kind])

/-- Calls are carried; the induction is on how many calls may be nested. -/
theorem apply_carries (depth : Nat) : T.Answers D (apply depth) (apply depth) := by
  induction depth with
  | zero =>
      intro store line _ _ callee arguments inv _ plainCallee plain
      exact carries_apply laws kept nofun inv plainCallee plain
  | succ depth ih =>
      intro store line _ _ callee arguments inv _ plainCallee plain
      refine carries_apply laws kept ?_ inv plainCallee plain
      rintro rest ⟨⟩
      exact ih

/-- Running a tree is carried, and keeps to the discipline. -/
theorem eval_carries (depth scope : Nat) {node : Node} (every : node.Every D.fact) (inv : D.inv store) :
    Carried T D (apply depth) (apply depth) scope node store :=
  eval_carried laws (kept.lawful scope) (kept.answers depth) (apply_carries laws kept depth) kept.assigns
    node every store inv

end Calls

end Translation

end Treewalk
