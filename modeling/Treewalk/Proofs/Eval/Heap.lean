import Treewalk.Proofs.Eval.Ends
import Treewalk.Proofs.Store.Scopes
import Treewalk.Proofs.Tree.Subtree
import Treewalk.Proofs.Value.Objects

/-!
# Runs grow the heap

A store is housed by a heap if every value that it holds fits the heap. Values that a run has given and
that are not bound yet fit it as well, and this is why a discipline does not do here: what is known of
such a value is not about the value and the store, but about all of them together. So a run is started
with a heap, and gives another that has grown out of it (`Keeps`). Trees are gone through in
`eval_keeps`, calls in `apply_keeps`.

Where an object is made, all others are older: `Made` says so for literals and for the built-in functions
that give a new array.
-/

namespace Treewalk

open Eval

/-! ## What a store holds -/

/-- The values that an event tells of. -/
def Event.values : Event → List Value
  | .bound _ _ value | .closed _ value | .returned _ value => [value]
  | .printed _ | .opened .. | .raised .. => []

namespace Store

/-- The values that a store holds: those that are bound, and those that its log tells of. -/
inductive Holds (store : Store) : Value → Prop
  | bound {scope : Nat} {binding : String × Value} :
      binding ∈ store.bindings scope → Holds store binding.2
  | logged {event : Event} {value : Value} :
      event ∈ store.log → value ∈ event.values → Holds store value

theorem Holds.of_renumber {store : Store} {id : Nat} {value : Value}
    (holds : ({ store with nextId := id } : Store).Holds value) : store.Holds value := by
  cases holds with
  | bound member => exact .bound member
  | logged member told => exact .logged member told

/-- Everything that a store holds fits the heap. -/
def Housed (heap : Heap) (store : Store) : Prop :=
  ∀ value, store.Holds value → value.Fits heap store.nextId

namespace Housed

variable {heap later : Heap} {store : Store}

theorem lookup (housed : store.Housed heap) {scope : Nat} {name : String} {value : Value}
    (found : store.lookup scope name = some value) : value.Fits heap store.nextId := by
  obtain ⟨i, member⟩ := Store.mem_of_lookup found
  exact housed value (.bound member)

theorem grow (housed : store.Housed heap) {further : Nat}
    (grows : heap.Grows store.nextId later further) :
    ({ store with nextId := further } : Store).Housed later := by
  intro value holds
  exact (housed value holds.of_renumber).mono grows

theorem forget (housed : store.Housed heap) : ({ store with log := [] } : Store).Housed heap := by
  intro value holds
  cases holds with
  | bound member => exact housed _ (.bound member)
  | logged member => cases member

theorem note (housed : store.Housed heap) (event : Event)
    (fits : ∀ value ∈ event.values, value.Fits heap store.nextId) :
    ({ store with log := event :: store.log } : Store).Housed heap := by
  intro value holds
  cases holds with
  | bound member => exact housed _ (.bound member)
  | logged member told =>
      rcases List.mem_cons.mp member with rfl | before
      · exact fits value told
      · exact housed _ (.logged before told)

theorem raised (housed : store.Housed heap) (line : Int) (fault : Fault) :
    ({ store with
      nextId := store.nextId + 1,
      log := .raised store.nextId line fault :: store.log } : Store).Housed heap :=
  (housed.grow (heap.grows_succ _)).note (.raised store.nextId line fault) (by simp [Event.values])

theorem bind (housed : store.Housed heap) (scope : Nat) (name : String) {value : Value}
    (fits : value.Fits heap store.nextId) : (store.bind scope name value).Housed heap := by
  intro other holds
  cases holds with
  | bound member =>
      rcases Store.mem_bindings_bind member with same | before
      · rw [same]
        exact fits
      · exact housed _ (.bound before)
  | logged member told => exact housed _ (.logged member told)

theorem addScope (housed : store.Housed heap) (outer : Option Nat) :
    (store.addScope outer).Housed heap := by
  intro other holds
  cases holds with
  | bound member =>
      rw [Store.bindings_addScope] at member
      exact housed _ (.bound member)
  | logged member told => exact housed _ (.logged member told)

end Housed

theorem housed_empty (heap : Heap) : Store.empty.Housed heap := by
  intro value holds
  cases holds with
  | bound member => cases member
  | logged member => cases member

end Store

/-! ## Runs -/

/-- A run that is started with a heap grows it: the store that it leaves is housed by the new heap, and
what it gives is `good` there. -/
def Keeps {α : Type} (good : Heap → Store → α → Prop) (heap : Heap) (store : Store) (run : Eval α) :
    Prop :=
  run.Ends store
    (fun value after =>
      ∃ later : Heap, heap.Grows store.nextId later after.nextId ∧ after.Housed later ∧
        good later after value)
    (fun after => ∃ later : Heap, heap.Grows store.nextId later after.nextId ∧ after.Housed later)

/-- A value that fits the heap of a store. -/
abbrev FitsIn (heap : Heap) (store : Store) (value : Value) : Prop := value.Fits heap store.nextId

section Rules

variable {α β : Type} {good weaker : Heap → Store → α → Prop} {goodNext : Heap → Store → β → Prop}
  {heap : Heap} {store : Store}

theorem Keeps.imp {run : Eval α} (keeps : Keeps good heap store run)
    (imp : ∀ later after value, good later after value → weaker later after value) :
    Keeps weaker heap store run := by
  refine Ends.imp keeps ?_ fun _ cut => cut
  rintro value after ⟨later, grows, housed, isGood⟩
  exact ⟨later, grows, housed, imp later after value isGood⟩

theorem keeps_pure {value : α} (housed : store.Housed heap) (isGood : good heap store value) :
    Keeps good heap store (pure value) :=
  ⟨heap, .refl heap _, housed, isGood⟩

theorem keeps_bind {run : Eval α} {next : α → Eval β} (first : Keeps good heap store run)
    (then_ : ∀ value (later : Heap) after, heap.Grows store.nextId later after.nextId →
      after.Housed later → good later after value → Keeps goodNext later after (next value)) :
    Keeps goodNext heap store (run >>= next) := by
  unfold Keeps
  rw [ends_bind]
  refine Ends.imp first ?_ fun _ cut => cut
  rintro value after ⟨later, grows, housed, isGood⟩
  refine Ends.imp (then_ value later after grows housed isGood) ?_ ?_
  · rintro value last ⟨final, further, housed, isGood⟩
    exact ⟨final, grows.trans further, housed, isGood⟩
  · rintro last ⟨final, further, housed⟩
    exact ⟨final, grows.trans further, housed⟩

/-- Going on with the value of a part; a signal is given as it is. -/
theorem keeps_andThen {run : Eval Value} {next : Value → Eval Value}
    (first : Keeps FitsIn heap store run)
    (then_ : ∀ value (later : Heap) after, heap.Grows store.nextId later after.nextId →
      after.Housed later → FitsIn later after value → Keeps FitsIn later after (next value)) :
    Keeps FitsIn heap store (andThen run next) := by
  unfold andThen
  refine keeps_bind first fun value later after grows housed fits => ?_
  split
  · exact keeps_pure housed fits
  · exact then_ value later after grows housed fits

theorem keeps_atom {value : Value} (housed : store.Housed heap) (atomic : value.Atomic) :
    Keeps FitsIn heap store (pure value) :=
  keeps_pure housed atomic.fits

/-- An id that goes to no object. -/
theorem keeps_fresh (housed : store.Housed heap) : Keeps (fun _ _ _ => True) heap store fresh :=
  ⟨heap, heap.grows_succ _, housed.grow (heap.grows_succ _), trivial⟩

theorem keeps_raise (housed : store.Housed heap) (line : Int) (fault : Fault) :
    Keeps FitsIn heap store (raise line fault) :=
  ⟨heap, heap.grows_succ _, housed.raised line fault, Value.fits_error _ _ _⟩

theorem keeps_settle {line : Int} {outcome : Except Fault Value} (housed : store.Housed heap)
    (fits : ∀ value, outcome = .ok value → FitsIn heap store value) :
    Keeps FitsIn heap store (settle line outcome) := by
  cases outcome with
  | ok value => exact keeps_pure housed (fits value rfl)
  | error fault => exact keeps_raise housed line fault

theorem keeps_giveBack {value : Value} (housed : store.Housed heap) (fits : FitsIn heap store value) :
    Keeps FitsIn heap store (giveBack value) := by
  have grown := fits.mono (heap.grows_succ store.nextId)
  refine ⟨heap, heap.grows_succ _, ?_, grown.result _⟩
  refine (housed.grow (heap.grows_succ _)).note (.returned store.nextId value) fun other told => ?_
  rw [List.mem_singleton.mp told]
  exact grown

theorem keeps_assign {value : Value} (scope : Nat) (name : String) (housed : store.Housed heap)
    (fits : FitsIn heap store value) :
    Keeps (fun _ _ _ => True) heap store (assign scope name value) := by
  refine ⟨heap, .refl heap _, ?_, trivial⟩
  refine (housed.bind scope name fits).note (.bound scope name value) fun other told => ?_
  rw [List.mem_singleton.mp told]
  exact fits

end Rules

/-! ## New objects -/

/-- An object that has just been made: what the store holds and what the object itself is made of is
older, and so is everything that there was when `start` ids were given out. -/
structure Made (start : Nat) (store : Store) (value : Value) (id : Nat) : Prop where
  isObject : value.object? = some id
  start_le : start ≤ id
  store_older : ∀ held, store.Holds held → held.Older id
  inside_older : ∀ inner ∈ value.inside, inner.Older id

/-- What a run gives that makes an object of a kind, unless it ends with a signal. -/
structure MakesIn (start : Nat) (kind : Kind) (heap : Heap) (store : Store) (value : Value) : Prop where
  fits : value.Fits heap store.nextId
  made : value.isSignal = false → value.kind = kind ∧ ∃ id, Made start store value id

section Making

variable {heap : Heap} {store : Store} {start : Nat}

/-- The object that gets the next id is the newest. -/
theorem made_next {value : Value} (housed : store.Housed heap) (le : start ≤ store.nextId)
    (isObject : value.object? = some store.nextId)
    (inside : ∀ inner ∈ value.inside, inner.Fits heap store.nextId) :
    Made start { store with nextId := store.nextId + 1 } value store.nextId := by
  refine ⟨isObject, le, fun held holds => ?_, fun inner member => (inside inner member).older⟩
  exact (housed held holds.of_renumber).older

theorem keeps_make {next : Nat → Eval Value} {value : Value} {kind : Kind}
    (housed : store.Housed heap) (le : start ≤ store.nextId) (gives : next store.nextId = pure value)
    (isKind : value.kind = kind) (isObject : value.object? = some store.nextId)
    (inside : ∀ inner ∈ value.inside, inner.Fits heap store.nextId) :
    Keeps (MakesIn start kind) heap store (fresh >>= next) := by
  unfold Keeps
  rw [ends_bind, ends_fresh, gives, ends_pure]
  refine ⟨_, heap.grows_update _ value, housed.grow (heap.grows_update _ value), ?_, ?_⟩
  · exact Value.fits_update isObject inside
  · intro _
    exact ⟨isKind, store.nextId, made_next housed le isObject inside⟩

/-- A signal that stopped a row of parts is given as it is. -/
theorem makesIn_of_signal {kind : Kind} {value : Value} (fits : FitsIn heap store value)
    (signal : value.isSignal = true) : MakesIn start kind heap store value :=
  ⟨fits, fun ordinary => by rw [signal] at ordinary; cases ordinary⟩

end Making

/-! ## Rows of trees -/

section Rows

variable {call : Call} {scope : Nat} {heap : Heap} {store : Store}

/-- What a row of parts gives: values that fit, or a signal that fits. -/
def Gathers {γ : Type} (fits : Heap → Store → γ → Prop) (heap : Heap) (store : Store) :
    Except Value γ → Prop
  | .ok values => fits heap store values
  | .error signal => signal.isSignal = true ∧ FitsIn heap store signal

/-- Running a tree grows every heap. -/
def Node.Kept (call : Call) (scope : Nat) (node : Node) : Prop :=
  ∀ (heap : Heap) (store : Store), store.Housed heap →
    Keeps FitsIn heap store (node.eval call scope)

theorem keeps_evalEach {nodes : List Node} (housed : store.Housed heap)
    (each : ∀ node ∈ nodes, node.Kept call scope) :
    Keeps (Gathers fun heap store values => ∀ value ∈ values, FitsIn heap store value) heap store
      (evalEach call scope nodes) := by
  induction nodes generalizing heap store with
  | nil =>
      rw [evalEach]
      exact keeps_pure housed (by simp [Gathers])
  | cons node more ih =>
      rw [evalEach]
      refine keeps_bind (each node List.mem_cons_self heap store housed) ?_
      intro value later after _ housed fits
      split
      case isTrue signal => exact keeps_pure housed ⟨signal, fits⟩
      case isFalse =>
        have rest := ih housed fun other member => each other (List.mem_cons_of_mem _ member)
        refine keeps_bind rest ?_
        intro collected final last grows housed gathered
        cases collected with
        | error signal => exact keeps_pure housed gathered
        | ok values =>
            refine keeps_pure housed ?_
            intro other member
            rcases List.mem_cons.mp member with rfl | inside
            · exact fits.mono grows
            · exact gathered other inside

theorem keeps_evalEntries {entries : List (Node × Node)} {done : Entries} (housed : store.Housed heap)
    (fitsDone : ∀ entry ∈ done, FitsIn heap store entry.2)
    (each : ∀ entry ∈ entries, entry.1.Kept call scope ∧ entry.2.Kept call scope) :
    Keeps (Gathers fun heap store made => ∀ entry ∈ made, FitsIn heap store entry.2) heap store
      (evalEntries call scope done entries) := by
  induction entries generalizing heap store done with
  | nil =>
      rw [evalEntries]
      exact keeps_pure housed fitsDone
  | cons entry more ih =>
      obtain ⟨keyNode, valueNode⟩ := entry
      have here := each (keyNode, valueNode) List.mem_cons_self
      rw [evalEntries]
      refine keeps_bind (here.1 heap store housed) ?_
      intro key first middle grows housed fitsKey
      split
      case isTrue signal => exact keeps_pure housed ⟨signal, fitsKey⟩
      case isFalse =>
        split
        case h_1 =>
          unfold Keeps
          rw [ends_bind, ends_raise]
          exact ⟨first, first.grows_succ _, housed.raised _ _, rfl, Value.fits_error _ _ _⟩
        case h_2 found usable =>
          refine keeps_bind (here.2 first middle housed) ?_
          intro value second last further housed fits
          split
          case isTrue signal => exact keeps_pure housed ⟨signal, fits⟩
          case isFalse =>
            refine ih housed ?_ fun other member => each other (List.mem_cons_of_mem _ member)
            intro entry member
            rcases Entries.mem_insert member with rfl | before
            · exact fits
            · exact (fitsDone entry before).mono (grows.trans further)

theorem keeps_evalStatements {statements : List Node} {last : Value} (housed : store.Housed heap)
    (fits : FitsIn heap store last) (each : ∀ node ∈ statements, node.Kept call scope) :
    Keeps FitsIn heap store (evalStatements call scope last statements) := by
  induction statements generalizing heap store last with
  | nil =>
      rw [evalStatements]
      exact keeps_pure housed fits
  | cons node more ih =>
      rw [evalStatements]
      refine keeps_andThen (each node List.mem_cons_self heap store housed) ?_
      intro value later after _ housed fits
      exact ih housed fits fun other member => each other (List.mem_cons_of_mem _ member)

end Rows

/-! ## Literals -/

section Literals

variable {call : Call} {scope : Nat} {heap : Heap} {store : Store}

theorem keeps_array {items : List Node} (line : Int) (housed : store.Housed heap)
    (each : ∀ node ∈ items, node.Kept call scope) :
    Keeps (MakesIn store.nextId .array) heap store ((Node.array line items).eval call scope) := by
  rw [Node.eval]
  refine keeps_bind (keeps_evalEach housed each) ?_
  intro collected later after grows housed gathered
  cases collected with
  | error signal => exact keeps_pure housed (makesIn_of_signal gathered.2 gathered.1)
  | ok values => exact keeps_make housed grows.le rfl rfl rfl gathered

theorem keeps_hash {entries : List (Node × Node)} (line : Int) (housed : store.Housed heap)
    (each : ∀ entry ∈ entries, entry.1.Kept call scope ∧ entry.2.Kept call scope) :
    Keeps (MakesIn store.nextId .hash) heap store ((Node.hash line entries).eval call scope) := by
  rw [Node.eval]
  refine keeps_bind (keeps_evalEntries housed (by simp) each) ?_
  intro collected later after grows housed gathered
  cases collected with
  | error signal => exact keeps_pure housed (makesIn_of_signal gathered.2 gathered.1)
  | ok made =>
      refine keeps_make housed grows.le rfl rfl rfl fun inner member => ?_
      obtain ⟨entry, inside, rfl⟩ := List.mem_map.mp member
      exact gathered entry inside

theorem keeps_function (line : Int) (parameters : List Name) (body : Node)
    (housed : store.Housed heap) :
    Keeps (MakesIn store.nextId .function) heap store
      ((Node.function line parameters body).eval call scope) := by
  rw [Node.eval]
  exact keeps_make housed le_rfl rfl rfl rfl (by simp [Value.inside, Value.parts])

end Literals

/-! ## Trees -/

/-- A meaning of calls that grows every heap. -/
def Call.Kept (call : Call) : Prop :=
  ∀ (heap : Heap) (store : Store) (callee : Value) (arguments : List Value) (line : Int),
    store.Housed heap → FitsIn heap store callee → (∀ argument ∈ arguments, FitsIn heap store argument) →
    Keeps FitsIn heap store (call callee arguments line)

/-- Running a tree grows every heap if calls do. -/
theorem eval_keeps {call : Call} (kept : Call.Kept call) (scope : Nat) (node : Node) :
    node.Kept call scope := by
  induction node using Node.child_induction with
  | step node ih =>
    intro heap store housed
    cases node with
    | missing => exact keeps_raise housed _ _
    | bare line => exact keeps_raise housed _ _
    | number line value literal => exact keeps_atom housed trivial
    | text line value => exact keeps_atom housed trivial
    | boolean line value => exact keeps_atom housed trivial
    | identifier line name =>
        unfold Keeps
        rw [Node.eval, ends_bind, ends_get]
        split
        case h_1 value found => exact keeps_pure housed (housed.lookup found)
        case h_2 =>
          split
          case h_1 => exact keeps_atom housed trivial
          case h_2 => exact keeps_raise housed _ _
    | unary line operator operand =>
        rw [Node.eval]
        refine keeps_andThen (ih operand (by simp [Node.children]) heap store housed) ?_
        intro value later after _ housed _
        refine keeps_bind (keeps_fresh housed) fun id final last _ housed _ => ?_
        exact keeps_settle housed fun made given => (Operator.unary_atomic given).fits
    | binary line left operator right =>
        rw [Node.eval]
        refine keeps_andThen (ih left (by simp [Node.children]) heap store housed) ?_
        intro a first middle _ housed _
        refine keeps_andThen (ih right (by simp [Node.children]) first middle housed) ?_
        intro b later after _ housed _
        refine keeps_bind (keeps_fresh housed) fun id final last _ housed _ => ?_
        exact keeps_settle housed fun made given => (Operator.binary_atomic given).fits
    | logical line left operator right =>
        rw [Node.eval]
        refine keeps_andThen (ih left (by simp [Node.children]) heap store housed) ?_
        intro a first middle _ housed _
        split
        · exact keeps_atom housed trivial
        split
        · exact keeps_atom housed trivial
        · refine keeps_andThen (ih right (by simp [Node.children]) first middle housed) ?_
          intro b later after _ housed _
          exact keeps_atom housed trivial
    | conditional line condition consequence alternative =>
        cases alternative with
        | none =>
            rw [Node.eval]
            refine keeps_andThen (ih condition (by simp [Node.children]) heap store housed) ?_
            intro value later after _ housed _
            split
            · exact ih consequence (by simp [Node.children]) later after housed
            · exact keeps_atom housed trivial
        | some alternative =>
            rw [Node.eval]
            refine keeps_andThen (ih condition (by simp [Node.children]) heap store housed) ?_
            intro value later after _ housed _
            split
            · exact ih consequence (by simp [Node.children]) later after housed
            · exact ih alternative (by simp [Node.children]) later after housed
    | function line parameters body =>
        exact (keeps_function line parameters body housed).imp fun _ _ _ makes => makes.fits
    | call line callee arguments =>
        rw [Node.eval]
        refine keeps_andThen (ih callee (by simp [Node.children]) heap store housed) ?_
        intro function first middle _ housed fits
        refine keeps_bind (keeps_evalEach housed fun node member =>
          ih node (List.mem_cons_of_mem _ member)) ?_
        intro collected later after grows housed gathered
        cases collected with
        | error signal => exact keeps_pure housed gathered.2
        | ok values => exact kept later after function values line housed (fits.mono grows) gathered
    | array line items => exact (keeps_array line housed ih).imp fun _ _ _ makes => makes.fits
    | index line subject position =>
        rw [Node.eval]
        refine keeps_andThen (ih subject (by simp [Node.children]) heap store housed) ?_
        intro a first middle _ housed fits
        refine keeps_andThen (ih position (by simp [Node.children]) first middle housed) ?_
        intro b later after grows housed _
        refine keeps_settle housed fun value given => ?_
        rcases Operator.index_part given with rfl | part
        · exact Value.Atomic.fits trivial
        · exact (fits.of_mem_parts part).mono grows
    | hash line entries =>
        have each (entry : Node × Node) (member : entry ∈ entries) :
            entry.1.Kept call scope ∧ entry.2.Kept call scope := by
          have halves := Node.mem_children_hash line member
          exact ⟨ih _ halves.1, ih _ halves.2⟩
        exact (keeps_hash line housed each).imp fun _ _ _ makes => makes.fits
    | binding line name value =>
        rw [Node.eval]
        refine keeps_andThen (ih value (by simp [Node.children]) heap store housed) ?_
        intro value later after _ housed fits
        refine keeps_bind (keeps_assign scope name.text housed fits) ?_
        intro _ final last _ housed _
        exact keeps_atom housed trivial
    | result line value =>
        cases value with
        | none => exact keeps_giveBack housed (Value.Atomic.fits trivial)
        | some value =>
            rw [Node.eval]
            refine keeps_andThen (ih value (by simp [Node.children]) heap store housed) ?_
            intro value later after _ housed fits
            exact keeps_giveBack housed fits
    | expression line inner => exact ih inner (by simp [Node.children]) heap store housed
    | block line statements => exact keeps_evalStatements housed (Value.Atomic.fits trivial) ih
    | program line statements =>
        rw [Node.eval]
        refine keeps_bind (keeps_evalStatements housed (Value.Atomic.fits trivial) ih) ?_
        intro value later after _ housed fits
        exact keeps_pure housed fits.unwrapped

/-! ## Calls -/

section Calls

variable {heap : Heap} {store : Store}

theorem keeps_printAll (lines : List String) (housed : store.Housed heap) :
    Keeps (fun _ _ _ => True) heap store (printAll lines) := by
  induction lines generalizing heap store with
  | nil => exact keeps_pure housed trivial
  | cons line lines ih =>
      rw [printAll]
      have printed : Keeps (fun _ _ _ => True) heap store (record (.printed line)) :=
        ⟨heap, .refl heap _, housed.note (.printed line) (by simp [Event.values]), trivial⟩
      exact keeps_bind printed fun _ _ _ _ housed _ => ih housed

theorem keeps_openScope (home : Nat) (housed : store.Housed heap) :
    Keeps (fun _ _ _ => True) heap store (openScope home) :=
  ⟨heap, .refl heap _, (housed.addScope (some home)).note (.opened store.scopes.size home)
    (by simp [Event.values]), trivial⟩

theorem keeps_assignAll (scope : Nat) (names : List Name) (values : List Value)
    (housed : store.Housed heap) (fits : ∀ value ∈ values, FitsIn heap store value) :
    Keeps (fun _ _ _ => True) heap store (assignAll scope names values) := by
  induction names generalizing values heap store with
  | nil => exact keeps_pure housed trivial
  | cons name names ih =>
      cases values with
      | nil => exact keeps_pure housed trivial
      | cons value values =>
          rw [assignAll]
          refine keeps_bind (keeps_assign scope name.text housed (fits value List.mem_cons_self)) ?_
          intro _ later after grows housed _
          exact ih values housed fun other member =>
            (fits other (List.mem_cons_of_mem _ member)).mono grows

/-- What a call of a built-in function gives: a value that fits, and a new object where an array is made. -/
structure BuiltinGives (start : Nat) (builtin : Builtin) (heap : Heap) (store : Store) (value : Value) :
    Prop where
  fits : FitsIn heap store value
  made : builtin ∈ Builtin.makers → value.kind = .array → ∃ id, Made start store value id

theorem keeps_builtin {arguments : List Value} (depth : Nat) (builtin : Builtin) (line : Int)
    (housed : store.Housed heap) (fits : ∀ argument ∈ arguments, FitsIn heap store argument) :
    Keeps (BuiltinGives store.nextId builtin) heap store
      (apply depth (.builtin builtin) arguments line) := by
  unfold apply
  refine keeps_bind (keeps_printAll _ housed) fun _ later after grows housed _ => ?_
  have fits : ∀ argument ∈ arguments, FitsIn later after argument :=
    fun argument member => (fits argument member).mono grows
  cases outcome : builtin.apply after.nextId arguments with
  | error fault =>
      unfold Keeps
      rw [ends_bind, ends_fresh, outcome]
      refine ⟨later, (later.grows_succ _).trans (later.grows_succ _), ?_, ?_⟩
      · exact (housed.grow (later.grows_succ _)).raised line fault
      · exact ⟨Value.fits_error _ _ _, fun _ isArray => by cases isArray⟩
  | ok value =>
      have makes := Builtin.apply_makes outcome
      by_cases new : value.object? = some after.nextId
      case pos =>
        have gives : settle line (builtin.apply after.nextId arguments) = pure value := by
          rw [outcome]
          rfl
        refine (keeps_make housed grows.le gives rfl new (makes.inside_fits fits)).imp ?_
        intro _ _ given makes
        refine ⟨makes.fits, fun _ isArray => (makes.made ?_).2⟩
        cases given with
        | array => rfl
        | _ => cases isArray
      case neg =>
        -- Nothing was made, so the value has no parts or stood in an argument.
        have old : FitsIn later after value := by
          cases makes with
          | atom atomic => exact atomic.fits
          | part member part => exact (fits _ member).of_mem_parts part
          | array => exact absurd rfl new
        unfold Keeps
        rw [ends_bind, ends_fresh, outcome]
        refine ⟨later, later.grows_succ _, housed.grow (later.grows_succ _), ?_, ?_⟩
        · exact old.mono (later.grows_succ _)
        · exact fun maker isArray => absurd (Builtin.object?_of_apply maker outcome isArray) new

/-- A call grows every heap if the calls in the body of a function do. -/
theorem apply_keeps_of_less {depth : Nat}
    (less : ∀ rest, depth = rest + 1 → Call.Kept (apply rest)) : Call.Kept (apply depth) := by
  intro heap store callee arguments line housed fitsCallee fits
  cases callee with
  | function id parameters body home =>
      unfold apply
      dsimp only
      split
      · exact keeps_raise housed _ _
      cases depth with
      | zero => exact ⟨heap, .refl heap _, housed⟩
      | succ rest =>
          refine keeps_bind (keeps_openScope home housed) fun scope first opened grows housed _ => ?_
          have entering := keeps_assignAll scope parameters arguments housed fun argument member =>
            (fits argument member).mono grows
          refine keeps_bind entering fun _ second entered _ housed _ => ?_
          refine keeps_bind (eval_keeps (less rest rfl) scope body second entered housed) ?_
          intro value later left _ housed fits
          have closed :
              Keeps (fun _ _ _ => True) later left (record (.closed scope value.unwrapped)) := by
            refine ⟨later, .refl later _, housed.note (.closed scope value.unwrapped) ?_, trivial⟩
            intro other told
            rw [List.mem_singleton.mp told]
            exact fits.unwrapped
          refine keeps_bind closed fun _ final after grows housed _ => ?_
          exact keeps_pure housed (fits.unwrapped.mono grows)
  | builtin builtin =>
      exact (keeps_builtin depth builtin line housed fits).imp fun _ _ _ gives => gives.fits
  | _ =>
      unfold apply
      exact keeps_raise housed _ _

/-- Calls grow every heap; the induction is on how many calls may be nested. -/
theorem apply_keeps (depth : Nat) : Call.Kept (apply depth) := by
  induction depth with
  | zero => exact apply_keeps_of_less (by simp)
  | succ depth ih =>
      refine apply_keeps_of_less fun rest same => ?_
      cases same
      exact ih

end Calls

end Treewalk
