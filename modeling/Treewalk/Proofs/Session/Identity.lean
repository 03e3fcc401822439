import Treewalk.Proofs.Eval.Heap
import Treewalk.Proofs.Eval.Signals

/-!
# The identity of objects

Arrays, hashes and functions are passed around whole, and `==` tells them apart by their ids. This is
sound because no two different objects that can be met have one id: not in what a session holds, not
among the values that a run has in hand, and not over time (`identity_is_coherent`). What `==` calls the
same has the same contents, now and later, and what a literal, `rest` or `push` makes is the same as
nothing that there was.
-/

namespace Treewalk

open Eval

/-! ## Coherent states -/

/-- A value can be met: it stands in what a store holds, or in one of the values in hand. -/
def Shows (store : Store) (held : List Value) (value : Value) : Prop :=
  ∃ root, (store.Holds root ∨ root ∈ held) ∧ value.Within root

/-- The ids of all objects that can be met were given out, and an id belongs to one object only. -/
structure Coherent (store : Store) (held : List Value) : Prop where
  given : ∀ value id, Shows store held value → value.object? = some id → id < store.nextId
  same : ∀ value other id, Shows store held value → Shows store held other →
    value.object? = some id → other.object? = some id → value = other

section Coherent

variable {store : Store} {held : List Value} {heap : Heap}

/-- What can be met fits every heap that the store and the values in hand fit. -/
theorem Shows.fits {value : Value} (shows_ : Shows store held value) (housed : store.Housed heap)
    (fits : ∀ root ∈ held, FitsIn heap store root) : FitsIn heap store value := by
  obtain ⟨root, holds | member, within⟩ := shows_
  · exact (housed root holds).within within
  · exact (fits root member).within within

theorem coherent_of_fits (housed : store.Housed heap) (fits : ∀ root ∈ held, FitsIn heap store root) :
    Coherent store held where
  given value id shown isObject := (shown.fits housed fits value id .root isObject).1
  same value other id shown shownOther isObject isOther := by
    have first := (shown.fits housed fits value id .root isObject).2
    have second := (shownOther.fits housed fits other id .root isOther).2
    exact first.symm.trans second

/-- The heap of a coherent state: under each id the object that can be met with it. -/
theorem Coherent.exists_heap (coherent : Coherent store held) :
    ∃ heap : Heap, store.Housed heap ∧ ∀ root ∈ held, FitsIn heap store root := by
  classical
  let heap : Heap := fun id =>
    if met : ∃ value, Shows store held value ∧ value.object? = some id then met.choose else .null
  have fits (root : Value) (isRoot : store.Holds root ∨ root ∈ held) : FitsIn heap store root := by
    intro part id within isObject
    have shown : Shows store held part := ⟨root, isRoot, within⟩
    have met : ∃ value, Shows store held value ∧ value.object? = some id := ⟨part, shown, isObject⟩
    have chosen : heap id = met.choose := dif_pos met
    refine ⟨coherent.given part id shown isObject, ?_⟩
    rw [chosen]
    exact coherent.same _ part id met.choose_spec.1 shown met.choose_spec.2 isObject
  exact ⟨heap, fun root holds => fits root (.inl holds), fun root member => fits root (.inr member)⟩

end Coherent

/-- A state that comes after another one: it is coherent as well, with all that was in hand before, and
an object that can be met in both has not changed. -/
structure Continues (store : Store) (held : List Value) (after : Store) (given : List Value) : Prop where
  coherent : Coherent after (given ++ held)
  unchanged : ∀ old new id, Shows store held old → Shows after (given ++ held) new →
    old.object? = some id → new.object? = some id → new = old

theorem continues_of_grows {store after : Store} {held given : List Value} {heap later : Heap}
    (housed : store.Housed heap) (fits : ∀ root ∈ held, FitsIn heap store root)
    (grows : heap.Grows store.nextId later after.nextId) (housedAfter : after.Housed later)
    (fitsGiven : ∀ root ∈ given, FitsIn later after root) : Continues store held after given := by
  have fitsAll : ∀ root ∈ given ++ held, FitsIn later after root := by
    intro root member
    rcases List.mem_append.mp member with new | old
    · exact fitsGiven root new
    · exact (fits root old).mono grows
  refine ⟨coherent_of_fits housedAfter fitsAll, fun old new id shown shownNew isOld isNew => ?_⟩
  have first := ((shown.fits housed fits).mono grows old id .root isOld).2
  have second := (shownNew.fits housedAfter fitsAll new id .root isNew).2
  exact second.symm.trans first

/-! ## New objects -/

/-- `==` finds a value different from every value of its kind that can be met in the store it was made
from, with the values in hand there, or in the store it was left in, its own parts included. -/
def IsNew (store : Store) (held : List Value) (after : Store) (value : Value) : Prop :=
  ∀ other, Shows store held other ∨ Shows after value.inside other → other.kind = value.kind →
    ∀ id, Operator.binary id "==" value other = .ok (.boolean false)

theorem Value.exists_object? {value other : Value} {id : Nat} (isObject : value.object? = some id)
    (kinds : other.kind = value.kind) : ∃ j, other.object? = some j := by
  cases value with
  | array | hash | function =>
      cases other with
      | array | hash | function => exact ⟨_, rfl⟩
      | _ => cases kinds
  | _ => cases isObject

theorem Made.isNew {store after : Store} {held : List Value} {heap : Heap} {value : Value} {id : Nat}
    (made : Made store.nextId after value id) (housed : store.Housed heap)
    (fits : ∀ root ∈ held, FitsIn heap store root) : IsNew store held after value := by
  intro other before kinds i
  obtain ⟨j, isOther⟩ := Value.exists_object? made.isObject kinds
  have older : j < id := by
    rcases before with shown | ⟨root, holds | member, within⟩
    · exact (shown.fits housed fits other j .root isOther).1.trans_le made.start_le
    · exact made.store_older root holds other j within isOther
    · exact made.inside_older root member other j within isOther
  rw [Operator.binary_objects made.isObject isOther kinds.symm]
  simp [older.ne']

/-- The kind of object that a literal makes. -/
def Node.makes? : Node → Option Kind
  | .array .. => some .array
  | .hash .. => some .hash
  | .function .. => some .function
  | _ => none

/-- A literal makes a new object, or ends with a signal. -/
theorem keeps_literal (depth scope : Nat) {node : Node} {kind : Kind} (literal : node.makes? = some kind)
    {heap : Heap} {store : Store} (housed : store.Housed heap) :
    Keeps (MakesIn store.nextId kind) heap store (node.eval (apply depth) scope) := by
  have kept (node : Node) : node.Kept (apply depth) scope := eval_keeps (apply_keeps depth) scope node
  cases node with
  | array line items =>
      cases literal
      exact keeps_array line housed fun node _ => kept node
  | hash line entries =>
      cases literal
      exact keeps_hash line housed fun entry _ => ⟨kept entry.1, kept entry.2⟩
  | function line parameters body =>
      cases literal
      exact keeps_function line parameters body housed
  | _ => cases literal

/-! ## Runs -/

/-- From heaps to states: what a run that grows heaps leads to. -/
theorem Keeps.continues {good : Heap → Store → Value → Prop} {heap : Heap} {store : Store}
    {run : Eval Value} {held : List Value} {more : Value → Store → Prop}
    (keeps : Keeps good heap store run) (housed : store.Housed heap)
    (fits : ∀ root ∈ held, FitsIn heap store root)
    (isGood : ∀ later after value, good later after value →
      FitsIn later after value ∧ more value after) :
    run.Ends store (fun value after => Continues store held after [value] ∧ more value after)
      (fun after => Continues store held after []) := by
  refine Ends.imp keeps ?_ ?_
  · rintro value after ⟨later, grows, housedAfter, good⟩
    obtain ⟨fitsGiven, holds⟩ := isGood later after value good
    exact ⟨continues_of_grows housed fits grows housedAfter (by simpa using fitsGiven), holds⟩
  · rintro after ⟨later, grows, housedAfter⟩
    exact continues_of_grows housed fits grows housedAfter (by simp)

theorem eval_continues (depth scope : Nat) (node : Node) {store : Store} {held : List Value}
    (coherent : Coherent store held) :
    (node.eval (apply depth) scope).Ends store
      (fun value after => Continues store held after [value] ∧
        ∀ kind, node.makes? = some kind → value.isSignal = false →
          value.kind = kind ∧ IsNew store held after value)
      (fun after => Continues store held after []) := by
  obtain ⟨heap, housed, fits⟩ := coherent.exists_heap
  cases literal : node.makes? with
  | none =>
      refine (eval_keeps (apply_keeps depth) scope node heap store housed).continues housed fits ?_
      exact fun later after value fitsValue => ⟨fitsValue, by simp⟩
  | some kind =>
      refine (keeps_literal depth scope literal housed).continues housed fits ?_
      intro later after value makes
      refine ⟨makes.fits, fun other same ordinary => ?_⟩
      cases same
      obtain ⟨isKind, id, made⟩ := makes.made ordinary
      exact ⟨isKind, made.isNew housed fits⟩

theorem apply_continues (depth : Nat) (callee : Value) (arguments : List Value) (line : Int)
    {store : Store} {held : List Value} (coherent : Coherent store held) (isHeld : callee ∈ held)
    (areHeld : arguments ⊆ held) :
    (apply depth callee arguments line).Ends store
      (fun value after => Continues store held after [value] ∧
        ∀ builtin ∈ Builtin.makers, callee = .builtin builtin → value.kind = .array →
          IsNew store held after value)
      (fun after => Continues store held after []) := by
  obtain ⟨heap, housed, fits⟩ := coherent.exists_heap
  have fitsArguments : ∀ argument ∈ arguments, FitsIn heap store argument :=
    fun argument member => fits argument (areHeld member)
  cases callee with
  | builtin builtin =>
      refine (keeps_builtin depth builtin line housed fitsArguments).continues housed fits ?_
      intro later after value gives
      refine ⟨gives.fits, fun other maker same isArray => ?_⟩
      cases same
      obtain ⟨id, made⟩ := gives.made maker isArray
      exact made.isNew housed fits
  | _ =>
      refine (apply_keeps depth heap store _ arguments line housed (fits _ isHeld)
        fitsArguments).continues housed fits ?_
      exact fun later after value fitsValue => ⟨fitsValue, by simp⟩

/-! ## Sessions -/

namespace Session

/-- A value can be met in a session: it stands in what the store holds after some of the sources were
run, or in what one of them gave. -/
inductive Meets (steps : List (Nat × String)) : Value → Prop
  | stored {before later : List (Nat × String)} {value : Value} : before ++ later = steps →
      Shows (new.after before).store [] value → Meets steps value
  | given {before later : List (Nat × String)} {depth : Nat} {source : String} {value whole : Value} :
      before ++ (depth, source) :: later = steps →
      ((new.after before).eval depth source).1 = .value whole → value.Within whole →
      Meets steps value

/-- Running a source grows every heap. -/
theorem eval_grows {session : Session} {heap : Heap} (housed : session.store.Housed heap) (depth : Nat)
    (source : String) :
    ∃ later : Heap,
      heap.Grows session.store.nextId later (session.eval depth source).2.store.nextId ∧
      (session.eval depth source).2.store.Housed later ∧
      ∀ value, (session.eval depth source).1 = .value value →
        FitsIn later (session.eval depth source).2.store value := by
  unfold eval
  split
  case h_2 => exact ⟨heap, .refl heap _, housed.forget, by rintro value ⟨⟩⟩
  case h_1 program read =>
    have kept := eval_keeps (apply_keeps depth) session.root program heap _ housed.forget
    rcases run_ends kept with ⟨given, outcome, later, grows, housed, fits⟩ |
      ⟨⟨reason, outcome⟩, later, grows, housed⟩
    · refine ⟨later, grows, housed, fun value isValue => ?_⟩
      rw [evalNode, outcome] at isValue
      cases isValue
      exact fits
    · refine ⟨later, grows, housed, fun value isValue => ?_⟩
      rw [evalNode, outcome] at isValue
      cases isValue

theorem after_append (session : Session) (first second : List (Nat × String)) :
    session.after (first ++ second) = (session.after first).after second :=
  List.foldl_append

/-- What can be met after one more source could be met before, or stands in what the store holds then or
in what the source gave. -/
theorem Meets.of_append {steps : List (Nat × String)} {step : Nat × String} {value : Value}
    (meets : Meets (steps ++ [step]) value) :
    Meets steps value ∨ Shows (new.after (steps ++ [step])).store [] value ∨
      ∃ whole, ((new.after steps).eval step.1 step.2).1 = .value whole ∧ value.Within whole := by
  cases meets with
  | @stored before later _ split shown =>
      rcases List.eq_nil_or_concat' later with rfl | ⟨front, last, rfl⟩
      · rw [List.append_nil] at split
        rw [split] at shown
        exact .inr (.inl shown)
      · rw [← List.append_assoc] at split
        exact .inl (.stored (List.append_inj' split rfl).1 shown)
  | @given before later depth source _ whole split outcome within =>
      rcases List.eq_nil_or_concat' later with rfl | ⟨front, last, rfl⟩
      · obtain ⟨rfl, same⟩ := List.append_inj' split rfl
        cases same
        exact .inr (.inr ⟨whole, outcome, within⟩)
      · rw [← List.cons_append, ← List.append_assoc] at split
        exact .inl (.given (List.append_inj' split rfl).1 outcome within)

/-- One heap for all that can be met in a session, whenever it is met. -/
theorem exists_heap (steps : List (Nat × String)) :
    ∃ heap : Heap, (new.after steps).store.Housed heap ∧
      ∀ value, Meets steps value → FitsIn heap (new.after steps).store value := by
  induction steps using List.reverseRecOn with
  | nil =>
      have housed : (new.after []).store.Housed fun _ => .null :=
        (Store.housed_empty fun _ => .null).addScope none
      refine ⟨_, housed, fun value meets => ?_⟩
      cases meets with
      | stored split shown =>
          obtain ⟨rfl, -⟩ := List.append_eq_nil_iff.mp split
          exact shown.fits housed (by simp)
      | given split => simp at split
  | append_singleton steps step ih =>
      obtain ⟨heap, housed, fits⟩ := ih
      obtain ⟨later, grows, housedAfter, fitsGiven⟩ := eval_grows housed step.1 step.2
      have last : new.after (steps ++ [step]) = ((new.after steps).eval step.1 step.2).2 := by
        rw [after_append]
        rfl
      rw [last]
      refine ⟨later, housedAfter, fun value meets => ?_⟩
      rcases meets.of_append with old | shown | ⟨whole, outcome, within⟩
      · exact (fits value old).mono grows
      · rw [last] at shown
        exact shown.fits housedAfter (by simp)
      · exact (fitsGiven whole outcome).within within

end Session

/-- **Identity is coherent.** Objects that can be met in a session, at whatever times, and that `==` finds
equal are the same in all they hold. A session is always in a coherent state, and so is everything that
runs in one: running a tree and calling a value lead from coherent states to coherent states, with
whatever values were in hand, and change no object. What a literal makes is new, and so is an array that
`rest` or `push` gives. -/
theorem identity_is_coherent :
    (∀ (steps : List (Nat × String)) (value other : Value) (i j id : Nat),
      Session.Meets steps value → Session.Meets steps other →
      value.object? = some i → other.object? = some j →
      Operator.binary id "==" value other = .ok (.boolean true) → value = other) ∧
    (∀ steps : List (Nat × String), Coherent (Session.new.after steps).store []) ∧
    (∀ (depth scope : Nat) (node : Node) (store : Store) (held : List Value), Coherent store held →
      (node.eval (apply depth) scope).Ends store
        (fun value after => Continues store held after [value] ∧
          ∀ kind, node.makes? = some kind → value.isSignal = false →
            value.kind = kind ∧ IsNew store held after value)
        (fun after => Continues store held after [])) ∧
    ∀ (depth : Nat) (callee : Value) (arguments : List Value) (line : Int) (store : Store)
        (held : List Value), Coherent store held → callee ∈ held → arguments ⊆ held →
      (apply depth callee arguments line).Ends store
        (fun value after => Continues store held after [value] ∧
          ∀ builtin ∈ Builtin.makers, callee = .builtin builtin → value.kind = .array →
            IsNew store held after value)
        (fun after => Continues store held after []) := by
  refine ⟨?_, ?_, ?_, ?_⟩
  · intro steps value other i j id meets meetsOther isObject isOther equal
    obtain ⟨heap, -, fits⟩ := Session.exists_heap steps
    have same := Operator.id_eq_of_equal isObject isOther equal
    subst same
    have first := (fits value meets value i .root isObject).2
    have second := (fits other meetsOther other i .root isOther).2
    exact first.symm.trans second
  · intro steps
    obtain ⟨heap, housed, -⟩ := Session.exists_heap steps
    exact coherent_of_fits housed (by simp)
  · intro depth scope node store held coherent
    exact eval_continues depth scope node coherent
  · intro depth callee arguments line store held coherent isHeld areHeld
    exact apply_continues depth callee arguments line coherent isHeld areHeld

/-- An array is bound to a name, and a later source takes it out of another array; an array literal that is
run then makes a new one. -/
theorem identity_is_coherent_taken :
    Session.Meets [(9, "let a = [true]; let b = [a];"), (9, "first(b)")] (.array 1 [.boolean true]) ∧
      Value.array 1 [.boolean true] = .array 1 [.boolean true] ∧
      (Node.eval (apply 9) 0 (.array 1 [])).Ends
        (Session.new.after [(9, "let a = [true]; let b = [a];")]).store
        (fun value after =>
          IsNew (Session.new.after [(9, "let a = [true]; let b = [a];")]).store [] after value)
        (fun _ => False) := by
  have bindings : (Session.new.after [(9, "let a = [true]; let b = [a];")]).store.bindings 0 =
      [("a", .array 1 [.boolean true]), ("b", .array 2 [.array 1 [.boolean true]])] := by
    cbv
  have outcome : ((Session.new.after [(9, "let a = [true]; let b = [a];")]).eval 9 "first(b)").1 =
      .value (.array 1 [.boolean true]) := by
    cbv
  have bound : Session.Meets [(9, "let a = [true]; let b = [a];"), (9, "first(b)")]
      (.array 1 [.boolean true]) := by
    have member : ("a", Value.array 1 [.boolean true]) ∈
        (Session.new.after [(9, "let a = [true]; let b = [a];")]).store.bindings 0 := by
      rw [bindings]
      exact List.mem_cons_self
    exact .stored rfl ⟨_, .inl (.bound member), .root⟩
  have taken : Session.Meets [(9, "let a = [true]; let b = [a];"), (9, "first(b)")]
      (.array 1 [.boolean true]) :=
    .given rfl outcome .root
  refine ⟨bound, identity_is_coherent.1 _ _ _ 1 1 0 bound taken rfl rfl rfl, ?_⟩
  have run := identity_is_coherent.2.2.1 9 0 (.array 1 []) _ []
    (identity_is_coherent.2.1 [(9, "let a = [true]; let b = [a];")])
  exact (run.2 .array rfl rfl).2

end Treewalk
