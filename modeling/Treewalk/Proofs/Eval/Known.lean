import Treewalk.Proofs.Eval.Both
import Treewalk.Proofs.Eval.Signals
import Treewalk.Proofs.Store.Renaming

/-!
# Runs keep to what is given out

A run gives out nothing twice, wherever it is started (`above_answers`), and it makes up no names.
Started in a rooted store it leaves a rooted store, and what it gives is known there (`rooted_lawful`).
Together with signals staying out of data this is what holds of every session that can be reached: by
running trees and sources, and by binding and calling values that the session has given out
(`Session.Reachable.sound`).
-/

namespace Treewalk

open Eval

/-- A number in a tree is what its literal spells. -/
def Node.Literal : Node → Prop
  | .number _ value literal => Number.ofText? literal = some value
  | _ => True

theorem Node.Spelled.literal {node : Node} (spelled : node.Spelled) : node.Literal := by
  cases node with
  | number => exact spelled
  | _ => trivial

theorem readable_literal : Readable Node.Literal := readable_of_spelled fun _ => (·.literal)

theorem every_literal_of_parse {source : String} {program : Node} (read : parse source = .ok program) :
    program.Every Node.Literal := by
  obtain ⟨line, statements, rfl, -⟩ := exists_program_of_parse read
  exact .intro trivial (readable_literal source line statements read)

namespace Discipline

/-- The store goes on from a base, however a run ends. Values are not looked at. -/
def above (base : Store) : Discipline where
  inv := base.Below
  moves _ _ := True
  plain _ _ := True
  stops _ _ after := base.Below after
  cuts _ after := base.Below after
  fact _ := True
  assigns _ := True

variable {base : Store}

theorem above_arrives {store after : Store} {value : Value} :
    (above base).Arrives store value after ↔ base.Below after := by
  simp [Arrives, above]

theorem above_lawful (scope : Nat) : (above base).Lawful scope where
  refl _ := trivial
  trans _ _ := trivial
  stops_after _ stops := stops
  cuts_after _ cut := cut
  mono _ _ := trivial
  atom _ _ := trivial
  number _ _ := trivial
  fresh below := ⟨below.trans (Store.below_renumber _ _), trivial⟩
  array _ _ := trivial
  hash _ _ := trivial
  function _ _ := trivial
  unary _ _ _ := trivial
  binary _ _ _ _ := trivial
  lookup below _ := above_arrives.mpr below
  index below _ _ := above_arrives.mpr below
  raise below _ _ := below.trans (Store.below_renumber _ _)
  giveBack below _ := below.trans (Store.below_renumber _ _)
  assign below _ _ := ⟨⟨below.ids, by simpa using below.scopes⟩, trivial⟩
  print _ below := ⟨⟨below.ids, below.scopes⟩, trivial⟩
  builtin below _ _ := above_arrives.mpr (below.trans (Store.below_renumber _ _))
  cut below := below
  program _ stops := above_arrives.mpr stops

theorem above_opened {store : Store} (below : base.Below store) (home : Nat) :
    base.Below { store.addScope (some home) with
      log := .opened store.scopes.size home :: store.log } :=
  ⟨below.ids, below.scopes.trans (by simp)⟩

/-- Calls give out nothing twice; the induction is on how many calls may be nested. -/
theorem above_answers (depth : Nat) : (above base).Answers (apply depth) := by
  induction depth with
  | zero =>
      intro store line function nodes callee arguments below fact plainCallee plain
      exact apply_follows (above_lawful 0) below fact plainCallee plain (by simp)
  | succ depth ih =>
      intro store line function nodes callee arguments below fact plainCallee plain
      refine apply_follows (above_lawful 0) below fact plainCallee plain ?_
      intro id parameters body home rest _ sameDepth matching
      cases sameDepth
      have every : body.Every fun _ => True := Node.every_of_forall (fun _ => trivial) body
      refine ends_apply_of_body (above_lawful store.scopes.size) ih every (fun _ => trivial) matching rfl
        (above_opened below home) (fun _ _ => trivial) ?_ fun _ cut => cut
      intro value left arrives
      have below := above_arrives.mp arrives
      exact above_arrives.mpr ⟨below.ids, below.scopes⟩

theorem above_kept : Translation.Kept (above base) where
  lawful := above_lawful
  answers := above_answers
  assigns _ := trivial
  opened home below := ⟨above_opened below home, trivial⟩
  body _ := Node.every_of_forall (fun _ => trivial) _

/-- The scope of the run is there, and everything is known that the store and its values hold. -/
def rooted (scope : Nat) : Discipline where
  inv store := scope < store.scopes.size ∧ store.Rooted
  moves := Store.Below
  plain store value := value.Known store
  stops store value after :=
    (scope < after.scopes.size ∧ after.Rooted) ∧ store.Below after ∧ value.Known after
  cuts store after := (scope < after.scopes.size ∧ after.Rooted) ∧ store.Below after
  fact := Node.Literal
  assigns _ := True

theorem rooted_arrives {scope : Nat} {store after : Store} {value : Value} :
    (rooted scope).Arrives store value after ↔
      (scope < after.scopes.size ∧ after.Rooted) ∧ store.Below after ∧ value.Known after := by
  unfold Arrives
  split <;> exact Iff.rfl

theorem rooted_lawful (scope : Nat) : (rooted scope).Lawful scope where
  refl := .refl
  trans := .trans
  stops_after moves stops := ⟨stops.1, moves.trans stops.2.1, stops.2.2⟩
  cuts_after moves cut := ⟨cut.1, moves.trans cut.2⟩
  mono moves known := known.mono moves
  atom atomic other := atomic.known other
  number _ literal _ _ := congrArg Value.number (Number.rename_of_ofText? literal)
  fresh inv := ⟨⟨inv.1, inv.2.renumber _⟩, Store.below_renumber _ _⟩
  array _ known := Value.known_array known
  hash _ made := Value.known_hash made
  function inv _ := Value.known_function _ _ inv.1
  unary _ known given := Value.known_of_unary known given
  binary _ knownLeft knownRight given := Value.known_of_binary knownLeft knownRight given
  lookup inv found := rooted_arrives.mpr ⟨inv, .refl _, inv.2.lookup inv.1 found⟩
  index {store _ _ value} inv known given := by
    have inside : value.Known store := by
      rcases Operator.index_part given with rfl | part
      · exact Value.Atomic.known trivial (by simp [Value.kind])
      · exact Value.Known.part known part
    exact rooted_arrives.mpr ⟨inv, .refl _, inside⟩
  raise inv _ _ := ⟨⟨inv.1, inv.2.renumber _⟩, Store.below_renumber _ _, Value.known_error _ _ _⟩
  giveBack inv known :=
    ⟨⟨inv.1, inv.2.renumber _⟩, Store.below_renumber _ _, Value.known_result known _⟩
  assign {store name value} inv known _ := by
    have bound := (inv.2.bind scope name known).note (.bound scope name value :: store.log)
    exact ⟨⟨by simpa using inv.1, bound⟩, ⟨le_rfl, by simp⟩⟩
  print line inv := ⟨⟨inv.1, inv.2.note _⟩, ⟨le_rfl, le_rfl⟩⟩
  builtin inv known given :=
    rooted_arrives.mpr
      ⟨⟨inv.1, inv.2.renumber _⟩, Store.below_renumber _ _, Value.known_of_builtin known given⟩
  cut inv := ⟨inv, .refl _⟩
  program _ stops := rooted_arrives.mpr ⟨stops.1, stops.2.1, stops.2.2.unwrapped⟩

/-- No signal is stored anywhere, and everything is known. -/
abbrev sound (scope : Nat) : Discipline := both (signalFree Node.Literal) (rooted scope)

theorem sound_lawful (scope : Nat) : (sound scope).Lawful scope :=
  both_lawful (signalFree_lawful scope) (rooted_lawful scope)

/-- Calls keep to it in every scope; the body is run in a scope that was made inside a known one. -/
theorem sound_answers (depth scope : Nat) : (sound scope).Answers (apply depth) := by
  induction depth generalizing scope with
  | zero =>
      intro store line function nodes callee arguments inv fact plainCallee plain
      exact apply_follows (sound_lawful scope) inv fact plainCallee plain (by simp)
  | succ depth ih =>
      intro store line function nodes callee arguments inv fact plainCallee plain
      refine follows_both.mpr ⟨?_, ?_⟩
      · exact signalFree_answers (depth + 1) store line function nodes callee arguments inv.1 fact.1
          plainCallee.1 fun argument member => (plain argument member).1
      refine apply_follows (rooted_lawful scope) inv.2 fact.2 plainCallee.2
        (fun argument member => (plain argument member).2) ?_
      intro id parameters body home rest isFunction sameDepth matching
      subst isFunction
      cases sameDepth
      have inside := Value.Known.home_lt plainCallee.2 inv.2.2.positive
      have below : store.Below { store.addScope (some home) with
          log := .opened store.scopes.size home :: store.log } :=
        ⟨le_rfl, by simp⟩
      have clean := (inv.1.addScope (some home)).note (.opened store.scopes.size home) trivial
      have enclosed : ∀ outer ∈ some home, outer < store.scopes.size := by simpa using inside
      have rooted := (inv.2.2.addScope enclosed).note (.opened store.scopes.size home :: store.log)
      have every : body.Every Node.Literal := Value.Plain.body plainCallee.1
      have entering : (sound store.scopes.size).inv { store.addScope (some home) with
          log := .opened store.scopes.size home :: store.log } :=
        ⟨clean, by simp, rooted⟩
      refine ends_apply_of_body (sound_lawful store.scopes.size) (ih store.scopes.size) (every.both every)
        (fun _ => ⟨trivial, trivial⟩) matching rfl entering
        (fun argument member => ⟨(plain argument member).1, (plain argument member).2.mono below⟩) ?_ ?_
      · intro value left arrives
        obtain ⟨⟨_, rooted⟩, further, known⟩ := rooted_arrives.mp (arrives_both.mp arrives).2
        have whole : store.Below left := below.trans further
        refine rooted_arrives.mpr ⟨⟨inv.2.1.trans_le whole.scopes, rooted.note _⟩, ?_, ?_⟩
        · exact ⟨whole.ids, whole.scopes⟩
        · exact known.unwrapped.mono ⟨le_rfl, le_rfl⟩
      · rintro left ⟨_, ⟨_, rooted⟩, further⟩
        have whole : store.Below left := below.trans further
        exact ⟨⟨inv.2.1.trans_le whole.scopes, rooted⟩, whole⟩

end Discipline

/-! ## Sessions -/

open Discipline

namespace Session

/-- What holds of every session that can be reached. -/
structure Sound (session : Session) : Prop where
  clean : session.store.Clean Node.Literal
  rooted : session.store.Rooted
  root : session.root < session.store.scopes.size

/-- An ordinary value that a session has given out, or that is put together from such values. -/
structure Holds (session : Session) (value : Value) : Prop where
  plain : value.Plain Node.Literal
  known : value.Known session.store

/-- The sessions that a host can come to: it starts one, makes objects and scopes of its own, goes to
another scope, runs trees and sources, binds and calls values that the session has given out. -/
inductive Reachable : Session → Prop
  | new : Reachable .new
  | object {session : Session} : Reachable session →
      Reachable { session with store := { session.store with nextId := session.store.nextId + 1 } }
  | scope {session : Session} {outer : Option Nat} : Reachable session →
      (∀ home ∈ outer, home < session.store.scopes.size) →
      Reachable { session with store := session.store.addScope outer }
  | enter {session : Session} {scope : Nat} : Reachable session →
      scope < session.store.scopes.size → Reachable { session with root := scope }
  | tree {session : Session} {node : Node} (depth : Nat) :
      Reachable session → node.Every Node.Literal → Reachable (session.evalNode depth node).2
  | eval {session : Session} (depth : Nat) (source : String) :
      Reachable session → Reachable (session.eval depth source).2
  | bind {session : Session} {value : Value} (name : String) :
      Reachable session → session.Holds value →
      Reachable { session with store := session.store.bind session.root name value }
  | call {session : Session} {callee : Value} {arguments : List Value} (depth : Nat) (line : Int) :
      Reachable session → session.Holds callee → (∀ argument ∈ arguments, session.Holds argument) →
      Reachable (session.run (apply depth callee arguments line)).2

theorem Sound.start {session : Session} (is : session.Sound) :
    (sound session.root).inv { session.store with log := [] } :=
  ⟨is.clean.forget, is.root, is.rooted.note []⟩

/-- What a run leaves, and what it gives. -/
theorem sound_run {session : Session} {piece : Eval Value}
    (follows : (sound session.root).Follows { session.store with log := [] } piece) :
    (session.run piece).2.Sound ∧
      ∀ value, (session.run piece).1 = .value value → value.isSignal = false →
        (session.run piece).2.Holds value := by
  have same : (session.run piece).2.root = session.root := by
    unfold run
    split <;> rfl
  rcases run_ends follows with ⟨given, outcome, arrives⟩ | ⟨⟨reason, outcome⟩, clean, cut⟩
  · obtain ⟨first, second⟩ := arrives_both.mp arrives
    obtain ⟨⟨root, rooted⟩, -, known⟩ := rooted_arrives.mp second
    refine ⟨⟨first.clean.1, rooted, same ▸ root⟩, ?_⟩
    intro value isValue ordinary
    rw [outcome] at isValue
    cases isValue
    exact ⟨first.clean.2.plain ordinary, known⟩
  · refine ⟨⟨clean, cut.1.2, same ▸ cut.1.1⟩, ?_⟩
    intro value isValue
    rw [outcome] at isValue
    cases isValue

theorem sound_new : new.Sound :=
  ⟨Store.clean_empty.addScope none, Store.Rooted.addScope ⟨Nat.one_pos, fun _ _ _ => rfl⟩ (by simp),
    Nat.one_pos⟩

theorem sound_evalNode {session : Session} (is : session.Sound) (depth : Nat) {node : Node}
    (every : node.Every Node.Literal) :
    (session.evalNode depth node).2.Sound ∧
      ∀ value, (session.evalNode depth node).1 = .value value → value.isSignal = false →
        (session.evalNode depth node).2.Holds value :=
  sound_run (eval_follows (sound_lawful _) (sound_answers depth _) node (every.both every)
    (fun _ _ => ⟨trivial, trivial⟩) _ is.start)

theorem sound_eval {session : Session} (is : session.Sound) (depth : Nat) (source : String) :
    (session.eval depth source).2.Sound ∧
      ∀ value, (session.eval depth source).1 = .value value → value.isSignal = false →
        (session.eval depth source).2.Holds value := by
  unfold eval
  split
  case h_1 program read => exact sound_evalNode is depth (every_literal_of_parse read)
  case h_2 =>
    refine ⟨⟨is.clean.forget, is.rooted.note [], is.root⟩, ?_⟩
    intro value isValue
    cases isValue

theorem sound_bind {session : Session} (is : session.Sound) (name : String) {value : Value}
    (held : session.Holds value) :
    ({ session with store := session.store.bind session.root name value } : Session).Sound :=
  ⟨is.clean.bind _ _ held.plain, is.rooted.bind _ _ held.known, by simpa using is.root⟩

theorem sound_call {session : Session} (is : session.Sound) {callee : Value} {arguments : List Value}
    (depth : Nat) (line : Int) (held : session.Holds callee)
    (heldAll : ∀ argument ∈ arguments, session.Holds argument) :
    (session.run (apply depth callee arguments line)).2.Sound ∧
      ∀ value, (session.run (apply depth callee arguments line)).1 = .value value →
        value.isSignal = false → (session.run (apply depth callee arguments line)).2.Holds value := by
  have forgotten {value : Value} (known : value.Known session.store) :
      value.Known { session.store with log := [] } :=
    known.mono ⟨le_rfl, le_rfl⟩
  refine sound_run (sound_answers depth session.root _ line .missing [] callee arguments is.start
    ⟨trivial, trivial⟩ ⟨held.plain, forgotten held.known⟩ ?_)
  intro argument member
  exact ⟨(heldAll argument member).plain, forgotten (heldAll argument member).known⟩

theorem Reachable.sound {session : Session} (reachable : session.Reachable) : session.Sound := by
  induction reachable with
  | new => exact sound_new
  | object _ ih => exact ⟨ih.clean.renumber _, ih.rooted.renumber _, ih.root⟩
  | scope _ inside ih =>
      exact ⟨ih.clean.addScope _, ih.rooted.addScope inside, ih.root.trans_le (by simp)⟩
  | enter _ inside ih => exact ⟨ih.clean, ih.rooted, inside⟩
  | tree depth _ every ih => exact (sound_evalNode ih depth every).1
  | eval depth source _ ih => exact (sound_eval ih depth source).1
  | bind name _ held ih => exact sound_bind ih name held
  | call depth line _ held heldAll ih => exact (sound_call ih depth line held heldAll).1

/-- What a name means in the root scope of a session is held by it. -/
theorem Sound.holds_lookup {session : Session} (is : session.Sound) {name : String} {value : Value}
    (found : session.store.lookup session.root name = some value) : session.Holds value :=
  ⟨is.clean.lookup found, is.rooted.lookup is.root found⟩

end Session

end Treewalk
