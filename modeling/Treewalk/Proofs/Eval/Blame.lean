import Treewalk.Proofs.Eval.Signals
import Treewalk.Proofs.Tree.Places

/-!
# Errors are found by nodes

An error travels far from where it was found, out of calls and from one source into another that made
the function it was found in. What it carries still belongs to one node: `Value.Blamed` says that some
node raises it when its parts give plain values. The fact that holds of all trees in a run holds of that
node too, so the error tells no more than these trees allow (`Session.blamed_eval`).
-/

namespace Treewalk

open Eval

variable {fact : Node → Prop}

/-- If the value is an error, a node of which `fact` holds has found it. -/
def Value.Blamed (fact : Node → Prop) (value : Value) : Prop :=
  ∀ id line fault, value = .error id line fault →
    ∃ node, fact node ∧ node.Raises (Value.Plain fact) line fault

theorem Value.blamed_of_plain {value : Value} (plain : value.Plain fact) : value.Blamed fact := by
  rintro id line fault rfl
  cases plain

namespace Discipline

/-- Stores stay clean, and every error was found by a node. -/
def blaming (fact : Node → Prop) : Discipline where
  inv := Store.Clean fact
  moves _ _ := True
  plain _ value := value.Plain fact
  stops _ value after := (after.Clean fact ∧ value.Proper fact) ∧ value.Blamed fact
  cuts _ after := after.Clean fact
  fact := fact
  assigns _ := True

theorem blaming_arrives {store after : Store} {value : Value} :
    (blaming fact).Arrives store value after ↔
      (after.Clean fact ∧ value.Proper fact) ∧ value.Blamed fact := by
  constructor
  · intro arrives
    by_cases signal : value.isSignal = true
    · exact arrives.stops signal
    · obtain ⟨clean, -, plain⟩ := arrives.plain signal
      exact ⟨⟨clean, Value.Plain.proper plain⟩, Value.blamed_of_plain plain⟩
  · rintro ⟨⟨clean, proper⟩, blamed⟩
    cases signal : value.isSignal with
    | true => exact .of_stops signal ⟨⟨clean, proper⟩, blamed⟩
    | false => exact .of_plain signal clean trivial (proper.plain signal)

theorem blaming_arrives_plain {store after : Store} {value : Value} (clean : after.Clean fact)
    (plain : value.Plain fact) : (blaming fact).Arrives store value after :=
  .of_plain plain.isSignal_eq_false clean trivial plain

theorem blaming_lawful (scope : Nat) : (blaming fact).Lawful scope where
  refl _ := trivial
  trans _ _ := trivial
  stops_after _ stops := stops
  cuts_after _ cut := cut
  mono _ plain := plain
  atom atomic _ := atomic.plain
  number _ _ := .number
  fresh clean := ⟨clean.renumber _, trivial⟩
  array _ plain := .array plain
  hash _ made := .hash fun entry member => (made entry member).2
  function _ every := .function every
  unary _ _ given := (Operator.unary_atomic given).plain
  binary _ _ _ given := (Operator.binary_atomic given).plain
  lookup clean found := blaming_arrives_plain clean (clean.lookup found)
  index clean plain given := by
    rcases Operator.index_part given with rfl | part
    · exact blaming_arrives_plain clean .null
    · exact blaming_arrives_plain clean (Value.Plain.parts plain part)
  raise clean here raises := by
    refine ⟨⟨clean.raised _ _, trivial⟩, ?_⟩
    rintro id line fault ⟨⟩
    exact ⟨_, here, raises⟩
  giveBack {store value} clean plain := by
    refine ⟨⟨(clean.renumber (store.nextId + 1)).note (.returned store.nextId value) plain, plain⟩, ?_⟩
    rintro id line fault ⟨⟩
  assign clean plain _ := ⟨(clean.bind _ _ plain).note (.bound ..) plain, trivial⟩
  print line clean := ⟨clean.note (.printed line) trivial, trivial⟩
  builtin clean plain given :=
    blaming_arrives_plain (clean.renumber _) (Value.plain_of_makes plain (Builtin.apply_makes given))
  cut clean := clean
  program _ stops := blaming_arrives_plain stops.1.1 stops.1.2

/-- Calls pass on what was found in them; the induction is on how many calls may be nested. -/
theorem blaming_answers (depth : Nat) : (blaming fact).Answers (apply depth) := by
  induction depth with
  | zero =>
      intro store line function nodes callee arguments clean here plainCallee plain
      exact apply_follows (blaming_lawful 0) clean here plainCallee plain (by simp)
  | succ depth ih =>
      intro store line function nodes callee arguments clean here plainCallee plain
      refine apply_follows (blaming_lawful 0) clean here plainCallee plain ?_
      intro id parameters body home rest isFunction sameDepth matching
      subst isFunction
      cases sameDepth
      have opened := (clean.addScope (some home)).note (.opened store.scopes.size home) trivial
      refine ends_apply_of_body (blaming_lawful store.scopes.size) ih (Value.Plain.body plainCallee)
        (fun _ => trivial) matching rfl opened plain ?_ fun _ cut => cut
      intro value left arrives
      obtain ⟨⟨clean, proper⟩, blamed⟩ := blaming_arrives.mp arrives
      have settled := proper.unwrapped
      refine blaming_arrives.mpr ⟨⟨clean.note (.closed _ _) settled, settled.1⟩, ?_⟩
      cases value with
      | result _ inner => exact Value.blamed_of_plain proper
      | _ => exact blamed

end Discipline

open Discipline

/-! ## Sessions -/

namespace Session

/-- What running a source does to a clean store, if what is read from it keeps to the fact, and that an
error it gives was found by a node. -/
theorem blamed_eval {session : Session} {depth : Nat} {source : String}
    (every : ∀ program, parse source = .ok program → program.Every fact)
    (clean : session.store.Clean fact) :
    (session.eval depth source).2.store.Clean fact ∧
      ∀ value, (session.eval depth source).1 = .value value → value.Blamed fact := by
  unfold eval
  split
  case h_2 => exact ⟨clean.forget, by rintro value ⟨⟩⟩
  case h_1 program read =>
    have follows := eval_follows (blaming_lawful session.root) (blaming_answers depth) program
      (every program read) (fun _ _ => trivial) _ clean.forget
    rcases run_ends follows with ⟨given, outcome, arrives⟩ | ⟨⟨reason, outcome⟩, clean⟩
    · obtain ⟨⟨clean, -⟩, blamed⟩ := blaming_arrives.mp arrives
      refine ⟨clean, fun value isValue => ?_⟩
      rw [evalNode, outcome] at isValue
      cases isValue
      exact blamed
    · refine ⟨clean, fun value isValue => ?_⟩
      rw [evalNode, outcome] at isValue
      cases isValue

theorem clean_after_of_every {session : Session} (steps : List (Nat × String))
    (every : ∀ step ∈ steps, ∀ program, parse step.2 = .ok program → program.Every fact)
    (clean : session.store.Clean fact) : (session.after steps).store.Clean fact := by
  induction steps generalizing session with
  | nil => exact clean
  | cons step more ih =>
      refine ih (fun other member => every other (List.mem_cons_of_mem _ member)) ?_
      exact (blamed_eval (every step List.mem_cons_self) clean).1

/-- A node that was read from one of the sources. -/
def Read (sources : List String) (node : Node) : Prop :=
  ∃ source ∈ sources, ∃ program, parse source = .ok program ∧ node.Within program

/-- An error that a source gives was found by a node that was read from it, or from a source that was run
before it. -/
theorem exists_raises_of_eval {steps : List (Nat × String)} {depth : Nat} {source : String} {id : Nat}
    {line : Int} {fault : Fault}
    (given : ((new.after steps).eval depth source).1 = .value (.error id line fault)) :
    ∃ origin ∈ source :: steps.map Prod.snd, ∃ program node : Node, parse origin = .ok program ∧
      node.Within program ∧
      node.Raises (Value.Plain (Read (source :: steps.map Prod.snd))) line fault := by
  have every (origin : String) (member : origin ∈ source :: steps.map Prod.snd) (program : Node)
      (read : parse origin = .ok program) : program.Every (Read (source :: steps.map Prod.snd)) :=
    Node.every_of_within fun node within => ⟨origin, member, program, read, within⟩
  have clean : (new.after steps).store.Clean (Read (source :: steps.map Prod.snd)) :=
    clean_after_of_every steps
      (fun step member => every step.2 (List.mem_cons_of_mem _ (List.mem_map_of_mem member))) clean_new
  obtain ⟨node, ⟨origin, member, program, read, within⟩, raises⟩ :=
    (blamed_eval (every source List.mem_cons_self) clean).2 _ given id line fault rfl
  exact ⟨origin, member, program, node, read, within, raises⟩

end Session

end Treewalk
