import Treewalk.Proofs.Eval.Translation

/-!
# Two disciplines at once

What is followed along a run can be put together from two disciplines that are each followed by
themselves: laws, answers and everything that a translation asks for hold of both if they hold of each.
-/

namespace Treewalk

open Eval

/-- What a node raises for plain values, it raises for values of which less is known. -/
theorem Node.Raises.mono {plain other : Value → Prop} {node : Node} {line : Int} {fault : Fault}
    (raises : node.Raises plain line fault) (weaker : ∀ value, plain value → other value) :
    node.Raises other line fault := by
  cases raises with
  | missing => exact .missing
  | bare => exact .bare
  | identifier unknown => exact .identifier unknown
  | unary operand outcome => exact .unary (weaker _ operand) outcome
  | binary left right outcome => exact .binary (weaker _ left) (weaker _ right) outcome
  | index subject position outcome => exact .index (weaker _ subject) (weaker _ position) outcome
  | key member key unusable => exact .key member (weaker _ key) unusable
  | call callee arguments found =>
      exact .call (weaker _ callee) (fun argument member => weaker _ (arguments argument member)) found

theorem Node.Every.both {fact other : Node → Prop} {node : Node} (first : node.Every fact)
    (second : node.Every other) : node.Every fun node => fact node ∧ other node := by
  induction first with
  | intro here _ ih =>
      exact .intro ⟨here, second.here⟩ fun child member => ih child member (second.child member)

namespace Discipline

/-- Everything that two disciplines follow. -/
def both (D E : Discipline) : Discipline where
  inv store := D.inv store ∧ E.inv store
  moves before after := D.moves before after ∧ E.moves before after
  plain store value := D.plain store value ∧ E.plain store value
  stops store value after := D.stops store value after ∧ E.stops store value after
  cuts store after := D.cuts store after ∧ E.cuts store after
  fact node := D.fact node ∧ E.fact node
  assigns name := D.assigns name ∧ E.assigns name

variable {D E : Discipline} {store after : Store} {value : Value}

theorem arrives_both :
    (both D E).Arrives store value after ↔
      D.Arrives store value after ∧ E.Arrives store value after := by
  unfold Arrives
  split
  case isTrue => exact Iff.rfl
  case isFalse =>
    constructor
    · rintro ⟨inv, moves, plain⟩
      exact ⟨⟨inv.1, moves.1, plain.1⟩, inv.2, moves.2, plain.2⟩
    · rintro ⟨first, second⟩
      exact ⟨⟨first.1, second.1⟩, ⟨first.2.1, second.2.1⟩, first.2.2, second.2.2⟩

theorem follows_both {run : Eval Value} :
    (both D E).Follows store run ↔ D.Follows store run ∧ E.Follows store run := by
  unfold Follows Ends
  cases run store with
  | ok value after => exact arrives_both
  | error cut after => exact Iff.rfl

theorem both_lawful {scope : Nat} (first : D.Lawful scope) (second : E.Lawful scope) :
    (both D E).Lawful scope where
  refl store := ⟨first.refl store, second.refl store⟩
  trans one two := ⟨first.trans one.1 two.1, second.trans one.2 two.2⟩
  stops_after moves stops := ⟨first.stops_after moves.1 stops.1, second.stops_after moves.2 stops.2⟩
  cuts_after moves cut := ⟨first.cuts_after moves.1 cut.1, second.cuts_after moves.2 cut.2⟩
  mono moves plain := ⟨first.mono moves.1 plain.1, second.mono moves.2 plain.2⟩
  atom atomic other := ⟨first.atom atomic other, second.atom atomic other⟩
  number inv fact := ⟨first.number inv.1 fact.1, second.number inv.2 fact.2⟩
  fresh inv :=
    ⟨⟨(first.fresh inv.1).1, (second.fresh inv.2).1⟩, (first.fresh inv.1).2, (second.fresh inv.2).2⟩
  array inv plain :=
    ⟨first.array inv.1 fun item member => (plain item member).1,
      second.array inv.2 fun item member => (plain item member).2⟩
  hash inv made := by
    refine ⟨first.hash inv.1 fun entry member => ?_, second.hash inv.2 fun entry member => ?_⟩
    · obtain ⟨⟨given, plain, key⟩, value⟩ := made entry member
      exact ⟨⟨given, plain.1, key⟩, value.1⟩
    · obtain ⟨⟨given, plain, key⟩, value⟩ := made entry member
      exact ⟨⟨given, plain.2, key⟩, value.2⟩
  function inv every :=
    ⟨first.function inv.1 (every.mono fun _ fact => fact.1),
      second.function inv.2 (every.mono fun _ fact => fact.2)⟩
  unary inv plain given := ⟨first.unary inv.1 plain.1 given, second.unary inv.2 plain.2 given⟩
  binary inv left right given :=
    ⟨first.binary inv.1 left.1 right.1 given, second.binary inv.2 left.2 right.2 given⟩
  lookup inv found := arrives_both.mpr ⟨first.lookup inv.1 found, second.lookup inv.2 found⟩
  index inv plain given :=
    arrives_both.mpr ⟨first.index inv.1 plain.1 given, second.index inv.2 plain.2 given⟩
  raise inv fact raises :=
    ⟨first.raise inv.1 fact.1 (raises.mono fun _ plain => plain.1),
      second.raise inv.2 fact.2 (raises.mono fun _ plain => plain.2)⟩
  giveBack inv plain := ⟨first.giveBack inv.1 plain.1, second.giveBack inv.2 plain.2⟩
  assign inv plain allowed := by
    have one := first.assign inv.1 plain.1 allowed.1
    have two := second.assign inv.2 plain.2 allowed.2
    exact ⟨⟨one.1, two.1⟩, one.2, two.2⟩
  print line inv :=
    ⟨⟨(first.print line inv.1).1, (second.print line inv.2).1⟩,
      (first.print line inv.1).2, (second.print line inv.2).2⟩
  builtin inv plain given :=
    arrives_both.mpr ⟨first.builtin inv.1 (fun argument member => (plain argument member).1) given,
      second.builtin inv.2 (fun argument member => (plain argument member).2) given⟩
  cut inv := ⟨first.cut inv.1, second.cut inv.2⟩
  program fact stops :=
    arrives_both.mpr ⟨first.program fact.1 stops.1, second.program fact.2 stops.2⟩

theorem both_answers {call : Call} (first : D.Answers call) (second : E.Answers call) :
    (both D E).Answers call := by
  intro store line function nodes callee arguments inv fact plainCallee plain
  refine follows_both.mpr ⟨?_, ?_⟩
  · exact first store line function nodes callee arguments inv.1 fact.1 plainCallee.1
      fun argument member => (plain argument member).1
  · exact second store line function nodes callee arguments inv.2 fact.2 plainCallee.2
      fun argument member => (plain argument member).2

theorem both_kept (first : Translation.Kept D) (second : Translation.Kept E) :
    Translation.Kept (both D E) where
  lawful scope := both_lawful (first.lawful scope) (second.lawful scope)
  answers depth := both_answers (first.answers depth) (second.answers depth)
  assigns name := ⟨first.assigns name, second.assigns name⟩
  opened home inv :=
    ⟨⟨(first.opened home inv.1).1, (second.opened home inv.2).1⟩,
      (first.opened home inv.1).2, (second.opened home inv.2).2⟩
  body plain := (first.body plain.1).both (second.body plain.2)

end Discipline

end Treewalk
