import Treewalk.Proofs.Eval.Signals
import Treewalk.Proofs.Eval.Translation
import Treewalk.Proofs.Reader.Shift
import Treewalk.Proofs.Reader.Viable
import Treewalk.Proofs.Value.Lines
import Treewalk.Store.Display

/-!
# Layout cannot be observed

Two sources with the same tokens may differ in blanks, newlines and comments, and so in the lines of the
trees that are read from them. A run hands lines on and never looks at one, and the only text that shows
a line is that of an error, which is never stored and never an argument (`Store.Clean`). So two sessions
that are the same apart from lines stay so (`Session.unlined`), and print the same.
-/

namespace Treewalk

open Eval

variable {f : Int → Int}

/-! ## The same tokens -/

/-- Two sources that are cut into tokens to their ends, the same in kind and text. -/
structure SameTokens (source another : String) : Prop where
  complete : ∃ last, (TokenStream.ofSource source).ending = .eof last
  completeOther : ∃ last, (TokenStream.ofSource another).ending = .eof last
  tokens : (TokenStream.ofSource source).tokens.map (fun t => (t.kind, t.text)) =
    (TokenStream.ofSource another).tokens.map fun t => (t.kind, t.text)

/-- The same tokens are read as the same tree apart from lines, or refused for the same reason. -/
theorem SameTokens.parse_alike {source another : String} (same : SameTokens source another) :
    (∃ program again, parse source = .ok program ∧ parse another = .ok again ∧
      program.unlined = again.unlined) ∨
    ∃ e other, parse source = .error e ∧ parse another = .error other ∧
      e.shift .unlined = other.shift .unlined := by
  obtain ⟨last, ending⟩ := same.complete
  obtain ⟨lastOther, endingOther⟩ := same.completeOther
  have unlined : (TokenStream.ofSource source).unlined = (TokenStream.ofSource another).unlined := by
    -- A token without its line is its kind and its text.
    have rows := congrArg (List.map fun both : TokenKind × String => (⟨both.1, both.2, 0⟩ : Token))
      same.tokens
    rw [List.map_map, List.map_map] at rows
    rw [TokenStream.unlined, TokenStream.unlined, ending, endingOther]
    exact congrArg (TokenStream.mk · (.eof 0)) rows
  have reads : shiftRead .unlined (parse source) = shiftRead .unlined (parse another) :=
    calc shiftRead .unlined (parse source)
      _ = (TokenStream.ofSource source).unlined.parse := (Shift.parse_unlined ending).symm
      _ = (TokenStream.ofSource another).unlined.parse := by rw [unlined]
      _ = shiftRead .unlined (parse another) := Shift.parse_unlined endingOther
  cases read : parse source with
  | ok program =>
      cases readOther : parse another with
      | ok again =>
          rw [read, readOther] at reads
          refine .inl ⟨program, again, rfl, rfl, ?_⟩
          rw [← Shift.shiftRoot_unlined, ← Shift.shiftRoot_unlined]
          exact Except.ok.inj reads
      | error =>
          rw [read, readOther] at reads
          cases reads
  | error e =>
      cases readOther : parse another with
      | ok =>
          rw [read, readOther] at reads
          cases reads
      | error other =>
          rw [read, readOther] at reads
          exact .inr ⟨e, other, rfl, rfl, Except.error.inj reads⟩

/-- Errors that are the same apart from lines have the same words. -/
theorem ReadFault.message_of_shift {S : Shift} {fault other : ReadFault}
    (same : fault.shift S = other.shift S) : fault.message = other.message := by
  rw [← fault.message_shift, same, other.message_shift]

/-! ## Stores on other lines -/

/-- An event with every line changed. -/
def Event.mapLines (f : Int → Int) : Event → Event
  | .bound scope name value => .bound scope name (value.mapLines f)
  | .closed scope value => .closed scope (value.mapLines f)
  | .returned id value => .returned id (value.mapLines f)
  | .raised id line fault => .raised id (f line) fault
  | event => event

namespace Store

/-- A store with every line changed. -/
def mapLines (f : Int → Int) (store : Store) : Store where
  scopes := store.scopes.map (Scope.mapValues (Value.mapLines f))
  nextId := store.nextId
  log := store.log.map (Event.mapLines f)

theorem bound_mapLines (store : Store) (scope : Nat) (name : String) (value : Value) :
    { (store.mapLines f).bind scope name (value.mapLines f) with
      log := .bound scope name (value.mapLines f) :: (store.mapLines f).log } =
      mapLines f { store.bind scope name value with log := .bound scope name value :: store.log } := by
  have bound : ((store.mapLines f).bind scope name (value.mapLines f)).scopes =
      (store.bind scope name value).scopes.map (Scope.mapValues (Value.mapLines f)) :=
    scopes_bind_of_map rfl scope name value
  dsimp only
  rw [bound]
  rfl

theorem opened_mapLines (store : Store) (home : Nat) :
    openScope home (store.mapLines f) = .ok store.scopes.size (mapLines f
      { store.addScope (some home) with log := .opened store.scopes.size home :: store.log }) := by
  have size : (store.mapLines f).scopes.size = store.scopes.size := Array.size_map
  have pushed : ((store.mapLines f).addScope (some home)).scopes =
      (store.addScope (some home)).scopes.map (Scope.mapValues (Value.mapLines f)) := by
    simp [addScope, mapLines, Scope.mapValues]
  calc openScope home (store.mapLines f)
    _ = .ok (store.mapLines f).scopes.size { (store.mapLines f).addScope (some home) with
        log := .opened (store.mapLines f).scopes.size home :: (store.mapLines f).log } := rfl
    _ = _ := by
      dsimp only
      rw [size, pushed]
      rfl

theorem output_mapLines (store : Store) : (store.mapLines f).output = store.output := by
  simp only [output, mapLines, ← List.map_reverse, List.map_map]
  congr 1
  refine List.map_congr_left fun event _ => ?_
  cases event <;> rfl

theorem display_mapLines {store : Store} (clean : store.Clean Node.Lineless) (scope : Nat) :
    (store.mapLines f).display scope = store.display scope := by
  have same : ((store.mapLines f).bindings scope).display = (store.bindings scope).display := by
    rw [bindings_of_map (f := Value.mapLines f) rfl, Bindings.display, Bindings.display, List.map_map]
    refine congrArg (braced ∘ commaSeparated) (List.map_congr_left fun binding member => ?_)
    exact congrArg (binding.1 ++ ": " ++ ·) (clean.bindings scope binding member).display_mapLines
  have enclosed : ((store.mapLines f).scopes[scope]?.bind Scope.outer) =
      store.scopes[scope]?.bind Scope.outer := by
    rw [mapLines, Array.getElem?_map]
    cases store.scopes[scope]? <;> rfl
  rw [display, display, same, enclosed]

end Store

/-! ## Runs on other lines -/

/-- The same run on other lines. -/
def relined (f : Int → Int) : Translation where
  line := f
  id := id
  scope := id
  key := id
  value := Value.mapLines f
  store := Store.mapLines f

theorem relined_lawful (zero : f 0 = 0) : (relined f).Lawful (.signalFree Node.Lineless) where
  zero := zero
  atom atomic _ := atomic.mapLines
  number _ := rfl
  array := Value.mapLines_array
  hash := Value.mapLines_hash
  function _ _ _ _ := rfl
  kind := Value.kind_mapLines
  truthy := Value.truthy_mapLines
  unwrapped := Value.unwrapped_mapLines
  key? value := by simp [relined]
  insert := Entries.insert_mapLines
  unary id operator _ := Operator.unary_mapLines id operator _
  binary id operator _ _ := Operator.binary_mapLines id operator _ _
  index _ _ := Operator.index_mapLines _ _
  builtin id builtin _ := Builtin.apply_mapLines id builtin _
  printed builtin plain := builtin.printed_mapLines plain
  lookup scope name _ := Store.lookup_of_map rfl scope name
  fresh _ := rfl
  raise _ _ _ := rfl
  giveBack _ _ := rfl
  assign scope name value _ := congrArg (EStateM.Result.ok ()) (Store.bound_mapLines _ scope name value)
  openScope home _ := Store.opened_mapLines _ home
  print _ _ := rfl
  close _ _ _ := rfl

/-- Runs keep stores clean in every scope and at every depth. -/
theorem Discipline.signalFree_kept {fact : Node → Prop} : Translation.Kept (signalFree fact) where
  lawful := signalFree_lawful
  answers := signalFree_answers
  assigns _ := trivial
  opened home clean := ⟨(clean.addScope (some home)).note (.opened _ home) trivial, trivial⟩
  body plain := Value.Plain.body plain

/-! ## Sessions on other lines -/

/-- A session without its lines. -/
def Session.unlined (session : Session) : Session where
  root := session.root
  store := session.store.mapLines fun _ => 0

/-- The outcome of a run without its lines. -/
def Outcome.unlined : Outcome → Outcome
  | .value given => .value given.unlined
  | .unreadable e => .unreadable (e.shift .unlined)
  | .cut reason => .cut reason

namespace Session

/-- A tree without lines does the same, without lines. -/
theorem evalNode_unlined {session : Session} (depth : Nat) {node : Node}
    (every : node.Every Node.Lineless) (clean : session.store.Clean Node.Lineless) :
    session.unlined.evalNode depth node.unlined =
      ((session.evalNode depth node).1.unlined, (session.evalNode depth node).2.unlined) := by
  have carried := (Translation.eval_carries (relined_lawful (f := fun _ => 0) rfl)
    Discipline.signalFree_kept depth session.root every clean.forget).carries
  have image : node.unlined.eval (apply depth) session.root
      { session.unlined.store with log := [] } = _ := carried
  unfold evalNode run
  rw [show session.unlined.root = session.root from rfl, image]
  cases node.eval (apply depth) session.root { session.store with log := [] } <;> rfl

/-- The same tokens do the same in sessions that are the same apart from lines. -/
theorem eval_unlined {session other : Session} (depth : Nat) {source another : String}
    (alike : session.unlined = other.unlined) (clean : session.store.Clean Node.Lineless)
    (cleanOther : other.store.Clean Node.Lineless) (same : SameTokens source another) :
    (session.eval depth source).1.unlined = (other.eval depth another).1.unlined ∧
      (session.eval depth source).2.unlined = (other.eval depth another).2.unlined := by
  unfold eval
  rcases same.parse_alike with
    ⟨program, again, read, readOther, trees⟩ | ⟨e, image, read, readOther, errors⟩
  · -- Both runs are carried to the run of one tree without lines in one session without lines.
    have here := evalNode_unlined depth (every_lineless_of_parse read) clean
    have there := evalNode_unlined depth (every_lineless_of_parse readOther) cleanOther
    rw [alike, trees, there] at here
    rw [read, readOther]
    exact ⟨(congrArg Prod.fst here).symm, (congrArg Prod.snd here).symm⟩
  · rw [read, readOther]
    refine ⟨congrArg Outcome.unreadable errors, ?_⟩
    exact congrArg (fun left : Session => { left with store := { left.store with log := [] } }) alike

end Session

/-! ## Outcomes -/

/-- Outcomes that are the same apart from lines: values of which only an error can be written
differently, errors of reading in the same words, or runs that were cut short alike. -/
inductive Outcome.Alike : Outcome → Outcome → Prop
  | value {given other : Value} : given.unlined = other.unlined →
      (given.kind ≠ .error → given.display = other.display) → Alike (.value given) (.value other)
  | unreadable {line otherLine : Int} {fault other : ReadFault} : fault.message = other.message →
      Alike (.unreadable (.malformed line fault)) (.unreadable (.malformed otherLine other))
  | cut {reason : Cut} : Alike (.cut reason) (.cut reason)

/-- Values that a run may give are written the same if they are the same apart from lines and no
error. -/
theorem Value.Settled.display_eq {given other : Value} (settled : given.Settled Node.Lineless)
    (settledOther : other.Settled Node.Lineless) (same : given.unlined = other.unlined)
    (ordinary : given.kind ≠ .error) : given.display = other.display := by
  have kinds : given.kind = other.kind := by
    rw [← given.kind_mapLines, ← other.kind_mapLines]
    exact congrArg Value.kind same
  calc given.display
    _ = given.unlined.display := (settled.plain ordinary).display_mapLines.symm
    _ = other.unlined.display := congrArg Value.display same
    _ = other.display := (settledOther.plain (kinds ▸ ordinary)).display_mapLines

namespace Session

theorem malformed_of_eval {session : Session} {depth : Nat} {source : String} {e : ReadError}
    (outcome : (session.eval depth source).1 = .unreadable e) :
    ∃ line fault, e = .malformed line fault := by
  unfold eval at outcome
  split at outcome
  case h_1 =>
    unfold evalNode run at outcome
    split at outcome <;> cases outcome
  case h_2 refused =>
    cases outcome
    exact malformed_of_parse refused

/-- A step of two sessions that are the same apart from lines ends alike. -/
theorem alike_eval {session other : Session} (depth : Nat) {source another : String}
    (alike : session.unlined = other.unlined) (clean : session.store.Clean Node.Lineless)
    (cleanOther : other.store.Clean Node.Lineless) (same : SameTokens source another) :
    (session.eval depth source).1.Alike (other.eval depth another).1 := by
  have outcomes := (eval_unlined depth alike clean cleanOther same).1
  cases here : (session.eval depth source).1 with
  | value given =>
      cases there : (other.eval depth another).1 with
      | value image =>
          rw [here, there] at outcomes
          have values : given.unlined = image.unlined := Outcome.value.inj outcomes
          exact .value values (((clean_eval readable_lineless clean).2 given here).display_eq
            ((clean_eval readable_lineless cleanOther).2 image there) values)
      | _ =>
          rw [here, there] at outcomes
          cases outcomes
  | unreadable e =>
      cases there : (other.eval depth another).1 with
      | unreadable image =>
          obtain ⟨line, fault, rfl⟩ := malformed_of_eval here
          obtain ⟨otherLine, otherFault, rfl⟩ := malformed_of_eval there
          rw [here, there] at outcomes
          have errors := ReadError.malformed.inj (Outcome.unreadable.inj outcomes)
          exact .unreadable (ReadFault.message_of_shift errors.2)
      | _ =>
          rw [here, there] at outcomes
          cases outcomes
  | cut reason =>
      cases there : (other.eval depth another).1 with
      | cut image =>
          rw [here, there] at outcomes
          cases outcomes
          exact .cut
      | _ =>
          rw [here, there] at outcomes
          cases outcomes

/-- Sessions that are the same apart from lines stay so, step by step. -/
theorem after_unlined {session other : Session} (steps : List (Nat × String × String))
    (alike : session.unlined = other.unlined) (clean : session.store.Clean Node.Lineless)
    (cleanOther : other.store.Clean Node.Lineless)
    (same : ∀ step ∈ steps, SameTokens step.2.1 step.2.2) :
    (session.after (steps.map fun step => (step.1, step.2.1))).unlined =
      (other.after (steps.map fun step => (step.1, step.2.2))).unlined := by
  induction steps generalizing session other with
  | nil => exact alike
  | cons step more ih =>
      have first := same step List.mem_cons_self
      exact ih (eval_unlined step.1 alike clean cleanOther first).2
        (clean_eval readable_lineless clean).1 (clean_eval readable_lineless cleanOther).1
        fun other member => same other (List.mem_cons_of_mem _ member)

end Session

/-- Layout and lines cannot be observed but in errors. Two sources with the same tokens are both refused
in the same words, apart from the line, or both read as the same tree, apart from lines. Run as
corresponding steps of two sessions that are the same apart from lines, they print the same, leave
scopes that are written the same and give the same outcome, an error on another line excepted; and all
that the two runs did, event by event, is the same apart from lines. -/
theorem layout_is_unobservable (session other : Session) (alike : session.unlined = other.unlined)
    (clean : session.store.Clean Node.Lineless) (cleanOther : other.store.Clean Node.Lineless) :
    (∀ source another, SameTokens source another →
      (∃ program again, parse source = .ok program ∧ parse another = .ok again ∧
        program.unlined = again.unlined) ∨
      ∃ line fault otherLine otherFault, parse source = .error (.malformed line fault) ∧
        parse another = .error (.malformed otherLine otherFault) ∧
        fault.message = otherFault.message) ∧
    ∀ (steps : List (Nat × String × String)) (depth : Nat) (source another : String),
      (∀ step ∈ steps, SameTokens step.2.1 step.2.2) → SameTokens source another →
      let here := (session.after (steps.map fun step => (step.1, step.2.1))).eval depth source
      let there := (other.after (steps.map fun step => (step.1, step.2.2))).eval depth another
      here.1.Alike there.1 ∧ here.2.store.output = there.2.store.output ∧
        (∀ scope, here.2.store.display scope = there.2.store.display scope) ∧
        here.2.unlined = there.2.unlined := by
  constructor
  · intro source another same
    rcases same.parse_alike with read | ⟨e, image, refused, refusedOther, errors⟩
    · exact .inl read
    · obtain ⟨line, fault, rfl⟩ := malformed_of_parse refused
      obtain ⟨otherLine, otherFault, rfl⟩ := malformed_of_parse refusedOther
      exact .inr ⟨line, fault, otherLine, otherFault, refused, refusedOther,
        ReadFault.message_of_shift (ReadError.malformed.inj errors).2⟩
  · intro steps depth source another before same here there
    have alike := Session.after_unlined steps alike clean cleanOther before
    have clean := Session.clean_after (steps.map fun step => (step.1, step.2.1)) readable_lineless clean
    have cleanOther :=
      Session.clean_after (steps.map fun step => (step.1, step.2.2)) readable_lineless cleanOther
    have unlined : here.2.unlined = there.2.unlined :=
      (Session.eval_unlined depth alike clean cleanOther same).2
    have stores := congrArg Session.store unlined
    refine ⟨Session.alike_eval depth alike clean cleanOther same, ?_, ?_, unlined⟩
    · rw [← here.2.store.output_mapLines, ← there.2.store.output_mapLines]
      exact congrArg Store.output stores
    · intro scope
      rw [← Store.display_mapLines (Session.clean_eval readable_lineless clean).1,
        ← Store.display_mapLines (Session.clean_eval readable_lineless cleanOther).1]
      exact congrArg (Store.display · scope) stores

/-- A function whose body stands on another line, and a call that finds an error there. -/
theorem layout_is_unobservable_call :
    SameTokens "let f = fn() \x7b -true \x7d" "let f=fn()\n\x7b-true\x7d" ∧
      SameTokens "f()" "f( )// call" ∧
      ((Session.new.after [(1, "let f = fn() \x7b -true \x7d")]).eval 1 "f()").1.Alike
        ((Session.new.after [(1, "let f=fn()\n\x7b-true\x7d")]).eval 1 "f( )// call").1 := by
  have bound : SameTokens "let f = fn() \x7b -true \x7d" "let f=fn()\n\x7b-true\x7d" :=
    ⟨⟨1, by cbv⟩, ⟨2, by cbv⟩, by cbv⟩
  have called : SameTokens "f()" "f( )// call" := ⟨⟨1, by cbv⟩, ⟨1, by cbv⟩, by cbv⟩
  have steps : ∀ step ∈ [(1, "let f = fn() \x7b -true \x7d", "let f=fn()\n\x7b-true\x7d")],
      SameTokens step.2.1 step.2.2 := by
    intro step member
    rw [List.mem_singleton.mp member]
    exact bound
  exact ⟨bound, called, ((layout_is_unobservable .new .new rfl Session.clean_new Session.clean_new).2
    _ 1 _ _ steps called).1⟩

end Treewalk
