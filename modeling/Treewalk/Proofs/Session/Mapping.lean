import Treewalk.Proofs.Eval.Quiet
import Treewalk.Proofs.Eval.Signals
import Treewalk.Proofs.Reader.Joined
import Treewalk.Proofs.Session.Joined
import Treewalk.Proofs.Value.Arrays

/-!
# A program that maps

`map` is defined in the language itself, by an inner function `iter` that calls itself with the items that
are left and the values that are done. That it is right is proved through the evaluator: `gives_iter` goes by
induction over the items, with one call of `iter` for each of them, and holds for every function whose calls
are quiet. What the names mean in the scope of a call is said once, by `Sees`, and it stays so because all
these calls are quiet.
-/

namespace Treewalk

/-! ## Reading the programs -/

namespace Mapping

/-- The lines of the definition of `map`. -/
def lines : List String :=
  ["\n",
   "let map = fn(arr, f) \x7b\n",
   "  let iter = fn(arr, acc) \x7b\n",
   "    if (len(arr) == 0) \x7b acc \x7d else \x7b iter(rest(arr), push(acc, f(first(arr)))) \x7d\n",
   "  \x7d;\n",
   "  iter(arr, [])\n",
   "\x7d;\n"]

def source : String := String.join lines

/-- A function that doubles a number. -/
def doubleSource : String := "fn(x) \x7b x * 2 \x7d"

/-- The body of the function `iter` that `map` defines. -/
def iterBody : Node :=
  .block 3 [.expression 4 (.conditional 4
    (.binary 4 (.call 4 (.identifier 4 "len") [.identifier 4 "arr"]) "==" (.number 4 (.ofNat 0) "0"))
    (.block 4 [.expression 4 (.identifier 4 "acc")])
    (some (.block 4 [.expression 4 (.call 4 (.identifier 4 "iter")
      [.call 4 (.identifier 4 "rest") [.identifier 4 "arr"],
        .call 4 (.identifier 4 "push") [.identifier 4 "acc",
          .call 4 (.identifier 4 "f") [.call 4 (.identifier 4 "first") [.identifier 4 "arr"]]]])])))]

/-- The body of `map`. -/
def body : Node :=
  .block 2 [.binding 3 ⟨3, "iter"⟩ (.function 3 [⟨3, "arr"⟩, ⟨3, "acc"⟩] iterBody),
    .expression 6 (.call 6 (.identifier 6 "iter") [.identifier 6 "arr", .array 6 []])]

/-- The body of the function that doubles. -/
def doubleBody : Node :=
  .block 1 [.expression 1 (.binary 1 (.identifier 1 "x") "*" (.number 1 (.ofNat 2) "2"))]

def keyword (line : Int) (text : String) : Token := ⟨.keyword, text, line⟩

def name (line : Int) (text : String) : Token := ⟨.name, text, line⟩

def mark (line : Int) (text : String) : Token := ⟨.operator, text, line⟩

theorem ofChars_lines : TokenStream.ofChars 1 (lines.flatMap String.toList) =
    ⟨[keyword 2 "let", name 2 "map", mark 2 "=", keyword 2 "fn", mark 2 "(", name 2 "arr", mark 2 ",",
        name 2 "f", mark 2 ")", mark 2 "\x7b", keyword 3 "let", name 3 "iter", mark 3 "=", keyword 3 "fn",
        mark 3 "(", name 3 "arr", mark 3 ",", name 3 "acc", mark 3 ")", mark 3 "\x7b", keyword 4 "if",
        mark 4 "(", name 4 "len", mark 4 "(", name 4 "arr", mark 4 ")", mark 4 "=="] ++
      ⟨.number, "0", 4⟩ ::
      [mark 4 ")", mark 4 "\x7b", name 4 "acc", mark 4 "\x7d", keyword 4 "else", mark 4 "\x7b",
        name 4 "iter", mark 4 "(", name 4 "rest", mark 4 "(", name 4 "arr", mark 4 ")", mark 4 ",",
        name 4 "push", mark 4 "(", name 4 "acc", mark 4 ",", name 4 "f", mark 4 "(", name 4 "first",
        mark 4 "(", name 4 "arr", mark 4 ")", mark 4 ")", mark 4 ")", mark 4 ")", mark 4 "\x7d",
        mark 5 "\x7d", mark 5 ";", name 6 "iter", mark 6 "(", name 6 "arr", mark 6 ",", mark 6 "[",
        mark 6 "]", mark 6 ")", mark 7 "\x7d", mark 7 ";"], .eof 8⟩ := by
  decide +kernel

theorem parse_source : parse source =
    .ok (.program 2 [.binding 2 ⟨2, "map"⟩ (.function 2 [⟨2, "arr"⟩, ⟨2, "f"⟩] body)]) := by
  have chars : source.toList = lines.flatMap String.toList := String.toList_join
  have lexed := (TokenStream.ofSource_eq_ofChars source).trans
    ((congrArg (TokenStream.ofChars 1) chars).trans ofChars_lines)
  exact parse_of_numeral lexed rfl rfl (by decide +kernel) rfl

theorem lexed_doubleSource : TokenStream.ofSource doubleSource =
    ⟨[keyword 1 "fn", mark 1 "(", name 1 "x", mark 1 ")", mark 1 "\x7b", name 1 "x", mark 1 "*"] ++
      ⟨.number, "2", 1⟩ :: [mark 1 "\x7d"], .eof 1⟩ := by
  decide +kernel

theorem parse_doubleSource :
    parse doubleSource = .ok (.program 1 [.expression 1 (.function 1 [⟨1, "x"⟩] doubleBody)]) :=
  parse_of_numeral lexed_doubleSource rfl rfl (by decide +kernel) rfl

/-! ## Running them -/

open Eval

/-- The function `iter` that a call of `map` makes in its scope. -/
def iter (id scope : Nat) : Value := .function id [⟨3, "arr"⟩, ⟨3, "acc"⟩] iterBody scope

/-- What the names mean that `iter` uses, seen from the scope of a call of `map`. -/
structure Sees (store : Store) (scope id : Nat) (f : Value) : Prop where
  inside : scope < store.scopes.size
  iter : store.lookup scope "iter" = some (iter id scope)
  f : store.lookup scope "f" = some f
  builtins : ∀ name ∈ ["len", "first", "rest", "push"], store.lookup scope name = none

theorem Sees.later {store after : Store} {scope id : Nat} {f : Value} (sees : Sees store scope id f)
    (quiet : store.Quiet after) : Sees after scope id f where
  inside := sees.inside.trans_le quiet.untouched.size
  iter := (quiet.lookup_eq sees.inside _).trans sees.iter
  f := (quiet.lookup_eq sees.inside _).trans sees.f
  builtins name member := (quiet.lookup_eq sees.inside name).trans (sees.builtins name member)

/-- Calls with an item quietly give an ordinary value that the item is related to, if so many levels of
calls are left. -/
def Maps (f : Value) (levels : Nat) (related : Value → Value → Prop) (item : Value) : Prop :=
  item.isSignal = false ∧ ∀ base line depth, levels ≤ depth →
    Gives base (apply depth f [item] line) fun value => value.isSignal = false ∧ related item value

/-- The condition of `iter` is whether there are no items left. -/
theorem gives_condition {base : Store} {scope depth id : Nat} {items : List Value} {good : Value → Prop}
    (inside : scope < base.scopes.size) (len : base.lookup scope "len" = none)
    (arr : base.lookup scope "arr" = some (.array id items)) (short : items.length < 2 ^ 53)
    (holds : good (.boolean items.isEmpty)) :
    Gives base ((Node.binary 4 (.call 4 (.identifier 4 "len") [.identifier 4 "arr"]) "=="
      (.number 4 (.ofNat 0) "0")).eval (apply depth) scope) good := by
  have empty : (Number.ofNat items.length).eq (.ofNat 0) = items.isEmpty := by
    have zero := Number.isInt_ofNat (Nat.zero_le (2 ^ 53))
    rw [Bool.eq_iff_iff, (Number.isInt_ofNat (Nat.le_of_lt short)).eq_iff zero, List.isEmpty_iff,
      ← List.length_eq_zero_iff]
    exact Int.natCast_inj
  refine gives_binary 4 (gives_call 4 (gives_builtin 4 inside len rfl ⟨rfl, ?_⟩))
  refine givesEach_cons (gives_name 4 inside arr ⟨rfl, givesEach_nil ?_⟩)
  refine gives_apply_builtin depth 4 rfl fun _ => ⟨_, Builtin.apply_len _ _ _, rfl, ?_⟩
  refine gives_number 4 "0" ⟨rfl, fun _ => ⟨_, Operator.binary_equals _ _, ?_⟩⟩
  rw [empty]
  exact holds

/-- The scope of a call of `iter` sees its arguments, and otherwise what the scope of `map` sees. -/
theorem lookup_entered (store : Store) (scope : Nat) (arr acc : Value) (name : String) :
    (store.entered scope [⟨3, "arr"⟩, ⟨3, "acc"⟩] [arr, acc]).lookup store.scopes.size name =
      if name = "acc" then some acc else if name = "arr" then some arr else store.lookup scope name := by
  rw [Store.lookup_entered]
  by_cases isAcc : name = "acc"
  · subst isAcc
    rfl
  · by_cases isArr : name = "arr"
    · subst isArr
      rfl
    · simp [argumentOf, isAcc, isArr, Ne.symm isAcc, Ne.symm isArr]

section Body

variable {store : Store} {scope id depth i j : Nat} {f item : Value} {items acc : List Value}
  {good : Value → Prop}

/-- Without items the body of `iter` gives `acc`. -/
theorem gives_iterBody_nil (sees : Sees store scope id f) (holds : good (.array j acc)) :
    Gives (store.entered scope [⟨3, "arr"⟩, ⟨3, "acc"⟩] [.array i [], .array j acc])
      (iterBody.eval (apply depth) store.scopes.size) good := by
  have inside := store.lt_size_entered scope [⟨3, "arr"⟩, ⟨3, "acc"⟩] [.array i [], .array j acc]
  have len := (lookup_entered store scope (.array i []) (.array j acc) "len").trans
    (sees.builtins "len" (by decide))
  have accIs := lookup_entered store scope (.array i []) (.array j acc) "acc"
  have arrIs := lookup_entered store scope (.array i []) (.array j acc) "arr"
  refine gives_block 3 4 (gives_conditional 4 (gives_condition inside len arrIs (by decide) ⟨rfl, ?_⟩))
  exact gives_block 4 4 (gives_name 4 inside accIs holds)

/-- With an item it calls `iter` with the items behind it and with what `f` gives for it behind `acc`. -/
theorem gives_iterBody_cons (sees : Sees store scope id f) (short : (item :: items).length < 2 ^ 53)
    (ordinary : f.isSignal = false) (itemOrdinary : item.isSignal = false)
    (calls : ∀ base, Gives base (apply depth f [item] 4) fun value => value.isSignal = false ∧
      ∀ later rest made, store.Quiet later →
        Gives later (apply depth (iter id scope) [.array rest items, .array made (acc ++ [value])] 4) good) :
    Gives (store.entered scope [⟨3, "arr"⟩, ⟨3, "acc"⟩] [.array i (item :: items), .array j acc])
      (iterBody.eval (apply depth) store.scopes.size) good := by
  have inside := store.lt_size_entered scope [⟨3, "arr"⟩, ⟨3, "acc"⟩]
    [.array i (item :: items), .array j acc]
  have seen := lookup_entered store scope (.array i (item :: items)) (.array j acc)
  have len := (seen "len").trans (sees.builtins "len" (by decide))
  have first := (seen "first").trans (sees.builtins "first" (by decide))
  have rest := (seen "rest").trans (sees.builtins "rest" (by decide))
  have push := (seen "push").trans (sees.builtins "push" (by decide))
  have iterIs := (seen "iter").trans sees.iter
  have fIs := (seen "f").trans sees.f
  have quiet : store.Quiet _ := .entered scope [⟨3, "arr"⟩, ⟨3, "acc"⟩]
    [.array i (item :: items), .array j acc]
  refine gives_block 3 4 (gives_conditional 4 (gives_condition inside len (seen "arr") short ⟨rfl, ?_⟩))
  refine gives_block 4 4 (gives_call 4 (gives_name 4 inside iterIs ⟨rfl, ?_⟩))
  -- The first argument: the items behind the first.
  refine givesEach_cons (gives_call 4 (gives_builtin 4 inside rest rfl ⟨rfl, ?_⟩))
  refine givesEach_cons (gives_name 4 inside (seen "arr") ⟨rfl, givesEach_nil ?_⟩)
  refine gives_apply_builtin depth 4 rfl fun restId => ⟨_, Builtin.apply_rest _ _ _ _, rfl, ?_⟩
  -- The second: what `f` gives for the first item, behind those that are there.
  refine givesEach_cons (gives_call 4 (gives_builtin 4 inside push rfl ⟨rfl, ?_⟩))
  refine givesEach_cons (gives_name 4 inside (seen "acc") ⟨rfl, ?_⟩)
  refine givesEach_cons (gives_call 4 (gives_name 4 inside fIs ⟨ordinary, ?_⟩))
  refine givesEach_cons (gives_call 4 (gives_builtin 4 inside first rfl ⟨rfl, ?_⟩))
  refine givesEach_cons (gives_name 4 inside (seen "arr") ⟨rfl, givesEach_nil ?_⟩)
  refine gives_apply_builtin depth 4 rfl fun _ => ⟨_, Builtin.apply_first _ _ _, itemOrdinary, ?_⟩
  refine givesEach_nil ((calls _).imp fun value given => ⟨given.1, givesEach_nil ?_⟩)
  refine gives_apply_builtin depth 4 rfl fun made => ⟨_, Builtin.apply_push _ _ _ _, rfl, ?_⟩
  exact givesEach_nil (given.2 _ restId made quiet)

end Body

/-- A call of `iter` adds to `acc` what `f` gives for the items of `arr`, one after the other. The induction
is on the items: each of them takes one more call of `iter`. -/
theorem gives_iter {scope id levels : Nat} {f : Value} {related : Value → Value → Prop}
    (ordinary : f.isSignal = false) (positive : 0 < levels) {items : List Value}
    (short : items.length < 2 ^ 53) (maps : ∀ item ∈ items, Maps f levels related item) :
    ∀ (base : Store) (depth : Nat) (line : Int) (i j : Nat) (acc : List Value), Sees base scope id f →
      items.length + levels ≤ depth →
      Gives base (apply depth (iter id scope) [.array i items, .array j acc] line) fun value =>
        ∃ made results, value = .array made (acc ++ results) ∧ List.Forall₂ related items results := by
  induction items with
  | nil =>
      intro base depth line i j acc sees enough
      obtain ⟨depth, rfl⟩ := Nat.exists_eq_succ_of_ne_zero (by omega : depth ≠ 0)
      refine gives_apply line rfl fun store quiet => gives_iterBody_nil (sees.later quiet) ?_
      exact ⟨j, [], by rw [List.append_nil]; rfl, .nil⟩
  | cons item items ih =>
      intro base depth line i j acc sees enough
      obtain ⟨depth, rfl⟩ := Nat.exists_eq_succ_of_ne_zero (by omega : depth ≠ 0)
      rw [List.length_cons] at enough
      obtain ⟨itemOrdinary, calls⟩ := maps item List.mem_cons_self
      have fewer : items.length < 2 ^ 53 := Nat.lt_of_succ_lt short
      have others : ∀ item ∈ items, Maps f levels related item :=
        fun other member => maps other (List.mem_cons_of_mem item member)
      refine gives_apply line rfl fun store quiet => ?_
      refine gives_iterBody_cons (sees.later quiet) short ordinary itemOrdinary fun within => ?_
      refine (calls within 4 depth (by omega)).imp fun value given => ⟨given.1, ?_⟩
      intro later rest made reached
      have deeper := ih fewer others later depth 4 rest made (acc ++ [value])
        ((sees.later quiet).later reached) (by omega)
      refine deeper.imp ?_
      rintro _ ⟨made, results, rfl, all⟩
      exact ⟨made, value :: results, by rw [List.append_assoc]; rfl, .cons given.2 all⟩

/-- The function `map`, made in a scope. -/
def map (id home : Nat) : Value := .function id [⟨2, "arr"⟩, ⟨2, "f"⟩] body home

/-- The store in which the body of `map` has bound `iter`. -/
def bound (store : Store) (scope : Nat) : Store :=
  { store.bind scope "iter" (iter store.nextId scope) with
    nextId := store.nextId + 1
    log := .bound scope "iter" (iter store.nextId scope) :: store.log }

/-- The body of `map` binds `iter` and calls it with all items and an empty array. -/
theorem ends_body {call : Call} {scope : Nat} {store : Store} {done : Value → Store → Prop}
    {cut : Store → Prop}
    (ends : ((Node.call 6 (.identifier 6 "iter") [.identifier 6 "arr", .array 6 []]).eval call scope).Ends
      (bound store scope) done cut) : (body.eval call scope).Ends store done cut := by
  have last : (evalStatements call scope .null [.expression 6 _]).Ends (bound store scope) done cut :=
    ends_last_expression.mpr ends
  rw [body, Node.eval, evalStatements, ends_bind]
  exact last

theorem quiet_bound {base store : Store} {scope : Nat} (quiet : base.Quiet store)
    (new : base.scopes.size ≤ scope) : base.Quiet (bound store scope) :=
  (quiet.bind new "iter" (iter store.nextId scope)).renumber _

/-- The scope of a call of `map` sees what `iter` needs. -/
theorem sees_bound {store : Store} {home : Nat} (arr f : Value)
    (unbound : ∀ name ∈ ["len", "first", "rest", "push"], store.lookup home name = none) :
    let entered := store.entered home [⟨2, "arr"⟩, ⟨2, "f"⟩] [arr, f]
    Sees (bound entered store.scopes.size) store.scopes.size entered.nextId f ∧
      (bound entered store.scopes.size).lookup store.scopes.size "arr" = some arr := by
  intro entered
  have inside : store.scopes.size < entered.scopes.size := store.lt_size_entered home _ _
  have seen (name : String) : (bound entered store.scopes.size).lookup store.scopes.size name =
      if name = "iter" then some (iter entered.nextId store.scopes.size)
      else (argumentOf [⟨2, "arr"⟩, ⟨2, "f"⟩] [arr, f] name).or (store.lookup home name) := by
    rw [← Store.lookup_entered, ← Store.lookup_bind_self inside]
    have same : (entered.bind store.scopes.size "iter" (iter entered.nextId store.scopes.size)).Untouched
        (bound entered store.scopes.size) := .of_scopes_eq rfl
    exact same.lookup_eq (by rwa [Store.size_bind]) name
  refine ⟨⟨?_, seen "iter", seen "f", fun name member => ?_⟩, seen "arr"⟩
  · have same : (bound entered store.scopes.size).scopes.size = entered.scopes.size :=
      Store.size_bind _ _ _ _
    rwa [same]
  · have others : ∀ name ∈ ["len", "first", "rest", "push"], name ≠ "iter" ∧ name ≠ "arr" ∧ name ≠ "f" := by
      decide
    obtain ⟨notIter, notArr, notF⟩ := others name member
    rw [seen, if_neg notIter, unbound name member]
    simp [argumentOf, Ne.symm notArr, Ne.symm notF]

/-- A call of `map` gives an array of what `f` gives for the items, one after the other. -/
theorem gives_map {base : Store} {home i levels depth : Nat} {f : Value} {related : Value → Value → Prop}
    {items : List Value} (id : Nat) (line : Int) (inside : home < base.scopes.size)
    (unbound : ∀ name ∈ ["len", "first", "rest", "push"], base.lookup home name = none)
    (ordinary : f.isSignal = false) (positive : 0 < levels) (short : items.length < 2 ^ 53)
    (maps : ∀ item ∈ items, Maps f levels related item) (enough : items.length + levels < depth) :
    Gives base (apply depth (map id home) [.array i items, f] line) fun value =>
      ∃ made results, value = .array made results ∧ List.Forall₂ related items results := by
  obtain ⟨depth, rfl⟩ := Nat.exists_eq_succ_of_ne_zero (Nat.ne_zero_of_lt enough)
  refine gives_apply_of_body line rfl fun store quiet => ends_body ?_
  have unboundHere : ∀ name ∈ ["len", "first", "rest", "push"], store.lookup home name = none :=
    fun name member => (quiet.lookup_eq inside name).trans (unbound name member)
  obtain ⟨sees, arr⟩ := sees_bound (.array i items) f unboundHere
  have call : Gives (bound (store.entered home [⟨2, "arr"⟩, ⟨2, "f"⟩] [.array i items, f]) store.scopes.size)
      ((Node.call 6 (.identifier 6 "iter") [.identifier 6 "arr", .array 6 []]).eval (apply depth)
        store.scopes.size)
      fun value => ∃ made results, value = .array made results ∧ List.Forall₂ related items results := by
    refine gives_call 6 (gives_name 6 sees.inside sees.iter ⟨rfl, ?_⟩)
    refine givesEach_cons (gives_name 6 sees.inside arr ⟨rfl, ?_⟩)
    refine givesEach_cons (gives_array 6 (givesEach_nil fun j => ⟨rfl, givesEach_nil ?_⟩))
    exact gives_iter ordinary positive short maps _ depth 6 i j [] sees (Nat.le_of_lt_succ enough)
  refine (call _ (.refl _)).imp ?_ fun _ none => none
  rintro _ after ⟨reached, made, results, rfl, all⟩
  refine ⟨?_, made, results, rfl, all⟩
  exact (quiet_bound (quiet.trans (.entered home _ _)) quiet.untouched.size).trans reached

/-! ## Doubling -/

/-- The function that doubles, made in a scope. -/
def double (id home : Nat) : Value := .function id [⟨1, "x"⟩] doubleBody home

/-- A value is twice another, and both are numbers. -/
def Doubled (item value : Value) : Prop :=
  ∃ (x : Number) (payload : Nat), item = .number x ∧ value = .number (x.mul payload (.ofNat 2))

theorem maps_double (id home : Nat) (x : Number) : Maps (double id home) 1 Doubled (.number x) := by
  refine ⟨rfl, fun base line depth enough => ?_⟩
  obtain ⟨depth, rfl⟩ := Nat.exists_eq_succ_of_ne_zero (Nat.ne_zero_of_lt enough)
  refine gives_apply line rfl fun store quiet => ?_
  have inside := store.lt_size_entered home [⟨1, "x"⟩] [.number x]
  have argument : (store.entered home [⟨1, "x"⟩] [.number x]).lookup store.scopes.size "x" =
      some (.number x) := Store.lookup_entered home [⟨1, "x"⟩] [.number x] "x"
  refine gives_block 1 1 (gives_binary 1 (gives_name 1 inside argument ⟨rfl, ?_⟩))
  exact gives_number 1 "2" ⟨rfl, fun payload => ⟨_, rfl, rfl, x, payload, rfl, rfl⟩⟩

/-- The store in which `map` was defined. -/
def defined : Store where
  scopes := #[⟨none, [("map", map 1 0)]⟩]
  nextId := 2
  log := [.bound 0 "map" (map 1 0)]

theorem eval_source (depth : Nat) : Session.new.eval depth source = (.value .null, ⟨0, defined⟩) := by
  rw [Session.eval_program parse_source]
  rfl

/-- The store in which the function that doubles was made, too. -/
def made : Store := { defined with nextId := 3, log := [] }

theorem eval_doubleSource (depth : Nat) :
    Session.eval ⟨0, defined⟩ depth doubleSource = (.value (double 2 0), ⟨0, made⟩) := by
  rw [Session.eval_program parse_doubleSource]
  rfl

theorem lookup_defined (name : String) :
    defined.lookup 0 name = if name = "map" then some (map 1 0) else none := by
  have chain : defined.chain 0 = [0] := by
    rw [Store.chain.eq_def]
    rfl
  rw [Store.lookup, chain, List.findSome?_cons, List.findSome?_nil]
  by_cases same : name = "map"
  · subst same
    rfl
  · have other : (name == "map") = false := by simpa using same
    simp [defined, Store.bindings, Bindings.find?, List.lookup, other, same]

/-- The names of built-in functions mean nothing else there. -/
theorem unbound_made : ∀ name ∈ ["len", "first", "rest", "push"], made.lookup 0 name = none := by
  have others : ∀ name ∈ ["len", "first", "rest", "push"], name ≠ "map" := by decide
  intro name member
  have same : defined.Untouched made := .of_scopes_eq rfl
  rw [same.lookup_eq (by decide), lookup_defined, if_neg (others name member)]

end Mapping

open Mapping in
/-- The recursive `map` is right for every array of numbers. With enough levels of calls, `map` is defined in
a new session and a function that doubles is made there, and a call of `map` with an array of numbers and
that function gives an array of as many items, each of them twice the number in its place; nothing is
printed, and the root scope binds `map` and nothing else. -/
theorem map_doubles_every_number (xs : List Number) (short : xs.length < 2 ^ 53) :
    ∃ limit, ∀ depth ≥ limit, ∀ (id : Nat) (line : Int),
      ∃ (first second third : Session) (value map double : Value) (made : Nat) (results : List Value),
        Session.new.eval depth source = (.value value, first) ∧
        first.store.lookup Session.new.root "map" = some map ∧
        first.eval depth doubleSource = (.value double, second) ∧
        second.run (apply depth map [.array id (xs.map .number), double] line) =
          (.value (.array made results), third) ∧
        results.length = xs.length ∧
        (∀ (i : Nat) (inside : i < xs.length), ∃ payload,
          results[i]? = some (.number ((xs.get ⟨i, inside⟩).mul payload (.ofNat 2)))) ∧
        first.store.output = "" ∧ second.store.output = "" ∧ third.store.output = "" ∧
        third.store.bindings Session.new.root = [("map", map)] := by
  refine ⟨xs.length + 2, fun depth enough id line => ?_⟩
  have maps : ∀ item ∈ xs.map Value.number, Maps (double 2 0) 1 Doubled item := by
    intro item member
    obtain ⟨x, -, rfl⟩ := List.mem_map.mp member
    exact maps_double 2 0 x
  have gives : Eval.Gives made (apply depth (map 1 0) [.array id (xs.map .number), double 2 0] line)
      fun value => ∃ made results, value = .array made results ∧
        List.Forall₂ Doubled (xs.map .number) results := by
    refine gives_map 1 line (by decide) unbound_made rfl Nat.one_pos ?_ maps ?_
    · rwa [List.length_map]
    · rw [List.length_map]
      omega
  obtain ⟨value, ended, quiet, id, results, rfl, all⟩ | ⟨-, none⟩ :=
    @Session.run_ends ⟨0, made⟩ _ _ _ (gives made (.refl made))
  · have length : results.length = xs.length := by rw [← all.length_eq, List.length_map]
    refine ⟨_, _, _, _, _, _, id, results, eval_source depth, lookup_defined "map", eval_doubleSource depth,
      Prod.ext ended rfl, length, ?_, rfl, rfl, quiet.output, ?_⟩
    · intro i inside
      have insideToo : i < results.length := length.symm ▸ inside
      obtain ⟨x, payload, same, twice⟩ := all.get (by simpa using inside) insideToo
      simp only [List.get_eq_getElem, List.getElem_map, Value.number.injEq] at same twice ⊢
      exact ⟨payload, by rw [same, ← twice, List.getElem?_eq_getElem insideToo]⟩
    · have root := quiet.untouched.scopes 0 (by decide)
      rw [Store.bindings, show Session.new.root = 0 from rfl, root]
      rfl
  · exact none.elim

/-- It is applied to a not-a-number, an infinity and a negative zero. -/
theorem map_doubles_every_number_special :
    let xs := [Number.nan 7, .infinite true, .zero true]
    xs.length < 2 ^ 53 ∧ ∃ limit, ∀ depth ≥ limit, ∃ (first second third : Session) (map double : Value)
      (made : Nat) (results : List Value),
      first.store.lookup Session.new.root "map" = some map ∧
      first.eval depth Mapping.doubleSource = (.value double, second) ∧
      second.run (apply depth map [.array 9 (xs.map .number), double] 1) =
        (.value (.array made results), third) ∧
      (∃ payload, results[0]? = some (.number (.nan payload))) ∧
      ∃ payload, results[2]? = some (.number ((Number.zero true).mul payload (.ofNat 2))) := by
  intro xs
  have short : xs.length < 2 ^ 53 := by decide
  obtain ⟨limit, works⟩ := map_doubles_every_number xs short
  refine ⟨short, limit, fun depth enough => ?_⟩
  obtain ⟨first, second, third, _, map, double, made, results, _, isMap, isDouble, ended, _, items, _⟩ :=
    works depth enough 9 1
  exact ⟨first, second, third, map, double, made, results, isMap, isDouble, ended, items 0 (by decide),
    items 2 (by decide)⟩

end Treewalk
