import Treewalk.Proofs.Reader.Completeness
import Treewalk.Proofs.Reader.Soundness
import Treewalk.Proofs.Tree.Lines
import Treewalk.Proofs.Tree.Subtree

/-!
# The reader reads exactly the grammar

`Spells.read` and `Phase.demands_of_feedAll` together: a source is read if and only if its tokens spell
a program, and the tree that is read is the one that the grammar gives them.
-/

namespace Treewalk

theorem Phase.finish_eq_ok_iff {phase : Phase} {line : Int} {program : Node} :
    phase.finish line = .ok program ↔ phase.feed (.eof line) = .ok (.done program) := by
  unfold finish
  split
  · rename_i read fed
    rw [fed, Except.ok.injEq, Except.ok.injEq, Phase.done.injEq]
  · rename_i after other fed
    rw [fed]
    refine ⟨nofun, fun same => ?_⟩
    cases same
    exact absurd rfl (other program)
  · rename_i e fed
    rw [fed]
    exact ⟨nofun, nofun⟩

/-- A stream is read if the end of input completes a program. -/
theorem TokenStream.parse_eq_ok_iff {stream : TokenStream} {program : Node} :
    stream.parse = .ok program ↔ ∃ line, stream.ending = .eof line ∧
      Phase.start.feedAll (stream.tokens ++ [.eof line]) = .ok (.done program) := by
  have appended (line : Int) : Phase.start.feedAll (stream.tokens ++ [Token.eof line]) =
      (Phase.start.feedAll stream.tokens).bind fun phase => phase.feed (.eof line) := by
    simp only [Phase.feedAll, List.foldlM_append, List.foldlM_cons, List.foldlM_nil, bind_pure]
    rfl
  simp only [appended]
  unfold parse
  cases Phase.start.feedAll stream.tokens with
  | error e => exact ⟨nofun, fun ⟨_, _, fed⟩ => nomatch fed⟩
  | ok phase =>
      cases stream.ending with
      | fault line fault => exact ⟨nofun, fun ⟨_, ending, _⟩ => nomatch ending⟩
      | eof line =>
          simp only [Ending.eof.injEq, exists_eq_left']
          exact Phase.finish_eq_ok_iff

/-- What is read from a source is spelled by its tokens. -/
theorem spellsProgram_of_parse {source : String} {program : Node}
    (read : parse source = .ok program) :
    ∃ line, (TokenStream.ofSource source).ending = .eof line ∧
      SpellsProgram line (TokenStream.ofSource source).tokens program := by
  have lexical := TokenStream.lexical_ofSource source
  obtain ⟨line, ending, fed⟩ := TokenStream.parse_eq_ok_iff.mp read
  exact ⟨line, ending, spellsProgram_of_feedAll (fun t member => (lexical t member).1)
    (fun t member => (lexical t member).2) fed⟩

/-- A source is read as a program if and only if its tokens spell that program. No number token is
left without a value, so the grammar refuses none. -/
theorem parse_eq_ok_iff_spellsProgram (source : String) :
    (∀ program, parse source = .ok program ↔
      ∃ line, (TokenStream.ofSource source).ending = .eof line ∧
        SpellsProgram line (TokenStream.ofSource source).tokens program) ∧
    ∀ t ∈ (TokenStream.ofSource source).tokens, t.kind = .number →
      (Number.ofText? t.text).isSome := by
  constructor
  · intro program
    refine ⟨spellsProgram_of_parse, ?_⟩
    rintro ⟨line, ending, spells⟩
    exact TokenStream.parse_eq_ok_iff.mpr ⟨line, ending, feedAll_of_spellsProgram spells⟩
  · intro t member kind
    have sound := (TokenStream.lexical_ofSource source t member).1
    rw [Token.Lexical, kind] at sound
    exact sound

/-! ## Only the root is a program -/

/-- A tree that is no program. -/
def Node.Inner : Node → Prop
  | .program .. => False
  | _ => True

/-- A tree that the grammar has a rule for, apart from the program itself. A number is what its literal
spells. -/
def Node.Spelled : Node → Prop
  | .missing | .bare _ | .program .. => False
  | .number _ value literal => Number.ofText? literal = some value
  | _ => True

theorem Node.Spelled.inner {node : Node} (spelled : node.Spelled) : node.Inner := by
  cases node <;> trivial

/-- The trees that a phrase stands for. -/
def Phrase.nodes : Phrase → List Node
  | .expr _ node | .conditional node | .block node | .statement node => [node]
  | .statements nodes | .items nodes => nodes
  | .entries pairs => pairs.flatMap fun entry => [entry.1, entry.2]
  | .parameters _ => []

/-- A phrase has trees of the grammar in it only, and no program. -/
theorem Spells.spelled {phrase : Phrase} {ts : List Token} (spells : Spells phrase ts) :
    ∀ node ∈ phrase.nodes, node.Every Node.Spelled := by
  have single {node : Node} (spelled : node.Spelled)
      (below : ∀ child ∈ node.children, child.Every Node.Spelled) :
      ∀ other ∈ [node], other.Every Node.Spelled := by
    intro other member
    rw [List.mem_singleton.mp member]
    exact .intro spelled below
  have pair {a b : Node} (first : ∀ node ∈ [a], node.Every Node.Spelled)
      (second : ∀ node ∈ [b], node.Every Node.Spelled) : ∀ node ∈ [a, b], node.Every Node.Spelled :=
    List.forall_mem_append.mpr ⟨first, second⟩
  induction spells with
  | noStatements | noItems | noEntries | noParameters | lastParameter | parameter =>
      intro node member
      cases member
  | semicolon _ _ ih | weaker _ ih | lastItem _ ih | conditional _ ih => exact ih
  | group _ _ _ ih => exact ih
  | statement _ _ _ ih ihRest => exact List.forall_mem_append.mpr ⟨ih, ihRest⟩
  | item _ _ _ ih ihRest => exact List.forall_mem_append.mpr ⟨ih, ihRest⟩
  | bareResult _ _ _ ih =>
      exact List.forall_mem_cons.mpr ⟨.intro trivial (by simp [Node.children]), ih⟩
  | binding _ _ _ _ ih | result _ _ ih | expression _ ih | unary _ _ _ ih => exact single trivial ih
  | array _ _ _ ih | hash _ _ _ ih | block _ _ _ ih => exact single trivial ih
  | number _ read => exact single read (by simp [Node.children])
  | text | identifier | yes | no => exact single trivial (by simp [Node.children])
  | function _ _ _ _ _ _ ih => exact single trivial ih
  | binary _ _ _ _ ihLeft ihRight =>
      unfold Node.joined
      split
      · exact single trivial (pair ihLeft ihRight)
      · exact single trivial (pair ihLeft ihRight)
  | call _ _ _ _ ihCallee ih => exact single trivial (List.forall_mem_append.mpr ⟨ihCallee, ih⟩)
  | index _ _ _ _ ihSubject ih => exact single trivial (pair ihSubject ih)
  | ifThen _ _ _ ihCondition ih => exact single trivial (pair ihCondition ih)
  | ifElse _ _ _ _ _ ihCondition ihConsequence ih =>
      exact single trivial (List.forall_mem_append.mpr ⟨ihCondition, pair ihConsequence ih⟩)
  | elseIf _ _ _ _ _ ihCondition ihConsequence ih =>
      refine single trivial (List.forall_mem_append.mpr ⟨ihCondition, pair ihConsequence ?_⟩)
      exact single trivial (single trivial ih)
  | lastEntry _ _ _ ihKey ih => exact pair ihKey ih
  | entry _ _ _ _ _ ihKey ih ihRest => exact List.forall_mem_append.mpr ⟨pair ihKey ih, ihRest⟩

/-- What is read from a source is a program, and has no program further down. -/
theorem exists_program_of_parse {source : String} {program : Node}
    (read : parse source = .ok program) : ∃ line statements,
      program = .program line statements ∧ ∀ node ∈ statements, node.Every Node.Inner := by
  obtain ⟨_, -, statements, rfl, spells⟩ := spellsProgram_of_parse read
  exact ⟨_, statements, rfl, fun node member => (spells.spelled node member).mono fun _ => (·.inner)⟩

/-- What holds at every place of the statements of any source. -/
def Readable (fact : Node → Prop) : Prop :=
  ∀ source line statements, parse source = .ok (.program line statements) →
    ∀ node ∈ statements, node.Every fact

/-- What holds of the trees of the grammar holds at every place that was read. -/
theorem readable_of_spelled {fact : Node → Prop} (each : ∀ node : Node, node.Spelled → fact node) :
    Readable fact := by
  intro source line statements read node member
  obtain ⟨_, -, _, same, spells⟩ := spellsProgram_of_parse read
  cases same
  exact (spells.spelled node member).mono each

theorem readable_inner : Readable Node.Inner := readable_of_spelled fun _ => (·.inner)

theorem Node.Spelled.lineless {node : Node} (spelled : node.Spelled) : node.Lineless := by
  cases node <;> trivial

theorem readable_lineless : Readable Node.Lineless := readable_of_spelled fun _ => (·.lineless)

/-- A program that was read has no line in its text. -/
theorem every_lineless_of_parse {source : String} {program : Node} (read : parse source = .ok program) :
    program.Every Node.Lineless := by
  obtain ⟨line, statements, rfl, -⟩ := exists_program_of_parse read
  exact .intro trivial (readable_lineless source line statements read)

end Treewalk
