import Treewalk.Proofs.Reader.Verdict

/-!
# One end of input is as good as another

The reader makes an end of input where a row has none, from the line of the token it took last, and never
takes one: it finds the same end of input again however often it looks. So all it ever learns of a row is
the token it finds after each number of steps (`Token.found`), and that is what stands in front of the
first end of input, and then an end of input on the line where the row ends (`Token.found_eq`). Rows in
which the same tokens are found are read alike, from every phase and with every outcome.
-/

namespace Treewalk

namespace Token

/-- The token that the reader finds in a row after so many steps; `last` is the line of the token that was
taken before. -/
def found (last : Int) (row : List Token) : Nat → Token
  | 0 => ahead last row
  | n + 1 => found (ahead last row).line (behind row) n

/-- At an end of input nothing else is found anymore. -/
theorem found_of_ahead_eof {last line : Int} {row : List Token} (ends : ahead last row = .eof line)
    (stays : behind row = row) (n : Nat) : found last row n = .eof line := by
  induction n generalizing last with
  | zero => exact ends
  | succ n ih =>
      rw [found, ends, stays]
      refine ih ?_
      -- An end of input that was made has the line of the token before it, and that is its own line now.
      cases row with
      | nil => rfl
      | cons t rest =>
          by_cases stop : t.kind = .eof
          · simpa [ahead, stop] using ends
          · simp [behind, stop] at stays

/-- The tokens in front of the first end of input are found, one after the other, and from then on an end
of input on the line where the row ends. -/
theorem found_eq (last : Int) (row : List Token) (n : Nat) :
    found last row n = (row.takeWhile (·.kind ≠ .eof))[n]?.getD (.eof (endLine last row)) := by
  induction row generalizing last n with
  | nil => exact found_of_ahead_eof rfl rfl n
  | cons t rest ih =>
      by_cases ends : t.kind = .eof
      · have stop : ahead last (t :: rest) = .eof t.line := if_pos ends
        rw [found_of_ahead_eof stop (if_pos ends)]
        simp [endLine, ends]
      · have taken : ahead last (t :: rest) = t := if_neg ends
        have left : behind (t :: rest) = rest := if_neg ends
        rw [endLine, if_neg ends, List.takeWhile_cons_of_pos (by simpa using ends)]
        cases n with
        | zero => exact taken
        | succ n =>
            rw [found, taken, left, ih, List.getElem?_cons_succ]

/-- A row ends where the row behind its front ends. -/
theorem endLine_append {front : List Token} (going : ∀ t ∈ front, t.kind ≠ .eof) (last : Int)
    (row : List Token) :
    endLine last (front ++ row) = endLine ((front.getLast?.map Token.line).getD last) row := by
  induction front generalizing last with
  | nil => rfl
  | cons t front ih =>
      have more : ∀ u ∈ front, u.kind ≠ .eof := fun u member => going u (List.mem_cons_of_mem t member)
      rw [List.cons_append, endLine, if_neg (going t List.mem_cons_self), ih more, List.getLast?_cons]
      cases front.getLast? <;> rfl

/-- Only the line on which an end of input stands is told apart, and what is behind it is never found. -/
theorem found_append {front row other : List Token} (going : ∀ t ∈ front, t.kind ≠ .eof)
    (ends : row.takeWhile (·.kind ≠ .eof) = []) (endsToo : other.takeWhile (·.kind ≠ .eof) = [])
    (last : Int)
    (sameLine : endLine ((front.getLast?.map Token.line).getD last) row =
      endLine ((front.getLast?.map Token.line).getD last) other) (n : Nat) :
    found last (front ++ row) n = found last (front ++ other) n := by
  have all : ∀ t ∈ front, decide (t.kind ≠ .eof) = true := fun t member => by simpa using going t member
  rw [found_eq, found_eq, List.takeWhile_append_of_pos all, List.takeWhile_append_of_pos all, ends, endsToo,
    endLine_append going, endLine_append going, sameLine]

end Token

/-- The outcome of reading depends on the tokens that are found, and on nothing else of a row. -/
theorem Reads.of_found {phase : Phase} {last lastToo : Int} {row other : List Token}
    {outcome : Except ReadError Node} (reads : Reads phase last row outcome)
    (same : ∀ n, Token.found lastToo other n = Token.found last row n) :
    Reads phase lastToo other outcome := by
  induction reads generalizing lastToo other with
  | done => exact .done
  | refused fed =>
      have ahead : Token.ahead lastToo other = Token.ahead _ _ := same 0
      exact .refused (ahead ▸ fed)
  | step fed _ ih =>
      have ahead : Token.ahead lastToo other = Token.ahead _ _ := same 0
      exact .step (ahead ▸ fed) (ih fun n => same (n + 1))

/-- Two rows are read alike: the reader finds the same tokens in them however far it goes, it comes to the
same outcomes wherever it stands, and as programs they are the same tree or have the same error. -/
structure ReadAlike (row other : List Token) : Prop where
  found : ∀ n, Token.found 1 row n = Token.found 1 other n
  reads : ∀ phase outcome, Reads phase 1 row outcome ↔ Reads phase 1 other outcome
  parse : (TokenStream.ofTokens row).parse = (TokenStream.ofTokens other).parse

theorem readAlike_of_found {row other : List Token}
    (same : ∀ n, Token.found 1 row n = Token.found 1 other n) : ReadAlike row other := by
  have reads (phase : Phase) (outcome : Except ReadError Node) :
      Reads phase 1 row outcome ↔ Reads phase 1 other outcome :=
    ⟨fun one => one.of_found fun n => (same n).symm, fun two => two.of_found same⟩
  exact ⟨same, reads, reads_iff.mp ((reads _ _).mp (reads_iff.mpr rfl))⟩

/-- The end of input has one meaning. A row without one is read as if an end of input stood behind it, on
the line of its last token or on line 1 if there is none, and what stands behind an end of input is never
read. -/
theorem end_of_input_is_canonical (row : List Token) (going : ∀ t ∈ row, t.kind ≠ .eof) (eof : Token)
    (ends : eof.kind = .eof) :
    (eof.line = (row.getLast?.map Token.line).getD 1 → ReadAlike row (row ++ [eof])) ∧
    ∀ further : List Token, ReadAlike (row ++ eof :: further) (row ++ [eof]) := by
  have stops (further : List Token) : (eof :: further).takeWhile (·.kind ≠ .eof) = [] :=
    List.takeWhile_cons_of_neg (by simpa using ends)
  constructor
  · intro line
    refine readAlike_of_found fun n => ?_
    have same : Token.found 1 (row ++ []) n = Token.found 1 (row ++ [eof]) n :=
      Token.found_append going rfl (stops []) 1 (by simp [Token.endLine, ends, line]) n
    rwa [List.append_nil] at same
  · intro further
    refine readAlike_of_found fun n => ?_
    exact Token.found_append going (stops further) (stops []) 1 (by simp [Token.endLine, ends]) n

/-- `let a =` on two lines is refused on its second line, with an end of input behind it or without, and
whatever stands behind that. -/
theorem end_of_input_is_canonical_unfinished :
    let row : List Token := [⟨.keyword, "let", 1⟩, ⟨.name, "a", 1⟩, ⟨.operator, "=", 2⟩]
    let eof : Token := ⟨.eof, "+", 2⟩
    let further : List Token := [⟨.number, "5", 3⟩, .eof 4]
    ReadAlike row (row ++ [eof]) ∧ ReadAlike (row ++ eof :: further) (row ++ [eof]) ∧
      (TokenStream.ofTokens row).parse = .error (.malformed 2 (.unexpectedToken (.eof 2))) := by
  intro row eof further
  obtain ⟨without, behind⟩ := end_of_input_is_canonical row (by decide) eof rfl
  exact ⟨without rfl, behind further, by rfl⟩

end Treewalk
