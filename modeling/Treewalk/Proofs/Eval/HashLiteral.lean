import Treewalk.Proofs.Value.Equality

/-!
# Hash literals

The entries of a hash literal are put in one after the other. `Entries.LastWins` says what a hash then
holds of them, without saying how it was made: one entry for each class of equal keys, the last that was
put in, in the order in which the classes came up first. Putting one more entry in keeps this
(`Entries.LastWins.insert`), and so does putting in any number.
-/

namespace Treewalk

namespace Entries

variable {put held : Entries} {key probe : Key} {value : Value}

/-! ## What a hash holds -/

/-- The class of `key` comes up before that of `other`: some of the first entries have a key of the one,
and none of the other. -/
def Earlier (put : Entries) (key other : Key) : Prop :=
  ∃ front, front <+: put ∧ (∃ entry ∈ front, entry.1.Equal key) ∧ ∀ entry ∈ front, ¬ entry.1.Equal other

/-- A hash that holds the last entry of each class of keys, in the order in which the classes came up. -/
structure LastWins (put held : Entries) : Prop where
  /-- Every class that was put in is held. -/
  covers : ∀ entry ∈ put, ∃ kept ∈ held, kept.1.Equal entry.1
  /-- Every entry that is held was put in, and none of its class after it. -/
  last : ∀ kept ∈ held, ∃ before after, put = before ++ kept :: after ∧
    ∀ entry ∈ after, ¬ entry.1.Equal kept.1
  /-- No class is held twice. -/
  apart : held.Pairwise fun one other => ¬ one.1.Equal other.1
  /-- The classes are in the order of their first entries. -/
  order : held.Pairwise fun one other => Earlier put one.1 other.1

theorem Earlier.append {other : Key} (earlier : Earlier put key other) (more : Entries) :
    Earlier (put ++ more) key other := by
  obtain ⟨front, starts, here, notYet⟩ := earlier
  exact ⟨front, starts.trans (List.prefix_append put more), here, notYet⟩

/-- Only the classes of the keys matter. -/
theorem Earlier.congr {other key' other' : Key} (earlier : Earlier put key other) (one : key.Equal key')
    (two : other.Equal other') : Earlier put key' other' := by
  obtain ⟨front, starts, ⟨entry, member, equal⟩, notYet⟩ := earlier
  exact ⟨front, starts, ⟨entry, member, equal.trans one⟩,
    fun entry member equal => notYet entry member (equal.trans two.symm)⟩

theorem LastWins.mem_of_mem (wins : LastWins put held) {kept : Key × Value} (member : kept ∈ held) :
    kept ∈ put := by
  obtain ⟨before, after, rfl, -⟩ := wins.last kept member
  simp

theorem lastWins_nil : LastWins [] [] :=
  ⟨by simp, by simp, .nil, .nil⟩

/-! ## Putting entries in -/

/-- An entry takes the place of the one of its class, or the last place. -/
theorem insert_cases (key : Key) (value : Value) (held : Entries) :
    (∃ front old back, held = front ++ old :: back ∧ old.1.Equal key ∧
      insert key value held = front ++ (key, value) :: back) ∨
    (∀ entry ∈ held, ¬ entry.1.Equal key) ∧ insert key value held = held ++ [(key, value)] := by
  induction held with
  | nil => exact .inr ⟨by simp, rfl⟩
  | cons first more ih =>
      by_cases same : first.1.same key
      · exact .inl ⟨[], first, more, rfl, Key.same_iff.mp same, by simp [insert, same]⟩
      · have step : insert key value (first :: more) = first :: insert key value more := by
          simp [insert, same]
        rcases ih with ⟨front, old, back, rfl, equal, replaced⟩ | ⟨apart, added⟩
        · exact .inl ⟨first :: front, old, back, rfl, equal, by rw [step, replaced]; rfl⟩
        · refine .inr ⟨List.forall_mem_cons.mpr ⟨fun equal => same (Key.same_iff.mpr equal), apart⟩, ?_⟩
          rw [step, added]
          rfl

/-- An entry of another class stays the last of its own. -/
theorem LastWins.last_append (wins : LastWins put held) {kept : Key × Value} (member : kept ∈ held)
    (other : ¬ key.Equal kept.1) : ∃ before after, put ++ [(key, value)] = before ++ kept :: after ∧
      ∀ entry ∈ after, ¬ entry.1.Equal kept.1 := by
  obtain ⟨before, after, rfl, notAfter⟩ := wins.last kept member
  refine ⟨before, after ++ [(key, value)], by simp, ?_⟩
  rw [List.forall_mem_append, List.forall_mem_singleton]
  exact ⟨notAfter, other⟩

/-- The new entry is the last of its class. -/
theorem last_self (put : Entries) (key : Key) (value : Value) :
    ∃ before after, put ++ [(key, value)] = before ++ (key, value) :: after ∧
      ∀ entry ∈ after, ¬ entry.1.Equal key :=
  ⟨put, [], rfl, by simp⟩

/-- One element of a row gives way to another that stands as it did to all others. -/
theorem pairwise_replace {α : Type} {R : α → α → Prop} {front back : List α} {old new : α}
    (whole : (front ++ old :: back).Pairwise R) (before : ∀ x, R x old → R x new)
    (behind : ∀ x, R old x → R new x) : (front ++ new :: back).Pairwise R := by
  rw [List.pairwise_append, List.pairwise_cons] at whole ⊢
  obtain ⟨inFront, ⟨fromOld, inBack⟩, across⟩ := whole
  refine ⟨inFront, ⟨fun x member => behind x (fromOld x member), inBack⟩, fun x member => ?_⟩
  obtain ⟨toOld, toBack⟩ := List.forall_mem_cons.mp (across x member)
  exact List.forall_mem_cons.mpr ⟨before x toOld, toBack⟩

/-- A hash that replaces the entry of a class. -/
theorem LastWins.replace {front back : Entries} {old : Key × Value}
    (wins : LastWins put (front ++ old :: back)) (equal : old.1.Equal key) :
    LastWins (put ++ [(key, value)]) (front ++ (key, value) :: back) := by
  have apart : (front ++ (key, value) :: back).Pairwise fun one other => ¬ one.1.Equal other.1 :=
    pairwise_replace wins.apart (fun _ differ same => differ (same.trans equal.symm))
      fun _ differ same => differ (equal.trans same)
  have order : (front ++ (key, value) :: back).Pairwise fun one other =>
      Earlier (put ++ [(key, value)]) one.1 other.1 :=
    pairwise_replace (wins.order.imp (·.append _)) (fun _ earlier => earlier.congr (.refl _) equal)
      fun _ earlier => earlier.congr equal (.refl _)
  refine ⟨?_, ?_, apart, order⟩
  · intro entry member
    rcases List.mem_append.mp member with before | new
    · obtain ⟨kept, inside, same⟩ := wins.covers entry before
      rcases List.mem_append.mp inside with inFront | inRest
      · exact ⟨kept, by simp [inFront], same⟩
      rcases List.mem_cons.mp inRest with rfl | inBack
      · exact ⟨(key, value), by simp, equal.symm.trans same⟩
      · exact ⟨kept, by simp [inBack], same⟩
    · rw [List.mem_singleton.mp new]
      exact ⟨(key, value), by simp, .refl key⟩
  -- The others are apart from the new entry, so they stay the last of their classes.
  · obtain ⟨-, apartRest, apartFront⟩ := List.pairwise_append.mp apart
    refine List.forall_mem_append.mpr ⟨fun kept inFront => ?_,
      List.forall_mem_cons.mpr ⟨last_self put key value, fun kept inBack => ?_⟩⟩
    · have other := apartFront kept inFront (key, value) List.mem_cons_self
      exact wins.last_append (by simp [inFront]) fun same => other same.symm
    · have other := (List.pairwise_cons.mp apartRest).1 kept inBack
      exact wins.last_append (by simp [inBack]) other

/-- A hash that gets an entry of a new class. -/
theorem LastWins.add (wins : LastWins put held) (new : ∀ kept ∈ held, ¬ kept.1.Equal key) :
    LastWins (put ++ [(key, value)]) (held ++ [(key, value)]) := by
  -- The class was not put in before, or it would be held.
  have unseen : ∀ entry ∈ put, ¬ entry.1.Equal key := by
    intro entry member equal
    obtain ⟨kept, inside, same⟩ := wins.covers entry member
    exact new kept inside (same.trans equal)
  refine ⟨?_, ?_, ?_, ?_⟩
  · intro entry member
    rcases List.mem_append.mp member with before | here
    · obtain ⟨kept, inside, same⟩ := wins.covers entry before
      exact ⟨kept, List.mem_append_left _ inside, same⟩
    · exact ⟨entry, List.mem_append_right _ here, .refl _⟩
  · intro kept member
    rcases List.mem_append.mp member with inside | here
    · exact wins.last_append inside fun same => new kept inside same.symm
    · rw [List.mem_singleton.mp here]
      exact last_self put key value
  · refine List.pairwise_append.mpr ⟨wins.apart, List.pairwise_singleton _ _, ?_⟩
    intro kept inside entry here
    rw [List.mem_singleton.mp here]
    exact new kept inside
  · refine List.pairwise_append.mpr ⟨wins.order.imp (·.append _), List.pairwise_singleton _ _, ?_⟩
    intro kept inside entry here
    rw [List.mem_singleton.mp here]
    exact ⟨put, List.prefix_append put _, ⟨kept, wins.mem_of_mem inside, .refl _⟩, unseen⟩

/-- Putting an entry in. -/
theorem LastWins.insert (wins : LastWins put held) (key : Key) (value : Value) :
    LastWins (put ++ [(key, value)]) (insert key value held) := by
  rcases insert_cases key value held with ⟨front, old, back, rfl, equal, replaced⟩ | ⟨new, added⟩
  · rw [replaced]
    exact wins.replace equal
  · rw [added]
    exact wins.add new

/-- Put entries in, one after the other. -/
def insertAll (put held : Entries) : Entries :=
  put.foldl (fun held entry => insert entry.1 entry.2 held) held

theorem insertAll_append (put more held : Entries) :
    insertAll (put ++ more) held = insertAll more (insertAll put held) :=
  List.foldl_append

/-- Putting any number of entries in. -/
theorem LastWins.insertAll (wins : LastWins put held) (more : Entries) :
    LastWins (put ++ more) (insertAll more held) := by
  induction more generalizing put held with
  | nil => simpa [Entries.insertAll] using wins
  | cons entry more ih =>
      have next := ih (wins.insert entry.1 entry.2)
      rw [List.append_assoc] at next
      exact next

/-! ## Asking a hash -/

theorem find?_cons (key : Key) (value : Value) (held : Entries) (probe : Key) :
    find? ((key, value) :: held) probe = if key.same probe then some value else find? held probe := by
  unfold find?
  rw [List.find?_cons]
  split <;> simp_all

/-- What was put in last is found, and nothing else is changed. -/
theorem find?_insert (key : Key) (value : Value) (held : Entries) (probe : Key) :
    find? (insert key value held) probe = if key.same probe then some value else find? held probe := by
  induction held with
  | nil => exact find?_cons key value [] probe
  | cons first more ih =>
      obtain ⟨k, v⟩ := first
      rw [insert, find?_cons k v]
      by_cases same : k.same key
      -- The old entry goes: whoever would have found it finds the new one.
      · rw [if_pos same, find?_cons]
        by_cases found : key.same probe
        · rw [if_pos found, if_pos found]
        · have other : ¬ k.same probe := by
            rw [Key.same_iff] at same found ⊢
            exact fun equal => found (same.symm.trans equal)
          rw [if_neg found, if_neg found, if_neg other]
      -- The old entry stays: whoever finds it does not look for the new one.
      · rw [if_neg same, find?_cons, ih]
        by_cases found : k.same probe
        · have other : ¬ key.same probe := by
            rw [Key.same_iff] at same found ⊢
            exact fun equal => same (found.trans equal.symm)
          rw [if_pos found, if_neg other, if_pos found]
        · rw [if_neg found, if_neg found]

/-- Entries of other classes change nothing. -/
theorem find?_insertAll_of_forall {more : Entries} (others : ∀ entry ∈ more, ¬ entry.1.Equal probe)
    (held : Entries) : find? (insertAll more held) probe = find? held probe := by
  induction more generalizing held with
  | nil => rfl
  | cons entry more ih =>
      obtain ⟨other, later⟩ := List.forall_mem_cons.mp others
      rw [← Key.same_iff] at other
      have step : find? (insertAll (entry :: more) held) probe =
          find? (insert entry.1 entry.2 held) probe := ih later _
      rw [step, find?_insert, if_neg other]

theorem find?_insertAll_last {before after : Entries} (equal : key.Equal probe)
    (others : ∀ entry ∈ after, ¬ entry.1.Equal probe) (held : Entries) :
    find? (insertAll (before ++ (key, value) :: after) held) probe = some value := by
  have step : insertAll (before ++ (key, value) :: after) held =
      insertAll after (insert key value (insertAll before held)) := insertAll_append ..
  rw [step, find?_insertAll_of_forall others, find?_insert, if_pos (Key.same_iff.mpr equal)]

end Entries

/-! ## Running a literal -/

/-- The entries of a literal run one after the other, each key before its value, no signal is given and
every key can be one. What is put in are the keys and values in this order. -/
inductive RunsEntries (call : Call) (scope : Nat) :
    Store → List (Node × Node) → Entries → Store → Prop
  | nil {store : Store} : RunsEntries call scope store [] [] store
  | cons {store asked given after : Store} {keyNode valueNode : Node} {more : List (Node × Node)}
      {object value : Value} {key : Key} {put : Entries} :
      keyNode.eval call scope store = .ok object asked → object.key? = some key →
      valueNode.eval call scope asked = .ok value given → value.isSignal = false →
      RunsEntries call scope given more put after →
      RunsEntries call scope store ((keyNode, valueNode) :: more) ((key, value) :: put) after

section Runs

variable {call : Call} {scope : Nat} {store after : Store} {entries : List (Node × Node)} {put : Entries}

theorem Value.isSignal_of_key? {value : Value} {key : Key} (hashable : value.key? = some key) :
    value.isSignal = false := by
  cases value <;> first | rfl | cases hashable

theorem RunsEntries.evalEntries_eq (runs : RunsEntries call scope store entries put after)
    (held : Entries) :
    evalEntries call scope held entries store = .ok (.ok (Entries.insertAll put held)) after := by
  induction runs generalizing held with
  | nil => rfl
  | cons keyRun hashable valueRun ordinary _ ih =>
      have plain := Value.isSignal_of_key? hashable
      rw [evalEntries]
      simp only [bind, EStateM.bind, keyRun, plain, hashable, valueRun, ordinary, if_false,
        Bool.false_eq_true]
      exact ih _

/-- A literal whose entries run makes a new hash of what is put in. -/
theorem RunsEntries.eval_hash (runs : RunsEntries call scope store entries put after) (line : Int) :
    (Node.hash line entries).eval call scope store =
      .ok (.hash after.nextId (Entries.insertAll put [])) { after with nextId := after.nextId + 1 } := by
  rw [Node.eval]
  simp only [bind, EStateM.bind, runs.evalEntries_eq []]
  rfl

end Runs

/-- Hash literals are last-wins ordered maps. Keys are the same exactly if they are equal, which is an
equivalence. A literal whose entries run gives a hash with one entry for each class of equal keys, in the
order of their first entries, and it is the last entry of its class. Asked for any key it gives the value
of the last entry of that class, or null if there is none; so the very key of the last entry of a class,
also a not-a-number, always finds its value. -/
theorem hash_literal_is_last_wins :
    (∀ k l : Key, k.same l = true ↔ k.Equal l) ∧ Equivalence Key.Equal ∧
    ∀ (call : Call) (scope : Nat) (line : Int) (entries : List (Node × Node)) (put : Entries)
      (store after : Store), RunsEntries call scope store entries put after →
      ∃ id held final, (Node.hash line entries).eval call scope store = .ok (.hash id held) final ∧
        Entries.LastWins put held ∧
        ∀ (q : Value) (probe : Key), q.key? = some probe →
          (∀ front key value back, put = front ++ (key, value) :: back → key.Equal probe →
            (∀ entry ∈ back, ¬ entry.1.Equal probe) →
            Operator.index (.hash id held) q = .ok value) ∧
          ((∀ entry ∈ put, ¬ entry.1.Equal probe) → Operator.index (.hash id held) q = .ok .null) ∧
          ∀ front value back, put = front ++ (probe, value) :: back →
            (∀ entry ∈ back, ¬ entry.1.Equal probe) →
            Operator.index (.hash id held) q = .ok value := by
  refine ⟨fun k l => Key.same_iff, Key.equivalence_equal, ?_⟩
  intro call scope line entries put store after runs
  refine ⟨_, _, _, runs.eval_hash line, Entries.lastWins_nil.insertAll put, ?_⟩
  intro q probe hashable
  have asked : Operator.index (.hash after.nextId (Entries.insertAll put [])) q =
      .ok ((Entries.find? (Entries.insertAll put []) probe).getD .null) := by
    simp only [Operator.index, hashable]
  have found : ∀ front key value back, put = front ++ (key, value) :: back → key.Equal probe →
      (∀ entry ∈ back, ¬ entry.1.Equal probe) →
      Operator.index (.hash after.nextId (Entries.insertAll put [])) q = .ok value := by
    rintro front key value back rfl equal others
    rw [asked, Entries.find?_insertAll_last equal others]
    rfl
  refine ⟨found, fun others => ?_, fun front value back whole others => ?_⟩
  · rw [asked, Entries.find?_insertAll_of_forall others]
    rfl
  · exact found front probe value back whole (.refl probe) others

/-- In `{0: "a", 0 / 0: "b", -0: "c"}` the last zero takes the place of the first, either zero finds its
value, and the not-a-number finds its own. -/
theorem hash_literal_is_last_wins_zeros :
    ∃ id held final, (Node.hash 1
        [(.number 1 (.zero false) "0", .text 1 "a"),
         (.binary 1 (.number 1 (.zero false) "0") "/" (.number 1 (.zero false) "0"), .text 1 "b"),
         (.unary 1 "-" (.number 1 (.zero false) "0"), .text 1 "c")]).eval (apply 0) 0 .empty =
          .ok (.hash id held) final ∧
      Entries.LastWins
        [(.number (.zero false), .text "a"), (.number (.nan Number.sharedPayload), .text "b"),
         (.number (.zero true), .text "c")] held ∧
      Operator.index (.hash id held) (.number (.zero false)) = .ok (.text "c") ∧
      Operator.index (.hash id held) (.number (.nan Number.sharedPayload)) = .ok (.text "b") ∧
      Operator.index (.hash id held) (.boolean false) = .ok .null := by
  obtain ⟨after, runs⟩ : ∃ after, RunsEntries (apply 0) 0 .empty
      [(.number 1 (.zero false) "0", .text 1 "a"),
       (.binary 1 (.number 1 (.zero false) "0") "/" (.number 1 (.zero false) "0"), .text 1 "b"),
       (.unary 1 "-" (.number 1 (.zero false) "0"), .text 1 "c")]
      [(.number (.zero false), .text "a"), (.number (.nan Number.sharedPayload), .text "b"),
       (.number (.zero true), .text "c")] after :=
    ⟨_, .cons rfl rfl rfl rfl (.cons rfl rfl rfl rfl (.cons rfl rfl rfl rfl .nil))⟩
  obtain ⟨id, held, final, run, wins, asked⟩ := hash_literal_is_last_wins.2.2 _ _ 1 _ _ _ _ runs
  refine ⟨id, held, final, run, wins, ?_, ?_, ?_⟩
  · have zeros : (Key.number (.zero true)).Equal (.number (.zero false)) := .inl rfl
    exact (asked (.number (.zero false)) _ rfl).1 [_, _] _ _ [] rfl zeros (by simp)
  · refine (asked (.number (.nan Number.sharedPayload)) _ rfl).2.2 [_] _ [_] rfl ?_
    simp [Key.Equal, Number.eq, Number.rank, Number.zero]
  · refine (asked (.boolean false) _ rfl).2.1 ?_
    simp [Key.Equal]

end Treewalk
