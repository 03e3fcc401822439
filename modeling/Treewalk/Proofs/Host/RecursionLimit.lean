import Treewalk.Host.RecursionLimit
import Treewalk.Proofs.Text.Integer

/-!
# The limit is the greatest that was demanded

A demand asks for a limit of its own or for the configured one (`Demand.Asks`), and the configured one is
what `Settings.Configures` tells. Meeting a demand takes the limit to the greater of what it is and what is
asked for, and a configuration that is rejected leaves it alone (`Demand.serve_of_asks`,
`Demand.serve_of_rejected`). So after any demands the limit is the greatest of the first one and all that
were asked for (`isGreatest_after`): their order and their number do not matter.
-/

namespace Treewalk

/-! ## The configured limit -/

namespace Settings

/-- The limits that an environment configures: the usual one if the variable is unset or blank, and
otherwise the positive integer that it spells. -/
inductive Configures (environment : Environment) : Int → Prop where
  | unset : environment.lookup recursionLimitName = none → Configures environment 10000
  | blank {raw : String} : environment.lookup recursionLimitName = some raw →
      (∀ c ∈ raw.toList, Text.isBlank c) → Configures environment 10000
  | spelled {raw : String} {limit : Int} : environment.lookup recursionLimitName = some raw →
      Text.IsInteger raw limit → 0 < limit → Configures environment limit

variable {environment : Environment} {limit : Int} {raw : String}

theorem trim_eq_empty_iff : Text.trim raw = "" ↔ ∀ c ∈ raw.toList, Text.isBlank c := by
  rw [Text.trim, String.ofList_eq_empty_iff, Text.strip_eq_nil_iff]

/-- What spells an integer is more than blanks. -/
theorem given?_of_isInteger (set : environment.lookup recursionLimitName = some raw)
    (integer : Text.IsInteger raw limit) : given? environment recursionLimitName = some raw := by
  obtain ⟨lead, sign, row, trail, negative, whole, -, -, -, digits, -⟩ := integer
  obtain ⟨c, cs, rfl, digit⟩ := digits.exists_head
  have member : c ∈ raw.toList := by
    rw [whole]
    simp
  have more : Text.trim raw ≠ "" := by
    intro nothing
    have blank := trim_eq_empty_iff.mp nothing c member
    rw [Text.isBlank_eq_false_of_isDigit digit] at blank
    cases blank
  simp [given?, set, more]

theorem recursionLimit_eq_ok_iff :
    recursionLimit environment = .ok limit ↔ Configures environment limit := by
  constructor
  · intro configured
    cases found : given? environment recursionLimitName with
    | none =>
        rw [recursionLimit, found] at configured
        cases configured
        cases set : environment.lookup recursionLimitName with
        | none => exact .unset set
        | some raw =>
            refine .blank set (trim_eq_empty_iff.mp ?_)
            simpa [given?, set] using found
    | some raw =>
        obtain ⟨set, -⟩ := Option.filter_eq_some_iff.mp found
        rw [recursionLimit, found] at configured
        dsimp only at configured
        split at configured
        · cases configured
        rename_i value spelled
        split at configured
        · cases configured
        rename_i positive
        cases configured
        exact .spelled set (Text.integer?_eq_some_iff.mp spelled) (Int.not_le.mp positive)
  · intro configured
    cases configured with
    | unset set =>
        simp [recursionLimit, given?, set, defaultRecursionLimit]
    | blank set blanks =>
        have nothing := trim_eq_empty_iff.mpr blanks
        simp [recursionLimit, given?, set, Option.filter, nothing, defaultRecursionLimit]
    | spelled set integer positive =>
        have value := Text.integer?_eq_some_iff.mpr integer
        simp [recursionLimit, given?_of_isInteger set integer, value, Int.not_le.mpr positive]

theorem Configures.pos (configured : Configures environment limit) : 1 ≤ limit := by
  cases configured with
  | unset | blank => decide
  | spelled _ _ positive => exact positive

end Settings

namespace RecursionLimit

variable {environment : Environment} {start current limit : Int}

/-! ## One demand -/

namespace Demand

/-- The demands for what is configured: an interpreter without a limit of its own, or with zero. -/
def Configured (demand : Demand) : Prop := demand = .interpreter none ∨ demand = .interpreter (some 0)

/-- A demand asks for a limit. -/
inductive Asks (environment : Environment) : Demand → Int → Prop where
  | ensure (limit : Int) : Asks environment (.ensure limit) limit
  | own {limit : Int} : limit ≠ 0 → Asks environment (.interpreter (some limit)) limit
  | configured {demand : Demand} {limit : Int} : demand.Configured →
      Settings.recursionLimit environment = .ok limit → Asks environment demand limit

/-- What a demand asks for, or why its configuration is rejected. -/
def asked (environment : Environment) : Demand → Except SettingError Int
  | .ensure limit => .ok limit
  | .interpreter own => wanted environment own

variable {demand : Demand} {error : SettingError}

theorem serve_of_asked (asked : demand.asked environment = .ok limit) :
    demand.serve environment = RecursionLimit.ensure limit := by
  cases demand with
  | ensure own =>
      cases asked
      rfl
  | interpreter own => simp only [serve, show wanted environment own = .ok limit from asked]

/-- A configuration that is rejected is a refusal, before the limit is touched. -/
theorem serve_of_rejected (rejected : demand.asked environment = .error error) (current : Int) :
    demand.serve environment current = .error (.setting error) current := by
  cases demand with
  | ensure own => cases rejected
  | interpreter own =>
      simp only [serve, show wanted environment own = .error error from rejected]
      rfl

theorem asked_of_configured (configured : demand.Configured) :
    demand.asked environment = Settings.recursionLimit environment := by
  rcases configured with rfl | rfl
  · rfl
  · rfl

theorem asks_iff : demand.Asks environment limit ↔ demand.asked environment = .ok limit := by
  constructor
  · intro asks
    cases asks with
    | ensure => rfl
    | own nonzero => simp [asked, wanted, nonzero]
    | configured configured found => rw [asked_of_configured configured, found]
  · intro found
    cases demand with
    | ensure own =>
        cases found
        exact .ensure limit
    | interpreter own =>
        cases own with
        | none => exact .configured (.inl rfl) found
        | some own =>
            by_cases zero : own = 0
            · subst zero
              exact .configured (.inr rfl) found
            · simp only [asked, wanted, zero, if_false, Except.ok.injEq] at found
              exact found ▸ .own zero

theorem rejected_iff : demand.asked environment = .error error ↔
    demand.Configured ∧ Settings.recursionLimit environment = .error error := by
  constructor
  · intro rejected
    have configured : demand.Configured := by
      by_contra other
      cases demand with
      | ensure own => cases rejected
      | interpreter own =>
          cases own with
          | none => exact other (.inl rfl)
          | some own =>
              have nonzero : own ≠ 0 := fun zero => other (.inr (zero ▸ rfl))
              simp [asked, wanted, nonzero] at rejected
    exact ⟨configured, asked_of_configured configured ▸ rejected⟩
  · rintro ⟨configured, rejected⟩
    rw [asked_of_configured configured, rejected]

end Demand

/-- The limit is compared before it is set, so it is only set to what is greater, and so positive. -/
theorem ensure_eq (positive : 1 ≤ current) (fits : limit < 2 ^ 31) :
    ensure limit current = .ok () (max current limit) := by
  have compared : ensure limit current = (if current < limit then set limit else pure ()) current := rfl
  by_cases lower : current < limit
  · have inRange : ¬(limit < -capacity ∨ capacity ≤ limit) := by
      unfold capacity
      omega
    have above : ¬limit < 1 := by omega
    rw [compared, if_pos lower, set, if_neg inRange, if_neg above, max_eq_right (Int.le_of_lt lower)]
    rfl
  · rw [compared, if_neg lower, max_eq_left (Int.not_lt.mp lower)]
    rfl

/-! ## All demands -/

/-- What demands ask for fits into a limit. -/
def Fit (environment : Environment) (demands : List Demand) : Prop :=
  ∀ demand ∈ demands, ∀ limit, demand.Asks environment limit → limit < 2 ^ 31

/-- The limit that a process starts with, and those that demands ask for. -/
def demanded (environment : Environment) (start : Int) (demands : List Demand) : Set Int :=
  {limit | limit = start ∨ ∃ demand ∈ demands, demand.Asks environment limit}

theorem demanded_nil : demanded environment start [] = {start} := by
  ext limit
  simp [demanded]

theorem mem_demanded_concat {before : List Demand} {demand : Demand} :
    limit ∈ demanded environment start (before ++ [demand]) ↔
      limit ∈ demanded environment start before ∨ demand.asked environment = .ok limit := by
  simp [demanded, Demand.asks_iff, or_and_right, exists_or, or_assoc]

theorem after_concat (environment : Environment) (start : Int) (before : List Demand) (demand : Demand) :
    after environment start (before ++ [demand]) =
      demand.leave environment (after environment start before) :=
  List.foldl_concat _ _ _ _

/-- After demands the limit is the greatest that there was. The induction is on the demands from the last
one: what the others have made of the limit is what the last one finds. -/
theorem isGreatest_after (positive : 1 ≤ start) {demands : List Demand} (fit : Fit environment demands) :
    IsGreatest (demanded environment start demands) (after environment start demands) := by
  induction demands using List.reverseRecOn with
  | nil =>
      rw [demanded_nil]
      exact isGreatest_singleton
  | append_singleton before demand ih =>
      have greatest := ih fun other member => fit other (List.mem_append_left _ member)
      have current : 1 ≤ after environment start before := positive.trans (greatest.2 (.inl rfl))
      rw [after_concat, Demand.leave]
      cases asked : demand.asked environment with
      | ok limit =>
          have fits := fit demand List.mem_concat_self limit (Demand.asks_iff.mpr asked)
          have more : demanded environment start (before ++ [demand]) =
              insert limit (demanded environment start before) := by
            ext other
            rw [mem_demanded_concat, asked, Except.ok.injEq, Set.mem_insert_iff, or_comm, eq_comm]
          rw [Demand.serve_of_asked asked, ensure_eq current fits, more, max_comm]
          exact greatest.insert limit
      | error e =>
          have same : demanded environment start (before ++ [demand]) = demanded environment start before := by
            ext other
            simp [mem_demanded_concat, asked]
          rw [Demand.serve_of_rejected asked, same]
          exact greatest

/-- What was demanded stays demanded. -/
theorem demanded_mono {before demands : List Demand} (subset : before ⊆ demands) :
    demanded environment start before ⊆ demanded environment start demands := by
  rintro limit (first | ⟨demand, member, asks⟩)
  · exact .inl first
  · exact .inr ⟨demand, subset member, asks⟩

end RecursionLimit

open RecursionLimit in
/-- The limit of a process is the greatest that was demanded. A process that starts with a positive limit
meets demands for limits of 31 bits, one after the other. Each of them takes the limit to the greater of
what it is and what is asked for; or it is for what is configured and the configuration is rejected, and then
it is refused and the limit stays. So the limit is always the greatest of the first one and all that were
asked for, it never falls, and neither the order of the demands nor repeating them changes where it ends.
What is configured is 10000 for an unset or blank variable and the positive integer that the variable spells,
and every other variable is rejected. -/
theorem limit_is_the_greatest_demanded (environment : Environment) (start : Int) (demands : List Demand)
    (positive : 1 ≤ start) (fit : Fit environment demands) :
    (∀ before demand, before ++ [demand] <+: demands →
      let current := after environment start before
      (∃ limit, demand.Asks environment limit ∧
        demand.serve environment current = .ok () (max current limit)) ∨
      (demand.Configured ∧ ∃ error, Settings.recursionLimit environment = .error error ∧
        demand.serve environment current = .error (.setting error) current)) ∧
    (∀ before, before <+: demands →
      IsGreatest (demanded environment start before) (after environment start before)) ∧
    (∀ before longer, before <+: longer → longer <+: demands →
      after environment start before ≤ after environment start longer) ∧
    (∀ others : List Demand, (∀ demand, demand ∈ others ↔ demand ∈ demands) →
      after environment start others = after environment start demands) ∧
    (∀ limit, Settings.recursionLimit environment = .ok limit ↔ Settings.Configures environment limit) ∧
    (∀ limit, Settings.Configures environment limit → 1 ≤ limit) ∧
    ((∀ limit, ¬Settings.Configures environment limit) →
      ∃ error, Settings.recursionLimit environment = .error error) := by
  have greatest (some : List Demand) (subset : some ⊆ demands) :
      IsGreatest (demanded environment start some) (after environment start some) :=
    isGreatest_after positive fun demand member => fit demand (subset member)
  refine ⟨?_, fun before front => greatest before front.subset, ?_, ?_,
    fun limit => Settings.recursionLimit_eq_ok_iff, fun limit => Settings.Configures.pos, ?_⟩
  · intro before demand front current
    have subset := List.append_subset.mp front.subset
    have alive : 1 ≤ current := positive.trans ((greatest before subset.1).2 (.inl rfl))
    cases asked : demand.asked environment with
    | ok limit =>
        have asks := Demand.asks_iff.mpr asked
        refine .inl ⟨limit, asks, ?_⟩
        rw [Demand.serve_of_asked asked]
        exact ensure_eq alive (fit demand (subset.2 List.mem_cons_self) limit asks)
    | error e =>
        obtain ⟨configured, rejected⟩ := Demand.rejected_iff.mp asked
        exact .inr ⟨configured, e, rejected, Demand.serve_of_rejected asked current⟩
  · intro before longer front whole
    exact (greatest before (front.trans whole).subset).mono (greatest longer whole.subset)
      (demanded_mono front.subset)
  · intro others same
    have all := greatest others fun demand member => (same demand).mp member
    have sets : demanded environment start others = demanded environment start demands := by
      ext limit
      simp [demanded, same]
    exact (sets ▸ all).unique (greatest demands fun _ member => member)
  · intro none
    cases found : Settings.recursionLimit environment with
    | ok limit => exact absurd (Settings.recursionLimit_eq_ok_iff.mp found) (none limit)
    | error e => exact ⟨e, rfl⟩

open RecursionLimit in
/-- A variable that spells no integer is rejected by one of three demands; in another order, and with one of
them repeated, the limit ends the same. -/
theorem limit_is_the_greatest_demanded_rejected :
    let environment : Environment := [("MONLOX_RECURSION_LIMIT", "many")]
    let demands : List Demand := [.ensure 500, .interpreter none, .interpreter (some 12000)]
    1 ≤ initial ∧ Fit environment demands ∧
      (∃ error, (Demand.interpreter none).serve environment initial = .error (.setting error) initial) ∧
      IsGreatest (demanded environment initial demands) 12000 ∧
      after environment initial
        [.interpreter (some 12000), .interpreter none, .ensure 500, .interpreter none] = 12000 := by
  intro environment demands
  have rejected : Settings.recursionLimit environment = .error (.notAnInteger "many") := by decide
  have positive : 1 ≤ initial := by decide
  have fit : Fit environment demands := by
    intro demand member limit asks
    have asked := Demand.asks_iff.mp asks
    simp only [demands, List.mem_cons, List.not_mem_nil, or_false] at member
    rcases member with rfl | rfl | rfl
    · cases asked
      decide
    · cases rejected.symm.trans asked
    · cases asked
      decide
  obtain ⟨steps, greatest, -, reordered, -⟩ :=
    limit_is_the_greatest_demanded environment initial demands positive fit
  have ended : after environment initial demands = 12000 := by decide
  refine ⟨positive, fit, ?_, ended ▸ greatest demands List.prefix_rfl, ?_⟩
  · rcases steps [.ensure 500] (.interpreter none) ⟨[.interpreter (some 12000)], rfl⟩ with
      ⟨limit, asks, -⟩ | ⟨-, error, -, refused⟩
    · cases rejected.symm.trans (Demand.asks_iff.mp asks)
    · exact ⟨error, refused⟩
  · refine (reordered _ fun demand => ?_).trans ended
    simp only [demands, List.mem_cons, List.not_mem_nil, or_false]
    tauto

end Treewalk
