import SlabAllocator.Proofs.Classes
import SlabAllocator.Proofs.Numeral

/-! The policies that variables describe. Reading them accepts exactly the numerals, and a policy that they
describe when it passes validation. The first variable that is no numeral is reported before anything is validated. -/

namespace SlabAllocator.Policy

/-- What a variable says of a setting: nothing when it is not set, so that the default stays. -/
def Tells (lookup : String → Option String) (name : String) (default size : Nat) : Prop :=
  match lookup name with
  | none => size = default
  | some value => Text.Denotes value.toList size

structure Described (lookup : String → Option String) (policy : Policy) : Prop where
  cutoff : Tells lookup "SLABARENA_CUTOFF" 4000 policy.cutoff
  alignment : Tells lookup "SLABARENA_ALIGNMENT" 8 policy.alignment
  compactInterval : Tells lookup "SLABARENA_COMPACT_INTERVAL" 300 policy.compactInterval

def Readable (lookup : String → Option String) (name : String) : Prop :=
  ∀ value, lookup name = some value → ∃ size, Text.Denotes value.toList size

/-- The first variable of a list that is no numeral, with its whole text. -/
inductive Garbled (lookup : String → Option String) (name value : String) : List String → Prop
  | here {rest : List String} :
      lookup name = some value → ¬ Readable lookup name → Garbled lookup name value (name :: rest)
  | later {other : String} {rest : List String} :
      Readable lookup other → Garbled lookup name value rest → Garbled lookup name value (other :: rest)

def settings : List String :=
  ["SLABARENA_CUTOFF", "SLABARENA_ALIGNMENT", "SLABARENA_COMPACT_INTERVAL"]

def Shows (lookup : String → Option String) (name : String) (size : Nat) : Prop :=
  size < Size.bound ∧ ∃ left right, left ⊆ Text.whites ∧ right ⊆ Text.whites ∧
    lookup name = some (String.ofList (left ++ Nat.toDigits 10 size ++ right))

structure Shown (lookup : String → Option String) (policy : Policy) : Prop where
  cutoff : Shows lookup "SLABARENA_CUTOFF" policy.cutoff
  alignment : Shows lookup "SLABARENA_ALIGNMENT" policy.alignment
  compactInterval : Shows lookup "SLABARENA_COMPACT_INTERVAL" policy.compactInterval

/-- How variables are read: always to an end, and to which one. -/
structure ReadExactly (lookup : String → Option String) : Prop where
  answered : ∃ outcome, ofLookup lookup = .ok outcome
  accepted : ∀ policy, ofLookup lookup = .ok (.ok policy) ↔
    Described lookup policy ∧ policy.validate = .ok (.ok ())
  rejected : ∀ error, ofLookup lookup = .ok (.error error) ↔
    (∃ name value, Garbled lookup name value settings ∧ error = .unreadable name value) ∨
      ∃ policy, Described lookup policy ∧ policy.validate = .ok (.error error)
  restored : ∀ policy, Shown lookup policy → policy.validate = .ok (.ok ()) → ofLookup lookup = .ok (.ok policy)

variable {lookup : String → Option String} {name : String} {default size : Nat} {policy : Policy}
  {error : PolicyError}

/-! One variable. -/

theorem readVariable_eq_ok_iff : readVariable lookup name default = .ok size ↔
    Tells lookup name default size := by
  unfold readVariable Tells
  cases lookup name with
  | none => simp [eq_comm]
  | some value =>
    simp only [← Text.denotes_iff]
    cases Text.size? (Text.trim value.toList) <;> simp

theorem readVariable_cases (lookup : String → Option String) (name : String) (default : Nat) :
    (Readable lookup name ∧ ∃ size, readVariable lookup name default = .ok size) ∨
    (¬ Readable lookup name ∧ ∃ value, lookup name = some value ∧
      readVariable lookup name default = .error (.unreadable name value)) := by
  unfold readVariable Readable
  cases lookup name with
  | none => simp
  | some value =>
    simp only [Option.some.injEq, forall_eq', ← Text.denotes_iff]
    cases Text.size? (Text.trim value.toList) with
    | none => simp
    | some size => simp

/-! One variable, and what is read after it. -/

variable {next : Nat → Except PolicyError Policy}

theorem readVariable_bind_eq_ok_iff : (readVariable lookup name default >>= next) = .ok policy ↔
    ∃ size, Tells lookup name default size ∧ next size = .ok policy := by
  simp only [← readVariable_eq_ok_iff]
  cases readVariable lookup name default with
  | ok size => simp [bind, Except.bind]
  | error error => simp [bind, Except.bind]

theorem readVariable_bind_eq_error_iff {rest : List String}
    (later : ∀ size, next size = .error error ↔
      ∃ other value, Garbled lookup other value rest ∧ error = .unreadable other value) :
    (readVariable lookup name default >>= next) = .error error ↔
      ∃ other value, Garbled lookup other value (name :: rest) ∧ error = .unreadable other value := by
  rcases readVariable_cases lookup name default with ⟨readable, size, read⟩ | ⟨unreadable, value, set, read⟩
  · rw [read]
    refine (later size).trans ?_
    constructor
    · rintro ⟨other, value, garbled, rfl⟩
      exact ⟨other, value, .later readable garbled, rfl⟩
    · rintro ⟨other, value, garbled, rfl⟩
      cases garbled with
      | here set unreadable => exact absurd readable unreadable
      | later readable garbled => exact ⟨other, value, garbled, rfl⟩
  · rw [read]
    constructor
    · intro same
      cases same
      exact ⟨name, value, .here set unreadable, rfl⟩
    · rintro ⟨other, text, garbled, rfl⟩
      cases garbled with
      | here set' unreadable =>
        cases set.symm.trans set'
        rfl
      | later readable garbled => exact absurd readable unreadable

/-! All three, and the validation behind them. -/

theorem read_eq_ok_iff : read lookup = .ok policy ↔ Described lookup policy := by
  unfold read
  simp only [readVariable_bind_eq_ok_iff]
  constructor
  · rintro ⟨cutoff, tells, alignment, tells', compactInterval, tells'', same⟩
    cases same
    exact ⟨tells, tells', tells''⟩
  · intro described
    exact ⟨_, described.cutoff, _, described.alignment, _, described.compactInterval, rfl⟩

theorem read_eq_error_iff : read lookup = .error error ↔
    ∃ name value, Garbled lookup name value settings ∧ error = .unreadable name value := by
  refine readVariable_bind_eq_error_iff fun cutoff => ?_
  refine readVariable_bind_eq_error_iff fun alignment => ?_
  refine readVariable_bind_eq_error_iff fun compactInterval => ?_
  refine iff_of_false (by simp [pure, Except.pure]) ?_
  rintro ⟨name, value, garbled, -⟩
  cases garbled

theorem ofLookup_cases (lookup : String → Option String) :
    (∃ error, read lookup = .error error ∧ ofLookup lookup = .ok (.error error)) ∨
    ∃ policy, read lookup = .ok policy ∧
      (policy.validate = .ok (.ok ()) ∧ ofLookup lookup = .ok (.ok policy) ∨
        ∃ error, policy.validate = .ok (.error error) ∧ ofLookup lookup = .ok (.error error)) := by
  unfold ofLookup
  cases read lookup with
  | error error => exact .inl ⟨error, rfl, rfl⟩
  | ok policy =>
    refine .inr ⟨policy, rfl, ?_⟩
    simp only [validate_eq]
    cases policy.verdict with
    | ok => exact .inl ⟨rfl, rfl⟩
    | error error => exact .inr ⟨error, rfl, rfl⟩

theorem ofLookup_eq_ok_iff : ofLookup lookup = .ok (.ok policy) ↔
    Described lookup policy ∧ policy.validate = .ok (.ok ()) := by
  rw [← read_eq_ok_iff]
  rcases ofLookup_cases lookup with ⟨error, failed, ended⟩ | ⟨other, found,
    ⟨valid, ended⟩ | ⟨error, refused, ended⟩⟩
  · simp [failed, ended]
  · rw [found, ended]
    constructor
    · intro same
      cases same
      exact ⟨rfl, valid⟩
    · rintro ⟨same, -⟩
      cases same
      rfl
  · rw [found, ended]
    refine iff_of_false (by simp) ?_
    rintro ⟨same, valid⟩
    cases same
    cases refused.symm.trans valid

theorem ofLookup_eq_error_iff : ofLookup lookup = .ok (.error error) ↔
    read lookup = .error error ∨ ∃ policy, Described lookup policy ∧ policy.validate = .ok (.error error) := by
  simp only [← read_eq_ok_iff]
  rcases ofLookup_cases lookup with ⟨other, failed, ended⟩ | ⟨policy, found,
    ⟨valid, ended⟩ | ⟨other, refused, ended⟩⟩
  · simp [failed, ended]
  · simp [found, ended, valid]
  · simp [found, ended, refused]

theorem Shows.tells (shows : Shows lookup name size) (default : Nat) : Tells lookup name default size := by
  obtain ⟨fits, left, right, before, behind, set⟩ := shows
  have denotes := Text.denotes_toDigits before behind fits
  unfold Tells
  rw [set]
  simpa using denotes

theorem Shown.described (shown : Shown lookup policy) : Described lookup policy :=
  ⟨shown.cutoff.tells _, shown.alignment.tells _, shown.compactInterval.tells _⟩

/-- Variables are read to exactly what they say. -/
theorem read_exactly (lookup : String → Option String) : ReadExactly lookup where
  answered := by
    rcases ofLookup_cases lookup with ⟨error, -, ended⟩ | ⟨policy, -, ⟨-, ended⟩ | ⟨error, -, ended⟩⟩
    · exact ⟨_, ended⟩
    · exact ⟨_, ended⟩
    · exact ⟨_, ended⟩
  accepted _ := ofLookup_eq_ok_iff
  rejected _ := by rw [ofLookup_eq_error_iff, read_eq_error_iff]
  restored _ shown valid := ofLookup_eq_ok_iff.mpr ⟨shown.described, valid⟩

/-- A sign, leading zeros and white space are read past. A text that is no numeral hides the zero behind it.
What was written out comes back. -/
theorem read_exactly_padded :
    ofLookup (fun name => [("SLABARENA_CUTOFF", " +002048\t"), ("SLABARENA_ALIGNMENT", "16\u3000")].lookup name) =
      .ok (.ok ⟨2048, 16, 300⟩) ∧
    ofLookup (fun name => [("SLABARENA_ALIGNMENT", " eight "), ("SLABARENA_COMPACT_INTERVAL", "0")].lookup name) =
      .ok (.error (.unreadable "SLABARENA_ALIGNMENT" " eight ")) ∧
    ofLookup (fun name => [("SLABARENA_CUTOFF", "\n64"), ("SLABARENA_ALIGNMENT", "16 "),
      ("SLABARENA_COMPACT_INTERVAL", "5")].lookup name) = .ok (.ok ⟨64, 16, 5⟩) := by
  refine ⟨?_, ?_, ?_⟩
  · have cutoff : Text.Denotes " +002048\t".toList 2048 := Text.denotes_iff.mp (by decide)
    have alignment : Text.Denotes "16\u3000".toList 16 := Text.denotes_iff.mp (by decide)
    exact ((read_exactly _).accepted ⟨2048, 16, 300⟩).mpr ⟨⟨cutoff, alignment, rfl⟩, by decide⟩
  · have unread : Text.size? (Text.trim " eight ".toList) = none := by decide
    refine ((read_exactly _).rejected _).mpr (.inl ⟨_, _, .later ?_ (.here rfl ?_), rfl⟩)
    · intro value set
      cases set
    · intro readable
      obtain ⟨size, denotes⟩ := readable " eight " rfl
      cases unread.symm.trans (Text.denotes_iff.mpr denotes)
  · have cutoff : "\n64" = String.ofList (['\n'] ++ Nat.toDigits 10 64 ++ []) := by decide
    have alignment : "16 " = String.ofList ([] ++ Nat.toDigits 10 16 ++ [' ']) := by decide
    have interval : "5" = String.ofList ([] ++ Nat.toDigits 10 5 ++ []) := by decide
    refine (read_exactly _).restored ⟨64, 16, 5⟩ ⟨⟨by decide, _, _, ?_, ?_, congrArg some cutoff⟩,
      ⟨by decide, _, _, ?_, ?_, congrArg some alignment⟩, ⟨by decide, _, _, ?_, ?_, congrArg some interval⟩⟩
        (by decide)
    all_goals decide

end SlabAllocator.Policy
