import Admission.Profile
import Admission.Proofs.Time.Timestamp

/-!
# What the fields of a profile say

A value says a whole number, or a time in seconds, in a few ways (`Says`). It is unusable if it is
missing or malformed (`IsUnusable`), and overlong if it is a row of more digits than can be read
(`IsOverlong`). Each value is one of these and no other. Looking for a number or a time in several
fields comes to what the first field says that is not unusable, and to zero if all are unusable
(`Finds`), unless an overlong field is met first (`Stops`). So it is for numbers
(`isResult_integer`) and for times (`isResult_epoch`).
-/

set_option autoImplicit false
set_option relaxedAutoImplicit false

namespace Admission.Profile

/-! ### Values -/

/-- A row of ASCII digits, with blanks around it. -/
def IsDigitRow (s : String) (digits : List Char) : Prop :=
  Text.trimChars s.toList = digits ∧ digits ≠ [] ∧ ∀ c ∈ digits, Numeral.isDigit c = true

/-- What fields are read for. -/
inductive Sought
  | number
  | time

/-- The number that a value says, and the time in seconds: fractions of a second are cut off. -/
inductive Says : Sought → Value → Int → Prop
  | int (sought : Sought) (n : Int) : Says sought (.int n) n
  | digits (sought : Sought) {s : String} {digits : List Char} (h : IsDigitRow s digits)
      (hlength : digits.length ≤ Numeral.digitLimit) :
      Says sought (.str s) (Numeral.ofDigits digits)
  | float {x : Binary64} {n : Int} (h : x.truncate? = some n) : Says .time (.float x) n
  | date {s : String} {x : Binary64} {n : Int} (hdigits : ∀ digits, ¬IsDigitRow s digits)
      (h : Timestamp.seconds? (zoned s) = some x) (hn : x.truncate? = some n) :
      Says .time (.str s) n

/-- A value that says neither a number nor a time. -/
def IsUnusable : Sought → Value → Prop
  | _, .int _ => False
  | .number, .str s => ∀ digits, ¬IsDigitRow s digits
  | .time, .str s => (∀ digits, ¬IsDigitRow s digits) ∧ Timestamp.seconds? (zoned s) = none
  | .time, .float x => x.isFinite = false
  | _, _ => True

/-- A row of more digits than can be read. -/
def IsOverlong (v : Value) (count : Nat) : Prop :=
  ∃ s digits, v = .str s ∧ IsDigitRow s digits ∧ digits.length = count ∧ Numeral.digitLimit < count

variable {sought : Sought} {v : Value} {n m : Int} {count count' : Nat}

theorem IsDigitRow.unique {s : String} {digits digits' : List Char} (h : IsDigitRow s digits)
    (h' : IsDigitRow s digits') : digits = digits' :=
  h.1.symm.trans h'.1

theorem Says.unique (h : Says sought v n) (h' : Says sought v m) : n = m := by
  cases h with
  | int => cases h'; rfl
  | digits _ h hlength =>
    cases h' with
    | digits _ h' _ => rw [h.unique h']
    | date hdigits _ _ => exact absurd h (hdigits _)
  | float h =>
    cases h' with
    | float h' => exact Option.some.inj (h.symm.trans h')
  | date hdigits h hn =>
    cases h' with
    | digits _ h' _ => exact absurd h' (hdigits _)
    | date _ h' hm =>
      obtain rfl := Option.some.inj (h.symm.trans h')
      exact Option.some.inj (hn.symm.trans hm)

theorem Says.not_isUnusable (h : Says sought v n) : ¬IsUnusable sought v := by
  intro hunusable
  cases h with
  | int => cases sought <;> exact hunusable
  | digits _ h hlength =>
    cases sought with
    | number => exact hunusable _ h
    | time => exact hunusable.1 _ h
  | @float x n h =>
    have hinfinite : x.toRat?.isSome = false := hunusable
    rw [Binary64.truncate?, Option.map_eq_some_iff] at h
    obtain ⟨q, hq, -⟩ := h
    rw [hq] at hinfinite
    cases hinfinite
  | date _ h _ =>
    rw [hunusable.2] at h
    cases h

theorem IsOverlong.unique (h : IsOverlong v count) (h' : IsOverlong v count') :
    count = count' := by
  obtain ⟨s, digits, rfl, hrow, rfl, -⟩ := h
  obtain ⟨s', digits', hs, hrow', rfl, -⟩ := h'
  cases hs
  rw [hrow.unique hrow']

theorem IsOverlong.not_says (h : IsOverlong v count) : ¬Says sought v n := by
  obtain ⟨s, digits, rfl, hrow, rfl, hlong⟩ := h
  intro hsays
  cases hsays with
  | digits _ hrow' hlength =>
    rw [hrow'.unique hrow] at hlength
    omega
  | date hdigits _ _ => exact hdigits _ hrow

theorem IsOverlong.not_isUnusable (h : IsOverlong v count) : ¬IsUnusable sought v := by
  obtain ⟨s, digits, rfl, hrow, -, -⟩ := h
  cases sought with
  | number => exact fun hunusable ↦ hunusable _ hrow
  | time => exact fun hunusable ↦ hunusable.1 _ hrow

/-! ### Readings -/

/-- A reading of a text of digits. -/
def IsNumeralReading (s : String) : Except Fault (Option Int) → Prop
  | .ok (some n) => ∃ digits, IsDigitRow s digits ∧ digits.length ≤ Numeral.digitLimit ∧
      n = Numeral.ofDigits digits
  | .ok none => ∀ digits, ¬IsDigitRow s digits
  | .error f => ∃ digits, IsDigitRow s digits ∧ Numeral.digitLimit < digits.length ∧
      f = .numeralTooLong digits.length

theorem isNumeralReading_digits? (s : String) : IsNumeralReading s (digits? s) := by
  unfold digits?
  dsimp only
  split
  · rename_i hother
    rintro digits ⟨rfl, hne, hall⟩
    rw [← List.all_eq_true] at hall
    simp [hall, hne] at hother
  · rename_i hrow
    have hdigits : IsDigitRow s (Text.trimChars s.toList) := by
      simpa [IsDigitRow] using hrow
    split
    · rename_i hlong
      exact ⟨_, hdigits, hlong, rfl⟩
    · rename_i hlength
      exact ⟨_, hdigits, Nat.not_lt.mp hlength, rfl⟩

/-- A reading of a value: what it says, if anything, and a fault if it is overlong. -/
def IsReading (sought : Sought) (v : Value) : Except Fault (Option Int) → Prop
  | .ok (some n) => Says sought v n
  | .ok none => IsUnusable sought v
  | .error f => ∃ count, IsOverlong v count ∧ f = .numeralTooLong count

/-- The time that a text says which is no row of digits. -/
theorem seconds_str {key s : String} (h : digits? s = .ok none) :
    (seconds key (.str s)).2 = .ok ((Timestamp.seconds? (zoned s)).bind Binary64.truncate?) := by
  unfold seconds
  dsimp only
  rw [h]
  dsimp only
  split
  · rename_i hn
    rw [hn]
  · rename_i hnone
    rw [hnone]

theorem isReading_seconds (key : String) (v : Value) : IsReading .time v (seconds key v).2 := by
  cases v with
  | null | bool _ | moment _ | list _ | map _ => exact trivial
  | int n => exact .int _ n
  | float x =>
    unfold seconds
    dsimp only
    split
    · rename_i n hn
      exact .float hn
    · rename_i hnone
      rw [Binary64.truncate?, Option.map_eq_none_iff] at hnone
      show x.toRat?.isSome = false
      rw [hnone]
      rfl
  | str s =>
    have hnumeral := isNumeralReading_digits? s
    rcases hdigits : digits? s with f | _ | n
    · rw [hdigits] at hnumeral
      obtain ⟨digits, hrow, hlong, rfl⟩ := hnumeral
      unfold seconds
      dsimp only
      rw [hdigits]
      exact ⟨_, ⟨s, digits, rfl, hrow, rfl, hlong⟩, rfl⟩
    · rw [seconds_str hdigits]
      rw [hdigits] at hnumeral
      rcases hseconds : Timestamp.seconds? (zoned s) with _ | x
      · exact ⟨hnumeral, hseconds⟩
      · -- Timestamps lie within the range of the numbers, so their seconds can be cut off.
        obtain ⟨q, hq⟩ := Option.isSome_iff_exists.mp (Timestamp.isFinite_seconds? hseconds)
        have htruncate : x.truncate? = some (q.num.tdiv q.den) := by
          rw [Binary64.truncate?, hq]
          rfl
        rw [Option.bind_some, htruncate]
        exact .date hnumeral hseconds htruncate
    · rw [hdigits] at hnumeral
      obtain ⟨digits, hrow, hlength, rfl⟩ := hnumeral
      unfold seconds
      dsimp only
      rw [hdigits]
      exact .digits _ hrow hlength

/-! ### Looking through fields -/

/-- What the first field says that is not unusable; zero if all are unusable. -/
inductive Finds (sought : Sought) (payload : Fields) : List String → Int → Prop
  | here {key : String} {keys : List String} {n : Int} (h : Says sought (value payload key) n) :
      Finds sought payload (key :: keys) n
  | later {key : String} {keys : List String} {n : Int}
      (hunusable : IsUnusable sought (value payload key)) (h : Finds sought payload keys n) :
      Finds sought payload (key :: keys) n
  | nowhere : Finds sought payload [] 0

/-- An overlong field is met, all fields before it being unusable. -/
inductive Stops (sought : Sought) (payload : Fields) : List String → Nat → Prop
  | here {key : String} {keys : List String} {count : Nat}
      (h : IsOverlong (value payload key) count) : Stops sought payload (key :: keys) count
  | later {key : String} {keys : List String} {count : Nat}
      (hunusable : IsUnusable sought (value payload key)) (h : Stops sought payload keys count) :
      Stops sought payload (key :: keys) count

variable {payload : Fields} {keys : List String}

theorem Finds.unique (h : Finds sought payload keys n) (h' : Finds sought payload keys m) :
    n = m := by
  induction h with
  | here h =>
    cases h' with
    | here h' => exact h.unique h'
    | later hunusable _ => exact absurd hunusable h.not_isUnusable
  | later hunusable _ ih =>
    cases h' with
    | here h' => exact absurd hunusable h'.not_isUnusable
    | later _ h' => exact ih h'
  | nowhere =>
    cases h'
    rfl

theorem Stops.unique (h : Stops sought payload keys count) (h' : Stops sought payload keys count') :
    count = count' := by
  induction h with
  | here h =>
    cases h' with
    | here h' => exact h.unique h'
    | later hunusable _ => exact absurd hunusable h.not_isUnusable
  | later hunusable _ ih =>
    cases h' with
    | here h' => exact absurd hunusable h'.not_isUnusable
    | later _ h' => exact ih h'

theorem Stops.not_finds (h : Stops sought payload keys count) : ¬Finds sought payload keys n := by
  intro hfinds
  induction h with
  | here h =>
    cases hfinds with
    | here hsays => exact h.not_says hsays
    | later hunusable _ => exact h.not_isUnusable hunusable
  | later hunusable _ ih =>
    cases hfinds with
    | here hsays => exact hsays.not_isUnusable hunusable
    | later _ hfinds => exact ih hfinds

/-- What looking through fields comes to. -/
def IsResult (sought : Sought) (payload : Fields) (keys : List String) : Except Fault Int → Prop
  | .ok n => Finds sought payload keys n
  | .error f => ∃ count, Stops sought payload keys count ∧ f = .numeralTooLong count

theorem isResult_integer (payload : Fields) (key : String) :
    IsResult .number payload [key] (integer payload key).2 := by
  have hunusable (h : IsUnusable .number (value payload key)) :
      IsResult .number payload [key] (.ok 0) := .later h .nowhere
  unfold integer
  cases hv : value payload key with
  | null | bool _ | float _ | moment _ | list _ | map _ =>
    rw [hv] at hunusable
    exact hunusable trivial
  | int n =>
    have hsays : Says .number (value payload key) n := by
      rw [hv]
      exact .int _ n
    exact .here hsays
  | str s =>
    have hnumeral := isNumeralReading_digits? s
    dsimp only
    generalize digits? s = numeral at hnumeral ⊢
    rcases numeral with f | _ | n
    · obtain ⟨digits, hrow, hlong, rfl⟩ := hnumeral
      exact ⟨_, .here ⟨s, digits, hv, hrow, rfl, hlong⟩, rfl⟩
    · rw [hv] at hunusable
      exact hunusable hnumeral
    · obtain ⟨digits, hrow, hlength, rfl⟩ := hnumeral
      have hsays : Says .number (value payload key) (Numeral.ofDigits digits) := by
        rw [hv]
        exact .digits _ hrow hlength
      exact .here hsays

theorem isResult_epoch (payload : Fields) (keys : List String) :
    IsResult .time payload keys (epoch payload keys).2 := by
  induction keys with
  | nil => exact .nowhere
  | cons key keys ih =>
    have hreading := isReading_seconds key (value payload key)
    unfold epoch
    generalize seconds key (value payload key) = reading at hreading ⊢
    rcases reading with ⟨notices, f | _ | n⟩
    · obtain ⟨count, hlong, rfl⟩ := hreading
      exact ⟨count, .here hlong, rfl⟩
    · dsimp only
      rcases hmore : (epoch payload keys).2 with f | n
      · rw [hmore] at ih
        obtain ⟨count, hstops, rfl⟩ := ih
        exact ⟨count, .later hreading hstops, rfl⟩
      · rw [hmore] at ih
        exact .later hreading ih
    · exact .here hreading

end Admission.Profile
