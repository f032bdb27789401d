import Admission.Proofs.Number.Digits
import Admission.Proofs.Profile.Mapping

/-!
# Profiles that spell a user out

What a profile describes is all that is put on a record, whatever stood there before, the
memberships apart (`mapProfile_of_describes`). So a profile that holds the fields of a user, the
numbers written as such or in digits, gives this user back, and other fields do not matter. Any
profile that is accepted gives one and the same user on every record, who has a name without blanks
around it (`mapProfile_overwrites`).
-/

set_option autoImplicit false
set_option relaxedAutoImplicit false

namespace Admission.Profile

variable {provider : Provider} {payload : Fields} {user earlier : User}

/-! ### Spelling a user out -/

/-- A value that a number may be written as: the number itself, or digits with blanks around
them. -/
inductive Writes : Value → Int → Prop
  | int (n : Int) : Writes (.int n) n
  | digits {before digits after : List Char} (hbefore : ∀ c ∈ before, Text.isBlank c = true)
      (hne : digits ≠ []) (hdigits : ∀ c ∈ digits, Numeral.isDigit c = true)
      (hlength : digits.length ≤ Numeral.digitLimit)
      (hafter : ∀ c ∈ after, Text.isBlank c = true) :
      Writes (.str (String.ofList (before ++ digits ++ after))) (Numeral.ofDigits digits)

/-- A profile that holds the fields of a user, and any others. -/
structure Spells (payload : Fields) (user : User) : Prop where
  username : payload.get? "login" = some (.str user.username)
  email : payload.get? "email" = some (.str user.email)
  name : payload.get? "name" = some (.str user.name)
  id : ∃ v, payload.get? "id" = some v ∧ Writes v user.id
  createdOn : ∃ v, payload.get? "createdon" = some v ∧ Writes v user.createdOn
  lastUpdate : ∃ v, payload.get? "lastupdate" = some v ∧ Writes v user.lastUpdate

/-- A user with a name, whose texts have no blanks around them. -/
structure IsTidy (user : User) : Prop where
  username_ne_empty : user.username ≠ ""
  username : Text.trim user.username = user.username
  email : Text.trim user.email = user.email
  name : Text.trim user.name = user.name

/-- Blanks around digits are no part of the row. -/
theorem isDigitRow_of_blanks {before digits after : List Char}
    (hbefore : ∀ c ∈ before, Text.isBlank c = true) (hne : digits ≠ [])
    (hdigits : ∀ c ∈ digits, Numeral.isDigit c = true)
    (hafter : ∀ c ∈ after, Text.isBlank c = true) :
    IsDigitRow (String.ofList (before ++ digits ++ after)) digits := by
  refine ⟨?_, hne, hdigits⟩
  rw [String.toList_ofList, Text.trimChars_append_append hbefore hafter]
  exact Text.trimChars_eq_self_of_forall fun c hc ↦ Numeral.not_isBlank_of_isDigit (hdigits c hc)

theorem Writes.says {v : Value} {n : Int} (h : Writes v n) (sought : Sought) : Says sought v n := by
  cases h with
  | int => exact .int sought n
  | digits hbefore hne hdigits hlength hafter =>
    exact .digits sought (isDigitRow_of_blanks hbefore hne hdigits hafter) hlength

theorem finds_of_writes {sought : Sought} {key : String} {keys : List String} {n : Int}
    (h : ∃ v, payload.get? key = some v ∧ Writes v n) : Finds sought payload (key :: keys) n := by
  obtain ⟨v, hv, hwrites⟩ := h
  refine .here ?_
  rw [value, hv]
  exact hwrites.says sought

theorem isText_of_trimmed {key s : String} (h : payload.get? key = some (.str s))
    (htrim : Text.trim s = s) : IsText payload key s :=
  .inl ⟨s, h, htrim.symm⟩

theorem Spells.describes (h : Spells payload user) (htidy : IsTidy user) :
    Describes .github payload user := by
  have hname : HasText payload "login" := by
    refine ⟨user.username, h.username, ?_⟩
    by_contra hblank
    have hempty : Text.trim user.username = "" := Text.trim_eq_empty_iff.mpr (by simpa using hblank)
    exact htidy.username_ne_empty (htidy.username.symm.trans hempty)
  exact {
    username := .here hname (isText_of_trimmed h.username htidy.username)
    email := isText_of_trimmed h.email htidy.email
    name := isText_of_trimmed h.name htidy.name
    id := finds_of_writes h.id
    createdOn := finds_of_writes h.createdOn
    lastUpdate := finds_of_writes h.lastUpdate }

/-! ### Overwriting a record -/

/-- A name is never empty, and there are no blanks around it. -/
theorem Names.isTrimmed {keys : List String} {name : String} (h : Names payload keys name) :
    name ≠ "" ∧ Text.trim name = name := by
  induction h with
  | here h hname =>
    obtain ⟨s, hs, c, hc, hblank⟩ := h
    rcases hname with ⟨s', hs', rfl⟩ | ⟨hother, -⟩
    · obtain rfl : s = s' := by simpa [hs] using hs'
      refine ⟨fun hempty ↦ ?_, Text.trim_trim s⟩
      rw [Text.trim_eq_empty_iff.mp hempty c hc] at hblank
      cases hblank
    · exact absurd hs (hother s)
  | later _ _ ih => exact ih

/-- What a profile describes is what comes out, whatever stood on the record before. -/
theorem mapProfile_of_describes (h : Describes provider payload user) (earlier : User) :
    (provider.mapProfile payload earlier).problem = none ∧
      (provider.mapProfile payload earlier).user =
        { user with memberships := earlier.memberships } := by
  rcases hname : username? provider payload with _ | username
  · obtain ⟨key, hkey, htext⟩ := h.username.exists_hasText
    exact absurd htext (username?_eq_none_iff.mp hname key hkey)
  · rcases mapProfile_describes_or_breaks earlier hname with
      ⟨hproblem, hdescribes, hmemberships⟩ | ⟨count, hbreaks, -⟩
    · have hkept : Describes provider payload { user with memberships := earlier.memberships } :=
        ⟨h.username, h.email, h.name, h.id, h.createdOn, h.lastUpdate⟩
      exact ⟨hproblem, hdescribes.unique hkept hmemberships⟩
    · exact absurd hbreaks h.not_breaks

/-- A profile that spells a user out gives this user, with the memberships that the record had
before. Any profile that is accepted at all gives one user on all records, who has a name without
blanks around it. -/
theorem mapProfile_overwrites (payload : Fields) :
    (∀ user earlier : User, IsTidy user → Spells payload user →
      (Provider.github.mapProfile payload earlier).problem = none ∧
        (Provider.github.mapProfile payload earlier).user =
          { user with memberships := earlier.memberships }) ∧
      ∀ provider : Provider,
        (∀ earlier, (provider.mapProfile payload earlier).problem ≠ none) ∨
          ∃ user : User, user.username ≠ "" ∧ Text.trim user.username = user.username ∧
            ∀ earlier, (provider.mapProfile payload earlier).problem = none ∧
              (provider.mapProfile payload earlier).user =
                { user with memberships := earlier.memberships } := by
  refine ⟨fun user earlier htidy h ↦ mapProfile_of_describes (h.describes htidy) earlier,
    fun provider ↦ ?_⟩
  by_cases hrejected : ∀ earlier, (provider.mapProfile payload earlier).problem ≠ none
  · exact .inl hrejected
  · push Not at hrejected
    obtain ⟨first, haccepted⟩ := hrejected
    have hdescribes := ((mapProfile_user_eq_iff haccepted).mp rfl).1
    obtain ⟨hname, htrimmed⟩ := hdescribes.username.isTrimmed
    exact .inr ⟨_, hname, htrimmed, mapProfile_of_describes hdescribes⟩

/-- A user without an address, who was created before 1970. -/
def octocat : User where
  username := "octocat"
  name := "The Octocat"
  id := 583231
  createdOn := -1
  lastUpdate := 1700000000

/-- A profile that spells this user out, with other times behind names of second choice. -/
def octocatProfile : Fields := [
  ("created_at", .str "2011-01-25T18:44:36Z"), ("login", .str "octocat"), ("email", .str ""),
  ("name", .str "The Octocat"), ("id", .str "\t0583231 "), ("createdon", .int (-1)),
  ("lastupdate", .str "1700000000"), ("updated_at", .int 0)]

theorem spells_octocat : Spells octocatProfile octocat where
  username := rfl
  email := rfl
  name := rfl
  id := ⟨_, rfl, @Writes.digits ['\t'] "0583231".toList [' '] (List.all_eq_true.mp rfl) (by decide)
    (List.all_eq_true.mp rfl) (by decide) (List.all_eq_true.mp rfl)⟩
  createdOn := ⟨_, rfl, .int (-1)⟩
  lastUpdate := ⟨_, rfl, @Writes.digits [] "1700000000".toList [] (List.all_eq_true.mp rfl)
    (by decide) (List.all_eq_true.mp rfl) (by decide) (List.all_eq_true.mp rfl)⟩

/-- Nothing of an earlier user is left but the memberships. -/
theorem mapProfile_overwrites_stale :
    IsTidy octocat ∧ Spells octocatProfile octocat ∧
      (Provider.github.mapProfile octocatProfile
        { username := "mona", email := "mona@x.example", createdOn := 7,
          memberships := ["org"] }).user = { octocat with memberships := ["org"] } := by
  have htidy : IsTidy octocat := ⟨by decide, by decide, by decide, by decide⟩
  exact ⟨htidy, spells_octocat,
    ((mapProfile_overwrites octocatProfile).1 octocat _ htidy spells_octocat).2⟩

end Admission.Profile
