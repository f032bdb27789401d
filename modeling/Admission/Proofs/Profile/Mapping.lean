import Admission.Proofs.Profile.Readings
import Admission.Proofs.Text.Trim
import Admission.Settings.Configuration

/-!
# Taking profiles over

A profile fails if none of the fields that may name the user has a text that is not blank, and this
is the only failure. Otherwise the user is described by the profile: what is missing or malformed
counts as empty or zero (`Describes`). Only a row of more digits than can be read breaks this off,
if it is met where a number or a time is looked for (`Breaks`). Both providers' profiles are taken
over in this way, with field names of their own (`mapProfile_describes`).
-/

set_option autoImplicit false
set_option relaxedAutoImplicit false

namespace Admission

namespace Provider

/-- The fields that may name the user, from the first choice to the last. -/
def nameKeys : Provider → List String
  | github => ["login"]
  | oidc => ["preferred_username", "email", "sub"]

def createdKeys : Provider → List String
  | github => ["createdon", "created_at"]
  | oidc => ["created_at"]

def updatedKeys : Provider → List String
  | github => ["lastupdate", "updated_at"]
  | oidc => ["updated_at"]

/-- What is said of a profile that does not name the user. -/
def nameMissing : Provider → String
  | github => "GitHub profile is missing the 'login' field"
  | oidc => "OpenID profile has no preferred_username, email or sub claim"

/-- How the profiles of a provider are taken over. -/
def mapProfile : Provider → Fields → User → Profile.Mapped
  | github => Profile.mapGithub
  | oidc => Profile.mapOpenId

end Provider

namespace Profile

variable {provider : Provider} {payload : Fields} {user : User}

/-! ### Texts -/

/-- A field holds a text that is not blank. -/
def HasText (payload : Fields) (key : String) : Prop :=
  ∃ s, payload.get? key = some (.str s) ∧ ∃ c ∈ s.toList, Text.isBlank c = false

/-- The text that a field holds, without the blanks around it; empty if it holds no text. -/
def IsText (payload : Fields) (key t : String) : Prop :=
  (∃ s, payload.get? key = some (.str s) ∧ t = Text.trim s) ∨
    (∀ s, payload.get? key ≠ some (.str s)) ∧ t = ""

/-- The text of the first field that holds one which is not blank. -/
inductive Names (payload : Fields) : List String → String → Prop
  | here {key : String} {keys : List String} {name : String} (h : HasText payload key)
      (hname : IsText payload key name) : Names payload (key :: keys) name
  | later {key : String} {keys : List String} {name : String} (hblank : ¬HasText payload key)
      (h : Names payload keys name) : Names payload (key :: keys) name

theorem isText_text (payload : Fields) (key : String) :
    IsText payload key (text payload key) := by
  unfold IsText text value Value.ofOption
  rcases payload.get? key with _ | v
  · exact .inr ⟨by simp, rfl⟩
  · cases v with
    | null | bool _ | int _ | float _ | moment _ | list _ | map _ => exact .inr ⟨by simp, rfl⟩
    | str s => exact .inl ⟨s, rfl, rfl⟩

theorem IsText.unique {key t t' : String} (h : IsText payload key t) (h' : IsText payload key t') :
    t = t' := by
  rcases h with ⟨s, hs, rfl⟩ | ⟨hother, rfl⟩
  · rcases h' with ⟨s', hs', rfl⟩ | ⟨hother, rfl⟩
    · rw [hs, Option.some.injEq, Value.str.injEq] at hs'
      rw [hs']
    · exact absurd hs (hother s)
  · rcases h' with ⟨s', hs', rfl⟩ | ⟨-, rfl⟩
    · exact absurd hs' (hother s')
    · rfl

theorem Names.unique {keys : List String} {name name' : String} (h : Names payload keys name)
    (h' : Names payload keys name') : name = name' := by
  induction h with
  | here hfilled hname =>
    cases h' with
    | here _ hname' => exact hname.unique hname'
    | later hblank _ => exact absurd hfilled hblank
  | later hblank _ ih =>
    cases h' with
    | here hfilled _ => exact absurd hfilled hblank
    | later _ h' => exact ih h'

theorem Names.exists_hasText {keys : List String} {name : String} (h : Names payload keys name) :
    ∃ key ∈ keys, HasText payload key := by
  induction h with
  | here h _ => exact ⟨_, List.mem_cons_self, h⟩
  | later _ _ ih =>
    obtain ⟨key, hkey, h⟩ := ih
    exact ⟨key, List.mem_cons_of_mem _ hkey, h⟩

theorem text_eq_empty_iff {key : String} : text payload key = "" ↔ ¬HasText payload key := by
  rcases isText_text payload key with ⟨s, hs, htext⟩ | ⟨hother, htext⟩
  · have hfilled : HasText payload key ↔ ∃ c ∈ s.toList, Text.isBlank c = false := by
      simp [HasText, hs]
    rw [htext, Text.trim_eq_empty_iff, hfilled]
    simp
  · exact iff_of_true htext fun ⟨s, hs, _⟩ ↦ hother s hs

/-! ### Names -/

/-- The text that names the user, if a field holds one. -/
def username? (provider : Provider) (payload : Fields) : Option String :=
  (provider.nameKeys.map (text payload)).find? (· ≠ "")

theorem username?_eq_none_iff :
    username? provider payload = none ↔ ∀ key ∈ provider.nameKeys, ¬HasText payload key := by
  simp only [username?, List.find?_eq_none, List.forall_mem_map, decide_eq_true_eq, not_not,
    text_eq_empty_iff]

theorem names_of_find? {keys : List String} {name : String}
    (h : (keys.map (text payload)).find? (· ≠ "") = some name) : Names payload keys name := by
  induction keys with
  | nil => cases h
  | cons key keys ih =>
    rw [List.map_cons, List.find?_cons] at h
    split at h
    · rename_i hnamed
      cases h
      have hfilled : ¬¬HasText payload key := by
        rw [← text_eq_empty_iff]
        exact of_decide_eq_true hnamed
      exact .here (not_not.mp hfilled) (isText_text payload key)
    · rename_i hempty
      exact .later (text_eq_empty_iff.mp (by simpa using hempty)) (ih h)

theorem username?_github (payload : Fields) :
    username? .github payload =
      if (text payload "login").isEmpty then none else some (text payload "login") := by
  simp only [username?, Provider.nameKeys, List.map_cons, List.map_nil, List.find?_cons,
    List.find?_nil, String.isEmpty_iff]
  by_cases hlogin : text payload "login" = "" <;> simp [hlogin]

theorem username?_oidc (payload : Fields) :
    username? .oidc payload =
      let username := firstOf (text payload "preferred_username") (text payload "email")
        (text payload "sub")
      if username.isEmpty then none else some username := by
  simp only [username?, Provider.nameKeys, List.map_cons, List.map_nil, List.find?_cons,
    List.find?_nil, String.isEmpty_iff, firstOf]
  by_cases hpreferred : text payload "preferred_username" = "" <;>
    by_cases hemail : text payload "email" = "" <;>
      by_cases hsub : text payload "sub" = "" <;> simp [hpreferred, hemail, hsub]

/-! ### Both providers -/

/-- A user with the texts of a profile, into whom the numbers are put one after the other. -/
def filled (named : User) (id createdOn lastUpdate : Found Int) : Mapped :=
  ((Mapped.put { user := named } setId id).put setCreatedOn createdOn).put setLastUpdate lastUpdate

theorem mapProfile_of_unnamed (user : User) (h : username? provider payload = none) :
    (provider.mapProfile payload user).problem =
      some (.failure (.invalidProfile provider.nameMissing)) := by
  cases provider with
  | github =>
    rw [username?_github, ite_eq_left_iff] at h
    have hempty : (text payload "login").isEmpty = true := by simpa using h
    simp only [Provider.mapProfile, mapGithub, hempty, if_true]
    rfl
  | oidc =>
    rw [username?_oidc, ite_eq_left_iff] at h
    have hempty : (firstOf (text payload "preferred_username") (text payload "email")
        (text payload "sub")).isEmpty = true := by simpa using h
    simp only [Provider.mapProfile, mapOpenId, hempty, if_true]
    rfl

theorem mapProfile_of_named {username : String} (user : User)
    (h : username? provider payload = some username) :
    provider.mapProfile payload user = filled
      { user with username, email := text payload "email", name := text payload "name" }
      (integer payload "id") (epoch payload provider.createdKeys)
      (epoch payload provider.updatedKeys) := by
  cases provider with
  | github =>
    rw [username?_github] at h
    split at h
    · cases h
    · rename_i hlogin
      cases h
      simp only [Provider.mapProfile, mapGithub, hlogin, Bool.false_eq_true, if_false]
      rfl
  | oidc =>
    rw [username?_oidc] at h
    dsimp only at h
    split at h
    · cases h
    · rename_i husername
      cases h
      simp only [Provider.mapProfile, mapOpenId, husername, Bool.false_eq_true, if_false]
      rfl

/-! ### Descriptions -/

/-- A user as a profile describes it. -/
structure Describes (provider : Provider) (payload : Fields) (user : User) : Prop where
  username : Names payload provider.nameKeys user.username
  email : IsText payload "email" user.email
  name : IsText payload "name" user.name
  id : Finds .number payload ["id"] user.id
  createdOn : Finds .time payload provider.createdKeys user.createdOn
  lastUpdate : Finds .time payload provider.updatedKeys user.lastUpdate

/-- Only one user with given memberships is described by a profile. -/
theorem Describes.unique {user' : User} (h : Describes provider payload user)
    (h' : Describes provider payload user') (hmemberships : user.memberships = user'.memberships) :
    user = user' := by
  cases user
  cases user'
  obtain rfl := h.username.unique h'.username
  obtain rfl := h.email.unique h'.email
  obtain rfl := h.name.unique h'.name
  obtain rfl := h.id.unique h'.id
  obtain rfl := h.createdOn.unique h'.createdOn
  obtain rfl := h.lastUpdate.unique h'.lastUpdate
  obtain rfl := hmemberships
  rfl

/-- An overlong field is met where a number is looked for, and none before. -/
inductive Breaks (provider : Provider) (payload : Fields) (count : Nat) : Prop
  | id (h : Stops .number payload ["id"] count)
  | createdOn {n : Int} (hid : Finds .number payload ["id"] n)
      (h : Stops .time payload provider.createdKeys count)
  | lastUpdate {n m : Int} (hid : Finds .number payload ["id"] n)
      (hcreatedOn : Finds .time payload provider.createdKeys m)
      (h : Stops .time payload provider.updatedKeys count)

theorem Breaks.unique {count count' : Nat} (h : Breaks provider payload count)
    (h' : Breaks provider payload count') : count = count' := by
  cases h with
  | id h =>
    cases h' with
    | id h' => exact h.unique h'
    | createdOn hid _ | lastUpdate hid _ _ => exact absurd hid h.not_finds
  | createdOn hid h =>
    cases h' with
    | id h' => exact absurd hid h'.not_finds
    | createdOn _ h' => exact h.unique h'
    | lastUpdate _ hcreatedOn _ => exact absurd hcreatedOn h.not_finds
  | lastUpdate hid hcreatedOn h =>
    cases h' with
    | id h' => exact absurd hid h'.not_finds
    | createdOn _ h' => exact absurd hcreatedOn h'.not_finds
    | lastUpdate _ _ h' => exact h.unique h'

theorem Describes.not_breaks {count : Nat} (h : Describes provider payload user) :
    ¬Breaks provider payload count
  | .id hstops => hstops.not_finds h.id
  | .createdOn _ hstops => hstops.not_finds h.createdOn
  | .lastUpdate _ _ hstops => hstops.not_finds h.lastUpdate

/-- The numbers of a user whom a profile names are those of the profile, unless it breaks. -/
theorem mapProfile_describes_or_breaks {username : String} (user : User)
    (h : username? provider payload = some username) :
    ((provider.mapProfile payload user).problem = none ∧
        Describes provider payload (provider.mapProfile payload user).user ∧
        (provider.mapProfile payload user).user.memberships = user.memberships) ∨
      ∃ count, Breaks provider payload count ∧
        (provider.mapProfile payload user).problem =
          some (.fault (.numeralTooLong count)) := by
  have hid := isResult_integer payload "id"
  have hcreatedOn := isResult_epoch payload provider.createdKeys
  have hlastUpdate := isResult_epoch payload provider.updatedKeys
  rw [mapProfile_of_named user h]
  generalize integer payload "id" = id at hid ⊢
  generalize epoch payload provider.createdKeys = createdOn at hcreatedOn ⊢
  generalize epoch payload provider.updatedKeys = lastUpdate at hlastUpdate ⊢
  rcases id with ⟨first, f | n⟩
  · obtain ⟨count, hstops, rfl⟩ := hid
    exact .inr ⟨count, .id hstops, rfl⟩
  rcases createdOn with ⟨second, f | m⟩
  · obtain ⟨count, hstops, rfl⟩ := hcreatedOn
    exact .inr ⟨count, .createdOn hid hstops, rfl⟩
  rcases lastUpdate with ⟨third, f | k⟩
  · obtain ⟨count, hstops, rfl⟩ := hlastUpdate
    exact .inr ⟨count, .lastUpdate hid hcreatedOn hstops, rfl⟩
  · exact .inl ⟨rfl, ⟨names_of_find? h, isText_text payload "email", isText_text payload "name",
      hid, hcreatedOn, hlastUpdate⟩, rfl⟩

theorem problem_of_breaks {username : String} {count : Nat} (user : User)
    (h : username? provider payload = some username) (hbreaks : Breaks provider payload count) :
    (provider.mapProfile payload user).problem = some (.fault (.numeralTooLong count)) := by
  rcases mapProfile_describes_or_breaks user h with
    ⟨-, hdescribes, -⟩ | ⟨count', hbreaks', hproblem⟩
  · exact absurd hbreaks hdescribes.not_breaks
  · rw [hbreaks.unique hbreaks']
    exact hproblem

/-! ### Outcomes -/

theorem problem_eq_failure_iff {f : Failure} :
    (provider.mapProfile payload user).problem = some (.failure f) ↔
      f = .invalidProfile provider.nameMissing ∧
        ∀ key ∈ provider.nameKeys, ¬HasText payload key := by
  rw [← username?_eq_none_iff]
  rcases hname : username? provider payload with _ | username
  · rw [mapProfile_of_unnamed user hname]
    simp [eq_comm]
  · rcases mapProfile_describes_or_breaks user hname with ⟨hproblem, -⟩ | ⟨count, -, hproblem⟩
    · simp [hproblem]
    · simp [hproblem]

theorem problem_eq_fault_iff {f : Fault} :
    (provider.mapProfile payload user).problem = some (.fault f) ↔
      (∃ key ∈ provider.nameKeys, HasText payload key) ∧
        ∃ count, Breaks provider payload count ∧ f = .numeralTooLong count := by
  have hnamed : (∃ key ∈ provider.nameKeys, HasText payload key) ↔
      username? provider payload ≠ none := by
    simp [username?_eq_none_iff]
  rw [hnamed]
  rcases hname : username? provider payload with _ | username
  · rw [mapProfile_of_unnamed user hname]
    simp
  · constructor
    · intro hfault
      rcases mapProfile_describes_or_breaks user hname with
        ⟨hproblem, -⟩ | ⟨count, hbreaks, hproblem⟩
      · rw [hproblem] at hfault
        cases hfault
      · rw [hproblem] at hfault
        cases hfault
        exact ⟨by simp, count, hbreaks, rfl⟩
    · rintro ⟨-, count, hbreaks, rfl⟩
      exact problem_of_breaks user hname hbreaks

theorem mapProfile_user_eq_iff {described : User}
    (h : (provider.mapProfile payload user).problem = none) :
    (provider.mapProfile payload user).user = described ↔
      Describes provider payload described ∧ described.memberships = user.memberships := by
  rcases hname : username? provider payload with _ | username
  · rw [mapProfile_of_unnamed user hname] at h
    cases h
  · rcases mapProfile_describes_or_breaks user hname with
      ⟨-, hdescribes, hmemberships⟩ | ⟨count, -, hproblem⟩
    · constructor
      · rintro rfl
        exact ⟨hdescribes, hmemberships⟩
      · rintro ⟨hdescribed, hkept⟩
        exact hdescribes.unique hdescribed (hmemberships.trans hkept.symm)
    · rw [h] at hproblem
      cases hproblem

/-- A profile fails exactly if nothing in it names the user, and breaks exactly if a row of more
digits than can be read is met. In all other cases the user comes out as the one that the profile
describes, with the memberships of before. -/
theorem mapProfile_describes (provider : Provider) (payload : Fields) (user : User) :
    let mapped := provider.mapProfile payload user
    (∀ f, mapped.problem = some (.failure f) ↔
        f = .invalidProfile provider.nameMissing ∧
          ∀ key ∈ provider.nameKeys, ¬HasText payload key) ∧
      (∀ f, mapped.problem = some (.fault f) ↔
        (∃ key ∈ provider.nameKeys, HasText payload key) ∧
          ∃ count, Breaks provider payload count ∧ f = .numeralTooLong count) ∧
      (mapped.problem = none → ∀ described,
        mapped.user = described ↔
          Describes provider payload described ∧ described.memberships = user.memberships) :=
  ⟨fun _ ↦ problem_eq_failure_iff, fun _ ↦ problem_eq_fault_iff,
    fun h _ ↦ mapProfile_user_eq_iff h⟩

theorem isOverlong_replicate {count : Nat} (h : Numeral.digitLimit < count) :
    IsOverlong (.str (String.ofList (List.replicate count '1'))) count := by
  have htrim : Text.trimChars (List.replicate count '1') = List.replicate count '1' := by
    refine Text.trimChars_eq_self_of_forall fun c hc ↦ ?_
    rw [List.eq_of_mem_replicate hc]
    decide
  refine ⟨_, List.replicate count '1', rfl, ⟨?_, ?_, fun c hc ↦ ?_⟩, List.length_replicate, h⟩
  · rw [String.toList_ofList, htrim]
  · rw [ne_eq, List.replicate_eq_nil_iff]
    exact Nat.ne_of_gt (Nat.zero_lt_of_lt h)
  · rw [List.eq_of_mem_replicate hc]
    decide

/-- A row of 4301 digits is neither taken for a missing number nor passed over for another field. -/
theorem mapProfile_overlong :
    (Provider.github.mapProfile [("login", .str "octocat"),
        ("id", .str (String.ofList (List.replicate 4301 '1')))] {}).problem =
      some (.fault (.numeralTooLong 4301)) ∧
    (Provider.github.mapProfile [("login", .str "octocat"),
        ("createdon", .str (String.ofList (List.replicate 4301 '1'))),
        ("created_at", .int 1296068472)] {}).problem =
      some (.fault (.numeralTooLong 4301)) := by
  constructor
  · have hname : username? .github [("login", .str "octocat"),
        ("id", .str (String.ofList (List.replicate 4301 '1')))] = some "octocat" := by
      decide +kernel
    exact problem_of_breaks {} hname (.id (.here (isOverlong_replicate (by decide))))
  · have hname : username? .github [("login", .str "octocat"),
        ("createdon", .str (String.ofList (List.replicate 4301 '1'))),
        ("created_at", .int 1296068472)] = some "octocat" := by
      decide +kernel
    exact problem_of_breaks {} hname
      (.createdOn (.later trivial .nowhere) (.here (isOverlong_replicate (by decide))))

end Profile

end Admission
