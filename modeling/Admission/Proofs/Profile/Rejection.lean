import Admission.Proofs.Profile.Mapping

/-!
# What a rejected profile leaves

A profile is taken over one field after the other, so one that is rejected may leave fields of its
own on the record (`leaves_of_problem`). A profile of the first provider is tested for its name
before anything is taken over; one of the second has left an empty address and its display name by
then. A row of more digits than can be read comes behind the texts, and behind the numbers in front
of it. So the record is as before exactly if what was taken over stood there already
(`mapProfile_rejected`).
-/

set_option autoImplicit false
set_option relaxedAutoImplicit false

namespace Admission.Profile

variable {provider : Provider} {payload : Fields} {user left : User}

/-- The texts that a profile gives a user. -/
structure HasTexts (provider : Provider) (payload : Fields) (username email name : String) :
    Prop where
  username : Names payload provider.nameKeys username
  email : IsText payload "email" email
  name : IsText payload "name" name

/-- The record that a rejected profile leaves in place of an earlier one. -/
inductive Leaves (payload : Fields) (user : User) : Provider → User → Prop
  | loginMissing (hblank : ∀ key ∈ Provider.github.nameKeys, ¬HasText payload key) :
      Leaves payload user .github user
  | identityMissing {name : String} (hblank : ∀ key ∈ Provider.oidc.nameKeys, ¬HasText payload key)
      (hname : IsText payload "name" name) :
      Leaves payload user .oidc { user with email := "", name }
  | id {provider : Provider} {username email name : String} {count : Nat}
      (htexts : HasTexts provider payload username email name)
      (h : Stops .number payload ["id"] count) :
      Leaves payload user provider { user with username, email, name }
  | createdOn {provider : Provider} {username email name : String} {n : Int} {count : Nat}
      (htexts : HasTexts provider payload username email name)
      (hid : Finds .number payload ["id"] n) (h : Stops .time payload provider.createdKeys count) :
      Leaves payload user provider { user with username, email, name, id := n }
  | lastUpdate {provider : Provider} {username email name : String} {n m : Int} {count : Nat}
      (htexts : HasTexts provider payload username email name)
      (hid : Finds .number payload ["id"] n)
      (hcreatedOn : Finds .time payload provider.createdKeys m)
      (h : Stops .time payload provider.updatedKeys count) :
      Leaves payload user provider { user with username, email, name, id := n, createdOn := m }

/-! ### What is left -/

/-- A profile that names nobody has been taken over as far as its name is tested late. -/
theorem leaves_of_unnamed (user : User) (h : username? provider payload = none) :
    Leaves payload user provider (provider.mapProfile payload user).user := by
  have hblank := username?_eq_none_iff.mp h
  cases provider with
  | github =>
    have hempty : (text payload "login").isEmpty = true := by
      rw [String.isEmpty_iff, text_eq_empty_iff]
      exact hblank "login" (by decide)
    simp only [Provider.mapProfile, mapGithub, hempty, if_true]
    exact .loginMissing hblank
  | oidc =>
    have hempty : ∀ key ∈ Provider.oidc.nameKeys, text payload key = "" :=
      fun key hkey ↦ text_eq_empty_iff.mpr (hblank key hkey)
    have hemail := hempty "email" (by decide)
    have hnobody : (firstOf (text payload "preferred_username") (text payload "email")
        (text payload "sub")).isEmpty = true := by
      rw [hemail, hempty "preferred_username" (by decide), hempty "sub" (by decide)]
      rfl
    simp only [Provider.mapProfile, mapOpenId, hnobody, if_true]
    rw [hemail]
    exact .identityMissing hblank (isText_text payload "name")

/-- A profile that breaks off has been taken over up to the row of digits that cannot be read. -/
theorem leaves_of_named {username : String} {problem : Problem}
    (h : username? provider payload = some username)
    (hproblem : (provider.mapProfile payload user).problem = some problem) :
    Leaves payload user provider (provider.mapProfile payload user).user := by
  have htexts : HasTexts provider payload username (text payload "email") (text payload "name") :=
    ⟨names_of_find? h, isText_text payload "email", isText_text payload "name"⟩
  have hid := isResult_integer payload "id"
  have hcreatedOn := isResult_epoch payload provider.createdKeys
  have hlastUpdate := isResult_epoch payload provider.updatedKeys
  rw [mapProfile_of_named user h] at hproblem ⊢
  generalize integer payload "id" = id at hid hproblem ⊢
  generalize epoch payload provider.createdKeys = createdOn at hcreatedOn hproblem ⊢
  generalize epoch payload provider.updatedKeys = lastUpdate at hlastUpdate hproblem ⊢
  rcases id with ⟨first, f | n⟩
  · obtain ⟨count, hstops, -⟩ := hid
    exact .id htexts hstops
  rcases createdOn with ⟨second, f | m⟩
  · obtain ⟨count, hstops, -⟩ := hcreatedOn
    exact .createdOn htexts hid hstops
  rcases lastUpdate with ⟨third, f | k⟩
  · obtain ⟨count, hstops, -⟩ := hlastUpdate
    exact .lastUpdate htexts hid hcreatedOn hstops
  · cases hproblem

theorem leaves_of_problem {problem : Problem}
    (h : (provider.mapProfile payload user).problem = some problem) :
    Leaves payload user provider (provider.mapProfile payload user).user := by
  rcases hname : username? provider payload with _ | username
  · exact leaves_of_unnamed user hname
  · exact leaves_of_named hname h

/-! ### Records that are kept -/

/-- What a profile says in front of a row of digits that cannot be read is on the record already. -/
structure Repeats (provider : Provider) (payload : Fields) (user : User) : Prop where
  texts : HasTexts provider payload user.username user.email user.name
  id : ∀ n, Finds .number payload ["id"] n → n = user.id
  createdOn : ∀ n m, Finds .number payload ["id"] n →
    Finds .time payload provider.createdKeys m → m = user.createdOn

theorem HasTexts.not_blank {username email name : String}
    (h : HasTexts provider payload username email name) :
    ¬∀ key ∈ provider.nameKeys, ¬HasText payload key := by
  intro hblank
  obtain ⟨key, hkey, htext⟩ := h.username.exists_hasText
  exact hblank key hkey htext

theorem HasTexts.unique {username email name username' email' name' : String}
    (h : HasTexts provider payload username email name)
    (h' : HasTexts provider payload username' email' name') :
    username = username' ∧ email = email' ∧ name = name' :=
  ⟨h.username.unique h'.username, h.email.unique h'.email, h.name.unique h'.name⟩

/-- Only a record that had no address and the same display name is left as it was. -/
theorem Leaves.eq_iff_of_blank (h : Leaves payload user provider left)
    (hblank : ∀ key ∈ provider.nameKeys, ¬HasText payload key) :
    left = user ↔ (provider = .oidc → user.email = "" ∧ IsText payload "name" user.name) := by
  cases h with
  | loginMissing _ => simp
  | @identityMissing name _ hname =>
    rcases user with ⟨username, email, name', id, createdOn, lastUpdate, memberships⟩
    have hsame : IsText payload "name" name' ↔ name = name' :=
      ⟨hname.unique, fun h ↦ h ▸ hname⟩
    simp [hsame, eq_comm]
  | id htexts _ | createdOn htexts _ _ | lastUpdate htexts _ _ _ =>
    exact absurd hblank htexts.not_blank

/-- Only a record that repeats what the profile says up to the row of digits is left as it was. -/
theorem Leaves.eq_iff_of_named (h : Leaves payload user provider left)
    (hnamed : ¬∀ key ∈ provider.nameKeys, ¬HasText payload key) :
    left = user ↔ Repeats provider payload user := by
  rcases user with ⟨username, email, name, id, createdOn, lastUpdate, memberships⟩
  cases h with
  | loginMissing hblank | identityMissing hblank _ => exact absurd hblank hnamed
  | id htexts hstops =>
    constructor
    · intro h
      cases h
      exact ⟨htexts, fun _ hn ↦ absurd hn hstops.not_finds,
        fun _ _ hn ↦ absurd hn hstops.not_finds⟩
    · intro h
      obtain ⟨rfl, rfl, rfl⟩ := htexts.unique h.texts
      rfl
  | createdOn htexts hid hstops =>
    constructor
    · intro h
      cases h
      exact ⟨htexts, fun _ hn ↦ hn.unique hid, fun _ _ _ hm ↦ absurd hm hstops.not_finds⟩
    · intro h
      obtain ⟨rfl, rfl, rfl⟩ := htexts.unique h.texts
      obtain rfl := h.id _ hid
      rfl
  | lastUpdate htexts hid hcreatedOn _ =>
    constructor
    · intro h
      cases h
      exact ⟨htexts, fun _ hn ↦ hn.unique hid, fun _ _ _ hm ↦ hm.unique hcreatedOn⟩
    · intro h
      obtain ⟨rfl, rfl, rfl⟩ := htexts.unique h.texts
      obtain rfl := h.id _ hid
      obtain rfl := h.createdOn _ _ hid hcreatedOn
      rfl

/-! ### Rejections -/

/-- A rejected profile leaves the record as described, which is the earlier one exactly in these
cases: if nothing names the user, the name is tested before anything is taken over, or the record
had no address and the display name of the profile; if a row of digits cannot be read, the record
repeats what the profile says up to that row. -/
theorem mapProfile_rejected (provider : Provider) (payload : Fields) (user : User) :
    let mapped := provider.mapProfile payload user
    (∀ problem, mapped.problem = some problem → Leaves payload user provider mapped.user) ∧
      (∀ f, mapped.problem = some (.failure f) →
        (mapped.user = user ↔
          (provider = .oidc → user.email = "" ∧ IsText payload "name" user.name))) ∧
      (∀ f, mapped.problem = some (.fault f) →
        (mapped.user = user ↔ Repeats provider payload user)) := by
  refine ⟨fun _ ↦ leaves_of_problem, fun f hfailure ↦ ?_, fun f hfault ↦ ?_⟩
  · exact (leaves_of_problem hfailure).eq_iff_of_blank (problem_eq_failure_iff.mp hfailure).2
  · obtain ⟨key, hkey, htext⟩ := (problem_eq_fault_iff.mp hfault).1
    exact (leaves_of_problem hfault).eq_iff_of_named fun hblank ↦ hblank key hkey htext

/-- A profile without a name of the user takes the address off the record. One with an overlong
number puts its own user into the place of another. -/
theorem mapProfile_leftovers :
    (Provider.oidc.mapProfile [("name", .str "Nobody")]
        { username := "jdoe", email := "jdoe@x.example", name := "J. Doe" }).problem =
      some (.failure .identityMissing) ∧
    (Provider.oidc.mapProfile [("name", .str "Nobody")]
        { username := "jdoe", email := "jdoe@x.example", name := "J. Doe" }).user =
      { username := "jdoe", email := "", name := "Nobody" } ∧
    (Provider.github.mapProfile [("login", .str "octocat"),
        ("id", .str (String.ofList (List.replicate 4301 '1')))] { username := "jdoe" }).problem =
      some (.fault (.numeralTooLong 4301)) ∧
    (Provider.github.mapProfile [("login", .str "octocat"),
        ("id", .str (String.ofList (List.replicate 4301 '1')))] { username := "jdoe" }).user ≠
      { username := "jdoe" } := by
  have hname : username? .github [("login", .str "octocat"),
      ("id", .str (String.ofList (List.replicate 4301 '1')))] = some "octocat" := by
    decide +kernel
  have hproblem := problem_of_breaks { username := "jdoe" } hname
    (.id (.here (isOverlong_replicate (by decide))))
  refine ⟨by decide +kernel, by decide +kernel, hproblem, fun hsame ↦ ?_⟩
  have hnamed := names_of_find? hname
  obtain ⟨key, hkey, htext⟩ := hnamed.exists_hasText
  have hrepeats := ((leaves_of_problem hproblem).eq_iff_of_named
    fun hblank ↦ hblank key hkey htext).mp hsame
  exact absurd (hrepeats.texts.username.unique hnamed) (by decide)

end Admission.Profile
