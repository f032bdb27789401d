import Admission.Exchange.Script
import Admission.Probe.Question
import Admission.Proofs.Exchange.Attempts
import Admission.Proofs.Probe.Token
import Admission.Proofs.Url.Dots
import Admission.Settings.Configuration

/-!
# The addresses of questions

With the default templates, a question about a user and a group goes to a path of which each of
their names is to be one segment. A name is encoded so that it has no slash and is read back as it
was, so no name adds segments to the path. But dots are not encoded, and segments of one or two dots
are removed before anything is sent: the first request goes to the path of the question exactly if
none of the names is one of these (`ask_firstRequest`). With two dots for a user name, the question
about an organization itself is taken for the one about a member (`ask_firstRequest_dots`).
-/

set_option autoImplicit false
set_option relaxedAutoImplicit false

namespace Admission

/-! ### Filling templates -/

namespace Template

/-- Pieces whose texts together are some text. -/
def Fills (bindings : Bindings) (pieces : List Piece) (text : List Char) : Prop :=
  (pieces.mapM (fillPiece bindings (fillWithin bindings 1))).map List.flatten = .ok text

variable {bindings : Bindings}

theorem Fills.append {pieces more : List Piece} {text text' : List Char}
    (h : Fills bindings pieces text) (h' : Fills bindings more text') :
    Fills bindings (pieces ++ more) (text ++ text') := by
  unfold Fills at *
  rw [List.mapM_append]
  rcases hfirst : pieces.mapM (fillPiece bindings (fillWithin bindings 1)) with d | parts
  · rw [hfirst] at h
    cases h
  · rcases hmore : more.mapM (fillPiece bindings (fillWithin bindings 1)) with d | parts'
    · rw [hmore] at h'
      cases h'
    · rw [hfirst] at h
      rw [hmore] at h'
      cases h
      cases h'
      exact congrArg Except.ok List.flatten_append

theorem fills_plain (text : List Char) : Fills bindings (text.map .plain) text := by
  induction text with
  | nil => rfl
  | cons c text ih =>
    have hfirst : Fills bindings [.plain c] [c] := rfl
    exact hfirst.append ih

/-- A field without a conversion and a layout has the text of its value. -/
theorem fills_field {name value : List Char} (h : lookUp bindings name = .ok value) :
    Fills bindings [.field ⟨name, none, []⟩] value := by
  have hpiece : fillPiece bindings (fillWithin bindings 1) (.field ⟨name, none, []⟩) =
      .ok value := by
    simp only [fillPiece, h]
    rfl
  unfold Fills
  rw [List.mapM_cons, hpiece]
  exact congrArg Except.ok (List.append_nil value)

end Template

/-- The names of a group, the one of a team behind the one of its organization. -/
def Group.names : Group → List String
  | organization org => [org]
  | team org name => [org, name]

namespace Probe

open Text Url

/-! ### Names as segments -/

/-- What is encoded for a segment stands for itself in a path and holds no slash. -/
theorem keepsInPath_of_mem_segment {s : String} {c : Char} (h : c ∈ segment s) :
    keepsInPath c = true ∧ c ≠ '/' := by
  have hunreserved (d : Char) (hd : isUnreserved d = true) : keepsInPath d = true ∧ d ≠ '/' :=
    forall_ascii (P := fun d ↦ isUnreserved d = true → keepsInPath d = true ∧ d ≠ '/')
      (by decide +kernel) (lt_of_isUnreserved hd) hd
  exact forall_percentEncode (P := fun d ↦ keepsInPath d = true ∧ d ≠ '/')
    (fun d _ hd ↦ hunreserved d hd) (by decide) (by decide) c h

/-- A name is read back from its segment. -/
theorem percentDecode_segment (s : String) : percentDecode (segment s) = s.toList :=
  percentDecode_percentEncode (by decide) s.toList

theorem segment_inj {s t : String} (h : segment s = segment t) : s = t := by
  rw [← String.toList_inj, ← percentDecode_segment s, h, percentDecode_segment]

/-- A name becomes a segment of dots only if it is one. -/
theorem isDots_segment_iff {s : String} : IsDots (segment s) ↔ s = "." ∨ s = ".." := by
  constructor
  · rintro (h | h)
    · exact .inl (segment_inj h)
    · exact .inr (segment_inj h)
  · rintro (rfl | rfl)
    · exact .inl rfl
    · exact .inr rfl

/-! ### Paths of questions -/

/-- The segments of the path for a user and a group, the first one being empty. -/
def questionSegments (username : String) : Group → List (List Char)
  | .organization org => [[], "orgs".toList, segment org, "members".toList, segment username]
  | .team org team =>
    [[], "orgs".toList, segment org, "teams".toList, segment team, "memberships".toList,
      segment username]

/-- The path of the question whether a user belongs to a group. -/
def questionPath (username : String) : Group → List Char
  | .organization org => "/orgs/".toList ++ segment org ++ "/members/".toList ++ segment username
  | .team org team =>
    "/orgs/".toList ++ segment org ++ "/teams/".toList ++ segment team ++
      "/memberships/".toList ++ segment username

theorem questionPath_eq (username : String) (group : Group) :
    questionPath username group = ['/'].intercalate (questionSegments username group) := by
  cases group
  · unfold questionPath questionSegments
    simp [List.intercalate_cons_cons]
  · unfold questionPath questionSegments
    simp [List.intercalate_cons_cons]

/-- The words of the paths, and the empty segment in front of them. -/
def pathWords : List (List Char) :=
  [[], "orgs".toList, "members".toList, "teams".toList, "memberships".toList]

/-- A segment of the path is one of the words or the segment of a name. -/
theorem mem_questionSegments {username : String} {group : Group} {s : List Char}
    (h : s ∈ questionSegments username group) :
    s ∈ pathWords ∨ ∃ name ∈ username :: group.names, s = segment name := by
  cases group with
  | organization org =>
    simp only [questionSegments, List.mem_cons, List.not_mem_nil, or_false] at h
    rcases h with rfl | rfl | rfl | rfl | rfl
    · exact .inl (by decide)
    · exact .inl (by decide)
    · exact .inr ⟨org, by simp [Group.names], rfl⟩
    · exact .inl (by decide)
    · exact .inr ⟨username, List.mem_cons_self, rfl⟩
  | team org team =>
    simp only [questionSegments, List.mem_cons, List.not_mem_nil, or_false] at h
    rcases h with rfl | rfl | rfl | rfl | rfl | rfl | rfl
    · exact .inl (by decide)
    · exact .inl (by decide)
    · exact .inr ⟨org, by simp [Group.names], rfl⟩
    · exact .inl (by decide)
    · exact .inr ⟨team, by simp [Group.names], rfl⟩
    · exact .inl (by decide)
    · exact .inr ⟨username, List.mem_cons_self, rfl⟩

theorem segment_mem_questionSegments {username name : String} {group : Group}
    (h : name ∈ username :: group.names) : segment name ∈ questionSegments username group := by
  cases group with
  | organization org =>
    simp only [Group.names, List.mem_cons, List.not_mem_nil, or_false] at h
    rcases h with rfl | rfl <;> simp [questionSegments]
  | team org team =>
    simp only [Group.names, List.mem_cons, List.not_mem_nil, or_false] at h
    rcases h with rfl | rfl | rfl <;> simp [questionSegments]

/-- Each name is one segment of the path, and the path has no others but fixed ones. -/
theorem splitOn_questionPath (username : String) (group : Group) :
    (questionPath username group).splitOn '/' = questionSegments username group := by
  rw [questionPath_eq]
  refine List.splitOn_intercalate '/' (fun s hs ↦ ?_) (by cases group <;> simp [questionSegments])
  rcases mem_questionSegments hs with hfixed | ⟨name, -, rfl⟩
  · exact (by decide : ∀ s ∈ pathWords, '/' ∉ s) s hfixed
  · exact fun hslash ↦ (keepsInPath_of_mem_segment hslash).2 rfl

/-- The path of a question stays as it is exactly if no name consists of one or two dots. -/
theorem withoutDots_questionPath_iff {username : String} {group : Group} :
    withoutDots (questionPath username group) = questionPath username group ↔
      ∀ name ∈ username :: group.names, name ≠ "." ∧ name ≠ ".." := by
  rw [withoutDots_eq_self_iff, splitOn_questionPath]
  constructor
  · intro h name hname
    have hdots := h _ (segment_mem_questionSegments hname)
    rwa [isDots_segment_iff, not_or] at hdots
  · intro h s hs
    rcases mem_questionSegments hs with hfixed | ⟨name, hname, rfl⟩
    · exact (by decide : ∀ s ∈ pathWords, ¬IsDots s) s hfixed
    · rw [isDots_segment_iff, not_or]
      exact h name hname

/-- The path of a question begins with a slash. -/
theorem questionPath_rooted (username : String) (group : Group) :
    ∃ path, questionPath username group = '/' :: path := by
  cases group
  · exact ⟨_, rfl⟩
  · exact ⟨_, rfl⟩

theorem keepsInPath_questionPath {username : String} {group : Group} :
    ∀ c ∈ questionPath username group, keepsInPath c = true := by
  have hword (word : String) (h : word.toList.all keepsInPath = true) (name : String)
      {before : List Char} (hbefore : ∀ c ∈ before, keepsInPath c = true) :
      ∀ c ∈ before ++ word.toList ++ segment name, keepsInPath c = true := by
    intro c hc
    rcases List.mem_append.mp hc with hc | hc
    · exact (List.mem_append.mp hc).elim (hbefore c) (List.all_eq_true.mp h c)
    · exact (keepsInPath_of_mem_segment hc).1
  have hnone : ∀ c ∈ ([] : List Char), keepsInPath c = true := nofun
  cases group with
  | organization org =>
    exact hword "/members/" (by decide) username (hword "/orgs/" (by decide) org hnone)
  | team org team =>
    exact hword "/memberships/" (by decide) username
      (hword "/teams/" (by decide) team (hword "/orgs/" (by decide) org hnone))

/-! ### Requests for a path -/

/-- Scheme and host of the default addresses. -/
def origin : List Char := "https://api.github.com".toList

/-- The parts of an address at the default host. -/
def hostedParts (path : List Char) (query : Option (List Char)) : Parts :=
  { scheme := "https".toList, authority := "api.github.com".toList, path, query, fragment := none }

/-- The address of a path at the default host. -/
def hosted (path : List Char) (query : Option (List Char)) : Url :=
  { scheme := "https".toList, userinfo := [], host := "api.github.com".toList, port := none, path
    query, fragment := none }

theorem isInner_of_keepsInPath {c : Char} (h : keepsInPath c = true) : isInner c = true := by
  unfold isInner
  rw [Bool.and_eq_true, bne_iff_ne, bne_iff_ne]
  constructor
  · rintro rfl
    cases h
  · rintro rfl
    cases h

theorem isUnprintable_of_keepsInPath {c : Char} (h : keepsInPath c = true) :
    isUnprintable c = false := by
  unfold keepsInPath at h
  rw [Bool.and_eq_true] at h
  exact isUnprintable_of_keepsInQuery h.1

/-- The parts of an address at the default host are put together without its segments of dots. -/
theorem ofParts_hosted {path : List Char} (hrooted : path = [] ∨ path.head? = some '/')
    (hpath : ∀ c ∈ path, keepsInPath c = true) {query : Option (List Char)}
    (hquery : ∀ q, query = some q → ∀ c ∈ q, keepsInQuery c = true) :
    ofParts (hostedParts path query) = .ok (hosted (withoutDots path) query) := by
  have hcut : cutHostPort "api.github.com".toList = ([], "api.github.com".toList, []) := by
    decide
  have hscheme : lowerChars "https".toList = "https".toList := by decide +kernel
  have hhost : normalHost "api.github.com".toList = .ok "api.github.com".toList := by
    decide +kernel
  have hcheck : checkPath path true true = .ok () := by
    rcases hrooted with rfl | hrooted
    · rfl
    · simp [checkPath, hrooted]
  have hkept : percentEncode keepsInPath (withoutDots path) = withoutDots path :=
    percentEncode_of_keeps fun c hc ↦ hpath c ((sublist_withoutDots path).subset hc)
  have hsame : query.map (percentEncode keepsInQuery) = query := by
    rcases query with _ | q
    · rfl
    · exact congrArg some (percentEncode_of_keeps (hquery q rfl))
  unfold ofParts hostedParts
  simp only [hcut, hscheme, Option.getD_none, hhost, hsame]
  show (do
    checkPath path true true
    return hosted (percentEncode keepsInPath (withoutDots path)) query) = _
  rw [hcheck, hkept]
  rfl

/-- The text of an address at the default host is cut where its path begins. -/
theorem cut_hosted {path : List Char} (hpath : ∀ c ∈ '/' :: path, keepsInPath c = true) :
    cut (origin ++ '/' :: path) = hostedParts ('/' :: path) none := by
  have hscheme : cutScheme (origin ++ '/' :: path) =
      ("https".toList, "//api.github.com".toList ++ '/' :: path) := by
    have hspan : (origin ++ '/' :: path).span isSchemeChar =
        ("https".toList, ':' :: ("//api.github.com".toList ++ '/' :: path)) :=
      span_append_cons (List.all_eq_true.mp (by decide : "https".toList.all isSchemeChar = true))
        rfl
    unfold cutScheme
    rw [hspan]
    rfl
  have hauthority : cutAuthority ("//api.github.com".toList ++ '/' :: path) =
      ("api.github.com".toList, '/' :: path) :=
    span_append_cons (List.all_eq_true.mp (by decide)) rfl
  have hinner : (('/' :: path).span fun c ↦ !(['?', '#'].contains c)) = ('/' :: path, []) := by
    refine span_eq_self fun c hc ↦ ?_
    have hmarks := isInner_iff.mp (isInner_of_keepsInPath (hpath c hc))
    simp [hmarks.1, hmarks.2]
  unfold cut
  simp only [hscheme, hauthority, hinner]
  rfl

theorem parse_hosted {path : List Char} (hpath : ∀ c ∈ '/' :: path, keepsInPath c = true)
    (hlength : (origin ++ '/' :: path).length ≤ lengthLimit) :
    parse (origin ++ '/' :: path) = .ok (hosted (withoutDots ('/' :: path)) none) := by
  have hprintable : (origin ++ '/' :: path).findIdx? isUnprintable = none := by
    refine List.findIdx?_eq_none_iff.mpr fun c hc ↦ isUnprintable_of_keepsInPath ?_
    rcases List.mem_append.mp hc with hc | hc
    · exact List.all_eq_true.mp (by decide : origin.all keepsInPath = true) c hc
    · exact hpath c hc
  unfold parse
  rw [if_neg (Nat.not_lt.mpr hlength), hprintable, cut_hosted hpath]
  exact ofParts_hosted (.inr rfl) hpath nofun

/-- A part passes its check if it has its form and is neither too long nor unprintable. -/
theorem checkPart_ok {part : Part} {cs : List Char} (hlength : cs.length ≤ lengthLimit)
    (hprintable : ∀ c ∈ cs, isUnprintable c = false) (hform : hasForm part cs = true) :
    checkPart part cs = .ok () := by
  unfold checkPart
  rw [if_neg (Nat.not_lt.mpr hlength), List.findIdx?_eq_none_iff.mpr hprintable]
  exact if_pos hform

/-- The address of a path with an access token: the path is looked at again and stays as it is. -/
theorem withParameter_hosted {path : List Char}
    (hpath : ∀ c ∈ '/' :: path, keepsInPath c = true) (hlength : ('/' :: path).length ≤ lengthLimit)
    (token : String) :
    (hosted (withoutDots ('/' :: path)) none).withParameter tokenParameter.toList token.toList =
      checkPart .query (tokenQuery token) >>= fun _ ↦
        .ok (hosted (withoutDots ('/' :: path)) (some (tokenQuery token))) := by
  have hsub := sublist_withoutDots ('/' :: path)
  have hkept : ∀ c ∈ withoutDots ('/' :: path), keepsInPath c = true :=
    fun c hc ↦ hpath c (hsub.subset hc)
  have hcheck : checkPart .path (withoutDots ('/' :: path)) = .ok () := by
    refine checkPart_ok (hsub.length_le.trans hlength)
      (fun c hc ↦ isUnprintable_of_keepsInPath (hkept c hc)) ?_
    simp only [hasForm, Bool.not_eq_true', List.any_eq_false]
    intro c hc
    have hmarks := isInner_iff.mp (isInner_of_keepsInPath (hkept c hc))
    simp [hmarks.1, hmarks.2]
  have hparts : ofParts (hostedParts (withoutDots ('/' :: path)) (some (tokenQuery token))) =
      .ok (hosted (withoutDots ('/' :: path)) (some (tokenQuery token))) := by
    have hquery : ∀ q, some (tokenQuery token) = some q → ∀ c ∈ q, keepsInQuery c = true := by
      rintro q ⟨⟩
      exact (isPlainQuery_tokenQuery token).2
    have h := ofParts_hosted (withoutDots_rooted path) hkept hquery
    rwa [withoutDots_withoutDots] at h
  show assemble (hostedParts (withoutDots ('/' :: path)) (some (tokenQuery token))) = _
  unfold assemble
  rw [hparts]
  show (checkPart .path (withoutDots ('/' :: path)) >>= fun _ ↦
    checkPart .query (tokenQuery token) >>= fun _ ↦ _) = _
  rw [hcheck]
  rfl

theorem credentials_hosted (path : List Char) (query : Option (List Char)) :
    (hosted path query).credentials = none := by
  have hempty : percentDecode [] = [] := by
    rw [percentDecode, percentOctets, decodeUtf8Lossy]
  show (if (percentDecode []).isEmpty && (percentDecode []).isEmpty then none
    else some (percentDecode [], percentDecode [])) = none
  rw [hempty]
  rfl

/-- The request with an access token for a path at the default host. -/
def hostedRequest (path : List Char) (token : String) : Request :=
  { url := hosted (withoutDots path) (some (tokenQuery token)) }

/-- A request for an address at the default host is refused for the length of its query only. -/
theorem make_hosted {path : List Char} (hpath : ∀ c ∈ '/' :: path, keepsInPath c = true)
    (hlength : (origin ++ '/' :: path).length ≤ lengthLimit) (token : String) :
    Request.make (String.ofList (origin ++ '/' :: path)) (some (tokenParameter, token)) none =
      Request.liftDefect (checkPart .query (tokenQuery token)) >>= fun _ ↦
        .ok (hostedRequest ('/' :: path) token) := by
  have hrooted : ('/' :: path).length ≤ lengthLimit := by
    rw [List.length_append] at hlength
    omega
  unfold Request.make
  rw [String.toList_ofList, parse_hosted hpath hlength]
  show (Request.liftDefect ((hosted (withoutDots ('/' :: path)) none).withParameter
    tokenParameter.toList token.toList) >>= fun url ↦ _) = _
  rw [withParameter_hosted hpath hrooted]
  rcases checkPart .query (tokenQuery token) with d | _
  · rfl
  · show Except.ok (Request.mk (hosted (withoutDots ('/' :: path)) (some (tokenQuery token)))
      (Request.authorizationFor _ none)) = _
    rw [Request.authorizationFor, credentials_hosted]
    rfl

/-! ### Questions by the templates -/

/-- The address of the first query about a group. -/
def questionAddress (settings : ProviderSettings) (username : String) :
    Group → Except Fault String
  | .organization org => address settings.userOrgUrl [("org", org), ("username", username)]
  | .team org name =>
    address settings.userTeamUrl [("org", org), ("team", name), ("username", username)]

/-- What follows the reply to the first query about a group. -/
def followUp (settings : ProviderSettings) (username url : String) :
    Group → Query.Reply → Process (Except Problem Bool)
  | .organization org, reply =>
    if reply.response.isRedirect then askPublicly settings username org url reply
    else readOrganization username org url reply.response
  | .team org name, reply => readTeam username org name url reply.response

/-- A question is a query, and what follows its reply. -/
theorem ask_eq (settings : ProviderSettings) (user : User) (token : Tokens) (group : Group) :
    ask settings user token group =
      match questionAddress settings user.username group with
      | .error f => .faulty f
      | .ok url => (Query.get settings url (some (tokenParameter, token.access))).andThen
          (followUp settings user.username url group) := by
  cases group <;> rfl

/-- The templates for questions are the default ones. -/
structure HasDefaultAddresses (settings : ProviderSettings) : Prop where
  organization : settings.userOrgUrl = Configuration.defaults.userOrgUrl
  team : settings.userTeamUrl = Configuration.defaults.userTeamUrl

theorem address_eq {template : String} {values : List (String × String)} {text : List Char}
    {bindings : Template.Bindings}
    (hbindings : (values.map fun v ↦ (v.1.toList, segment v.2)) = bindings)
    (h : Template.Fills bindings (Template.pieces template.toList) text) :
    address template values = .ok (String.ofList text) := by
  have hfill : Template.fill bindings template.toList = .ok text := h
  unfold address
  rw [hbindings, hfill]

open Template in
theorem questionAddress_default {settings : ProviderSettings} (h : HasDefaultAddresses settings)
    (username : String) (group : Group) :
    questionAddress settings username group =
      .ok (String.ofList (origin ++ questionPath username group)) := by
  cases group with
  | organization org =>
    have hpieces : pieces settings.userOrgUrl.toList =
        (origin ++ "/orgs/".toList).map .plain ++ [.field ⟨"org".toList, none, []⟩] ++
          "/members/".toList.map .plain ++ [.field ⟨"username".toList, none, []⟩] := by
      rw [h.organization]
      rfl
    have hfills : Fills [("org".toList, segment org), ("username".toList, segment username)]
        (pieces settings.userOrgUrl.toList)
          (origin ++ "/orgs/".toList ++ segment org ++ "/members/".toList ++
            segment username) := by
      rw [hpieces]
      exact (((fills_plain _).append (fills_field rfl)).append (fills_plain _)).append
        (fills_field rfl)
    have haddress : address settings.userOrgUrl [("org", org), ("username", username)] = _ :=
      address_eq rfl hfills
    refine haddress.trans ?_
    unfold questionPath
    simp only [List.append_assoc]
  | team org name =>
    have hpieces : pieces settings.userTeamUrl.toList =
        (origin ++ "/orgs/".toList).map .plain ++ [.field ⟨"org".toList, none, []⟩] ++
          "/teams/".toList.map .plain ++ [.field ⟨"team".toList, none, []⟩] ++
            "/memberships/".toList.map .plain ++ [.field ⟨"username".toList, none, []⟩] := by
      rw [h.team]
      rfl
    have hfills : Fills [("org".toList, segment org), ("team".toList, segment name),
          ("username".toList, segment username)] (pieces settings.userTeamUrl.toList)
          (origin ++ "/orgs/".toList ++ segment org ++ "/teams/".toList ++ segment name ++
            "/memberships/".toList ++ segment username) := by
      rw [hpieces]
      exact (((((fills_plain _).append (fills_field rfl)).append (fills_plain _)).append
        (fills_field rfl)).append (fills_plain _)).append (fills_field rfl)
    have haddress : address settings.userTeamUrl
        [("org", org), ("team", name), ("username", username)] = _ := address_eq rfl hfills
    refine haddress.trans ?_
    unfold questionPath
    simp only [List.append_assoc]

/-! ### The first request of a question -/

/-- Neither the address of a question nor the query with the access token is too long. -/
structure Fits (username : String) (group : Group) (token : String) : Prop where
  address : (origin ++ questionPath username group).length ≤ lengthLimit
  query : (tokenQuery token).length ≤ lengthLimit

/-- The first request of a question is made, unless something is too long. -/
theorem make_question (username : String) (group : Group) (token : String) :
    Fits username group token ∧
        Request.make (String.ofList (origin ++ questionPath username group))
            (some (tokenParameter, token)) none =
          .ok (hostedRequest (questionPath username group) token) ∨
      ¬Fits username group token ∧
        FailsBy Fault.isTooLong
          (Request.make (String.ofList (origin ++ questionPath username group))
            (some (tokenParameter, token)) none) := by
  obtain ⟨path, hpath⟩ := questionPath_rooted username group
  have hkept := @keepsInPath_questionPath username group
  by_cases haddress : (origin ++ questionPath username group).length ≤ lengthLimit
  · have hmake : Request.make (String.ofList (origin ++ questionPath username group))
        (some (tokenParameter, token)) none =
          Request.liftDefect (checkPart .query (tokenQuery token)) >>= fun _ ↦
            .ok (hostedRequest (questionPath username group) token) := by
      rw [hpath] at haddress hkept ⊢
      exact make_hosted hkept haddress token
    rw [hmake]
    by_cases hquery : (tokenQuery token).length ≤ lengthLimit
    · left
      have hprintable : ∀ c ∈ tokenQuery token, keepsInQuery c = true :=
        (isPlainQuery_tokenQuery token).2
      rcases checkPart_query hprintable with hlong | hok
      · rw [checkPart, if_neg (Nat.not_lt.mpr hquery)] at hlong
        split at hlong
        · cases hlong
        · split at hlong <;> cases hlong
      · rw [hok]
        exact ⟨⟨haddress, hquery⟩, rfl⟩
    · right
      refine ⟨fun hfits ↦ hquery hfits.query, .address (.partTooLong .query), ?_, rfl⟩
      rw [checkPart, if_pos (Nat.not_le.mp hquery)]
      rfl
  · right
    refine ⟨fun hfits ↦ haddress hfits.address, .address .tooLong, ?_, rfl⟩
    unfold Request.make parse
    rw [String.toList_ofList, if_pos (Nat.not_le.mp haddress)]
    rfl

variable {σ : Type}

section Default

variable {settings : ProviderSettings} {user : User} {token : Tokens} {group : Group}

/-- A question that is not too long begins with its request. -/
theorem ask_eq_ask (h : HasDefaultAddresses settings)
    (hfits : Fits user.username group token.access) :
    ∃ next, ask settings user token group =
      .ask (hostedRequest (questionPath user.username group) token.access) next := by
  rcases make_question user.username group token.access with ⟨-, hmake⟩ | ⟨hlong, -⟩
  · obtain ⟨next, hget⟩ := Query.get_eq_ask settings hmake
    rw [ask_eq, questionAddress_default h]
    dsimp only
    rw [hget]
    exact ⟨_, rfl⟩
  · exact absurd hfits hlong

/-- A question that is too long sends nothing. -/
theorem ask_eq_faulty (h : HasDefaultAddresses settings)
    (hlong : ¬Fits user.username group token.access) :
    ∃ f, f.isTooLong = true ∧ ask settings user token group = .faulty f := by
  rcases make_question user.username group token.access with ⟨hfits, -⟩ | ⟨-, f, hmake, hf⟩
  · exact absurd hfits hlong
  · refine ⟨f, hf, ?_⟩
    rw [ask_eq, questionAddress_default h]
    dsimp only
    rw [Query.get_eq_faulty settings hmake]
    rfl

end Default

/-- With the default templates, a question sends its first request to the path for the user and the
group, in which each name is one segment, but segments of dots are removed. So the request goes to
that path exactly if no name consists of one or two dots. Only a question that is too long sends
nothing. -/
theorem ask_firstRequest {settings : ProviderSettings} (h : HasDefaultAddresses settings)
    (user : User) (token : Tokens) (group : Group) (responder : Responder σ) (last : Option Rat)
    (now : Rat) (state : σ) :
    let path := questionPath user.username group
    let requests := ((ask settings user token group).run responder last now state).trace.requests
    (requests = [] ↔ ¬Fits user.username group token.access) ∧
      (∀ time request, requests.head? = some (time, request) →
        time = now ∧ request.url = hosted (withoutDots path) (some (tokenQuery token.access)) ∧
          (request.url.path = path ↔
            ∀ name ∈ user.username :: group.names, name ≠ "." ∧ name ≠ "..")) ∧
      path.splitOn '/' = questionSegments user.username group ∧
      ∀ name, percentDecode (segment name) = name.toList := by
  intro path requests
  have hsplit := splitOn_questionPath user.username group
  by_cases hfits : Fits user.username group token.access
  · obtain ⟨next, hask⟩ := ask_eq_ask h hfits
    have hhead : requests.head? = some (now, hostedRequest path token.access) := by
      simp only [requests, hask]
      exact Process.head?_requests_run_ask ..
    refine ⟨iff_of_false (fun hnone ↦ ?_) (not_not.mpr hfits), ?_, hsplit, percentDecode_segment⟩
    · rw [hnone] at hhead
      cases hhead
    · rintro time request hfirst
      cases hhead.symm.trans hfirst
      exact ⟨rfl, rfl, withoutDots_questionPath_iff⟩
  · obtain ⟨f, -, hask⟩ := ask_eq_faulty h hfits
    have hnone : requests = [] := by
      simp only [requests, hask]
      rfl
    refine ⟨iff_of_true hnone hfits, fun time request hfirst ↦ ?_, hsplit, percentDecode_segment⟩
    rw [hnone] at hfirst
    cases hfirst

/-- Slashes and blanks in names become part of a segment, and so do dots beside other characters. -/
theorem ask_firstRequest_encoded :
    let user : User := { username := "a b" }
    let group : Group := .team "o.g" "x/../y"
    let requests := ((ask {} user { access := "t" } group).run Script.responder none 0
      []).trace.requests
    HasDefaultAddresses {} ∧ Fits user.username group "t" ∧
      requests.head?.map (fun r ↦ r.2.url.path) =
        some "/orgs/o.g/teams/x%2F..%2Fy/memberships/a%20b".toList := by
  intro user group requests
  have hdefault : HasDefaultAddresses {} := ⟨rfl, rfl⟩
  have hfits : Fits user.username group "t" := ⟨by decide +kernel, by decide +kernel⟩
  obtain ⟨hnone, hfirst, -⟩ :=
    ask_firstRequest hdefault user { access := "t" } group Script.responder none 0 []
  obtain ⟨⟨time, request⟩, rest, hrequests⟩ :=
    List.exists_cons_of_ne_nil fun hempty ↦ hnone.mp hempty hfits
  have hpath := (hfirst time request (by rw [hrequests]; rfl)).2.2.mpr (by decide +kernel)
  refine ⟨hdefault, hfits, ?_⟩
  simp only [requests, hrequests, List.head?_cons, Option.map_some, hpath]
  decide +kernel

/-- A provider that tells about an organization and denies that a user is its member. -/
def publicScript : Script := [
  { url := "https://api.github.com/orgs/org", first := ⟨.response { status := 200 }, 0, 0⟩ },
  { url := "https://api.github.com/orgs/org/members/.."
    first := ⟨.response { status := 404 }, 0, 0⟩ }]

/-- A user whose name consists of two dots is taken for a member of any organization that the
provider tells about: the question about the member becomes one about the organization. -/
theorem ask_firstRequest_dots :
    let run := (ask {} { username := ".." } { access := "t" } (.organization "org")).run
      Script.responder none 0 publicScript
    run.trace.requests.map (fun r ↦ r.2.url.path) = ["/orgs/org".toList] ∧
      questionPath ".." (.organization "org") = "/orgs/org/members/..".toList ∧
      run.ending.result? = some (.ok true) := by
  decide +kernel

end Probe

end Admission
