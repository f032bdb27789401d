import Admission.Exchange.Script
import Admission.Probe.Question
import Admission.Proofs.Url.Queries

/-!
# Requests with the access token

An access token goes out as the query of a request and in no other way (`make_withToken`). What the
request's answer means does not depend on the token (`receive_withToken`), and neither does the
public address that a redirect leads to (`publicAddress_withToken`), whatever the redirect's target
is; a request for that address has no pair by the token's name (`lacksToken_of_make`). All this is
up to the limit on the length of addresses: a token can be so long that an address is refused for
it.
-/

set_option autoImplicit false
set_option relaxedAutoImplicit false

namespace Admission

/-- The text of an address, or one of its parts, is too long. -/
def Fault.isTooLong : Fault → Bool
  | address d => d.isTooLong
  | _ => false

theorem FailsBy.liftDefect {α : Type} {x : Except Url.Defect α}
    (h : FailsBy Url.Defect.isTooLong x) : FailsBy Fault.isTooLong (Request.liftDefect x) := by
  obtain ⟨d, rfl, hd⟩ := h
  exact ⟨.address d, rfl, hd⟩

/-- The query that carries an access token. -/
def Probe.tokenQuery (token : String) : List Char :=
  Url.Form.encodePair tokenParameter.toList token.toList

theorem Probe.isPlainQuery_tokenQuery (token : String) : Url.IsPlainQuery (tokenQuery token) :=
  Url.isPlainQuery_encodePair _ _

namespace Url

/-- The address with an access token as its query. -/
def withToken (u : Url) (token : String) : Url :=
  { u with query := some (Probe.tokenQuery token) }

/-- The query of the address has no pair by the name of the access token. -/
def LacksToken (u : Url) : Prop :=
  ∀ p ∈ Form.decode (u.query.getD []), p.1 ≠ Probe.tokenParameter.toList

/-! ### Completing the target of a redirect -/

/-- A target with a scheme has the host of the base if it lacks one. -/
def hostTarget (base target : Url) : Except Defect Url :=
  if !target.scheme.isEmpty && target.host.isEmpty then target.withHost base.host else .ok target

/-- A target that does not stand on its own is resolved against the base. -/
def joinTarget (base target : Url) : Except Defect Url :=
  if target.isAbsolute then .ok target else base.join target

/-- A target without a fragment has the one of the base. -/
def addFragment (base target : Url) : Except Defect Url :=
  if (base.fragment.getD []).isEmpty || !(target.fragment.getD []).isEmpty then .ok target
  else target.withFragment base.fragment

theorem completeTarget_eq (base target : Url) : Request.completeTarget base target =
    hostTarget base target >>= fun hosted ↦ joinTarget base hosted >>= addFragment base := by
  unfold Request.completeTarget hostTarget joinTarget
  split
  · rcases target.withHost base.host with d | hosted
    · rfl
    · simp only [bind, Except.bind]
      split <;> rfl
  · simp only [bind, Except.bind]
    split <;> rfl

theorem normal_of_hostTarget {base target v : Url} (hbase : Normal base) (htarget : Normal target)
    (h : hostTarget base target = .ok v) : Normal v := by
  unfold hostTarget at h
  split at h
  · exact normal_of_withHost hbase.host h
  · cases h
    exact htarget

theorem inherits_joinTarget {base target : Url} (hbase : Normal base) (htarget : Normal target) :
    ∃ fixed inherits,
      Inherits (fun q ↦ joinTarget { base with query := some q } target) fixed inherits := by
  by_cases habsolute : target.isAbsolute = true
  · refine ⟨.ok target, false, fun v hv ↦ ?_, fun q _ ↦ .inr (if_pos habsolute)⟩
    cases hv
    exact htarget
  · simp only [joinTarget, if_neg habsolute]
    exact inherits_join hbase htarget

theorem Inherits.addFragment {result : List Char → Except Defect Url} {fixed : Except Defect Url}
    {inherits : Bool} (h : Inherits result fixed inherits) (base : Url) :
    ∃ fixed', Inherits (fun q ↦ result q >>= base.addFragment) fixed' inherits := by
  rcases fixed with d | v
  · refine ⟨.error d, nofun, fun q hq ↦ ?_⟩
    rcases h.eq q hq with hlong | heq
    · exact .inl (hlong.bind _)
    · exact .inr (congrArg (· >>= _) heq)
  · have hsame (q : List Char) : (carry inherits q v).fragment = v.fragment := by
      cases inherits <;> rfl
    by_cases hkept : ((base.fragment.getD []).isEmpty || !(v.fragment.getD []).isEmpty) = true
    · refine ⟨.ok v, h.normal, fun q hq ↦ ?_⟩
      rcases h.eq q hq with hlong | heq
      · exact .inl (hlong.bind _)
      · refine .inr ((congrArg (· >>= _) heq).trans (if_pos ?_))
        rwa [hsame]
    · obtain ⟨fixed', hadded⟩ := h.withFragment base.fragment
      refine ⟨fixed', hadded.normal, fun q hq ↦ ?_⟩
      rcases h.eq q hq with hlong | heq
      · exact .inl (hlong.bind _)
      · have hadds : result q >>= base.addFragment =
            result q >>= (·.withFragment base.fragment) := by
          rw [heq]
          refine if_neg ?_
          rwa [hsame]
        show FailsBy _ (result q >>= base.addFragment) ∨ result q >>= base.addFragment = _
        rw [hadds]
        exact hadded.eq q hq

/-- Completing the target of a redirect passes the query of the base on, or does not use it. -/
theorem inherits_completeTarget {base target : Url} (hbase : Normal base)
    (htarget : Normal target) :
    ∃ fixed inherits,
      Inherits (fun q ↦ Request.completeTarget { base with query := some q } target) fixed
        inherits := by
  have hunfold (q : List Char) : Request.completeTarget { base with query := some q } target =
      hostTarget base target >>= fun hosted ↦
        joinTarget { base with query := some q } hosted >>= base.addFragment :=
    completeTarget_eq _ target
  simp only [hunfold]
  rcases hhosted : hostTarget base target with d | hosted
  · exact ⟨.error d, false, nofun, fun q _ ↦ .inr rfl⟩
  · obtain ⟨fixed, inherits, hjoined⟩ :=
      inherits_joinTarget hbase (normal_of_hostTarget hbase htarget hhosted)
    obtain ⟨fixed', hadded⟩ := hjoined.addFragment base
    exact ⟨fixed', inherits, hadded⟩

end Url

namespace Request

/-- The request with an access token as its query. -/
def withToken (r : Request) (token : String) : Request :=
  { r with url := r.url.withToken token }

/-! ### What is made, received and followed with a token -/

/-- The authorization of a request for an address: credentials inside the address replace the given
one. -/
def authorizationFor (u : Url) (authorization : Option String) : Option String :=
  match u.credentials with
  | some (name, password) => some (basicHeader name password)
  | none => authorization

/-- A request with an access token is a request into which the token was put, unless an address is
too long. -/
theorem make_withToken (address : String) (authorization : Option String) :
    ∃ fixed : Except Fault Request, (∀ r, fixed = .ok r → r.url.Normal) ∧ ∀ token,
      FailsBy Fault.isTooLong (make address (some (Probe.tokenParameter, token)) authorization) ∨
        make address (some (Probe.tokenParameter, token)) authorization =
          fixed.map (·.withToken token) := by
  unfold make
  rcases liftDefect (Url.parse address.toList >>= Url.asRequested) with f | u
  · exact ⟨.error f, nofun, fun token ↦ .inr rfl⟩
  · rcases checkAuthorization authorization with f | -
    · exact ⟨.error f, nofun, fun token ↦ .inr rfl⟩
    · have hinherits := Url.inherits_withQuery u
      rcases hfixed : u.withQuery none with d | v
      · refine ⟨.error (.address d), nofun, fun token ↦ ?_⟩
        rcases hinherits.eq _ (Probe.isPlainQuery_tokenQuery token) with hlong | heq
        · exact .inl (hlong.liftDefect.bind _)
        · right
          show liftDefect (u.withQuery (some (Probe.tokenQuery token))) >>= _ = _
          rw [heq, hfixed]
          rfl
      · refine ⟨.ok ⟨v, authorizationFor v authorization⟩, fun r hr ↦ ?_, fun token ↦ ?_⟩
        · cases hr
          exact hinherits.normal v hfixed
        · rcases hinherits.eq _ (Probe.isPlainQuery_tokenQuery token) with hlong | heq
          · exact .inl (hlong.liftDefect.bind _)
          · right
            show liftDefect (u.withQuery (some (Probe.tokenQuery token))) >>= _ = _
            rw [heq, hfixed]
            rfl

/-- What an answer means does not depend on the access token of the request. -/
theorem receive_withToken {r : Request} (hr : r.url.Normal) (answer : Answer) :
    ∃ fixed, ∀ token, FailsBy Fault.isTooLong (receive (r.withToken token) answer) ∨
      receive (r.withToken token) answer = fixed := by
  unfold receive
  split
  · exact ⟨_, fun token ↦ .inr rfl⟩
  · rename_i response
    split
    · rename_i target _ _
      unfold checkRedirect
      rcases htarget : Url.parse target.toList with d | u
      · exact ⟨_, fun token ↦ .inr rfl⟩
      · obtain ⟨fixed, inherits, hcompleted⟩ :=
          Url.inherits_completeTarget hr (Url.normal_of_parse htarget)
        refine ⟨liftDefect (fixed.map fun _ ↦ .response response), fun token ↦ ?_⟩
        rcases hcompleted.eq _ (Probe.isPlainQuery_tokenQuery token) with ⟨d, hlong, hd⟩ | heq
        · left
          refine ⟨.address d, ?_, hd⟩
          simp only [withToken, Url.withToken, hlong]
          rfl
        · right
          simp only [withToken, Url.withToken, heq]
          rcases fixed with d | v <;> rfl
    · exact ⟨_, fun token ↦ .inr rfl⟩

end Request

namespace Probe

/-- The public address that a redirect leads to does not depend on the access token, whatever the
target of the redirect is. -/
theorem publicAddress_withToken {asked : Url} (hasked : asked.Normal) (target : String) :
    ∃ fixed, ∀ token,
      FailsBy Url.Defect.isTooLong (publicAddress (asked.withToken token) target) ∨
        publicAddress (asked.withToken token) target = fixed := by
  unfold publicAddress
  rcases htarget : Url.parse target.toList with d | u
  · exact ⟨.error d, fun token ↦ .inr rfl⟩
  · obtain ⟨fixed, inherits, hjoined⟩ := Url.inherits_join hasked (Url.normal_of_parse htarget)
    obtain ⟨fixed', hremoved⟩ := hjoined.withoutParameter tokenParameter.toList
    exact ⟨fixed', fun token ↦ hremoved token.toList⟩

theorem normal_of_publicAddress {asked u : Url} {target : String}
    (h : publicAddress asked target = .ok u) : u.Normal := by
  obtain ⟨v, -, h⟩ := bind_eq_ok h
  obtain ⟨w, -, h⟩ := bind_eq_ok h
  exact Url.normal_of_withQuery h

/-- A public address has no pair by the name of the access token. -/
theorem lacksToken_of_publicAddress {asked u : Url} {target : String}
    (h : publicAddress asked target = .ok u) : u.LacksToken := by
  obtain ⟨v, -, h⟩ := bind_eq_ok h
  obtain ⟨w, -, h⟩ := bind_eq_ok h
  exact Url.ne_name_of_withoutParameter h

end Probe

/-- A request for an address in normal form has its query. -/
theorem Request.query_make {u : Url} (hu : u.Normal) {authorization : Option String} {r : Request}
    (h : Request.make u.text none authorization = .ok r) : r.url.query = u.query := by
  obtain ⟨v, hv, h⟩ := bind_eq_ok h
  obtain ⟨-, -, h⟩ := bind_eq_ok h
  obtain ⟨w, hw, h⟩ := bind_eq_ok h
  cases hw
  cases h
  rcases hlift : Url.parse u.text.toList >>= Url.asRequested with d | v'
  · rw [hlift] at hv
    cases hv
  · rw [hlift] at hv
    cases hv
    obtain ⟨read, hread, hasked⟩ := bind_eq_ok hlift
    rw [Url.text, String.toList_ofList] at hread
    rw [Url.query_asRequested (Url.normal_of_parse hread) hasked, Url.query_parse hu hread]

/-- A request for a public address has no pair by the name of the access token. -/
theorem lacksToken_of_make {asked u : Url} {target : String} {authorization : Option String}
    {r : Request} (hu : Probe.publicAddress asked target = .ok u)
    (hr : Request.make u.text none authorization = .ok r) : r.url.LacksToken := by
  unfold Url.LacksToken
  rw [Request.query_make (Probe.normal_of_publicAddress hu) hr]
  exact Probe.lacksToken_of_publicAddress hu

/-! ### Requests that differ in the token -/

/-- The same request with either of two access tokens, or the same one without any. -/
inductive Request.SameBut (token₁ token₂ : String) : Request → Request → Prop
  | carrying (r : Request) (hr : r.url.Normal) :
    SameBut token₁ token₂ (r.withToken token₁) (r.withToken token₂)
  | lacking (r : Request) (hr : r.url.LacksToken) : SameBut token₁ token₂ r r

/-- A provider that answers by addresses up to their queries, and by credentials. -/
def Responder.IgnoresQueries {σ : Type} (responder : Responder σ) : Prop :=
  ∀ time state r₁ r₂, Script.key r₁.url = Script.key r₂.url →
    r₁.authorization = r₂.authorization →
      responder.respond time state r₁ = responder.respond time state r₂

/-- An address is known by what stands in front of its query. -/
theorem Script.key_withToken {u : Url} (hu : u.Normal) (token : String) :
    key (u.withToken token) = String.ofList u.front := by
  have hfront : ∀ c ∈ u.front, (c != '?') = true := fun c hc ↦
    bne_iff_ne.mpr (Url.isInner_iff.mp (hu.front c hc)).1
  have hchars : (u.withToken token).chars =
      u.front ++ '?' :: (Probe.tokenQuery token ++ Url.marked '#' u.fragment) := by
    rw [Url.chars_eq, List.append_assoc]
    rfl
  rw [key, hchars, List.takeWhile_append_of_pos hfront, List.takeWhile_cons_of_neg (by simp),
    List.append_nil]

/-- Such a provider cannot tell requests apart that differ in the access token only. -/
theorem Responder.IgnoresQueries.blind {σ : Type} {responder : Responder σ}
    (h : responder.IgnoresQueries) (token₁ token₂ : String) :
    ∀ time state r₁ r₂, Request.SameBut token₁ token₂ r₁ r₂ →
      responder.respond time state r₁ = responder.respond time state r₂ := by
  intro time state r₁ r₂ hsame
  cases hsame with
  | carrying r hr =>
    refine h time state _ _ ?_ rfl
    exact (Script.key_withToken hr token₁).trans (Script.key_withToken hr token₂).symm
  | lacking r hr => rfl

theorem Script.ignoresQueries_responder : responder.IgnoresQueries :=
  fun _ _ _ _ hkey _ ↦ congrArg (answer _) hkey

end Admission
