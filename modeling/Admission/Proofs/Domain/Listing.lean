import Admission.Proofs.Decision
import Admission.Proofs.Domain.Labels
import Admission.Proofs.Text.Case
import Admission.Proofs.TextList

/-!
# Listed domains

A listed domain is proper if it is not empty, does not begin with a point, and has no blank at an
end. What is listed of a text is proper exactly if something else than a blank stands behind the
points in front of the text (`isProper_listedDomain_iff`); a text of points only lists the empty
domain. `evaluate_build_domains` says whom a whitelist of domains lets pass, and when it is only
users within a proper domain. For the other direction a listed domain that is not proper is given to
a user as the domain of their mail address (`ofEmail?_behind`): whatever stands in front of the last
at sign does not matter (`ofEmail?_append`).
-/

set_option autoImplicit false
set_option relaxedAutoImplicit false

namespace Admission

namespace EmailDomain

/-! ### Domains of mail addresses -/

/-- What stands behind the last at sign holds none. -/
theorem at_notMem_of_afterAt? {cs domain : List Char} (h : afterAt? cs = some domain) :
    '@' ∉ domain := by
  unfold afterAt? at h
  split at h
  · cases h
    intro hmem
    have hkept := List.mem_takeWhile_imp (List.mem_reverse.mp hmem)
    simp at hkept
  · cases h

/-- The domain of a mail address is what stands behind its last at sign, in lower case. -/
theorem ofEmail?_eq_some {email domain : String} (h : ofEmail? email = some domain) :
    ∃ cs, afterAt? (Text.trimChars email.toList) = some cs ∧ cs ≠ [] ∧
      domain = String.ofList (Text.lowerChars cs) := by
  unfold ofEmail? at h
  rcases hbehind : afterAt? (Text.trimChars email.toList) with _ | cs
  · rw [hbehind] at h
    cases h
  · rw [hbehind] at h
    dsimp only at h
    split at h
    · cases h
    · rename_i hne
      exact ⟨cs, rfl, by simpa using hne, (Option.some.inj h).symm⟩

theorem ofEmail?_ne_empty {email domain : String} (h : ofEmail? email = some domain) :
    domain ≠ "" := by
  obtain ⟨cs, -, hne, rfl⟩ := ofEmail?_eq_some h
  intro hempty
  have hchars := congrArg String.toList hempty
  rw [String.toList_ofList] at hchars
  exact hne (Text.lowerChars_eq_nil_iff.mp hchars)

theorem at_mem_lowerChars_iff {cs : List Char} : '@' ∈ Text.lowerChars cs ↔ '@' ∈ cs := by
  have hany := Text.any_lowerChars Text.ofMarks_at cs
  rw [Bool.eq_iff_iff] at hany
  simpa using hany

theorem at_notMem_of_ofEmail? {email domain : String} (h : ofEmail? email = some domain) :
    '@' ∉ domain.toList := by
  obtain ⟨cs, hbehind, -, rfl⟩ := ofEmail?_eq_some h
  rw [String.toList_ofList, at_mem_lowerChars_iff]
  exact at_notMem_of_afterAt? hbehind

/-- Only what stands behind the last at sign counts. -/
theorem afterAt?_append {front domain : List Char} (h : '@' ∉ domain) :
    afterAt? (front ++ '@' :: domain) = some domain := by
  have htaken : (domain.reverse ++ '@' :: front.reverse).takeWhile (· != '@') = domain.reverse := by
    rw [List.takeWhile_append_of_pos]
    · simp
    · intro c hc
      rw [bne_iff_ne]
      rintro rfl
      exact h (List.mem_reverse.mp hc)
  unfold afterAt?
  rw [if_pos (by simp), List.reverse_append, List.reverse_cons, List.append_assoc,
    List.singleton_append, htaken, List.reverse_reverse]

/-- Blanks are trimmed on either side of an at sign. -/
theorem exists_trimChars_append (front domain : List Char) :
    ∃ kept, Text.trimChars (front ++ '@' :: domain) =
      kept ++ '@' :: Text.dropWhileEnd Text.isBlank domain := by
  have hat : Text.isBlank '@' = false := by decide
  have hend (kept : List Char) : Text.dropWhileEnd Text.isBlank (kept ++ '@' :: domain) =
      kept ++ '@' :: Text.dropWhileEnd Text.isBlank domain := by
    unfold Text.dropWhileEnd
    rw [List.reverse_append, List.reverse_cons, List.append_assoc, List.singleton_append,
      List.dropWhile_append]
    split
    · rename_i hblank
      rw [List.isEmpty_iff] at hblank
      simp [hblank, hat]
    · simp
  unfold Text.trimChars
  rw [List.dropWhile_append]
  split
  · have hfirst : ('@' :: domain).dropWhile Text.isBlank = [] ++ '@' :: domain :=
      List.dropWhile_cons_of_neg (by simp [hat])
    rw [hfirst]
    exact ⟨[], hend []⟩
  · exact ⟨front.dropWhile Text.isBlank, hend _⟩

/-- The domain of a mail address is what stands behind its last at sign, without blanks at the end,
in lower case. -/
theorem ofEmail?_append {front domain : String} (h : '@' ∉ domain.toList) :
    ofEmail? (front ++ "@" ++ domain) =
      if Text.dropWhileEnd Text.isBlank domain.toList = [] then none
      else some (String.ofList
        (Text.lowerChars (Text.dropWhileEnd Text.isBlank domain.toList))) := by
  have hkept : '@' ∉ Text.dropWhileEnd Text.isBlank domain.toList := fun hmem ↦
    h ((List.rdropWhile_prefix ..).subset hmem)
  have hchars : (front ++ "@" ++ domain).toList = front.toList ++ '@' :: domain.toList := by
    simp
  obtain ⟨kept, htrim⟩ := exists_trimChars_append front.toList domain.toList
  unfold ofEmail?
  rw [hchars, htrim, afterAt?_append hkept]
  simp only [List.isEmpty_iff]

/-- A text without at signs and without a blank at its end is the domain of some mail address. -/
theorem ofEmail?_behind {cs : List Char} (hne : cs ≠ []) (hat : '@' ∉ cs)
    (hlast : cs.getLast?.map Text.isBlank ≠ some true) :
    ofEmail? (String.ofList ('a' :: '@' :: cs)) = some (String.ofList (Text.lowerChars cs)) := by
  have hemail : String.ofList ('a' :: '@' :: cs) = "a" ++ "@" ++ String.ofList cs :=
    String.toList_inj.mp (by simp)
  have hkept : Text.dropWhileEnd Text.isBlank cs = cs := by
    rw [Text.dropWhileEnd_eq_rdropWhile, Text.rdropWhile_eq_self_iff_getLast?]
    exact hlast
  rw [hemail, ofEmail?_append (by rwa [String.toList_ofList]), String.toList_ofList, hkept,
    if_neg hne]

end EmailDomain

namespace Whitelist

open EmailDomain

/-! ### Proper domains -/

/-- A listed domain that is more than points and blanks at its ends. -/
structure IsProper (domain : String) : Prop where
  ne_empty : domain ≠ ""
  head?_ne : domain.toList.head? ≠ some '.'
  trim_eq : Text.trim domain = domain

/-- Something else than a blank stands behind the points in front of a text. -/
def namesDomain (s : String) : Bool :=
  match s.toList.dropWhile (· == '.') with
  | [] => false
  | c :: _ => !Text.isBlank c

theorem toList_listedDomain (s : String) :
    (listedDomain s).toList = Text.lowerChars (s.toList.dropWhile (· == '.')) := by
  unfold listedDomain
  rw [String.toList_ofList, Text.dropWhile_lowerChars]

/-- What stands behind the points in front of a tidy text does not end with a blank. -/
theorem getLast?_dropWhile_of_isTidy {s : String} (hs : TextList.IsTidy s) :
    (s.toList.dropWhile (· == '.')).getLast?.map Text.isBlank ≠ some true := by
  have hlast := (Text.trimChars_eq_self_iff.mp (Text.trim_eq_self_iff.mp hs.trim_eq)).2
  obtain ⟨points, hpoints⟩ := List.dropWhile_suffix (· == '.') (l := s.toList)
  rcases hrest : s.toList.dropWhile (· == '.') with _ | ⟨c, rest⟩
  · simp
  · rw [← hpoints, hrest, List.getLast?_append] at hlast
    simpa [List.getLast?_eq_some_getLast (List.cons_ne_nil c rest)] using hlast

/-- A tidy text lists a proper domain exactly if it names one. -/
theorem isProper_listedDomain_iff {s : String} (hs : TextList.IsTidy s) :
    IsProper (listedDomain s) ↔ namesDomain s = true := by
  have hlast := getLast?_dropWhile_of_isTidy hs
  have hfirst := List.head?_dropWhile_not (· == '.') s.toList
  have hchars := toList_listedDomain s
  unfold namesDomain
  rcases hrest : s.toList.dropWhile (· == '.') with _ | ⟨c, rest⟩
  · rw [hrest] at hchars
    have hempty : listedDomain s = "" := String.toList_inj.mp hchars
    simp only [Bool.false_eq_true, iff_false]
    intro hproper
    exact hproper.ne_empty hempty
  · rw [hrest] at hchars hfirst hlast
    have hblank := Text.head?_lowerChars Text.ofMarks_isBlank (c :: rest)
    have hpoint := Text.head?_lowerChars Text.ofMarks_point (c :: rest)
    have hend := Text.getLast?_lowerChars Text.ofMarks_isBlank (c :: rest)
    rw [← hchars] at hblank hpoint hend
    have htrim : Text.trim (listedDomain s) = listedDomain s ↔ Text.isBlank c = false := by
      rw [Text.trim_eq_self_iff, Text.trimChars_eq_self_iff, hblank, hend]
      simp [hlast]
    constructor
    · intro hproper
      simpa using htrim.mp hproper.trim_eq
    · intro hc
      refine ⟨?_, ?_, htrim.mpr (by simpa using hc)⟩
      · intro hempty
        rw [hempty] at hpoint
        simp at hpoint
      · intro hdot
        rw [hdot] at hpoint
        rw [List.head?_cons] at hfirst
        simp [hfirst] at hpoint

/-- The point lies within itself and the empty domain only. -/
theorem isWithin_point {d : String} (h : isWithin "." d = true) : d = "" ∨ d = "." := by
  unfold isWithin at h
  rw [Bool.or_eq_true, beq_iff_eq, List.isSuffixOf_iff_suffix] at h
  rcases h with hsame | hsuffix
  · exact .inr hsame.symm
  · have hpoint : ".".toList = ['.'] := by decide
    have hlength := hsuffix.length_le
    rw [hpoint, List.length_cons, List.length_singleton] at hlength
    have hnone : d.toList = [] := List.length_eq_zero_iff.mp (by omega)
    exact .inl (String.toList_inj.mp hnone)

/-- A listed domain without at signs covers the domain of some mail address, which lies within no
proper domain but those around the listed one. -/
theorem exists_ofEmail?_within {s : String} (hs : TextList.IsTidy s)
    (hat : '@' ∉ (listedDomain s).toList) :
    ∃ email domain, ofEmail? email = some domain ∧ isWithin domain (listedDomain s) = true ∧
      ∀ d, IsProper d → isWithin domain d = true → isWithin (listedDomain s) d = true := by
  have hchars := toList_listedDomain s
  rcases hrest : s.toList.dropWhile (· == '.') with _ | ⟨c, rest⟩
  · -- The empty domain covers whatever ends with a point, such as the point itself.
    rw [hrest] at hchars
    have hempty : listedDomain s = "" := String.toList_inj.mp hchars
    refine ⟨"a@.", ".", by decide +kernel, by rw [hempty]; decide, ?_⟩
    intro d hd hwithin
    rcases isWithin_point hwithin with rfl | rfl
    · exact absurd rfl hd.ne_empty
    · exact absurd rfl hd.head?_ne
  · have hlast := getLast?_dropWhile_of_isTidy hs
    rw [hrest] at hchars hlast
    rw [hchars, at_mem_lowerChars_iff] at hat
    have hdomain := ofEmail?_behind (List.cons_ne_nil c rest) hat hlast
    rw [← hchars, String.ofList_toList] at hdomain
    exact ⟨_, _, hdomain, isWithin_self _, fun _ _ hwithin ↦ hwithin⟩

/-! ### Whom listed domains let pass -/

section Domains

variable {whitelist : Whitelist} (hall : whitelist.allowAll = false)
  (husers : whitelist.users = []) (hteams : whitelist.teams = [])
include hall husers hteams

/-- Where nothing but domains is listed, a user may pass if their domain lies within a listed
one. -/
theorem allowed_byDomains_iff {user : User} {facts : List (String × Bool)} :
    (evaluate user whitelist facts).allowed = true ↔
      ∃ domain, ofEmail? user.email = some domain ∧
        ∃ d ∈ whitelist.domains, isWithin domain d = true := by
  rw [allowed_evaluate_iff, isCovered_iff]
  simp only [hall, husers, hteams, Bool.false_eq_true, List.not_mem_nil, and_false, false_and,
    exists_false, false_or, or_false]
  constructor
  · rintro ⟨domain, hdomain, -, hcovers⟩
    exact ⟨domain, hdomain, hcovers⟩
  · rintro ⟨domain, hdomain, hcovers⟩
    exact ⟨domain, hdomain, ofEmail?_ne_empty hdomain, hcovers⟩

/-- Whoever may pass lies within a proper listed domain, exactly if each listed domain is proper,
lies within a proper one, or has an at sign in it. -/
theorem forall_allowed_iff
    (htidy : ∀ d ∈ whitelist.domains, ∃ s, TextList.IsTidy s ∧ d = listedDomain s) :
    (∀ user facts, (evaluate user whitelist facts).allowed = true →
        ∃ domain, ofEmail? user.email = some domain ∧
          ∃ d ∈ whitelist.domains, IsProper d ∧ isWithin domain d = true) ↔
      ∀ d ∈ whitelist.domains, IsProper d ∨ '@' ∈ d.toList ∨
        ∃ e ∈ whitelist.domains, IsProper e ∧ isWithin d e = true := by
  constructor
  · intro hsafe d hd
    by_cases hat : '@' ∈ d.toList
    · exact .inr (.inl hat)
    · obtain ⟨s, hs, rfl⟩ := htidy d hd
      obtain ⟨email, domain, hdomain, hwithin, hothers⟩ := exists_ofEmail?_within hs hat
      have hallowed : (evaluate { email } whitelist []).allowed = true :=
        (allowed_byDomains_iff hall husers hteams).mpr
          ⟨domain, hdomain, listedDomain s, hd, hwithin⟩
      obtain ⟨_, hsame, e, he, hproper, hcovers⟩ := hsafe _ _ hallowed
      rw [hdomain] at hsame
      cases hsame
      exact .inr (.inr ⟨e, he, hproper, hothers e hproper hcovers⟩)
  · intro hdomains user facts hallowed
    obtain ⟨domain, hdomain, d, hd, hwithin⟩ :=
      (allowed_byDomains_iff hall husers hteams).mp hallowed
    refine ⟨domain, hdomain, ?_⟩
    rcases hdomains d hd with hproper | hat | ⟨e, he, hproper, hcovers⟩
    · exact ⟨d, hd, hproper, hwithin⟩
    · have hmem : '@' ∈ domain.toList := by
        rcases isWithin_iff_append.mp hwithin with rfl | ⟨front, rfl⟩
        · exact hat
        · simp [hat]
      exact absurd hmem (at_notMem_of_ofEmail? hdomain)
    · exact ⟨e, he, hproper, isWithin_trans hwithin hcovers⟩

end Domains

theorem domains_of_build {allowAll : Bool} {users domains teams : Value} {whitelist : Whitelist}
    (h : build allowAll users domains teams = .ok whitelist) :
    ∃ texts, TextList.ofValue domains = .ok texts ∧ whitelist.allowAll = allowAll ∧
      whitelist.domains = texts.map listedDomain := by
  unfold build at h
  obtain ⟨names, -, h⟩ := bind_eq_ok h
  obtain ⟨texts, htexts, h⟩ := bind_eq_ok h
  obtain ⟨entries, -, h⟩ := bind_eq_ok h
  cases h
  exact ⟨texts, htexts, rfl, rfl⟩

/-- What is built of domains only lists them in lower case and without points in front; a user may
pass if the domain of their mail address is listed, or ends in a point and a listed one. Nobody else
than users within proper domains may pass, exactly if each listed domain is proper, lies within a
proper one, or has an at sign in it. -/
theorem evaluate_build_domains {users domains teams : Value} {whitelist : Whitelist}
    (hbuild : build false users domains teams = .ok whitelist) (husers : whitelist.users = [])
    (hteams : whitelist.teams = []) :
    ∃ texts, TextList.ofValue domains = .ok texts ∧
      whitelist.domains = texts.map listedDomain ∧
      (∀ s ∈ texts, IsProper (listedDomain s) ↔ namesDomain s = true) ∧
      (∀ user facts, (evaluate user whitelist facts).allowed = true ↔
        ∃ domain, ofEmail? user.email = some domain ∧
          ∃ d ∈ whitelist.domains, domain = d ∨ ∃ front, domain = front ++ "." ++ d) ∧
      ((∀ user facts, (evaluate user whitelist facts).allowed = true →
          ∃ domain, ofEmail? user.email = some domain ∧
            ∃ d ∈ whitelist.domains, IsProper d ∧
              (domain = d ∨ ∃ front, domain = front ++ "." ++ d)) ↔
        ∀ d ∈ whitelist.domains, IsProper d ∨ '@' ∈ d.toList ∨
          ∃ e ∈ whitelist.domains, IsProper e ∧ (d = e ∨ ∃ front, d = front ++ "." ++ e)) := by
  obtain ⟨texts, htexts, hall, hlisted⟩ := domains_of_build hbuild
  have htidy := TextList.tidy_ofValue htexts
  have hdomains : ∀ d ∈ whitelist.domains, ∃ s, TextList.IsTidy s ∧ d = listedDomain s := by
    intro d hd
    rw [hlisted] at hd
    obtain ⟨s, hs, rfl⟩ := List.mem_map.mp hd
    exact ⟨s, htidy s hs, rfl⟩
  simp only [← isWithin_iff_append]
  exact ⟨texts, htexts, hlisted, fun s hs ↦ isProper_listedDomain_iff (htidy s hs),
    fun user facts ↦ allowed_byDomains_iff hall husers hteams,
    forall_allowed_iff hall husers hteams hdomains⟩

/-- A point among the domains lists the empty domain, within which lies whatever ends with a
point. -/
theorem evaluate_build_point :
    ∃ whitelist, build false .null (.list [.str "."]) .null = .ok whitelist ∧
      whitelist.users = [] ∧ whitelist.teams = [] ∧ whitelist.domains = [""] ∧
      (evaluate { username := "mallory", email := "mallory@evil.example." } whitelist []).allowed
        = true ∧
      ¬ ∃ d ∈ whitelist.domains, IsProper d := by
  have hbuild : build false .null (.list [.str "."]) .null = .ok { domains := [""] } := by
    decide +kernel
  refine ⟨_, hbuild, rfl, rfl, rfl, by decide +kernel, ?_⟩
  rintro ⟨d, hd, hproper⟩
  exact hproper.ne_empty (List.mem_singleton.mp hd)

/-- Of these two domains both are proper, so only users within them may pass. -/
theorem evaluate_build_domains_proper :
    ∃ whitelist, build false .null (.str ".Corp.Example, eu.org") .null = .ok whitelist ∧
      whitelist.domains = ["corp.example", "eu.org"] ∧
      ∀ user facts, (evaluate user whitelist facts).allowed = true →
        ∃ domain, ofEmail? user.email = some domain ∧
          ∃ d ∈ whitelist.domains, IsProper d ∧
            (domain = d ∨ ∃ front, domain = front ++ "." ++ d) := by
  have hbuild : build false .null (.str ".Corp.Example, eu.org") .null =
      .ok { domains := ["corp.example", "eu.org"] } := by
    decide +kernel
  obtain ⟨texts, -, -, -, -, hsafe⟩ := evaluate_build_domains hbuild rfl rfl
  refine ⟨_, hbuild, rfl, hsafe.mpr ?_⟩
  intro d hd
  left
  rcases List.mem_pair.mp hd with rfl | rfl
  · exact ⟨by decide, by decide, by decide +kernel⟩
  · exact ⟨by decide, by decide, by decide +kernel⟩

end Whitelist

end Admission
