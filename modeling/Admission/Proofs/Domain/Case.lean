import Admission.Proofs.Domain.Listing
import Admission.Proofs.Text.Letters
import Admission.Proofs.TextList.Leaves

/-!
# Domains in either case

A domain is brought into lower case at two places: where it is listed, and where it is taken from a
mail address. Both times this is done to the domain alone, and capital ASCII letters come to the
same there as small ones (`listedDomain_eq`, `ofEmail?_sameLetters`). So the rule on domains depends
neither on the case of such letters nor on what stands in front of the last at sign
(`evaluate_sameLetters`).
-/

set_option autoImplicit false
set_option relaxedAutoImplicit false

namespace Admission

open EmailDomain Text

/-! ### Mail addresses -/

/-- Mail addresses with the same letters behind the last at sign have the same domain. -/
theorem EmailDomain.ofEmail?_sameLetters {front front' domain domain' : String}
    (hat : '@' ∉ domain.toList) (h : SameLetters domain domain') :
    ofEmail? (front ++ "@" ++ domain) = ofEmail? (front' ++ "@" ++ domain') := by
  have hlower := h.lowerChars_dropWhileEnd
  have hnone : dropWhileEnd isBlank domain.toList = [] ↔
      dropWhileEnd isBlank domain'.toList = [] := by
    rw [← lowerChars_eq_nil_iff, hlower, lowerChars_eq_nil_iff]
  rw [ofEmail?_append hat, ofEmail?_append (mt h.at_mem_iff.mpr hat), hlower]
  simp only [hnone]

/-- Of mail addresses only the domain matters, and of listed domains only whether they cover it. -/
theorem evaluate_byDomain (user : User) (whitelist : Whitelist) {email email' : String}
    {domains domains' : List String} (hemail : ofEmail? email = ofEmail? email')
    (hcovered : isCovered (ofEmail? email') domains = isCovered (ofEmail? email') domains')
    (facts : List (String × Bool)) :
    evaluate { user with email } { whitelist with domains } facts =
      evaluate { user with email := email' } { whitelist with domains := domains' } facts := by
  unfold evaluate
  simp only [hemail, hcovered]

namespace Whitelist

/-! ### Listed domains -/

theorem listedDomain_eq {s t : String} (h : SameLetters s t) : listedDomain s = listedDomain t := by
  unfold listedDomain
  rw [h.lowerChars_eq]

/-- A list of domains covers a domain if one of its texts that are not blank does. -/
theorem isCovered_distinct_iff {domain : Option String} {listed : List String} :
    isCovered domain ((TextList.distinct listed).map listedDomain) = true ↔
      ∃ d, domain = some d ∧ d ≠ "" ∧
        ∃ s ∈ listed, trim s ≠ "" ∧ isWithin d (listedDomain (trim s)) = true := by
  rw [isCovered_iff]
  refine exists_congr fun d ↦ and_congr_right fun _ ↦ and_congr_right fun _ ↦ ?_
  simp [TextList.distinct, and_assoc]

theorem isCovered_sameLetters {domain : Option String} {listed listed' : List String}
    (h : List.Forall₂ SameLetters listed listed') :
    isCovered domain ((TextList.distinct listed).map listedDomain) =
      isCovered domain ((TextList.distinct listed').map listedDomain) := by
  have hexists (d : String) :
      (∃ s ∈ listed, trim s ≠ "" ∧ isWithin d (listedDomain (trim s)) = true) ↔
        ∃ s ∈ listed', trim s ≠ "" ∧ isWithin d (listedDomain (trim s)) = true := by
    induction h with
    | nil => simp
    | cons hsame _ ih =>
      simp only [List.mem_cons, exists_eq_or_imp, ih, ne_eq, hsame.trim.eq_empty_iff,
        listedDomain_eq hsame.trim]
  rw [Bool.eq_iff_iff, isCovered_distinct_iff, isCovered_distinct_iff]
  simp only [hexists]

theorem build_domains (allowAll : Bool) (users teams : Value) (listed : List String) :
    build allowAll users (.list (listed.map .str)) teams = do
      let users ← TextList.ofValue users
      let teams ← TextList.ofValue teams
      return { allowAll, users, teams
               domains := (TextList.distinct listed).map listedDomain } := by
  unfold build
  rw [TextList.ofValue_texts]
  rfl

/-- The rule on domains comes to the same for any two mail addresses whose domains, and any two
lists of domains whose members, differ in the case of ASCII letters at most, and so does the
decision as a whole. It lets a user pass if what stands behind the last at sign of their mail
address is not blank, and in lower case lies within one of the listed domains that are not blank. -/
theorem evaluate_sameLetters (front front' : String) {domain domain' : String}
    {listed listed' : List String} (hat : '@' ∉ domain.toList)
    (hdomain : SameLetters domain domain') (hlisted : List.Forall₂ SameLetters listed listed') :
    (∃ whitelist whitelist',
      build false .null (.list (listed.map .str)) .null = .ok whitelist ∧
      build false .null (.list (listed'.map .str)) .null = .ok whitelist' ∧
      isCovered (ofEmail? (front ++ "@" ++ domain)) whitelist.domains =
        isCovered (ofEmail? (front' ++ "@" ++ domain')) whitelist'.domains ∧
      (isCovered (ofEmail? (front ++ "@" ++ domain)) whitelist.domains = true ↔
        dropWhileEnd isBlank domain.toList ≠ [] ∧ ∃ s ∈ listed, trim s ≠ "" ∧
          isWithin (String.ofList (lowerChars (dropWhileEnd isBlank domain.toList)))
            (listedDomain (trim s)) = true)) ∧
    ∀ (allowAll : Bool) (users teams : Value) (user : User) (facts : List (String × Bool)),
      (build allowAll users (.list (listed.map .str)) teams).map
          (evaluate { user with email := front ++ "@" ++ domain } · facts) =
        (build allowAll users (.list (listed'.map .str)) teams).map
          (evaluate { user with email := front' ++ "@" ++ domain' } · facts) := by
  have hsame : ofEmail? (front ++ "@" ++ domain) = ofEmail? (front' ++ "@" ++ domain') :=
    ofEmail?_sameLetters hat hdomain
  constructor
  · refine ⟨_, _, build_domains false .null .null listed, build_domains false .null .null listed',
      ?_, ?_⟩
    · rw [hsame]
      exact isCovered_sameLetters hlisted
    · rw [isCovered_distinct_iff, ofEmail?_append hat]
      by_cases hnone : dropWhileEnd isBlank domain.toList = []
      · simp [hnone]
      · have hne : String.ofList (lowerChars (dropWhileEnd isBlank domain.toList)) ≠ "" := by
          rw [← String.toList_inj.ne, String.toList_ofList]
          exact mt lowerChars_eq_nil_iff.mp hnone
        simp [hnone, hne]
  · intro allowAll users teams user facts
    rw [build_domains, build_domains]
    rcases TextList.ofValue users with f | names
    · rfl
    · rcases TextList.ofValue teams with f | entries
      · rfl
      · have hdecision := evaluate_byDomain user { allowAll, users := names, teams := entries }
          hsame (isCovered_sameLetters hlisted) facts
        exact congrArg Except.ok hdecision

/-- The capital sigma at the end of a label becomes the final one on both sides. -/
theorem evaluate_sameLetters_sigma :
    '@' ∉ "eu.corp-ΟΔΟΣ ".toList ∧ SameLetters "eu.corp-ΟΔΟΣ " "EU.Corp-ΟΔΟΣ " ∧
      List.Forall₂ SameLetters [".CORP-ΟΔΟΣ"] [".corp-ΟΔΟΣ"] ∧
      (build false .null (.list [.str ".CORP-ΟΔΟΣ"]) .null).map
          (evaluate { email := "Σ@mallory" ++ "@" ++ "eu.corp-ΟΔΟΣ " } · []) =
        .ok (.domain "eu.corp-οδος") := by
  have hat : '@' ∉ "eu.corp-ΟΔΟΣ ".toList := by decide
  have hdomain : SameLetters "eu.corp-ΟΔΟΣ " "EU.Corp-ΟΔΟΣ " := by
    unfold SameLetters
    decide +kernel
  have hlisted : List.Forall₂ SameLetters [".CORP-ΟΔΟΣ"] [".corp-ΟΔΟΣ"] := by
    refine .cons ?_ .nil
    unfold SameLetters
    decide +kernel
  refine ⟨hat, hdomain, hlisted, ?_⟩
  have hsame := (evaluate_sameLetters "Σ@mallory" "alice" hat hdomain hlisted).2 false .null .null
    {} []
  refine hsame.trans ?_
  decide +kernel

end Whitelist

end Admission
