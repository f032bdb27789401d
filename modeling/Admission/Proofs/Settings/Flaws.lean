import Admission.Proofs.Outcome
import Admission.Proofs.Value
import Admission.Settings.Configuration

/-!
# Settings at fault

A setting is at fault if its value fails a demand, or if the conversion of its value breaks off
(`Flaw`). Defaults are never at fault, so only values that were given are. Reading a single setting
comes to an error exactly if the setting is at fault, and to the error that says why
(`readProvider_eq_error_iff`, `readAllowAll_eq_error_iff`, `readAddress_eq_error_iff`,
`readPositive_eq_error_iff`, `readBackoff_eq_error_iff`, `readCount_eq_error_iff`).
-/

set_option autoImplicit false
set_option relaxedAutoImplicit false

namespace Admission

/-- What a setting is about, which decides how its value is read. -/
inductive Setting.Kind
  | provider
  | flag
  | list
  | address
  | time
  | pause
  | count (least : Nat)

def Setting.kind : Setting → Setting.Kind
  | provider => .provider
  | allowAllUsers => .flag
  | whitelist | domains | teamWhitelist => .list
  | userInfoUrl | userOrgUrl | userTeamUrl => .address
  | httpTimeout | probeTimeout | probeBackoffCap => .time
  | probeBackoff => .pause
  | probeMaxRetries => .count 0
  | probeConcurrency => .count 1

namespace Configuration

open Setting (Kind)

variable {source : Fields} {setting : Setting} {kind : Kind} {v : Value} {f : Fault}

/-- The words for the two truth values. -/
def flagWords : List String := ["1", "true", "yes", "on"] ++ ["0", "false", "no", "off", ""]

/-- The number that a value is or spells; too large an integer is none. -/
def number? : Value → Option Binary64
  | .bool b => some (.ofInt (if b then 1 else 0))
  | .int n => if (Binary64.ofInt n).isFinite then some (.ofInt n) else none
  | .float x => some x
  | .str s => Numeral.float? s
  | _ => none

def integer? : Value → Option Int
  | .bool b => some (if b then 1 else 0)
  | .int n => some n
  | .float x => x.truncate?
  | .str s => Numeral.int? s
  | _ => none

/-- A value of a kind of setting fails a demand. -/
inductive Fails : Kind → Value → Demand → Prop
  | provider {v : Value} {name : String} (hnull : v ≠ .null) (hname : v.text? = some name)
      (h : Provider.ofName? (Text.lower (Text.trim name)) = none) :
      Fails .provider v .knownProvider
  | flag {v : Value} {word : String} (hbool : ∀ b, v ≠ .bool b) (hword : v.text? = some word)
      (h : Text.lower (Text.trim word) ∉ flagWords) : Fails .flag v .boolean
  | noTime {v : Value} (hnull : v ≠ .null) (hint : ∀ n, v ≠ .int n) (h : number? v = none) :
      Fails .time v .number
  | notPositive {v : Value} {x : Binary64} (hnumber : number? v = some x)
      (h : x.le .zero = true) : Fails .time v .positive
  | noPause {v : Value} (hint : ∀ n, v ≠ .int n) (h : number? v = none) : Fails .pause v .number
  | negative {v : Value} {x : Binary64} (hnumber : number? v = some x)
      (h : x.lt .zero = true) : Fails .pause v .notNegative
  | noInteger {v : Value} {least : Nat} (hnull : v ≠ .null)
      (hinfinite : ∀ negative, v ≠ .float (.infinite negative)) (h : integer? v = none) :
      Fails (.count least) v .integer
  | tooFew {v : Value} {n : Int} {least : Nat} (hnumber : integer? v = some n) (h : n < least) :
      Fails (.count least) v (.atLeast least)

/-- Converting a value of a kind of setting breaks off, without a word of the setting. -/
inductive Breaks : Kind → Value → Fault → Prop
  | text {kind : Kind} {v : Value} (hkind : kind = .provider ∨ kind = .flag ∨ kind = .address)
      (h : v.HoldsLongInteger) : Breaks kind v .integerTooLong
  | number {kind : Kind} {n : Int} (hkind : kind = .time ∨ kind = .pause)
      (h : (Binary64.ofInt n).isFinite = false) : Breaks kind (.int n) .integerTooLarge
  | integer {least : Nat} {negative : Bool} :
      Breaks (.count least) (.float (.infinite negative)) .infiniteInteger

/-- A value does not do for a setting. -/
def Misfit (setting : Setting) (v : Value) (f : Fault) : Prop :=
  (∃ demand, f = .badSetting setting demand ∧ Fails setting.kind v demand) ∨
    Breaks setting.kind v f

/-- A setting is at fault: its value does not do, or it is the address that a provider without a
known one cannot do without. -/
inductive Flaw (source : Fields) : Setting → Fault → Prop
  | given {setting : Setting} {v : Value} {f : Fault} (hgiven : source.get? setting.key = some v)
      (h : Misfit setting v f) : Flaw source setting f
  | unset (hprovider : readProvider source = .ok .oidc)
      (h : (value source .userInfoUrl).isSet = false) :
      Flaw source .userInfoUrl (.badSetting .userInfoUrl .setForOidc)

/-! ### Texts -/

theorem textOf_eq_error_iff : textOf v = .error f ↔ v.HoldsLongInteger ∧ f = .integerTooLong := by
  rw [← Value.text?_eq_none_iff]
  unfold textOf
  rcases v.text? with _ | s
  · simp [eq_comm]
  · simp

theorem textOf_eq_ok_iff {s : String} : textOf v = .ok s ↔ v.text? = some s := by
  unfold textOf
  rcases v.text? with _ | s
  · simp
  · simp

theorem breaks_text_iff (hkind : kind = .provider ∨ kind = .flag ∨ kind = .address) :
    Breaks kind v f ↔ textOf v = .error f := by
  rw [textOf_eq_error_iff]
  constructor
  · rintro (⟨-, h⟩ | ⟨hnumber, -⟩ | -)
    · exact ⟨h, rfl⟩
    · rcases hkind with rfl | rfl | rfl <;> simp at hnumber
    · simp at hkind
  · rintro ⟨h, rfl⟩
    exact .text hkind h

/-! ### Given values -/

theorem Breaks.ne_badSetting (h : Breaks kind v f) {demand : Demand} :
    f ≠ .badSetting setting demand := by
  cases h <;> nofun

/-- Null does not do for a flag and for a pause. -/
theorem misfit_null_iff :
    Misfit setting .null f ↔
      (setting.kind = .flag ∧ f = .badSetting setting .boolean) ∨
        (setting.kind = .pause ∧ f = .badSetting setting .number) := by
  unfold Misfit
  constructor
  · rintro (⟨demand, rfl, hfails⟩ | hbreaks)
    · generalize hkind : setting.kind = kind at hfails
      cases hfails with
      | provider hnull | noTime hnull | noInteger hnull => exact absurd rfl hnull
      | flag => exact .inl ⟨rfl, rfl⟩
      | noPause => exact .inr ⟨rfl, rfl⟩
      | notPositive hnumber | negative hnumber | tooFew hnumber => cases hnumber
    · generalize setting.kind = kind at hbreaks
      cases hbreaks with
      | text hkind h =>
        obtain ⟨n, hn, -⟩ := h
        cases hn
  · rintro (⟨hkind, rfl⟩ | ⟨hkind, rfl⟩)
    · rw [hkind]
      exact .inl ⟨_, rfl, .flag nofun rfl (by decide +kernel)⟩
    · rw [hkind]
      exact .inl ⟨_, rfl, .noPause nofun rfl⟩

/-- A setting that is not the address of the profile is at fault by its value alone. -/
theorem flaw_iff_exists (h : setting ≠ .userInfoUrl) :
    Flaw source setting f ↔ ∃ v, source.get? setting.key = some v ∧ Misfit setting v f := by
  constructor
  · rintro (⟨hgiven, hmisfit⟩ | -)
    · exact ⟨_, hgiven, hmisfit⟩
    · exact absurd rfl h
  · rintro ⟨v, hgiven, hmisfit⟩
    exact .given hgiven hmisfit

/-- A default that does for its setting may stand for a missing value. -/
theorem flaw_iff_getD (h : setting ≠ .userInfoUrl) {default : Value}
    (hdefault : ¬Misfit setting default f) :
    Flaw source setting f ↔ Misfit setting ((source.get? setting.key).getD default) f := by
  rw [flaw_iff_exists h]
  rcases source.get? setting.key with _ | v
  · simpa using hdefault
  · simp

theorem valueOr_cases (source : Fields) (setting : Setting) (default : Value) :
    valueOr source setting default =
      (source.get? setting.key).getD default ∨
      source.get? setting.key = some .null ∧ valueOr source setting default = default := by
  unfold valueOr value
  rcases source.get? setting.key with _ | v
  · exact .inl rfl
  · cases v with
    | null => exact .inr ⟨rfl, rfl⟩
    | _ => exact .inl rfl

/-- If null does for a setting, the default may stand for null, too. -/
theorem flaw_iff_valueOr (h : setting ≠ .userInfoUrl) {default : Value}
    (hnull : ¬Misfit setting .null f) (hdefault : ¬Misfit setting default f) :
    Flaw source setting f ↔ Misfit setting (valueOr source setting default) f := by
  rw [flaw_iff_getD h hdefault]
  rcases valueOr_cases source setting default with hvalue | ⟨hgiven, hvalue⟩
  · rw [hvalue]
  · rw [hvalue, hgiven]
    exact iff_of_false hnull hdefault

theorem valueOr_ne_null {default : Value} (hdefault : default ≠ .null) :
    valueOr source setting default ≠ .null := by
  unfold valueOr
  split
  · exact hdefault
  · assumption

/-! ### Single settings -/

theorem readProvider_eq_error_iff : readProvider source = .error f ↔ Flaw source .provider f := by
  have hdefault : ¬Misfit .provider (.str "github") f := by
    rintro (⟨demand, -, hfails⟩ | hbreaks)
    · cases hfails with
      | provider _ hname hunknown =>
        have hknown : Provider.ofName? (Text.lower (Text.trim "github")) = some .github := by
          decide +kernel
        rw [← Option.some.inj hname, hknown] at hunknown
        cases hunknown
    · cases (breaks_text_iff (.inl rfl)).mp hbreaks
  have hnull : ¬Misfit .provider .null f := by
    simp [misfit_null_iff, Setting.kind]
  have hgiven : valueOr source .provider (.str "github") ≠ .null := valueOr_ne_null (by simp)
  rw [flaw_iff_valueOr (by decide) hnull hdefault]
  unfold readProvider Misfit
  rw [bind_eq_error_iff, ← breaks_text_iff (.inl rfl), or_comm]
  refine or_congr_left ⟨?_, ?_⟩
  · rintro ⟨name, hname, h⟩
    split at h
    · cases h
    · rename_i hunknown
      exact ⟨_, (Except.error.inj h).symm, .provider hgiven (textOf_eq_ok_iff.mp hname) hunknown⟩
  · rintro ⟨demand, rfl, hfails⟩
    cases hfails with
    | provider _ hname hunknown => exact ⟨_, textOf_eq_ok_iff.mpr hname, by rw [hunknown]⟩

theorem readAllowAll_eq_error_iff :
    readAllowAll source = .error f ↔ Flaw source .allowAllUsers f := by
  have hread {v : Value} :
      readFlag .allowAllUsers v = .error f ↔ Misfit .allowAllUsers v f := by
    have hkind : Setting.allowAllUsers.kind = .flag := rfl
    unfold Misfit readFlag
    rw [hkind, breaks_text_iff (.inr (.inl rfl))]
    split
    · rename_i b
      refine ⟨nofun, ?_⟩
      rintro (⟨demand, rfl, hfails⟩ | hbreaks)
      · cases hfails with
        | flag hbool => exact absurd rfl (hbool b)
      · cases hbreaks
    · rename_i hbool
      rw [bind_eq_error_iff, or_comm]
      refine or_congr_left ⟨?_, ?_⟩
      · rintro ⟨word, hword, h⟩
        dsimp only at h
        split at h
        · cases h
        · split at h
          · cases h
          · rename_i htrue hfalse
            rw [List.contains_iff_mem] at htrue hfalse
            have hunknown : Text.lower (Text.trim word) ∉ flagWords := fun hmem ↦
              (List.mem_append.mp hmem).elim htrue hfalse
            exact ⟨_, (Except.error.inj h).symm,
              .flag hbool (textOf_eq_ok_iff.mp hword) hunknown⟩
      · rintro ⟨demand, rfl, hfails⟩
        cases hfails with
        | flag _ hword hunknown =>
          refine ⟨_, textOf_eq_ok_iff.mpr hword, ?_⟩
          dsimp only
          rw [if_neg, if_neg]
          · exact fun hmem ↦ hunknown (List.mem_append_right _ (List.contains_iff_mem.mp hmem))
          · exact fun hmem ↦ hunknown (List.mem_append_left _ (List.contains_iff_mem.mp hmem))
  rw [flaw_iff_exists (by decide)]
  unfold readAllowAll
  rcases source.get? Setting.allowAllUsers.key with _ | v
  · simp
  · simp [hread]

/-- An address is at fault by a value without a text only. -/
theorem misfit_address_iff (hkind : setting.kind = .address) :
    Misfit setting v f ↔ textOf v = .error f := by
  unfold Misfit
  rw [hkind, breaks_text_iff (.inr (.inr rfl)), or_iff_right]
  rintro ⟨demand, -, hfails⟩
  cases hfails

theorem readAddress_eq_error_iff {default : String} (hkind : setting.kind = .address) :
    readAddress source setting default = .error f ↔
      ∃ v, source.get? setting.key = some v ∧ Misfit setting v f := by
  have hunset {v : Value} (hv : v.isSet = false) : textOf v ≠ .error f := by
    rw [Ne, textOf_eq_error_iff]
    rintro ⟨⟨n, hn, hlong⟩, -⟩
    cases v <;> simp_all [Value.isSet, TextList.leaves, TextList.itemLeaves, TextList.entryLeaves]
  have hread : readAddress source setting default = .error f ↔
      textOf (if (value source setting).isSet then value source setting else .str default) =
        .error f := by
    unfold readAddress
    dsimp only
    rcases textOf (if (value source setting).isSet then value source setting else .str default) with
      e | s
    · simp [Except.map]
    · simp [Except.map]
  have hdefault : textOf (.str default) ≠ .error f := by
    intro h
    cases h
  simp only [misfit_address_iff hkind]
  rw [hread]
  unfold value
  rcases source.get? setting.key with _ | v
  · simp [Value.ofOption, Value.isSet, hdefault]
  · by_cases hset : v.isSet = true
    · simp [Value.ofOption, hset]
    · have hgiven := hunset (Bool.eq_false_iff.mpr hset)
      simp [Value.ofOption, hset, hdefault, hgiven]

theorem toFloat_eq_ok_iff {x : Binary64} : toFloat setting v = .ok x ↔ number? v = some x := by
  cases v with
  | null | moment _ | list _ | map _ => simp [toFloat, number?]
  | bool b => simp [toFloat, number?]
  | int n =>
    simp only [toFloat, number?]
    split <;> simp
  | float y => simp [toFloat, number?]
  | str s =>
    simp only [toFloat, number?]
    rcases Numeral.float? s with _ | y <;> simp

theorem toFloat_eq_error_iff :
    toFloat setting v = .error f ↔
      (∃ n, v = .int n ∧ (Binary64.ofInt n).isFinite = false ∧ f = .integerTooLarge) ∨
        ((∀ n, v ≠ .int n) ∧ number? v = none ∧ f = .badSetting setting .number) := by
  cases v with
  | null | moment _ | list _ | map _ => simp [toFloat, number?, @eq_comm _ f]
  | bool b => simp [toFloat, number?]
  | int n =>
    simp only [toFloat, number?]
    split
    · rename_i hfinite
      simp [hfinite]
    · rename_i hfinite
      simp [hfinite, @eq_comm _ f]
  | float y => simp [toFloat, number?]
  | str s =>
    simp only [toFloat, number?]
    rcases Numeral.float? s with _ | y <;> simp [@eq_comm _ f]

theorem breaks_number_iff (hkind : kind = .time ∨ kind = .pause) :
    Breaks kind v f ↔
      ∃ n, v = .int n ∧ (Binary64.ofInt n).isFinite = false ∧ f = .integerTooLarge := by
  constructor
  · rintro (⟨htext, -⟩ | ⟨-, h⟩ | -)
    · rcases hkind with rfl | rfl <;> simp at htext
    · exact ⟨_, rfl, h, rfl⟩
    · simp at hkind
  · rintro ⟨n, rfl, h, rfl⟩
    exact .number hkind h

/-- A number that is refused if it lies on the wrong side of its bound. -/
theorem boundedFloat_eq_error_iff {refused : Binary64 → Bool} {demand : Demand} :
    (toFloat setting v >>= fun x ↦
      if refused x then .error (.badSetting setting demand) else return x) = .error f ↔
      toFloat setting v = .error f ∨
        ∃ x, number? v = some x ∧ refused x = true ∧ f = .badSetting setting demand := by
  rw [bind_eq_error_iff]
  refine or_congr_right (exists_congr fun x ↦ ?_)
  rw [toFloat_eq_ok_iff]
  refine and_congr_right fun _ ↦ ?_
  by_cases hrefused : refused x = true
  · simp [hrefused, @eq_comm _ f]
  · simp [hrefused, pure, Except.pure]

theorem readPositive_eq_error_iff {default : Binary64} (hkind : setting.kind = .time)
    (hdefault : default.le .zero = false) :
    readPositive source setting default = .error f ↔ Flaw source setting f := by
  have hne : setting ≠ .userInfoUrl := by
    rintro rfl
    cases hkind
  have hnull : ¬Misfit setting .null f := by
    simp [misfit_null_iff, hkind]
  have hread {v : Value} (hv : v ≠ .null) :
      (toFloat setting v >>= fun x ↦
        if x.le .zero then .error (.badSetting setting .positive) else return x) = .error f ↔
        Misfit setting v f := by
    unfold Misfit
    rw [boundedFloat_eq_error_iff, toFloat_eq_error_iff, hkind, breaks_number_iff (.inl rfl)]
    constructor
    · rintro ((hlarge | ⟨hint, hnumber, rfl⟩) | ⟨x, hnumber, hle, rfl⟩)
      · exact .inr hlarge
      · exact .inl ⟨_, rfl, .noTime hv hint hnumber⟩
      · exact .inl ⟨_, rfl, .notPositive hnumber hle⟩
    · rintro (⟨demand, rfl, hfails⟩ | hlarge)
      · cases hfails with
        | noTime _ hint hnumber => exact .inl (.inr ⟨hint, hnumber, rfl⟩)
        | notPositive hnumber hle => exact .inr ⟨_, hnumber, hle, rfl⟩
      · exact .inl (.inl hlarge)
  have hkept : ¬Misfit setting (.float default) f := by
    rw [← hread (by simp), boundedFloat_eq_error_iff, toFloat_eq_error_iff]
    simp [number?, hdefault]
  rw [flaw_iff_valueOr hne hnull hkept, ← hread (valueOr_ne_null (by simp))]
  rfl

theorem readBackoff_eq_error_iff :
    readBackoff source = .error f ↔ Flaw source .probeBackoff f := by
  have hread {v : Value} :
      (toFloat .probeBackoff v >>= fun x ↦
        if x.lt .zero then .error (.badSetting .probeBackoff .notNegative) else return x) =
          .error f ↔ Misfit .probeBackoff v f := by
    have hkind : Setting.probeBackoff.kind = .pause := rfl
    unfold Misfit
    rw [boundedFloat_eq_error_iff, toFloat_eq_error_iff, hkind, breaks_number_iff (.inr rfl)]
    constructor
    · rintro ((hlarge | ⟨hint, hnumber, rfl⟩) | ⟨x, hnumber, hlt, rfl⟩)
      · exact .inr hlarge
      · exact .inl ⟨_, rfl, .noPause hint hnumber⟩
      · exact .inl ⟨_, rfl, .negative hnumber hlt⟩
    · rintro (⟨demand, rfl, hfails⟩ | hlarge)
      · cases hfails with
        | noPause hint hnumber => exact .inl (.inr ⟨hint, hnumber, rfl⟩)
        | negative hnumber hlt => exact .inr ⟨_, hnumber, hlt, rfl⟩
      · exact .inl (.inl hlarge)
  have hkept : ¬Misfit .probeBackoff (.float defaults.probeBackoff) f := by
    have hdefault : defaults.probeBackoff.lt .zero = false := by decide +kernel
    rw [← hread, boundedFloat_eq_error_iff, toFloat_eq_error_iff]
    simp [number?, hdefault]
  rw [flaw_iff_getD (by decide) hkept, ← hread]
  rfl

theorem toInt_eq_ok_iff {n : Int} : toInt setting v = .ok n ↔ integer? v = some n := by
  cases v with
  | null | moment _ | list _ | map _ => simp [toInt, integer?]
  | bool b => simp [toInt, integer?]
  | int m => simp [toInt, integer?]
  | float x =>
    cases x <;> simp [toInt, integer?, Binary64.truncate?, Binary64.toRat?]
  | str s =>
    simp only [toInt, integer?]
    rcases Numeral.int? s with _ | m <;> simp

theorem toInt_eq_error_iff :
    toInt setting v = .error f ↔
      (∃ negative, v = .float (.infinite negative) ∧ f = .infiniteInteger) ∨
        ((∀ negative, v ≠ .float (.infinite negative)) ∧ integer? v = none ∧
          f = .badSetting setting .integer) := by
  cases v with
  | null | moment _ | list _ | map _ => simp [toInt, integer?, @eq_comm _ f]
  | bool b => simp [toInt, integer?]
  | int n => simp [toInt, integer?]
  | float x =>
    cases x <;> simp [toInt, integer?, Binary64.truncate?, Binary64.toRat?, @eq_comm _ f]
  | str s =>
    simp only [toInt, integer?]
    rcases Numeral.int? s with _ | m <;> simp [@eq_comm _ f]

theorem breaks_count_iff {least : Nat} :
    Breaks (.count least) v f ↔
      ∃ negative, v = .float (.infinite negative) ∧ f = .infiniteInteger := by
  constructor
  · rintro (⟨htext, -⟩ | ⟨hnumber, -⟩ | -)
    · simp at htext
    · simp at hnumber
    · exact ⟨_, rfl, rfl⟩
  · rintro ⟨negative, rfl, rfl⟩
    exact .integer

theorem readCount_eq_error_iff {default least : Nat} (hkind : setting.kind = .count least)
    (hdefault : least ≤ default) :
    readCount source setting default least = .error f ↔ Flaw source setting f := by
  have hne : setting ≠ .userInfoUrl := by
    rintro rfl
    cases hkind
  have hnull : ¬Misfit setting .null f := by
    simp [misfit_null_iff, hkind]
  have hread {v : Value} (hv : v ≠ .null) :
      (toInt setting v >>= fun n ↦
        if n < least then .error (.badSetting setting (.atLeast least)) else return n.toNat) =
          .error f ↔ Misfit setting v f := by
    unfold Misfit
    rw [bind_eq_error_iff, toInt_eq_error_iff, hkind, breaks_count_iff]
    constructor
    · rintro ((hinfinite | ⟨hfinite, hnumber, rfl⟩) | ⟨n, hnumber, h⟩)
      · exact .inr hinfinite
      · exact .inl ⟨_, rfl, .noInteger hv hfinite hnumber⟩
      · split at h
        · rename_i hfew
          exact .inl ⟨_, (Except.error.inj h).symm, .tooFew (toInt_eq_ok_iff.mp hnumber) hfew⟩
        · cases h
    · rintro (⟨demand, rfl, hfails⟩ | hinfinite)
      · cases hfails with
        | noInteger _ hfinite hnumber => exact .inl (.inr ⟨hfinite, hnumber, rfl⟩)
        | tooFew hnumber hfew =>
          exact .inr ⟨_, toInt_eq_ok_iff.mpr hnumber, by rw [if_pos hfew]⟩
      · exact .inl (.inl hinfinite)
  have hkept : ¬Misfit setting (.int default) f := by
    rw [← hread (by simp)]
    show (if (default : Int) < least then _ else _) ≠ _
    rw [if_neg (by omega)]
    nofun
  rw [flaw_iff_valueOr hne hnull hkept, ← hread (valueOr_ne_null (by simp))]
  rfl

end Configuration

end Admission
