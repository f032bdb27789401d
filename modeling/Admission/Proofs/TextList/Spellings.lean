import Admission.Proofs.Json.Arrays
import Admission.Proofs.Json.Scalars
import Admission.Proofs.TextList.Leaves
import Admission.Whitelist

/-!
# Spellings of a list

A list of names may be given as a list, as a text in array notation, or as a text in which commas
and blanks separate the names. All of them stand for the same names (`build_spellings`), but for
some texts of the last kind. A text is read as a document first and is split only if it is none: a
name on its own may be a word or a number of the notation, and an integer with too many digits is
refused wherever the text begins with it (`IsMisread`). Several names are never a document
(`IsJoined.of_readChars`).
-/

set_option autoImplicit false
set_option relaxedAutoImplicit false

namespace Admission.TextList

open Json (isSeparator isPlain isSpace IsPlain IsScalar)

/-- The characters of names: ASCII letters and digits, and four marks. -/
def isTokenChar (c : Char) : Bool :=
  Text.isAsciiAlnum c || c == '-' || c == '_' || c == '.' || c == '/'

structure IsToken (t : String) : Prop where
  ne_empty : t ≠ ""
  isTokenChar : ∀ c ∈ t.toList, isTokenChar c = true

instance (t : String) : Decidable (IsToken t) :=
  decidable_of_iff (t ≠ "" ∧ t.toList.all isTokenChar = true)
    ⟨fun h ↦ ⟨h.1, List.all_eq_true.mp h.2⟩,
      fun h ↦ ⟨h.ne_empty, List.all_eq_true.mpr h.isTokenChar⟩⟩

/-- Texts with separators between them, one at least at each place. -/
inductive IsJoined : List String → List Char → Prop
  | last (t : String) : IsJoined [t] t.toList
  | more {cs : List Char} {texts : List String} (t : String) (between : List Char)
      (hne : between ≠ []) (hbetween : ∀ c ∈ between, isSeparator c = true)
      (hrest : IsJoined texts cs) : IsJoined (t :: texts) (t.toList ++ (between ++ cs))

/-- A value that is meant to give a list of texts. -/
inductive IsSpelling (texts : List String) : Value → Prop
  | list : IsSpelling texts (.list (texts.map .str))
  | array {cs : List Char} (h : Json.IsArray texts cs) : IsSpelling texts (.str (String.ofList cs))
  | joined {cs : List Char} (h : IsJoined texts cs) : IsSpelling texts (.str (String.ofList cs))

/-- Texts that are taken for another value than the names in them: a word of the notation, a number
whose own text is another, or an integer with too many digits in front. -/
inductive IsMisread : Value → Prop
  | null : IsMisread (.str "null")
  | yes : IsMisread (.str "true")
  | no : IsMisread (.str "false")
  | zero : IsMisread (.str "-0")
  | float {s : String} {x : Binary64} (hread : Json.read s = .ok (.float x)) (hne : x.text ≠ s) :
      IsMisread (.str s)
  | long {s : String} {n : Nat} (hread : Json.read s = .error (.tooManyDigits n)) :
      IsMisread (.str s)

/-! ### Characters of names -/

theorem lt_of_isTokenChar {c : Char} (h : isTokenChar c = true) : c.toNat < 128 := by
  simp only [isTokenChar, Bool.or_eq_true, beq_iff_eq] at h
  rcases h with (((halnum | rfl) | rfl) | rfl) | rfl
  · exact Text.lt_of_isAsciiAlnum halnum
  all_goals decide

theorem isTokenChar_cases {c : Char} (h : isTokenChar c = true) :
    isSeparator c = false ∧ isSpace c = false ∧ isPlain c = true ∧ c ≠ '[' ∧ c ≠ '\x7b' :=
  Text.forall_ascii (P := fun c ↦ isTokenChar c = true →
    isSeparator c = false ∧ isSpace c = false ∧ isPlain c = true ∧ c ≠ '[' ∧ c ≠ '\x7b')
    (by decide +kernel) (lt_of_isTokenChar h) h

theorem isBlank_of_isTokenChar {c : Char} (h : isTokenChar c = true) : Text.isBlank c = false := by
  have hseparator := (isTokenChar_cases h).1
  simp only [isSeparator, Bool.or_eq_false_iff] at hseparator
  exact hseparator.2

variable {t : String}

theorem IsToken.toList_ne_nil (h : IsToken t) : t.toList ≠ [] :=
  fun hnil ↦ h.ne_empty (String.toList_eq_nil_iff.mp hnil)

theorem IsToken.isPlain (h : IsToken t) : IsPlain t :=
  fun c hc ↦ (isTokenChar_cases (h.isTokenChar c hc)).2.2.1

theorem IsToken.isTidy (h : IsToken t) : IsTidy t where
  ne_empty := h.ne_empty
  trim_eq := by
    rw [Text.trim_eq_self_iff]
    exact Text.trimChars_eq_self_of_forall fun c hc ↦ isBlank_of_isTokenChar (h.isTokenChar c hc)

/-! ### Words -/

/-- Words are parted by a blank. -/
theorem words_append {c : Char} (hc : Text.isBlank c = true) (cs rest : List Char) :
    Text.words (cs ++ c :: rest) = Text.words cs ++ Text.words rest := by
  unfold Text.words
  rw [List.splitOnP_append_cons _ _ hc, List.filter_append]

theorem words_blank {blanks : List Char} (h : ∀ c ∈ blanks, Text.isBlank c = true)
    (rest : List Char) : Text.words (blanks ++ rest) = Text.words rest := by
  induction blanks with
  | nil => rfl
  | cons c blanks ih =>
    obtain ⟨hc, hblanks⟩ := List.forall_mem_cons.mp h
    rw [List.cons_append, ← ih hblanks]
    simpa [Text.words] using words_append hc [] (blanks ++ rest)

theorem words_word {cs : List Char} (hne : cs ≠ []) (h : ∀ c ∈ cs, Text.isBlank c = false) :
    Text.words cs = [cs] := by
  unfold Text.words
  rw [List.splitOnP_eq_singleton h]
  simp [hne]

/-! ### Joined texts -/

variable {texts : List String} {cs : List Char}

theorem IsJoined.exists_cons (h : IsJoined texts cs) (htexts : ∀ t ∈ texts, IsToken t) :
    ∃ c rest, cs = c :: rest ∧ isTokenChar c = true := by
  have hword (t : String) (ht : IsToken t) (behind : List Char) :
      ∃ c rest, t.toList ++ behind = c :: rest ∧ isTokenChar c = true := by
    obtain ⟨c, rest, hcs⟩ := List.exists_cons_of_ne_nil ht.toList_ne_nil
    exact ⟨c, rest ++ behind, by rw [hcs, List.cons_append], ht.isTokenChar c (by simp [hcs])⟩
  cases h with
  | last t => simpa using hword t (htexts t (by simp)) []
  | more t => exact hword t (htexts t (by simp)) _

theorem IsJoined.exists_append (h : IsJoined texts cs) (htexts : ∀ t ∈ texts, IsToken t) :
    ∃ front c, cs = front ++ [c] ∧ isTokenChar c = true := by
  induction h with
  | last t =>
    have ht := htexts t (by simp)
    exact ⟨_, _, (List.dropLast_append_getLast ht.toList_ne_nil).symm,
      ht.isTokenChar _ (List.getLast_mem _)⟩
  | @more cs texts t between hne hbetween hrest ih =>
    obtain ⟨front, c, rfl, hc⟩ := ih fun s hs ↦ htexts s (List.mem_cons_of_mem _ hs)
    exact ⟨t.toList ++ (between ++ front), c, by simp, hc⟩

theorem words_between {between : List Char} (hne : between ≠ [])
    (h : ∀ c ∈ between, Text.isBlank c = true) {word : List Char} (hword : word ≠ [])
    (hletters : ∀ c ∈ word, Text.isBlank c = false) (rest : List Char) :
    Text.words (word ++ (between ++ rest)) = word :: Text.words rest := by
  obtain ⟨c, blanks, rfl⟩ := List.exists_cons_of_ne_nil hne
  obtain ⟨hc, hblanks⟩ := List.forall_mem_cons.mp h
  rw [List.cons_append, words_append hc, words_word hword hletters, words_blank hblanks,
    List.singleton_append]

/-- A joined text is split into the texts that were joined. -/
theorem split_joined (h : IsJoined texts cs) (htexts : ∀ t ∈ texts, IsToken t) :
    split cs = texts := by
  have hletters (t : String) (ht : IsToken t) (c : Char) (hc : c ∈ t.toList) :
      Text.isBlank c = false :=
    isBlank_of_isTokenChar (ht.isTokenChar c hc)
  have hword (t : String) (ht : IsToken t) :
      t.toList.map (fun c ↦ if c = ',' then ' ' else c) = t.toList := by
    conv_rhs => rw [← List.map_id t.toList]
    refine List.map_congr_left fun c hc ↦ if_neg ?_
    rintro rfl
    exact absurd (ht.isTokenChar _ hc) (by decide)
  unfold split
  induction h with
  | last t =>
    have ht := htexts t (by simp)
    rw [hword t ht, words_word ht.toList_ne_nil (hletters t ht)]
    simp
  | @more cs texts t between hne hbetween hrest ih =>
    have ht := htexts t (by simp)
    have hblanks : ∀ c ∈ between.map (fun c ↦ if c = ',' then ' ' else c),
        Text.isBlank c = true := by
      intro c hc
      obtain ⟨d, hd, rfl⟩ := List.mem_map.mp hc
      split
      · decide
      · rename_i hcomma
        simpa [isSeparator, hcomma] using hbetween d hd
    rw [List.map_append, List.map_append, hword t ht,
      words_between (by simpa using hne) hblanks ht.toList_ne_nil (hletters t ht),
      List.map_cons, ih fun s hs ↦ htexts s (List.mem_cons_of_mem _ hs), String.ofList_toList]

/-- What is read of a text that begins like a name is a word or a number. -/
theorem readWhole_cons (char? : Nat → Option Char) {c : Char} (hc : isTokenChar c = true) :
    Json.readWhole char? (c :: cs) = (Json.readScalar (c :: cs)).bind fun r ↦
      if (Json.skipSpace r.2).isEmpty then .ok r.1 else .error .malformed := by
  obtain ⟨-, hspace, hplain, hbracket, hbrace⟩ := isTokenChar_cases hc
  have hquote : c ≠ '"' := (Json.isPlain_cases hplain).2.2.1
  have hskip : Json.skipSpace (c :: cs) = c :: cs :=
    List.dropWhile_cons_of_neg (by simp [hspace])
  have hvalue (fuel : Nat) :
      Json.readValue char? (fuel + 1) (c :: cs) = Json.readScalar (c :: cs) := by
    rw [Json.readValue]
    · exact fun _ heq ↦ hquote (List.cons.inj heq).1
    · exact fun _ heq ↦ hbracket (List.cons.inj heq).1
    · exact fun _ heq ↦ hbrace (List.cons.inj heq).1
  unfold Json.readWhole
  rw [hskip, hvalue]
  rfl

theorem exists_of_readChars {c : Char} (hc : isTokenChar c = true) {v : Value}
    (h : Json.readChars (c :: cs) = .ok v) :
    ∃ rest, Json.readScalar (c :: cs) = .ok (v, rest) ∧ ∀ d ∈ rest, isSpace d = true := by
  rw [Json.readChars_eq_ok_iff, readWhole_cons _ hc] at h
  obtain ⟨⟨w, rest⟩, hscalar, hrest⟩ := bind_eq_ok h
  dsimp only at hrest
  split at hrest
  · rename_i hspaces
    cases hrest
    exact ⟨rest, hscalar, List.dropWhile_eq_nil_iff.mp (List.isEmpty_iff.mp hspaces)⟩
  · cases hrest

/-- There are no strings in a text that begins like a name. -/
theorem readChars_ne_loneHalf {c : Char} (hc : isTokenChar c = true) :
    Json.readChars (c :: cs) ≠ .error .loneHalf := by
  unfold Json.readChars
  rw [readWhole_cons _ hc, readWhole_cons _ hc]
  rcases hscalar : Json.readScalar (c :: cs) with (_ | _ | _) | ⟨v, rest⟩
  · exact nofun
  · exact nofun
  · exact absurd hscalar (Json.readScalar_ne_loneHalf _)
  · dsimp only [Except.bind]
    by_cases hspaces : (Json.skipSpace rest).isEmpty = true
    · rw [if_pos hspaces]
      exact nofun
    · rw [if_neg hspaces]
      exact nofun

/-- A joined text that is read as a document consists of one text. -/
theorem IsJoined.of_readChars (h : IsJoined texts cs) (htexts : ∀ t ∈ texts, IsToken t) {v : Value}
    (hread : Json.readChars cs = .ok v) : texts = [String.ofList cs] ∧ IsScalar cs v := by
  obtain ⟨c, tail, hcs, hc⟩ := h.exists_cons htexts
  rw [hcs] at hread
  obtain ⟨rest, hscalar, hspace⟩ := exists_of_readChars hc hread
  rw [← hcs] at hscalar
  cases h with
  | last t =>
    obtain ⟨front, hfront, hshape⟩ := Json.isScalar_of_readScalar hscalar
    have hrest : rest = [] := by
      rw [List.eq_nil_iff_forall_not_mem]
      intro d hd
      have hchar := (htexts t (by simp)).isTokenChar d (by simp [hfront, hd])
      have := hspace d hd
      rw [(isTokenChar_cases hchar).2.1] at this
      cases this
    rw [hrest, List.append_nil] at hfront
    exact ⟨by simp, hfront ▸ hshape⟩
  | @more cs texts t between hne hbetween hrest =>
    have hseparated : Json.Separated (between ++ cs) := by
      intro d hd
      rw [List.head?_append_of_ne_nil _ hne] at hd
      exact hbetween d (List.mem_of_head? hd)
    have hnames (s : String) (hs : s ∈ texts) : IsToken s := htexts s (List.mem_cons_of_mem _ hs)
    obtain ⟨front, d, rfl, hd⟩ := hrest.exists_append hnames
    rw [Json.readScalar_append hseparated] at hscalar
    rcases hfirst : Json.readScalar t.toList with e | ⟨w, behind⟩
    · rw [hfirst] at hscalar
      cases hscalar
    · rw [hfirst] at hscalar
      cases hscalar
      -- the other names are left unread, down to their last character, which is no blank
      have hlast := hspace d (by simp)
      rw [(isTokenChar_cases hd).2.1] at hlast
      cases hlast

/-! ### What the spellings stand for -/

/-- A text that begins and ends with a letter that is not blank is read as it is. -/
theorem parse_of_ends {front middle : List Char} {c d : Char} (hcs : cs = c :: middle)
    (hend : cs = front ++ [d]) (hc : Text.isBlank c = false) (hd : Text.isBlank d = false) :
    parse (String.ofList cs) =
      match Json.readChars cs with
      | .ok v => .ok v
      | .error .malformed => .ok (.list ((split cs).map .str))
      | .error (.tooManyDigits n) => .error (.numeralTooLong n)
      | .error .loneHalf => .error .loneHalf := by
  have htrim : Text.trimChars cs = cs := by
    rw [Text.trimChars_eq_self_iff]
    constructor
    · simp [hcs, hc]
    · simp [hend, hd]
  unfold parse
  rw [String.toList_ofList, htrim]
  exact if_neg (by simp [hcs])

/-- A list of names stands for these names. -/
theorem ofNested_tokens (htexts : ∀ t ∈ texts, IsToken t) :
    ofNested (.list (texts.map .str)) = .ok texts.eraseDups := by
  have hlist := ofValue_texts texts
  rwa [distinct_of_tidy fun t ht ↦ (htexts t ht).isTidy] at hlist

theorem read_ofList (cs : List Char) : Json.read (String.ofList cs) = Json.readChars cs := by
  rw [Json.read, String.toList_ofList]

/-- A list as it is written is one of its spellings. -/
theorem IsSpelling.written (htexts : ∀ t ∈ texts, IsToken t) :
    IsSpelling texts (.str (Json.write (.list (texts.map .str)))) := by
  have harray := Json.isArray_write fun t ht ↦ (htexts t ht).isPlain
  simpa using IsSpelling.array harray

theorem ofValue_array (h : Json.IsArray texts cs) (htexts : ∀ t ∈ texts, IsToken t) :
    ofValue (.str (String.ofList cs)) = .ok texts.eraseDups := by
  obtain ⟨inside, hcs⟩ := h.exists_append
  have hparse : parse (String.ofList cs) = .ok (.list (texts.map .str)) := by
    rw [parse_of_ends hcs (by rw [hcs, ← List.cons_append]) (by decide) (by decide),
      Json.readChars_array h fun t ht ↦ (htexts t ht).isPlain]
  rw [ofValue, hparse]
  exact ofNested_tokens htexts

/-- What may be read of a text that is misread. -/
def Misleads (s : String) : Except Json.Refusal Value → Prop
  | .ok .null => True
  | .ok (.bool _) => True
  | .ok (.int _) => s = "-0"
  | .ok (.float x) => x.text ≠ s
  | .ok _ => False
  | .error .malformed => False
  | .error (.tooManyDigits _) => True
  | .error .loneHalf => False

theorem IsMisread.misleads {s : String} {r : Except Json.Refusal Value} (h : IsMisread (.str s))
    (hread : Json.read s = r) : Misleads s r := by
  subst hread
  cases h with
  | null => exact trivial
  | yes => exact trivial
  | no => exact trivial
  | zero => rfl
  | float hread hne =>
    rw [hread]
    exact hne
  | long hread =>
    rw [hread]
    exact trivial

theorem not_isMisread_array (h : Json.IsArray texts cs) (htexts : ∀ t ∈ texts, IsToken t) :
    ¬IsMisread (.str (String.ofList cs)) := by
  intro hmisread
  have hread := Json.readChars_array h fun t ht ↦ (htexts t ht).isPlain
  exact hmisread.misleads ((read_ofList cs).trans hread)

theorem single_of_isTidy {t : String} (h : IsTidy t) : single t = [t] := by
  unfold single
  rw [h.trim_eq]
  simp [h.ne_empty]

theorem single_text_eq_iff {x : Binary64} {t : String} (ht : IsTidy t) :
    single x.text = [t] ↔ x.text = t := by
  constructor
  · intro h
    unfold single at h
    rw [Binary64.trim_text] at h
    dsimp only at h
    split at h
    · cases h
    · exact List.singleton_inj.mp h
  · rintro rfl
    exact single_of_isTidy ht

theorem ofNested_int {negative : Bool} {digits : List Char} (hwritten : Numeral.IsWritten digits)
    (hlength : digits.length ≤ Numeral.digitLimit) (hzero : ¬(negative = true ∧ digits = ['0']))
    {s : String} (hs : s = String.ofList ((if negative then ['-'] else []) ++ digits))
    (htidy : IsTidy s) :
    ofNested (.int (Numeral.applySign negative (Numeral.ofDigits digits))) = .ok [s] := by
  rw [ofNested, written, Value.text?, Value.code?,
    Numeral.intText?_applySign hwritten hlength hzero, ← hs]
  · exact congrArg _ (single_of_isTidy htidy)
  · simp
  · simp

theorem ofNested_float (x : Binary64) : ofNested (.float x) = .ok (single x.text) := by
  rw [ofNested, written, Value.text?, Value.code?]
  · simp
  · simp

/-- A word or a number stands for its own text unless it is misread. -/
theorem ofNested_scalar {v : Value} (h : IsScalar cs v) (htoken : IsToken (String.ofList cs))
    (hread : Json.read (String.ofList cs) = .ok v) :
    ofNested v = .ok [String.ofList cs] ↔ ¬IsMisread (.str (String.ofList cs)) := by
  have hmisleads (hmisread : IsMisread (.str (String.ofList cs))) := hmisread.misleads hread
  cases h with
  | null => exact iff_of_false nofun (not_not.mpr .null)
  | yes => exact iff_of_false (by decide) (not_not.mpr .yes)
  | no => exact iff_of_false (by decide) (not_not.mpr .no)
  | @int negative digits hwritten hlength =>
    by_cases hzero : negative = true ∧ digits = ['0']
    · obtain ⟨rfl, rfl⟩ := hzero
      exact iff_of_false (by decide) (not_not.mpr .zero)
    · refine iff_of_true (ofNested_int hwritten hlength hzero rfl htoken.isTidy) fun hmisread ↦ ?_
      have hminus : (if negative then ['-'] else []) ++ digits = ['-', '0'] :=
        String.ofList_injective (hmisleads hmisread)
      cases negative with
      | true => exact hzero ⟨rfl, List.tail_eq_of_cons_eq hminus⟩
      | false =>
        have hdigits : digits = ['-', '0'] := hminus
        exact absurd (hwritten.isDigit '-' (by simp [hdigits])) (by decide)
  | float cs x =>
    rw [ofNested_float, Except.ok.injEq, single_text_eq_iff htoken.isTidy, ← not_iff_not, not_not]
    exact ⟨.float hread, hmisleads⟩

/-- Names in a text stand for themselves unless the text is misread. -/
theorem ofValue_joined (h : IsJoined texts cs) (htexts : ∀ t ∈ texts, IsToken t) :
    ofValue (.str (String.ofList cs)) = .ok texts.eraseDups ↔
      ¬IsMisread (.str (String.ofList cs)) := by
  have hread := read_ofList cs
  obtain ⟨c, tail, hcs, hc⟩ := h.exists_cons htexts
  obtain ⟨front, d, hend, hd⟩ := h.exists_append htexts
  have hparse := parse_of_ends hcs hend (isBlank_of_isTokenChar hc) (isBlank_of_isTokenChar hd)
  rw [ofValue, hparse]
  rcases hresult : Json.readChars cs with (_ | n | _) | v
  · refine iff_of_true ?_ fun hmisread ↦ hmisread.misleads (hread.trans hresult)
    rw [split_joined h htexts]
    exact ofNested_tokens htexts
  · exact iff_of_false nofun (not_not.mpr (.long (hread.trans hresult)))
  · exact absurd (hcs ▸ hresult) (readChars_ne_loneHalf hc)
  · obtain ⟨rfl, hscalar⟩ := h.of_readChars htexts hresult
    exact ofNested_scalar hscalar (htexts _ (by simp)) (hread.trans hresult)

end Admission.TextList

namespace Admission.Whitelist

open TextList

theorem build_users_iff {v : Value} {texts : List String} :
    build false v .null .null = .ok { users := texts } ↔ ofValue v = .ok texts := by
  unfold build
  rcases ofValue v with e | found
  · exact iff_of_false nofun nofun
  · show Except.ok { users := found : Whitelist } = _ ↔ _
    simp

theorem build_teams_iff {v : Value} {texts : List String} :
    build false .null .null v = .ok { teams := texts } ↔ ofValue v = .ok texts := by
  show (ofValue v >>= fun teams ↦ Except.ok { teams : Whitelist }) = _ ↔ _
  rcases ofValue v with e | found
  · exact iff_of_false nofun nofun
  · show Except.ok { teams := found : Whitelist } = _ ↔ _
    simp

/-- All spellings of a list of names make the same whitelist, with each name at its first place,
except for a text that is misread. -/
theorem build_spellings {texts : List String} (htexts : ∀ t ∈ texts, IsToken t) {spelling : Value}
    (h : IsSpelling texts spelling) :
    (build false spelling .null .null = .ok { users := texts.eraseDups } ↔ ¬IsMisread spelling) ∧
      (build false .null .null spelling = .ok { teams := texts.eraseDups } ↔
        ¬IsMisread spelling) := by
  have hvalue : ofValue spelling = .ok texts.eraseDups ↔ ¬IsMisread spelling := by
    cases h with
    | list => exact iff_of_true (ofNested_tokens htexts) nofun
    | array harray =>
      exact iff_of_true (ofValue_array harray htexts) (not_isMisread_array harray htexts)
    | joined hjoined => exact ofValue_joined hjoined htexts
  exact ⟨build_users_iff.trans hvalue, build_teams_iff.trans hvalue⟩

theorem build_spellings_several :
    build false (.str "null, 1e5\nnull") .null .null = .ok { users := ["null", "1e5"] } ∧
      build false .null .null (.str "[\"null\", \"1e5\", \"null\"]") =
        .ok { teams := ["null", "1e5"] } := by
  have htokens : ∀ t ∈ ["null", "1e5", "null"], IsToken t := by decide +kernel
  constructor
  · have hspelling : IsSpelling ["null", "1e5", "null"] (.str "null, 1e5\nnull") :=
      .joined (.more "null" [',', ' '] (by decide) (List.all_eq_true.mp (by decide))
        (.more "1e5" ['\n'] (by decide) (List.all_eq_true.mp (by decide)) (.last "null")))
    refine (build_spellings htokens hspelling).1.mpr fun hmisread ↦ ?_
    exact hmisread.misleads (r := .error .malformed) rfl
  · have harray := Json.isArray_write fun t ht ↦ (htokens t ht).isPlain
    exact (build_spellings htokens (.written htokens)).2.mpr
      (by simpa using not_isMisread_array harray htokens)

theorem build_spellings_null :
    IsSpelling ["null"] (.list [.str "null"]) ∧ IsSpelling ["null"] (.str "null") ∧
      build false (.list [.str "null"]) .null .null = .ok { users := ["null"] } ∧
      build false (.str "null") .null .null = .ok {} := by
  exact ⟨.list, .joined (.last "null"), by decide +kernel, by decide +kernel⟩

end Admission.Whitelist
