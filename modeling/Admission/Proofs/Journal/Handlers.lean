import Admission.Journal.Basic

/-!
# Setting the journal up again

Own handlers are taken away while a copy of the handlers is gone through. What was passed already
holds handlers of others only, so each step meets the first place of its handler
(`handlers_foldl_remove`), and the handlers of others are left in their order (`handlers_reset`).
Setting up keeps them, whatever own handlers there were (`others_applyAll`, by induction on the
calls). So after any calls the library has theirs and behind them the one handler that the last call
returned, the client has theirs alone, and both have the level that the last call names
(`applyAll_installs`).
-/

set_option autoImplicit false
set_option relaxedAutoImplicit false

namespace Admission.Journal

/-- The handlers of others, in their order. -/
def Logger.others (logger : Logger) : List Handler :=
  logger.handlers.filter fun h ↦ !h.isOwn

/-! ### One logger -/

theorem isOwn_of_mem_others {logger : Logger} {h : Handler} (hmem : h ∈ logger.others) :
    h.isOwn = false := by
  simpa using (List.mem_filter.mp hmem).2

/-- What was passed already holds no own handler, and the rest is still to be gone through. -/
theorem handlers_foldl_remove (passed rest : List Handler) {logger : Logger}
    (hpassed : ∀ h ∈ passed, h.isOwn = false) (hlogger : logger.handlers = passed ++ rest) :
    (rest.foldl (fun logger h ↦ if h.isOwn then logger.remove h else logger) logger).handlers =
      passed ++ rest.filter fun h ↦ !h.isOwn := by
  induction rest generalizing passed logger with
  | nil => exact hlogger
  | cons h rest ih =>
    rw [List.foldl_cons]
    cases hown : h.isOwn with
    | true =>
      have hnew : h ∉ passed := by
        intro hmem
        rw [hpassed h hmem] at hown
        cases hown
      have hremoved : (logger.remove h).handlers = passed ++ rest := by
        rw [Logger.remove, hlogger, List.erase_append_right _ hnew, List.erase_cons_head]
      rw [if_pos rfl, ih passed hpassed hremoved]
      simp [hown]
    | false =>
      have hpassed' : ∀ h' ∈ passed ++ [h], h'.isOwn = false := by
        intro h' hmem
        rcases List.mem_append.mp hmem with hmem | hmem
        · exact hpassed h' hmem
        · rw [List.mem_singleton.mp hmem, hown]
      have hsplit : logger.handlers = (passed ++ [h]) ++ rest := by
        rw [hlogger, List.append_assoc, List.singleton_append]
      rw [if_neg Bool.false_ne_true, ih (passed ++ [h]) hpassed' hsplit]
      simp [hown]

@[simp] theorem handlers_reset (logger : Logger) (level : Int) :
    (logger.reset level).handlers = logger.others :=
  handlers_foldl_remove [] logger.handlers (fun _ hmem ↦ absurd hmem List.not_mem_nil) rfl

@[simp] theorem level_reset (logger : Logger) (level : Int) : (logger.reset level).level = level :=
  rfl

theorem handlers_install {logger : Logger} {h : Handler} (hnew : h ∉ logger.handlers) :
    (logger.install h).handlers = logger.handlers ++ [h] := by
  unfold Logger.install
  rw [if_neg (by simpa using hnew)]

@[simp] theorem level_install (logger : Logger) (h : Handler) :
    (logger.install h).level = logger.level := by
  unfold Logger.install
  split
  · rfl
  · rfl

/-! ### One call -/

/-- What a call is given, and what the environment says at the time. -/
structure Call where
  level : Option String := none
  layout : Option String := none
  levelVariable : Option String := none
  layoutVariable : Option String := none

/-- Sets the journal up, and returns the new handler. -/
def Call.apply (call : Call) (journal : Journal) : Handler × Journal :=
  journal.setUpBy call.level call.layout call.levelVariable call.layoutVariable

/-- An own handler that was made before the one with the given number. -/
inductive IsMadeBefore (count : Nat) : Handler → Prop
  | own {number : Nat} (layout : Layout) (h : number < count) :
      IsMadeBefore count (@Handler.own number layout)

/-- What one call does: the new handler comes behind those of others, which are all that is left. -/
structure Installs (call : Call) (journal : Journal) (h : Handler) (after : Journal) : Prop where
  isOwn : h.isOwn = true
  not_made : ¬IsMadeBefore journal.made h
  isMade : IsMadeBefore after.made h
  library : after.library.handlers = journal.library.others ++ [h]
  client : after.client.handlers = journal.client.others
  libraryLevel : after.library.level = resolveLevel call.level call.levelVariable
  clientLevel : after.client.level = resolveLevel call.level call.levelVariable

theorem installs_apply (call : Call) (journal : Journal) :
    Installs call journal (call.apply journal).1 (call.apply journal).2 where
  isOwn := rfl
  not_made := by
    rintro ⟨_, h⟩
    exact Nat.lt_irrefl _ h
  isMade := .own _ (Nat.lt_succ_self _)
  library := by
    have hnew : (call.apply journal).1 ∉
        (journal.library.reset (resolveLevel call.level call.levelVariable)).handlers := by
      rw [handlers_reset]
      intro hmem
      cases isOwn_of_mem_others hmem
    rw [← handlers_reset journal.library (resolveLevel call.level call.levelVariable)]
    exact handlers_install hnew
  client := handlers_reset _ _
  libraryLevel := (level_install _ _).trans (level_reset _ _)
  clientLevel := level_reset _ _

variable {call : Call} {journal after : Journal} {h : Handler}

theorem Installs.library_others (hinstalls : Installs call journal h after) :
    after.library.others = journal.library.others := by
  rw [Logger.others, hinstalls.library, List.filter_append]
  simp [Logger.others, hinstalls.isOwn]

theorem Installs.client_others (hinstalls : Installs call journal h after) :
    after.client.others = journal.client.others := by
  rw [Logger.others, hinstalls.client]
  simp [Logger.others]

/-! ### Any number of calls -/

/-- The handlers that calls return one after the other, and the journal behind them. -/
def applyAll : List Call → Journal → List Handler × Journal
  | [], journal => ([], journal)
  | call :: rest, journal =>
    let first := call.apply journal
    let more := applyAll rest first.2
    (first.1 :: more.1, more.2)

theorem applyAll_append (calls : List Call) (last : Call) (journal : Journal) :
    applyAll (calls ++ [last]) journal =
      let before := applyAll calls journal
      let final := last.apply before.2
      (before.1 ++ [final.1], final.2) := by
  induction calls generalizing journal with
  | nil => rfl
  | cons call rest ih =>
    simp only [List.cons_append, applyAll, ih]

theorem length_applyAll (calls : List Call) (journal : Journal) :
    (applyAll calls journal).1.length = calls.length := by
  induction calls generalizing journal with
  | nil => rfl
  | cons call rest ih => rw [applyAll, List.length_cons, List.length_cons, ih]

/-- The handlers of others stay, whatever calls are made. -/
theorem others_applyAll (calls : List Call) (journal : Journal) :
    (applyAll calls journal).2.library.others = journal.library.others ∧
      (applyAll calls journal).2.client.others = journal.client.others := by
  induction calls generalizing journal with
  | nil => exact ⟨rfl, rfl⟩
  | cons call rest ih =>
    have hfirst := installs_apply call journal
    obtain ⟨hlibrary, hclient⟩ := ih (call.apply journal).2
    exact ⟨hlibrary.trans hfirst.library_others, hclient.trans hfirst.client_others⟩

theorem IsMadeBefore.mono {count count' : Nat} (hmade : IsMadeBefore count h)
    (hle : count ≤ count') : IsMadeBefore count' h := by
  obtain ⟨layout, hlt⟩ := hmade
  exact .own layout (Nat.lt_of_lt_of_le hlt hle)

theorem made_le_applyAll (calls : List Call) (journal : Journal) :
    journal.made ≤ (applyAll calls journal).2.made := by
  induction calls generalizing journal with
  | nil => exact Nat.le_refl _
  | cons call rest ih => exact Nat.le_trans (Nat.le_succ _) (ih (call.apply journal).2)

/-- All handlers that were returned are among those made so far. -/
theorem isMadeBefore_applyAll (calls : List Call) (journal : Journal) :
    ∀ h ∈ (applyAll calls journal).1, IsMadeBefore (applyAll calls journal).2.made h := by
  induction calls generalizing journal with
  | nil => exact fun _ hmem ↦ absurd hmem List.not_mem_nil
  | cons call rest ih =>
    intro h hmem
    rcases List.mem_cons.mp hmem with rfl | hmem
    · exact (installs_apply call journal).isMade.mono (made_le_applyAll rest _)
    · exact ih (call.apply journal).2 h hmem

/-- The handlers made so far are none of others. -/
theorem IsMadeBefore.not_mem_others {count : Nat} (hmade : IsMadeBefore count h)
    (logger : Logger) : h ∉ logger.others := by
  obtain ⟨layout, -⟩ := hmade
  intro hmem
  cases isOwn_of_mem_others hmem

/-! ### Levels -/

/-- The name of the level: what is given, or else what the environment says, unless it is empty. -/
inductive Names (call : Call) : String → Prop
  | given {name : String} (h : call.level = some name) (hname : name ≠ "") : Names call name
  | variable {name : String} (hnone : ∀ given, call.level = some given → given = "")
      (h : call.levelVariable = some name) (hname : name ≠ "") : Names call name
  | nothing (hnone : ∀ given, call.level = some given → given = "")
      (hnone' : ∀ name, call.levelVariable = some name → name = "") : Names call "info"

/-- The level that a name in any case stands for; an unknown name stands for that of information. -/
inductive StandsFor (name : String) (level : Int) : Prop
  | known (h : (Text.upperAscii name, level) ∈ levelNames)
  | unknown (h : ∀ other, (Text.upperAscii name, other) ∉ levelNames)
      (hlevel : ("INFO", level) ∈ levelNames)

theorem standsFor_level? (name : String) :
    StandsFor name ((level? name).getD defaultLevel) := by
  unfold level?
  rcases hlookup : levelNames.lookup (Text.upperAscii name) with _ | level
  · refine .unknown (fun other hmem ↦ ?_) (by decide)
    have hne := List.lookup_eq_none_iff.mp hlookup _ hmem
    simp at hne
  · obtain ⟨front, rest, hsplit, -⟩ := List.lookup_eq_some_iff.mp hlookup
    refine .known ?_
    rw [Option.getD_some, hsplit]
    exact List.mem_append_right _ List.mem_cons_self

theorem filter_eq_none_iff {text : Option String} :
    (text.filter fun s ↦ !s.isEmpty) = none ↔ ∀ s, text = some s → s = "" := by
  cases text with
  | none => simp
  | some s => simp

/-- The level of a call is that of the name that it chooses. -/
theorem exists_names (call : Call) :
    ∃ name, Names call name ∧ StandsFor name (resolveLevel call.level call.levelVariable) := by
  rcases hgiven : call.level.filter fun s ↦ !s.isEmpty with _ | name
  · have hnone := filter_eq_none_iff.mp hgiven
    rcases hvariable : call.levelVariable.filter fun s ↦ !s.isEmpty with _ | name
    · refine ⟨"info", .nothing hnone (filter_eq_none_iff.mp hvariable), ?_⟩
      rw [resolveLevel, preferGiven, hgiven, hvariable]
      exact .known (by decide)
    · obtain ⟨hname, hne⟩ := Option.filter_eq_some_iff.mp hvariable
      refine ⟨name, .variable hnone hname (by simpa using hne), ?_⟩
      rw [resolveLevel, preferGiven, hgiven, hvariable]
      exact standsFor_level? name
  · obtain ⟨hname, hne⟩ := Option.filter_eq_some_iff.mp hgiven
    refine ⟨name, .given hname (by simpa using hne), ?_⟩
    rw [resolveLevel, preferGiven, hgiven]
    exact standsFor_level? name

/-- After any calls the library's logger has the handlers of others in their order, and behind them
the one own handler that the last call returned; those that earlier calls returned are gone. The
client's logger has the handlers of others alone. Both have the level that the name of the last call
stands for. -/
theorem applyAll_installs (journal : Journal) (calls : List Call) (last : Call) :
    ∃ earlier h name level, (applyAll (calls ++ [last]) journal).1 = earlier ++ [h] ∧
      earlier.length = calls.length ∧ h.isOwn = true ∧
      (applyAll (calls ++ [last]) journal).2.library.handlers = journal.library.others ++ [h] ∧
      (applyAll (calls ++ [last]) journal).2.client.handlers = journal.client.others ∧
      (∀ h' ∈ earlier, h' ∉ (applyAll (calls ++ [last]) journal).2.library.handlers ∧
        h' ∉ (applyAll (calls ++ [last]) journal).2.client.handlers) ∧
      Names last name ∧ StandsFor name level ∧
      (applyAll (calls ++ [last]) journal).2.library.level = level ∧
      (applyAll (calls ++ [last]) journal).2.client.level = level := by
  obtain ⟨hlibrary, hclient⟩ := others_applyAll calls journal
  obtain ⟨name, hname, hlevel⟩ := exists_names last
  have hmade := isMadeBefore_applyAll calls journal
  have hinstalls := installs_apply last (applyAll calls journal).2
  rw [applyAll_append]
  refine ⟨(applyAll calls journal).1, _, name, _, rfl, length_applyAll calls journal,
    hinstalls.isOwn, ?_, ?_, fun h' hmem ↦ ⟨?_, ?_⟩, hname, hlevel, hinstalls.libraryLevel,
    hinstalls.clientLevel⟩
  · rw [hinstalls.library, hlibrary]
  · rw [hinstalls.client, hclient]
  · rw [hinstalls.library, List.mem_append, List.mem_singleton]
    rintro (hmem' | rfl)
    · exact (hmade h' hmem).not_mem_others _ hmem'
    · exact hinstalls.not_made (hmade _ hmem)
  · rw [hinstalls.client]
    exact (hmade h' hmem).not_mem_others _

end Admission.Journal
