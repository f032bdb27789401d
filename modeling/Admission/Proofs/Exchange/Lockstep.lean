import Admission.Exchange.Timeline
import Admission.Proofs.Url.Inherited
import Mathlib.Data.List.Forall2

/-!
# Processes in lockstep

Two processes are alike if they do the same step by step, except that their requests need only be
related, and so their results. A provider that answers related requests in the same way cannot tell
them apart, so their runs are alike too (`Alike.settle`, `Alike.run`). One of them may get lost on
the way, that is end with a result of some kind; nothing is said of the other one then.

`Sends` says of a process that all its requests satisfy a predicate, whatever the answers are. Such
a process is alike to itself if the predicate implies that (`Sends.alike`).
-/

set_option autoImplicit false
set_option relaxedAutoImplicit false

namespace Admission

/-! ### Traces that are alike -/

/-- The same occurrence, or related requests that are sent. -/
inductive Occurrence.Alike (same : Request → Request → Prop) : Occurrence → Occurrence → Prop
  | sent {r₁ r₂ : Request} (h : same r₁ r₂) : Alike same (.sent r₁) (.sent r₂)
  | noticed (n : Notice) : Alike same (.noticed n) (.noticed n)
  | counted (c : Count) : Alike same (.counted c) (.counted c)

/-- Occurrences that are alike, at the same instant. -/
structure Event.Alike (same : Request → Request → Prop) (e₁ e₂ : Event) : Prop where
  time : e₁.time = e₂.time
  what : e₁.what.Alike same e₂.what

/-- No request is sent. -/
def Quiet (whats : List Occurrence) : Prop :=
  ∀ what ∈ whats, ∀ r, what ≠ .sent r

namespace Trace

variable {same : Request → Request → Prop} {t₁ t₂ u₁ u₂ : Trace}

/-- Traces with the same notices and counts at the same instants, and related requests. -/
def Alike (same : Request → Request → Prop) : Trace → Trace → Prop :=
  List.Forall₂ (Event.Alike same)

theorem Alike.append (ht : Alike same t₁ t₂) (hu : Alike same u₁ u₂) :
    Alike same (t₁ ++ u₁) (t₂ ++ u₂) :=
  List.rel_append ht hu

theorem alike_of_quiet (same : Request → Request → Prop) {whats : List Occurrence}
    (h : Quiet whats) (time : Rat) :
    Alike same (whats.map fun what ↦ ⟨time, what⟩) (whats.map fun what ↦ ⟨time, what⟩) := by
  refine List.forall₂_same.mpr fun e he ↦ ⟨rfl, ?_⟩
  obtain ⟨what, hwhat, rfl⟩ := List.mem_map.mp he
  cases what with
  | sent r => exact absurd rfl (h _ hwhat r)
  | noticed n => exact .noticed n
  | counted c => exact .counted c

theorem Alike.notices_eq (h : Alike same t₁ t₂) : t₁.notices = t₂.notices := by
  induction h with
  | nil => rfl
  | @cons e₁ e₂ t₁ t₂ he ht ih =>
    obtain ⟨time, what⟩ := e₁
    obtain ⟨time', what'⟩ := e₂
    obtain ⟨rfl, hwhat⟩ := he
    cases hwhat with
    | sent => exact ih
    | noticed n => exact congrArg ((time, n) :: ·) ih
    | counted c => exact ih

theorem Alike.counts_eq (h : Alike same t₁ t₂) : t₁.counts = t₂.counts := by
  induction h with
  | nil => rfl
  | @cons e₁ e₂ t₁ t₂ he ht ih =>
    obtain ⟨time, what⟩ := e₁
    obtain ⟨time', what'⟩ := e₂
    obtain ⟨rfl, hwhat⟩ := he
    cases hwhat with
    | sent => exact ih
    | noticed n => exact ih
    | counted c => exact congrArg (c :: ·) ih

/-- The requests of traces that are alike are related one by one, and sent at the same instants. -/
theorem Alike.requests (h : Alike same t₁ t₂) :
    List.Forall₂ (fun a b ↦ a.1 = b.1 ∧ same a.2 b.2) t₁.requests t₂.requests := by
  induction h with
  | nil => exact .nil
  | @cons e₁ e₂ t₁ t₂ he ht ih =>
    obtain ⟨time, what⟩ := e₁
    obtain ⟨time', what'⟩ := e₂
    obtain ⟨rfl, hwhat⟩ := he
    cases hwhat with
    | sent hsame => exact .cons ⟨rfl, hsame⟩ ih
    | noticed n => exact ih
    | counted c => exact ih

end Trace

namespace Process

variable {α β σ : Type}

/-! ### Processes that are alike -/

/-- Every request of a process satisfies a predicate, whatever the answers are. -/
def Sends (P : Request → Prop) (p : Process α) : Prop :=
  ∃ n, p.Obeys P (fun _ ↦ True) n

/-- Two processes that do the same with related requests until they come to related results, or one
of them is lost. -/
inductive Alike {α : Type} (same : Request → Request → Prop) (related : α → α → Prop)
    (lost : α → Prop) : Process α → Process α → Prop
  | done {a b : α} (h : related a b) : Alike same related lost (done a) (done b)
  | lostLeft {a : α} (h : lost a) (p : Process α) : Alike same related lost (done a) p
  | lostRight {b : α} (h : lost b) (p : Process α) : Alike same related lost p (done b)
  | notice (n : Notice) {p₁ p₂ : Process α} (h : Alike same related lost p₁ p₂) :
    Alike same related lost (notice n p₁) (notice n p₂)
  | ask {r₁ r₂ : Request} {next₁ next₂ : Answer → Process α} (hsame : same r₁ r₂)
    (h : ∀ answer, Alike same related lost (next₁ answer) (next₂ answer)) :
    Alike same related lost (ask r₁ next₁) (ask r₂ next₂)
  | pause (seconds : Binary64) {p₁ p₂ : Process α} (h : Alike same related lost p₁ p₂) :
    Alike same related lost (pause seconds p₁) (pause seconds p₂)

section Combining

variable {same : Request → Request → Prop} {P : Request → Prop}

/-- A process all of whose requests are related to themselves is alike to itself. -/
theorem Sends.alike {p : Process α} {related : α → α → Prop} (h : p.Sends P)
    (hsame : ∀ r, P r → same r r) (hrelated : ∀ a, related a a) (lost : α → Prop) :
    Alike same related lost p p := by
  obtain ⟨n, h⟩ := h
  induction h with
  | done a => exact .done (hrelated a)
  | notice note _ ih => exact .notice note ih
  | ask hrequest _ ih => exact .ask (hsame _ hrequest) ih
  | pause _ _ ih => exact .pause _ ih

theorem Alike.mono {related : α → α → Prop} {lost lost' : α → Prop} {p₁ p₂ : Process α}
    (h : Alike same related lost p₁ p₂) (hlost : ∀ a, lost a → lost' a) :
    Alike same related lost' p₁ p₂ := by
  induction h with
  | done hrelated => exact .done hrelated
  | lostLeft ha p => exact .lostLeft (hlost _ ha) p
  | lostRight hb p => exact .lostRight (hlost _ hb) p
  | notice n _ ih => exact .notice n ih
  | ask hsame _ ih => exact .ask hsame ih
  | pause seconds _ ih => exact .pause seconds ih

/-- Processes that are alike go on alike if they do so from related results; one that is lost is
lost for good. -/
theorem Alike.bind {related : α → α → Prop} {lost : α → Prop} {related' : β → β → Prop}
    {lost' : β → Prop} {p₁ p₂ : Process α} {f₁ f₂ : α → Process β}
    (h : Alike same related lost p₁ p₂)
    (hf : ∀ a b, related a b → Alike same related' lost' (f₁ a) (f₂ b))
    (hlost₁ : ∀ a, lost a → ∃ b, f₁ a = .done b ∧ lost' b)
    (hlost₂ : ∀ a, lost a → ∃ b, f₂ a = .done b ∧ lost' b) :
    Alike same related' lost' (p₁.bind f₁) (p₂.bind f₂) := by
  induction h with
  | done hrelated => exact hf _ _ hrelated
  | lostLeft ha p =>
    obtain ⟨b, hb, hlost⟩ := hlost₁ _ ha
    show Alike same related' lost' (f₁ _) _
    rw [hb]
    exact .lostLeft hlost _
  | lostRight hb p =>
    obtain ⟨c, hc, hlost⟩ := hlost₂ _ hb
    show Alike same related' lost' _ (f₂ _)
    rw [hc]
    exact .lostRight hlost _
  | notice n _ ih => exact .notice n ih
  | ask hsame _ ih => exact .ask hsame ih
  | pause seconds _ ih => exact .pause seconds ih

/-- Related values, or the same problem. -/
inductive Agree {α : Type} (related : α → α → Prop) :
    Except Problem α → Except Problem α → Prop
  | ok {a b : α} (h : related a b) : Agree related (.ok a) (.ok b)
  | error (problem : Problem) : Agree related (.error problem) (.error problem)

/-- Two processes in a row are alike to two others if the first ones are, and the second ones from
related results. -/
theorem Alike.andThen {related : α → α → Prop} {kind : Problem → Bool}
    {p₁ p₂ : Process (Except Problem α)} {f₁ f₂ : α → Process (Except Problem β)}
    (h : Alike same (Agree related) (FailsBy kind) p₁ p₂)
    (hf : ∀ a b, related a b → Alike same Eq (FailsBy kind) (f₁ a) (f₂ b)) :
    Alike same Eq (FailsBy kind) (p₁.andThen f₁) (p₂.andThen f₂) := by
  refine h.bind (fun x y hxy ↦ ?_) ?_ ?_
  · cases hxy with
    | ok hrelated => exact hf _ _ hrelated
    | error problem => exact .done rfl
  · rintro _ ⟨problem, rfl, hkind⟩
    exact ⟨.error problem, rfl, problem, rfl, hkind⟩
  · rintro _ ⟨problem, rfl, hkind⟩
    exact ⟨.error problem, rfl, problem, rfl, hkind⟩

end Combining

/-! ### Runs that are alike -/

/-- Processes that are left alike: done with related results, or waiting for the same instant. -/
inductive Settled.Alike {α : Type} (same : Request → Request → Prop) (related : α → α → Prop)
    (lost : α → Prop) : Settled α → Settled α → Prop
  | done {a b : α} (h : related a b) : Alike same related lost (.done a) (.done b)
  | waiting (wake : Option Rat) (turns : Nat) {p₁ p₂ : Process α}
    (h : Process.Alike same related lost p₁ p₂) :
    Alike same related lost (.waiting wake turns p₁) (.waiting wake turns p₂)

/-- The same has happened to two processes, apart from their requests. -/
structure Settlement.Alike {α σ : Type} (same : Request → Request → Prop) (related : α → α → Prop)
    (lost : α → Prop) (s₁ s₂ : Settlement α σ) : Prop where
  trace : s₁.trace.Alike same s₂.trace
  state : s₁.state = s₂.state
  left : s₁.left.Alike same related lost s₂.left

/-- The process was lost until its next wait. -/
def Settlement.IsLost {α σ : Type} (lost : α → Prop) (s : Settlement α σ) : Prop :=
  ∃ a, s.left = .done a ∧ lost a

/-- Runs that end alike, with related results or without one. -/
inductive Ending.Alike {α : Type} (related : α → α → Prop) : Ending α → Ending α → Prop
  | finished (time : Rat) {a b : α} (h : related a b) :
    Alike related (.finished time a) (.finished time b)
  | stopped (time : Rat) : Alike related (.stopped time) (.stopped time)
  | never (time : Rat) : Alike related (.never time) (.never time)

/-- The same happens in two runs, apart from their requests and results. -/
structure Run.Alike {α σ : Type} (same : Request → Request → Prop) (related : α → α → Prop)
    (r₁ r₂ : Run α σ) : Prop where
  trace : r₁.trace.Alike same r₂.trace
  state : r₁.state = r₂.state
  ending : r₁.ending.Alike related r₂.ending

/-- The process of a run was lost. -/
def Run.IsLost {α σ : Type} (lost : α → Prop) (run : Run α σ) : Prop :=
  ∃ time a, run.ending = .finished time a ∧ lost a

section Running

variable {same : Request → Request → Prop} {related : α → α → Prop} {lost : α → Prop}
  {responder : Responder σ} {p₁ p₂ : Process α}

/-- Up to their next wait, the same happens to processes that are alike if the provider cannot tell
their requests apart. -/
theorem Alike.settle (h : Alike same related lost p₁ p₂)
    (hblind : ∀ time state r₁ r₂, same r₁ r₂ →
      responder.respond time state r₁ = responder.respond time state r₂) (now : Rat) (state : σ) :
    (p₁.settle responder now state).IsLost lost ∨ (p₂.settle responder now state).IsLost lost ∨
      Settlement.Alike same related lost (p₁.settle responder now state)
        (p₂.settle responder now state) := by
  induction h generalizing state with
  | done hrelated => exact .inr (.inr ⟨.nil, rfl, .done hrelated⟩)
  | lostLeft ha p => exact .inl ⟨_, rfl, ha⟩
  | lostRight hb p => exact .inr (.inl ⟨_, rfl, hb⟩)
  | notice n _ ih =>
    rcases ih state with hlost | hlost | halike
    · exact .inl hlost
    · exact .inr (.inl hlost)
    · exact .inr (.inr ⟨.cons ⟨rfl, .noticed n⟩ halike.trace, halike.state, halike.left⟩)
  | @ask r₁ r₂ next₁ next₂ hsame hnext ih =>
    have hsent : Event.Alike same ⟨now, .sent r₁⟩ ⟨now, .sent r₂⟩ := ⟨rfl, .sent hsame⟩
    simp only [Process.settle, hblind now state _ _ hsame]
    split
    · rcases ih _ _ with hlost | hlost | halike
      · exact .inl hlost
      · exact .inr (.inl hlost)
      · exact .inr (.inr ⟨.cons hsent halike.trace, halike.state, halike.left⟩)
    · exact .inr (.inr ⟨.cons hsent .nil, rfl, .waiting _ _ (hnext _)⟩)
  | pause seconds hrest _ => exact .inr (.inr ⟨.nil, rfl, .waiting _ _ hrest⟩)

/-- The runs of processes that are alike are alike if the provider cannot tell their requests
apart. -/
theorem Alike.run (h : Alike same related lost p₁ p₂)
    (hblind : ∀ time state r₁ r₂, same r₁ r₂ →
      responder.respond time state r₁ = responder.respond time state r₂) (last : Option Rat)
    (now : Rat) (state : σ) :
    (p₁.run responder last now state).IsLost lost ∨
      (p₂.run responder last now state).IsLost lost ∨
        Run.Alike same related (p₁.run responder last now state)
          (p₂.run responder last now state) := by
  induction h generalizing now state with
  | done hrelated => exact .inr (.inr ⟨.nil, rfl, .finished now hrelated⟩)
  | lostLeft ha p => exact .inl ⟨now, _, rfl, ha⟩
  | lostRight hb p => exact .inr (.inl ⟨now, _, rfl, hb⟩)
  | notice n _ ih =>
    rcases ih now state with hlost | hlost | halike
    · exact .inl hlost
    · exact .inr (.inl hlost)
    · exact .inr (.inr ⟨.cons ⟨rfl, .noticed n⟩ halike.trace, halike.state, halike.ending⟩)
  | @ask r₁ r₂ next₁ next₂ hsame hnext ih =>
    have hsent : Event.Alike same ⟨now, .sent r₁⟩ ⟨now, .sent r₂⟩ := ⟨rfl, .sent hsame⟩
    simp only [Process.run, hblind now state _ _ hsame]
    split
    · exact .inr (.inr ⟨.cons hsent .nil, rfl, .stopped _⟩)
    · rcases ih _ _ _ with hlost | hlost | halike
      · exact .inl hlost
      · exact .inr (.inl hlost)
      · exact .inr (.inr ⟨.cons hsent halike.trace, halike.state, halike.ending⟩)
  | pause seconds _ ih =>
    simp only [Process.run]
    split
    · split
      · exact .inr (.inr ⟨.nil, rfl, .stopped _⟩)
      · exact ih _ state
    · exact .inr (.inr ⟨.nil, rfl, .stopped _⟩)
    · exact .inr (.inr ⟨.nil, rfl, .never now⟩)

end Running

end Process

end Admission
