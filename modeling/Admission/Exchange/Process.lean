import Admission.Exchange.Message
import Admission.Notice

/-!
Processes: conversations with a provider. A process gives notices, asks and pauses until it is done;
what it goes on with after asking depends on the answer.
-/

set_option autoImplicit false
set_option relaxedAutoImplicit false

namespace Admission

inductive Process (α : Type)
  | done (result : α)
  | notice (n : Notice) (rest : Process α)
  | ask (request : Request) (next : Answer → Process α)
  | pause (seconds : Binary64) (rest : Process α)

namespace Process

variable {α β : Type}

def bind : Process α → (α → Process β) → Process β
  | done result, f => f result
  | notice n rest, f => notice n (rest.bind f)
  | ask request next, f => ask request fun answer ↦ (next answer).bind f
  | pause seconds rest, f => pause seconds (rest.bind f)

instance : Monad Process where
  pure := done
  bind := bind

/-- Ends with a failure. -/
def fail (f : Failure) : Process (Except Problem α) :=
  done (.error (.failure f))

/-- Ends with a fault. -/
def faulty (f : Fault) : Process (Except Problem α) :=
  done (.error (.fault f))

/-- Goes on unless there was a problem. -/
def andThen (p : Process (Except Problem α)) (f : α → Process (Except Problem β)) :
    Process (Except Problem β) :=
  p.bind fun
    | .ok a => f a
    | .error problem => done (.error problem)

/-- Whatever the answers are, a process sends only requests of some kind, pauses only for times of
some kind, and waits at most so many times. -/
inductive Obeys {α : Type} (sends : Request → Prop) (pauses : Binary64 → Prop) :
    Process α → Nat → Prop
  | done (result : α) (n : Nat) : Obeys sends pauses (done result) n
  | notice (note : Notice) {rest : Process α} {n : Nat} (h : Obeys sends pauses rest n) :
    Obeys sends pauses (notice note rest) n
  | ask {request : Request} {next : Answer → Process α} {n : Nat} (hrequest : sends request)
    (h : ∀ answer, Obeys sends pauses (next answer) n) :
    Obeys sends pauses (ask request next) (n + 1)
  | pause {seconds : Binary64} {rest : Process α} {n : Nat} (hseconds : pauses seconds)
    (h : Obeys sends pauses rest n) : Obeys sends pauses (pause seconds rest) (n + 1)

/-- A process asks and pauses at most so many times, whatever the answers are. -/
abbrev WaitsAtMost (p : Process α) (n : Nat) : Prop :=
  p.Obeys (fun _ ↦ True) (fun _ ↦ True) n

namespace Obeys

variable {sends sends' : Request → Prop} {pauses pauses' : Binary64 → Prop}

theorem imp {p : Process α} {n : Nat} (h : p.Obeys sends pauses n)
    (hsends : ∀ request, sends request → sends' request)
    (hpauses : ∀ seconds, pauses seconds → pauses' seconds) : p.Obeys sends' pauses' n := by
  induction h with
  | done result n => exact .done result n
  | notice note _ ih => exact .notice note ih
  | ask hrequest _ ih => exact .ask (hsends _ hrequest) ih
  | pause hseconds _ ih => exact .pause (hpauses _ hseconds) ih

theorem mono {p : Process α} {m n : Nat} (h : p.Obeys sends pauses m) (hmn : m ≤ n) :
    p.Obeys sends pauses n := by
  induction h generalizing n with
  | done result => exact .done result n
  | notice note _ ih => exact .notice note (ih hmn)
  | ask hrequest _ ih =>
    obtain _ | n := n
    · exact absurd hmn (Nat.not_succ_le_zero _)
    · exact .ask hrequest fun a ↦ ih a (Nat.le_of_succ_le_succ hmn)
  | pause hseconds _ ih =>
    obtain _ | n := n
    · exact absurd hmn (Nat.not_succ_le_zero _)
    · exact .pause hseconds (ih (Nat.le_of_succ_le_succ hmn))

/-- The waits of two processes in a row add up. -/
theorem bind {p : Process α} {f : α → Process β} {m n : Nat} (hp : p.Obeys sends pauses m)
    (hf : ∀ a, (f a).Obeys sends pauses n) : (p.bind f).Obeys sends pauses (m + n) := by
  induction hp with
  | done a m => exact (hf a).mono (Nat.le_add_left n m)
  | notice note _ ih => exact .notice note ih
  | ask hrequest _ ih => exact Nat.succ_add _ n ▸ .ask hrequest ih
  | pause hseconds _ ih => exact Nat.succ_add _ n ▸ .pause hseconds ih

theorem andThen {p : Process (Except Problem α)} {f : α → Process (Except Problem β)} {m n : Nat}
    (hp : p.Obeys sends pauses m) (hf : ∀ a, (f a).Obeys sends pauses n) :
    (p.andThen f).Obeys sends pauses (m + n) := by
  refine hp.bind fun r ↦ ?_
  cases r with
  | ok a => exact hf a
  | error problem => exact .done _ n

end Obeys

end Process

end Admission
