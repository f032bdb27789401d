import Admission.Exchange.Process
import Admission.Settings.Basic

/-!
Queries: a request that is sent again after a pause while the provider fails in passing. Each pause
is twice as long as the one before, unless the provider names its length, and never exceeds a cap.
-/

set_option autoImplicit false
set_option relaxedAutoImplicit false

namespace Admission.Query

/-- The seconds that a provider asks to wait, if it names them in digits. -/
def namedSeconds? (retryAfter : Option String) : Option Binary64 :=
  let cs := Text.trimChars (retryAfter.getD "").toList
  if cs.isEmpty || !cs.all Numeral.isDigit then none
  else some (Binary64.ofDecimal false (Numeral.ofDigits cs) 0)

/-- The pause after a number of attempts, counted from zero. The power of two has to be a floating
point number, even if the provider names the length. -/
def delay (backoff cap : Binary64) (attempt : Int) (retryAfter : Option String) :
    Except Fault Binary64 :=
  if 1024 ≤ attempt then .error .integerTooLarge
  else
    let doubled := backoff.mul (Binary64.powTwo attempt)
    let wanted := (namedSeconds? retryAfter).getD doubled
    .ok (Binary64.zero.max (wanted.min cap))

def delayFor (settings : ProviderSettings) (attempt : Nat) (retryAfter : Option String) :
    Except Fault Binary64 :=
  delay settings.probeBackoff settings.probeBackoffCap attempt retryAfter

/-- The response that settles a query, and the address that was asked. -/
structure Reply where
  url : Url
  response : Response

/-- The result of the last attempt. -/
def conclude (url : String) (asked : Url) : Except Fault Answer → Except Problem Reply
  | .ok (.response r) => .ok ⟨asked, r⟩
  | .ok (.broken reason) => .error (.failure (.unreachable url reason))
  | .error f => .error (.fault f)

/-- An attempt settles the query, or there is a reason to try again. -/
inductive Step
  | settled (result : Except Problem Reply)
  | again (n : Notice) (seconds : Binary64)

/-- Another attempt after a pause, if the pause can be computed. -/
def again (pause : Except Fault Binary64) (note : Binary64 → Notice) : Step :=
  match pause with
  | .ok seconds => .again (note seconds) seconds
  | .error f => .settled (.error (.fault f))

/-- What follows an attempt that is not the last one. -/
def step (settings : ProviderSettings) (url : String) (asked : Url) (attempt : Nat) :
    Except Fault Answer → Step
  | .ok (.response r) =>
    if isTransient r.status then
      again (delayFor settings attempt r.retryAfter?) (.retryStatus r.status url (attempt + 1))
    else .settled (.ok ⟨asked, r⟩)
  | .ok (.broken _) =>
    again (delayFor settings attempt none) (.retryUnanswered url (attempt + 1))
  | .error f => .settled (.error (.fault f))

/-- Sends a request, and again so many times more. -/
def attempts (settings : ProviderSettings) (url : String) (request : Request) (attempt : Nat) :
    Nat → Process (Except Problem Reply)
  | 0 => .ask request fun answer ↦ .done (conclude url request.url (request.receive answer))
  | more + 1 => .ask request fun answer ↦
    match step settings url request.url attempt (request.receive answer) with
    | .settled result => .done result
    | .again n seconds =>
      .notice n (.pause seconds (attempts settings url request (attempt + 1) more))

/-- A query for an address, with a parameter that replaces its own ones. -/
def get (settings : ProviderSettings) (url : String) (parameter : Option (String × String)) :
    Process (Except Problem Reply) :=
  match Request.make url parameter none with
  | .error f => .faulty f
  | .ok request => attempts settings url request 0 settings.probeMaxRetries

/-- The waits of a query: one for each answer, and one between two of them. -/
def waits (settings : ProviderSettings) : Nat :=
  2 * settings.probeMaxRetries + 1

section Obeys

variable {sends : Request → Prop} {pauses : Binary64 → Prop} {settings : ProviderSettings}
  {url : String}

/-- A query sends its request only, and pauses only between two attempts. -/
theorem attempts_obeys {request : Request} (hrequest : sends request)
    (hpauses : ∀ attempt received n seconds,
      step settings url request.url attempt received = .again n seconds → pauses seconds)
    (attempt more : Nat) :
    (attempts settings url request attempt more).Obeys sends pauses (2 * more + 1) := by
  induction more generalizing attempt with
  | zero => exact .ask hrequest fun _ ↦ .done _ 0
  | succ more ih =>
    refine .ask hrequest fun answer ↦ ?_
    split
    · exact .done _ _
    · rename_i hstep
      exact .notice _ (.pause (hpauses _ _ _ _ hstep) (ih (attempt + 1)))

theorem get_obeys {parameter : Option (String × String)}
    (hsends : ∀ request, Request.make url parameter none = .ok request → sends request)
    (hpauses : ∀ asked attempt received n seconds,
      step settings url asked attempt received = .again n seconds → pauses seconds) :
    (get settings url parameter).Obeys sends pauses (waits settings) := by
  unfold get
  split
  · exact .done _ _
  · rename_i request hmake
    exact attempts_obeys (hsends request hmake) (hpauses _) 0 settings.probeMaxRetries

end Obeys

end Admission.Query
