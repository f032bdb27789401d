import Admission.Proofs.Pool.Slots
import Admission.Proofs.Probe.Answers

/-!
# The bounds of a fan-out

The probes of a fan-out get their slots in the order of the whitelist, and never are more slots
taken than there are. `fanOut_bounded` says so of every instant and of all that the fan-out passes
through (`Passes`), and that nothing is left over when the call ends, in whatever way: no probe is
running or waiting any more, all slots have been given back, and nothing is sent from then on. The
first probe that fails ends the call at its own instant.

The loop goes on for as long as anything can happen, also when the call has ended already. That
nothing happens then is due to the call, which cancels the probes and waits until all of them have
come to their ends.
-/

set_option autoImplicit false
set_option relaxedAutoImplicit false

namespace Admission.Probe

variable {σ : Type} {responder : Responder σ} {settings : Settings} {user : User} {token : Tokens}
  {last : Option Rat} {now : Rat} {state : σ}

theorem mem_requests {trace : Trace} {request : Rat × Request} (h : request ∈ trace.requests) :
    ∃ x ∈ trace, x.time = request.1 := by
  obtain ⟨x, hx, hsent⟩ := List.mem_filterMap.mp h
  refine ⟨x, hx, ?_⟩
  split at hsent
  · cases hsent
    rfl
  · cases hsent

/-- A fan-out passes through a pool of its probes. -/
def Passes (responder : Responder σ) (settings : Settings) (user : User) (token : Tokens)
    (last : Option Rat) (now : Rat) (state : σ)
    (pool : Pool σ (Except Problem Bool) (Except Fault Membership)) : Prop :=
  let rules := rules responder settings.provider
  Pool.Leads rules (Pool.opened rules last now state
    (settings.whitelist.teams.map (job settings.provider user token))) pool

theorem passes_halted :
    Passes responder settings user token last now state
      (halted responder settings user token now state last).1 :=
  (Pool.leads_run ..).1

/-- A fan-out ends at the last instant of its pool. -/
theorem fanOut_time : (fanOut responder settings user token last now state).time =
    (halted responder settings user token now state last).1.now := by
  show (halted responder settings user token now state last).1.time = _
  unfold Pool.time
  split
  · rename_i halt time hcall
    exact (passes_halted.of_left hcall).1
  · rfl

/-- A fan-out that ends leaves its pool. -/
theorem halt_ne_stuck (h : (fanOut responder settings user token last now state).outcome ≠ .stuck) :
    (halted responder settings user token now state last).2 ≠ .stuck := by
  intro hstuck
  apply h
  rw [outcome_fanOut, hstuck]
  rfl

/-- Once the call is left, no probe is left, and the fan-out does nothing any more. -/
theorem Passes.of_left {pool : Pool σ (Except Problem Bool) (Except Fault Membership)} {halt : Halt}
    {time : Rat} (h : Passes responder settings user token last now state pool)
    (hleft : pool.call = .left halt time) :
    pool.unfinished = [] ∧ pool.now = time ∧
      (fanOut responder settings user token last now state).time = time ∧
      (fanOut responder settings user token last now state).trace = pool.trace := by
  obtain ⟨htime, hunfinished, -⟩ := Pool.Leads.of_left h hleft
  have hplay : (halted responder settings user token now state last).1 =
      Pool.play (rules responder settings.provider) pool := Pool.play_of_leads h
  obtain ⟨hcall, htrace⟩ := Pool.Leads.stays_left h hleft (Pool.leads_play _ pool).1
  rw [← hplay] at hcall htrace
  refine ⟨hunfinished, htime.symm, ?_, htrace⟩
  exact fanOut_time.trans (Pool.Leads.of_left passes_halted hcall).1.symm

/-- The probes of a fan-out get their slots in the order of the whitelist, one after the other. At
every instant, and at every turn of it, no more slots are held than there are. When the call has
ended, in whatever way, no probe is left, all slots have been given back, and nothing is done any
more; nothing was sent later. The first failure ends the call at its own instant. -/
theorem fanOut_bounded (responder : Responder σ) (settings : Settings) (user : User)
    (token : Tokens) (last : Option Rat) (now : Rat) (state : σ) :
    let fan := fanOut responder settings user token last now state
    let left := (halted responder settings user token now state last).1
    let slots := left.tenures
    slots.map Pool.Tenure.position <+: List.range settings.whitelist.teams.length ∧
      slots.Pairwise (fun a b ↦ a.since ≤ b.since) ∧
      (∀ time, slots.countP (Pool.Tenure.lastsAt · time) ≤ settings.provider.probeConcurrency) ∧
      (∀ pool, Passes responder settings user token last now state pool →
        (Pool.holders pool.unfinished).length ≤ settings.provider.probeConcurrency ∧
        ∀ halt time, pool.call = .left halt time →
          pool.unfinished = [] ∧ pool.now = time ∧ fan.time = time ∧ fan.trace = pool.trace) ∧
      (fan.outcome ≠ .stuck → left.unfinished = [] ∧ ∀ slot ∈ slots,
        ∃ time, slot.until? = some time ∧ slot.since ≤ time ∧ time ≤ fan.time) ∧
      (∀ request ∈ fan.trace.requests, request.1 ≤ fan.time) ∧
      ∀ e ∈ left.ended, stops e.result = true → fan.time = e.time := by
  intro fan left slots
  have hleads : Passes responder settings user token last now state left := passes_halted
  have htime : fan.time = left.now := fanOut_time
  refine ⟨?_, ?_, hleads.countP_lastsAt_le, fun pool hpool ↦ ⟨?_, fun _ _ ↦ hpool.of_left⟩,
    fun houtcome ↦ ?_, fun request hrequest ↦ ?_, fun e he hstops ↦ ?_⟩
  · have hfirst := hleads.begun_inOrder
    rwa [List.length_map, ← Pool.map_position_tenures] at hfirst
  · exact List.pairwise_map.mpr hleads.ordered.begun
  · exact Nat.le.intro (Pool.Leads.placed hpool).length_holders
  · have hunfinished : left.unfinished = [] := (Pool.run_of_halt (halt_ne_stuck houtcome)).2.1
    exact ⟨hunfinished, htime ▸ hleads.exists_until hunfinished⟩
  · obtain ⟨x, hx, hat⟩ := mem_requests hrequest
    rw [← hat, htime]
    exact hleads.past.trace x hx
  · rw [htime]
    exact (hleads.breaks_now e he hstops).symm

/-- Two slots, and a call that would be given up after four seconds. The team gets its slot from the
first organization, and the call ends when the second one fails: the slot that becomes free then
goes through all entries that wait for it, and the team gives up its own. -/
theorem fanOut_bounded_uneven :
    let user : User := { username := "u" }
    let token : Tokens := { access := "t" }
    let fan := fanOut Script.responder unevenSettings user token (some 4) 0 unevenScript
    let left := (halted Script.responder unevenSettings user token 0 unevenScript (some 4)).1
    left.tenures = [⟨0, 0, some 1⟩, ⟨1, 0, some 2⟩, ⟨2, 1, some 2⟩, ⟨3, 2, some 2⟩, ⟨4, 2, some 2⟩,
        ⟨5, 2, some 2⟩] ∧
      (∀ time, left.tenures.countP (Pool.Tenure.lastsAt · time) ≤ 2) ∧
      left.dropped = [⟨2, 2⟩, ⟨5, 2⟩] ∧ left.unfinished = [] ∧ fan.time = 2 ∧
      ∀ request ∈ fan.trace.requests, request.1 ≤ 2 := by
  intro user token fan left
  have hends : (left.tenures, left.dropped, fan.time) = ([⟨0, 0, some 1⟩, ⟨1, 0, some 2⟩,
      ⟨2, 1, some 2⟩, ⟨3, 2, some 2⟩, ⟨4, 2, some 2⟩, ⟨5, 2, some 2⟩], [⟨2, 2⟩, ⟨5, 2⟩], 2) := by
    decide +kernel
  have hanswers : (match fan.outcome with | .stuck => false | _ => true) = true := by decide +kernel
  have houtcome : fan.outcome ≠ .stuck := fun hstuck ↦ by
    rw [hstuck] at hanswers
    cases hanswers
  obtain ⟨-, -, hslots, -, hleft, hrequests, -⟩ :=
    fanOut_bounded Script.responder unevenSettings user token (some 4) 0 unevenScript
  simp only [Prod.mk.injEq] at hends
  obtain ⟨htenures, hdropped, htime⟩ := hends
  exact ⟨htenures, hslots, hdropped, (hleft houtcome).1, htime, fun request hrequest ↦
    (hrequests request hrequest).trans_eq htime⟩

end Admission.Probe
