import Mathlib.Data.List.Basic

/-!
# Programs with a contract

A library has a state that its clients do not see. Its contract says which
calls a client may make, going by what the client knows from the responses so
far. What one allowed call preserves, every session preserves in which all
calls are allowed.
-/

namespace Crashlog

structure Contract (State Call Response Fault Ledger : Type*) where
  call : Call → State → Except Fault (Response × State)
  /-- What the client knows before its first call. -/
  start : Ledger
  allows : Ledger → Call → Prop
  learn : Ledger → Call → Response → Ledger

namespace Contract

variable {State Call Response Fault Ledger Item : Type*} (contract : Contract State Call Response Fault Ledger)

/-- A call with its response and the state after it. -/
structure Exchange (State Call Response : Type*) where
  call : Call
  response : Response
  after : State

/-- A session: allowed calls that all return. -/
inductive Session : Ledger → State → List (Exchange State Call Response) → Ledger → State → Prop
  | done (ledger : Ledger) (state : State) : Session ledger state [] ledger state
  | step {ledger last : Ledger} {state final : State} {exchange : Exchange State Call Response}
      {rest : List (Exchange State Call Response)} (allowed : contract.allows ledger exchange.call)
      (returned : contract.call exchange.call state = .ok (exchange.response, exchange.after))
      (later : Session (contract.learn ledger exchange.call exchange.response) exchange.after rest last final) :
      Session ledger state (exchange :: rest) last final

/-- What the client knows agrees with the state, and allowed calls keep it so. -/
structure Keeps (Agrees : Ledger → State → Prop) : Prop where
  step : ∀ ledger state call response after, Agrees ledger state → contract.allows ledger call →
    contract.call call state = .ok (response, after) → Agrees (contract.learn ledger call response) after

variable {contract} {ledger middle last : Ledger} {state between final : State}
  {trace other : List (Exchange State Call Response)} {Agrees : Ledger → State → Prop}

theorem Keeps.session (keeps : contract.Keeps Agrees) (session : contract.Session ledger state trace last final)
    (agrees : Agrees ledger state) : Agrees last final := by
  induction session with
  | done => exact agrees
  | step allowed returned _ ih => exact ih (keeps.step _ _ _ _ _ agrees allowed returned)

theorem Session.append (first : contract.Session ledger state trace middle between)
    (second : contract.Session middle between other last final) :
    contract.Session ledger state (trace ++ other) last final := by
  induction first with
  | done => exact second
  | step allowed returned _ ih => exact .step allowed returned (ih second)

/-- A part of the state from which items are drawn: what one allowed call draws
and leaves is what there was before it, as long as the part is there. -/
structure Draws (Agrees : Ledger → State → Prop) (pending : State → Option (List Item))
    (drawn : Exchange State Call Response → List Item) : Prop where
  step : ∀ ledger state exchange left after, Agrees ledger state → contract.allows ledger exchange.call →
    contract.call exchange.call state = .ok (exchange.response, exchange.after) →
    pending state = some left → pending exchange.after = some after → drawn exchange ++ after = left

variable {pending : State → Option (List Item)} {drawn : Exchange State Call Response → List Item}

/-- What is drawn in a session, and then is left, is what there was before it. -/
theorem Draws.session (keeps : contract.Keeps Agrees) (draws : contract.Draws Agrees pending drawn)
    (session : contract.Session ledger state trace last final) (agrees : Agrees ledger state) {left : List Item}
    (held : pending state = some left) (throughout : ∀ exchange ∈ trace, (pending exchange.after).isSome) :
    ∃ after, pending final = some after ∧ trace.flatMap drawn ++ after = left := by
  induction session generalizing left with
  | done => exact ⟨left, held, rfl⟩
  | @step ledger last state final exchange rest allowed returned _ ih =>
      rw [List.forall_mem_cons] at throughout
      obtain ⟨between, present⟩ := Option.isSome_iff_exists.mp throughout.1
      have one := draws.step ledger state exchange left between agrees allowed returned held present
      obtain ⟨after, final, others⟩ := ih (keeps.step _ _ _ _ _ agrees allowed returned) present throughout.2
      exact ⟨after, final, by rw [List.flatMap_cons, List.append_assoc, others, one]⟩

end Contract

end Crashlog
