import Mathlib.Data.List.Basic

/-!
# Traces of a reactive system

A reactive system handles one callback after another, each in one step, and reacts to
each.  A trace lists the callbacks that were handled, in order, with the reactions.
-/

namespace CloudRunSsh.Concurrency

/-- A system that handles callbacks.  A callback that cannot happen in a state has no
result there. -/
structure Reactor (State Callback Reaction : Type) where
  initial : State
  react : State → Callback → Option (State × Reaction)

namespace Reactor

variable {State Callback Reaction : Type} (reactor : Reactor State Callback Reaction)

/-- The system has handled the callbacks of a trace, each of them admitted by a guard on
the state before it, and is in a state. -/
inductive Traces (guard : State → Callback → Prop) :
    List (Callback × Reaction) → State → Prop where
  | start : Traces guard [] reactor.initial
  | next {trace : List (Callback × Reaction)} {state after : State} {callback : Callback}
      {reaction : Reaction} :
      Traces guard trace state → guard state callback →
      reactor.react state callback = some (after, reaction) →
      Traces guard (trace ++ [(callback, reaction)]) after

/-- Handle callbacks in order, as long as each passes a check. -/
def run (check : State → Callback → Bool) (trace : List (Callback × Reaction))
    (state : State) : List Callback → Option (List (Callback × Reaction) × State)
  | [] => some (trace, state)
  | callback :: rest =>
      if check state callback then
        (reactor.react state callback).bind fun result =>
          run check (trace ++ [(callback, result.2)]) result.1 rest
      else none

variable {reactor} {guard weaker : State → Callback → Prop}
variable {trace : List (Callback × Reaction)} {state : State}

theorem traces_of_run {check : State → Callback → Bool}
    {after : List (Callback × Reaction)} {target : State} {callbacks : List Callback}
    (traces : reactor.Traces (fun state callback => check state callback = true) trace state)
    (ran : reactor.run check trace state callbacks = some (after, target)) :
    reactor.Traces (fun state callback => check state callback = true) after target := by
  induction callbacks generalizing trace state with
  | nil =>
      cases ran
      exact traces
  | cons callback rest ih =>
      rw [run] at ran
      split at ran
      · rename_i passed
        rcases Option.bind_eq_some_iff.mp ran with ⟨⟨next, reaction⟩, reacted, ran⟩
        exact ih (traces.next passed reacted) ran
      · cases ran

namespace Traces

/-- What holds at the start and is preserved by every admitted callback holds at the end
of every trace. -/
theorem invariant {property : List (Callback × Reaction) → State → Prop}
    (traces : reactor.Traces guard trace state) (initial : property [] reactor.initial)
    (preserved : ∀ {trace state after callback reaction}, reactor.Traces guard trace state →
      property trace state → guard state callback →
      reactor.react state callback = some (after, reaction) →
      property (trace ++ [(callback, reaction)]) after) : property trace state := by
  induction traces with
  | start => exact initial
  | next reached admitted reacted ih => exact preserved reached ih admitted reacted

/-- A trace passes every guard that follows from its own one in the states it reaches. -/
theorem strengthen {stronger : State → Callback → Prop}
    (traces : reactor.Traces guard trace state)
    (implies : ∀ {trace state after callback reaction}, reactor.Traces guard trace state →
      reactor.Traces stronger trace state → guard state callback →
      reactor.react state callback = some (after, reaction) → stronger state callback) :
    reactor.Traces stronger trace state := by
  induction traces with
  | start => exact .start
  | next reached admitted reacted ih =>
      exact ih.next (implies reached ih admitted reacted) reacted

theorem mono (traces : reactor.Traces guard trace state)
    (implies : ∀ state callback, guard state callback → weaker state callback) :
    reactor.Traces weaker trace state :=
  traces.strengthen fun _ _ admitted _ => implies _ _ admitted

/-- What holds of every reaction and the callbacks handled before it holds all along a
trace. -/
theorem at_every_step {property : List (Callback × Reaction) → Callback × Reaction → Prop}
    (traces : reactor.Traces guard trace state)
    (holds : ∀ {trace state after callback reaction}, reactor.Traces guard trace state →
      guard state callback → reactor.react state callback = some (after, reaction) →
      property trace (callback, reaction)) :
    ∀ before record rest, trace = before ++ record :: rest → property before record := by
  apply traces.invariant
  · intro before record rest split
    exact absurd split (by simp)
  · intro trace state after callback reaction reached ih admitted reacted before record rest
      split
    rcases List.eq_nil_or_concat rest with rfl | ⟨front, last, rfl⟩
    · rcases List.append_inj' split rfl with ⟨rfl, same⟩
      cases same
      exact holds reached admitted reacted
    · rw [List.concat_eq_append, ← List.cons_append, ← List.append_assoc] at split
      exact ih before record front (List.append_inj' split rfl).1

end Traces

end Reactor

end CloudRunSsh.Concurrency
