/-
This file is the transition-system library of the development. It knows nothing
of sessions or stores: a machine is a partial step function on states, labelled
with an action and a reply, and a run is a chain of steps with the trace of
their labels.

A proof about every interleaving is an induction over runs. It is done once
here: `Run.invariant` carries a property of states along a run, `Run.related`
carries a preorder between the first and the last state, and `Run.onset` finds
the step at which a property that holds at the end, but not at the start, became
true.

A machine `Refines` a specification when each of its steps shows one event and
the specification takes that event; `Refines.run` carries this along a run.
-/

import Mathlib.Order.Basic

namespace Saysion

/-- A labelled transition system. A step is a partial function of the state and the chosen
action; it answers the caller with a reply. -/
structure Machine (State Action Reply : Type) where
  init : State → Prop
  step : State → Action → Option (Reply × State)

namespace Machine

variable {State Action Reply : Type} (machine : Machine State Action Reply)

/-- A run from `start`, with the labels of its steps, the latest first. -/
inductive Run (start : State) : List (Action × Reply) → State → Prop
  | refl : Run start [] start
  | tail {trace : List (Action × Reply)} {middle next : State} {action : Action} {reply : Reply} :
      Run start trace middle → machine.step middle action = some (reply, next) →
        Run start ((action, reply) :: trace) next

/-- The states some run reaches from an initial one. -/
def Reachable (state : State) : Prop :=
  ∃ start trace, machine.init start ∧ machine.Run start trace state

variable {machine} {start middle state next : State} {trace later : List (Action × Reply)}

theorem Run.trans (first : machine.Run start trace middle) (second : machine.Run middle later state) :
    machine.Run start (later ++ trace) state := by
  induction second with
  | refl => exact first
  | tail _ step inductionHypothesis => exact inductionHypothesis.tail step

/-- A property every step of a run preserves holds at its end. -/
theorem Run.invariant {property : State → Prop}
    (preserved : ∀ {before action reply after}, property before →
      machine.step before action = some (reply, after) → property after)
    (run : machine.Run start trace state) (initial : property start) : property state := by
  induction run with
  | refl => exact initial
  | tail _ step inductionHypothesis => exact preserved inductionHypothesis step

/-- A preorder every step of a run respects, under an invariant, relates its two ends. -/
theorem Run.related {property : State → Prop} {relation : State → State → Prop}
    (reflexive : ∀ state, relation state state)
    (transitive : ∀ {first second third}, relation first second → relation second third →
      relation first third)
    (preserved : ∀ {before action reply after}, property before →
      machine.step before action = some (reply, after) → property after)
    (advances : ∀ {before action reply after}, property before →
      machine.step before action = some (reply, after) → relation before after)
    (run : machine.Run start trace state) (initial : property start) : relation start state := by
  induction run with
  | refl => exact reflexive _
  | tail before step inductionHypothesis =>
    exact transitive inductionHypothesis (advances (before.invariant preserved initial) step)

/-- A property that fails at the start of a run and holds at its end became true at one of
its steps. -/
theorem Run.onset (property : State → Prop) (run : machine.Run start trace state)
    (absent : ¬ property start) (present : property state) :
    ∃ before action reply after earlier later, machine.Run start earlier before ∧
      machine.step before action = some (reply, after) ∧ ¬ property before ∧ property after ∧
        machine.Run after later state := by
  induction run with
  | refl => exact absurd present absent
  | @tail trace middle next action reply prefixRun step inductionHypothesis =>
    by_cases already : property middle
    · obtain ⟨before, act, rep, after, earlier, later, first, change, fails, holds, rest⟩ :=
        inductionHypothesis already
      exact ⟨before, act, rep, after, earlier, _, first, change, fails, holds, rest.tail step⟩
    · exact ⟨middle, action, reply, next, trace, [], prefixRun, step, already, present, Run.refl⟩

theorem Reachable.tail {action : Action} {reply : Reply} (reachable : machine.Reachable state)
    (step : machine.step state action = some (reply, next)) : machine.Reachable next := by
  obtain ⟨start, trace, initial, run⟩ := reachable
  exact ⟨start, _, initial, run.tail step⟩

theorem Reachable.run (reachable : machine.Reachable middle)
    (run : machine.Run middle later state) : machine.Reachable state := by
  obtain ⟨start, trace, initial, earlier⟩ := reachable
  exact ⟨start, _, initial, earlier.trans run⟩

/-- A property of the initial states that every step preserves holds in every reachable
state. -/
theorem Reachable.invariant {property : State → Prop}
    (initially : ∀ {state}, machine.init state → property state)
    (preserved : ∀ {before action reply after}, property before →
      machine.step before action = some (reply, after) → property after)
    (reachable : machine.Reachable state) : property state := by
  obtain ⟨start, trace, initial, run⟩ := reachable
  exact run.invariant preserved (initially initial)

/-! ### What happened in a run -/

/-- A step of a kind was taken in the run that has this trace and ends in this state. -/
def Happened (machine : Machine State Action Reply)
    (event : State → Action → Reply → State → Prop) (start : State)
    (trace : List (Action × Reply)) (state : State) : Prop :=
  ∃ earlier before action reply after later, trace = later ++ (action, reply) :: earlier ∧
    machine.Run start earlier before ∧ machine.step before action = some (reply, after) ∧
      event before action reply after ∧ machine.Run after later state

namespace Happened

variable {event : State → Action → Reply → State → Prop} {action : Action} {reply : Reply}

theorem now (run : machine.Run start trace state)
    (step : machine.step state action = some (reply, next))
    (happens : event state action reply next) :
    machine.Happened event start ((action, reply) :: trace) next :=
  ⟨trace, state, action, reply, next, [], rfl, run, step, happens, .refl⟩

theorem run (happened : machine.Happened event start trace middle)
    (rest : machine.Run middle later state) :
    machine.Happened event start (later ++ trace) state := by
  obtain ⟨earlier, before, action, reply, after, between, rfl, first, step, happens, run⟩ := happened
  exact ⟨earlier, before, action, reply, after, later ++ between, (List.append_assoc _ _ _).symm,
    first, step, happens, run.trans rest⟩

theorem tail (happened : machine.Happened event start trace state)
    (step : machine.step state action = some (reply, next)) :
    machine.Happened event start ((action, reply) :: trace) next :=
  happened.run (Run.refl.tail step)

end Happened

/-! ### Leaving out actions -/

variable (machine)

/-- The machine in which only some actions may be taken. -/
def restrict (allowed : Action → Bool) : Machine State Action Reply where
  init := machine.init
  step state action := if allowed action then machine.step state action else none

variable {machine}

theorem restrict_step {allowed : Action → Bool} {action : Action} {reply : Reply} :
    (machine.restrict allowed).step state action = some (reply, next) ↔
      allowed action = true ∧ machine.step state action = some (reply, next) := by
  simp [restrict]

/-! ### Replaying a list of actions -/

variable (machine)

/-- Take the actions of a list in order, and keep the trace. -/
def replay : State → List Action → Option (List (Action × Reply) × State)
  | state, [] => some ([], state)
  | state, action :: rest => (machine.step state action).bind fun next =>
      (replay next.2 rest).map fun last => (last.1 ++ [(action, next.1)], last.2)

variable {machine}

theorem run_of_replay {actions : List Action}
    (replayed : machine.replay start actions = some (trace, state)) :
    machine.Run start trace state := by
  induction actions generalizing start trace with
  | nil =>
    cases replayed
    exact Run.refl
  | cons action rest inductionHypothesis =>
    simp only [replay, Option.bind_eq_some_iff, Option.map_eq_some_iff] at replayed
    obtain ⟨⟨reply, next⟩, step, ⟨later, last⟩, remaining, same⟩ := replayed
    cases same
    exact (Run.refl.tail step).trans (inductionHypothesis remaining)

/-- A replay that goes through is a run. -/
theorem run_replay (machine : Machine State Action Reply) (start : State) (actions : List Action)
    (through : (machine.replay start actions).isSome) :
    machine.Run start ((machine.replay start actions).get through).1
      ((machine.replay start actions).get through).2 :=
  run_of_replay (Option.some_get through).symm

/-! ### Following a policy -/

variable (machine)

/-- Take the actions that a policy chooses, until it chooses none, and keep the trace. -/
def drive (policy : State → Option Action) : Nat → State → Option (List (Action × Reply) × State)
  | 0, _ => none
  | fuel + 1, state =>
    match policy state with
    | none => some ([], state)
    | some action => (machine.step state action).bind fun next =>
        (drive policy fuel next.2).map fun last => (last.1 ++ [(action, next.1)], last.2)

variable {machine}

theorem drive_of_done {policy : State → Option Action} (fuel : Nat) (done : policy state = none) :
    machine.drive policy (fuel + 1) state = some ([], state) := by
  rw [drive, done]

theorem drive_of_step {policy : State → Option Action} {fuel : Nat} {action : Action} {reply : Reply}
    {last : State} (chosen : policy state = some action)
    (step : machine.step state action = some (reply, next))
    (rest : machine.drive policy fuel next = some (later, last)) :
    machine.drive policy (fuel + 1) state = some (later ++ [(action, reply)], last) := by
  simp only [drive, chosen, step, Option.bind_some, rest, Option.map_some]

/-- Where a policy ends, with the reply of its last action. -/
def conclude (machine : Machine State Action Reply) (policy : State → Option Action) (fuel : Nat)
    (state : State) : Option (Reply × State) :=
  (machine.drive policy fuel state).bind fun (trace, last) =>
    trace.head?.map fun (_, reply) => (reply, last)

theorem conclude_of_last {policy : State → Option Action} {action : Action} {reply : Reply}
    (fuel : Nat) (chosen : policy state = some action)
    (step : machine.step state action = some (reply, next)) (done : policy next = none) :
    machine.conclude policy (fuel + 2) state = some (reply, next) := by
  rw [conclude, drive_of_step chosen step (drive_of_done fuel done)]
  rfl

theorem conclude_of_step {policy : State → Option Action} {fuel : Nat} {action : Action}
    {earlier reply : Reply} {last : State} (chosen : policy state = some action)
    (step : machine.step state action = some (earlier, next))
    (rest : machine.conclude policy fuel next = some (reply, last)) :
    machine.conclude policy (fuel + 1) state = some (reply, last) := by
  simp only [conclude, Option.bind_eq_some_iff, Option.map_eq_some_iff] at rest
  obtain ⟨⟨trace, final⟩, driven, ⟨⟨action', answer⟩, head, same⟩⟩ := rest
  cases same
  rw [conclude, drive_of_step chosen step driven]
  cases trace with
  | nil => cases head
  | cons entry trace =>
    cases head
    rfl

theorem run_of_drive {policy : State → Option Action} {fuel : Nat}
    (driven : machine.drive policy fuel start = some (trace, state)) :
    machine.Run start trace state := by
  induction fuel generalizing start trace with
  | zero => cases driven
  | succ fuel inductionHypothesis =>
    rw [drive] at driven
    split at driven
    · cases driven
      exact Run.refl
    · simp only [Option.bind_eq_some_iff, Option.map_eq_some_iff] at driven
      obtain ⟨⟨reply, next⟩, step, ⟨later, last⟩, rest, same⟩ := driven
      cases same
      exact (Run.refl.tail step).trans (inductionHypothesis rest)

theorem run_of_conclude {policy : State → Option Action} {fuel : Nat} {reply : Reply}
    (concluded : machine.conclude policy fuel start = some (reply, state)) :
    ∃ trace, machine.Run start trace state := by
  simp only [conclude, Option.bind_eq_some_iff, Option.map_eq_some_iff] at concluded
  obtain ⟨⟨trace, last⟩, driven, entry, _, same⟩ := concluded
  cases same
  exact ⟨trace, run_of_drive driven⟩

end Machine

/-! ### Refinement -/

/-- What a system is for: an initial state, and the events that lead from one state to another. -/
structure Specification (Spec Event : Type*) where
  init : Spec
  next : Spec → Event → Spec → Prop

/-- A run of a specification, with its events, the latest first. -/
inductive Specification.Run {Spec Event : Type*} (specification : Specification Spec Event) :
    List Event → Spec → Prop
  | refl : Run specification [] specification.init
  | tail {events : List Event} {event : Event} {middle last : Spec} :
      Run specification events middle → specification.next middle event last →
        Run specification (event :: events) last

namespace Machine

variable {State Action Reply : Type} {Spec Event : Type*} {machine : Machine State Action Reply}
  {shows : State → Action → Reply → State → Event → Prop} {start state next : State}
  {trace : List (Action × Reply)} {action : Action} {reply : Reply}

/-- The run with this trace, and the event that each of its steps shows, the latest first. -/
inductive Shown (machine : Machine State Action Reply)
    (shows : State → Action → Reply → State → Event → Prop) (start : State) :
    List (Action × Reply) → List Event → State → Prop
  | refl : Shown machine shows start [] [] start
  | tail {trace : List (Action × Reply)} {events : List Event} {event : Event}
      {middle next : State} {action : Action} {reply : Reply} :
      Shown machine shows start trace events middle →
        machine.step middle action = some (reply, next) → shows middle action reply next event →
          Shown machine shows start ((action, reply) :: trace) (event :: events) next

/-- Every step of the machine shows an event that the specification takes, from what the state
represents to what the next one does. -/
structure Refines (machine : Machine State Action Reply) (specification : Specification Spec Event)
    (represents : State → Spec → Prop) (shows : State → Action → Reply → State → Event → Prop) :
    Prop where
  initial : ∀ {state}, machine.init state → represents state specification.init
  step : ∀ {state action reply next spec}, machine.Reachable state → represents state spec →
    machine.step state action = some (reply, next) →
      ∃ event last, shows state action reply next event ∧ specification.next spec event last ∧
        represents next last

namespace Refines

variable {specification : Specification Spec Event} {represents : State → Spec → Prop}

/-- A run of the machine shows a run of the specification. -/
theorem run (refines : machine.Refines specification represents shows)
    (initially : machine.init start) (run : machine.Run start trace state) :
    ∃ events spec, machine.Shown shows start trace events state ∧ specification.Run events spec ∧
      represents state spec := by
  induction run with
  | refl => exact ⟨[], _, .refl, .refl, refines.initial initially⟩
  | tail before step inductionHypothesis =>
    obtain ⟨events, spec, shown, abstractRun, same⟩ := inductionHypothesis
    obtain ⟨event, last, shows, takes, still⟩ :=
      refines.step ⟨start, _, initially, before⟩ same step
    exact ⟨event :: events, last, shown.tail step shows, abstractRun.tail takes, still⟩

/-- The event of a step after a run, and the run of the specification before it. -/
theorem event (refines : machine.Refines specification represents shows)
    (initially : machine.init start) (run : machine.Run start trace state)
    (step : machine.step state action = some (reply, next)) :
    ∃ events event spec last, machine.Shown shows start trace events state ∧
      shows state action reply next event ∧ specification.Run events spec ∧
        specification.next spec event last := by
  obtain ⟨events, spec, shown, abstractRun, same⟩ := refines.run initially run
  obtain ⟨event, last, shows, takes, _⟩ := refines.step ⟨start, _, initially, run⟩ same step
  exact ⟨events, event, spec, last, shown, shows, abstractRun, takes⟩

end Refines

end Machine

end Saysion
