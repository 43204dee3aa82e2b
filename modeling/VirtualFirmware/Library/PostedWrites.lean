import Mathlib.Data.Option.Basic
import Mathlib.Tactic.Common

/-!
# Writes that wait in a queue

A program writes to a device and, between the writes, has effects on a state that the device
reads. Some writes are posted: they wait in a queue and reach the device later, in order; any
other write pushes out the whole queue before it. An effect that commutes with every write
still waiting cannot tell whether those have been delivered, and a program whose effects all
do so ends as it would without the queue.
-/

namespace VirtualFirmware.Library

/-- What a program does: write to the device, or change the state directly. -/
inductive Action (W E : Type) where
  | write (w : W)
  | effect (e : E)
deriving DecidableEq

/-- What happens in a run: the program acts, or the oldest posted write is delivered. -/
inductive Move (W E : Type) where
  | act (action : Action W E)
  | deliver
deriving DecidableEq

/-- The actions of the program among the moves. -/
def Move.actions {W E : Type} : List (Move W E) → List (Action W E)
  | [] => []
  | .act action :: moves => action :: actions moves
  | .deliver :: moves => actions moves

/-- What writes and effects do to the state, and which writes are posted. A write that never
returns gives `none`. -/
structure PostedWrites (W E S : Type) where
  apply : W → S → Option S
  effect : E → S → S
  posted : W → Bool

/-- A state with the posted writes that still wait. -/
structure Queued (W S : Type) where
  queue : List W
  state : S

namespace PostedWrites

variable {W E S : Type} (system : PostedWrites W E S)

/-- An action that takes effect at once. -/
def perform : Action W E → S → Option S
  | .write w, s => system.apply w s
  | .effect e, s => some (system.effect e s)

/-- The actions one after another, each taking effect at once. -/
def immediate : List (Action W E) → S → Option S
  | [], s => some s
  | action :: actions, s => (system.perform action s).bind (immediate actions)

/-- Deliver writes in order. -/
def flush : List W → S → Option S
  | [], s => some s
  | w :: queue, s => (system.apply w s).bind (flush queue)

/-- The state once every waiting write is delivered. -/
def settled (q : Queued W S) : Option S := system.flush q.queue q.state

/-- One move of a run with the queue. -/
def move : Move W E → Queued W S → Option (Queued W S)
  | .act (.effect e), q => some { q with state := system.effect e q.state }
  | .act (.write w), q =>
    if system.posted w then some { q with queue := q.queue ++ [w] }
    else ((system.settled q).bind (system.apply w)).map (Queued.mk [])
  | .deliver, ⟨[], s⟩ => some ⟨[], s⟩
  | .deliver, ⟨w :: queue, s⟩ => (system.apply w s).map (Queued.mk queue)

/-- The moves of a run with the queue. -/
def run : List (Move W E) → Queued W S → Option (Queued W S)
  | [], q => some q
  | next :: moves, q => (system.move next q).bind (run moves)

/-- The queue after a move. -/
def queueAfter (queue : List W) : Move W E → List W
  | .act (.effect _) => queue
  | .act (.write w) => if system.posted w then queue ++ [w] else []
  | .deliver => queue.tail

/-- No effect happens while a write waits that it must not overtake. -/
def Undisturbed (mayOvertake : E → W → Prop) : List W → List (Move W E) → Prop
  | _, [] => True
  | queue, next :: moves =>
    (∀ e, next = .act (.effect e) → ∀ w ∈ queue, mayOvertake e w) ∧
      Undisturbed mayOvertake (system.queueAfter queue next) moves

/-- The write and the effect may be exchanged. -/
def Commutes (w : W) (e : E) : Prop :=
  ∀ s, system.apply w (system.effect e s) = (system.apply w s).map (system.effect e)

variable {system}

/-- Delivering a queue is delivering its parts. -/
theorem flush_append (first second : List W) (s : S) :
    system.flush (first ++ second) s = (system.flush first s).bind (system.flush second) := by
  induction first generalizing s with
  | nil => rfl
  | cons w first ih =>
    change (system.apply w s).bind (system.flush (first ++ second)) = _
    rw [funext ih]
    exact (Option.bind_assoc _ _ _).symm

/-- An effect that commutes with each waiting write commutes with their delivery. -/
theorem flush_effect {queue : List W} {e : E} (h : ∀ w ∈ queue, system.Commutes w e) (s : S) :
    system.flush queue (system.effect e s) = (system.flush queue s).map (system.effect e) := by
  induction queue generalizing s with
  | nil => rfl
  | cons w queue ih =>
    have htail := ih fun w' hw' => h w' (List.mem_cons_of_mem w hw')
    change (system.apply w (system.effect e s)).bind (system.flush queue) =
      ((system.apply w s).bind (system.flush queue)).map (system.effect e)
    rw [h w List.mem_cons_self, Option.bind_map, Option.map_bind]
    exact congrArg _ (funext htail)

/-- One move, followed by the delivery of what waits, does what its action does after the
delivery of what waited before. -/
theorem move_settled {next : Move W E} {q : Queued W S}
    (h : ∀ e, next = .act (.effect e) → ∀ w ∈ q.queue, system.Commutes w e) :
    (system.move next q).bind system.settled =
      (system.settled q).bind (system.immediate (Move.actions [next])) := by
  obtain ⟨queue, s⟩ := q
  cases next with
  | deliver =>
    cases queue with
    | nil => rfl
    | cons w queue =>
      change ((system.apply w s).map (Queued.mk queue)).bind system.settled =
        (system.flush (w :: queue) s).bind some
      rw [Option.bind_map, Option.bind_fun_some]
      rfl
  | act action =>
    cases action with
    | effect e =>
      change system.flush queue (system.effect e s) = (system.flush queue s).bind _
      rw [flush_effect (h e rfl), Option.map_eq_bind]
      rfl
    | write w =>
      have himmediate : system.immediate (Move.actions [.act (.write w)]) = system.apply w := by
        funext s
        exact Option.bind_fun_some _
      rw [himmediate, move]
      split
      · change system.flush (queue ++ [w]) s = _
        rw [flush_append]
        exact congrArg _ (funext fun s => Option.bind_fun_some _)
      · rw [Option.bind_map]
        exact Option.bind_fun_some _

/-- After a move the writes that wait are those that `queueAfter` says. -/
theorem move_queue {next : Move W E} {q q' : Queued W S} (h : system.move next q = some q') :
    q'.queue = system.queueAfter q.queue next := by
  obtain ⟨queue, s⟩ := q
  cases next with
  | deliver =>
    cases queue with
    | nil =>
      cases h
      rfl
    | cons w queue =>
      obtain ⟨s', -, rfl⟩ := Option.map_eq_some_iff.mp h
      rfl
  | act action =>
    cases action with
    | effect e =>
      cases h
      rfl
    | write w =>
      rw [move] at h
      rw [queueAfter]
      by_cases hposted : system.posted w
      · rw [if_pos hposted] at h
        cases h
        rw [if_pos hposted]
      · rw [if_neg hposted] at h
        obtain ⟨s', -, rfl⟩ := Option.map_eq_some_iff.mp h
        rw [if_neg hposted]

/-- Only posted writes wait. -/
theorem queueAfter_posted {queue : List W} (h : ∀ w ∈ queue, system.posted w) (next : Move W E) :
    ∀ w ∈ system.queueAfter queue next, system.posted w := by
  intro w hw
  cases next with
  | deliver => exact h w (List.mem_of_mem_tail hw)
  | act action =>
    cases action with
    | effect e => exact h w hw
    | write w' =>
      rw [queueAfter] at hw
      split at hw
      · rcases List.mem_append.mp hw with hw | hw
        · exact h w hw
        · rwa [List.mem_singleton.mp hw]
      · contradiction

/-- Actions in sequence are the first ones and then the others. -/
theorem immediate_append (first second : List (Action W E)) (s : S) :
    system.immediate (first ++ second) s =
      (system.immediate first s).bind (system.immediate second) := by
  induction first generalizing s with
  | nil => rfl
  | cons action first ih =>
    change (system.perform action s).bind (system.immediate (first ++ second)) = _
    rw [funext ih]
    exact (Option.bind_assoc _ _ _).symm

/-- The first move's action comes first. -/
theorem actions_cons (next : Move W E) (moves : List (Move W E)) :
    Move.actions (next :: moves) = Move.actions [next] ++ Move.actions moves := by
  cases next <;> rfl

/-- A run whose effects overtake only writes they commute with ends, once everything is
delivered, as the program does without a queue. -/
theorem run_settled {mayOvertake : E → W → Prop}
    (hcommutes : ∀ e w, system.posted w → mayOvertake e w → system.Commutes w e)
    {moves : List (Move W E)} {q : Queued W S} (hposted : ∀ w ∈ q.queue, system.posted w)
    (h : system.Undisturbed mayOvertake q.queue moves) :
    (system.run moves q).bind system.settled =
      (system.settled q).bind (system.immediate (Move.actions moves)) := by
  induction moves generalizing q with
  | nil => exact (Option.bind_fun_some _).symm
  | cons next moves ih =>
    obtain ⟨hfirst, hrest⟩ := h
    have hovertaken : ∀ e, next = .act (.effect e) → ∀ w ∈ q.queue, system.Commutes w e :=
      fun e he w hw => hcommutes e w (hposted w hw) (hfirst e he w hw)
    have hstep := move_settled hovertaken
    rw [actions_cons, funext (immediate_append _ _), ← Option.bind_assoc, ← hstep, run,
      Option.bind_assoc, Option.bind_assoc]
    cases hmove : system.move next q with
    | none => rfl
    | some q' =>
      have hqueue := move_queue hmove
      exact ih (hqueue ▸ queueAfter_posted hposted next) (hqueue ▸ hrest)

end PostedWrites

end VirtualFirmware.Library
