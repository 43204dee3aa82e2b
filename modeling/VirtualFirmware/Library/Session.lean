import Mathlib.Data.List.Basic
import Mathlib.Tactic.Common

/-!
# Two scripts over a pair of queues

Each of two parties plays a fixed script of sends and receives; a message sent joins the
end of a queue, and a receive takes the front of the other queue and expects a particular
message there. The scripts complete when some order of play empties both scripts and both
queues. Completion does not depend on the order: whatever either party does next, the rest
still completes.
-/

namespace VirtualFirmware.Library

variable {M : Type}

/-- A queue that remembers what was taken from it, oldest first. -/
structure Fifo (M : Type) where
  taken : List M
  waiting : List M

namespace Fifo

/-- The queue before anything is put in. -/
def empty : Fifo M := ⟨[], []⟩

/-- Put a message at the end. -/
def put (queue : Fifo M) (message : M) : Fifo M :=
  { queue with waiting := queue.waiting ++ [message] }

/-- Everything that was ever put in, in order. -/
def history (queue : Fifo M) : List M := queue.taken ++ queue.waiting

/-- The same queue with every message replaced by what `f` sees of it. -/
def map {N : Type} (f : M → N) (queue : Fifo M) : Fifo N :=
  ⟨queue.taken.map f, queue.waiting.map f⟩

end Fifo

/-- One entry of a script; a receive names the message it is to find. -/
inductive Act (M : Type) where
  | send (message : M)
  | recv (message : M)

/-- The messages a script receives, in order. -/
def receipts : List (Act M) → List M
  | [] => []
  | .send _ :: rest => receipts rest
  | .recv message :: rest => message :: receipts rest

/-- Some order of play finishes both scripts with both queues empty. -/
inductive Completes : (toRight toLeft : List M) → (left right : List (Act M)) → Prop
  | done : Completes [] [] [] []
  | leftSend {toRight toLeft : List M} {left right : List (Act M)} {message : M}
      (rest : Completes (toRight ++ [message]) toLeft left right) :
      Completes toRight toLeft (.send message :: left) right
  | leftRecv {toRight toLeft : List M} {left right : List (Act M)} {message : M}
      (rest : Completes toRight toLeft left right) :
      Completes toRight (message :: toLeft) (.recv message :: left) right
  | rightSend {toRight toLeft : List M} {left right : List (Act M)} {message : M}
      (rest : Completes toRight (toLeft ++ [message]) left right) :
      Completes toRight toLeft left (.send message :: right)
  | rightRecv {toRight toLeft : List M} {left right : List (Act M)} {message : M}
      (rest : Completes toRight toLeft left right) :
      Completes (message :: toRight) toLeft left (.recv message :: right)

namespace Completes

variable {toRight toLeft : List M} {left right : List (Act M)} {message : M}

/-- The two parties may change places. -/
theorem swap (h : Completes toRight toLeft left right) : Completes toLeft toRight right left := by
  induction h with
  | done => exact done
  | leftSend _ ih => exact rightSend ih
  | leftRecv _ ih => exact rightRecv ih
  | rightSend _ ih => exact leftSend ih
  | rightRecv _ ih => exact leftRecv ih

/-- When the left party sends, the rest still completes. -/
theorem of_left_send (h : Completes toRight toLeft (.send message :: left) right) :
    Completes (toRight ++ [message]) toLeft left right := by
  generalize hscript : Act.send message :: left = script at h
  induction h with
  | done => contradiction
  | leftSend rest _ =>
    obtain ⟨⟨rfl⟩, rfl⟩ := List.cons.inj hscript
    exact rest
  | leftRecv _ _ => simp at hscript
  | rightSend _ ih => exact rightSend (ih hscript)
  | rightRecv _ ih => exact rightRecv (ih hscript)

/-- When the left party finds a message, it is the expected one and the rest still completes. -/
theorem of_left_recv {found : M}
    (h : Completes toRight (found :: toLeft) (.recv message :: left) right) :
    found = message ∧ Completes toRight toLeft left right := by
  generalize hscript : Act.recv message :: left = script at h
  generalize hqueue : found :: toLeft = queue at h
  induction h generalizing toLeft with
  | done => contradiction
  | leftSend _ _ => simp at hscript
  | leftRecv rest _ =>
    obtain ⟨⟨rfl⟩, rfl⟩ := List.cons.inj hscript
    obtain ⟨rfl, rfl⟩ := List.cons.inj hqueue
    exact ⟨rfl, rest⟩
  | rightSend _ ih =>
    obtain ⟨hfound, hrest⟩ := ih hscript (by rw [← hqueue, List.cons_append])
    exact ⟨hfound, rightSend hrest⟩
  | rightRecv _ ih =>
    obtain ⟨hfound, hrest⟩ := ih hscript hqueue
    exact ⟨hfound, rightRecv hrest⟩

/-- When the right party sends, the rest still completes. -/
theorem of_right_send (h : Completes toRight toLeft left (.send message :: right)) :
    Completes toRight (toLeft ++ [message]) left right :=
  h.swap.of_left_send.swap

/-- When the right party finds a message, it is the expected one and the rest still completes. -/
theorem of_right_recv {found : M}
    (h : Completes (found :: toRight) toLeft left (.recv message :: right)) :
    found = message ∧ Completes toRight toLeft left right := by
  obtain ⟨hfound, hrest⟩ := h.swap.of_left_recv
  exact ⟨hfound, hrest.swap⟩

/-- Once the left script is finished, its queue is empty and the right party only receives. -/
theorem left_finished (h : Completes toRight toLeft [] right) :
    toLeft = [] ∧ ∀ message, Act.send message ∉ right := by
  generalize hscript : ([] : List (Act M)) = script at h
  induction h with
  | done => simp
  | leftSend _ _ => contradiction
  | leftRecv _ _ => contradiction
  | rightSend _ ih => simpa using (ih hscript).1
  | rightRecv _ ih => simpa using ih hscript

/-- Once the right script is finished, its queue is empty and the left party only receives. -/
theorem right_finished (h : Completes toRight toLeft left []) :
    toRight = [] ∧ ∀ message, Act.send message ∉ left :=
  h.swap.left_finished

/-- With both scripts finished, both queues are empty. -/
theorem both_finished (h : Completes toRight toLeft [] []) : toRight = [] ∧ toLeft = [] :=
  ⟨h.right_finished.1, h.left_finished.1⟩

end Completes

end VirtualFirmware.Library
