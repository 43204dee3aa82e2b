import Mathlib.Logic.Relation
import VirtualFirmware.Library.Interaction
import VirtualFirmware.Library.Session

/-!
# Two programs joined by a pair of queues

The left program runs once; the right program runs a body again and again. Both act on one
shared state that carries a queue in each direction. A port says which operations of a
party send or receive, and what they do to the queues. While both programs follow scripts
that complete, no order of steps leaves the scripts, and the end of both is reached.
-/

namespace VirtualFirmware.Library

/-- The operations of one party on a shared state that carries an outgoing and an incoming
queue. -/
structure Port (Op : Type) (Reply : Op → Type) (M S : Type)
    (Carries : S → Fifo M → Fifo M → Prop) where
  handle : (op : Op) → S → Reply op → S → Prop
  sends : (op : Op) → M → Reply op → Prop
  receives : (op : Op) → M → Reply op → Prop
  waits : Op → Prop
  receives_waits : ∀ {op message reply}, receives op message reply → waits op
  sends_not_waits : ∀ {op message reply}, sends op message reply → ¬ waits op
  handle_send : ∀ {s s' outgoing incoming op message reply reply'}, Carries s outgoing incoming →
    sends op message reply → handle op s reply' s' →
      reply' = reply ∧ Carries s' (outgoing.put message) incoming
  send_handled : ∀ {s outgoing incoming op message reply}, Carries s outgoing incoming →
    sends op message reply → ∃ s', handle op s reply s'
  handle_recv : ∀ {s s' outgoing taken waiting op message reply reply'},
    Carries s outgoing ⟨taken, message :: waiting⟩ → receives op message reply →
      handle op s reply' s' → reply' = reply ∧ Carries s' outgoing ⟨taken ++ [message], waiting⟩
  recv_handled : ∀ {s outgoing taken waiting op message reply},
    Carries s outgoing ⟨taken, message :: waiting⟩ → receives op message reply →
      ∃ s', handle op s reply s'
  handle_wait : ∀ {s s' outgoing taken op reply}, Carries s outgoing ⟨taken, []⟩ → waits op →
    ¬ handle op s reply s'

section Party

variable {Op : Type} {Reply : Op → Type} {M S A B : Type} {Carries : S → Fifo M → Fifo M → Prop}

/-- The program performs the acts of the script in order and then is the final program. -/
inductive Follows (port : Port Op Reply M S Carries) :
    Interaction Op Reply A → List (Act M) → Interaction Op Reply A → Prop
  | done (program : Interaction Op Reply A) : Follows port program [] program
  | send {op : Op} {next : Reply op → Interaction Op Reply A} {message : M} {reply : Reply op}
      {script : List (Act M)} {final : Interaction Op Reply A}
      (hop : port.sends op message reply) (rest : Follows port (next reply) script final) :
      Follows port (.perform op next) (.send message :: script) final
  | recv {op : Op} {next : Reply op → Interaction Op Reply A} {message : M} {reply : Reply op}
      {script : List (Act M)} {final : Interaction Op Reply A}
      (hop : port.receives op message reply) (rest : Follows port (next reply) script final) :
      Follows port (.perform op next) (.recv message :: script) final

/-- The program has returned or is about to receive. -/
def Blocked (port : Port Op Reply M S Carries) : Interaction Op Reply A → Prop
  | .pure _ => True
  | .perform op _ => port.waits op

/-- The program is about to receive. -/
def Waiting (port : Port Op Reply M S Carries) (program : Interaction Op Reply A) : Prop :=
  ∃ op next, program = .perform op next ∧ port.waits op

/-- A sequence follows the script of its first part, up to the continuation. -/
theorem Follows.bind {port : Port Op Reply M S Carries} {program final : Interaction Op Reply A}
    {script : List (Act M)} (h : Follows port program script final)
    (after : A → Interaction Op Reply B) :
    Follows port (program >>= after) script (final >>= after) := by
  induction h with
  | done program => exact .done _
  | send hop _ ih => exact .send hop ih
  | recv hop _ ih => exact .recv hop ih

/-- Scripts are followed one after the other. -/
theorem Follows.trans {port : Port Op Reply M S Carries}
    {program middle final : Interaction Op Reply A} {first second : List (Act M)}
    (h : Follows port program first middle) (h' : Follows port middle second final) :
    Follows port program (first ++ second) final := by
  induction h with
  | done program => exact h'
  | send hop _ ih => exact .send hop (ih h')
  | recv hop _ ih => exact .recv hop (ih h')

/-- The end of a script is a result that the program can return with. -/
theorem Follows.returns {port : Port Op Reply M S Carries} {program : Interaction Op Reply A}
    {script : List (Act M)} {value : A} (h : Follows port program script (.pure value)) :
    program.Returns value := by
  generalize hfinal : (.pure value : Interaction Op Reply A) = final at h
  induction h with
  | done program =>
    subst hfinal
    exact .pure value
  | send _ _ ih => exact .perform (ih hfinal)
  | recv _ _ ih => exact .perform (ih hfinal)

/-- A program that has returned has no acts left. -/
theorem Follows.of_pure {port : Port Op Reply M S Carries} {value : A} {script : List (Act M)}
    {final : Interaction Op Reply A} (h : Follows port (.pure value) script final) :
    script = [] ∧ final = .pure value := by
  cases h with
  | done => exact ⟨rfl, rfl⟩

/-- Start the next round of a body that has finished one. -/
def resume {St : Type} (body : St → Interaction Op Reply (Option St)) :
    Interaction Op Reply (Option St) → Interaction Op Reply (Option St)
  | .pure (some state) => body state
  | program => program

end Party

/-- The last act of a script, if any, is a send. -/
def EndsInSend {M : Type} : List (Act M) → Prop
  | [] => True
  | [act] => ∃ message, act = .send message
  | _ :: act :: rest => EndsInSend (act :: rest)

/-- What is left of a script ends as the script does. -/
theorem EndsInSend.tail {M : Type} {act : Act M} {rest : List (Act M)}
    (h : EndsInSend (act :: rest)) :
    EndsInSend rest := by
  cases rest with
  | nil => trivial
  | cons act' rest => exact h

/-- A script that ends in a send but has none is finished. -/
theorem EndsInSend.eq_nil {M : Type} {script : List (Act M)} (h : EndsInSend script)
    (hnone : ∀ message, Act.send message ∉ script) : script = [] := by
  induction script with
  | nil => rfl
  | cons act rest ih =>
    have hrest : rest = [] :=
      ih h.tail fun message hmem => hnone message (List.mem_cons_of_mem _ hmem)
    subst hrest
    obtain ⟨message, rfl⟩ := h
    exact absurd (List.mem_singleton.mpr rfl) (hnone message)

/-- The two programs and the state between them. -/
structure Pair (OpL : Type) (ReplyL : OpL → Type) (A : Type) (OpR : Type) (ReplyR : OpR → Type)
    (St S : Type) where
  left : Interaction OpL ReplyL A
  right : Interaction OpR ReplyR (Option St)
  shared : S

section System

variable {OpL OpR M S A St : Type} {ReplyL : OpL → Type} {ReplyR : OpR → Type}
  {Carries : S → Fifo M → Fifo M → Prop}
  (portL : Port OpL ReplyL M S Carries)
  (portR : Port OpR ReplyR M S fun s outgoing incoming => Carries s incoming outgoing)
  (body : St → Interaction OpR ReplyR (Option St))

/-- One of the two programs performs its next operation. -/
inductive Step : Pair OpL ReplyL A OpR ReplyR St S → Pair OpL ReplyL A OpR ReplyR St S → Prop
  | left {op : OpL} {next : ReplyL op → Interaction OpL ReplyL A} {reply : ReplyL op}
      {right : Interaction OpR ReplyR (Option St)} {s s' : S} (h : portL.handle op s reply s') :
      Step ⟨.perform op next, right, s⟩ ⟨next reply, right, s'⟩
  | right {op : OpR} {next : ReplyR op → Interaction OpR ReplyR (Option St)} {reply : ReplyR op}
      {left : Interaction OpL ReplyL A} {s s' : S} (h : portR.handle op s reply s') :
      Step ⟨left, .perform op next, s⟩ ⟨left, resume body (next reply), s'⟩

/-- Both programs are inside scripts that complete and lead to the final programs; by then
each queue will have handed over its whole history. -/
def InSession (finalL : Interaction OpL ReplyL A) (finalR : Interaction OpR ReplyR (Option St))
    (historyR historyL : List M) (pair : Pair OpL ReplyL A OpR ReplyR St S) : Prop :=
  ∃ toRight toLeft scriptL scriptR program, Carries pair.shared toRight toLeft ∧
    Completes toRight.waiting toLeft.waiting scriptL scriptR ∧ EndsInSend scriptR ∧
    Follows portL pair.left scriptL finalL ∧ Follows portR program scriptR finalR ∧
    pair.right = resume body program ∧
    toRight.taken ++ receipts scriptR = historyR ∧ toLeft.taken ++ receipts scriptL = historyL

variable {portL portR body} {finalL : Interaction OpL ReplyL A}
  {finalR : Interaction OpR ReplyR (Option St)} {pair pair' : Pair OpL ReplyL A OpR ReplyR St S}
  {historyR historyL : List M}

/-- No step leaves the session when both final programs wait for a message. -/
theorem InSession.step (h : InSession portL portR body finalL finalR historyR historyL pair)
    (hfinalL : Blocked portL finalL) (hfinalR : Blocked portR (resume body finalR))
    (hstep : Step portL portR body pair pair') :
    InSession portL portR body finalL finalR historyR historyL pair' := by
  obtain ⟨⟨takenR, toRight⟩, ⟨takenL, toLeft⟩, scriptL, scriptR, program, hcarries, hcompletes,
    hends, hleft, hright, hresume, hhistoryR, hhistoryL⟩ := h
  cases hstep with
  | left hhandle =>
    cases hleft with
    | done =>
      obtain ⟨rfl, -⟩ := hcompletes.left_finished
      exact absurd hhandle (portL.handle_wait hcarries hfinalL)
    | send hop rest =>
      obtain ⟨rfl, hcarries'⟩ := portL.handle_send hcarries hop hhandle
      exact ⟨_, _, _, _, _, hcarries', hcompletes.of_left_send, hends, rest, hright, hresume,
        hhistoryR, hhistoryL⟩
    | recv hop rest =>
      cases toLeft with
      | nil => exact absurd hhandle (portL.handle_wait hcarries (portL.receives_waits hop))
      | cons found toLeft =>
        obtain ⟨rfl, hcompletes'⟩ := hcompletes.of_left_recv
        obtain ⟨rfl, hcarries'⟩ := portL.handle_recv hcarries hop hhandle
        exact ⟨_, _, _, _, _, hcarries', hcompletes', hends, rest, hright, hresume, hhistoryR,
          by rw [← hhistoryL, receipts, List.append_assoc, List.singleton_append]⟩
  | right hhandle =>
    cases hright with
    | done =>
      obtain ⟨rfl, -⟩ := hcompletes.right_finished
      rw [← hresume] at hfinalR
      exact absurd hhandle (portR.handle_wait hcarries hfinalR)
    | send hop rest =>
      cases hresume
      obtain ⟨rfl, hcarries'⟩ := portR.handle_send hcarries hop hhandle
      exact ⟨_, _, _, _, _, hcarries', hcompletes.of_right_send, hends.tail, hleft, rest, rfl,
        hhistoryR, hhistoryL⟩
    | recv hop rest =>
      cases hresume
      cases toRight with
      | nil => exact absurd hhandle (portR.handle_wait hcarries (portR.receives_waits hop))
      | cons found toRight =>
        obtain ⟨rfl, hcompletes'⟩ := hcompletes.of_right_recv
        obtain ⟨rfl, hcarries'⟩ := portR.handle_recv hcarries hop hhandle
        exact ⟨_, _, _, _, _, hcarries', hcompletes', hends.tail, hleft, rest, rfl,
          by rw [← hhistoryR, receipts, List.append_assoc, List.singleton_append], hhistoryL⟩

/-- No number of steps leaves the session when both final programs wait for a message. -/
theorem InSession.steps (h : InSession portL portR body finalL finalR historyR historyL pair)
    (hfinalL : Blocked portL finalL) (hfinalR : Blocked portR (resume body finalR))
    (hsteps : Relation.ReflTransGen (Step portL portR body) pair pair') :
    InSession portL portR body finalL finalR historyR historyL pair' := by
  induction hsteps with
  | refl => exact h
  | tail _ hstep ih => exact ih.step hfinalL hfinalR hstep

/-- Some order of steps takes scripts that complete to their ends. -/
theorem Completes.reaches {waitingR waitingL : List M} {scriptL scriptR : List (Act M)}
    (h : Completes waitingR waitingL scriptL scriptR) {left : Interaction OpL ReplyL A}
    {right : Interaction OpR ReplyR (Option St)} {s : S} {takenR takenL : List M}
    (hcarries : Carries s ⟨takenR, waitingR⟩ ⟨takenL, waitingL⟩)
    (hleft : Follows portL left scriptL finalL) (hright : Follows portR right scriptR finalR) :
    ∃ s', Carries s' ⟨takenR ++ receipts scriptR, []⟩ ⟨takenL ++ receipts scriptL, []⟩ ∧
      Relation.ReflTransGen (Step portL portR body)
        ⟨left, resume body right, s⟩ ⟨finalL, resume body finalR, s'⟩ := by
  induction h generalizing left right s takenR takenL with
  | done =>
    cases hleft
    cases hright
    exact ⟨s, by simpa [receipts] using hcarries, .refl⟩
  | leftSend _ ih =>
    cases hleft with
    | send hop hleft =>
      obtain ⟨middle, hhandle⟩ := portL.send_handled hcarries hop
      obtain ⟨s', hend, hsteps⟩ := ih (portL.handle_send hcarries hop hhandle).2 hleft hright
      exact ⟨s', hend, hsteps.head (.left hhandle)⟩
  | leftRecv _ ih =>
    cases hleft with
    | recv hop hleft =>
      obtain ⟨middle, hhandle⟩ := portL.recv_handled hcarries hop
      obtain ⟨s', hend, hsteps⟩ := ih (portL.handle_recv hcarries hop hhandle).2 hleft hright
      exact ⟨s', by simpa [receipts] using hend, hsteps.head (.left hhandle)⟩
  | rightSend _ ih =>
    cases hright with
    | send hop hright =>
      obtain ⟨middle, hhandle⟩ := portR.send_handled hcarries hop
      obtain ⟨s', hend, hsteps⟩ := ih (portR.handle_send hcarries hop hhandle).2 hleft hright
      exact ⟨s', hend, hsteps.head (.right hhandle)⟩
  | rightRecv _ ih =>
    cases hright with
    | recv hop hright =>
      obtain ⟨middle, hhandle⟩ := portR.recv_handled hcarries hop
      obtain ⟨s', hend, hsteps⟩ := ih (portR.handle_recv hcarries hop hhandle).2 hleft hright
      exact ⟨s', by simpa [receipts] using hend, hsteps.head (.right hhandle)⟩

/-- Some order of steps takes a session to its end. -/
theorem InSession.reaches (h : InSession portL portR body finalL finalR historyR historyL pair) :
    ∃ s', Carries s' ⟨historyR, []⟩ ⟨historyL, []⟩ ∧
      Relation.ReflTransGen (Step portL portR body) pair ⟨finalL, resume body finalR, s'⟩ := by
  obtain ⟨left, right, shared⟩ := pair
  obtain ⟨⟨takenR, toRight⟩, ⟨takenL, toLeft⟩, scriptL, scriptR, program, hcarries, hcompletes,
    -, hleft, hright, rfl, rfl, rfl⟩ := h
  exact hcompletes.reaches hcarries hleft hright

/-- What the left program does after the session does not matter in the session. -/
theorem InSession.bind {B : Type}
    (h : InSession portL portR body finalL finalR historyR historyL pair)
    (after : A → Interaction OpL ReplyL B) :
    InSession portL portR body (finalL >>= after) finalR historyR historyL
      ⟨pair.left >>= after, pair.right, pair.shared⟩ := by
  obtain ⟨toRight, toLeft, scriptL, scriptR, program, hcarries, hcompletes, hends, hleft, hright,
    hresume, hhistoryR, hhistoryL⟩ := h
  exact ⟨toRight, toLeft, scriptL, scriptR, program, hcarries, hcompletes, hends, hleft.bind after,
    hright, hresume, hhistoryR, hhistoryL⟩

/-- When the left program has returned, the right one is at its end and nothing is queued. -/
theorem InSession.left_returned {value : A}
    (h : InSession portL portR body finalL finalR historyR historyL pair)
    (hvalue : pair.left = .pure value) :
    finalL = .pure value ∧ pair.right = resume body finalR ∧
      Carries pair.shared ⟨historyR, []⟩ ⟨historyL, []⟩ := by
  obtain ⟨⟨takenR, toRight⟩, ⟨takenL, toLeft⟩, scriptL, scriptR, program, hcarries, hcompletes,
    hends, hleft, hright, hresume, hhistoryR, hhistoryL⟩ := h
  rw [hvalue] at hleft
  obtain ⟨rfl, hfinal⟩ := hleft.of_pure
  obtain rfl := hends.eq_nil hcompletes.left_finished.2
  obtain ⟨rfl, rfl⟩ := hcompletes.both_finished
  cases hright
  rw [← hhistoryR, ← hhistoryL]
  exact ⟨hfinal, hresume, by simpa [receipts] using hcarries⟩

/-- While the left program is to return, the two do not wait for each other. -/
theorem InSession.not_waiting {value : A}
    (h : InSession portL portR body (.pure value) finalR historyR historyL pair)
    (hempty : ∀ toRight toLeft, Carries pair.shared toRight toLeft →
      toRight.waiting = [] ∧ toLeft.waiting = [])
    (hwaitL : Waiting portL pair.left) : ¬ Waiting portR pair.right := by
  rintro ⟨opR, nextR, hopR, hwaitR⟩
  obtain ⟨opL, nextL, hopL, hwaitL⟩ := hwaitL
  obtain ⟨toRight, toLeft, scriptL, scriptR, program, hcarries, hcompletes, -, hleft, hright,
    hresume, -, -⟩ := h
  obtain ⟨hemptyR, hemptyL⟩ := hempty toRight toLeft hcarries
  rw [hemptyR, hemptyL] at hcompletes
  rw [hopL] at hleft
  cases hleft with
  | send hop _ => exact portL.sends_not_waits hop hwaitL
  | recv _ _ =>
    cases hcompletes with
    | rightSend _ =>
      cases hright with
      | send hop _ =>
        rw [hresume] at hopR
        cases hopR
        exact portR.sends_not_waits hop hwaitR

end System

end VirtualFirmware.Library
