import VirtualFirmware.Device.AtqTail
import VirtualFirmware.Library.Execution
import VirtualFirmware.System.Sockets

/-!
# Responses are taken frame by frame

The device reads at a frame boundary as long as every `recvdata` succeeds. When one fails the
stream may stand anywhere, and the exchange ends by closing the socket, so that nothing of
that connection is read again. One invariant on the socket and the stream's position carries
this through every exchange and every reconnection.
-/

namespace VirtualFirmware.System

open Library Messaging Adminq Device

/-- No socket is open. -/
def Net.Dead (net : Net) : Prop := net.table = fun _ => none

/-- Only this socket is open, if any. -/
def Net.OnlyOpen (fs : Int) (net : Net) : Prop := Function.update net.table fs none = fun _ => none

/-- Only this socket is open, and its connection is at a frame boundary. -/
def Net.Live (fs : Int) (net : Net) : Prop :=
  fs ≠ invalidSocket ∧ net.OnlyOpen fs ∧
    ∃ id conn, net.table fs = some id ∧ net.conns[id]? = some conn ∧ conn.AtBoundary

/-- The device's idea of its socket is right. -/
def Net.Ready (fs : Int) (net : Net) : Prop := (fs = invalidSocket ∧ net.Dead) ∨ net.Live fs

/-- Every connection has handed over its first payloads in order; the old connections are as
they were, and no open socket belongs to one of them. -/
structure Guarded (old : List Conn) (net : Net) : Prop where
  kept : old <+: net.conns
  sound : ∀ conn ∈ net.conns, conn.Sound
  later : ∀ fs id, net.table fs = some id → old.length ≤ id

section Calls

variable {old : List Conn} {net net' : Net} {fs : Int}

/-- Closing the one open socket leaves none. -/
theorem Guarded.close (h : Guarded old net) (hopen : net.OnlyOpen fs)
    (hhandle : netHandle (.close fs) net () net') : Guarded old net' ∧ net'.Dead := by
  cases hhandle
  refine ⟨⟨h.kept, h.sound, fun fs' id hid => ?_⟩, hopen⟩
  have hnone := congrFun hopen fs'
  exact absurd (hnone.symm.trans hid) (by simp)

/-- Changing the connection of an open socket leaves the old ones alone. -/
theorem Guarded.set (h : Guarded old net) {id : ℕ} (hid : net.table fs = some id) {conn : Conn}
    (hsound : conn.Sound) : Guarded old { net with conns := net.conns.set id conn } := by
  have hlater := h.later fs id hid
  refine ⟨?_, fun other hmem => ?_, h.later⟩
  · obtain ⟨new, hnew⟩ := h.kept
    rw [← hnew, List.set_append_right _ _ hlater]
    exact List.prefix_append _ _
  · rcases List.mem_or_eq_of_mem_set hmem with hmem | rfl
    · exact h.sound other hmem
    · exact hsound

/-- Sending keeps the connection at its frame boundary. -/
theorem Guarded.senddata (h : Guarded old net) (hlive : net.Live fs) {data : Region}
    {length : UInt16} {reply : Sent}
    (hhandle : netHandle (.message fs (.senddata data length)) net reply net') :
    Guarded old net' ∧ net'.Live fs := by
  obtain ⟨hvalid, hopen, id, conn, hid, hconn, hboundary⟩ := hlive
  rw [netHandle, hid] at hhandle
  obtain ⟨conn₁, conn', hconn₁, hcall, rfl⟩ := hhandle
  obtain rfl := Option.some.inj (hconn₁.symm.trans hconn)
  have hboundary' := hboundary.senddata hcall
  obtain ⟨hlt, -⟩ := List.getElem?_eq_some_iff.mp hconn
  exact ⟨h.set hid hboundary'.sound, hvalid, hopen, id, conn', hid, List.getElem?_set_self hlt,
    hboundary'⟩

/-- Receiving keeps the connection at its frame boundary unless it fails. -/
theorem Guarded.recvdata (h : Guarded old net) (hlive : net.Live fs) {data : Region}
    {length : UInt16} {reply : Received}
    (hhandle : netHandle (.message fs (.recvdata data length)) net reply net') :
    Guarded old net' ∧ net'.OnlyOpen fs ∧ (¬ reply.rc < 0 → net'.Live fs) := by
  obtain ⟨hvalid, hopen, id, conn, hid, hconn, hboundary⟩ := hlive
  rw [netHandle, hid] at hhandle
  obtain ⟨conn₁, conn', hconn₁, hcall, rfl⟩ := hhandle
  obtain rfl := Option.some.inj (hconn₁.symm.trans hconn)
  obtain ⟨hsound, hboundary'⟩ := hboundary.recvdata hcall
  obtain ⟨hlt, -⟩ := List.getElem?_eq_some_iff.mp hconn
  exact ⟨h.set hid hsound, hopen, fun hrc =>
    ⟨hvalid, hopen, id, conn', hid, List.getElem?_set_self hlt, hboundary' hrc⟩⟩

/-- Locating the firmware finds nothing or opens a new connection. -/
theorem Guarded.locate (h : Guarded old net) (hdead : net.Dead)
    (hhandle : netHandle .locate net fs net') :
    Guarded old net' ∧ net'.OnlyOpen fs ∧ (fs ≠ invalidSocket → net'.Live fs) := by
  rcases hhandle with ⟨rfl, rfl⟩ | ⟨conn, hfresh, hfs, -, rfl⟩
  · refine ⟨h, ?_, fun hne => absurd rfl hne⟩
    rw [Net.OnlyOpen, hdead]
    exact Function.update_eq_self _ _
  · have hopen : Net.OnlyOpen fs
        ⟨net.conns ++ [conn], Function.update net.table fs (some net.conns.length)⟩ := by
      rw [Net.OnlyOpen, Function.update_idem, hdead]
      exact Function.update_eq_self _ _
    refine ⟨⟨h.kept.trans (List.prefix_append _ _), ?_, ?_⟩, hopen, fun hvalid => ⟨hvalid, hopen,
      net.conns.length, conn, Function.update_self _ _ _, by simp, hfresh.atBoundary⟩⟩
    · rw [List.forall_mem_append]
      exact ⟨h.sound, by simpa using hfresh.atBoundary.sound⟩
    · intro fs' id hid
      dsimp only at hid
      by_cases hsame : fs' = fs
      · subst hsame
        rw [Function.update_self] at hid
        cases hid
        exact h.kept.length_le
      · rw [Function.update_of_ne hsame] at hid
        exact h.later fs' id hid

end Calls

/-- How an exchange leaves the sockets: the device knows its socket, and after a failure there
is none. -/
def Left (result : (Int × AqDesc) × Machine) (net : Net) : Prop :=
  net.Ready result.2.dev.fs ∧ (result.1.1 < 0 → net.Dead)

section Exchange

variable {old : List Conn} {net : Net} {m : Machine} (desc : AqDesc)

/-- A check of a call's result has to be right on both sides. -/
theorem throughout_ite {check : Prop} [Decidable check] {first second : DeviceM (Int × AqDesc)}
    (hfirst : check → Throughout netHandle (Guarded old) Left (first m) net)
    (hsecond : ¬ check → Throughout netHandle (Guarded old) Left (second m) net) :
    Throughout netHandle (Guarded old) Left ((if check then first else second) m) net := by
  split
  · exact hfirst ‹_›
  · exact hsecond ‹_›

/-- Dropping the connection closes the one open socket. -/
theorem sendAqErr_framed (h : Guarded old net) (hopen : net.OnlyOpen m.dev.fs) :
    Throughout netHandle (Guarded old) Left (sendAqErr desc m) net := by
  refine ⟨h, fun _ net' hclose => ?_⟩
  obtain ⟨hguarded, hdead⟩ := h.close hopen hclose
  exact ⟨hguarded, .inl ⟨rfl, hdead⟩, fun _ => hdead⟩

/-- The return buffer is one frame, or the connection is dropped. -/
theorem recvAqBuffer_framed (h : Guarded old net) (hlive : net.Live m.dev.fs) (recvDesc : AqDesc) :
    Throughout netHandle (Guarded old) Left (recvAqBuffer desc recvDesc m) net := by
  have hdone (result : (Int × AqDesc) × Machine) {net : Net} (hzero : result.1.1 = 0)
      (hlive : net.Live result.2.dev.fs) : Left result net :=
    ⟨.inr hlive, fun hneg => absurd hneg (by rw [hzero]; decide)⟩
  refine throughout_ite (fun _ => ⟨h, fun received net' hrecv => ?_⟩) fun _ =>
    ⟨h, hdone _ rfl hlive⟩
  obtain ⟨hguarded, hopen, hlive'⟩ := h.recvdata hlive hrecv
  exact throughout_ite (fun _ => sendAqErr_framed desc hguarded hopen)
    fun hrc => ⟨hguarded, hdone _ rfl (hlive' hrc)⟩

/-- The response is one frame, or the connection is dropped. -/
theorem recvAqResponse_framed (h : Guarded old net) (hlive : net.Live m.dev.fs) :
    Throughout netHandle (Guarded old) Left (recvAqResponse desc m) net := by
  refine ⟨h, fun received net' hrecv => ?_⟩
  obtain ⟨hguarded, hopen, hlive'⟩ := h.recvdata hlive hrecv
  exact throughout_ite (fun _ => sendAqErr_framed desc hguarded hopen)
    fun hrc => recvAqBuffer_framed desc hguarded (hlive' hrc) _

/-- Sending the command's buffer goes on to the response. -/
theorem sendAqBuffer_framed (h : Guarded old net) (hlive : net.Live m.dev.fs) :
    Throughout netHandle (Guarded old) Left (sendAqBuffer desc m) net := by
  refine throughout_ite (fun _ => ⟨h, fun sent net' hsend => ?_⟩)
    fun _ => recvAqResponse_framed desc h hlive
  obtain ⟨hguarded, hlive'⟩ := h.senddata hlive hsend
  exact throughout_ite (fun _ => sendAqErr_framed desc hguarded hlive'.2.1)
    fun _ => recvAqResponse_framed desc hguarded hlive'

/-- Sending the command goes on to its buffer. -/
theorem sendAqDesc_framed (h : Guarded old net) (hlive : net.Live m.dev.fs) :
    Throughout netHandle (Guarded old) Left (sendAqDesc desc m) net := by
  refine ⟨h, fun sent net' hsend => ?_⟩
  obtain ⟨hguarded, hlive'⟩ := h.senddata hlive hsend
  exact throughout_ite (fun _ => sendAqErr_framed desc hguarded hlive'.2.1)
    fun _ => sendAqBuffer_framed desc hguarded hlive'

/-- An exchange keeps to frame boundaries and leaves no socket open when it fails. -/
theorem e1000SendAqCmd_framed (h : Guarded old net) (hready : net.Ready m.dev.fs) :
    Throughout netHandle (Guarded old) Left (e1000SendAqCmd desc m) net := by
  refine throughout_ite (fun hinvalid => ⟨h, fun fs net' hlocate => ?_⟩) fun hvalid =>
    sendAqDesc_framed desc h (hready.resolve_left fun hdead => hvalid hdead.1)
  have hdead : net.Dead := (hready.resolve_right fun hlive => hlive.1 hinvalid).2
  obtain ⟨hguarded, hopen, hlive⟩ := h.locate hdead hlocate
  exact throughout_ite (fun _ => sendAqErr_framed desc hguarded hopen)
    fun hne => sendAqDesc_framed desc hguarded (hlive hne)

end Exchange

/-- Another exchange may follow, on whatever machine, as long as the socket is the one the last
exchange left. -/
def NextExchange (last : (Int × AqDesc) × Machine)
    (program : Interaction DeviceOp DeviceReply ((Int × AqDesc) × Machine)) : Prop :=
  ∃ desc m, m.dev.fs = last.2.dev.fs ∧ program = e1000SendAqCmd desc m

/-- The device inside an exchange, and its sockets. -/
abbrev ExchangeState := Execution DeviceOp DeviceReply ((Int × AqDesc) × Machine) Net

/-- Socket calls and new exchanges, any number of them. -/
abbrev Exchanges : ExchangeState → ExchangeState → Prop :=
  Relation.ReflTransGen (Advance netHandle NextExchange)

/-- The invariant is carried from exchange to exchange. -/
theorem Exchanges.framed {old : List Conn} {e e' : ExchangeState} (hrun : Exchanges e e')
    (h : Throughout netHandle (Guarded old) Left e.program e.env) :
    Throughout netHandle (Guarded old) Left e'.program e'.env := by
  refine h.reaches ?_ hrun
  rintro last _ net ⟨desc, m, hfs, rfl⟩ hguarded hleft
  exact e1000SendAqCmd_framed desc hguarded (hfs ▸ hleft.1)

/-- In every run of exchanges over any number of connections, the payloads accepted on each
connection are the first payloads of the peer's frames there, in order; and once an exchange
has failed, no connection made so far is touched again. -/
theorem exchanges_take_whole_frames {start : (Int × AqDesc) × Machine}
    (hstart : start.2.dev.fs = invalidSocket) {e : ExchangeState}
    (hrun : Exchanges ⟨.pure start, Net.unused⟩ e) :
    (∀ conn ∈ e.env.conns, conn.accepted <+: conn.payloads) ∧
      ∀ result e', e.program = .pure result → result.1.1 < 0 → Exchanges e e' →
        e.env.conns <+: e'.env.conns := by
  have hunused : Guarded [] Net.unused := ⟨List.prefix_rfl, by simp [Net.unused], by simp⟩
  have hbegin : Throughout netHandle (Guarded []) Left (.pure start) Net.unused :=
    ⟨hunused, .inl ⟨hstart, rfl⟩, fun _ => rfl⟩
  have hframed := Exchanges.framed hrun hbegin
  refine ⟨hframed.start.sound, fun result e' hresult hfailed hlater => ?_⟩
  obtain ⟨program, net⟩ := e
  obtain rfl : program = .pure result := hresult
  obtain ⟨hguarded, hready, hdead⟩ := hframed
  have hfrozen : Guarded net.conns net :=
    ⟨List.prefix_rfl, hguarded.sound, fun fs _ hid =>
      absurd ((congrFun (hdead hfailed) fs).symm.trans hid) (by simp)⟩
  have hend : Throughout netHandle (Guarded net.conns) Left (.pure result) net :=
    ⟨hfrozen, hready, hdead⟩
  exact (Exchanges.framed hlater hend).start.kept

/-- A response descriptor of zeros. -/
def zeroFrame : Frame := ⟨⟨List.replicate 32 0, by decide, by decide⟩, (0, 0), 0⟩

/-- A connection whose peer writes this one response. -/
def answeringConn : Conn :=
  ⟨[zeroFrame], Outgoing.fresh, Incoming.whole (wire [zeroFrame]), []⟩

/-- A machine that has no socket. -/
def unconnected : Machine :=
  { (default : Machine) with dev := (default : E1000State).withFs invalidSocket }

/-- The first exchange of a device takes the one frame of its peer. -/
theorem first_response_taken :
    ∃ e, Exchanges ⟨.pure ((0, AqDesc.zero), unconnected), Net.unused⟩ e ∧
    ∃ conn ∈ e.env.conns, conn.accepted = [List.replicate 32 0] ∧
      conn.accepted <+: conn.payloads := by
  let m : Machine := { unconnected with dev := unconnected.dev.withFs 3 }
  let opened : Net := ⟨[answeringConn], Function.update (fun _ => none) 3 (some 0)⟩
  have hlocate : netHandle .locate Net.unused (3 : Int) opened :=
    .inr ⟨answeringConn, ⟨rfl, List.prefix_rfl⟩, by decide, rfl, rfl⟩
  have hload : AqDesc.zero.toRegion.load zeroFrame.message.payload.length =
      zeroFrame.message.payload := by
    exact AqDesc.toRegion_load AqDesc.zero
  have hsent := senddata_prompt (s := Outgoing.fresh) rfl (0, 0) AqDesc.zero.toRegion
    zeroFrame.message hload
  have hsend : netHandle (.message 3 (.senddata AqDesc.zero.toRegion 32)) opened { rc := 32 } _ :=
    ⟨answeringConn, _, rfl, ⟨(0, 0), _, hsent, rfl⟩, rfl⟩
  have hreceived := recvdata_fits (s := answeringConn.incoming) rfl
    (show answeringConn.incoming.unread = zeroFrame.bytes ++ [] from rfl) (fun _ => 0)
    (show zeroFrame.message.length ≤ 32 by decide)
  let sent : Net := { opened with conns := [{ answeringConn with
    outgoing := { Outgoing.fresh with accepted := (sentFrame (0, 0) AqDesc.zero.toRegion
      zeroFrame.message).bytes } }] }
  have hrecv : ∃ reply net, netHandle (.message 3 (.recvdata (fun _ => 0) 32)) sent reply net ∧
      ∃ conn ∈ net.conns, conn.accepted = [List.replicate 32 0] := by
    refine ⟨_, _, ⟨_, _, rfl, ⟨_, hreceived, rfl⟩, rfl⟩, _, List.mem_singleton_self _, ?_⟩
    exact congrArg (fun payload => [payload]) (Region.load_store _ zeroFrame.message.payload)
  obtain ⟨reply, net, hrecv, conn, hmem, haccepted⟩ := hrecv
  have hissued : Advance netHandle NextExchange ⟨.pure ((0, AqDesc.zero), unconnected), Net.unused⟩
      ⟨e1000SendAqCmd AqDesc.zero unconnected, Net.unused⟩ :=
        .issue ⟨AqDesc.zero, unconnected, rfl, rfl⟩
  have hlocated :
      Advance netHandle NextExchange ⟨e1000SendAqCmd AqDesc.zero unconnected, Net.unused⟩
      ⟨sendAqDesc AqDesc.zero m, opened⟩ := .of_handle hlocate rfl rfl
  have hasked : Advance netHandle NextExchange ⟨sendAqDesc AqDesc.zero m, opened⟩
      ⟨recvAqResponse AqDesc.zero m, sent⟩ := .of_handle hsend rfl rfl
  have hanswered : ∃ program, Advance netHandle NextExchange ⟨recvAqResponse AqDesc.zero m, sent⟩
      ⟨program, net⟩ := ⟨_, .of_handle hrecv rfl rfl⟩
  obtain ⟨program, hanswered⟩ := hanswered
  have hrun := ((Relation.ReflTransGen.single hissued).tail hlocated |>.tail hasked).tail hanswered
  exact ⟨_, hrun, conn, hmem, haccepted, (exchanges_take_whole_frames rfl hrun).1 conn hmem⟩

end VirtualFirmware.System
