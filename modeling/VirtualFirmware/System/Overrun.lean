import VirtualFirmware.Device.Bounds
import VirtualFirmware.Firmware.Bounds
import VirtualFirmware.Firmware.Requests

/-!
# Which messages overrun a buffer

Each side sizes one of its receive buffers by something the other side does not respect: the
firmware by a constant, the device by the command's `datalen` where the response's is what the
receive call is told.
-/

namespace VirtualFirmware.System

open Library Messaging Adminq Firmware Device

/-- On both sides every receive call stays inside the buffer it is given exactly if the descriptor
received before it announces no more data than that buffer holds: `FW_DAT_SIZE` bytes in the
firmware, as much as the command announced in the device. -/
theorem receives_contained_iff (w : LoopState) (m : Machine) (desc : AqDesc) (peer : Peer) :
    (RoundContained w ↔ CommandFits w) ∧
      (ExchangeContained m desc peer ↔
        (peer.Connects m → peer.Delivers m desc → ResponseFits desc peer.socket.incoming)) :=
  ⟨roundContained_iff w, exchangeContained_iff m desc peer⟩

/-- A command that announces 5000 bytes of data. -/
def largeCommand : LoopState := enter [descFrame (command 3 5000)]

/-- A peer that answers every command with a response that announces two bytes of data. -/
def largeResponse : Peer := ⟨7, (enter [descFrame (command 3 2)]).socket⟩

/-- A command that announces more than the firmware's buffer holds overruns it, and a response that
announces more than the command did overruns the device's return buffer. -/
theorem receives_overrun : (Served largeCommand ∧ ¬ RoundContained largeCommand) ∧
    ¬ ExchangeContained default (command 3 1) largeResponse := by
  refine ⟨⟨.enter rfl rfl, ?_⟩, ?_⟩
  · rw [roundContained_iff]
    intro hfits
    have hprompt : largeCommand.socket.incoming.Prompt := rfl
    have hunread : largeCommand.socket.incoming.unread = (descFrame (command 3 5000)).bytes ++ [] :=
      rfl
    have hle := hfits _ _ (recvdata_fits hprompt hunread _ (by decide +kernel)) (by simp)
    exact absurd hle (by decide +kernel)
  · rw [exchangeContained_iff]
    intro hfits
    have hunread : largeResponse.socket.incoming.unread = (descFrame (command 3 2)).bytes ++ [] :=
      rfl
    have hprompt : largeResponse.socket.incoming.Prompt := rfl
    have hdelivers : largeResponse.Delivers default (command 3 1) :=
      ⟨by decide +kernel, fun _ => by decide +kernel⟩
    have hle := hfits (.inr (by decide)) hdelivers _ _
      (recvdata_fits hprompt hunread _ (by decide +kernel)) (by simp)
    exact absurd hle (by decide +kernel)

end VirtualFirmware.System
