import VirtualFirmware.Library.Interaction
import VirtualFirmware.Library.Calls
import VirtualFirmware.Library.Keeps
import VirtualFirmware.Library.Handles
import VirtualFirmware.Library.Completion
import VirtualFirmware.Library.Runs
import VirtualFirmware.Library.Arrivals
import VirtualFirmware.Library.Session
import VirtualFirmware.Library.Duplex
import VirtualFirmware.Library.Execution
import VirtualFirmware.Library.Words
import VirtualFirmware.Library.Parity
import VirtualFirmware.Library.Reads
import VirtualFirmware.Library.WordXor
import VirtualFirmware.Library.Flags
import VirtualFirmware.Messaging.Message
import VirtualFirmware.Messaging.Checksum
import VirtualFirmware.Messaging.ChksumReference
import VirtualFirmware.Messaging.Delivery
import VirtualFirmware.Messaging.Stream
import VirtualFirmware.Messaging.Reception
import VirtualFirmware.Messaging.Outcomes
import VirtualFirmware.Messaging.Corruption
import VirtualFirmware.Messaging.Sending
import VirtualFirmware.Messaging.PartialSends
import VirtualFirmware.Messaging.Desync
import VirtualFirmware.Messaging.Channel
import VirtualFirmware.Messaging.Socket
import VirtualFirmware.Messaging.Buffers
import VirtualFirmware.Adminq.Descriptor
import VirtualFirmware.Adminq.Overlay
import VirtualFirmware.Firmware.Thread
import VirtualFirmware.Firmware.Loop
import VirtualFirmware.Firmware.Replies
import VirtualFirmware.Firmware.Requests
import VirtualFirmware.Firmware.Progress
import VirtualFirmware.Firmware.Bounds
import VirtualFirmware.Device.Machine
import VirtualFirmware.Device.AtqTail
import VirtualFirmware.Device.Platform
import VirtualFirmware.Device.Peer
import VirtualFirmware.Device.Bounds
import VirtualFirmware.Device.Atomicity
import VirtualFirmware.Device.ReturnBuffer
import VirtualFirmware.Device.MacReads
import VirtualFirmware.Device.PhysicalMemory
import VirtualFirmware.Device.QueueRegs
import VirtualFirmware.Device.QueueAccess
import VirtualFirmware.Device.DmaWrites
import VirtualFirmware.Device.DmaExchange
import VirtualFirmware.Device.NestedTail
import VirtualFirmware.Device.Reentry
import VirtualFirmware.System.Overrun
import VirtualFirmware.System.Sockets
import VirtualFirmware.System.Framing
import VirtualFirmware.System.Link
import VirtualFirmware.System.DriverCalls
import VirtualFirmware.System.Exchange
import VirtualFirmware.System.Deadlock
import VirtualFirmware.Device.RingSemantics
import VirtualFirmware.System.TailExchange
import VirtualFirmware.System.Fallback
import VirtualFirmware.System.Answers
import VirtualFirmware.Device.Coalesced
import VirtualFirmware.Device.Vmstate
import VirtualFirmware.Device.Migration
import VirtualFirmware.Driver.Adminq
import VirtualFirmware.Driver.Commands
import VirtualFirmware.Driver.LockStep
import VirtualFirmware.Driver.Sessions
import VirtualFirmware.Device.SlotResult
import VirtualFirmware.Device.Interrupts
import VirtualFirmware.Device.Log
import VirtualFirmware.Device.LogMessages
import VirtualFirmware.Device.LogRuns
import VirtualFirmware.Driver.AdminqCmd
import VirtualFirmware.Driver.Versions
import VirtualFirmware.Driver.Decoding
import VirtualFirmware.Library.LockDiscipline
import VirtualFirmware.Library.Loops
import VirtualFirmware.Driver.Asq
import VirtualFirmware.Driver.AsqSteps
import VirtualFirmware.Driver.Locking
import VirtualFirmware.Driver.Slots
import VirtualFirmware.Driver.Cleaning
import VirtualFirmware.Driver.Account
import VirtualFirmware.Driver.CleanStep
import VirtualFirmware.Driver.CleanRuns
import VirtualFirmware.Discovery.System
import VirtualFirmware.Discovery.Panel
import VirtualFirmware.Discovery.Interfaces
import VirtualFirmware.Discovery.Locate
import VirtualFirmware.Discovery.Announce
import VirtualFirmware.Discovery.Ownership
import VirtualFirmware.Discovery.PanelUse
import VirtualFirmware.Discovery.PanelLife
import VirtualFirmware.Discovery.Enumeration
import VirtualFirmware.Discovery.LocateRelease
import VirtualFirmware.Discovery.Silence
import VirtualFirmware.Discovery.Announcement
import VirtualFirmware.Discovery.Target
import VirtualFirmware.Discovery.Slots
import VirtualFirmware.Discovery.BuildPanels
import VirtualFirmware.Discovery.AnnounceLoops
import VirtualFirmware.Discovery.AnnounceRelease
import VirtualFirmware.Discovery.InterfaceFilter
import VirtualFirmware.Discovery.PanelFlags
import VirtualFirmware.Discovery.PanelTruth
import VirtualFirmware.Opt.ReadOptions
import VirtualFirmware.Opt.Lines
import VirtualFirmware.Opt.Passes
import VirtualFirmware.Opt.Containment
import VirtualFirmware.Opt.Values
import VirtualFirmware.Opt.Comments
import VirtualFirmware.Network.Transmit
import VirtualFirmware.Network.TransmitFrame
import VirtualFirmware.Network.TransmitRing
import VirtualFirmware.Network.Wire
import VirtualFirmware.Network.TransmitBatches
import VirtualFirmware.Network.Frames
import VirtualFirmware.Network.Segmentation
import VirtualFirmware.Network.Checksums
import VirtualFirmware.Network.SegmentHeaders
import VirtualFirmware.Network.Sender
import VirtualFirmware.Network.TcpStream
import VirtualFirmware.Network.TransmitRefinement
import VirtualFirmware.Network.Receive
import VirtualFirmware.Network.ReceiveDelivery
import VirtualFirmware.Network.ReceiveRing
import VirtualFirmware.Network.ReceiveSlots
import VirtualFirmware.Device.Effects
import VirtualFirmware.Library.Counters
import VirtualFirmware.Library.Events
import VirtualFirmware.Network.Card
import VirtualFirmware.Network.CardInterrupts
import VirtualFirmware.Network.Statistics
import VirtualFirmware.Device.Eeprom
import VirtualFirmware.Network.CardEeprom
import VirtualFirmware.Network.CardPhy
