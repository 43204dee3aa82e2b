import VirtualFirmware.Library.Counters
import VirtualFirmware.Network.Card

/-!
# The statistics of the card

The card counts the frames it sends and the packets it stores, and their octets. Reading one of the
counters of packets clears it, so what the guest has read and what the counter holds add up to what
was counted. The octets of a VLAN tag that the card inserts are not counted.
-/

namespace VirtualFirmware.Network

open Library Device

/-- The octets that were sent, as `TOTH` and `TOTL` count them. -/
def octetsSent (s : E1000State) : ℕ :=
  wide (s.macReg MacReg.toth.index) (s.macReg MacReg.totl.index)

/-- The octets that were received, as `TORH` and `TORL` count them. -/
def octetsReceived (s : E1000State) : ℕ :=
  wide (s.macReg MacReg.torh.index) (s.macReg MacReg.torl.index)

/-- The length of a frame without the VLAN tag, if one was inserted. -/
def untagged (frame : List UInt8 × Bool) : ℕ := frame.1.length - if frame.2 then 4 else 0

/-- What the guest reads from a register with an event. -/
def CardEvent.readFrom (reg : MacReg) : CardEvent → ℕ
  | .read addr value => if regIndex addr = reg.index then value.toNat else 0
  | _ => 0

/-- The account of what was sent over some events. Each frame comes with the record whether a tag
was inserted; the counters of packets hold what was counted less what was read from them, and the
octets add up if their upper half is left alone. -/
structure SentAccount (events : List CardEvent) (frames : List (List UInt8 × Bool)) (n n' : Nic) :
    Prop where
  sent : n'.sent = n.sent ++ frames.map Prod.fst
  tagged : n'.tagged = n.tagged ++ frames.map Prod.snd
  packets : ∀ reg ∈ [MacReg.gptc, .tpt], (n'.reg reg).toNat + (events.map (·.readFrom reg)).sum ≡
    (n.reg reg).toNat + frames.length [MOD 2 ^ 32]
  octets : (∀ event ∈ events, ¬ event.AtReg .toth) →
    octetsSent n'.dev ≡ octetsSent n.dev + (frames.map untagged).sum [MOD 2 ^ 64]

namespace SentAccount

variable {n n' n'' : Nic}

/-- Nothing was sent if the packets and the counters are the same. -/
theorem of_same (hsent : n'.sent = n.sent) (htagged : n'.tagged = n.tagged)
    (hregs : ∀ reg ∈ sentCounters, n'.reg reg = n.reg reg) : SentAccount [] [] n n' where
  sent := by rw [hsent, List.map_nil, List.append_nil]
  tagged := by rw [htagged, List.map_nil, List.append_nil]
  packets reg hreg := by
    have hcounter : [MacReg.gptc, .tpt] ⊆ sentCounters := by decide
    rw [hregs reg (hcounter hreg)]
    rfl
  octets _ := by
    have htotl : n'.dev.macReg MacReg.totl.index = n.dev.macReg MacReg.totl.index :=
      hregs .totl (by decide)
    have htoth : n'.dev.macReg MacReg.toth.index = n.dev.macReg MacReg.toth.index :=
      hregs .toth (by decide)
    have hoctets : octetsSent n'.dev = octetsSent n.dev := by
      rw [octetsSent, htotl, htoth, octetsSent]
    rw [hoctets, List.map_nil, List.sum_nil, Nat.add_zero]

/-- The accounts of two stretches of events make one of both. -/
theorem trans {events events' : List CardEvent} {first second : List (List UInt8 × Bool)}
    (h : SentAccount events first n n') (h' : SentAccount events' second n' n'') :
    SentAccount (events ++ events') (first ++ second) n n'' where
  sent := by rw [h'.sent, h.sent, List.map_append, List.append_assoc]
  tagged := by rw [h'.tagged, h.tagged, List.map_append, List.append_assoc]
  packets reg hreg := by
    rw [List.length_append, List.map_append, List.sum_append]
    exact account_trans (h.packets reg hreg) (h'.packets reg hreg)
  octets htoth := by
    rw [List.map_append, List.sum_append, ← Nat.add_assoc]
    exact (h'.octets fun event hevent => htoth event (List.mem_append_right _ hevent)).trans
      ((h.octets fun event hevent => htoth event (List.mem_append_left _ hevent)).add_right _)

/-- An event that reads nothing has the account of what happens in it. -/
theorem of_unread {event : CardEvent} {frames : List (List UInt8 × Bool)}
    (h : SentAccount [] frames n n') (hread : ∀ reg, event.readFrom reg = 0) :
    SentAccount [event] frames n n' where
  sent := h.sent
  tagged := h.tagged
  packets reg hreg := by
    rw [List.map_singleton, List.sum_singleton, hread reg]
    exact h.packets reg hreg
  octets _ := h.octets fun _ hevent => absurd hevent List.not_mem_nil

end SentAccount

/-- Sending a frame counts one more in both counters of packets. -/
theorem countSent_packets (s : E1000State) :
    ∀ reg ∈ [MacReg.gptc, .tpt], (countSent s).macReg reg.index = s.macReg reg.index + 1 := by
  have hboth : (countSent s).macReg MacReg.gptc.index = s.macReg MacReg.gptc.index + 1 ∧
      (countSent s).macReg MacReg.tpt.index = s.macReg MacReg.tpt.index + 1 := by
    unfold countSent
    dsimp only
    split <;> exact ⟨rfl, rfl⟩
  simpa using hboth

/-- Sending a frame adds its size to the counter of octets. -/
theorem octetsSent_countSent (s : E1000State) :
    octetsSent (countSent s) ≡ octetsSent s + s.tx.size.toNat [MOD 2 ^ 64] := by
  have hwords : octetsSent (countSent s) =
      wide (if s.macReg MacReg.totl.index + s.tx.size.toUInt32 < s.macReg MacReg.totl.index
          then s.macReg MacReg.toth.index + 1 else s.macReg MacReg.toth.index)
        (s.macReg MacReg.totl.index + s.tx.size.toUInt32) := by
    change octetsSent (if s.macReg MacReg.totl.index + s.tx.size.toUInt32 <
      s.macReg MacReg.totl.index
      then _ else _) = _
    split <;> rfl
  rw [hwords, ← UInt16.toNat_toUInt32]
  exact wide_add_modEq _ _ _

/-- What is sent, without its tag, is as long as the data. -/
theorem untagged_outPacket (n : Nic) :
    untagged ((outPacket n).1, n.txUnsaved.vlanNeeded) = n.dev.tx.size.toNat := by
  unfold untagged outPacket outgoing
  by_cases hvlan : n.txUnsaved.vlanNeeded
  · simp [hvlan, Region.load_length]
  · simp [hvlan, Region.load_length]

/-- `xmit_seg` counts the frame it sends. -/
theorem xmitSeg_counts (n : Nic) :
    SentAccount [] [((outPacket n).1, n.txUnsaved.vlanNeeded)] n (xmitSeg n) where
  sent := rfl
  tagged := rfl
  packets reg hreg := by
    have hcount := countSent_packets (n.mapTx (sentTx n)).dev reg hreg
    change ((countSent (n.mapTx (sentTx n)).dev).macReg reg.index).toNat ≡ _ [MOD 2 ^ 32]
    rw [hcount]
    exact toNat_add_modEq _ 1
  octets _ := by
    rw [List.map_singleton, List.sum_singleton, untagged_outPacket]
    exact octetsSent_countSent (n.mapTx (sentTx n)).dev

/-- Work on descriptors counts the frames that it sends. -/
theorem TxWork.counts {n n' : Nic} (h : TxWork n n') : ∃ frames, SentAccount [] frames n n' := by
  induction h with
  | start => exact ⟨[], .of_same rfl rfl fun _ _ => rfl⟩
  | context _ f ih =>
    obtain ⟨frames, hframes⟩ := ih
    exact ⟨_, hframes.trans (.of_same rfl rfl fun _ _ => rfl)⟩
  | unsaved _ f ih =>
    obtain ⟨frames, hframes⟩ := ih
    exact ⟨_, hframes.trans (.of_same rfl rfl fun _ _ => rfl)⟩
  | send _ ih =>
    obtain ⟨frames, hframes⟩ := ih
    exact ⟨_, hframes.trans (xmitSeg_counts _)⟩

/-- Work on the transmit ring counts the frames that it sends. -/
theorem RingWork.counts {n n' : Nic} (h : RingWork n n') :
    ∃ frames, SentAccount [] frames n n' := by
  have hhead : ∀ reg ∈ sentCounters, reg.index ≠ MacReg.tdh.index := by decide
  induction h with
  | start => exact ⟨[], .of_same rfl rfl fun _ _ => rfl⟩
  | process _ hwork ih =>
    obtain ⟨before, hbefore⟩ := ih
    obtain ⟨frames, hframes⟩ := hwork.counts
    exact ⟨_, hbefore.trans hframes⟩
  | writeBack _ ram ih =>
    obtain ⟨frames, hframes⟩ := ih
    exact ⟨_, hframes.trans (.of_same rfl rfl fun _ _ => rfl)⟩
  | move _ head ih =>
    obtain ⟨frames, hframes⟩ := ih
    exact ⟨_, hframes.trans (.of_same rfl rfl fun reg hreg =>
      E1000State.setMac_of_ne _ _ (hhead reg hreg))⟩

/-- All the counters. -/
def statistics : List MacReg := sentCounters ++ receivedCounters

/-- The counters are none of the registers that other handlers assign to. -/
theorem statistics_apart : ∀ reg ∈ statistics,
    reg ∈ tiedRegs ∧
      ∀ other ∈ [MacReg.icr, .ics, .ims, .mdic, .rctl, .rdt, .rdh, .tctl, .tdt, .tdh, .status],
      reg.index ≠ other.index := by
  decide

/-- Raising interrupts leaves the counters. -/
theorem setIcs_statistics (s : E1000State) (causes : UInt32) {reg : MacReg}
    (hreg : reg ∈ statistics) :
    (setIcs s 0 causes).macReg reg.index = s.macReg reg.index :=
  setInterruptCause_of_ne _ _ ((statistics_apart reg hreg).2 .icr (by decide))
    ((statistics_apart reg hreg).2 .ics (by decide))

/-- A write to a register of the device leaves the counters. -/
theorem writeEffect_statistics {index : ℕ} {s s' : E1000State} (h : WriteEffect index s s')
    {reg : MacReg} (hreg : reg ∈ statistics) : s'.macReg reg.index = s.macReg reg.index := by
  obtain ⟨htied, hapart⟩ := statistics_apart reg hreg
  cases h with
  | store hloose value => exact s.setMac_of_ne value (hloose reg htied).symm
  | giveSlots hindex value =>
    subst hindex
    exact E1000State.setMac_of_ne { s with checkRxov := false } value (hapart .rdt (by decide))
  | raise mask causes =>
    exact (setIcs_statistics _ _ hreg).trans (s.setMac_of_ne mask (hapart .ims (by decide)))
  | acknowledge hindex causes =>
    exact setInterruptCause_of_ne _ _ (hapart .icr (by decide)) (hapart .ics (by decide))
  | @manage hindex value regs hregs =>
    exact (setIcs_statistics _ _ hreg).trans
      (E1000State.setMac_of_ne { s with phyReg := regs } value (hapart .mdic (by decide)))
  | serial eecd => rfl
  | control hindex value => exact s.setMac_of_ne value (hapart .rctl (by decide))

/-- Reading clears a counter of packets or leaves it. -/
theorem readEffect_packets {index : ℕ} {s : E1000State} {result : UInt32 × E1000State}
    (h : ReadEffect index s result) {reg : MacReg} (hreg : reg ∈ readCleared) :
    (result.2.macReg reg.index).toNat + (if index = reg.index then result.1.toNat else 0) =
      (s.macReg reg.index).toNat := by
  have hapart : ∀ reg ∈ readCleared, ∀ other ∈ [MacReg.icr, .ics, .totl, .toth, .torl, .torh],
      reg.index ≠ other.index := by decide
  cases h with
  | keep hkeep value => rw [if_neg (hkeep reg hreg), Nat.add_zero]
  | acknowledge hindex =>
    rw [if_neg fun hsame => hapart reg hreg .icr (by decide) (hsame.symm.trans hindex),
      Nat.add_zero,
      setInterruptCause_of_ne _ _ (hapart reg hreg .icr (by decide))
        (hapart reg hreg .ics (by decide))]
  | @clear other hother hindex =>
    by_cases hsame : index = reg.index
    · rw [if_pos hsame, ← hsame, E1000State.setMac_self]
      exact Nat.zero_add _
    · rw [if_neg hsame, s.setMac_of_ne _ (Ne.symm hsame), Nat.add_zero]
  | @clearBoth low high hpair hindex =>
    have hpairs : ∀ pair ∈ [(MacReg.totl, MacReg.toth), (MacReg.torl, MacReg.torh)],
        reg.index ≠ pair.1.index ∧ reg.index ≠ pair.2.index := by
      simp only [List.forall_mem_cons]
      exact ⟨⟨hapart reg hreg .totl (by decide), hapart reg hreg .toth (by decide)⟩,
        ⟨hapart reg hreg .torl (by decide), hapart reg hreg .torh (by decide)⟩, by simp⟩
    obtain ⟨hlow, hhigh⟩ := hpairs _ hpair
    rw [if_neg fun hsame => hhigh (hsame.symm.trans hindex), Nat.add_zero,
      E1000State.setMac_of_ne _ _ hlow, E1000State.setMac_of_ne _ _ hhigh]

/-- Reading changes the octets that were sent only if it is `TOTH` that is read, and those that were
received only if it is `TORH`. -/
theorem readEffect_octets {index : ℕ} {s : E1000State} {result : UInt32 × E1000State}
    (h : ReadEffect index s result) :
    (index ≠ MacReg.toth.index → octetsSent result.2 = octetsSent s) ∧
      (index ≠ MacReg.torh.index → octetsReceived result.2 = octetsReceived s) := by
  have hapart : ∀ reg ∈ MacReg.icr :: .ics :: readCleared,
      ∀ other ∈ [MacReg.totl, .toth, .torl, .torh], other.index ≠ reg.index := by decide
  have hset (s : E1000State) (reg : MacReg) (hreg : reg ∈ MacReg.icr :: .ics :: readCleared)
      (value : UInt32) :
      octetsSent (s.setMac reg.index value) = octetsSent s ∧
        octetsReceived (s.setMac reg.index value) = octetsReceived s := by
    constructor
    · rw [octetsSent, s.setMac_of_ne value (hapart reg hreg .toth (by decide)),
        s.setMac_of_ne value (hapart reg hreg .totl (by decide)), octetsSent]
    · rw [octetsReceived, s.setMac_of_ne value (hapart reg hreg .torh (by decide)),
        s.setMac_of_ne value (hapart reg hreg .torl (by decide)), octetsReceived]
  cases h with
  | keep _ value => exact ⟨fun _ => rfl, fun _ => rfl⟩
  | acknowledge hindex =>
    obtain ⟨hsent, hreceived⟩ := hset s .icr (by decide) (asserted 0)
    obtain ⟨hsent', hreceived'⟩ :=
      hset (s.setMac MacReg.icr.index (asserted 0)) .ics (by decide) (asserted 0)
    exact ⟨fun _ => hsent'.trans hsent, fun _ => hreceived'.trans hreceived⟩
  | @clear reg hreg hindex =>
    subst hindex
    obtain ⟨hsent, hreceived⟩ := hset s reg (List.mem_cons_of_mem _ (List.mem_cons_of_mem _ hreg)) 0
    exact ⟨fun _ => hsent, fun _ => hreceived⟩
  | @clearBoth low high hpair hindex =>
    simp only [List.mem_cons, Prod.mk.injEq, List.not_mem_nil, or_false] at hpair
    rcases hpair with ⟨rfl, rfl⟩ | ⟨rfl, rfl⟩
    · exact ⟨fun hne => absurd hindex hne, fun _ => rfl⟩
    · exact ⟨fun _ => rfl, fun hne => absurd hindex hne⟩

/-- Nothing was sent or counted. -/
structure SameStatistics (n n' : Nic) : Prop where
  sent : n'.sent = n.sent
  tagged : n'.tagged = n.tagged
  regs : ∀ reg ∈ statistics, n'.reg reg = n.reg reg

/-- Two stretches in which nothing was counted make one. -/
theorem SameStatistics.trans {n n' n'' : Nic} (h : SameStatistics n n')
    (h' : SameStatistics n' n'') :
    SameStatistics n n'' :=
  ⟨h'.sent.trans h.sent, h'.tagged.trans h.tagged,
    fun reg hreg => (h'.regs reg hreg).trans (h.regs reg hreg)⟩

/-- The account of what was sent is empty if nothing was counted. -/
theorem SameStatistics.countsSent {n n' : Nic} (h : SameStatistics n n') : SentAccount [] [] n n' :=
  .of_same h.sent h.tagged fun reg hreg => h.regs reg (List.mem_append_left _ hreg)

/-- Raising interrupts counts nothing. -/
theorem sameStatistics_setIcs (n : Nic) (causes : UInt32) :
    SameStatistics n (n.mapDev (setIcs · 0 causes)) :=
  ⟨rfl, rfl, fun _ hreg => setIcs_statistics n.dev causes hreg⟩

/-- An assignment to another register counts nothing. -/
theorem sameStatistics_setMac (n : Nic) {index : ℕ} (h : ∀ reg ∈ statistics, reg.index ≠ index)
    (value : UInt32) :
    SameStatistics n (n.mapDev (·.setMac index value)) :=
  ⟨rfl, rfl, fun reg hreg => n.dev.setMac_of_ne value (h reg hreg)⟩

section Steps

variable {n n' : Nic}

/-- A write to a register of the card counts nothing, or it is work on the transmit ring that
counts. -/
theorem cardWritten_statistics {index : ℕ} {val : UInt32} (h : CardWritten index val n n') :
    SameStatistics n n' ∨ ∃ start m, SameStatistics n start ∧ RingWork start m ∧
      SameStatistics m n' := by
  cases h with
  | ignored => exact .inl ⟨rfl, rfl, fun _ _ => rfl⟩
  | effect heffect => exact .inl ⟨rfl, rfl, fun reg hreg => writeEffect_statistics heffect hreg⟩
  | @transmit tail _ hindex hwork =>
    have hapart : ∀ reg ∈ statistics, reg.index ≠ index := by
      rcases hindex with rfl | rfl
      · exact fun reg hreg => (statistics_apart reg hreg).2 .tctl (by decide)
      · exact fun reg hreg => (statistics_apart reg hreg).2 .tdt (by decide)
    have hstart : SameStatistics n ((n.mapDev (·.setMac index val)).setReg .tdt tail) :=
      (sameStatistics_setMac n hapart val).trans
        (sameStatistics_setMac _ (fun reg hreg => (statistics_apart reg hreg).2 .tdt (by decide))
          tail)
    rcases hwork with rfl | ⟨m, causes, hring, rfl⟩
    · exact .inl hstart
    · exact .inr ⟨_, m, hstart, hring, sameStatistics_setIcs m causes⟩
  | @exchange hindex m hwritten =>
    have hqueue (index : ℕ) (hqueue : InQueue index) (reg : MacReg) (_ : reg ∈ statistics) :
        reg.index ≠ index :=
      (hqueue.ne_index reg).symm
    have hregs : SameStatistics n ((n.mapDev (·.setMac pfAtqt val)).mapDev (·.setMac pfAtqh
        (nextHead (n.dev.macReg pfAtqh) n.dev.ring.ringLen))) :=
      (sameStatistics_setMac n (hqueue pfAtqt (by decide)) val).trans
        (sameStatistics_setMac _ (hqueue pfAtqh (by decide)) _)
    refine .inl ⟨rfl, rfl, fun reg hreg => ?_⟩
    change m.dev.macReg reg.index = n.dev.macReg reg.index
    rw [hwritten.dev]
    exact hregs.regs reg hreg

/-- A write to a register of the card counts the frames that it sends. -/
theorem cardWritten_sent {index : ℕ} {val : UInt32} (h : CardWritten index val n n') :
    ∃ frames, SentAccount [] frames n n' := by
  rcases cardWritten_statistics h with hsame | ⟨start, m, hstart, hring, hend⟩
  · exact ⟨[], hsame.countsSent⟩
  · obtain ⟨frames, hframes⟩ := hring.counts
    exact ⟨_, (hstart.countsSent.trans hframes).trans hend.countsSent⟩

/-- A write to a register of the card leaves the counters of what was received. -/
theorem cardWritten_received {index : ℕ} {val : UInt32} (h : CardWritten index val n n') :
    ∀ reg ∈ receivedCounters, n'.reg reg = n.reg reg := by
  have hring : ∀ reg ∈ receivedCounters, Uncounted reg.index ∧ reg.index ≠ MacReg.tdh.index := by
    decide
  have hmem : receivedCounters ⊆ statistics := List.subset_append_right _ _
  intro reg hreg
  rcases cardWritten_statistics h with hsame | ⟨start, m, hstart, hwork, hend⟩
  · exact hsame.regs reg (hmem hreg)
  · exact ((hend.regs reg (hmem hreg)).trans
      (hwork.macReg (hring reg hreg).1 (hring reg hreg).2)).trans
      (hstart.regs reg (hmem hreg))

/-- A change of the link counts nothing. -/
theorem linkStatus_statistics (down : Bool) (n : Nic) :
    SameStatistics n (n.mapDev (e1000SetLinkStatus down)) := by
  refine ⟨rfl, rfl, fun reg hreg => ?_⟩
  have hstatus (value : UInt32) :=
    n.dev.setMac_of_ne value ((statistics_apart reg hreg).2 .status (by decide))
  change (e1000SetLinkStatus down n.dev).macReg reg.index = n.dev.macReg reg.index
  unfold e1000SetLinkStatus
  dsimp only
  generalize (if down = true then _ else _ : UInt32) = value
  split
  · exact (setIcs_statistics _ _ hreg).trans (hstatus value)
  · exact hstatus value

/-- Filling slots counts nothing. -/
theorem fillWork_statistics {packet : RxPacket} (h : FillWork packet n n') :
    SameStatistics n n' := by
  induction h with
  | start => exact ⟨rfl, rfl, fun _ _ => rfl⟩
  | @fill m _ ih =>
    exact ih.trans ⟨rfl, rfl,
      fun reg hreg => fillSlot_macReg packet m ((statistics_apart reg hreg).2 .rdh (by decide))⟩

/-- Storing a packet counts one more in both counters of packets. -/
theorem countReceived_packets (size : ℕ) (s : E1000State) :
    ∀ reg ∈ [MacReg.gprc, .tpr], (countReceived size s).macReg reg.index =
      s.macReg reg.index + 1 := by
  have hboth : (countReceived size s).macReg MacReg.gprc.index = s.macReg MacReg.gprc.index + 1 ∧
      (countReceived size s).macReg MacReg.tpr.index = s.macReg MacReg.tpr.index + 1 := by
    unfold countReceived
    dsimp only
    split <;> exact ⟨rfl, rfl⟩
  simpa using hboth

/-- The octets that are counted for a packet: its size and the checksum of the frame, in 32 bits. -/
def octetsOf (size : ℕ) : ℕ := (UInt32.ofNat size + 4).toNat

/-- The counter of octets after a packet was received. -/
theorem octetsReceived_countReceived (size : ℕ) (s : E1000State) :
    octetsReceived (countReceived size s) ≡ octetsReceived s + octetsOf size [MOD 2 ^ 64] := by
  have hwords : octetsReceived (countReceived size s) =
      wide (if s.macReg MacReg.torl.index + (UInt32.ofNat size + 4) < s.macReg MacReg.torl.index
          then s.macReg MacReg.torh.index + 1 else s.macReg MacReg.torh.index)
        (s.macReg MacReg.torl.index + (UInt32.ofNat size + 4)) := by
    rw [← UInt32.add_assoc]
    change octetsReceived
      (E1000State.setMac (if s.macReg MacReg.torl.index + UInt32.ofNat size + 4 <
      s.macReg MacReg.torl.index then _ else _) _ _) = _
    split <;> rfl
  rw [hwords]
  exact wide_add_modEq _ _ _

/-- How many packets an event stores. -/
def CardEvent.storedPackets : CardEvent → ℕ
  | .packet _ (some _) => 1
  | _ => 0

/-- The octets of the packet that an event stores. -/
def CardEvent.storedOctets : CardEvent → ℕ
  | .packet _ (some size) => octetsOf size
  | _ => 0

/-- The account of what was received over some events: the counters of packets hold what was stored
less what was read from them, and the octets add up if their upper half is left alone. -/
structure ReceivedAccount (events : List CardEvent) (n n' : Nic) : Prop where
  packets : ∀ reg ∈ [MacReg.gprc, .tpr], (n'.reg reg).toNat + (events.map (·.readFrom reg)).sum ≡
    (n.reg reg).toNat + (events.map CardEvent.storedPackets).sum [MOD 2 ^ 32]
  octets : (∀ event ∈ events, ¬ event.AtReg .torh) →
    octetsReceived n'.dev ≡
      octetsReceived n.dev + (events.map CardEvent.storedOctets).sum [MOD 2 ^ 64]

namespace ReceivedAccount

/-- Without events nothing was received. -/
theorem refl (n : Nic) : ReceivedAccount [] n n where
  packets _ _ := rfl
  octets _ := by rw [List.map_nil, List.sum_nil, Nat.add_zero]

/-- An event that neither stores nor reads, and leaves the counters. -/
theorem of_same {event : CardEvent} (hregs : ∀ reg ∈ receivedCounters, n'.reg reg = n.reg reg)
    (hread : ∀ reg, event.readFrom reg = 0) (hpackets : event.storedPackets = 0)
    (hoctets : event.storedOctets = 0) : ReceivedAccount [event] n n' where
  packets reg hreg := by
    have hmem : [MacReg.gprc, .tpr] ⊆ receivedCounters := by decide
    simp only [List.map_singleton, List.sum_singleton]
    rw [hread reg, hpackets, hregs reg (hmem hreg)]
  octets _ := by
    have hsame : octetsReceived n'.dev = octetsReceived n.dev :=
      congrArg₂ wide (hregs .torh (by decide)) (hregs .torl (by decide))
    rw [List.map_singleton, List.sum_singleton, hoctets, hsame, Nat.add_zero]

/-- The accounts of two stretches of events make one of both. -/
theorem trans {n'' : Nic} {events events' : List CardEvent} (h : ReceivedAccount events n n')
    (h' : ReceivedAccount events' n' n'') : ReceivedAccount (events ++ events') n n'' where
  packets reg hreg := by
    simp only [List.map_append, List.sum_append]
    exact account_trans (h.packets reg hreg) (h'.packets reg hreg)
  octets htorh := by
    rw [List.map_append, List.sum_append, ← Nat.add_assoc]
    exact (h'.octets fun event hevent => htorh event (List.mem_append_right _ hevent)).trans
      ((h.octets fun event hevent => htorh event (List.mem_append_left _ hevent)).add_right _)

end ReceivedAccount

/-- A packet that arrives is no frame that is sent. -/
theorem reception_sent {buf : List UInt8} {result : Nic × Option ℕ} (h : Reception buf n result) :
    SentAccount [] [] n result.1 := by
  cases h with
  | refused size _ => exact .of_same rfl rfl fun _ _ => rfl
  | overrun hwork =>
    exact ((fillWork_statistics hwork).trans (sameStatistics_setIcs _ _)).countsSent
  | @stored m _ hwork =>
    have hapart : ∀ reg ∈ sentCounters, ∀ other ∈ receivedCounters, reg.index ≠ other.index := by
      decide
    have hcounted :
        SentAccount [] [] m (m.mapDev (countReceived (rxPacket n.dev (padded buf)).bytes.length)) :=
      .of_same rfl rfl fun reg hreg => countReceived_macReg _ m.dev (hapart reg hreg)
    exact ((fillWork_statistics hwork).countsSent.trans hcounted).trans
      (sameStatistics_setIcs _ _).countsSent

/-- A packet that arrives is counted if it is stored. -/
theorem reception_received {buf : List UInt8} {result : Nic × Option ℕ}
    (h : Reception buf n result) :
    ReceivedAccount [.packet buf (storedSize n buf result.2)] n result.1 := by
  have hnone {m : Nic} (hsame : SameStatistics n m) : ReceivedAccount [.packet buf none] n m :=
    .of_same (fun reg hreg => hsame.regs reg (List.mem_append_right _ hreg)) (fun _ => rfl) rfl rfl
  cases h with
  | refused size hrefused =>
    have hstored : storedSize n buf size = none := by
      unfold storedSize
      rcases hrefused with rfl | hfilter
      · exact ite_self _
      · rw [hfilter]
        rfl
    rw [hstored]
    exact hnone ⟨rfl, rfl, fun _ _ => rfl⟩
  | overrun hwork =>
    have hstored : storedSize n buf none = none := ite_self _
    rw [hstored]
    exact hnone ((fillWork_statistics hwork).trans (sameStatistics_setIcs _ _))
  | @stored m hfilter hwork =>
    have hfilled := fillWork_statistics hwork
    have hraised :=
      sameStatistics_setIcs (m.mapDev (countReceived (rxPacket n.dev (padded buf)).bytes.length))
      (receivedCause (m.mapDev (countReceived (rxPacket n.dev (padded buf)).bytes.length)).dev)
    have hoctets {m m' : Nic} (hsame : SameStatistics m m') : octetsReceived m'.dev =
        octetsReceived m.dev :=
      congrArg₂ wide (hsame.regs .torh (by decide)) (hsame.regs .torl (by decide))
    have hstored : storedSize n buf (some (rxPacket n.dev (padded buf)).bytes.length) =
        some (rxPacket n.dev (padded buf)).bytes.length := if_pos hfilter
    rw [hstored]
    refine ⟨fun reg hreg => ?_, fun _ => ?_⟩
    · have hmem : [MacReg.gprc, .tpr] ⊆ statistics := by decide
      have hcount := countReceived_packets (rxPacket n.dev (padded buf)).bytes.length m.dev reg hreg
      change ((received _ m).reg reg).toNat ≡ (n.reg reg).toNat + 1 [MOD 2 ^ 32]
      rw [← hfilled.regs reg (hmem hreg), show (received _ m).reg reg = m.reg reg + 1 from
        (hraised.regs reg (hmem hreg)).trans hcount]
      exact toNat_add_modEq _ 1
    · have hcount := octetsReceived_countReceived (rxPacket n.dev (padded buf)).bytes.length m.dev
      change octetsReceived (received _ m).dev ≡ octetsReceived n.dev + octetsOf _ [MOD 2 ^ 64]
      rw [← hoctets hfilled, show octetsReceived (received _ m).dev = _ from hoctets hraised]
      exact hcount

/-- An event counts the frames that it sends, and takes from the counters what it reads. -/
theorem CardStep.sends {fuel : ℕ} {event : CardEvent} (h : CardStep fuel n event n') :
    ∃ frames, SentAccount [event] frames n n' := by
  cases h with
  | write hwrite hreturns =>
    obtain ⟨frames, hframes⟩ := cardWritten_sent (cardWrite_written hwrite hreturns)
    exact ⟨frames, hframes.of_unread fun _ => rfl⟩
  | read addr =>
    have heffect := e1000MmioReadl_effect addr n.dev
    have hcleared : [MacReg.gptc, .tpt] ⊆ readCleared := by decide
    refine ⟨[], (List.append_nil _).symm, (List.append_nil _).symm, fun reg hreg => ?_,
      fun htoth => ?_⟩
    · change ((e1000MmioReadl addr n.dev).2.macReg reg.index).toNat +
        (if regIndex addr = reg.index then (e1000MmioReadl addr n.dev).1.toNat else 0) ≡
          _ [MOD 2 ^ 32]
      rw [readEffect_packets heffect (hcleared hreg)]
      rfl
    · have hother : regIndex addr ≠ MacReg.toth.index := htoth _ List.mem_cons_self
      change octetsSent (e1000MmioReadl addr n.dev).2 ≡ _ [MOD 2 ^ 64]
      rw [(readEffect_octets heffect).1 hother, List.map_nil, List.sum_nil, Nat.add_zero]
  | packet hreceive =>
    exact ⟨[], (reception_sent (e1000Receive_reception fuel _ n _ hreceive)).of_unread fun _ => rfl⟩
  | link down => exact ⟨[], (linkStatus_statistics down n).countsSent.of_unread fun _ => rfl⟩

/-- An event counts the packet that it stores, and takes from the counters what it reads. -/
theorem CardStep.stores {fuel : ℕ} {event : CardEvent} (h : CardStep fuel n event n') :
    ReceivedAccount [event] n n' := by
  cases h with
  | write hwrite hreturns =>
    exact .of_same (cardWritten_received (cardWrite_written hwrite hreturns)) (fun _ => rfl) rfl rfl
  | read addr =>
    have heffect := e1000MmioReadl_effect addr n.dev
    have hcleared : [MacReg.gprc, .tpr] ⊆ readCleared := by decide
    refine ⟨fun reg hreg => ?_, fun htorh => ?_⟩
    · change ((e1000MmioReadl addr n.dev).2.macReg reg.index).toNat +
        (if regIndex addr = reg.index then (e1000MmioReadl addr n.dev).1.toNat else 0) ≡
          _ [MOD 2 ^ 32]
      rw [readEffect_packets heffect (hcleared hreg)]
      rfl
    · have hother : regIndex addr ≠ MacReg.torh.index := htorh _ List.mem_cons_self
      change octetsReceived (e1000MmioReadl addr n.dev).2 ≡ octetsReceived n.dev + 0 [MOD 2 ^ 64]
      rw [(readEffect_octets heffect).2 hother, Nat.add_zero]
  | packet hreceive => exact reception_received (e1000Receive_reception fuel _ n _ hreceive)
  | link down =>
    have hsame := linkStatus_statistics down n
    exact .of_same (fun reg hreg => hsame.regs reg (List.mem_append_right _ hreg))
      (fun _ => rfl) rfl rfl

end Steps

/-- A card that takes every packet, with two slots and a buffer for the first. -/
def listeningCard : Nic :=
  let n : Nic :=
    { (default : Nic) with ram := AddressSpace.write (fun _ => 0) 0x1000 (leBytes 8 0x2000) }
  ((n.setReg .rdbal 0x1000).setReg .rdlen 32).mapDev (setRxControl · MacReg.rctl.index 0xa)

/-- The card after a packet was stored. -/
def packetStored : Nic := received 60 (fillSlot ⟨padded [1, 2, 3], 0, 0⟩ listeningCard)

/-- A packet of three bytes is padded and stored. -/
theorem listeningCard_receives :
    e1000Receive 1 [1, 2, 3] listeningCard = .ok (packetStored, some 60) := by
  have hpasses : receiveFilter listeningCard.dev (padded [1, 2, 3]) = true := by decide +kernel
  have hpacket : rxPacket listeningCard.dev (padded [1, 2, 3]) = ⟨padded [1, 2, 3], 0, 0⟩ := by
    decide +kernel
  have hround : receiveRound (listeningCard.reg .rdh) ⟨padded [1, 2, 3], 0, 0⟩ listeningCard =
      .ok (.inr (fillSlot ⟨padded [1, 2, 3], 0, 0⟩ listeningCard, true)) := by
    unfold receiveRound
    rw [if_neg (by decide)]
    dsimp only
    rw [if_neg (by decide), if_neg (by decide)]
  unfold e1000Receive
  dsimp only
  rw [if_neg (by decide), if_neg (by decide), if_neg (by rw [hpasses]; decide), hpacket,
    loop_of_inr hround]
  rfl

/-- The card after the guest read the number of packets. -/
def counterRead : Nic := packetStored.mapDev fun s => (e1000MmioReadl 0x4074 s).2

/-- A card that inserts VLAN tags, with a legacy descriptor for 25 bytes and a tag in the first
slot. -/
def taggingCard : Nic :=
  let n : Nic :=
    { (default : Nic) with
      ram := AddressSpace.write (fun _ => 0) 0x1000
        (leBytes 8 0x2000 ++ leBytes 4 0x41000019 ++ leBytes 4 0x50000) }
  (((n.setReg .ctrl 0x40000000).setReg .tctl 2).setReg .tdbal 0x1000).setReg .tdlen 128

/-- The card after the frame was sent. -/
def frameSent : Nic := (setTctl (2 ^ 16) MacReg.tdt.index 1 taggingCard).toOption.getD default

/-- The write of the tail returns with the frame sent. -/
theorem taggingCard_sends : setTctl (2 ^ 16) MacReg.tdt.index 1 taggingCard = .ok frameSent := by
  have hreturns : (setTctl (2 ^ 16) MacReg.tdt.index 1 taggingCard).isOk = true := by decide +kernel
  unfold frameSent
  cases h : setTctl (2 ^ 16) MacReg.tdt.index 1 taggingCard with
  | error stop =>
    rw [h] at hreturns
    cases hreturns
  | ok n => rfl

end VirtualFirmware.Network
