import VirtualFirmware.Library.Regions
import VirtualFirmware.Network.Transmit

/-!
# The frame that is made of a packet's bytes

`xmit_seg` works in `tx.data`, which also holds what earlier packets left behind the end of the
current one. What it sends depends only on the bytes of the packet, if the fields that the context
names lie within them.
-/

namespace VirtualFirmware.Network

open Library Device

/-- The context with other data. -/
def withData (tp : E1000Tx) (data : Region) : E1000Tx := { tp with data := data }

/-- The context as it is when the given bytes are sent as the given frame of a packet. -/
def holdingBytes (tp : E1000Tx) (frame : UInt16) (bytes : List UInt8) : E1000Tx :=
  { tp with data := Region.ofBytes bytes, size := UInt16.ofNat bytes.length, tsoFrames := frame }

/-- The frame that `xmit_seg` makes of the bytes of a packet or segment. -/
def frameOf (tp : E1000Tx) (u : TxUnsaved) (frame : UInt16) (bytes : List UInt8) : List UInt8 :=
  let tp := holdingBytes tp frame bytes
  (outgoing u (insertSums tp (if u.segmenting then segmentHeader tp else tp.data)) bytes.length).1

/-- The fields that `xmit_seg` reads lie within the first bytes: those of the headers if segments
are sent, and the addresses in front of a VLAN tag. -/
structure FieldsInside (tp : E1000Tx) (u : TxUnsaved) (count : ℕ) : Prop where
  ip : u.segmenting = true → tp.ipcss.toNat + 6 ≤ count
  tcp : u.segmenting = true → tp.tucss.toNat + 14 ≤ count
  sum : u.segmenting = true → tp.tucso.toNat + 2 ≤ count
  vlan : u.vlanNeeded = true → 12 ≤ count

section Agreement

variable {left right : Region} {count : ℕ} (h : left.load count = right.load count)
include h

/-- A half word in the front is the same in both. -/
theorem be16_of_load_eq {offset : ℕ} (hinside : offset + 2 ≤ count) :
    be16 left offset = be16 right offset := by
  rw [be16, be16, Region.loadAt_of_load_eq h hinside]

/-- A word in the front is the same in both. -/
theorem be32_of_load_eq {offset : ℕ} (hinside : offset + 4 ≤ count) :
    be32 left offset = be32 right offset := by
  rw [be32, be32, Region.loadAt_of_load_eq h hinside]

/-- Storing the same half word keeps the fronts the same. -/
theorem putBe16_of_load_eq (offset : ℕ) (value : UInt16) :
    (putBe16 left offset value).load count = (putBe16 right offset value).load count :=
  Region.load_storeAt_of_load_eq h offset _

/-- Storing the same word keeps the fronts the same. -/
theorem putBe32_of_load_eq (offset : ℕ) (value : UInt32) :
    (putBe32 left offset value).load count = (putBe32 right offset value).load count :=
  Region.load_storeAt_of_load_eq h offset _

/-- Storing the same byte keeps the fronts the same. -/
theorem setReg_of_load_eq (offset : ℕ) (value : UInt8) :
    Region.load (setReg left offset value) count =
      Region.load (setReg right offset value) count := by
  refine Region.load_eq_load_iff.mpr fun target htarget => ?_
  simp only [setReg, Region.apply_of_load_eq h htarget]

/-- The sum over the front is the same in both. -/
theorem netChecksumSum_of_load_eq : netChecksumSum left count = netChecksumSum right count := by
  induction count with
  | zero => rfl
  | succ count ih =>
    rw [netChecksumSum, netChecksumSum, ih (Region.load_eq_of_le h (Nat.le_succ count)),
      Region.apply_of_load_eq h (Nat.lt_succ_self count)]

end Agreement

/-- A difference of small numbers, as an `int` that counts bytes: nothing is counted if it is
negative. -/
theorem toInt32_sub_toNat {n css : UInt32} (hn : n.toNat < 2 ^ 31) (hcss : css.toNat < 2 ^ 31) :
    (n - css).toInt32.toInt.toNat = n.toNat - css.toNat := by
  have hsub : (n - css).toNat = (2 ^ 32 - css.toNat + n.toNat) % 2 ^ 32 := UInt32.toNat_sub n css
  have hint : (n - css).toInt32.toInt = ((n - css).toNat : ℤ).bmod (2 ^ 32) :=
    BitVec.toInt_eq_toNat_bmod _
  rw [hint, hsub]
  rcases Nat.lt_or_ge n.toNat css.toNat with hlt | hge
  · rw [Nat.mod_eq_of_lt (by omega), Int.bmod_def]
    omega
  · rw [show 2 ^ 32 - css.toNat + n.toNat = (n.toNat - css.toNat) + 2 ^ 32 by omega,
      Nat.add_mod_right, Nat.mod_eq_of_lt (by omega), Int.bmod_def]
    omega

/-- A length that is not negative as an `int` is moved as it is. -/
theorem transferred_of_lt {len : UInt32} (hlen : len.toNat < 2 ^ 31) :
    transferred len = len.toNat := by
  have hzero := toInt32_sub_toNat hlen (by decide : (0 : UInt32).toNat < 2 ^ 31)
  rwa [UInt32.sub_zero] at hzero

/-- The number of bytes up to which `putsum` adds. -/
def sumEnd (n cse : UInt32) : UInt32 := if cse ≠ 0 ∧ cse < n then cse + 1 else n

/-- The end of a checksum's range is not behind the end of the data. -/
theorem sumEnd_le (n cse : UInt32) : (sumEnd n cse).toNat ≤ n.toNat := by
  unfold sumEnd
  split
  · rename_i hcse
    have hlt : cse.toNat < n.toNat := UInt32.lt_iff_toNat_lt.mp hcse.2
    have hone : (1 : UInt32).toNat = 1 := rfl
    rw [UInt32.toNat_add, hone]
    exact (Nat.mod_le _ _).trans hlt
  · exact Nat.le_refl _

/-- `putsum` depends only on the bytes up to the end of the data. -/
theorem putsum_of_load_eq {left right : Region} {n : UInt32}
    (h : left.load n.toNat = right.load n.toNat) (hn : n.toNat < 2 ^ 31) (sloc : UInt32)
    {css : UInt32} (hcss : css.toNat < 2 ^ 31) (cse : UInt32) :
    (putsum left n sloc css cse).load n.toNat = (putsum right n sloc css cse).load n.toNat := by
  have hend := sumEnd_le n cse
  have hsum : netChecksumAdd (sumEnd n cse - css).toInt32 (fun i => left (css.toNat + i)) =
      netChecksumAdd (sumEnd n cse - css).toInt32 (fun i => right (css.toNat + i)) := by
    unfold netChecksumAdd
    rw [toInt32_sub_toNat (hend.trans_lt hn) hcss]
    apply netChecksumSum_of_load_eq
    rcases Nat.lt_or_ge (sumEnd n cse).toNat css.toNat with hlt | hge
    · rw [Nat.sub_eq_zero_of_le hlt.le]
      rfl
    · exact Region.loadAt_of_load_eq h (by omega)
  change Region.load (if sloc < sumEnd n cse - 1 then _ else _) _ =
    Region.load (if sloc < sumEnd n cse - 1 then _ else _) _
  split
  · change (putBe16 left sloc.toNat
      (netChecksumFinish (netChecksumAdd (sumEnd n cse - css).toInt32 _))).load _ =
      (putBe16 right sloc.toNat
        (netChecksumFinish (netChecksumAdd (sumEnd n cse - css).toInt32 _))).load _
    rw [hsum]
    exact putBe16_of_load_eq h _ _
  · exact h

/-- The checksums depend only on the bytes of the packet. -/
theorem insertSums_of_load_eq (tp : E1000Tx) {left right : Region}
    (h : left.load tp.size.toNat = right.load tp.size.toNat) :
    (insertSums tp left).load tp.size.toNat = (insertSums tp right).load tp.size.toNat := by
  have hsize : tp.size.toUInt32.toNat = tp.size.toNat := UInt16.toNat_toUInt32 _
  have hsmall : tp.size.toUInt32.toNat < 2 ^ 31 := by
    have := tp.size.toNat_lt
    omega
  have hput {left right : Region} (h : left.load tp.size.toNat = right.load tp.size.toNat)
      (sloc css : UInt8)
      (cse : UInt16) :
      (putsum left tp.size.toUInt32 sloc.toUInt32 css.toUInt32 cse.toUInt32).load tp.size.toNat =
        (putsum right tp.size.toUInt32 sloc.toUInt32 css.toUInt32 cse.toUInt32).load
          tp.size.toNat := by
    have hcss : css.toUInt32.toNat < 2 ^ 31 := by
      have := css.toNat_lt
      rw [UInt8.toNat_toUInt32]
      omega
    rw [← hsize] at h ⊢
    exact putsum_of_load_eq h hsmall _ hcss _
  unfold insertSums
  dsimp only
  split
  · split
    · exact hput (hput h _ _ _) _ _ _
    · exact hput h _ _ _
  · split
    · exact hput h _ _ _
    · exact h

section Headers

variable {tp : E1000Tx} {left right : Region} {count : ℕ} (h : left.load count = right.load count)
include h

/-- The fields of the IP header depend only on the bytes up to them. -/
theorem ipFields_of_load_eq (hip : tp.ipcss.toNat + 6 ≤ count) :
    (ipFields tp left).load count = (ipFields tp right).load count := by
  unfold ipFields
  dsimp only
  split
  · have hlength := putBe16_of_load_eq h (tp.ipcss.toNat + 2) (tp.size - tp.ipcss.toUInt16)
    rw [be16_of_load_eq hlength (by omega)]
    exact putBe16_of_load_eq hlength _ _
  · exact putBe16_of_load_eq h _ _

/-- The fields of the TCP or UDP header depend only on the bytes up to them. -/
theorem transportFields_of_load_eq (htcp : tp.tucss.toNat + 14 ≤ count) :
    (transportFields tp left).load count = (transportFields tp right).load count := by
  unfold transportFields tcpFields
  dsimp only
  split
  · have hseq := putBe32_of_load_eq h (tp.tucss.toNat + 4)
      (be32 left (tp.tucss.toNat + 4) + sofar tp)
    rw [be32_of_load_eq h (by omega)] at hseq ⊢
    split
    · rw [Region.apply_of_load_eq hseq (by omega)]
      exact setReg_of_load_eq hseq _ _
    · exact hseq
  · exact putBe16_of_load_eq h _ _

/-- Adding the length to the pseudo-header's sum keeps the fronts the same. -/
theorem pseudoHeader_of_load_eq (hsum : tp.tucso.toNat + 2 ≤ count) :
    (pseudoHeader tp left).load count = (pseudoHeader tp right).load count := by
  unfold pseudoHeader
  dsimp only
  split
  · rw [be16_of_load_eq h hsum]
    exact putBe16_of_load_eq h _ _
  · exact h

/-- The packet that is sent depends only on its bytes. -/
theorem outgoing_of_load_eq {u : TxUnsaved} (hvlan : u.vlanNeeded = true → 12 ≤ count) :
    (outgoing u left count).1 = (outgoing u right count).1 := by
  unfold outgoing
  split
  · rename_i hneeded
    have hlong : 12 ≤ count := hvlan hneeded
    have hfront : left.load 4 = right.load 4 := Region.load_eq_of_le h (by omega)
    have hmoved : (left.store (left.loadAt 4 8)).load count =
        (right.store (right.loadAt 4 8)).load count := by
      rw [Region.loadAt_of_load_eq h (by omega)]
      refine Region.load_eq_load_iff.mpr fun offset hoffset => ?_
      simp only [Region.store, Region.apply_of_load_eq h hoffset]
    exact congrArg₂ (· ++ ·) hfront (Region.load_storeAt_of_load_eq hmoved 8 u.vlanHeader)
  · exact h

end Headers

/-- The fields of the headers depend only on the bytes up to them. -/
theorem segmentHeader_of_load_eq {tp : E1000Tx} {u : TxUnsaved} {left right : Region} {count : ℕ}
    (h : left.load count = right.load count) (hinside : FieldsInside tp u count)
    (hu : u.segmenting = true) :
    (segmentHeader (withData tp left)).load count =
      (segmentHeader (withData tp right)).load count := by
  have hip : (ipFields tp left).load count = (ipFields tp right).load count :=
    ipFields_of_load_eq h (hinside.ip hu)
  exact pseudoHeader_of_load_eq (transportFields_of_load_eq hip (hinside.tcp hu)) (hinside.sum hu)

/-- The context that holds the bytes which are in `tx.data`. -/
theorem holdingBytes_load (tp : E1000Tx) :
    holdingBytes tp tp.tsoFrames (Region.load tp.data tp.size.toNat) =
      withData tp (Region.ofBytes (Region.load tp.data tp.size.toNat)) := by
  simp only [holdingBytes, withData, Region.load_length, UInt16.ofNat_toNat]

/-- `xmit_seg` sends the frame that is made of the bytes in `tx.data`. -/
theorem outPacket_eq_frameOf {n : Nic}
    (hinside : FieldsInside n.dev.tx n.txUnsaved n.dev.tx.size.toNat) :
    (outPacket n).1 = frameOf n.dev.tx n.txUnsaved n.dev.tx.tsoFrames
      (Region.load n.dev.tx.data n.dev.tx.size.toNat) := by
  have hbytes := (Region.load_ofBytes_load n.dev.tx.data n.dev.tx.size.toNat).symm
  unfold frameOf outPacket completedData
  rw [holdingBytes_load, Region.load_length]
  apply outgoing_of_load_eq _ hinside.vlan
  apply insertSums_of_load_eq
  split
  · rename_i hu
    exact segmentHeader_of_load_eq hbytes hinside hu
  · exact hbytes

end VirtualFirmware.Network
