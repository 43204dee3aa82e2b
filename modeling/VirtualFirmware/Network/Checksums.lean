import VirtualFirmware.Library.OnesComplement
import VirtualFirmware.Network.Frames

/-!
# Checksums

`putsum` adds up the half words of a range, together with what the driver left in the place of the
checksum, and stores the complement. A receiver that adds the range and what the driver had left
gets zero.
-/

namespace VirtualFirmware.Network

open Library Device OnesComplement

/-- The loop of `net_checksum_add` does not overflow for a packet. -/
theorem netChecksumSum_toNat (buf : Region) {count : ℕ} (hcount : count ≤ 2 ^ 16) :
    (netChecksumSum buf count).toNat = wordSum buf count := by
  induction count with
  | zero => rfl
  | succ count ih =>
    have hbyte := (buf count).toNat_lt
    have hbound := wordSum_le buf count
    have hlow : (buf count).toUInt32.toNat = (buf count).toNat := UInt8.toNat_toUInt32 _
    have hhigh : ((buf count).toUInt32 <<< 8).toNat = (buf count).toNat * 256 := by
      rw [UInt32.toNat_shiftLeft, hlow]
      change ((buf count).toNat <<< 8) % 2 ^ 32 = _
      rw [Nat.shiftLeft_eq, Nat.mod_eq_of_lt (by omega)]
    rw [netChecksumSum, wordSum, UInt32.toNat_add, ih (by omega)]
    split
    · rw [hlow, Nat.mod_eq_of_lt (by omega)]
    · rw [hhigh, Nat.mod_eq_of_lt (by omega)]

/-- A round of `net_checksum_finish` adds the upper half of the sum to its lower half. -/
theorem fold_toNat (sum : UInt32) :
    ((sum &&& (0xffff : UInt32)) + (sum >>> 16)).toNat = sum.toNat % 65536 + sum.toNat / 65536 := by
  have hlow : (sum &&& (0xffff : UInt32)).toNat = sum.toNat % 65536 := by
    rw [UInt32.toNat_and]
    exact Nat.and_two_pow_sub_one_eq_mod sum.toNat 16
  have hhigh : (sum >>> 16).toNat = sum.toNat / 65536 := by
    rw [UInt32.toNat_shiftRight]
    exact Nat.shiftRight_eq_div_pow _ _
  have hsum := sum.toNat_lt
  rw [UInt32.toNat_add, hlow, hhigh, Nat.mod_eq_of_lt (by omega)]

/-- `net_checksum_finish` folds the sum to a half word with the same residue, which is zero only for
zero. -/
theorem netChecksumFold_spec (sum : UInt32) :
    (netChecksumFold sum).toNat < 65536 ∧ (netChecksumFold sum).toNat % 65535 = sum.toNat % 65535 ∧
      ((netChecksumFold sum).toNat = 0 ↔ sum.toNat = 0) := by
  induction sum using netChecksumFold.induct with
  | case1 sum hdone =>
    have hsmall : sum.toNat / 65536 = 0 := by
      have hshift := congrArg UInt32.toNat hdone
      rw [UInt32.toNat_shiftRight] at hshift
      exact (Nat.shiftRight_eq_div_pow _ _).symm.trans hshift
    rw [netChecksumFold, if_pos hdone]
    exact ⟨by omega, rfl, Iff.rfl⟩
  | case2 sum hcarry ih =>
    rw [netChecksumFold, if_neg hcarry]
    obtain ⟨hlt, hmod, hzero⟩ := ih
    rw [fold_toNat] at hmod hzero
    refine ⟨hlt, hmod.trans (fold_mod _), hzero.trans ?_⟩
    omega

/-- The checksum is the complement of the folded sum. -/
theorem netChecksumFinish_toNat (sum : UInt32) :
    (netChecksumFinish sum).toNat = 65535 - (netChecksumFold sum).toNat := by
  have hlt := (netChecksumFold_spec sum).1
  have hhalf : (netChecksumFold sum).toUInt16.toNat = (netChecksumFold sum).toNat := by
    rw [UInt32.toNat_toUInt16, Nat.mod_eq_of_lt hlt]
  have hsize : UInt16.size = 65536 := rfl
  rw [netChecksumFinish, UInt16.toNat_not, hhalf]
  omega

/-- A receiver accepts the sums that are positive multiples of 65535: their checksum is zero. -/
theorem netChecksumFinish_eq_zero_iff {sum : UInt32} :
    netChecksumFinish sum = 0 ↔ 0 < sum.toNat ∧ sum.toNat % 65535 = 0 := by
  obtain ⟨hlt, hfold, hzero⟩ := netChecksumFold_spec sum
  have hnat : netChecksumFinish sum = 0 ↔ (netChecksumFinish sum).toNat = 0 := UInt16.toNat_inj.symm
  rw [hnat, netChecksumFinish_toNat]
  rcases Nat.eq_zero_or_pos (netChecksumFold sum).toNat with h | h
  · have := hzero.mp h
    omega
  · omega

/-- A half word that was stored is read back. -/
theorem be16_putBe16 (data : Region) (offset : ℕ) (value : UInt16) :
    be16 (putBe16 data offset value) offset = value := by
  have hbytes : (putBe16 data offset value).loadAt offset 2 = beBytes 2 value.toNat := by
    have hload := Region.load_store (fun target => data (offset + target)) (beBytes 2 value.toNat)
    rw [beBytes_length] at hload
    rw [putBe16, Region.loadAt_storeAt, hload]
  rw [be16, hbytes, beNat_beBytes_of_lt value.toNat_lt, UInt16.ofNat_toNat]

/-- A half word is made of its bytes. -/
theorem be16_toNat (data : Region) (offset : ℕ) :
    (be16 data offset).toNat = wordAt data offset := by
  have hhigh := (data offset).toNat_lt
  have hlow := (data (offset + 1)).toNat_lt
  have hbytes : data.loadAt offset 2 = [data offset, data (offset + 1)] := rfl
  have hnat : beNat [data offset, data (offset + 1)] = wordAt data offset := by
    unfold wordAt
    simp only [beNat, List.reverse_cons, List.reverse_nil, List.nil_append,
      List.singleton_append, leNat]
    omega
  rw [be16, hbytes, hnat, UInt16.toNat_ofNat', Nat.mod_eq_of_lt (by unfold wordAt; omega)]

/-- Storing a half word leaves the bytes outside of it. -/
theorem putBe16_of_outside (data : Region) {offset target : ℕ} (value : UInt16)
    (h : target < offset ∨ offset + 2 ≤ target) : putBe16 data offset value target = data target :=
  Region.storeAt_of_outside data (by rwa [beBytes_length])

/-- The bytes of a range, from its start on. -/
def rangeFrom (data : Region) (start : ℕ) : Region := fun i => data (start + i)

/-- The sum of a range in which a half word was stored. -/
theorem wordSum_putBe16 (data : Region) {start offset stop : ℕ} (hstart : start ≤ offset)
    (heven : (offset - start) % 2 = 0) (hstop : offset + 2 ≤ stop) (value : UInt16) :
    wordSum (rangeFrom (putBe16 data offset value) start) (stop - start) + wordAt data offset =
      wordSum (rangeFrom data start) (stop - start) + value.toNat := by
  have hat (data : Region) : wordAt (rangeFrom data start) (offset - start) =
      wordAt data offset := by
    rw [wordAt, rangeFrom, rangeFrom, show start + (offset - start) = offset by omega,
      show start + (offset - start + 1) = offset + 1 by omega, wordAt]
  have hsame (i : ℕ) (_ : i < stop - start) (hhigh : i ≠ offset - start)
      (hlow : i ≠ offset - start + 1) :
      rangeFrom (putBe16 data offset value) start i = rangeFrom data start i :=
    putBe16_of_outside data value (by omega)
  have hreplace := wordSum_replace heven (show offset - start + 2 ≤ stop - start by omega) hsame
  rwa [hat, hat, ← be16_toNat (putBe16 data offset value), be16_putBe16] at hreplace

/-- What a receiver computes over a range, together with the half word that the driver had left in
it. -/
def receiverSum (data : Region) (start stop : ℕ) (left : UInt32) : UInt16 :=
  netChecksumFinish (netChecksumSum (rangeFrom data start) (stop - start) + left)

/-- A range that was completed with the complement of its sum is accepted. -/
theorem receiverSum_putBe16 (data : Region) {start offset stop : ℕ} (hstart : start ≤ offset)
    (heven : (offset - start) % 2 = 0) (hstop : offset + 2 ≤ stop) (hlong : stop ≤ 2 ^ 16) :
    receiverSum (putBe16 data offset
      (netChecksumFinish (netChecksumSum (rangeFrom data start) (stop - start))))
      start stop (be16 data offset).toUInt32 = 0 := by
  have hsum := netChecksumSum_toNat (rangeFrom data start) (show stop - start ≤ 2 ^ 16 by omega)
  have hbound := wordSum_le (rangeFrom data start) (stop - start)
  obtain ⟨hlt, hmod, hzero⟩ :=
    netChecksumFold_spec (netChecksumSum (rangeFrom data start) (stop - start))
  have hfinish := netChecksumFinish_toNat (netChecksumSum (rangeFrom data start) (stop - start))
  have htotal := wordSum_putBe16 data hstart heven hstop
    (netChecksumFinish (netChecksumSum (rangeFrom data start) (stop - start)))
  generalize netChecksumFinish (netChecksumSum (rangeFrom data start) (stop - start)) = stored at *
  have hreceived : (netChecksumSum (rangeFrom (putBe16 data offset stored) start) (stop - start) +
      (be16 data offset).toUInt32).toNat =
      wordSum (rangeFrom data start) (stop - start) + stored.toNat := by
    rw [UInt32.toNat_add, netChecksumSum_toNat _ (by omega), UInt16.toNat_toUInt32, be16_toNat,
      htotal, Nat.mod_eq_of_lt (by omega)]
  rw [receiverSum, netChecksumFinish_eq_zero_iff, hreceived]
  omega

/-- `putsum` stores the checksum if there is room for it in front of the end. -/
theorem putsum_eq (data : Region) {n sloc css cse : UInt32} (hend : (sumEnd n cse).toNat < 2 ^ 31)
    (hcss : css.toNat < 2 ^ 31) (hroom : sloc.toNat + 2 ≤ (sumEnd n cse).toNat) :
    putsum data n sloc css cse = putBe16 data sloc.toNat
      (netChecksumFinish
        (netChecksumSum (rangeFrom data css.toNat) ((sumEnd n cse).toNat - css.toNat))) := by
  have hone : (1 : UInt32).toNat = 1 := rfl
  have hlast : (sumEnd n cse - 1).toNat = (sumEnd n cse).toNat - 1 :=
    UInt32.toNat_sub_of_le _ _ (UInt32.le_iff_toNat_le.mpr (by omega))
  have hlt : sloc < sumEnd n cse - 1 := by
    rw [UInt32.lt_iff_toNat_lt, hlast]
    omega
  change (if sloc < sumEnd n cse - 1 then putBe16 data sloc.toNat
    (netChecksumFinish
      (netChecksumSum (rangeFrom data css.toNat) (sumEnd n cse - css).toInt32.toInt.toNat))
    else data) = _
  rw [if_pos hlt, toInt32_sub_toNat hend hcss]

/-- `putsum` changes at most the checksum. -/
theorem putsum_of_outside (data : Region) (n : UInt32) {sloc : UInt32} (css cse : UInt32)
    {target : ℕ} (h : target < sloc.toNat ∨ sloc.toNat + 2 ≤ target) :
    putsum data n sloc css cse target = data target := by
  change (if sloc < sumEnd n cse - 1 then putBe16 data sloc.toNat _ else data) target = data target
  split
  · exact putBe16_of_outside data _ h
  · rfl

/-- A range that `putsum` has completed is accepted. -/
theorem receiverSum_putsum (data : Region) {n sloc css cse : UInt32}
    (hstart : css.toNat ≤ sloc.toNat) (heven : (sloc.toNat - css.toNat) % 2 = 0)
    (hroom : sloc.toNat + 2 ≤ (sumEnd n cse).toNat)
    (hend : (sumEnd n cse).toNat ≤ 2 ^ 16) :
    receiverSum (putsum data n sloc css cse) css.toNat (sumEnd n cse).toNat
      (be16 data sloc.toNat).toUInt32 = 0 := by
  rw [putsum_eq data (by omega) (by omega) hroom]
  exact receiverSum_putBe16 data hstart heven hroom hend

/-- A range of a packet that `xmit_seg` has `putsum` complete is accepted. -/
theorem receiverSum_putsum_field (data : Region) {size : UInt16} {sloc css : UInt8} {cse : UInt16}
    {stop : ℕ} (hstop : (sumEnd size.toUInt32 cse.toUInt32).toNat = stop)
    (hstart : css.toNat ≤ sloc.toNat)
    (heven : (sloc.toNat - css.toNat) % 2 = 0) (hroom : sloc.toNat + 2 ≤ stop)
    (hend : stop ≤ 2 ^ 16) :
    receiverSum (putsum data size.toUInt32 sloc.toUInt32 css.toUInt32 cse.toUInt32) css.toNat stop
      (be16 data sloc.toNat).toUInt32 = 0 := by
  subst hstop
  rw [← UInt8.toNat_toUInt32 sloc, ← UInt8.toNat_toUInt32 css] at *
  exact receiverSum_putsum data hstart heven hroom hend

/-- What a receiver computes depends on the bytes of the range. -/
theorem receiverSum_congr {left right : Region} {start stop : ℕ}
    (h : ∀ i, start ≤ i → i < stop → left i = right i) (added : UInt32) :
    receiverSum left start stop added = receiverSum right start stop added := by
  have hload : (rangeFrom left start).load (stop - start) =
      (rangeFrom right start).load (stop - start) :=
    Region.load_eq_load_iff.mpr fun i hi => h (start + i) (by omega) (by omega)
  rw [receiverSum, netChecksumSum_of_load_eq hload, receiverSum]

/-- A receiver may add a half word with its carry folded or not. -/
theorem receiverSum_fold {data : Region} {start stop : ℕ} {added : UInt32} (hlong : stop ≤ 2 ^ 16)
    (hadded : added.toNat < 2 ^ 17)
    (h : receiverSum data start stop ((added >>> 16) + (added &&& 0xffff)) = 0) :
    receiverSum data start stop added = 0 := by
  have hbound := wordSum_le (rangeFrom data start) (stop - start)
  have hfold := fold_toNat added
  have hmod := fold_mod added.toNat
  rw [UInt32.add_comm] at h
  rw [receiverSum, netChecksumFinish_eq_zero_iff, UInt32.toNat_add,
    netChecksumSum_toNat _ (by omega), hfold, Nat.mod_eq_of_lt (by omega)] at h
  rw [receiverSum, netChecksumFinish_eq_zero_iff, UInt32.toNat_add,
    netChecksumSum_toNat _ (by omega), Nat.mod_eq_of_lt (by omega)]
  omega

end VirtualFirmware.Network
