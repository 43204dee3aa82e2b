import VirtualFirmware.Discovery.Locate

/-!
# Datagrams that pass for announcements

An announcement is a datagram of at least twelve bytes with the right magic number. `locate` does
not look at the length of what it received: a shorter datagram leaves the rest of the variable as
the earlier ones made it, and with those bytes it may spell the magic number.
-/

namespace VirtualFirmware.Discovery

open Library

/-- The datagram has all of a `struct announce_msg`, with this magic number in network byte
order. -/
def Announces (magicnum : UInt32) (datagram : List UInt8) : Prop :=
  announceMsgSize ≤ datagram.length ∧ beNat (datagram.take 4) = magicnum.toNat

instance (magicnum : UInt32) (datagram : List UInt8) : Decidable (Announces magicnum datagram) :=
  inferInstanceAs (Decidable (_ ∧ _))

/-- The fields `addr` and `port` of an announcement. -/
def announcedTarget (datagram : List UInt8) : UInt32 × UInt16 :=
  (UInt32.ofNat (leNat ((datagram.drop 4).take 4)), UInt16.ofNat (leNat ((datagram.drop 8).take 2)))

/-- The first four bytes of the variable once the datagram is in it, in network byte order, are the
magic number. -/
def Spells (magicnum : UInt32) (m : AnnounceMsg) (datagram : List UInt8) : Prop :=
  beNat ((datagram ++ (m.load 4).drop datagram.length).take 4) = magicnum.toNat

/-- No datagram that is too short spells the magic number with what the variable holds from
before. -/
def Unforged (magicnum : UInt32) : AnnounceMsg → List (List UInt8) → Prop
  | _, [] => True
  | m, datagram :: rest => (datagram.length < announceMsgSize → ¬ Spells magicnum m datagram) ∧
      Unforged magicnum (m.received datagram) rest

/-- With one more datagram nothing is forged if nothing was before and a short one does not spell
the magic number over what was received. -/
theorem unforged_append {magicnum : UInt32} {m : AnnounceMsg} {datagrams : List (List UInt8)}
    (datagram : List UInt8) : Unforged magicnum m (datagrams ++ [datagram]) ↔
      Unforged magicnum m datagrams ∧ (datagram.length < announceMsgSize →
        ¬ Spells magicnum (datagrams.foldl AnnounceMsg.received m) datagram) := by
  induction datagrams generalizing m with
  | nil => simp [Unforged]
  | cons first rest ih => rw [List.cons_append, Unforged, ih, Unforged, and_assoc, List.foldl_cons]

section Received

variable (magicnum : UInt32) (m : AnnounceMsg) (datagram : List UInt8)

/-- The front of the variable after the datagram was received into it. -/
theorem load_store_datagram : (Region.store m (datagram.take announceMsgSize)).load 4 =
    (datagram ++ (m.load 4).drop datagram.length).take 4 := by
  by_cases hshort : datagram.length ≤ 4
  · have htake : datagram.take announceMsgSize = datagram :=
      List.take_of_length_le (hshort.trans (by decide))
    rw [htake, Region.load_store_of_le m hshort, List.take_of_length_le]
    rw [List.length_append, List.length_drop, Region.load_length]
    omega
  · have hlong : 4 ≤ (datagram.take announceMsgSize).length := by
      rw [List.length_take, announceMsgSize]
      omega
    rw [Region.load_store_of_ge m hlong, List.take_take, Nat.min_eq_left (by decide),
      List.take_append_of_le_length (Nat.le_of_not_le hshort)]

/-- The comparison with the magic number looks at nothing but the first four bytes. -/
theorem magic_received_iff : (m.received datagram).magic = magicnum ↔
      Spells magicnum m datagram := by
  have hreverse : ((Region.store m (datagram.take announceMsgSize)).load 4).reverse.length = 4 := by
    rw [List.length_reverse, Region.load_length]
  have hload : (m.received datagram).load 4 =
      ((datagram ++ (m.load 4).drop datagram.length).take 4).reverse := by
    rw [AnnounceMsg.received, AnnounceMsg.ntohlMagic, Region.load_store_of_ge _ hreverse.ge,
      List.take_of_length_le hreverse.le, load_store_datagram]
  have hlt : leNat ((m.received datagram).load 4) < 2 ^ 32 :=
    (leNat_lt _).trans_eq (by rw [Region.load_length]; rfl)
  rw [AnnounceMsg.magic, Spells, beNat, ← hload, ← UInt32.toNat_inj, UInt32.toNat_ofNat',
    Nat.mod_eq_of_lt hlt]

variable {magicnum m datagram}

/-- What stood in the variable does not matter for an announcement. -/
theorem spells_iff_of_le (h : announceMsgSize ≤ datagram.length) :
    Spells magicnum m datagram ↔ Announces magicnum datagram := by
  rw [Spells, List.take_append_of_le_length (le_trans (by decide) h), Announces, and_iff_right h]

/-- Every announcement is recognised. -/
theorem Announces.spells (h : Announces magicnum datagram) : Spells magicnum m datagram :=
  (spells_iff_of_le h.1).mpr h

/-- The bytes behind the magic number are those of the datagram. -/
theorem drop_load_received (h : announceMsgSize ≤ datagram.length) {count : ℕ} (hfour : 4 ≤ count)
    (hcount : count ≤ announceMsgSize) :
    ((m.received datagram).load count).drop 4 = (datagram.take count).drop 4 := by
  have hload : (Region.store m (datagram.take announceMsgSize)).load count =
      datagram.take count := by
    rw [Region.load_store_of_ge m (by rwa [List.length_take, Nat.min_eq_left h]), List.take_take,
      Nat.min_eq_left hcount]
  have hreverse : ((Region.store m (datagram.take announceMsgSize)).load 4).reverse.length = 4 := by
    rw [List.length_reverse, Region.load_length]
  rw [AnnounceMsg.received, AnnounceMsg.ntohlMagic,
    Region.load_store_of_le _ (hreverse.le.trans hfour), hreverse, hload,
    List.drop_append_of_le_length hreverse.ge, List.drop_of_length_le hreverse.le, List.nil_append]

/-- The target is the one the announcement names. -/
theorem announcedTarget_eq (h : announceMsgSize ≤ datagram.length) :
    ((m.received datagram).addr, (m.received datagram).port) = announcedTarget datagram := by
  have hport : ((m.received datagram).load 10).drop 8 = (datagram.drop 8).take 2 := by
    rw [show 8 = 4 + 4 from rfl, ← List.drop_drop, drop_load_received h (by decide) (by decide),
      List.drop_drop, List.drop_take]
  rw [AnnounceMsg.addr, AnnounceMsg.port, hport, drop_load_received h (by decide) (by decide),
    List.drop_take]
  rfl

end Received

end VirtualFirmware.Discovery
