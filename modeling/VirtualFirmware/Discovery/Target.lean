import VirtualFirmware.Discovery.Announcement
import VirtualFirmware.Discovery.PanelUse
import VirtualFirmware.Discovery.Silence

/-!
# Where `locate` connects to

As long as `locate` waits, it has not connected, and every datagram so far left the variable without
the magic number. So the datagram that ends the waiting is the first that could be an announcement,
and it is one exactly if it has the length of one.
-/

namespace VirtualFirmware.Discovery

open Library

/-- The datagram that a call received. -/
def datagramOf : Sigma SysReply → Option (List UInt8)
  | ⟨.recvfrom _ _, some (datagram, _)⟩ => some datagram
  | _ => none

/-- The address and the port that a call connects to. -/
def targetOf : Sigma SysReply → Option (UInt32 × UInt16)
  | ⟨.connect _ dest, _⟩ => some (dest.sinAddr, dest.sinPort)
  | _ => none

/-- The datagrams received so far. -/
def World.datagrams (w : World) : List (List UInt8) := w.calls.filterMap datagramOf

/-- Where it was connected to so far. -/
def World.targets (w : World) : List (UInt32 × UInt16) := w.calls.filterMap targetOf

/-- Every connection goes to where the first announcement received points. -/
def PointsRight (magicnum : UInt32) (datagrams : List (List UInt8))
    (targets : List (UInt32 × UInt16)) : Prop :=
  ∀ target ∈ targets, ∃ datagram,
    datagrams.find? (Announces magicnum ·) = some datagram ∧ target = announcedTarget datagram

section Traffic

variable (w : World)

/-- Connecting receives nothing. -/
theorem datagrams_connect (socket : Socket) (dest : SockAddr) (rc : Int) :
    (w.called (.connect socket dest) rc).datagrams = w.datagrams := by
  rw [World.datagrams, World.called, List.filterMap_append]
  exact List.append_nil _

/-- A call that connects has its destination as one more target. -/
theorem targets_connect (socket : Socket) (dest : SockAddr) (rc : Int) :
    (w.called (.connect socket dest) rc).targets = w.targets ++ [(dest.sinAddr, dest.sinPort)] := by
  rw [World.targets, World.called, List.filterMap_append]
  rfl

/-- A datagram is received, or nothing. -/
theorem datagrams_recvfrom (socket : Socket) (size : ℕ) (reply : Option (List UInt8 × SockAddr)) :
    (w.called (.recvfrom socket size) reply).datagrams =
      w.datagrams ++ (reply.map Prod.fst).toList := by
  rw [World.datagrams, World.called, List.filterMap_append]
  cases reply <;> rfl

/-- Receiving does not connect. -/
theorem targets_recvfrom (socket : Socket) (size : ℕ) (reply : Option (List UInt8 × SockAddr)) :
    (w.called (.recvfrom socket size) reply).targets = w.targets := by
  rw [World.targets, World.called, List.filterMap_append]
  exact List.append_nil _

/-- What is said about the datagrams and the connections concerns only the calls that receive or
connect. -/
theorem silently_traffic (inv : List (List UInt8) → List (UInt32 × UInt16) → Prop) :
    Silently fun w => inv w.datagrams w.targets where
  tables _ _ _ h := h
  calls w op reply hop h := by
    have hdatagrams : (w.called op reply).datagrams = w.datagrams := by
      rw [World.datagrams, World.called, List.filterMap_append]
      cases op <;> first | exact List.append_nil _ | exact hop.elim
    have htargets : (w.called op reply).targets = w.targets := by
      rw [World.targets, World.called, List.filterMap_append]
      cases op <;> first | exact List.append_nil _ | exact hop.elim
    rw [hdatagrams, htargets]
    exact h

end Traffic

/-- It was not connected yet, and no datagram so far completed the magic number. -/
structure Waiting (magicnum : UInt32) (initial m : AnnounceMsg) (datagrams : List (List UInt8))
    (targets : List (UInt32 × UInt16)) : Prop where
  targets_eq : targets = []
  contents : m = datagrams.foldl AnnounceMsg.received initial
  unforged : Unforged magicnum initial datagrams
  missed : ∀ datagram ∈ datagrams, ¬ Announces magicnum datagram

/-- The connections go to the right place exactly if no datagram was forged. -/
def Aimed (magicnum : UInt32) (initial : AnnounceMsg) (datagrams : List (List UInt8))
    (targets : List (UInt32 × UInt16)) : Prop :=
  PointsRight magicnum datagrams targets ↔ Unforged magicnum initial datagrams

section Waiting

variable {magicnum : UInt32} {initial m : AnnounceMsg} {datagrams : List (List UInt8)}
  {targets : List (UInt32 × UInt16)} {datagram : List UInt8}

/-- Nothing is wrong before there is a connection. -/
theorem Waiting.aimed (h : Waiting magicnum initial m datagrams targets) :
    Aimed magicnum initial datagrams targets := by
  refine iff_of_true (fun target htarget => ?_) h.unforged
  rw [h.targets_eq] at htarget
  exact absurd htarget List.not_mem_nil

/-- A datagram that does not complete the magic number is neither forged nor an announcement. -/
theorem Waiting.again (h : Waiting magicnum initial m datagrams targets)
    (hmagic : (m.received datagram).magic ≠ magicnum) :
    Waiting magicnum initial (m.received datagram) (datagrams ++ [datagram]) targets := by
  have hspells : ¬ Spells magicnum m datagram :=
    fun hs => hmagic ((magic_received_iff _ _ _).mpr hs)
  refine ⟨h.targets_eq, ?_, ?_, ?_⟩
  · rw [List.foldl_append, ← h.contents]
    rfl
  · rw [unforged_append, ← h.contents]
    exact ⟨h.unforged, fun _ => hspells⟩
  · exact List.forall_mem_append.mpr ⟨h.missed, List.forall_mem_singleton.mpr fun ha =>
      hspells ha.spells⟩

/-- A datagram that completes the magic number gives the right target exactly if it has the length
of an announcement. -/
theorem Waiting.connected (h : Waiting magicnum initial m datagrams targets)
    (hmagic : (m.received datagram).magic = magicnum) :
    Aimed magicnum initial (datagrams ++ [datagram])
      (targets ++ [((m.received datagram).addr, (m.received datagram).port)]) := by
  have hspells : Spells magicnum m datagram := (magic_received_iff _ _ _).mp hmagic
  have hfirst : (datagrams ++ [datagram]).find? (Announces magicnum ·) =
      [datagram].find? (Announces magicnum ·) := by
    rw [List.find?_append, List.find?_eq_none.mpr fun other hother =>
      by simpa using h.missed other hother]
    rfl
  rw [h.targets_eq, List.nil_append, Aimed, PointsRight, List.forall_mem_singleton, unforged_append,
    ← h.contents, hfirst]
  by_cases hlength : announceMsgSize ≤ datagram.length
  · have hannounces : Announces magicnum datagram := (spells_iff_of_le hlength).mp hspells
    refine iff_of_true ⟨datagram, ?_, announcedTarget_eq hlength⟩ ⟨h.unforged, fun hshort => ?_⟩
    · exact List.find?_cons_of_pos (by simpa using hannounces)
    · exact absurd hlength (Nat.not_le_of_lt hshort)
  · refine iff_of_false ?_ fun hforged => hforged.2 (Nat.lt_of_not_le hlength) hspells
    rintro ⟨found, hfound, -⟩
    have hannounces := List.find?_some hfound
    obtain rfl := List.mem_singleton.mp (List.mem_of_find?_eq_some hfound)
    exact hlength (of_decide_eq_true hannounces).1

end Waiting

section Run

variable (opt : Options) (initial : AnnounceMsg)

/-- The loop waits, and the panel of the connection is there. -/
def ReadyFor (cs : ℕ) (m : AnnounceMsg) (w : World) : Prop :=
  Waiting opt.magicnum initial m w.datagrams w.targets ∧ (w.panels.value cs).isSome

/-- The run ended with the connections where they should go, or with a forged datagram. -/
def EndsAimed (result : Except Halt Socket × World) : Prop :=
  Aimed opt.magicnum initial result.2.datagrams result.2.targets

variable {opt initial} {m : AnnounceMsg} {w : World} {hs : PanelPtr} {cs : ℕ}

/-- What neither receives nor connects leaves it at that. -/
theorem endsAimed_of_silent {x : DiscoveryM Socket}
    (h : Aimed opt.magicnum initial w.datagrams w.targets)
    (hx : ∀ {inv : World → Prop}, Silently inv → Maintains inv x) :
    Interaction.Always (EndsAimed opt initial) (x w) :=
  hx (silently_traffic (Aimed opt.magicnum initial)) w h

/-- The connection goes to the target in the variable. -/
theorem locateConnect_aimed (hcs : (w.panels.value cs).isSome)
    (h : Aimed opt.magicnum initial w.datagrams (w.targets ++ [(m.addr, m.port)])) :
    Interaction.Always (EndsAimed opt initial) (locateConnect hs (some cs) m w) := by
  obtain ⟨panel, hpanel⟩ := Option.isSome_iff_exists.mp hcs
  rw [locateConnect, chain_of_eq (assign_eq hpanel _),
    chain_of_eq (deref_eq (Handles.modify_self hpanel _)), always_sys]
  intro rc
  refine endsAimed_of_silent ?_ fun h => ?_
  · rw [datagrams_connect, targets_connect]
    exact h
  · exact .ite (h.locateErr hs (some cs)) (.bind (Silently.deref _) fun _ => h.locateDone _ _ _)

/-- A datagram leads to a connection, or the loop goes on waiting. -/
theorem locateReceive_aimed {again : AnnounceMsg → DiscoveryM Socket}
    (hagain : ∀ m w, ReadyFor opt initial cs m w →
      Interaction.Always (EndsAimed opt initial) (again m w))
    (h : ReadyFor opt initial cs m w) :
    Interaction.Always (EndsAimed opt initial) (locateReceive opt hs (some cs) m again w) := by
  have hderef : Maintains (ReadyFor opt initial cs m) (deref hs) := Silently.deref hs
  refine hderef.always_bind h (fun _ _ h => h.1.aimed) fun panel w ⟨hwaiting, hcs⟩ => ?_
  rw [always_sys]
  intro reply
  have hdatagrams := datagrams_recvfrom w panel.spSocket announceMsgSize reply
  have htargets := targets_recvfrom w panel.spSocket announceMsgSize reply
  have hpanels : (w.called (.recvfrom panel.spSocket announceMsgSize) reply).panels = w.panels :=
    rfl
  generalize w.called (.recvfrom panel.spSocket announceMsgSize) reply =
      w' at hdatagrams htargets hpanels ⊢
  rw [← hpanels] at hcs
  obtain ⟨panel, hpanel⟩ := Option.isSome_iff_exists.mp hcs
  rw [← htargets] at hwaiting
  cases reply with
  | none =>
    rw [Option.map_none, Option.toList_none, List.append_nil] at hdatagrams
    exact endsAimed_of_silent (hdatagrams ▸ hwaiting.aimed) fun h => h.locateErr hs (some cs)
  | some received =>
    have halive :
        ((w'.panels.modify cs fun panel => { panel with spDest := received.2 }).value
          cs).isSome := by
      rw [Handles.modify_self hpanel]
      rfl
    dsimp only
    rw [chain_of_eq (assign_eq hpanel _)]
    refine always_ite (fun hmagic => locateConnect_aimed halive ?_) fun hmagic =>
      hagain _ _ ⟨?_, halive⟩
    · exact hdatagrams.symm ▸ hwaiting.connected hmagic
    · exact hdatagrams.symm ▸ hwaiting.again hmagic

/-- However the loop ends, it connects only to targets that were announced. -/
theorem locateLoop_aimed (rounds : ℕ) (h : ReadyFor opt initial cs m w) :
    Interaction.Always (EndsAimed opt initial) (locateLoop opt hs (some cs) rounds m w) := by
  induction rounds generalizing w m with
  | zero => exact h.1.aimed
  | succ rounds ih =>
    have hderef : Maintains (ReadyFor opt initial cs m) (deref hs) := Silently.deref hs
    refine hderef.always_bind h (fun _ _ h => h.1.aimed) fun panel w h => ?_
    rw [always_sys]
    intro selected
    have hready : ReadyFor opt initial cs m (w.called (.select [panel.spSocket]) selected) :=
      ⟨(silently_traffic _).calls w _ selected trivial h.1, h.2⟩
    cases selected with
    | failed => exact endsAimed_of_silent hready.1.aimed fun h => h.locateErr hs (some cs)
    | timedOut => exact endsAimed_of_silent hready.1.aimed fun h => h.locateDone hs (some cs) none
    | ready sockets => exact locateReceive_aimed (fun m w => ih) hready

/-- `BindPanel` returns only if its panel is there, and then it still is. -/
theorem bindPanel_isSome (p : PanelPtr) (addr : Option String) (svc : String) (reuse : Int)
    (w : World) :
    Interaction.Always (fun result => ∀ rc, result.1 = .ok rc → ∃ id, p = some id ∧
      (result.2.panels.value id).isSome)
      (bindPanel p addr svc reuse w) := by
  obtain ⟨fault, hfault⟩ | ⟨id, panel, rfl, hpanel⟩ := deref_cases p w
  · rw [bindPanel, always_chain, hfault]
    exact nofun
  · have halive : (w.panels.value id).isSome := Option.isSome_iff_exists.mpr ⟨panel, hpanel⟩
    refine Interaction.Always.mono (Uses.bindPanel addr svc reuse w halive) ?_
    rintro result ⟨-, -, htouched⟩ - -
    exact ⟨id, rfl, htouched.isSome id ▸ halive⟩

/-- So the panel that `CreateBoundPanel` returns is there. -/
theorem createBoundPanel_isSome (svc : String) (af : AddrFamily) (type : SockType)
    (proto : Protocol) (w : World) :
    Interaction.Always (fun result => ∀ p, result.1 = .ok (some p) →
      (result.2.panels.value p).isSome)
      (createBoundPanel svc af type proto w) := by
  have hany : Silently fun _ => True := silently_traffic fun _ _ => True
  refine (hany.createPanel af type proto).always_bind trivial nofun fun p w _ => ?_
  rw [always_chain]
  refine (bindPanel_isSome p none svc 1 w).mono ?_
  rintro ⟨_ | rc, w⟩ hbound
  · exact nofun
  · obtain ⟨id, rfl, halive⟩ := hbound rc rfl
    refine always_ite (fun _ => ?_) fun _ p hp => ?_
    · exact (hany.freePanel (some id)).always_bind trivial nofun nofun
    · obtain rfl : id = p := by simpa using hp
      exact halive

/-- Before the loop nothing is received. -/
theorem locateListen_aimed (hs : PanelPtr) (ifd : List IfData) (ifdLength rounds : ℕ)
    (h : Waiting opt.magicnum initial m w.datagrams w.targets) :
    Interaction.Always (EndsAimed opt initial) (locateListen opt hs ifd ifdLength rounds m w) := by
  have hsilent := silently_traffic (Waiting opt.magicnum initial m)
  have hstop (reason : Halt) (w : World)
      (h : Waiting opt.magicnum initial m w.datagrams w.targets) :
      EndsAimed opt initial (.error reason, w) := h.aimed
  have herr (cs : PanelPtr) {w : World} (h : Waiting opt.magicnum initial m w.datagrams w.targets) :
      Interaction.Always (EndsAimed opt initial) (locateErr hs cs w) :=
    endsAimed_of_silent h.aimed fun h => h.locateErr hs cs
  refine (hsilent.bindPanel hs _ _ _).always_bind h hstop fun _ w h =>
    always_ite (fun _ => herr none h) fun _ => ?_
  refine (hsilent.setDestination hs _ _).always_bind h hstop fun _ w h =>
    always_ite (fun _ => herr none h) fun _ => ?_
  refine (hsilent.joinLoop hs _ _ _).always_bind h hstop fun _ w h =>
    always_ite (fun _ => herr none h) fun _ => ?_
  refine (hsilent.setMulticastLoopback hs _).always_bind h hstop fun _ w h =>
    always_ite (fun _ => herr none h) fun _ => ?_
  rw [locateConnection, always_chain]
  refine ((hsilent.createBoundPanel _ _ _ _ w h).and (createBoundPanel_isSome _ _ _ _ w)).mono ?_
  rintro ⟨_ | _ | cs, w⟩ ⟨h, hcs⟩
  · exact h.aimed
  · exact herr none h
  · exact locateLoop_aimed rounds ⟨h, hcs cs rfl⟩

/-- `locate` connects only to where the first announcement points exactly if no datagram that is too
short for an announcement spells the magic number with what the variable held before. -/
theorem locate_target_iff (opt : Options) (rounds : ℕ) (m : AnnounceMsg) :
    Interaction.Always (fun result => PointsRight opt.magicnum result.2.datagrams result.2.targets ↔
        Unforged opt.magicnum m result.2.datagrams)
      (locate opt rounds m .initial) := by
  have hsilent := silently_traffic (Waiting opt.magicnum m m)
  have hstop (reason : Halt) (w : World) (h : Waiting opt.magicnum m m w.datagrams w.targets) :
      EndsAimed opt m (.error reason, w) := h.aimed
  have herr {w : World} (h : Waiting opt.magicnum m m w.datagrams w.targets) :
      Interaction.Always (EndsAimed opt m) (locateErr none none w) :=
    endsAimed_of_silent h.aimed fun h => h.locateErr none none
  have hstart : Waiting opt.magicnum m m World.initial.datagrams World.initial.targets :=
    ⟨rfl, rfl, trivial, nofun⟩
  refine (hsilent.populateInterfaceData _ _).always_bind hstart hstop fun result w h => ?_
  refine always_ite (fun _ => herr h) fun _ => ?_
  refine (hsilent.createPanel _ _ _).always_bind h hstop fun hs w h =>
    always_ite (fun _ => herr h) fun _ => ?_
  exact locateListen_aimed hs _ _ rounds h

end Run

/-- A network on which this datagram is received. -/
def datagramNetwork (datagram : List UInt8) : (op : SysCall) → SysReply op
  | .recvfrom _ _ => some (datagram, ⟨.inet, 0, 0⟩)
  | op => op.success

/-- Four bytes with the magic number are enough to connect, to whatever the variable held when
`locate` started. -/
theorem locate_forged :
    ((locate .default 1 (fun _ => 0xaa) .initial).resolve
      (datagramNetwork [0, 0x0e, 0x10, 0])).2.targets =
        [(0xaaaaaaaa, 0xaaaa)] ∧
      ¬ PointsRight Options.default.magicnum
        ((locate .default 1 (fun _ => 0xaa) .initial).resolve
          (datagramNetwork [0, 0x0e, 0x10, 0])).2.datagrams
        ((locate .default 1 (fun _ => 0xaa) .initial).resolve
          (datagramNetwork [0, 0x0e, 0x10, 0])).2.targets := by
  have htargets : ((locate .default 1 (fun _ => 0xaa) .initial).resolve
      (datagramNetwork [0, 0x0e, 0x10, 0])).2.targets = [(0xaaaaaaaa, 0xaaaa)] := by decide +kernel
  have hdatagrams : ((locate .default 1 (fun _ => 0xaa) .initial).resolve
      (datagramNetwork [0, 0x0e, 0x10, 0])).2.datagrams = [[0, 0x0e, 0x10, 0]] := by decide +kernel
  rw [htargets, hdatagrams]
  refine ⟨rfl, fun h => ?_⟩
  obtain ⟨datagram, hfound, -⟩ := h (0xaaaaaaaa, 0xaaaa) (List.mem_singleton_self _)
  have hnone : [[0, 0x0e, 0x10, 0]].find? (Announces Options.default.magicnum ·) = none := by decide
  exact absurd (hnone.symm.trans hfound) nofun

end VirtualFirmware.Discovery
