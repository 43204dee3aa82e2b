import VirtualFirmware.Discovery.Enumeration
import VirtualFirmware.Discovery.Locate
import VirtualFirmware.Discovery.PanelLife

/-!
# What `locate` leaves behind

`locate` gives back what it created except in three cases. Without memory for a panel
`CreatePanel` stores through `NULL`; without a socket for the connection `CreateBoundPanel` reads
through the `NULL` that `CreatePanel` returned; and when no announcement comes in time the panel of
the connection is dissociated, so that its socket stays open and no one has it.
-/

namespace VirtualFirmware.Discovery

open Library

/-- The run did not fault, and if it returned then all panels are freed and the socket returned is
the only one open. -/
def Released (result : Except Halt Socket × World) : Prop :=
  match result.1 with
  | .ok socket => Owns result.2 [] socket.toList
  | .error (.fault _) => False
  | .error .running => True

/-- The results that `locate` does not handle: no memory, no socket for the connection, a
timeout. -/
def Unhandled : Sigma SysReply → Prop
  | ⟨.malloc, available⟩ => available = false
  | ⟨.socket _ socktype _, created⟩ => socktype = .stream ∧ created = false
  | ⟨.select _, selected⟩ => selected = .timedOut
  | _ => False

/-- No call had such a result. -/
def AllHandled (calls : List (Sigma SysReply)) : Prop := ∀ call ∈ calls, ¬ Unhandled call

/-- Calls of these kinds have no such result. -/
theorem AllHandled.makes {allowed : SysCall → Prop}
    (hallowed : ∀ call : Sigma SysReply, allowed call.1 → ¬ Unhandled call) {w w' : World}
    (h : AllHandled w.calls) (hmakes : Makes allowed w w') : AllHandled w'.calls := by
  obtain ⟨calls, hcalls, hmem⟩ := hmakes
  rw [hcalls]
  intro call hcall
  exact (List.mem_append.mp hcall).elim (h call) fun hcall => hallowed call (hmem call hcall)

/-- A further call whose result is handled leaves all results handled. -/
theorem AllHandled.called {w : World} (h : AllHandled w.calls) {op : SysCall} {reply : SysReply op}
    (hreply : ¬ Unhandled ⟨op, reply⟩) : AllHandled (w.called op reply).calls := by
  intro call hcall
  obtain hcall | hcall := List.mem_append.mp hcall
  · exact h call hcall
  · exact List.mem_singleton.mp hcall ▸ hreply

/-- After a call whose result is not handled, not all results are. -/
theorem not_allHandled_called (w : World) {op : SysCall} {reply : SysReply op}
    (h : Unhandled ⟨op, reply⟩) :
    ¬ AllHandled (w.called op reply).calls := fun hall =>
  hall _ (List.mem_append_right _ (List.mem_singleton_self _)) h

/-- A panel for which there is no memory is a result that is not handled. -/
theorem not_allHandled_malloc {calls : List (Sigma SysReply)} (call : Sigma SysReply) :
    ¬ AllHandled (calls ++ [⟨.malloc, false⟩, call]) := fun hall =>
  hall ⟨.malloc, false⟩ (List.mem_append_right _ List.mem_cons_self) rfl

/-- The two calls that create a panel are handled, if there is memory and, for the connection, a
socket. -/
theorem AllHandled.created {calls : List (Sigma SysReply)} (h : AllHandled calls)
    (family : AddrFamily) {socktype : SockType} (protocol : Protocol) {created : Bool}
    (hcreated : socktype = .stream → created = true) :
    AllHandled (calls ++ [⟨.malloc, true⟩, ⟨.socket family socktype protocol, created⟩]) := by
  refine List.forall_mem_append.mpr
    ⟨h, List.forall_mem_cons.mpr ⟨nofun, List.forall_mem_singleton.mpr ?_⟩⟩
  rintro ⟨hstream, hfailed⟩
  rw [hcreated hstream] at hfailed
  contradiction

/-- The calls on a panel have no such result. -/
theorem neutral_handled (call : Sigma SysReply) (h : call.1.Neutral) : ¬ Unhandled call := by
  obtain ⟨op, reply⟩ := call
  cases op <;> first | exact id | exact h.elim

/-- Nor have those of the enumeration. -/
theorem enumerates_handled (call : Sigma SysReply) (h : call.1.Enumerates) : ¬ Unhandled call := by
  obtain ⟨op, reply⟩ := call
  obtain rfl | h := h
  · exact id
  · cases op <;> first | exact id | exact h.elim

/-- The run released what it created exactly if it met no result that is not handled. -/
def Judged (result : Except Halt Socket × World) : Prop :=
  Released result ↔ AllHandled result.2.calls

section Exits

variable {w : World}

/-- The guards at the label `err` make no difference. -/
theorem locateErr_eq (hs cs : PanelPtr) :
    locateErr hs cs = freePanel hs >>= fun _ => freePanel cs >>= fun _ => pure none := by
  cases hs <;> cases cs <;> rfl

/-- The label `err` frees both panels. -/
theorem locateErr_judged (hs cs : Option Owned) (h : Owns w (hs.toList ++ cs.toList) [])
    (hcalls : AllHandled w.calls) :
    Interaction.Always Judged (locateErr (hs.map Prod.fst) (cs.map Prod.fst) w) := by
  obtain ⟨w₁, hfree₁, howns₁, hcalls₁, -⟩ := freePanel_optional h
  rw [← List.append_nil cs.toList] at howns₁
  obtain ⟨w₂, hfree₂, howns₂, hcalls₂, -⟩ := freePanel_optional howns₁
  rw [locateErr_eq, chain_of_eq hfree₁, chain_of_eq hfree₂]
  refine iff_of_true howns₂ ?_
  rw [hcalls₂, hcalls₁]
  exact hcalls

/-- After the loop the socket of the connection is the only one open. -/
theorem locateDone_owns {hs cs : Owned} (h : Owns w [hs, cs] []) (socket : Socket) :
    ∃ w', locateDone (some hs.1) (some cs.1) socket w = .pure (.ok socket, w') ∧ Owns w' [] [cs.2] ∧
      w'.calls = w.calls := by
  refine ⟨(w.without hs).dissociated cs, ?_, h.without.dissociated, rfl⟩
  rw [locateDone, chain_of_eq (freePanel_owned h), chain_of_eq (dissociatePanel_owned h.without)]
  rfl

/-- With a connection everything else is released. -/
theorem locateDone_judged {hs cs : Owned} (h : Owns w [hs, cs] []) (hcalls : AllHandled w.calls) :
    Interaction.Always Judged (locateDone (some hs.1) (some cs.1) (some cs.2) w) := by
  obtain ⟨w', hdone, howns, hcalls'⟩ := locateDone_owns h (some cs.2)
  rw [hdone]
  exact iff_of_true howns (hcalls' ▸ hcalls)

/-- Without one the socket is left open. -/
theorem locateDone_leaks {hs cs : Owned} (h : Owns w [hs, cs] []) (hcalls : ¬ AllHandled w.calls) :
    Interaction.Always Judged (locateDone (some hs.1) (some cs.1) none w) := by
  obtain ⟨w', hdone, howns, hcalls'⟩ := locateDone_owns h none
  rw [hdone]
  refine iff_of_false (fun hreleased => ?_) (hcalls' ▸ hcalls)
  obtain ⟨value, hvalue⟩ := howns.sockets.exists_value (List.mem_singleton_self _)
  rw [hreleased.sockets.value_eq_none List.not_mem_nil] at hvalue
  contradiction

end Exits

section Stages

variable (opt : Options) {w : World} {hs cs : Owned}

/-- Using a panel keeps what is owned and handled. -/
theorem Uses.always {A : Type} {x : DiscoveryM A} {next : A → DiscoveryM Socket} {o : Owned}
    (hx : Uses o.1 x) {owned : List Owned} (hmem : o ∈ owned) (h : Owns w owned [])
    (hcalls : AllHandled w.calls)
    (hnext : ∀ value w', Owns w' owned [] → AllHandled w'.calls →
      Interaction.Always Judged (next value w')) :
    Interaction.Always Judged ((x >>= next) w) :=
  hx.always_bind h hmem fun value w' htouched =>
    hnext value w' (htouched.owns h) (hcalls.makes neutral_handled htouched.calls)

/-- Connecting leaves through one of the exits. -/
theorem locateConnect_judged (m : AnnounceMsg) (h : Owns w [hs, cs] [])
    (hcalls : AllHandled w.calls) :
    Interaction.Always Judged (locateConnect (some hs.1) (some cs.1) m w) := by
  have hmem : cs ∈ [hs, cs] := List.mem_cons_of_mem _ (List.mem_singleton_self _)
  refine Uses.always (Uses.assign fun _ => rfl) hmem h hcalls fun _ w h hcalls => ?_
  refine Uses.always Uses.deref hmem h hcalls fun panel w h hcalls => ?_
  rw [always_sys]
  intro rc
  have howns := h.called (.connect panel.spSocket panel.spDest) rc
  have hhandled : AllHandled (w.called (.connect panel.spSocket panel.spDest) rc).calls :=
    hcalls.called id
  refine always_ite (fun _ => locateErr_judged (some hs) (some cs) howns hhandled) fun _ => ?_
  obtain ⟨panel, hpanel, hsocket⟩ := howns.exists_panel hmem
  rw [chain_of_eq (deref_eq hpanel), hsocket]
  exact locateDone_judged howns hhandled

/-- A datagram is handled, or the loop goes on. -/
theorem locateReceive_judged (m : AnnounceMsg) {again : AnnounceMsg → DiscoveryM Socket}
    (hagain : ∀ m w, Owns w [hs, cs] [] → AllHandled w.calls →
      Interaction.Always Judged (again m w))
    (h : Owns w [hs, cs] []) (hcalls : AllHandled w.calls) :
    Interaction.Always Judged (locateReceive opt (some hs.1) (some cs.1) m again w) := by
  have hmem : cs ∈ [hs, cs] := List.mem_cons_of_mem _ (List.mem_singleton_self _)
  refine Uses.always Uses.deref List.mem_cons_self h hcalls fun panel w h hcalls => ?_
  rw [always_sys]
  rintro (_ | ⟨datagram, source⟩)
  · exact locateErr_judged (some hs) (some cs) (h.called _ _) (hcalls.called id)
  · refine Uses.always (Uses.assign fun _ => rfl) hmem (h.called _ _) (hcalls.called id)
      fun _ w h hcalls => ?_
    exact always_ite (fun _ => locateConnect_judged _ h hcalls) fun _ => hagain _ w h hcalls

/-- The loop leaves through one of the exits. -/
theorem locateLoop_judged (rounds : ℕ) (m : AnnounceMsg) (h : Owns w [hs, cs] [])
    (hcalls : AllHandled w.calls) :
    Interaction.Always Judged (locateLoop opt (some hs.1) (some cs.1) rounds m w) := by
  induction rounds generalizing w m with
  | zero => exact iff_of_true trivial hcalls
  | succ rounds ih =>
    refine Uses.always Uses.deref List.mem_cons_self h hcalls fun panel w h hcalls => ?_
    rw [always_sys]
    rintro (_ | _ | sockets)
    · exact locateErr_judged (some hs) (some cs) (h.called _ _) (hcalls.called nofun)
    · exact locateDone_leaks (h.called _ _) (not_allHandled_called w rfl)
    · exact locateReceive_judged opt m (fun m w => ih m) (h.called _ _) (hcalls.called nofun)

/-- What the panel for the connection can be: not made because of a result that is not handled, not
made and nothing more owned, or made. -/
def ConnectionMade (hs : Owned) (result : Except Halt PanelPtr × World) : Prop :=
  (result.1 = .error (.fault .nullPanel) ∧ ¬ AllHandled result.2.calls) ∨
    (AllHandled result.2.calls ∧ ((result.1 = .ok none ∧ Owns result.2 [hs] []) ∨
      ∃ cs : Owned, result.1 = .ok (some cs.1) ∧ Owns result.2 [hs, cs] []))

/-- `CreateBoundPanel` reads through `NULL` when there is no socket. -/
theorem createBoundPanel_made (h : Owns w [hs] []) (hcalls : AllHandled w.calls) :
    Interaction.Always (ConnectionMade hs) (createBoundPanel "0" .inet .stream .tcp w) := by
  rw [createBoundPanel, always_chain]
  refine (createPanel_creates h .inet .stream .tcp).mono ?_
  rintro ⟨_, w'⟩ (⟨rfl, _, hmalloc⟩ | ⟨-, ⟨rfl, howns, hcreated⟩ | ⟨cs, rfl, howns, hcreated⟩⟩)
  · exact .inl ⟨rfl, hmalloc ▸ not_allHandled_malloc _⟩
  · have hmem : ⟨.socket .inet .stream .tcp, false⟩ ∈ w'.calls := by
      rw [hcreated]
      exact List.mem_append_right _ (List.mem_cons_of_mem _ (List.mem_singleton_self _))
    exact .inl ⟨rfl, fun hall => hall _ hmem ⟨rfl, rfl⟩⟩
  · have hhandled : AllHandled w'.calls := hcreated ▸ hcalls.created .inet .tcp fun _ => rfl
    obtain ⟨panel, hpanel, -⟩ :=
      howns.exists_panel (List.mem_append_right _ (List.mem_singleton_self cs))
    refine Finishes.always_bind
      (Uses.bindPanel none "0" 1 w' (Option.isSome_iff_exists.mpr ⟨panel, hpanel⟩)) ?_
    intro rc w'' htouched
    have howns := htouched.owns howns
    have hhandled := hhandled.makes neutral_handled htouched.calls
    refine always_ite (fun _ => ?_) fun _ => .inr ⟨hhandled, .inr ⟨cs, rfl, howns⟩⟩
    have hcs : Owns w'' (cs :: [hs]) [] := howns.perm (List.Perm.swap _ _ _)
    rw [chain_of_eq (freePanel_owned hcs)]
    exact .inr ⟨hhandled, .inl ⟨rfl, hcs.without⟩⟩

/-- The panel for the connection is made and the loop entered, or the first panel is given back. -/
theorem locateConnection_judged (rounds : ℕ) (m : AnnounceMsg) (h : Owns w [hs] [])
    (hcalls : AllHandled w.calls) :
    Interaction.Always Judged (locateConnection opt (some hs.1) rounds m w) := by
  rw [locateConnection, always_chain]
  refine (createBoundPanel_made h hcalls).mono ?_
  rintro ⟨_, w'⟩ (⟨rfl, hnot⟩ | ⟨hhandled, ⟨rfl, howns⟩ | ⟨cs, rfl, howns⟩⟩)
  · exact iff_of_false id hnot
  · exact locateErr_judged (some hs) none howns hhandled
  · exact locateLoop_judged opt rounds m howns hhandled

/-- Joining the group on each interface uses the panel. -/
theorem Uses.joinLoop {p : ℕ} {ifd : List IfData} {ifdLength : ℕ} (hlength : ifdLength ≤ ifd.length)
    {left : ℕ} (hleft : left ≤ ifdLength) : Uses p (joinLoop (some p) ifd ifdLength left) := by
  induction left with
  | zero => exact .pure _
  | succ left ih =>
    refine (Uses.entry (by omega)).bind fun _ => (Uses.joinMulticastGroup _).bind fun _ => ?_
    exact .ite (.pure _) (ih (by omega))

/-- The panel for announcements is set up, or given back. -/
theorem locateListen_judged {ifd : List IfData} {ifdLength : ℕ} (hlength : ifdLength ≤ ifd.length)
    (rounds : ℕ) (m : AnnounceMsg) (h : Owns w [hs] []) (hcalls : AllHandled w.calls) :
    Interaction.Always Judged (locateListen opt (some hs.1) ifd ifdLength rounds m w) := by
  have hmem : hs ∈ [hs] := List.mem_singleton_self _
  refine Uses.always (Uses.bindPanel _ _ _) hmem h hcalls fun _ w h hcalls => ?_
  refine always_ite (fun _ => locateErr_judged (some hs) none h hcalls) fun _ => ?_
  refine Uses.always (Uses.setDestination _ _) hmem h hcalls fun _ w h hcalls => ?_
  refine always_ite (fun _ => locateErr_judged (some hs) none h hcalls) fun _ => ?_
  refine Uses.always (Uses.joinLoop hlength le_rfl) hmem h hcalls fun _ w h hcalls => ?_
  refine always_ite (fun _ => locateErr_judged (some hs) none h hcalls) fun _ => ?_
  refine Uses.always (Uses.setMulticastLoopback _) hmem h hcalls fun _ w h hcalls => ?_
  refine always_ite (fun _ => locateErr_judged (some hs) none h hcalls) fun _ => ?_
  exact locateConnection_judged opt rounds m h hcalls

/-- `locate` releases what it created exactly if there was memory for its panels, a socket for the
connection, and an announcement in time. -/
theorem locate_released_iff (rounds : ℕ) (m : AnnounceMsg) :
    Interaction.Always (fun result => Released result ↔ AllHandled result.2.calls)
      (locate opt rounds m .initial) := by
  have hlength : (List.replicate maxIfLength IfData.unset).length = maxIfLength :=
    List.length_replicate
  refine (populateInterfaceData_populates hlength).always_bind ?_
  rintro ⟨rc, ifd, ifdLength⟩ w hpopulated
  have howns : Owns w [] [] := hpopulated.untouched.owns owns_initial
  have hhandled : AllHandled w.calls :=
    AllHandled.makes enumerates_handled (fun _ h => absurd h List.not_mem_nil)
      hpopulated.untouched.calls
  refine always_ite (fun _ => locateErr_judged none none howns hhandled) fun hrc => ?_
  have hsmall : ifdLength ≤ ifd.length := by
    obtain ⟨-, hcount⟩ | ⟨-, herror, -⟩ := hpopulated.count
    · exact hcount.trans_eq hpopulated.length.symm
    · exact absurd herror hrc
  rw [always_chain]
  refine (createPanel_creates howns .inet .dgram .udp).mono ?_
  rintro ⟨_, w'⟩ (⟨rfl, _, hmalloc⟩ | ⟨-, ⟨rfl, howns', hcreated⟩ | ⟨hs, rfl, howns', hcreated⟩⟩)
  · exact iff_of_false id (hmalloc ▸ not_allHandled_malloc _)
  · exact locateErr_judged none none howns' (hcreated ▸ hhandled.created .inet .udp nofun)
  · exact locateListen_judged opt hsmall rounds m howns'
      (hcreated ▸ hhandled.created .inet .udp nofun)

end Stages

/-- A socket that is open and not returned was not released. -/
theorem not_released_of_open {result : Except Halt Socket × World} {fd : ℕ}
    (hresult : result.1 = .ok none) (hopen : (result.2.sockets.value fd).isSome) :
    ¬ Released result := by
  intro h
  rw [Released, hresult] at h
  rw [h.sockets.value_eq_none List.not_mem_nil] at hopen
  contradiction

/-- A system that may have no stream sockets, and on which nothing is ever announced. -/
def silentNetwork (streams : Bool) : (op : SysCall) → SysReply op
  | .socket _ .stream _ => streams
  | .select _ => .timedOut
  | op => op.success

/-- The default options, with a timeout. -/
def timedOptions : Options := { Options.default with timeout := 10 }

/-- When nothing is announced in time `locate` returns no socket and leaves the second one it
created open, and without stream sockets it uses a panel through `NULL`. -/
theorem locate_leaves_socket :
    (((locate timedOptions 1 (fun _ => 0) .initial).resolve (silentNetwork true)).1 = .ok none ∧
        (((locate timedOptions 1 (fun _ => 0) .initial).resolve
          (silentNetwork true)).2.sockets.value 1).isSome ∧
        ¬ Released ((locate timedOptions 1 (fun _ => 0) .initial).resolve (silentNetwork true))) ∧
      ((locate timedOptions 1 (fun _ => 0) .initial).resolve (silentNetwork false)).1 =
        .error (.fault .nullPanel) := by
  have hresult : ((locate timedOptions 1 (fun _ => 0) .initial).resolve (silentNetwork true)).1 =
      .ok none := by
    decide +kernel
  have hopen : (((locate timedOptions 1 (fun _ => 0) .initial).resolve
      (silentNetwork true)).2.sockets.value 1).isSome := by decide +kernel
  exact ⟨⟨hresult, hopen, not_released_of_open hresult hopen⟩, by decide +kernel⟩

end VirtualFirmware.Discovery
