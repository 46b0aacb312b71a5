import Memlink.Base.Mirror
import Memlink.Base.Transition
import Memlink.Vm.VmList

/-!
# The event thread

`DomainEventProcessThread` (`libvirt_helper.c:471–522`): after each connect the thread
registers for events, frees the list, collects the running domains (`CollectAddCurrentVMs`,
`libvirt_helper.c:107–152`) and then handles the queued lifecycle events
(`ProcessDomainEvent`, `libvirt_helper.c:397–411`). Domains start and stop at any time, also
between two libvirt calls of the thread. libvirt's part is as documented: names of running
domains are distinct, a start takes a new id, events are queued in order from the
registration on and lost with the connection, the verdict of `InitAndCheckVM` on a running
domain is fixed, and looking up the id of a stopped domain fails. Allocations succeed.
-/

namespace Memlink

open Transition Mirror

/-- A running domain: its id and its name. -/
abbrev Domain := Item Int String

/-- `VIR_DOMAIN_EVENT_STARTED` with the domain id, `VIR_DOMAIN_EVENT_STOPPED` with the name. -/
abbrev LifecycleEvent := Event Int String

/-- What libvirt answers about each domain while it is running. -/
structure Libvirtd where
  probe : Domain → DomainProbe
  probe_name : ∀ d, (probe d).name = some d.name

/-- The verdict of `InitAndCheckVM` on a running domain. -/
def Libvirtd.accepts (L : Libvirtd) (d : Domain) : Bool :=
  (initAndCheckVM (some (L.probe d)) (newVM 0 d.id)).isSome

/-- Where the event thread is. -/
inductive EventPhase where
  | top
  | registered
  | freed
  | counted (domNum : Nat)
  | adding (domids : List Int)
  | loop
  deriving DecidableEq, Repr

/-- libvirt's running domains, the next id it uses, the connection with its queued events,
and the daemon's list. -/
structure EventState where
  running : List Domain
  nextDomid : Nat
  connected : Bool
  queue : List LifecycleEvent
  list : VmList
  phase : EventPhase

/-- Steps of libvirt, and steps of the event thread under the names of the calls. -/
inductive EventAct where
  | start (name : String)
  | stop (domid : Int)
  | disconnect
  | domainEventsRegister
  | freeAllVM
  | connectNumOfDomains
  | connectListDomains (reply : List Int)
  | findAddVMToList
  | processDomainEvent
  | lostConnection

/-- No domain runs and the thread is about to connect. -/
def EventState.init : EventState := ⟨[], 0, false, [], VmList.empty, .top⟩

/-- The queue after a lifecycle event of libvirt. -/
def EventState.emit (s : EventState) (e : LifecycleEvent) : List LifecycleEvent :=
  if s.connected then s.queue ++ [e] else s.queue

/-- What `InitAndCheckVM` finds under a domain id. -/
def EventState.lookup (L : Libvirtd) (s : EventState) (domid : Int) : Option DomainProbe :=
  if s.connected then (s.running.find? (fun d ↦ d.id = domid)).map L.probe else none

/-- A reply of `virConnectListDomains` to an array of `maxids` entries: ids of running domains,
as many as there are and fit. Which ones are left out is not specified. -/
def ValidReply (s : EventState) (maxids : Nat) (reply : List Int) : Prop :=
  reply.Nodup ∧ (∀ i ∈ reply, i ∈ s.running.map (·.id)) ∧
    reply.length = min maxids s.running.length

instance (s : EventState) (maxids : Nat) (reply : List Int) :
    Decidable (ValidReply s maxids reply) :=
  inferInstanceAs (Decidable (reply.Nodup ∧ (∀ i ∈ reply, i ∈ s.running.map (·.id)) ∧
    reply.length = min maxids s.running.length))

/-- `ProcessDomainEvent`. -/
def processDomainEvent (L : Libvirtd) (s : EventState) : LifecycleEvent → VmList
  | .appeared domid => findAddVMToList s.list domid true (s.lookup L domid)
  | .vanished name => findDeleteVMFromList s.list name

/-- One step; a step that is not possible in a state does nothing. -/
def eventStep (L : Libvirtd) (s : EventState) : EventAct → EventState
  | .start name =>
    if name ∈ s.running.map (·.name) then s
    else
      { s with
        running := s.running ++ [⟨s.nextDomid, name⟩]
        nextDomid := s.nextDomid + 1
        queue := s.emit (.appeared s.nextDomid) }
  | .stop domid =>
    match s.running.find? (fun d ↦ d.id = domid) with
    | some d => { s with running := s.running.erase d, queue := s.emit (.vanished d.name) }
    | none => s
  | .disconnect => { s with connected := false, queue := [] }
  | .domainEventsRegister =>
    if s.phase = .top then { s with connected := true, queue := [], phase := .registered }
    else s
  | .freeAllVM =>
    if s.phase = .registered then { s with list := freeAllVM s.list, phase := .freed } else s
  | .connectNumOfDomains =>
    if s.phase = .freed then
      -- Without a connection the call fails; without domains there is nothing to collect.
      if s.connected = true ∧ s.running ≠ [] then
        { s with phase := .counted s.running.length }
      else { s with phase := .loop }
    else s
  | .connectListDomains reply =>
    match s.phase with
    | .counted domNum =>
      if s.connected = true then
        if ValidReply s domNum reply then { s with phase := .adding reply } else s
      else { s with phase := .loop }
    | _ => s
  | .findAddVMToList =>
    match s.phase with
    | .adding [] => { s with phase := .loop }
    | .adding (domid :: domids) =>
      { s with
        list := findAddVMToList s.list domid true (s.lookup L domid)
        phase := .adding domids }
    | _ => s
  | .processDomainEvent =>
    match s.phase, s.queue with
    | .loop, e :: queue => { s with list := processDomainEvent L s e, queue := queue }
    | _, _ => s
  | .lostConnection =>
    if s.phase = .loop ∧ s.connected = false then { s with phase := .top } else s

/-! ### The list as a mirror of libvirt -/

/-- The domain a record stands for. -/
def domainOf (v : VirtualMachineInfo) : Domain := ⟨v.domid, v.domname⟩

/-- The domains on the list. -/
def VmList.domains (l : VmList) : List Domain := l.vms.map domainOf

/-- Insertion holds the looked-up domain. -/
theorem findAddVMToList_domains (L : Libvirtd) {s : EventState} (hc : s.connected = true)
    (domid : Int) :
    (findAddVMToList s.list domid true (s.lookup L domid)).domains =
      hold L.accepts s.running s.list.domains domid := by
  have hany : s.list.domains.any (fun d ↦ d.id = domid) =
      s.list.vms.any (fun v ↦ v.domid = domid) := List.any_map
  unfold findAddVMToList hold EventState.lookup
  rw [hany, if_pos hc]
  split
  · rfl
  · rw [if_neg (by decide)]
    cases hfind : s.running.find? (fun d ↦ decide (d.id = domid)) with
    | none => rfl
    | some d =>
      have hverdict := initAndCheckVM_isSome (some (L.probe d)) (newVM 0 d.id)
        (newVM s.list.nextAddr domid)
      dsimp only [Option.map_some]
      unfold Libvirtd.accepts
      rw [hverdict]
      cases hinit : initAndCheckVM (some (L.probe d)) (newVM s.list.nextAddr domid) with
      | none => rfl
      | some v =>
        have hid : d.id = domid := by simpa using List.find?_some hfind
        have hname := (initAndCheckVM_domname hinit).symm.trans (L.probe_name d)
        have hv : domainOf v = d := by
          unfold domainOf
          rw [(initAndCheckVM_isNew hinit).2.2.1, ← hid, Option.some.inj hname]
        change domainOf v :: s.list.domains = d :: s.list.domains
        rw [hv]

/-- Insertion leaves every record unshared. -/
theorem findAddVMToList_unshared {l : VmList} (h : l.Unshared) (domid : Int) (alloc : Bool)
    (probe : Option DomainProbe) : (findAddVMToList l domid alloc probe).Unshared := by
  rcases findAddVMToList_cases l domid alloc probe with ⟨n, _, he⟩ | ⟨v, hv, _, he⟩
  · rw [he]
    exact h
  · rw [he]
    intro w hw
    rcases List.mem_cons.mp hw with rfl | hw
    · exact (initAndCheckVM_isNew hv).2.2.2
    · exact h w hw

/-- Deletion releases the name. -/
theorem findDeleteVMFromList_domains {l : VmList} (h : l.Wf) (hone : l.Unshared)
    (name : String) : (findDeleteVMFromList l name).domains = release l.domains name := by
  unfold VmList.domains release
  rw [findDeleteVMFromList_unshared h hone, List.eraseP_map]
  rfl

/-! ### The invariant -/

/-- Domain ids that libvirt has used. -/
def EventState.seen (s : EventState) (domid : Int) : Prop := domid < s.nextDomid

/-- The list is right and complete up to queued events and the ids still to be added. -/
structure Synced (L : Libvirtd) (s : EventState) (domids : List Int) : Prop where
  sound : Sound L.accepts s.seen s.running s.list.domains s.queue domids
  covered : Covered L.accepts s.running s.list.domains s.queue domids

/-- What the phase of a connected thread says about the list. -/
def Progress (L : Libvirtd) (s : EventState) : EventPhase → Prop
  | .top => True
  | .registered => True
  | .freed => s.list.vms = []
  | .counted _ => s.list.vms = []
  | .adding domids => Synced L s domids
  | .loop => Synced L s []

/-- The event thread's invariant. -/
structure EventInv (L : Libvirtd) (s : EventState) : Prop where
  wf : s.list.Wf
  unshared : s.list.Unshared
  ordered : Ordered s.seen s.running s.queue
  offline : s.connected = false → s.queue = []
  progress : s.connected = true → Progress L s s.phase

/-- The progress of a connected thread, in a known phase. -/
theorem EventInv.progress_of {L : Libvirtd} {s : EventState} (h : EventInv L s)
    (hc : s.connected = true) {p : EventPhase} (hp : s.phase = p) : Progress L s p :=
  hp ▸ h.progress hc

/-- The next call is `virConnectListDomains`. -/
def EventPhase.isCounted : EventPhase → Bool
  | .counted _ => true
  | _ => false

/-- A reply of `virConnectListDomains` that is used holds every accepted running domain whose
start is not announced in the queue. -/
def ListsComplete (L : Libvirtd) (s : EventState) : EventAct → Prop
  | .connectListDomains reply =>
    s.phase.isCounted = true → s.connected = true → ∀ d ∈ s.running, L.accepts d = true →
      .appeared d.id ∉ s.queue → d.id ∈ reply
  | _ => True

instance (L : Libvirtd) (s : EventState) : ∀ a, Decidable (ListsComplete L s a)
  | .connectListDomains reply =>
    inferInstanceAs (Decidable (s.phase.isCounted = true → s.connected = true →
      ∀ d ∈ s.running, L.accepts d = true → .appeared d.id ∉ s.queue → d.id ∈ reply))
  | .start _ => .isTrue trivial
  | .stop _ => .isTrue trivial
  | .disconnect => .isTrue trivial
  | .domainEventsRegister => .isTrue trivial
  | .freeAllVM => .isTrue trivial
  | .connectNumOfDomains => .isTrue trivial
  | .findAddVMToList => .isTrue trivial
  | .processDomainEvent => .isTrue trivial
  | .lostConnection => .isTrue trivial

/-- A reply is complete if the running domains are no more than were counted, as when none
has started between the two calls. -/
theorem listsComplete_of_counted (L : Libvirtd) {s : EventState} {domNum : Nat}
    {reply : List Int} (h : ValidReply s domNum reply) (hroom : s.running.length ≤ domNum) :
    ListsComplete L s (.connectListDomains reply) := by
  intro _ _ d hd _ _
  apply Classical.byContradiction
  intro hnot
  have hlen : (d.id :: reply).length ≤ (s.running.map (·.id)).length := by
    refine (List.nodup_cons.mpr ⟨hnot, h.1⟩).length_le_of_subset fun i hi ↦ ?_
    rcases List.mem_cons.mp hi with rfl | hi
    · exact List.mem_map_of_mem hd
    · exact h.2.1 i hi
  have hreply := h.2.2
  rw [List.length_cons, List.length_map] at hlen
  omega

private theorem progress_mono {L : Libvirtd} {s s' : EventState} (hlist : s'.list = s.list)
    (hsync : ∀ ids, Synced L s ids → Synced L s' ids) {p : EventPhase} (h : Progress L s p) :
    Progress L s' p := by
  cases p with
  | top => trivial
  | registered => trivial
  | freed => exact (congrArg VmList.vms hlist).trans h
  | counted n => exact (congrArg VmList.vms hlist).trans h
  | adding ids => exact hsync ids h
  | loop => exact hsync [] h

section WorldSteps

variable {L : Libvirtd} {s : EventState}

private theorem emit_offline (h : EventInv L s) (hc : s.connected = false) (e : LifecycleEvent) :
    s.emit e = [] := by
  unfold EventState.emit
  rw [if_neg (by simp [hc]), h.offline hc]

private theorem emit_online (hc : s.connected = true) (e : LifecycleEvent) :
    s.emit e = s.queue ++ [e] := by
  unfold EventState.emit
  rw [if_pos hc]

private theorem eventInv_start (h : EventInv L s) (name : String) :
    EventInv L (eventStep L s (.start name)) := by
  simp only [eventStep]
  split
  · exact h
  · next hname =>
    let x : Domain := ⟨s.nextDomid, name⟩
    have hnew : ¬ s.seen x.id := Int.lt_irrefl _
    have hseen : ∀ i, s.seen i → i < ((s.nextDomid + 1 : Nat) : Int) := by
      intro i hi
      unfold EventState.seen at hi
      omega
    have hx : x.id < ((s.nextDomid + 1 : Nat) : Int) := by
      change (s.nextDomid : Int) < _
      omega
    cases hc : s.connected with
    | false =>
      rw [emit_offline h hc]
      refine ⟨h.wf, h.unshared, ?_, fun _ ↦ rfl, fun hcon ↦ ?_⟩
      · exact (h.ordered.toDistinct.appear hnew hseen hx hname).ordered_nil
      · exact absurd hcon Bool.false_ne_true
    | true =>
      rw [emit_online hc]
      refine ⟨h.wf, h.unshared, h.ordered.appear hnew hseen hx hname, fun hcon ↦ ?_, fun _ ↦ ?_⟩
      · exact absurd hcon.symm Bool.false_ne_true
      · refine progress_mono ?_ (fun ids hs ↦ ?_) (h.progress_of hc rfl)
        · rfl
        exact ⟨hs.sound.appear hnew hseen hx hname, hs.covered.appear⟩

private theorem eventInv_stop (h : EventInv L s) (domid : Int) :
    EventInv L (eventStep L s (.stop domid)) := by
  simp only [eventStep]
  cases hfind : s.running.find? (fun d ↦ decide (d.id = domid)) with
  | none => exact h
  | some d =>
    have hd := List.mem_of_find?_eq_some hfind
    dsimp only
    cases hc : s.connected with
    | false =>
      rw [emit_offline h hc]
      refine ⟨h.wf, h.unshared, (h.ordered.toDistinct.vanish d).ordered_nil, fun _ ↦ rfl,
        fun hcon ↦ ?_⟩
      exact absurd hcon Bool.false_ne_true
    | true =>
      rw [emit_online hc]
      refine ⟨h.wf, h.unshared, h.ordered.vanish hd, fun hcon ↦ ?_, fun _ ↦ ?_⟩
      · exact absurd hcon.symm Bool.false_ne_true
      · refine progress_mono ?_ (fun ids hs ↦ ?_) (h.progress_of hc rfl)
        · rfl
        exact ⟨hs.sound.vanish hd, hs.covered.vanish d _⟩

private theorem eventInv_disconnect (h : EventInv L s) :
    EventInv L (eventStep L s .disconnect) :=
  ⟨h.wf, h.unshared, h.ordered.toDistinct.ordered_nil, fun _ ↦ rfl,
    fun hcon ↦ absurd hcon Bool.false_ne_true⟩

end WorldSteps

section ThreadSteps

variable {L : Libvirtd} {s : EventState}

private theorem eventInv_register (h : EventInv L s) :
    EventInv L (eventStep L s .domainEventsRegister) := by
  simp only [eventStep]
  split
  · exact ⟨h.wf, h.unshared, h.ordered.toDistinct.ordered_nil, fun _ ↦ rfl, fun _ ↦ trivial⟩
  · exact h

private theorem eventInv_freeAll (h : EventInv L s) : EventInv L (eventStep L s .freeAllVM) := by
  simp only [eventStep]
  split
  · have hnil := freeAllVM_unshared h.wf h.unshared
    refine ⟨(freeAllVM_spec h.wf).1, ?_, h.ordered, h.offline, fun _ ↦ hnil⟩
    intro v hv
    rw [hnil] at hv
    cases hv
  · exact h

private theorem eventInv_count (h : EventInv L s) :
    EventInv L (eventStep L s .connectNumOfDomains) := by
  simp only [eventStep]
  split
  · next hphase =>
    have hempty : s.connected = true → s.list.vms = [] := by
      intro hc
      exact h.progress_of hc hphase
    split
    · exact ⟨h.wf, h.unshared, h.ordered, h.offline, hempty⟩
    · next hnone =>
      refine ⟨h.wf, h.unshared, h.ordered, h.offline, fun hc ↦ ?_⟩
      have hrun : s.running = [] := Classical.not_not.mp fun hne ↦ hnone ⟨hc, hne⟩
      refine ⟨?_, fun x hx ↦ ?_⟩
      · change Sound _ _ _ (s.list.vms.map domainOf) _ _
        rw [hempty hc]
        exact h.ordered.sound_start fun _ hm ↦ (nomatch hm)
      · rw [show x ∈ s.running ↔ x ∈ [] by rw [hrun]] at hx
        cases hx
  · exact h

private theorem eventInv_list (h : EventInv L s) (reply : List Int)
    (hok : ListsComplete L s (.connectListDomains reply)) :
    EventInv L (eventStep L s (.connectListDomains reply)) := by
  simp only [eventStep]
  split
  · next n hphase =>
    split
    · next hc =>
      split
      · next hvalid =>
        refine ⟨h.wf, h.unshared, h.ordered, h.offline, fun _ ↦ ?_⟩
        have hempty : s.list.vms = [] := h.progress_of hc hphase
        refine ⟨?_, fun d hd hacc ↦ ?_⟩
        · change Sound _ _ _ (s.list.vms.map domainOf) _ _
          rw [hempty]
          refine h.ordered.sound_start fun i hi ↦ ?_
          obtain ⟨d, hd, rfl⟩ := List.mem_map.mp (hvalid.2.1 i hi)
          exact h.ordered.present_seen d hd
        · by_cases hq : .appeared d.id ∈ s.queue
          · exact .inr (.inl hq)
          · exact .inr (.inr (hok (hphase ▸ rfl) hc d hd hacc hq))
      · exact h
    · next hc => exact ⟨h.wf, h.unshared, h.ordered, h.offline, fun hcon ↦ absurd hcon hc⟩
  · exact h

private theorem eventInv_add (h : EventInv L s) :
    EventInv L (eventStep L s .findAddVMToList) := by
  simp only [eventStep]
  split
  · next hphase =>
    refine ⟨h.wf, h.unshared, h.ordered, h.offline, fun hc ↦ ?_⟩
    have hsync : Synced L s [] := h.progress_of hc hphase
    exact ⟨hsync.sound, hsync.covered⟩
  · next domid domids hphase =>
    refine ⟨h.wf.findAdd domid true _, findAddVMToList_unshared h.unshared domid true _,
      h.ordered, h.offline, fun hc ↦ ?_⟩
    have hsync : Synced L s (domid :: domids) := h.progress_of hc hphase
    have hdom := findAddVMToList_domains L (s := s) hc domid
    refine ⟨?_, ?_⟩
    · dsimp only
      rw [hdom]
      exact hsync.sound.takePending
    · dsimp only
      rw [hdom]
      exact hsync.covered.takePending hsync.sound
  · exact h

private theorem eventInv_process (h : EventInv L s) :
    EventInv L (eventStep L s .processDomainEvent) := by
  simp only [eventStep]
  split
  · next e queue hphase hqueue =>
    have hord := h.ordered
    rw [hqueue] at hord
    have hcon : s.connected = true := by
      cases hc : s.connected with
      | true => rfl
      | false =>
        have hnil := h.offline hc
        rw [hqueue] at hnil
        cases hnil
    have hsync : Synced L s [] := h.progress_of hcon hphase
    obtain ⟨hsound, hcov⟩ := hsync
    rw [hqueue] at hsound hcov
    cases e with
    | appeared domid =>
      have hdom := findAddVMToList_domains L hcon domid
      refine ⟨h.wf.findAdd domid true _, findAddVMToList_unshared h.unshared domid true _,
        hord.tail, fun hoff ↦ ?_, fun _ ↦ ?_⟩
      · exact absurd (hoff.symm.trans hcon) Bool.false_ne_true
      · dsimp only [processDomainEvent]
        rw [hphase]
        refine ⟨?_, ?_⟩
        · dsimp only
          rw [hdom]
          exact hsound.handleAppeared
        · dsimp only
          rw [hdom]
          exact hcov.handleAppeared hsound
    | vanished name =>
      have hdom := findDeleteVMFromList_domains h.wf h.unshared name
      refine ⟨(findDeleteVMFromList_spec h.wf name).1, fun v hv ↦ ?_, hord.tail,
        fun hoff ↦ ?_, fun _ ↦ ?_⟩
      · dsimp only [processDomainEvent] at hv
        rw [findDeleteVMFromList_unshared h.wf h.unshared] at hv
        exact h.unshared v (List.mem_of_mem_eraseP hv)
      · exact absurd (hoff.symm.trans hcon) Bool.false_ne_true
      · dsimp only [processDomainEvent]
        rw [hphase]
        refine ⟨?_, ?_⟩
        · dsimp only
          rw [hdom]
          exact hsound.handleVanished
        · dsimp only
          rw [hdom]
          exact hcov.handleVanished hsound
  · exact h

private theorem eventInv_lost (h : EventInv L s) :
    EventInv L (eventStep L s .lostConnection) := by
  simp only [eventStep]
  split
  · exact ⟨h.wf, h.unshared, h.ordered, h.offline, fun _ ↦ trivial⟩
  · exact h

end ThreadSteps

/-- Every step keeps the invariant if replies are complete. -/
theorem eventInv_step {L : Libvirtd} {s : EventState} (h : EventInv L s) (a : EventAct)
    (hok : ListsComplete L s a) : EventInv L (eventStep L s a) := by
  cases a with
  | start name => exact eventInv_start h name
  | stop domid => exact eventInv_stop h domid
  | disconnect => exact eventInv_disconnect h
  | domainEventsRegister => exact eventInv_register h
  | freeAllVM => exact eventInv_freeAll h
  | connectNumOfDomains => exact eventInv_count h
  | connectListDomains reply => exact eventInv_list h reply hok
  | findAddVMToList => exact eventInv_add h
  | processDomainEvent => exact eventInv_process h
  | lostConnection => exact eventInv_lost h

/-- At first there is nothing to agree about. -/
theorem eventInv_init (L : Libvirtd) : EventInv L EventState.init := by
  refine ⟨VmList.wf_empty, fun _ hv ↦ (nomatch hv), Distinct.ordered_nil ?_, fun _ ↦ rfl,
    fun _ ↦ trivial⟩
  exact ⟨List.nodup_nil, List.nodup_nil, fun _ hx ↦ (nomatch hx)⟩

/-! ### Agreement -/

/-- The connection is up, the rebuild is done and no event is queued. -/
def Quiet (s : EventState) : Prop := s.connected = true ∧ s.phase = .loop ∧ s.queue = []

instance (s : EventState) : Decidable (Quiet s) :=
  inferInstanceAs (Decidable (s.connected = true ∧ s.phase = .loop ∧ s.queue = []))

/-- The list holds exactly the accepted running domains, each id and each name once, the
counter counts it, and nothing but the list refers to its records. -/
def ListAgrees (L : Libvirtd) (s : EventState) : Prop :=
  (∀ d ∈ s.list.domains, d ∈ s.running ∧ L.accepts d = true) ∧
    (∀ d ∈ s.running, L.accepts d = true → d ∈ s.list.domains) ∧
    (s.list.vms.map (·.domid)).Nodup ∧ (s.list.vms.map (·.domname)).Nodup ∧
    s.list.count = s.list.vms.length ∧ ∀ v ∈ s.list.vms, v.refcount = 1

instance (L : Libvirtd) (s : EventState) : Decidable (ListAgrees L s) :=
  inferInstanceAs (Decidable (
    (∀ d ∈ s.list.domains, d ∈ s.running ∧ L.accepts d = true) ∧
    (∀ d ∈ s.running, L.accepts d = true → d ∈ s.list.domains) ∧
    (s.list.vms.map (·.domid)).Nodup ∧ (s.list.vms.map (·.domname)).Nodup ∧
    s.list.count = s.list.vms.length ∧ ∀ v ∈ s.list.vms, v.refcount = 1))

/-- A quiet event thread's list agrees with libvirt. -/
theorem EventInv.listAgrees {L : Libvirtd} {s : EventState} (h : EventInv L s) (hq : Quiet s) :
    ListAgrees L s := by
  obtain ⟨hc, hphase, hqueue⟩ := hq
  obtain ⟨hsound, hcov⟩ : Synced L s [] := h.progress_of hc hphase
  rw [hqueue] at hsound hcov
  have hagree : ∀ d, d ∈ s.list.domains ↔ d ∈ s.running ∧ L.accepts d = true :=
    fun d ↦ hsound.agree hcov
  have hnames := hsound.held_names
  unfold VmList.domains at hnames
  rw [List.map_map] at hnames
  exact ⟨fun d hd ↦ (hagree d).mp hd, fun d hd hacc ↦ (hagree d).mpr ⟨hd, hacc⟩,
    h.wf.domid_nodup, hnames, h.wf.count_eq, h.unshared⟩

/-- In every run in which the replies of `virConnectListDomains` are complete up to the events
queued, the list agrees with libvirt whenever the thread is quiet. -/
theorem listAgrees_of_complete (L : Libvirtd) (acts : List EventAct)
    (h : StepsMeet (eventStep L) (ListsComplete L) EventState.init acts)
    (hquiet : Quiet (run (eventStep L) EventState.init acts)) :
    ListAgrees L (run (eventStep L) EventState.init acts) := by
  have hinv := h.invariant (eventInv_init L) fun s a hok hs ↦ eventInv_step hs a hok
  exact hinv.listAgrees hquiet

/-- A libvirtd whose domains are all accepted. -/
def plainLibvirtd : Libvirtd :=
  ⟨fun d ↦ ⟨some d.name, 0, 0, some ⟨1, 8388608, 8388608⟩⟩, fun _ ↦ rfl⟩

/-- A domain is restarted while the list is rebuilt: the record of its second run, added from
the reply, is deleted by the event of the first stop and added again by the event of the
second start. -/
def restartRun : List EventAct :=
  [.start "vm", .domainEventsRegister, .freeAllVM, .stop 0, .start "vm", .connectNumOfDomains,
    .connectListDomains [1], .findAddVMToList, .findAddVMToList, .processDomainEvent,
    .processDomainEvent]

/-- After the restart the list holds the second run of the domain. -/
theorem listAgrees_restart :
    Quiet (run (eventStep plainLibvirtd) EventState.init restartRun) ∧
      ListAgrees plainLibvirtd (run (eventStep plainLibvirtd) EventState.init restartRun) := by
  have hquiet : Quiet (run (eventStep plainLibvirtd) EventState.init restartRun) := by decide
  exact ⟨hquiet, listAgrees_of_complete plainLibvirtd restartRun (by decide) hquiet⟩

/-- A second domain starts between the two calls of `CollectAddCurrentVMs`, and the reply has
room for one of the two. -/
def truncatedRun : List EventAct :=
  [.start "old", .domainEventsRegister, .freeAllVM, .connectNumOfDomains, .start "new",
    .connectListDomains [1], .findAddVMToList, .findAddVMToList, .processDomainEvent]

/-- The first domain was started before the registration and is not in the reply: it stays
unknown. -/
theorem truncated_reply_misses : ¬ ∀ acts,
    Quiet (run (eventStep plainLibvirtd) EventState.init acts) →
      ListAgrees plainLibvirtd (run (eventStep plainLibvirtd) EventState.init acts) := by
  intro h
  have hrun := h truncatedRun (by decide)
  revert hrun
  decide

end Memlink
