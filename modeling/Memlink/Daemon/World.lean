import Mathlib.Data.List.Induction
import Memlink.Daemon.Exit
import Memlink.Daemon.Isolation

/-!
# The daemon and libvirt

The event thread beside the balloon thread and the main thread, with libvirt's domains coming and
going. The event thread takes its steps as in `DomainEventProcessThread`; between any two of them,
also in the middle of a rebuild of the list, the other threads run their sections on the list as
it is. `BalloonBackVmMem`, which the main thread runs at exit, may come at any time.
-/

namespace Memlink

open Transition Mirror

/-- libvirt, the event thread and the list, and the commands sent so far: by the balloon thread,
and by `BalloonBackVmMem`. -/
structure World where
  events : EventState
  log : Log
  exitLog : Log

/-- The sections of the balloon thread and of the main thread, which neither add nor remove
records. -/
def Section.inPlace : Section → Bool
  | .updateAllVmInfoAndMemoryStats _ => true
  | .balloonCycle _ => true
  | .updateAllVmInfo _ => true
  | _ => false

/-- What may fail in the event thread beside the connection: a call or the allocation in
`CollectAddCurrentVMs`, and the allocation in `FindAddVMToList`. -/
inductive EventFailure where
  | collectAddCurrentVMs
  | findAddVMToList
  deriving DecidableEq, Repr

/-- The failure, where it can happen: nothing is collected, or nothing is added for the next id or
the next event. -/
def failStep (s : EventState) : EventFailure → EventState
  | .collectAddCurrentVMs =>
    match s.phase with
    | .freed => { s with phase := .loop }
    | .counted _ => { s with phase := .loop }
    | _ => s
  | .findAddVMToList =>
    match s.phase, s.queue with
    | .adding (domid :: domids), _ =>
      { s with list := findAddVMToList s.list domid false none, phase := .adding domids }
    | .loop, .appeared domid :: queue =>
      { s with list := findAddVMToList s.list domid false none, queue := queue }
    | _, _ => s

/-- A step of libvirt or of the event thread, one of its failures, a section of one of the other
threads, or that of `BalloonBackVmMem`. -/
inductive WorldAct where
  | event (a : EventAct)
  | fail (f : EventFailure)
  | enter (a : Section) (h : a.inPlace = true)
  | balloonBackVmMem (lib : Libvirt)

/-- No domain runs, the list is empty and nothing was sent. -/
def World.init : World := ⟨EventState.init, [], []⟩

/-- What the locked sections see. -/
def World.state (w : World) : State := ⟨w.events.list, w.log⟩

/-- One step of the whole. -/
def worldStep (L : Libvirtd) (cfg : BalloonConfig) (w : World) : WorldAct → World
  | .event a => { w with events := eventStep L w.events a }
  | .fail f => { w with events := failStep w.events f }
  | .enter a _ =>
    { w with
      events := { w.events with list := (step cfg w.state a).list }
      log := (step cfg w.state a).log }
  | .balloonBackVmMem lib =>
    { w with exitLog := balloonBackVmMem lib w.events.list.vms w.exitLog }

/-! ### The sections a run is made of -/

/-- The section a step of the event thread runs, if any. -/
def eventSection (L : Libvirtd) (s : EventState) : EventAct → Option Section
  | .freeAllVM => if s.phase = .registered then some .freeAllVM else none
  | .findAddVMToList =>
    match s.phase with
    | .adding (domid :: _) => some (.findAddVMToList domid true (s.lookup L domid))
    | _ => none
  | .processDomainEvent =>
    match s.phase, s.queue with
    | .loop, .appeared domid :: _ => some (.findAddVMToList domid true (s.lookup L domid))
    | .loop, .vanished name :: _ => some (.findDeleteVMFromList name)
    | _, _ => none
  | _ => none

/-- The section a step runs, if any; one that fails is as if it were not run. -/
def worldSection (L : Libvirtd) (w : World) : WorldAct → Option Section
  | .event a => eventSection L w.events a
  | .fail _ => none
  | .enter a _ => some a
  | .balloonBackVmMem _ => none

/-- The event thread empties the list, adds what libvirt finds under an id, or deletes a name. -/
theorem eventSection_cases {L : Libvirtd} {s : EventState} {a : EventAct} {c : Section}
    (h : eventSection L s a = some c) :
    c = .freeAllVM ∨ (∃ domid, c = .findAddVMToList domid true (s.lookup L domid)) ∨
      ∃ name, c = .findDeleteVMFromList name := by
  cases a with
  | freeAllVM =>
    simp only [eventSection] at h
    split at h
    · exact .inl (Option.some.inj h).symm
    · cases h
  | findAddVMToList =>
    simp only [eventSection] at h
    split at h
    · next domid _ _ => exact .inr (.inl ⟨domid, (Option.some.inj h).symm⟩)
    · cases h
  | processDomainEvent =>
    simp only [eventSection] at h
    split at h
    · next domid _ _ _ => exact .inr (.inl ⟨domid, (Option.some.inj h).symm⟩)
    · next name _ _ _ => exact .inr (.inr ⟨name, (Option.some.inj h).symm⟩)
    · cases h
  | _ => cases h

/-- A step of the event thread changes the list by its section only. -/
theorem eventStep_list (L : Libvirtd) (cfg : BalloonConfig) (s : EventState) (log : Log)
    (a : EventAct) :
    ⟨(eventStep L s a).list, log⟩ =
      run (step cfg) ⟨s.list, log⟩ (eventSection L s a).toList := by
  cases a with
  | start name =>
    simp only [eventStep]
    split <;> rfl
  | stop domid =>
    simp only [eventStep]
    split <;> rfl
  | disconnect => rfl
  | domainEventsRegister =>
    simp only [eventStep]
    split <;> rfl
  | freeAllVM =>
    simp only [eventStep, eventSection]
    split <;> rfl
  | connectNumOfDomains =>
    simp only [eventStep]
    split
    · split <;> rfl
    · rfl
  | connectListDomains reply =>
    simp only [eventStep]
    split
    · split
      · split <;> rfl
      · rfl
    · rfl
  | findAddVMToList =>
    cases hp : s.phase with
    | adding domids =>
      cases domids with
      | nil => simp only [eventStep, eventSection, hp, Option.toList, run_nil]
      | cons domid domids =>
        simp only [eventStep, eventSection, hp, Option.toList, run_cons, run_nil, step]
    | _ => simp only [eventStep, eventSection, hp, Option.toList, run_nil]
  | processDomainEvent =>
    cases hp : s.phase with
    | loop =>
      cases hq : s.queue with
      | nil => simp only [eventStep, eventSection, hp, hq, Option.toList, run_nil]
      | cons e queue =>
        cases e with
        | appeared domid =>
          simp only [eventStep, eventSection, processDomainEvent, hp, hq, Option.toList, run_cons,
            run_nil, step]
        | vanished name =>
          simp only [eventStep, eventSection, processDomainEvent, hp, hq, Option.toList, run_cons,
            run_nil, step]
    | _ => simp only [eventStep, eventSection, hp, Option.toList, run_nil]
  | lostConnection =>
    simp only [eventStep]
    split <;> rfl

/-- Without memory nothing is added. -/
theorem findAddVMToList_noAlloc (l : VmList) (domid : Int) (probe : Option DomainProbe) :
    findAddVMToList l domid false probe = l := by
  unfold findAddVMToList
  split <;> rfl

/-- A failure leaves the list and libvirt alone. -/
theorem failStep_kept (s : EventState) (f : EventFailure) :
    (failStep s f).list = s.list ∧ (failStep s f).running = s.running ∧
      (failStep s f).nextDomid = s.nextDomid := by
  cases f with
  | collectAddCurrentVMs =>
    simp only [failStep]
    split <;> exact ⟨rfl, rfl, rfl⟩
  | findAddVMToList =>
    simp only [failStep]
    split
    · exact ⟨findAddVMToList_noAlloc _ _ none, rfl, rfl⟩
    · exact ⟨findAddVMToList_noAlloc _ _ none, rfl, rfl⟩
    · exact ⟨rfl, rfl, rfl⟩

/-- A step changes what the sections see by its section only. -/
theorem worldStep_state (L : Libvirtd) (cfg : BalloonConfig) (w : World) (a : WorldAct) :
    (worldStep L cfg w a).state = run (step cfg) w.state (worldSection L w a).toList := by
  cases a with
  | event a => exact eventStep_list L cfg w.events w.log a
  | fail f => exact congrArg (State.mk · w.log) (failStep_kept w.events f).1
  | enter a ha => rfl
  | balloonBackVmMem lib => rfl

/-- Whatever libvirt does, the daemon's list and log are as after a run of sections. -/
theorem world_reachable {L : Libvirtd} {cfg : BalloonConfig} {w : World}
    (h : Reachable (worldStep L cfg) World.init w) :
    Reachable (step cfg) State.init w.state := by
  refine h.invariant (I := fun w ↦ Reachable (step cfg) State.init w.state)
    (Reachable.init _ _) fun w a ⟨acts, hacts⟩ ↦ ?_
  refine ⟨acts ++ (worldSection L w a).toList, ?_⟩
  rw [run_append, hacts, worldStep_state]

/-! ### The other threads leave the domains alone -/

/-- Such a section changes neither which domains are listed nor under which names. -/
theorem step_domains {cfg : BalloonConfig} {s : State} (h : s.Wf) {a : Section}
    (ha : a.inPlace = true) : (step cfg s a).list.domains = s.list.domains := by
  cases a with
  | updateAllVmInfoAndMemoryStats reply =>
    simp only [step, VmList.domains, getAllDomainsStats_eq_map reply _ h.list.domid_nodup,
      List.map_map]
    refine List.map_congr_left fun v _ ↦ ?_
    obtain ⟨r, hr⟩ := refresh_eq_withReport reply v
    rw [Function.comp_apply, hr]
    rfl
  | balloonCycle lib =>
    obtain ⟨vms', sent, he, ht⟩ := balloonCycle_traversal cfg lib s.list.vms s.log
    simp only [step, he, VmList.domains]
    refine ht.map_eq fun v n ↦ ?_
    obtain ⟨c, hc⟩ := turn_eq_withControl cfg v (lib n)
    rw [hc]
    rfl
  | updateAllVmInfo query =>
    simp only [step, VmList.domains, updateAllVmInfo, List.map_map]
    refine List.map_congr_left fun v _ ↦ ?_
    obtain ⟨r, _, _, hr⟩ := getVmInfo_getD_eq_withReport (query v) v
    rw [Function.comp_apply, hr]
    rfl
  | findAddVMToList => cases ha
  | findDeleteVMFromList => cases ha
  | freeAllVM => cases ha

/-- The invariant of the event thread is about the domains on the list only. -/
theorem EventInv.relist {L : Libvirtd} {s : EventState} (h : EventInv L s) {l : VmList}
    (hwf : l.Wf) (hone : l.Unshared) (hdom : l.domains = s.list.domains) :
    EventInv L { s with list := l } := by
  refine ⟨hwf, hone, h.ordered, h.offline, fun hc ↦ ?_⟩
  have hempty : s.list.vms = [] → l.vms = [] := by
    intro hnil
    rw [VmList.domains, VmList.domains, hnil] at hdom
    exact List.map_eq_nil_iff.mp hdom
  have hsync : ∀ ids, Synced L s ids → Synced L { s with list := l } ids := by
    intro ids ⟨hsound, hcov⟩
    refine ⟨?_, ?_⟩
    · dsimp only
      rw [hdom]
      exact hsound
    · dsimp only
      rw [hdom]
      exact hcov
  have hprogress : ∀ p, Progress L s p → Progress L { s with list := l } p := by
    intro p hp
    cases p with
    | top => trivial
    | registered => trivial
    | freed => exact hempty hp
    | counted n => exact hempty hp
    | adding ids => exact hsync ids hp
    | loop => exact hsync [] hp
  exact hprogress _ (h.progress hc)

/-! ### Agreement in every interleaving -/

/-- The id that `FindAddVMToList` is called with next, from the reply or for an event. -/
def EventState.nextId (s : EventState) : Option Int :=
  match s.phase, s.queue with
  | .adding (domid :: _), _ => some domid
  | .loop, .appeared domid :: _ => some domid
  | _, _ => none

/-- No accepted domain runs under the id. -/
def Unwanted (L : Libvirtd) (s : EventState) (domid : Int) : Prop :=
  ∀ d ∈ s.running, d.id = domid → L.accepts d = false

/-- A failure that loses no domain: those that are not collected are announced in the queue, and
one that is not added is not running or not accepted. -/
def FailsHarmlessly (L : Libvirtd) (s : EventState) : EventFailure → Prop
  | .collectAddCurrentVMs =>
    s.phase = .freed ∨ s.phase.isCounted = true → s.connected = true →
      ∀ d ∈ s.running, L.accepts d = true → .appeared d.id ∈ s.queue
  | .findAddVMToList => ∀ domid ∈ s.nextId, Unwanted L s domid

/-- The replies of `virConnectListDomains` are complete up to the events queued, and failures lose
no domain. -/
def NothingMissed (L : Libvirtd) (w : World) : WorldAct → Prop
  | .event a => ListsComplete L w.events a
  | .fail f => FailsHarmlessly L w.events f
  | .enter _ _ => True
  | .balloonBackVmMem _ => True

instance (L : Libvirtd) (s : EventState) (domid : Int) : Decidable (Unwanted L s domid) :=
  inferInstanceAs (Decidable (∀ d ∈ s.running, d.id = domid → L.accepts d = false))

instance (L : Libvirtd) (s : EventState) : ∀ f, Decidable (FailsHarmlessly L s f)
  | .collectAddCurrentVMs =>
    inferInstanceAs (Decidable (s.phase = .freed ∨ s.phase.isCounted = true →
      s.connected = true → ∀ d ∈ s.running, L.accepts d = true → .appeared d.id ∈ s.queue))
  | .findAddVMToList => inferInstanceAs (Decidable (∀ domid ∈ s.nextId, Unwanted L s domid))

instance (L : Libvirtd) (w : World) : ∀ a, Decidable (NothingMissed L w a)
  | .event a => inferInstanceAs (Decidable (ListsComplete L w.events a))
  | .fail f => inferInstanceAs (Decidable (FailsHarmlessly L w.events f))
  | .enter _ _ => .isTrue trivial
  | .balloonBackVmMem _ => .isTrue trivial

/-- Nothing is held for an id under which no accepted item is present. -/
theorem hold_eq_self {accept : Domain → Bool} {present held : List Domain} {i : Int}
    (h : ∀ y ∈ present, y.id = i → accept y = false) : hold accept present held i = held := by
  unfold hold
  split
  · rfl
  · split
    · next y hfind =>
      have hid : y.id = i := by simpa using List.find?_some hfind
      rw [if_neg (by simp [h y (List.mem_of_find?_eq_some hfind) hid])]
    · rfl

private theorem EventInv.uncollected {L : Libvirtd} {s : EventState} (h : EventInv L s)
    (hempty : s.connected = true → s.list.vms = [])
    (hqueued : s.connected = true → ∀ d ∈ s.running, L.accepts d = true →
      .appeared d.id ∈ s.queue) :
    EventInv L { s with phase := .loop } := by
  refine ⟨h.wf, h.unshared, h.ordered, h.offline, fun hc ↦ ⟨?_, fun d hd hacc ↦ ?_⟩⟩
  · change Sound _ _ _ (s.list.vms.map domainOf) _ _
    rw [hempty hc]
    exact h.ordered.sound_start fun _ hm ↦ absurd hm List.not_mem_nil
  · exact .inr (.inl (hqueued hc d hd hacc))

/-- A failure that loses nothing keeps the event thread's invariant. -/
theorem EventInv.fail {L : Libvirtd} {s : EventState} (h : EventInv L s) {f : EventFailure}
    (hok : FailsHarmlessly L s f) : EventInv L (failStep s f) := by
  cases f with
  | collectAddCurrentVMs =>
    simp only [failStep]
    split
    · next hp =>
      exact h.uncollected (fun hc ↦ h.progress_of hc hp) (hok (.inl hp))
    · next hp =>
      exact h.uncollected (fun hc ↦ h.progress_of hc hp) (hok (.inr (by rw [hp]; rfl)))
    · exact h
  | findAddVMToList =>
    simp only [failStep, findAddVMToList_noAlloc]
    split
    · next domid domids hp =>
      have hun : Unwanted L s domid := hok domid (by simp [EventState.nextId, hp])
      refine ⟨h.wf, h.unshared, h.ordered, h.offline, fun hc ↦ ?_⟩
      obtain ⟨hsound, hcov⟩ : Synced L s (domid :: domids) := h.progress_of hc hp
      have hsound' := hsound.takePending
      have hcov' := hcov.takePending hsound
      rw [hold_eq_self hun] at hsound' hcov'
      exact ⟨hsound', hcov'⟩
    · next domid queue hp hq =>
      have hun : Unwanted L s domid := hok domid (by simp [EventState.nextId, hp, hq])
      have hord := h.ordered
      rw [hq] at hord
      have hoff : s.connected = false → queue = [] := by
        intro hc
        have hnil := h.offline hc
        rw [hq] at hnil
        cases hnil
      refine ⟨h.wf, h.unshared, hord.tail, hoff, fun hc ↦ ?_⟩
      obtain ⟨hsound, hcov⟩ : Synced L s [] := h.progress_of hc hp
      rw [hq] at hsound hcov
      have hsound' := hsound.handleAppeared
      have hcov' := hcov.handleAppeared hsound
      rw [hold_eq_self hun] at hsound' hcov'
      dsimp only
      rw [hp]
      exact ⟨hsound', hcov'⟩
    · exact h

/-- A step that misses nothing keeps the event thread's invariant. -/
theorem eventInv_worldStep {L : Libvirtd} {cfg : BalloonConfig} {w : World}
    (hr : Reachable (worldStep L cfg) World.init w) (hinv : EventInv L w.events) {a : WorldAct}
    (hok : NothingMissed L w a) : EventInv L (worldStep L cfg w a).events := by
  cases a with
  | event a => exact eventInv_step hinv a hok
  | fail f => exact hinv.fail hok
  | enter a ha =>
    have hs := world_reachable hr
    exact hinv.relist (wf_of_reachable (hs.step a)).list (unshared_of_reachable (hs.step a))
      (step_domains (wf_of_reachable hs) ha)
  | balloonBackVmMem lib => exact hinv

/-- Every interleaving in which nothing is missed keeps the event thread's invariant, from
wherever it holds. -/
theorem EventInv.worldRun {L : Libvirtd} {cfg : BalloonConfig} {w : World} {acts : List WorldAct}
    (hinv : EventInv L w.events) (hr : Reachable (worldStep L cfg) World.init w)
    (h : StepsMeet (worldStep L cfg) (NothingMissed L) w acts) :
    EventInv L (run (worldStep L cfg) w acts).events :=
  (h.invariant (I := fun w ↦ Reachable (worldStep L cfg) World.init w ∧ EventInv L w.events)
    ⟨hr, hinv⟩ fun _ a hok ⟨hr, hinv⟩ ↦ ⟨hr.step a, eventInv_worldStep hr hinv hok⟩).2

/-- It holds after every interleaving in which nothing is missed. -/
theorem eventInv_world {L : Libvirtd} {cfg : BalloonConfig} {acts : List WorldAct}
    (h : StepsMeet (worldStep L cfg) (NothingMissed L) World.init acts) :
    EventInv L (run (worldStep L cfg) World.init acts).events :=
  EventInv.worldRun (w := World.init) (eventInv_init L) (Reachable.init _ _) h

/-- In every interleaving of libvirt, the event thread, the balloon thread and the main thread in
which the replies of `virConnectListDomains` are complete and failures lose no domain, the list
agrees with libvirt whenever the event thread is quiet. -/
theorem world_list_agrees (L : Libvirtd) (cfg : BalloonConfig) (acts : List WorldAct)
    (h : StepsMeet (worldStep L cfg) (NothingMissed L) World.init acts)
    (hquiet : Quiet (run (worldStep L cfg) World.init acts).events) :
    ListAgrees L (run (worldStep L cfg) World.init acts).events :=
  (eventInv_world h).listAgrees hquiet

/-- A domain is restarted during a rebuild in which nothing is collected, while the balloon thread
and the main thread run: both events are queued. -/
def restartWorld : List WorldAct :=
  [.event (.start "vm"), .event .domainEventsRegister, .event .freeAllVM, .event (.stop 0),
    .event (.start "vm"), .enter (.balloonCycle fun _ ↦ true) rfl, .event .connectNumOfDomains,
    .fail .collectAddCurrentVMs, .enter (.updateAllVmInfoAndMemoryStats restoredStats) rfl,
    .enter (.balloonCycle fun _ ↦ true) rfl, .event .processDomainEvent,
    .enter (.updateAllVmInfo fun _ ↦ none) rfl, .event .processDomainEvent]

/-- The list agrees after it, too. -/
theorem world_list_agrees_restart :
    Quiet (run (worldStep plainLibvirtd .default) World.init restartWorld).events ∧
      ListAgrees plainLibvirtd
        (run (worldStep plainLibvirtd .default) World.init restartWorld).events := by
  have hquiet : Quiet (run (worldStep plainLibvirtd .default) World.init restartWorld).events := by
    decide
  exact ⟨hquiet, world_list_agrees plainLibvirtd .default restartWorld (by decide) hquiet⟩

/-! ### Whom the commands reach -/

/-- A lookup adds an accepted domain that is running, or nothing. -/
theorem mem_findAdd_domains (L : Libvirtd) (s : EventState) (domid : Int) {d : Domain}
    (h : d ∈ (findAddVMToList s.list domid true (s.lookup L domid)).domains) :
    d ∈ s.list.domains ∨ d ∈ s.running ∧ L.accepts d = true := by
  cases hc : s.connected with
  | true =>
    rw [findAddVMToList_domains L hc, hold] at h
    split at h
    · exact .inl h
    · split at h
      · next y hfind =>
        split at h
        · next hacc =>
          rcases List.mem_cons.mp h with rfl | h
          · exact .inr ⟨List.mem_of_find?_eq_some hfind, hacc⟩
          · exact .inl h
        · exact .inl h
      · exact .inl h
  | false =>
    have hnone : s.lookup L domid = none := by simp [EventState.lookup, hc]
    rw [hnone] at h
    rcases findAddVMToList_cases s.list domid true none with ⟨n, _, he⟩ | ⟨v, hv, _⟩
    · rw [he] at h
      exact .inl h
    · cases hv

/-- A list that shrinks holds no new domain. -/
theorem Shrinks.mem_domains {l l' : VmList} (h : Shrinks l l') {d : Domain}
    (hd : d ∈ l'.domains) : d ∈ l.domains := by
  obtain ⟨v', hv', rfl⟩ := List.mem_map.mp hd
  obtain ⟨v, hv, n, rfl⟩ := h.source v' hv'
  exact List.mem_map.mpr ⟨v, hv, rfl⟩

/-- A step lists an accepted domain that is running, or no new one. -/
theorem worldStep_mem_domains {L : Libvirtd} {cfg : BalloonConfig} {w : World}
    (h : Reachable (worldStep L cfg) World.init w) (a : WorldAct) {d : Domain}
    (hd : d ∈ (worldStep L cfg w a).events.list.domains) :
    d ∈ w.events.list.domains ∨ d ∈ w.events.running ∧ L.accepts d = true := by
  have hwf := wf_of_reachable (world_reachable h)
  cases a with
  | event a =>
    have he : (eventStep L w.events a).list =
        (run (step cfg) w.state (eventSection L w.events a).toList).list :=
      congrArg State.list (eventStep_list L cfg w.events w.log a)
    change d ∈ (eventStep L w.events a).list.domains at hd
    rw [he] at hd
    cases hc : eventSection L w.events a with
    | none =>
      rw [hc] at hd
      exact .inl hd
    | some c =>
      rw [hc] at hd
      rcases eventSection_cases hc with rfl | ⟨domid, rfl⟩ | ⟨name, rfl⟩
      · exact .inl ((freeAllVM_spec hwf.list).2.mem_domains hd)
      · exact mem_findAdd_domains L w.events domid hd
      · exact .inl ((findDeleteVMFromList_spec hwf.list name).2.mem_domains hd)
  | fail f =>
    have hlist : (worldStep L cfg w (.fail f)).events.list = w.events.list :=
      (failStep_kept w.events f).1
    exact .inl (hlist ▸ hd)
  | enter a ha =>
    have hdom : (worldStep L cfg w (.enter a ha)).events.list.domains = w.events.list.domains :=
      step_domains hwf ha
    exact .inl (hdom ▸ hd)
  | balloonBackVmMem lib => exact .inl hd

/-- A step sends commands for listed domains only, in the balloon thread and at exit. -/
theorem worldStep_log {L : Libvirtd} {cfg : BalloonConfig} {w : World}
    (h : Reachable (worldStep L cfg) World.init w) (a : WorldAct) :
    ∃ cycle exit, (worldStep L cfg w a).log = cycle ++ w.log ∧
      (worldStep L cfg w a).exitLog = exit ++ w.exitLog ∧
      (∀ c ∈ cycle, domainOf c.vm ∈ w.events.list.domains) ∧
      ∀ c ∈ exit, domainOf c.vm ∈ w.events.list.domains := by
  have hwf := wf_of_reachable (world_reachable h)
  have hnone : ∀ c ∈ ([] : Log), domainOf c.vm ∈ w.events.list.domains :=
    fun _ hc ↦ absurd hc List.not_mem_nil
  cases a with
  | event a => exact ⟨[], [], rfl, rfl, hnone, hnone⟩
  | fail f => exact ⟨[], [], rfl, rfl, hnone, hnone⟩
  | enter a ha =>
    cases a with
    | balloonCycle lib =>
      obtain ⟨sent, he, hsends⟩ := cycle_sends hwf cfg lib
      refine ⟨sent, [], he, rfl, fun c hc ↦ ?_, hnone⟩
      obtain ⟨v, hv, ok, hcv⟩ := hsends.emitter c hc
      obtain ⟨e, hvm⟩ := turn_command_vm hcv
      rw [hvm]
      exact List.mem_map.mpr ⟨v, hv, rfl⟩
    | _ => exact ⟨[], [], rfl, rfl, hnone, hnone⟩
  | balloonBackVmMem lib =>
    obtain ⟨sent, he, hown, _⟩ := balloonBackVmMem_sends lib w.events.list.vms w.exitLog
    refine ⟨[], sent, rfl, he, hnone, fun c hc ↦ ?_⟩
    obtain ⟨v, hv, _, hvm, _⟩ := hown c hc
    rw [hvm]
    exact List.mem_map.mpr ⟨v, hv, rfl⟩

/-- The domain was running at some point of a run. -/
def HasRun (L : Libvirtd) (cfg : BalloonConfig) (acts : List WorldAct) (d : Domain) : Prop :=
  ∃ past rest, acts = past ++ rest ∧ d ∈ (run (worldStep L cfg) World.init past).events.running

/-- In every interleaving, every command, of the balloon thread or of `BalloonBackVmMem`, went to a
domain that libvirt was running under that id and name, and that `InitAndCheckVM` accepts. -/
theorem commanded_was_accepted (L : Libvirtd) (cfg : BalloonConfig) (acts : List WorldAct) :
    ∀ c, c ∈ (run (worldStep L cfg) World.init acts).log ∨
        c ∈ (run (worldStep L cfg) World.init acts).exitLog →
      L.accepts (domainOf c.vm) = true ∧ HasRun L cfg acts (domainOf c.vm) := by
  -- The listed domains are such domains, too.
  suffices hboth : (∀ d ∈ (run (worldStep L cfg) World.init acts).events.list.domains,
      L.accepts d = true ∧ HasRun L cfg acts d) ∧
      ∀ c, c ∈ (run (worldStep L cfg) World.init acts).log ∨
          c ∈ (run (worldStep L cfg) World.init acts).exitLog →
        L.accepts (domainOf c.vm) = true ∧ HasRun L cfg acts (domainOf c.vm) from hboth.2
  induction acts using List.reverseRecOn with
  | nil =>
    refine ⟨fun _ hd ↦ absurd hd List.not_mem_nil, fun _ hc ↦ ?_⟩
    rcases hc with hc | hc
    · exact absurd hc List.not_mem_nil
    · exact absurd hc List.not_mem_nil
  | append_singleton acts a ih =>
    have hr : Reachable (worldStep L cfg) World.init (run (worldStep L cfg) World.init acts) :=
      ⟨acts, rfl⟩
    have hlater : ∀ d, HasRun L cfg acts d → HasRun L cfg (acts ++ [a]) d := by
      rintro d ⟨past, rest, rfl, hd⟩
      exact ⟨past, rest ++ [a], List.append_assoc _ _ _, hd⟩
    obtain ⟨hlisted, hsent⟩ := ih
    rw [run_concat]
    refine ⟨fun d hd ↦ ?_, fun c hc ↦ ?_⟩
    · rcases worldStep_mem_domains hr a hd with hd | ⟨hrun, hacc⟩
      · exact ⟨(hlisted d hd).1, hlater d (hlisted d hd).2⟩
      · exact ⟨hacc, acts, [a], rfl, hrun⟩
    · obtain ⟨cycle, exit, hcycle, hexit, hincycle, hinexit⟩ := worldStep_log hr a
      have hnew : domainOf c.vm ∈ (run (worldStep L cfg) World.init acts).events.list.domains ∨
          (c ∈ (run (worldStep L cfg) World.init acts).log ∨
            c ∈ (run (worldStep L cfg) World.init acts).exitLog) := by
        rw [hcycle, hexit, List.mem_append, List.mem_append] at hc
        rcases hc with (hc | hc) | (hc | hc)
        · exact .inl (hincycle c hc)
        · exact .inr (.inl hc)
        · exact .inl (hinexit c hc)
        · exact .inr (.inr hc)
      rcases hnew with hin | hold
      · exact ⟨(hlisted _ hin).1, hlater _ (hlisted _ hin).2⟩
      · exact ⟨(hsent c hold).1, hlater _ (hsent c hold).2⟩

/-- Statistics of a domain with half of its memory ballooned away. -/
def halfStats : StatsReply :=
  .records [⟨0, [⟨.balloonCurrent, 4194304⟩, ⟨.balloonMaximum, 8388608⟩,
    ⟨.balloonAvailable, 4000000⟩, ⟨.balloonUnused, 3000000⟩]⟩]

/-- A domain gets a command that libvirt refuses, and stops. -/
def stoppedWorld : List WorldAct :=
  [.event (.start "vm"), .event .domainEventsRegister, .event .freeAllVM,
    .event .connectNumOfDomains, .event (.connectListDomains [0]), .event .findAddVMToList,
    .event .findAddVMToList, .enter (.updateAllVmInfoAndMemoryStats halfStats) rfl,
    .enter (.balloonCycle fun _ ↦ false) rfl, .event (.stop 0), .event .processDomainEvent]

/-- The domain has stopped before its event is processed, and the daemon exits. -/
def exitWorld : List WorldAct :=
  stoppedWorld.take 10 ++ [.balloonBackVmMem fun _ ↦ false]

/-- The domain was running earlier, when it was listed. -/
theorem commanded_was_accepted_stopped :
    ∃ c ∈ (run (worldStep plainLibvirtd .default) World.init exitWorld).exitLog,
      domainOf c.vm = ⟨0, "vm"⟩ ∧ plainLibvirtd.accepts (domainOf c.vm) = true ∧
        HasRun plainLibvirtd .default exitWorld (domainOf c.vm) := by
  obtain ⟨c, hc, hd⟩ :
      ∃ c ∈ (run (worldStep plainLibvirtd .default) World.init exitWorld).exitLog,
        domainOf c.vm = ⟨0, "vm"⟩ := by decide
  exact ⟨c, hc, hd, commanded_was_accepted plainLibvirtd .default exitWorld c (.inr hc)⟩

/-- The id was used, and neither libvirt nor the daemon has a domain under it. -/
structure Gone (domid : Int) (w : World) : Prop where
  used : domid < w.events.nextDomid
  stopped : domid ∉ w.events.running.map (·.id)
  unlisted : domid ∉ w.events.list.domains.map (·.id)

/-- The event thread itself starts and stops no domain. -/
theorem eventStep_running (L : Libvirtd) (s : EventState) {a : EventAct}
    (hstart : ∀ name, a ≠ .start name) (hstop : ∀ domid, a ≠ .stop domid) :
    (eventStep L s a).running = s.running ∧ (eventStep L s a).nextDomid = s.nextDomid := by
  cases a with
  | start name => exact absurd rfl (hstart name)
  | stop domid => exact absurd rfl (hstop domid)
  | disconnect => exact ⟨rfl, rfl⟩
  | connectNumOfDomains =>
    simp only [eventStep]
    split
    · split <;> exact ⟨rfl, rfl⟩
    · exact ⟨rfl, rfl⟩
  | connectListDomains reply =>
    simp only [eventStep]
    split
    · split
      · split <;> exact ⟨rfl, rfl⟩
      · exact ⟨rfl, rfl⟩
    · exact ⟨rfl, rfl⟩
  | _ =>
    simp only [eventStep]
    split <;> exact ⟨rfl, rfl⟩

/-- libvirt starts no domain under a used id. -/
theorem eventStep_used {L : Libvirtd} {s : EventState} {domid : Int} (hused : domid < s.nextDomid)
    (hstopped : domid ∉ s.running.map (·.id)) (a : EventAct) :
    domid < (eventStep L s a).nextDomid ∧ domid ∉ (eventStep L s a).running.map (·.id) := by
  have hthread : (∀ name, a ≠ .start name) → (∀ other, a ≠ .stop other) →
      domid < (eventStep L s a).nextDomid ∧ domid ∉ (eventStep L s a).running.map (·.id) := by
    intro hstart hstop
    obtain ⟨hrun, hnext⟩ := eventStep_running L s hstart hstop
    rw [hrun, hnext]
    exact ⟨hused, hstopped⟩
  cases a with
  | start name =>
    simp only [eventStep]
    split
    · exact ⟨hused, hstopped⟩
    · refine ⟨by dsimp only; omega, ?_⟩
      rw [List.map_append, List.mem_append]
      rintro (hold | hnew)
      · exact hstopped hold
      · have hid : domid = s.nextDomid := List.mem_singleton.mp hnew
        omega
  | stop other =>
    simp only [eventStep]
    split
    · refine ⟨hused, fun hm ↦ hstopped ?_⟩
      obtain ⟨d, hd, rfl⟩ := List.mem_map.mp hm
      exact List.mem_map_of_mem (List.mem_of_mem_erase hd)
    · exact ⟨hused, hstopped⟩
  | _ => exact hthread (fun _ ha ↦ by cases ha) (fun _ ha ↦ by cases ha)

/-- A domain that is gone stays gone, and nothing is sent to it. -/
theorem Gone.step {L : Libvirtd} {cfg : BalloonConfig} {w : World} {domid : Int}
    (h : Reachable (worldStep L cfg) World.init w) (hgone : Gone domid w) (a : WorldAct) :
    Gone domid (worldStep L cfg w a) ∧
      (worldStep L cfg w a).log.filter (·.vm.domid = domid) =
        w.log.filter (·.vm.domid = domid) ∧
      (worldStep L cfg w a).exitLog.filter (·.vm.domid = domid) =
        w.exitLog.filter (·.vm.domid = domid) := by
  have hlisted : domid ∉ (worldStep L cfg w a).events.list.domains.map (·.id) := by
    intro hm
    obtain ⟨d, hd, rfl⟩ := List.mem_map.mp hm
    rcases worldStep_mem_domains h a hd with hold | ⟨hrun, _⟩
    · exact hgone.unlisted (List.mem_map_of_mem hold)
    · exact hgone.stopped (List.mem_map_of_mem hrun)
  refine ⟨?_, ?_⟩
  · cases a with
    | event a =>
      obtain ⟨hused, hstopped⟩ := eventStep_used (L := L) hgone.used hgone.stopped a
      exact ⟨hused, hstopped, hlisted⟩
    | fail f =>
      obtain ⟨_, hrun, hnext⟩ := failStep_kept w.events f
      exact ⟨hnext ▸ hgone.used, hrun ▸ hgone.stopped, hlisted⟩
    | enter a ha => exact ⟨hgone.used, hgone.stopped, hlisted⟩
    | balloonBackVmMem lib => exact ⟨hgone.used, hgone.stopped, hlisted⟩
  · obtain ⟨cycle, exit, hcycle, hexit, hincycle, hinexit⟩ := worldStep_log h a
    have hnone : ∀ sent : Log, (∀ c ∈ sent, domainOf c.vm ∈ w.events.list.domains) →
        sent.filter (·.vm.domid = domid) = [] := by
      intro sent hlisted
      refine List.filter_eq_nil_iff.mpr fun c hc ↦ ?_
      have hin : c.vm.domid ∈ w.events.list.domains.map (·.id) :=
        List.mem_map.mpr ⟨domainOf c.vm, hlisted c hc, rfl⟩
      simpa using fun hid : c.vm.domid = domid ↦ hgone.unlisted (hid ▸ hin)
    rw [hcycle, hexit, List.filter_append, List.filter_append, hnone cycle hincycle,
      hnone exit hinexit, List.nil_append, List.nil_append]
    exact ⟨rfl, rfl⟩

/-- Once the event thread is quiet, a domain that has stopped never gets a command again, of the
balloon thread or of `BalloonBackVmMem`, whatever happens afterwards. -/
theorem stopped_not_commanded (L : Libvirtd) (cfg : BalloonConfig) (acts : List WorldAct)
    (h : StepsMeet (worldStep L cfg) (NothingMissed L) World.init acts)
    (hquiet : Quiet (run (worldStep L cfg) World.init acts).events) {domid : Int}
    (hused : domid < (run (worldStep L cfg) World.init acts).events.nextDomid)
    (hstopped : domid ∉ (run (worldStep L cfg) World.init acts).events.running.map (·.id))
    (more : List WorldAct) :
    (run (worldStep L cfg) World.init (acts ++ more)).log.filter (·.vm.domid = domid) =
        (run (worldStep L cfg) World.init acts).log.filter (·.vm.domid = domid) ∧
      (run (worldStep L cfg) World.init (acts ++ more)).exitLog.filter (·.vm.domid = domid) =
        (run (worldStep L cfg) World.init acts).exitLog.filter (·.vm.domid = domid) := by
  have hagree := (eventInv_world h).listAgrees hquiet
  have hgone : Gone domid (run (worldStep L cfg) World.init acts) := by
    refine ⟨hused, hstopped, fun hm ↦ hstopped ?_⟩
    obtain ⟨d, hd, rfl⟩ := List.mem_map.mp hm
    exact List.mem_map_of_mem (hagree.1 d hd).1
  rw [run_append]
  generalize hw : run (worldStep L cfg) World.init acts = w at hgone ⊢
  have hrun : StepsMeet (worldStep L cfg) (fun _ _ ↦ True) w more :=
    stepsMeet_of_forall (fun _ _ ↦ trivial) _ _
  refine (hrun.invariant (I := fun x ↦ Reachable (worldStep L cfg) World.init x ∧ Gone domid x ∧
    x.log.filter (·.vm.domid = domid) = w.log.filter (·.vm.domid = domid) ∧
    x.exitLog.filter (·.vm.domid = domid) = w.exitLog.filter (·.vm.domid = domid))
    ⟨⟨acts, hw⟩, hgone, rfl, rfl⟩ fun x a _ ⟨hr, hg, hlog, hexit⟩ ↦ ?_).2.2
  obtain ⟨hg', hlog', hexit'⟩ := hg.step hr a
  exact ⟨hr.step a, hg', hlog'.trans hlog, hexit'.trans hexit⟩

/-- libvirt refused the command, but it is not repeated, not even at exit. -/
theorem stopped_not_commanded_refused :
    ((run (worldStep plainLibvirtd .default) World.init stoppedWorld).log.filter
      (·.vm.domid = 0)).length = 1 ∧
    (run (worldStep plainLibvirtd .default) World.init (stoppedWorld ++
        [.enter (.updateAllVmInfoAndMemoryStats halfStats) rfl,
          .enter (.balloonCycle fun _ ↦ true) rfl,
          .balloonBackVmMem fun _ ↦ true])).log.filter (·.vm.domid = 0) =
      (run (worldStep plainLibvirtd .default) World.init stoppedWorld).log.filter
        (·.vm.domid = 0) ∧
    (run (worldStep plainLibvirtd .default) World.init (stoppedWorld ++
        [.enter (.updateAllVmInfoAndMemoryStats halfStats) rfl,
          .enter (.balloonCycle fun _ ↦ true) rfl,
          .balloonBackVmMem fun _ ↦ true])).exitLog.filter (·.vm.domid = 0) =
      (run (worldStep plainLibvirtd .default) World.init stoppedWorld).exitLog.filter
        (·.vm.domid = 0) :=
  ⟨by decide, stopped_not_commanded plainLibvirtd .default stoppedWorld (by decide) (by decide)
    (by decide) (by decide) _⟩

end Memlink
