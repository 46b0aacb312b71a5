import Memlink.Daemon.World

/-!
# The connection and its callbacks

`ConnectLibvirt` (`libvirt_helper.c:44–59`), `DomainEventsRegister` and `DomainEventsDeregister`
(`libvirt_helper.c:440–469`) and the loops of `DomainEventProcessThread` around them
(`libvirt_helper.c:471–522`), with the handles: libvirt delivers a lifecycle event to every
callback that is registered on a connection that works, whether or not the daemon still knows
about it. A connection that breaks stays broken, `virConnectIsAlive` tells or reports an error, and
closing one does not end it while records refer to it. The event thread of the other modules has
one connection and one queue; what it does is what these handles make of it.
-/

namespace Memlink

open Transition Mirror

/-- A callback that libvirt knows: the connection it was registered on and its id. -/
structure Callback where
  conn : Nat
  id : Nat
  deriving DecidableEq, Repr

/-- The next thing the event thread does. -/
inductive Place where
  | connect
  | opening
  | register
  | serve (phase : EventPhase)
  | dispatch
  | cleanup
  deriving DecidableEq, Repr

/-- The daemon and libvirt, with the handles. `conn` is `g_libvirtConn`, `eventId` is the id in
`g_domainEvents`, `opened` counts the connections and `working` has those that are not broken. -/
structure Linked where
  running : List Domain
  nextDomid : Nat
  list : VmList
  log : Log
  conn : Option Nat
  eventId : Option Nat
  opened : Nat
  working : List Nat
  callbacks : List Callback
  pending : List (Callback × LifecycleEvent)
  place : Place

/-- No domain runs and no connection was opened. -/
def Linked.init : Linked := ⟨[], 0, VmList.empty, [], none, none, 0, [], [], [], .connect⟩

/-- The thread is past the registration and has not noticed a loss. -/
def Place.served : Place → Bool
  | .serve _ => true
  | .dispatch => true
  | _ => false

/-- The phase of the event thread. -/
def Place.phase : Place → EventPhase
  | .serve p => p
  | .dispatch => .loop
  | _ => .top

/-- `g_libvirtConn` is a connection that works. -/
def Linked.usable (s : Linked) : Bool := s.conn.any (· ∈ s.working)

/-- What `virConnectIsAlive` returns for `g_libvirtConn`. -/
def Linked.virConnectIsAlive (s : Linked) (error : Bool) : Int :=
  if error then -1 else if s.usable then 1 else 0

/-- The callbacks that get an event. -/
def Linked.receivers (s : Linked) : List Callback := s.callbacks.filter (·.conn ∈ s.working)

/-- The deliveries still to be made after a lifecycle event. -/
def Linked.emit (s : Linked) (e : LifecycleEvent) : List (Callback × LifecycleEvent) :=
  s.pending ++ s.receivers.map (·, e)

/-- What remains without the handles, before `BalloonBackVmMem`. -/
def Linked.world (s : Linked) : World where
  events := ⟨s.running, s.nextDomid, s.place.served && s.usable, s.pending.map (·.2), s.list,
    s.place.phase⟩
  log := s.log
  exitLog := []

/-- The steps of the event thread between the registration and its loop. -/
def EventAct.collects : EventAct → Bool
  | .freeAllVM => true
  | .connectNumOfDomains => true
  | .connectListDomains _ => true
  | .findAddVMToList => true
  | _ => false

/-- Steps of libvirt, the calls of the event thread with their results, and the sections of the
other threads. -/
inductive LinkedAct where
  | start (name : String)
  | stop (domid : Int)
  | drop (conn : Nat)
  | virConnectIsAlive (error : Bool)
  | virConnectOpen (ok : Bool)
  | domainEventsRegister (id : Option Nat)
  | collect (a : EventAct) (h : a.collects = true)
  | fail (f : EventFailure)
  | domainEventCallback
  | virEventRunDefaultImpl
  | domainEventsDeregister (ok : Bool)
  | enter (a : Section) (h : a.inPlace = true)

/-- One step; a step that is not possible in a state does nothing. -/
def linkedStep (L : Libvirtd) (cfg : BalloonConfig) (s : Linked) : LinkedAct → Linked
  | .start name =>
    if name ∈ s.running.map (·.name) then s
    else
      { s with
        running := s.running ++ [⟨s.nextDomid, name⟩]
        nextDomid := s.nextDomid + 1
        pending := s.emit (.appeared s.nextDomid) }
  | .stop domid =>
    match s.running.find? (fun d ↦ d.id = domid) with
    | some d => { s with running := s.running.erase d, pending := s.emit (.vanished d.name) }
    | none => s
  | .drop conn =>
    { s with
      working := s.working.filter (· ≠ conn)
      pending := s.pending.filter (·.1.conn ≠ conn) }
  | .virConnectIsAlive error =>
    match s.place with
    | .connect =>
      if s.conn = none then { s with place := .opening }
      else if s.virConnectIsAlive error ≠ 1 then { s with conn := none, place := .opening }
      else { s with place := .register }
    | .serve .loop =>
      if s.virConnectIsAlive error ≠ 0 then { s with place := .dispatch }
      else { s with place := .cleanup }
    | _ => s
  | .virConnectOpen ok =>
    if s.place = .opening ∧ ok = true then
      { s with
        conn := some s.opened
        opened := s.opened + 1
        working := s.opened :: s.working
        place := .register }
    else s
  | .domainEventsRegister id =>
    match s.place, s.conn, id with
    | .register, some conn, some id =>
      -- An id that is in use on the connection is not given again.
      if ⟨conn, id⟩ ∈ s.callbacks then s
      else
        { s with
          eventId := some id
          callbacks := ⟨conn, id⟩ :: s.callbacks
          place := .serve .registered }
    | .register, some _, none => { s with eventId := none, place := .cleanup }
    | _, _, _ => s
  | .collect a _ =>
    match s.place with
    | .serve _ =>
      { s with
        list := (eventStep L s.world.events a).list
        place := .serve (eventStep L s.world.events a).phase }
    | _ => s
  | .fail .collectAddCurrentVMs =>
    match s.place with
    | .serve _ => { s with place := .serve (failStep s.world.events .collectAddCurrentVMs).phase }
    | _ => s
  | .fail .findAddVMToList =>
    match s.place, s.pending with
    | .serve (.adding (domid :: domids)), _ =>
      { s with
        list := findAddVMToList s.list domid false none
        place := .serve (.adding domids) }
    | .dispatch, (_, .appeared domid) :: pending =>
      { s with list := findAddVMToList s.list domid false none, pending := pending }
    | _, _ => s
  | .domainEventCallback =>
    match s.place, s.pending with
    | .dispatch, (_, e) :: pending =>
      { s with list := processDomainEvent L s.world.events e, pending := pending }
    | _, _ => s
  | .virEventRunDefaultImpl =>
    if s.place = .dispatch then { s with place := .serve .loop } else s
  | .domainEventsDeregister ok =>
    match s.place, s.conn, s.eventId with
    | .cleanup, some conn, some id =>
      -- Whether or not libvirt has deregistered the callback, its id is forgotten.
      { s with
        eventId := none
        callbacks := if ok then s.callbacks.filter (· ≠ ⟨conn, id⟩) else s.callbacks
        pending := if ok then s.pending.filter (·.1 ≠ ⟨conn, id⟩) else s.pending
        place := .connect }
    | .cleanup, _, _ => { s with place := .connect }
    | _, _, _ => s
  | .enter a h =>
    { s with
      list := (worldStep L cfg s.world (.enter a h)).events.list
      log := (worldStep L cfg s.world (.enter a h)).log }

/-! ### One callback -/

/-- A callback on a working connection is the one that the thread serves. -/
structure LinkInv (s : Linked) : Prop where
  receiver : ∀ c ∈ s.callbacks, c.conn ∈ s.working →
    s.place.served = true ∧ s.conn = some c.conn ∧ s.eventId = some c.id
  registered : s.place.served = true →
    ∃ c ∈ s.callbacks, s.conn = some c.conn ∧ s.eventId = some c.id
  distinct : s.callbacks.Nodup
  conn_opened : ∀ c, s.conn = some c → c < s.opened
  callback_opened : ∀ c ∈ s.callbacks, c.conn < s.opened
  delivered : ∀ p ∈ s.pending, p.1 ∈ s.receivers

section Receivers

variable {s : Linked}

/-- A working connection that is served has a single receiver. -/
theorem LinkInv.receivers_on (h : LinkInv s) (hon : (s.place.served && s.usable) = true) :
    ∃ c, s.receivers = [c] := by
  rw [Bool.and_eq_true] at hon
  obtain ⟨c, hc, hconn, hid⟩ := h.registered hon.1
  have hworks : c.conn ∈ s.working := by simpa [Linked.usable, hconn] using hon.2
  have hin : c ∈ s.receivers := List.mem_filter.mpr ⟨hc, by simpa using hworks⟩
  have hall : ∀ d ∈ s.receivers, d = c := by
    intro d hd
    obtain ⟨hd, hdw⟩ := List.mem_filter.mp hd
    obtain ⟨_, hdconn, hdid⟩ := h.receiver d hd (by simpa using hdw)
    obtain ⟨dconn, did⟩ := d
    obtain ⟨cconn, cid⟩ := c
    rw [hconn] at hdconn
    rw [hid] at hdid
    rw [Callback.mk.injEq]
    exact ⟨(Option.some.inj hdconn).symm, (Option.some.inj hdid).symm⟩
  have hrep := List.eq_replicate_of_mem hall
  have hlen : s.receivers.length ≤ 1 := by
    rw [← List.nodup_replicate, ← hrep]
    exact h.distinct.filter _
  have hpos : 0 < s.receivers.length := List.length_pos_of_mem hin
  have hone : s.receivers.length = 1 := by omega
  rw [hone] at hrep
  exact ⟨c, hrep⟩

/-- Otherwise nothing is received. -/
theorem LinkInv.receivers_off (h : LinkInv s) (hoff : (s.place.served && s.usable) = false) :
    s.receivers = [] := by
  refine List.filter_eq_nil_iff.mpr fun c hc hw ↦ ?_
  have hw' : c.conn ∈ s.working := by simpa using hw
  obtain ⟨hserved, hconn, _⟩ := h.receiver c hc hw'
  simp [hserved, Linked.usable, hconn, hw'] at hoff

/-- Without a connection there is nothing to deliver. -/
theorem LinkInv.pending_off (h : LinkInv s) (hoff : (s.place.served && s.usable) = false) :
    s.pending = [] := by
  refine List.eq_nil_iff_forall_not_mem.mpr fun p hp ↦ ?_
  have hin := h.delivered p hp
  rw [h.receivers_off hoff] at hin
  exact List.not_mem_nil hin

/-- An event is queued once if there is a connection. -/
theorem LinkInv.emit_world (h : LinkInv s) (e : LifecycleEvent) :
    (s.emit e).map (·.2) = s.world.events.emit e := by
  unfold Linked.emit EventState.emit
  rw [List.map_append, List.map_map]
  change _ = if (s.place.served && s.usable) = true then s.pending.map (·.2) ++ [e]
    else s.pending.map (·.2)
  split
  · next hon =>
    obtain ⟨c, hc⟩ := h.receivers_on hon
    rw [hc]
    rfl
  · next hoff =>
    rw [h.receivers_off (Bool.eq_false_iff.mpr hoff)]
    exact List.append_nil _

/-- The handles and whether the thread serves them are as before, and only receivers get more. -/
structure SameHandles (s s' : Linked) : Prop where
  conn : s'.conn = s.conn
  eventId : s'.eventId = s.eventId
  opened : s'.opened = s.opened
  working : s'.working = s.working
  callbacks : s'.callbacks = s.callbacks
  served : s'.place.served = s.place.served
  pending : ∀ p ∈ s'.pending, p ∈ s.pending ∨ p.1 ∈ s.receivers

/-- The invariant is about the handles. -/
theorem LinkInv.frame (h : LinkInv s) {s' : Linked} (hs : SameHandles s s') : LinkInv s' := by
  have hreceivers : s'.receivers = s.receivers := by
    unfold Linked.receivers
    rw [hs.callbacks, hs.working]
  constructor
  · rw [hs.callbacks, hs.working, hs.served, hs.conn, hs.eventId]
    exact h.receiver
  · rw [hs.callbacks, hs.served, hs.conn, hs.eventId]
    exact h.registered
  · rw [hs.callbacks]
    exact h.distinct
  · rw [hs.conn, hs.opened]
    exact h.conn_opened
  · rw [hs.callbacks, hs.opened]
    exact h.callback_opened
  · intro p hp
    rw [hreceivers]
    exact (hs.pending p hp).elim (h.delivered p) id

/-- Nothing is received while the thread is not serving. -/
theorem LinkInv.silent (h : LinkInv s) (hplace : s.place.served = false) :
    (∀ c ∈ s.callbacks, c.conn ∉ s.working) ∧ s.pending = [] := by
  refine ⟨fun c hc hw ↦ ?_, h.pending_off (by rw [hplace]; rfl)⟩
  exact absurd (h.receiver c hc hw).1 (by rw [hplace]; exact Bool.false_ne_true)

/-- The thread may do as it likes with `g_libvirtConn` and its id while nothing is received. -/
theorem LinkInv.unserved {s' : Linked} (hsilent : ∀ c ∈ s'.callbacks, c.conn ∉ s'.working)
    (hpending : s'.pending = []) (hplace : s'.place.served = false)
    (hdistinct : s'.callbacks.Nodup) (hconn : ∀ c, s'.conn = some c → c < s'.opened)
    (hcallback : ∀ c ∈ s'.callbacks, c.conn < s'.opened) : LinkInv s' := by
  refine ⟨fun c hc hw ↦ absurd hw (hsilent c hc), fun hs ↦ ?_, hdistinct, hconn, hcallback, ?_⟩
  · rw [hplace] at hs
    cases hs
  · rw [hpending]
    exact fun _ hp ↦ absurd hp List.not_mem_nil

end Receivers

section LinkSteps

variable {s : Linked}

private theorem linkInv_drop (h : LinkInv s) (conn : Nat) :
    LinkInv { s with
      working := s.working.filter (· ≠ conn)
      pending := s.pending.filter (·.1.conn ≠ conn) } := by
  refine ⟨fun c hc hw ↦ h.receiver c hc (List.mem_filter.mp hw).1, h.registered, h.distinct,
    h.conn_opened, h.callback_opened, fun p hp ↦ ?_⟩
  obtain ⟨hp, hne⟩ := List.mem_filter.mp hp
  obtain ⟨hc, hw⟩ := List.mem_filter.mp (h.delivered p hp)
  refine List.mem_filter.mpr ⟨hc, ?_⟩
  have hw' : p.1.conn ∈ s.working := by simpa using hw
  exact decide_eq_true (List.mem_filter.mpr ⟨hw', hne⟩)

/-- The loop is left only if the connection is broken. -/
theorem unusable_of_isAlive {error : Bool} (h : s.virConnectIsAlive error = 0) :
    s.usable = false := by
  cases hu : s.usable with
  | false => rfl
  | true => cases error <;> simp [Linked.virConnectIsAlive, hu] at h

private theorem linkInv_isAlive {L : Libvirtd} {cfg : BalloonConfig} (h : LinkInv s)
    (error : Bool) : LinkInv (linkedStep L cfg s (.virConnectIsAlive error)) := by
  simp only [linkedStep]
  split
  · next hplace =>
    obtain ⟨hsilent, hpending⟩ := h.silent (by rw [hplace]; rfl)
    split
    · exact .unserved hsilent hpending rfl h.distinct h.conn_opened h.callback_opened
    · split
      · refine .unserved hsilent hpending rfl h.distinct (fun c hc ↦ ?_) h.callback_opened
        cases hc
      · exact .unserved hsilent hpending rfl h.distinct h.conn_opened h.callback_opened
  · next hplace =>
    split
    · refine h.frame ⟨rfl, rfl, rfl, rfl, rfl, ?_, fun _ hp ↦ .inl hp⟩
      rw [hplace]
      rfl
    · next hdead =>
      have hoff : (s.place.served && s.usable) = false := by
        rw [unusable_of_isAlive (Classical.not_not.mp hdead), Bool.and_false]
      refine .unserved (fun c hc hw ↦ ?_) (h.pending_off hoff) rfl h.distinct h.conn_opened
        h.callback_opened
      have hin : c ∈ s.receivers := List.mem_filter.mpr ⟨hc, by simpa using hw⟩
      rw [h.receivers_off hoff] at hin
      exact List.not_mem_nil hin
  · exact h

private theorem linkInv_open (h : LinkInv s) (hplace : s.place = .opening) :
    LinkInv { s with
      conn := some s.opened
      opened := s.opened + 1
      working := s.opened :: s.working
      place := .register } := by
  obtain ⟨hsilent, hpending⟩ := h.silent (by rw [hplace]; rfl)
  refine .unserved (fun c hc hw ↦ ?_) hpending rfl h.distinct (fun c hc ↦ ?_) fun c hc ↦ ?_
  · -- The new connection has no callback yet.
    rcases List.mem_cons.mp hw with heq | hw
    · exact absurd (h.callback_opened c hc) (by omega)
    · exact hsilent c hc hw
  · have heq : s.opened = c := Option.some.inj hc
    change c < s.opened + 1
    omega
  · have hlt := h.callback_opened c hc
    change c.conn < s.opened + 1
    omega

private theorem linkInv_register {L : Libvirtd} {cfg : BalloonConfig} (h : LinkInv s)
    (id : Option Nat) : LinkInv (linkedStep L cfg s (.domainEventsRegister id)) := by
  simp only [linkedStep]
  split
  · next conn id hplace hconn =>
    obtain ⟨hsilent, hpending⟩ := h.silent (by rw [hplace]; rfl)
    split
    · exact h
    · next hnew =>
      refine ⟨fun c hc hw ↦ ?_, fun _ ↦ ?_, List.nodup_cons.mpr ⟨hnew, h.distinct⟩,
        h.conn_opened, fun c hc ↦ ?_, fun p hp ↦ ?_⟩
      · rcases List.mem_cons.mp hc with rfl | hc
        · exact ⟨rfl, hconn, rfl⟩
        · exact absurd hw (hsilent c hc)
      · exact ⟨⟨conn, id⟩, List.mem_cons_self, hconn, rfl⟩
      · rcases List.mem_cons.mp hc with rfl | hc
        · exact h.conn_opened conn hconn
        · exact h.callback_opened c hc
      · exact absurd (hpending ▸ hp) List.not_mem_nil
  · next hplace _ =>
    obtain ⟨hsilent, hpending⟩ := h.silent (by rw [hplace]; rfl)
    exact .unserved hsilent hpending rfl h.distinct h.conn_opened h.callback_opened
  · exact h

private theorem linkInv_deregister {L : Libvirtd} {cfg : BalloonConfig} (h : LinkInv s)
    (ok : Bool) : LinkInv (linkedStep L cfg s (.domainEventsDeregister ok)) := by
  simp only [linkedStep]
  split
  · next conn id hplace hconn hid =>
    obtain ⟨hsilent, hpending⟩ := h.silent (by rw [hplace]; rfl)
    cases ok with
    | false => exact .unserved hsilent hpending rfl h.distinct h.conn_opened h.callback_opened
    | true =>
      refine .unserved (fun c hc ↦ hsilent c (List.mem_filter.mp hc).1) ?_ rfl
        (h.distinct.filter _) h.conn_opened fun c hc ↦
          h.callback_opened c (List.mem_filter.mp hc).1
      change s.pending.filter _ = []
      rw [hpending]
      rfl
  · next hplace _ =>
    obtain ⟨hsilent, hpending⟩ := h.silent (by rw [hplace]; rfl)
    exact .unserved hsilent hpending rfl h.distinct h.conn_opened h.callback_opened
  · exact h

/-- Every step keeps the handles in order. -/
theorem LinkInv.step {L : Libvirtd} {cfg : BalloonConfig} (h : LinkInv s) (a : LinkedAct) :
    LinkInv (linkedStep L cfg s a) := by
  have hemit : ∀ e, ∀ p ∈ s.emit e, p ∈ s.pending ∨ p.1 ∈ s.receivers := by
    intro e p hp
    rcases List.mem_append.mp hp with hp | hp
    · exact .inl hp
    · obtain ⟨c, hc, rfl⟩ := List.mem_map.mp hp
      exact .inr hc
  cases a with
  | start name =>
    simp only [linkedStep]
    split
    · exact h
    · exact h.frame ⟨rfl, rfl, rfl, rfl, rfl, rfl, hemit _⟩
  | stop domid =>
    simp only [linkedStep]
    split
    · exact h.frame ⟨rfl, rfl, rfl, rfl, rfl, rfl, hemit _⟩
    · exact h
  | drop conn => exact linkInv_drop h conn
  | virConnectIsAlive error => exact linkInv_isAlive h error
  | virConnectOpen ok =>
    simp only [linkedStep]
    split
    · next hopen => exact linkInv_open h hopen.1
    · exact h
  | domainEventsRegister id => exact linkInv_register h id
  | collect a ha =>
    simp only [linkedStep]
    split
    · next hplace => exact h.frame ⟨rfl, rfl, rfl, rfl, rfl, by rw [hplace]; rfl, fun _ ↦ .inl⟩
    · exact h
  | fail f =>
    cases f with
    | collectAddCurrentVMs =>
      simp only [linkedStep]
      split
      · next hplace => exact h.frame ⟨rfl, rfl, rfl, rfl, rfl, by rw [hplace]; rfl, fun _ ↦ .inl⟩
      · exact h
    | findAddVMToList =>
      simp only [linkedStep]
      split
      · next hplace => exact h.frame ⟨rfl, rfl, rfl, rfl, rfl, by rw [hplace]; rfl, fun _ ↦ .inl⟩
      · next hpending =>
        refine h.frame ⟨rfl, rfl, rfl, rfl, rfl, rfl, fun p hp ↦ .inl ?_⟩
        rw [hpending]
        exact List.mem_cons_of_mem _ hp
      · exact h
  | domainEventCallback =>
    simp only [linkedStep]
    split
    · next hpending =>
      refine h.frame ⟨rfl, rfl, rfl, rfl, rfl, rfl, fun p hp ↦ .inl ?_⟩
      rw [hpending]
      exact List.mem_cons_of_mem _ hp
    · exact h
  | virEventRunDefaultImpl =>
    simp only [linkedStep]
    split
    · next hplace => exact h.frame ⟨rfl, rfl, rfl, rfl, rfl, by rw [hplace]; rfl, fun _ ↦ .inl⟩
    · exact h
  | domainEventsDeregister ok => exact linkInv_deregister h ok
  | enter a ha => exact h.frame ⟨rfl, rfl, rfl, rfl, rfl, rfl, fun _ ↦ .inl⟩

end LinkSteps

/-! ### The handles are one connection with one queue -/

/-- The steps of the event thread without the handles. A registration that is accepted on a broken
connection is one that is lost at once. -/
def worldActs (s : Linked) : LinkedAct → List WorldAct
  | .start name => [.event (.start name)]
  | .stop domid => [.event (.stop domid)]
  | .drop conn => if s.conn = some conn then [.event .disconnect] else []
  | .virConnectIsAlive error =>
    if s.place = .serve .loop ∧ s.virConnectIsAlive error = 0 then [.event .lostConnection] else []
  | .virConnectOpen _ => []
  | .domainEventsRegister id =>
    match s.place, s.conn, id with
    | .register, some conn, some id =>
      if ⟨conn, id⟩ ∈ s.callbacks then []
      else if s.usable then [.event .domainEventsRegister]
      else [.event .domainEventsRegister, .event .disconnect]
    | _, _, _ => []
  | .collect a _ =>
    match s.place with
    | .serve _ => [.event a]
    | _ => []
  | .fail .collectAddCurrentVMs =>
    match s.place with
    | .serve _ => [.fail .collectAddCurrentVMs]
    | _ => []
  | .fail .findAddVMToList =>
    match s.place, s.pending with
    | .serve (.adding (_ :: _)), _ => [.fail .findAddVMToList]
    | .dispatch, (_, .appeared _) :: _ => [.fail .findAddVMToList]
    | _, _ => []
  | .domainEventCallback =>
    match s.place, s.pending with
    | .dispatch, (_, _) :: _ => [.event .processDomainEvent]
    | _, _ => []
  | .virEventRunDefaultImpl => []
  | .domainEventsDeregister _ => []
  | .enter a h => [.enter a h]

section Simulation

variable {L : Libvirtd} {cfg : BalloonConfig} {s : Linked}

private theorem world_drop (h : LinkInv s) (conn : Nat) :
    (linkedStep L cfg s (.drop conn)).world =
      run (worldStep L cfg) s.world (worldActs s (.drop conn)) := by
  simp only [linkedStep, worldActs]
  by_cases hc : s.conn = some conn
  · rw [if_pos hc]
    -- What is still to be delivered came over this connection.
    have hpending : s.pending.filter (·.1.conn ≠ conn) = [] := by
      refine List.filter_eq_nil_iff.mpr fun p hp hne ↦ ?_
      obtain ⟨hin, hw⟩ := List.mem_filter.mp (h.delivered p hp)
      have hsame := (h.receiver p.1 hin (by simpa using hw)).2.1
      rw [hc] at hsame
      simp [Option.some.inj hsame] at hne
    have husable : s.conn.any (fun c ↦ decide (c ∈ s.working.filter (· ≠ conn))) = false := by
      simp [hc]
    simp only [Linked.world, Linked.usable, husable, hpending, Bool.and_false, List.map_nil,
      run_cons, run_nil, worldStep, eventStep]
  · rw [if_neg hc]
    have husable : s.conn.any (fun c ↦ decide (c ∈ s.working.filter (· ≠ conn))) =
        s.conn.any (fun c ↦ decide (c ∈ s.working)) := by
      cases hs : s.conn with
      | none => rfl
      | some c =>
        have hne : c ≠ conn := fun heq ↦ hc (heq ▸ hs)
        simp [hne]
    have hpending : s.pending.filter (·.1.conn ≠ conn) = s.pending := by
      refine List.filter_eq_self.mpr fun p hp ↦ ?_
      obtain ⟨hin, hw⟩ := List.mem_filter.mp (h.delivered p hp)
      have hsame := (h.receiver p.1 hin (by simpa using hw)).2.1
      simpa using fun heq : p.1.conn = conn ↦ hc (heq ▸ hsame)
    simp only [Linked.world, Linked.usable, husable, hpending, run_nil]

private theorem world_isAlive (error : Bool) :
    (linkedStep L cfg s (.virConnectIsAlive error)).world =
      run (worldStep L cfg) s.world (worldActs s (.virConnectIsAlive error)) := by
  simp only [linkedStep]
  split
  · next hplace =>
    have hacts : worldActs s (.virConnectIsAlive error) = [] := by simp [worldActs, hplace]
    rw [hacts, run_nil]
    split
    · simp only [Linked.world, hplace, Place.served, Place.phase, Bool.false_and]
    · split <;> simp only [Linked.world, hplace, Place.served, Place.phase, Bool.false_and]
  · next hplace =>
    split
    · next halive =>
      have hacts : worldActs s (.virConnectIsAlive error) = [] :=
        if_neg fun hboth ↦ halive hboth.2
      rw [hacts, run_nil]
      simp only [Linked.world, Linked.usable, hplace, Place.served, Place.phase]
    · next hdead =>
      have hzero : s.virConnectIsAlive error = 0 := Classical.not_not.mp hdead
      have hacts : worldActs s (.virConnectIsAlive error) = [.event .lostConnection] :=
        if_pos ⟨hplace, hzero⟩
      rw [hacts, run_cons, run_nil]
      simp [Linked.world, unusable_of_isAlive hzero, hplace, Place.served, Place.phase, worldStep,
        eventStep]
  · next hloop =>
    have hacts : worldActs s (.virConnectIsAlive error) = [] := if_neg fun hboth ↦ hloop hboth.1
    rw [hacts, run_nil]

private theorem world_open (ok : Bool) :
    (linkedStep L cfg s (.virConnectOpen ok)).world = s.world := by
  simp only [linkedStep]
  split
  · next hopen => simp [Linked.world, hopen.1, Place.served, Place.phase]
  · rfl

private theorem world_register (h : LinkInv s) (id : Option Nat) :
    (linkedStep L cfg s (.domainEventsRegister id)).world =
      run (worldStep L cfg) s.world (worldActs s (.domainEventsRegister id)) := by
  cases hplace : s.place with
  | register =>
    have hpending := (h.silent (by rw [hplace]; rfl)).2
    cases hconn : s.conn with
    | none => simp only [linkedStep, worldActs, hplace, hconn, run_nil]
    | some conn =>
      cases id with
      | none =>
        simp only [linkedStep, worldActs, hplace, hconn, run_nil, Linked.world, Place.served,
          Place.phase, Bool.false_and]
      | some id =>
        simp only [linkedStep, worldActs, hplace, hconn]
        split
        · rfl
        · cases hu : s.usable with
          | true =>
            have hworks : conn ∈ s.working := by simpa [Linked.usable, hconn] using hu
            simp [Linked.world, Linked.usable, hconn, hworks, hplace, hpending, Place.served,
              Place.phase, worldStep, eventStep]
          | false =>
            have hbroken : conn ∉ s.working := by simpa [Linked.usable, hconn] using hu
            simp [Linked.world, Linked.usable, hconn, hbroken, hplace, hpending, Place.served,
              Place.phase, worldStep, eventStep]
  | _ => simp only [linkedStep, worldActs, hplace, run_nil]

/-- Collecting touches the list and the phase only. -/
theorem eventStep_collects (s : EventState) {a : EventAct} (ha : a.collects = true) :
    eventStep L s a =
      { s with list := (eventStep L s a).list, phase := (eventStep L s a).phase } := by
  cases a with
  | freeAllVM =>
    simp only [eventStep]
    split <;> rfl
  | connectNumOfDomains =>
    simp only [eventStep]
    split
    · split <;> rfl
    · rfl
  | connectListDomains reply =>
    simp only [eventStep]
    split
    · split
      · split <;> rfl
      · rfl
    · rfl
  | findAddVMToList =>
    simp only [eventStep]
    split <;> rfl
  | _ => cases ha

private theorem world_collect {a : EventAct} (ha : a.collects = true) :
    (linkedStep L cfg s (.collect a ha)).world =
      run (worldStep L cfg) s.world (worldActs s (.collect a ha)) := by
  cases hplace : s.place with
  | serve p =>
    simp only [linkedStep, worldActs, hplace, run_cons, run_nil, worldStep]
    rw [eventStep_collects s.world.events ha]
    simp only [Linked.world, Linked.usable, hplace, Place.served, Place.phase]
  | _ => simp only [linkedStep, worldActs, hplace, run_nil]

private theorem world_fail (f : EventFailure) :
    (linkedStep L cfg s (.fail f)).world =
      run (worldStep L cfg) s.world (worldActs s (.fail f)) := by
  cases f with
  | collectAddCurrentVMs =>
    cases hplace : s.place with
    | serve p =>
      simp only [linkedStep, worldActs, hplace, run_cons, run_nil, worldStep]
      cases p <;>
        simp only [Linked.world, Linked.usable, hplace, Place.served, Place.phase, failStep]
    | _ => simp only [linkedStep, worldActs, hplace, run_nil]
  | findAddVMToList =>
    simp only [linkedStep, worldActs]
    split
    · next hplace =>
      simp only [Linked.world, Linked.usable, hplace, Place.served, Place.phase, run_cons, run_nil,
        worldStep, failStep]
    · next hplace hpending =>
      simp only [Linked.world, Linked.usable, hplace, hpending, Place.served, Place.phase, run_cons,
        run_nil, worldStep, failStep, List.map_cons]
    · rfl

private theorem world_callback :
    (linkedStep L cfg s .domainEventCallback).world =
      run (worldStep L cfg) s.world (worldActs s .domainEventCallback) := by
  simp only [linkedStep, worldActs]
  split
  · next hplace hpending =>
    simp only [Linked.world, Linked.usable, hplace, hpending, Place.served, Place.phase, run_cons,
      run_nil, worldStep, eventStep, List.map_cons]
  · rfl

private theorem world_deregister (h : LinkInv s) (ok : Bool) :
    (linkedStep L cfg s (.domainEventsDeregister ok)).world = s.world := by
  simp only [linkedStep]
  split
  · next hplace _ _ =>
    have hpending := (h.silent (by rw [hplace]; rfl)).2
    cases ok <;> simp [Linked.world, hplace, hpending, Place.served, Place.phase]
  · next hplace _ => simp [Linked.world, hplace, Place.served, Place.phase]
  · rfl

/-- A step is no step, one or two steps of the event thread without the handles. -/
theorem linkedStep_world (h : LinkInv s) (a : LinkedAct) :
    (linkedStep L cfg s a).world = run (worldStep L cfg) s.world (worldActs s a) := by
  cases a with
  | start name =>
    have hrunning : s.world.events.running = s.running := rfl
    simp only [linkedStep, worldActs, run_cons, run_nil, worldStep, eventStep, hrunning]
    split
    · rfl
    · have hemit := h.emit_world (.appeared s.nextDomid)
      simp only [Linked.world] at hemit ⊢
      rw [hemit]
      rfl
  | stop domid =>
    simp only [linkedStep, worldActs, run_cons, run_nil, worldStep, eventStep]
    cases hfind : s.running.find? (fun d ↦ decide (d.id = domid)) with
    | none => simp only [Linked.world, hfind]
    | some d =>
      have hemit := h.emit_world (.vanished d.name)
      simp only [Linked.world, hfind] at hemit ⊢
      rw [hemit]
      rfl
  | drop conn => exact world_drop h conn
  | virConnectIsAlive error => exact world_isAlive error
  | virConnectOpen ok => exact world_open ok
  | domainEventsRegister id => exact world_register h id
  | collect a ha => exact world_collect ha
  | fail f => exact world_fail f
  | domainEventCallback => exact world_callback
  | virEventRunDefaultImpl =>
    simp only [linkedStep, worldActs, run_nil]
    split
    · next hplace => simp only [Linked.world, Linked.usable, hplace, Place.served, Place.phase]
    · rfl
  | domainEventsDeregister ok => exact world_deregister h ok
  | enter a ha => rfl

end Simulation

/-- Nothing is registered before the first connection. -/
theorem linkInv_init : LinkInv Linked.init :=
  .unserved (fun _ hc ↦ absurd hc List.not_mem_nil) rfl rfl List.nodup_nil
    (fun _ hc ↦ absurd hc.symm (Option.some_ne_none _)) (fun _ hc ↦ absurd hc List.not_mem_nil)

/-- The handles are in order after every run. -/
theorem linkInv_run (L : Libvirtd) (cfg : BalloonConfig) (acts : List LinkedAct) :
    LinkInv (run (linkedStep L cfg) Linked.init acts) :=
  Reachable.invariant ⟨acts, rfl⟩ linkInv_init fun _ a h ↦ h.step a

/-- However connections break, calls fail and `virConnectIsAlive` reports errors, and whatever
libvirt answers to `virConnectDomainEventDeregisterAny`: a lifecycle event goes to exactly one
callback while the thread serves a connection that works, and to none otherwise. -/
theorem one_receiver (L : Libvirtd) (cfg : BalloonConfig) (acts : List LinkedAct) :
    (run (linkedStep L cfg) Linked.init acts).receivers.length =
      if (run (linkedStep L cfg) Linked.init acts).world.events.connected then 1 else 0 := by
  have h := linkInv_run L cfg acts
  generalize run (linkedStep L cfg) Linked.init acts = s at h ⊢
  cases hon : s.place.served && s.usable with
  | true =>
    obtain ⟨c, hc⟩ := h.receivers_on hon
    rw [hc]
    exact (if_pos hon).symm
  | false =>
    rw [h.receivers_off hon]
    exact (if_neg (Bool.eq_false_iff.mp hon)).symm

/-- The condition on the replies and failures, with the handles. -/
def MissesNothing (L : Libvirtd) (s : Linked) : LinkedAct → Prop
  | .collect a _ => ListsComplete L s.world.events a
  | .fail f => FailsHarmlessly L s.world.events f
  | _ => True

instance (L : Libvirtd) (s : Linked) : ∀ a, Decidable (MissesNothing L s a)
  | .collect a _ => inferInstanceAs (Decidable (ListsComplete L s.world.events a))
  | .fail f => inferInstanceAs (Decidable (FailsHarmlessly L s.world.events f))
  | .start _ => .isTrue trivial
  | .stop _ => .isTrue trivial
  | .drop _ => .isTrue trivial
  | .virConnectIsAlive _ => .isTrue trivial
  | .virConnectOpen _ => .isTrue trivial
  | .domainEventsRegister _ => .isTrue trivial
  | .domainEventCallback => .isTrue trivial
  | .virEventRunDefaultImpl => .isTrue trivial
  | .domainEventsDeregister _ => .isTrue trivial
  | .enter _ _ => .isTrue trivial

/-- It is the condition without them. -/
theorem worldActs_nothingMissed {L : Libvirtd} (cfg : BalloonConfig) {s : Linked} {a : LinkedAct}
    (h : MissesNothing L s a) :
    StepsMeet (worldStep L cfg) (NothingMissed L) s.world (worldActs s a) := by
  cases a with
  | start name => exact ⟨trivial, trivial⟩
  | stop domid => exact ⟨trivial, trivial⟩
  | drop conn =>
    simp only [worldActs]
    split
    · exact ⟨trivial, trivial⟩
    · trivial
  | virConnectIsAlive error =>
    simp only [worldActs]
    split
    · exact ⟨trivial, trivial⟩
    · trivial
  | domainEventsRegister id =>
    simp only [worldActs]
    split
    · split
      · trivial
      · split
        · exact ⟨trivial, trivial⟩
        · exact ⟨trivial, trivial, trivial⟩
    · trivial
  | collect a ha =>
    simp only [worldActs]
    split
    · exact ⟨h, trivial⟩
    · trivial
  | fail f =>
    cases f with
    | collectAddCurrentVMs =>
      simp only [worldActs]
      split
      · exact ⟨h, trivial⟩
      · trivial
    | findAddVMToList =>
      simp only [worldActs]
      split
      · exact ⟨h, trivial⟩
      · exact ⟨h, trivial⟩
      · trivial
  | domainEventCallback =>
    simp only [worldActs]
    split
    · exact ⟨trivial, trivial⟩
    · trivial
  | enter a ha => exact ⟨trivial, trivial⟩
  | _ => trivial

/-- Every run with the handles is a run without them, which misses nothing if it does not. -/
theorem linked_simulates (L : Libvirtd) (cfg : BalloonConfig) (acts : List LinkedAct) :
    ∃ moves, run (worldStep L cfg) World.init moves =
        (run (linkedStep L cfg) Linked.init acts).world ∧
      (StepsMeet (linkedStep L cfg) (MissesNothing L) Linked.init acts →
        StepsMeet (worldStep L cfg) (NothingMissed L) World.init moves) :=
  run_simulates linkInv_init acts
    (fun _ a hinv ↦ hinv.step a) (fun _ a hinv ↦ linkedStep_world hinv a)
    fun _ _ _ hok ↦ worldActs_nothingMissed cfg hok

/-- Every run with the handles is a run without them; so the list agrees with libvirt whenever the
event thread is quiet, in every interleaving in which nothing is missed. -/
theorem linked_list_agrees (L : Libvirtd) (cfg : BalloonConfig) (acts : List LinkedAct) :
    (∃ moves, run (worldStep L cfg) World.init moves =
        (run (linkedStep L cfg) Linked.init acts).world ∧
      (StepsMeet (linkedStep L cfg) (MissesNothing L) Linked.init acts →
        StepsMeet (worldStep L cfg) (NothingMissed L) World.init moves)) ∧
    (StepsMeet (linkedStep L cfg) (MissesNothing L) Linked.init acts →
      Quiet (run (linkedStep L cfg) Linked.init acts).world.events →
        ListAgrees L (run (linkedStep L cfg) Linked.init acts).world.events) := by
  obtain ⟨moves, hrun, hmoves⟩ := linked_simulates L cfg acts
  refine ⟨⟨moves, hrun, hmoves⟩, fun h hquiet ↦ ?_⟩
  rw [← hrun] at hquiet ⊢
  exact (eventInv_world (hmoves h)).listAgrees hquiet

/-- The first connection breaks while the thread collects, and its callback cannot be
deregistered. On the second one nothing can be registered, and an error replaces it by a third. -/
def brokenRun : List LinkedAct :=
  [.start "a", .virConnectIsAlive false, .virConnectOpen false, .virConnectOpen true,
    .domainEventsRegister (some 0), .collect .freeAllVM rfl, .collect .connectNumOfDomains rfl,
    .drop 0, .collect (.connectListDomains []) rfl, .start "b", .virConnectIsAlive false,
    .domainEventsDeregister false, .virConnectIsAlive false, .virConnectOpen true,
    .domainEventsRegister none, .domainEventsDeregister true, .virConnectIsAlive true,
    .virConnectOpen true, .domainEventsRegister (some 0), .collect .freeAllVM rfl,
    .collect .connectNumOfDomains rfl, .collect (.connectListDomains [1, 0]) rfl, .stop 0,
    .collect .findAddVMToList rfl, .collect .findAddVMToList rfl, .collect .findAddVMToList rfl,
    .enter (.balloonCycle (· == 0)) rfl, .virConnectIsAlive true, .domainEventCallback,
    .virEventRunDefaultImpl]

/-- The callback of the first connection is still known to libvirt, but the list agrees. -/
theorem linked_list_agrees_broken :
    (run (linkedStep plainLibvirtd .default) Linked.init brokenRun).callbacks =
        [⟨2, 0⟩, ⟨0, 0⟩] ∧
      Quiet (run (linkedStep plainLibvirtd .default) Linked.init brokenRun).world.events ∧
      ListAgrees plainLibvirtd
        (run (linkedStep plainLibvirtd .default) Linked.init brokenRun).world.events := by
  have hquiet :
      Quiet (run (linkedStep plainLibvirtd .default) Linked.init brokenRun).world.events := by
    decide
  exact ⟨by decide, hquiet,
    (linked_list_agrees plainLibvirtd .default brokenRun).2 (by decide) hquiet⟩

end Memlink
