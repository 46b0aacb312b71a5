import Memlink.Config.Load
import Memlink.Daemon.Exit
import Memlink.Util.Timing

/-!
# The threads of the daemon

`main` after `Daemonize` (`main.c:124–160`), `CoreInit` and `CoreExit` (`memlink_core.c:320–374`),
`CreateEventThread` (`memlink_core.c:27–57`), the loops of `DomainEventProcessThread`
(`libvirt_helper.c:471–522`) and `BalloonVmMemThread` (`memlink_core.c:268–315`), and the signal
handler (`main.c:83–104`). Each thread has a place in its code; a step takes one thread past
one test, call or locked section. The threads share the stop flag, `g_libvirtChange`, the
semaphore and the VM list, and their steps interleave in any order.
-/

namespace Memlink

open Transition

/-- `SIGHUP`, `SIGINT` and `SIGTERM`. -/
inductive Signal where
  | hup
  | int
  | term
  deriving DecidableEq, Repr

/-- The value that `SignalHandler` stores. -/
def Signal.number : Signal → Int
  | .hup => 1
  | .int => 2
  | .term => 15

/-- `EXIT_SUCCESS` and `EXIT_FAILURE`. -/
inductive ExitCode where
  | success
  | failure
  deriving DecidableEq, Repr

/-- The next thing the main thread does; from `balloonBack` on with the value it returns. -/
inductive MainPhase where
  | setupSignals
  | loadCfg
  | semInit
  | createEvent
  | semWait
  | setStop
  | semDestroy (ret : Int)
  | createBalloon
  | head
  | exchange
  | update
  | balloonBack (ret : ExitCode)
  | freeAll (ret : ExitCode)
  | finish (ret : ExitCode)
  | leave (ret : ExitCode)
  | exited (ret : ExitCode)
  | killed
  deriving DecidableEq, Repr

/-- The next thing the event thread does. -/
inductive ListenerPhase where
  | registerImpl
  | head
  | connect
  | register
  | freeAll
  | collect
  | ready
  | post
  | notify
  | loop
  | cleanup
  | returned
  deriving DecidableEq, Repr

/-- The semaphore of `CreateEventThread`, which lives on its stack. -/
inductive ReadySem where
  | unset
  | live (count : Nat)
  | destroyed
  deriving DecidableEq, Repr

/-- What a run leaves to be seen: the locked sections, the end of `CollectAddCurrentVMs`, and what
passes between the threads. A post says whether there was a semaphore to post. -/
inductive Note where
  | ran (a : Section)
  | collected
  | posted (live : Bool)
  | acquired
  | notified
  | signalled (sig : Signal)

/-- The process. `balloon` and `listener` are `none` before the thread is created; `notes` is the
trace so far, newest first. -/
structure Process where
  daemon : State
  exitLog : Log
  stop : Int
  change : Bool
  sem : ReadySem
  initFlag : Bool
  main : MainPhase
  listener : Option ListenerPhase
  balloon : Option BalloonPc
  notes : List Note

/-- `main` after `Daemonize`. -/
def Process.init : Process :=
  ⟨State.init, [], 0, false, .unset, false, .setupSignals, none, none, []⟩

/-- The configuration file that the daemon finds. -/
structure Boot where
  env : CfgEnv
  errno : Bool

/-- The globals after `LoadCfgFile`. -/
def Boot.settings (b : Boot) : Settings := (loadCfgFile b.env Settings.initial b.errno).1

/-- What `LoadCfgFile` returns. -/
def Boot.loadRet (b : Boot) : Int := (loadCfgFile b.env Settings.initial b.errno).2.1

/-- The percentages of the balloon thread. -/
def Boot.cfg (b : Boot) : BalloonConfig := loadedConfig b.env b.errno

/-- A locked section runs. -/
def Process.enter (s : Process) (b : Boot) (a : Section) : Process :=
  { s with daemon := step b.cfg s.daemon a, notes := .ran a :: s.notes }

/-- Something is noted. -/
def Process.note (s : Process) (n : Note) : Process := { s with notes := n :: s.notes }

/-! ### The main thread -/

/-- The steps of the main thread, with the outcomes of its calls. -/
inductive MainAct where
  | daemonSetupSignals (ok : Bool)
  | loadCfgFile
  | semInit (ok : Bool)
  | createEventThread (ok : Bool)
  | semTimeWait (now : Option Timeval) (r : SemResult)
  | setStop
  | semDestroy
  | createBalloonThread (ok : Bool)
  | testStop
  | exchangeChange
  | updateAllVmInfo (query : VirtualMachineInfo → Option DomainInfo)
  | balloonBackVmMem (lib : Libvirt)
  | freeAllVM
  | setStopAtExit
  | leave

/-- `SemTimeWait` in `CreateEventThread`. It fails if the time is unknown or the wait times out;
an interrupted wait is repeated, and a deadline out of range ends the wait without the
semaphore. -/
def semWaitStep (b : Boot) (s : Process) (now : Option Timeval) (r : SemResult) : Process :=
  match now with
  | none => { s with main := .setStop }
  | some tv =>
    match r with
    | .acquired =>
      match s.sem with
      | .live (n + 1) => { s.note .acquired with sem := .live n, main := .semDestroy 0 }
      | _ => s
    | .interrupted => s
    | .timedOut => { s with main := .setStop }
    | .invalid =>
      if (semDeadline tv b.settings.initSemWaitTimeout).Normalised then s
      else { s with main := .semDestroy 0 }

/-- One step of the main thread; a step that is not its next one does nothing. -/
def mainStep (b : Boot) (s : Process) : MainAct → Process
  | .daemonSetupSignals ok =>
    if s.main = .setupSignals then
      { s with main := if ok then .loadCfg else .finish .failure }
    else s
  | .loadCfgFile =>
    if s.main = .loadCfg then
      { s with main := if b.loadRet < 0 then .finish .failure else .semInit }
    else s
  | .semInit ok =>
    if s.main = .semInit then
      if ok then { s with sem := .live 0, main := .createEvent }
      else { s with main := .balloonBack .failure }
    else s
  | .createEventThread ok =>
    if s.main = .createEvent then
      if ok then { s with listener := some .registerImpl, main := .semWait }
      else { s with main := .semDestroy (-1) }
    else s
  | .semTimeWait now r => if s.main = .semWait then semWaitStep b s now r else s
  | .setStop =>
    if s.main = .setStop then { s with stop := 1, main := .semDestroy (-1) } else s
  | .semDestroy =>
    match s.main with
    | .semDestroy ret =>
      { s with
        sem := .destroyed
        main := if ret < 0 then .balloonBack .failure else .createBalloon }
    | _ => s
  | .createBalloonThread ok =>
    if s.main = .createBalloon then
      if b.settings.balloonEnable = 1 then
        if ok then { s with balloon := some .head, main := .head }
        else { s with main := .balloonBack .failure }
      else { s with main := .head }
    else s
  | .testStop =>
    if s.main = .head then
      { s with main := if s.stop = 0 then .exchange else .balloonBack .success }
    else s
  | .exchangeChange =>
    -- The sleep that ends the loop body reads and writes nothing.
    if s.main = .exchange then
      { s with change := false, main := if s.change then .update else .head }
    else s
  | .updateAllVmInfo query =>
    if s.main = .update then { s.enter b (.updateAllVmInfo query) with main := .head } else s
  | .balloonBackVmMem lib =>
    match s.main with
    | .balloonBack ret =>
      if b.settings.balloonEnable = 1 then
        { s with
          exitLog := balloonBackVmMem lib s.daemon.list.vms s.exitLog
          main := .freeAll ret }
      else { s with main := .freeAll ret }
    | _ => s
  | .freeAllVM =>
    match s.main with
    | .freeAll ret => { s.enter b .freeAllVM with main := .finish ret }
    | _ => s
  | .setStopAtExit =>
    match s.main with
    | .finish ret => { s with stop := 1, main := .leave ret }
    | _ => s
  | .leave =>
    match s.main with
    | .leave ret => { s with main := .exited ret }
    | _ => s

/-! ### The event thread -/

/-- The steps of the event thread, with the outcomes of its calls. -/
inductive ListenerAct where
  | registerDefaultImpl (ok : Bool)
  | testStop
  | connectLibvirt
  | domainEventsRegister (ok : Bool)
  | freeAllVM
  | findAddVMToList (domid : Int) (alloc : Bool) (probe : Option DomainProbe)
  | collected
  | testReady
  | semPost
  | setChange
  | findDeleteVMFromList (name : String)
  | lostConnection
  | domainEventsDeregister

/-- One step of the event thread; a step that is not its next one does nothing. -/
def listenerStep (b : Boot) (s : Process) : ListenerAct → Process
  | .registerDefaultImpl ok =>
    if s.listener = some .registerImpl then
      -- `exit` ends the process, not the thread.
      if ok then { s with listener := some .head } else { s with main := .exited .failure }
    else s
  | .testStop =>
    if s.listener = some .head then
      { s with listener := some (if s.stop = 0 then .connect else .returned) }
    else s
  | .connectLibvirt =>
    if s.listener = some .connect then { s with listener := some .register } else s
  | .domainEventsRegister ok =>
    if s.listener = some .register then
      { s with listener := some (if ok then .freeAll else .cleanup) }
    else s
  | .freeAllVM =>
    if s.listener = some .freeAll then { s.enter b .freeAllVM with listener := some .collect }
    else s
  | .findAddVMToList domid alloc probe =>
    if s.listener = some .collect ∨ s.listener = some .loop then
      s.enter b (.findAddVMToList domid alloc probe)
    else s
  | .collected =>
    if s.listener = some .collect then { s.note .collected with listener := some .ready } else s
  | .testReady =>
    if s.listener = some .ready then
      { s with
        listener := some (if s.initFlag = false ∧ s.stop ≠ 1 then .post else .notify) }
    else s
  | .semPost =>
    if s.listener = some .post then
      match s.sem with
      | .live n =>
        { s.note (.posted true) with
          sem := .live (n + 1), initFlag := true, listener := some .loop }
      | _ => { s.note (.posted false) with initFlag := true, listener := some .loop }
    else s
  | .setChange =>
    if s.listener = some .notify then
      { s.note .notified with change := true, listener := some .loop }
    else s
  | .findDeleteVMFromList name =>
    if s.listener = some .loop then s.enter b (.findDeleteVMFromList name) else s
  | .lostConnection =>
    if s.listener = some .loop then { s with listener := some .cleanup } else s
  | .domainEventsDeregister =>
    if s.listener = some .cleanup then { s with listener := some .head } else s

/-! ### The balloon thread, signals, and the process -/

/-- The steps of the balloon thread. -/
inductive BalloonAct where
  | testStop
  | stats (reply : StatsReply)
  | cycle (lib : Libvirt)

/-- One step of the balloon thread; a step that is not its next one does nothing. -/
def balloonStep (b : Boot) (s : Process) : BalloonAct → Process
  | .testStop =>
    if s.balloon = some .head then
      { s with balloon := some (if s.stop = 0 then .entered else .stopped) }
    else s
  | .stats reply =>
    if s.balloon = some .entered then
      { s.enter b (.updateAllVmInfoAndMemoryStats reply) with balloon := some .sampled }
    else s
  | .cycle lib =>
    if s.balloon = some .sampled then
      { s.enter b (.balloonCycle lib) with balloon := some .head }
    else s

/-- `SignalHandler`; before it is installed a signal kills the process. -/
def signalStep (s : Process) (sig : Signal) : Process :=
  if s.main = .setupSignals then { s with main := .killed }
  else { s.note (.signalled sig) with stop := sig.number }

/-- A step of one of the threads, or a signal. -/
inductive ThreadAct where
  | main (a : MainAct)
  | listener (a : ListenerAct)
  | balloon (a : BalloonAct)
  | signal (sig : Signal)

/-- The process is gone, and all its threads with it. -/
def MainPhase.ended : MainPhase → Bool
  | .exited _ => true
  | .killed => true
  | _ => false

/-- One step of the process. -/
def threadStep (b : Boot) (s : Process) (a : ThreadAct) : Process :=
  if s.main.ended then s
  else
    match a with
    | .main a => mainStep b s a
    | .listener a => listenerStep b s a
    | .balloon a => balloonStep b s a
    | .signal sig => signalStep s sig

/-! ### What one step does -/

/-- The moves of the main thread that write nothing else. -/
inductive MainGoto (b : Boot) (stop : Int) : MainPhase → MainPhase → Prop where
  | setup : MainGoto b stop .setupSignals .loadCfg
  | setupFails : MainGoto b stop .setupSignals (.finish .failure)
  | load : MainGoto b stop .loadCfg .semInit
  | loadFails : MainGoto b stop .loadCfg (.finish .failure)
  | semInitFails : MainGoto b stop .semInit (.balloonBack .failure)
  | createEventFails : MainGoto b stop .createEvent (.semDestroy (-1))
  | waitFails : MainGoto b stop .semWait .setStop
  | balloonOff : b.settings.balloonEnable ≠ 1 → MainGoto b stop .createBalloon .head
  | createBalloonFails : MainGoto b stop .createBalloon (.balloonBack .failure)
  | loop : stop = 0 → MainGoto b stop .head .exchange
  | stopped : stop ≠ 0 → MainGoto b stop .head (.balloonBack .success)
  | backOff (ret : ExitCode) : b.settings.balloonEnable ≠ 1 →
      MainGoto b stop (.balloonBack ret) (.freeAll ret)
  | leave (ret : ExitCode) : MainGoto b stop (.leave ret) (.exited ret)

/-- The moves of the event thread that write nothing else. -/
inductive ListenerGoto (stop : Int) (initFlag : Bool) : ListenerPhase → ListenerPhase → Prop where
  | registered : ListenerGoto stop initFlag .registerImpl .head
  | loop : stop = 0 → ListenerGoto stop initFlag .head .connect
  | stopped : stop ≠ 0 → ListenerGoto stop initFlag .head .returned
  | connected : ListenerGoto stop initFlag .connect .register
  | subscribed : ListenerGoto stop initFlag .register .freeAll
  | registerFails : ListenerGoto stop initFlag .register .cleanup
  | first : initFlag = false → stop ≠ 1 → ListenerGoto stop initFlag .ready .post
  | again : initFlag = true ∨ stop = 1 → ListenerGoto stop initFlag .ready .notify
  | lost : ListenerGoto stop initFlag .loop .cleanup
  | deregistered : ListenerGoto stop initFlag .cleanup .head

/-- The sections that the event thread runs for one domain. -/
inductive Section.OfDomain : Section → Prop where
  | add (domid : Int) (alloc : Bool) (probe : Option DomainProbe) :
      OfDomain (.findAddVMToList domid alloc probe)
  | delete (name : String) : OfDomain (.findDeleteVMFromList name)

/-- The moves of a process, and the step that makes them where it matters. -/
inductive ThreadMoves (b : Boot) (s : Process) : ThreadAct → Process → Prop where
  | goto {a : ThreadAct} (p q : MainPhase) : s.main = p → MainGoto b s.stop p q →
      ThreadMoves b s a { s with main := q }
  | semInit {a : ThreadAct} : s.main = .semInit →
      ThreadMoves b s a { s with sem := .live 0, main := .createEvent }
  | createEvent {a : ThreadAct} : s.main = .createEvent →
      ThreadMoves b s a { s with listener := some .registerImpl, main := .semWait }
  | acquire {a : ThreadAct} (n : Nat) : s.main = .semWait → s.sem = .live (n + 1) →
      ThreadMoves b s a { s.note .acquired with sem := .live n, main := .semDestroy 0 }
  | setStop {a : ThreadAct} : s.main = .setStop →
      ThreadMoves b s a { s with stop := 1, main := .semDestroy (-1) }
  | destroy (ret : Int) : s.main = .semDestroy ret →
      ThreadMoves b s (.main .semDestroy) { s with
        sem := .destroyed
        main := if ret < 0 then .balloonBack .failure else .createBalloon }
  | createBalloon {a : ThreadAct} : s.main = .createBalloon → b.settings.balloonEnable = 1 →
      ThreadMoves b s a { s with balloon := some .head, main := .head }
  | exchange {a : ThreadAct} : s.main = .exchange →
      ThreadMoves b s a { s with change := false, main := if s.change then .update else .head }
  | update {a : ThreadAct} (query : VirtualMachineInfo → Option DomainInfo) : s.main = .update →
      ThreadMoves b s a { s.enter b (.updateAllVmInfo query) with main := .head }
  | balloonBack {a : ThreadAct} (ret : ExitCode) (lib : Libvirt) : s.main = .balloonBack ret →
      b.settings.balloonEnable = 1 →
      ThreadMoves b s a { s with
        exitLog := balloonBackVmMem lib s.daemon.list.vms s.exitLog
        main := .freeAll ret }
  | freeAll {a : ThreadAct} (ret : ExitCode) : s.main = .freeAll ret →
      ThreadMoves b s a { s.enter b .freeAllVM with main := .finish ret }
  | finish {a : ThreadAct} (ret : ExitCode) : s.main = .finish ret →
      ThreadMoves b s a { s with stop := 1, main := .leave ret }
  | listen {a : ThreadAct} (p q : ListenerPhase) : s.listener = some p →
      ListenerGoto s.stop s.initFlag p q → ThreadMoves b s a { s with listener := some q }
  | exit {a : ThreadAct} : s.listener = some .registerImpl →
      ThreadMoves b s a { s with main := .exited .failure }
  | rebuild {a : ThreadAct} : s.listener = some .freeAll →
      ThreadMoves b s a { s.enter b .freeAllVM with listener := some .collect }
  | domain {act : ThreadAct} (a : Section) : s.listener = some .collect ∨ s.listener = some .loop →
      a.OfDomain → ThreadMoves b s act (s.enter b a)
  | collected {a : ThreadAct} : s.listener = some .collect →
      ThreadMoves b s a { s.note .collected with listener := some .ready }
  | post {a : ThreadAct} (n : Nat) : s.listener = some .post → s.sem = .live n →
      ThreadMoves b s a { s.note (.posted true) with
        sem := .live (n + 1), initFlag := true, listener := some .loop }
  | postLost {a : ThreadAct} : s.listener = some .post → (∀ n, s.sem ≠ .live n) →
      ThreadMoves b s a { s.note (.posted false) with initFlag := true, listener := some .loop }
  | notify {a : ThreadAct} : s.listener = some .notify →
      ThreadMoves b s a { s.note .notified with change := true, listener := some .loop }
  | balloonTest {a : ThreadAct} : s.balloon = some .head →
      ThreadMoves b s a { s with balloon := some (if s.stop = 0 then .entered else .stopped) }
  | stats {a : ThreadAct} (reply : StatsReply) : s.balloon = some .entered →
      ThreadMoves b s a
        { s.enter b (.updateAllVmInfoAndMemoryStats reply) with balloon := some .sampled }
  | cycle {a : ThreadAct} (lib : Libvirt) : s.balloon = some .sampled →
      ThreadMoves b s a { s.enter b (.balloonCycle lib) with balloon := some .head }
  | kill {a : ThreadAct} : s.main = .setupSignals → ThreadMoves b s a { s with main := .killed }
  | signal (sig : Signal) : s.main ≠ .setupSignals →
      ThreadMoves b s (.signal sig) { s.note (.signalled sig) with stop := sig.number }

/-- The deadline of the wait is in range, whatever was configured. -/
theorem Boot.deadline_normalised (b : Boot) (tv : Timeval) :
    (semDeadline tv b.settings.initSemWaitTimeout).Normalised := by
  have hrange : b.settings.InRange := loadCfgFile_inRange b.env b.errno Settings.initial_inRange
  have hlo := (hrange .initSemWaitTimeout).1
  refine (semDeadline_spec tv ?_).1
  exact Int32.le_trans (by decide) hlo

section Cases

variable (b : Boot) (s : Process)

private theorem semWaitStep_cases (h : s.main = .semWait) (now : Option Timeval) (r : SemResult) :
    semWaitStep b s now r = s ∨
      ThreadMoves b s (.main (.semTimeWait now r)) (semWaitStep b s now r) := by
  have hfails : ThreadMoves b s (.main (.semTimeWait now r)) { s with main := .setStop } :=
    .goto _ _ h .waitFails
  unfold semWaitStep
  cases now with
  | none => exact .inr hfails
  | some tv =>
    cases r with
    | acquired =>
      dsimp only
      split
      · next n hsem => exact .inr (.acquire n h hsem)
      · exact .inl rfl
    | interrupted => exact .inl rfl
    | timedOut => exact .inr hfails
    | invalid => exact .inl (if_pos (b.deadline_normalised tv))

/-- A step of the main thread does nothing or is one of the moves. -/
theorem mainStep_cases (a : MainAct) :
    mainStep b s a = s ∨ ThreadMoves b s (.main a) (mainStep b s a) := by
  cases a with
  | daemonSetupSignals ok =>
    simp only [mainStep]
    split
    · next h =>
      cases ok with
      | true => exact .inr (.goto _ _ h .setup)
      | false => exact .inr (.goto _ _ h .setupFails)
    · exact .inl rfl
  | loadCfgFile =>
    simp only [mainStep]
    split
    · next h =>
      split
      · exact .inr (.goto _ _ h .loadFails)
      · exact .inr (.goto _ _ h .load)
    · exact .inl rfl
  | semInit ok =>
    simp only [mainStep]
    split
    · next h =>
      cases ok with
      | true => exact .inr (.semInit h)
      | false => exact .inr (.goto _ _ h .semInitFails)
    · exact .inl rfl
  | createEventThread ok =>
    simp only [mainStep]
    split
    · next h =>
      cases ok with
      | true => exact .inr (.createEvent h)
      | false => exact .inr (.goto _ _ h .createEventFails)
    · exact .inl rfl
  | semTimeWait now r =>
    simp only [mainStep]
    split
    · next h => exact semWaitStep_cases b s h now r
    · exact .inl rfl
  | setStop =>
    simp only [mainStep]
    split
    · next h => exact .inr (.setStop h)
    · exact .inl rfl
  | semDestroy =>
    simp only [mainStep]
    split
    · next ret h => exact .inr (.destroy ret h)
    · exact .inl rfl
  | createBalloonThread ok =>
    simp only [mainStep]
    split
    · next h =>
      split
      · next hon =>
        cases ok with
        | true => exact .inr (.createBalloon h hon)
        | false => exact .inr (.goto _ _ h .createBalloonFails)
      · next hoff => exact .inr (.goto _ _ h (.balloonOff hoff))
    · exact .inl rfl
  | testStop =>
    simp only [mainStep]
    split
    · next h =>
      split
      · next hzero => exact .inr (.goto _ _ h (.loop hzero))
      · next hne => exact .inr (.goto _ _ h (.stopped hne))
    · exact .inl rfl
  | exchangeChange =>
    simp only [mainStep]
    split
    · next h => exact .inr (.exchange h)
    · exact .inl rfl
  | updateAllVmInfo query =>
    simp only [mainStep]
    split
    · next h => exact .inr (.update query h)
    · exact .inl rfl
  | balloonBackVmMem lib =>
    simp only [mainStep]
    split
    · next ret h =>
      split
      · next hon => exact .inr (.balloonBack ret lib h hon)
      · next hoff => exact .inr (.goto _ _ h (.backOff ret hoff))
    · exact .inl rfl
  | freeAllVM =>
    simp only [mainStep]
    split
    · next ret h => exact .inr (.freeAll ret h)
    · exact .inl rfl
  | setStopAtExit =>
    simp only [mainStep]
    split
    · next ret h => exact .inr (.finish ret h)
    · exact .inl rfl
  | leave =>
    simp only [mainStep]
    split
    · next ret h => exact .inr (.goto _ _ h (.leave ret))
    · exact .inl rfl

/-- A step of the event thread does nothing or is one of the moves. -/
theorem listenerStep_cases (a : ListenerAct) :
    listenerStep b s a = s ∨ ThreadMoves b s (.listener a) (listenerStep b s a) := by
  cases a with
  | registerDefaultImpl ok =>
    simp only [listenerStep]
    split
    · next h =>
      cases ok with
      | true => exact .inr (.listen _ _ h .registered)
      | false => exact .inr (.exit h)
    · exact .inl rfl
  | testStop =>
    simp only [listenerStep]
    split
    · next h =>
      split
      · next hzero => exact .inr (.listen _ _ h (.loop hzero))
      · next hne => exact .inr (.listen _ _ h (.stopped hne))
    · exact .inl rfl
  | connectLibvirt =>
    simp only [listenerStep]
    split
    · next h => exact .inr (.listen _ _ h .connected)
    · exact .inl rfl
  | domainEventsRegister ok =>
    simp only [listenerStep]
    split
    · next h =>
      cases ok with
      | true => exact .inr (.listen _ _ h .subscribed)
      | false => exact .inr (.listen _ _ h .registerFails)
    · exact .inl rfl
  | freeAllVM =>
    simp only [listenerStep]
    split
    · next h => exact .inr (.rebuild h)
    · exact .inl rfl
  | findAddVMToList domid alloc probe =>
    simp only [listenerStep]
    split
    · next h => exact .inr (.domain _ h (.add domid alloc probe))
    · exact .inl rfl
  | collected =>
    simp only [listenerStep]
    split
    · next h => exact .inr (.collected h)
    · exact .inl rfl
  | testReady =>
    simp only [listenerStep]
    split
    · next h =>
      split
      · next hfirst => exact .inr (.listen _ _ h (.first hfirst.1 hfirst.2))
      · next hagain =>
        refine .inr (.listen _ _ h (.again ?_))
        cases hflag : s.initFlag with
        | true => exact .inl rfl
        | false => exact .inr (Classical.not_not.mp fun hne ↦ hagain ⟨hflag, hne⟩)
    · exact .inl rfl
  | semPost =>
    simp only [listenerStep]
    split
    · next h =>
      split
      · next n hsem => exact .inr (.post n h hsem)
      · next hsem => exact .inr (.postLost h hsem)
    · exact .inl rfl
  | setChange =>
    simp only [listenerStep]
    split
    · next h => exact .inr (.notify h)
    · exact .inl rfl
  | findDeleteVMFromList name =>
    simp only [listenerStep]
    split
    · next h => exact .inr (.domain _ (.inr h) (.delete name))
    · exact .inl rfl
  | lostConnection =>
    simp only [listenerStep]
    split
    · next h => exact .inr (.listen _ _ h .lost)
    · exact .inl rfl
  | domainEventsDeregister =>
    simp only [listenerStep]
    split
    · next h => exact .inr (.listen _ _ h .deregistered)
    · exact .inl rfl

/-- A step of the balloon thread does nothing or is one of the moves. -/
theorem balloonStep_cases (a : BalloonAct) :
    balloonStep b s a = s ∨ ThreadMoves b s (.balloon a) (balloonStep b s a) := by
  cases a with
  | testStop =>
    simp only [balloonStep]
    split
    · next h => exact .inr (.balloonTest h)
    · exact .inl rfl
  | stats reply =>
    simp only [balloonStep]
    split
    · next h => exact .inr (.stats reply h)
    · exact .inl rfl
  | cycle lib =>
    simp only [balloonStep]
    split
    · next h => exact .inr (.cycle lib h)
    · exact .inl rfl

/-- A step of the process does nothing or is one of the moves, and no step follows its end. -/
theorem threadStep_cases (a : ThreadAct) :
    threadStep b s a = s ∨ s.main.ended = false ∧ ThreadMoves b s a (threadStep b s a) := by
  unfold threadStep
  cases hend : s.main.ended with
  | true => exact .inl rfl
  | false =>
    simp only [Bool.false_eq_true, if_false, true_and]
    cases a with
    | main a => exact mainStep_cases b s a
    | listener a => exact listenerStep_cases b s a
    | balloon a => exact balloonStep_cases b s a
    | signal sig =>
      dsimp only [signalStep]
      split
      · next h => exact .inr (.kill h)
      · next h => exact .inr (.signal sig h)

end Cases

/-- Invariant rule of the process: what holds in a state and is kept by every move holds from
then on. -/
theorem process_invariant {b : Boot} {I : Process → Prop} {s : Process} (hinit : I s)
    (hmove : ∀ s a s', s.main.ended = false → ThreadMoves b s a s' → I s → I s')
    (acts : List ThreadAct) : I (run (threadStep b) s acts) := by
  refine Reachable.invariant ⟨acts, rfl⟩ hinit fun s a hs ↦ ?_
  rcases threadStep_cases b s a with he | ⟨hend, hm⟩
  · rw [he]
    exact hs
  · exact hmove s a _ hend hm hs

end Memlink
