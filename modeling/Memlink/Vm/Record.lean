/-!
# VM records and balloon commands

The record `_VirtualMachineInfo` (`memlink_driver.h:117–148`), its creation by `NewVM`
(`memlink_driver.c:70–99`) and the call `SetVmBalloonTarget` (`libvirt_helper.c:524–537`).
Fields that no modelled function reads (`reservMem`, `shareMem`, `balanceMem`, `logged`,
the swap and fault counters of the statistics, the other memory parameters) are left out.
`dom` is the connection's handle for `domid` and is represented by it.
-/

namespace Memlink

/-- `VIR_DOMAIN_RUNNING`, the state code libvirt reports for a running domain. -/
def virDomainRunning : Int16 := 1

/-- `_VmMemoryStats`, in KiB; zero means that the value was not reported. -/
structure VmMemoryStats where
  available : UInt64
  unused : UInt64
  actualBalloon : UInt64
  rss : UInt64
  usable : UInt64
  deriving DecidableEq, Repr

/-- `_VMMemParameters`, reduced to the one parameter the balloon code reads. -/
structure VMMemParameters where
  minGuarantee : UInt64
  deriving DecidableEq, Repr

/-- `_VirtualMachineInfo`. `addr` is the identity of the heap object: two records are the
same object exactly when their addresses agree, and an address is never used twice. -/
structure VirtualMachineInfo where
  addr : Nat
  domid : Int
  domname : String
  memory : Int64
  currentMem : Int64
  memstat : VmMemoryStats
  memparam : VMMemParameters
  enableFpr : Bool
  state : Int16
  balloonTarget : Int64
  currentActualBalloon : Int64 × Int64
  ballooning : Bool
  needBalloonFlag : Int
  balloonI : Int
  ballooningDown : Bool
  incompleteBalloon : Bool
  isWindows : Bool
  lockall : Bool
  refcount : Int
  deriving DecidableEq, Repr

/-- `NewVM`, `memlink_driver.c:70–99`: a zeroed record with one reference and the reclaim
counter armed, so that a VM found at startup can be ballooned. -/
def newVM (addr : Nat) (domid : Int) : VirtualMachineInfo where
  addr := addr
  domid := domid
  domname := ""
  memory := 0
  currentMem := 0
  memstat := ⟨0, 0, 0, 0, 0⟩
  memparam := ⟨0⟩
  enableFpr := false
  state := 0
  balloonTarget := 0
  currentActualBalloon := (0, 0)
  ballooning := false
  needBalloonFlag := 1
  balloonI := 0
  ballooningDown := false
  incompleteBalloon := false
  isWindows := false
  lockall := false
  refcount := 1

/-- The four call sites of `SetVmBalloonTarget`. -/
inductive Site where
  | doBallooning
  | step1
  | step2
  | exit
  deriving DecidableEq, Repr

/-- One call of `SetVmBalloonTarget`: the record passed, as it was then, the target in KiB
and whether libvirt accepted it. -/
structure Command where
  vm : VirtualMachineInfo
  site : Site
  target : UInt64
  accepted : Bool
  deriving DecidableEq, Repr

/-- The commands sent so far, newest first. -/
abbrev Log := List Command

/-- The answers of `virDomainSetMemoryFlags`, by the number of commands sent before. -/
abbrev Libvirt := Nat → Bool

/-- `SetVmBalloonTarget`, `libvirt_helper.c:524–537`: 0 on success, -1 on failure. -/
def setVmBalloonTarget (lib : Libvirt) (site : Site) (vm : VirtualMachineInfo)
    (newTarget : UInt64) (log : Log) : Int × Log :=
  let ok := lib log.length
  (if ok then 0 else -1, ⟨vm, site, newTarget, ok⟩ :: log)

/-- The commands sent for one record. -/
def sentTo (addr : Nat) (log : Log) : Log := log.filter (fun c ↦ c.vm.addr = addr)

/-- The last target libvirt accepted among some commands. -/
def lastAccepted : Log → Option UInt64
  | [] => none
  | c :: log => if c.accepted then some c.target else lastAccepted log

/-- Commands for one record are read off a composed log part by part. -/
theorem sentTo_append (addr : Nat) (xs ys : Log) :
    sentTo addr (xs ++ ys) = sentTo addr xs ++ sentTo addr ys :=
  List.filter_append ..

/-- A command for another record is not among a record's commands. -/
theorem sentTo_eq_nil (addr : Nat) (log : Log) (h : ∀ c ∈ log, c.vm.addr ≠ addr) :
    sentTo addr log = [] := by
  apply List.filter_eq_nil_iff.mpr
  intro c hc
  simpa using h c hc

/-- The commands by which a log has grown. -/
def newCommands (old new : Log) : Log := new.take (new.length - old.length)

/-- What was put in front of a log is what it has grown by. -/
theorem newCommands_append (sent log : Log) : newCommands log (sent ++ log) = sent := by
  unfold newCommands
  rw [List.length_append, Nat.add_sub_cancel, List.take_left]

end Memlink
