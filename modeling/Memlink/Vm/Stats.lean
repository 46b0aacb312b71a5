import Memlink.Base.Traverse
import Memlink.Vm.Record

/-!
# Statistics and domain information

What libvirt reports about a domain and how it is stored in the records:
`GetVmInfo` (`libvirt_helper.c:169–190`), `GetAllDomainsStats` with its helpers
(`libvirt_helper.c:219–307`), the validity check `CheckVmMemoryStat`
(`libvirt_helper.c:372–392`) and `UpdateAllVmInfo` (`memlink_driver.c:297–308`).
-/

namespace Memlink

/-- The part of `virDomainInfo` that is read; sizes in KiB. -/
structure DomainInfo where
  state : UInt8
  maxMem : UInt64
  memory : UInt64
  deriving DecidableEq, Repr

/-- The parameter names `GetOneDomainStats` tells apart with `strcmp`. -/
inductive StatField where
  | stateState
  | balloonCurrent
  | balloonMaximum
  | balloonAvailable
  | balloonUsable
  | balloonUnused
  | balloonRss
  | balloonDiskCaches
  | other
  deriving DecidableEq, Repr

/-- A `virTypedParameter`. `value` holds the eight bytes of the value union. -/
structure TypedParameter where
  field : StatField
  value : UInt64
  deriving DecidableEq, Repr

/-- The `int` member of the value union: its low four bytes. -/
def TypedParameter.valueI (p : TypedParameter) : Int32 := p.value.toUInt32.toInt32

/-- A `virDomainStatsRecord`: the domain's id and its parameters. -/
structure DomainStatsRecord where
  domid : Int
  params : List TypedParameter
  deriving DecidableEq, Repr

/-- What `GetAllDomainsStats` meets: no connection, a failing call, or records. -/
inductive StatsReply where
  | noConnection
  | failed
  | records (rs : List DomainStatsRecord)
  deriving DecidableEq, Repr

/-- `ENABLED_FPR_FLAG`. -/
def enabledFprFlag : UInt64 := 0x1

/-- `CheckVmMemoryStat`: 0 when `actualBalloon`, `available` and one of `usable` and
`unused` are reported, -1 otherwise. -/
def checkVmMemoryStat (v : VirtualMachineInfo) : Int :=
  if v.memstat.actualBalloon = 0 ∨ v.memstat.available = 0 then -1
  else if v.memstat.usable = 0 ∧ v.memstat.unused = 0 then -1
  else 0

/-- `GetVmInfo`: store the answer of `virDomainGetInfo`, if there is one. -/
def getVmInfo (info : Option DomainInfo) (v : VirtualMachineInfo) :
    Option VirtualMachineInfo :=
  match info with
  | none => none
  | some i =>
    some { v with
      memory := i.maxMem.toInt64
      currentMem := i.memory.toInt64
      state := i.state.toUInt16.toInt16 }

/-- `UpdateAllVmInfo`: a record whose query fails keeps its values. -/
def updateAllVmInfo (query : VirtualMachineInfo → Option DomainInfo)
    (vms : List VirtualMachineInfo) : List VirtualMachineInfo :=
  vms.map (fun v ↦ (getVmInfo (query v) v).getD v)

/-- One iteration of the parameter loop of `GetOneDomainStats`. -/
def storeParam (v : VirtualMachineInfo) (p : TypedParameter) : VirtualMachineInfo :=
  match p.field with
  | .stateState => { v with state := p.valueI.toInt16 }
  | .balloonCurrent =>
    { v with
      currentMem := p.value.toInt64
      memstat := { v.memstat with actualBalloon := p.value } }
  | .balloonMaximum => { v with memory := p.value.toInt64 }
  | .balloonAvailable => { v with memstat := { v.memstat with available := p.value } }
  | .balloonUsable => { v with memstat := { v.memstat with usable := p.value } }
  | .balloonUnused => { v with memstat := { v.memstat with unused := p.value } }
  | .balloonRss => { v with memstat := { v.memstat with rss := p.value } }
  | .balloonDiskCaches =>
    if (p.value &&& enabledFprFlag) > 0 then { v with enableFpr := true } else v
  | .other => v

/-- `GetOneDomainStats`: store the parameters in the first record of that domain id. -/
def getOneDomainStats (vms : List VirtualMachineInfo) (r : DomainStatsRecord) :
    List VirtualMachineInfo :=
  updateFirst (fun v ↦ v.domid = r.domid) (fun v ↦ r.params.foldl storeParam v) vms

/-- The loop body of `ClearAllDomainStats`. -/
def clearStats (v : VirtualMachineInfo) : VirtualMachineInfo :=
  { v with
    memstat := { v.memstat with
      actualBalloon := 0, available := 0, usable := 0, unused := 0, rss := 0 }
    enableFpr := false }

/-- `GetAllDomainsStats`: clear everything, then store what was reported. Without a
connection it returns before clearing. -/
def getAllDomainsStats (reply : StatsReply) (vms : List VirtualMachineInfo) :
    List VirtualMachineInfo :=
  match reply with
  | .noConnection => vms
  | .failed => vms.map clearStats
  | .records rs => rs.foldl getOneDomainStats (vms.map clearStats)

/-! ### What a refresh can change -/

/-- The fields of a record that libvirt's reports overwrite. -/
structure Report where
  memory : Int64
  currentMem : Int64
  state : Int16
  memstat : VmMemoryStats
  enableFpr : Bool
  deriving DecidableEq, Repr

/-- The report a record holds. -/
def VirtualMachineInfo.report (v : VirtualMachineInfo) : Report :=
  ⟨v.memory, v.currentMem, v.state, v.memstat, v.enableFpr⟩

/-- A record with its report replaced and every other field kept. -/
def VirtualMachineInfo.withReport (v : VirtualMachineInfo) (r : Report) :
    VirtualMachineInfo :=
  { v with
    memory := r.memory
    currentMem := r.currentMem
    state := r.state
    memstat := r.memstat
    enableFpr := r.enableFpr }

/-- The last of several reports counts. -/
theorem VirtualMachineInfo.withReport_withReport (v : VirtualMachineInfo) (r t : Report) :
    (v.withReport r).withReport t = v.withReport t := rfl

/-- One parameter changes the report only. -/
theorem storeParam_eq_withReport (v : VirtualMachineInfo) (p : TypedParameter) :
    ∃ r, storeParam v p = v.withReport r := by
  refine ⟨(storeParam v p).report, ?_⟩
  unfold storeParam
  cases p.field with
  | balloonDiskCaches =>
    dsimp only
    split
    · rfl
    · rfl
  | _ => rfl

/-- All parameters of one stats record together change the report only. -/
theorem foldl_storeParam_eq_withReport (ps : List TypedParameter) (v : VirtualMachineInfo) :
    ∃ r, ps.foldl storeParam v = v.withReport r := by
  induction ps generalizing v with
  | nil => exact ⟨v.report, rfl⟩
  | cons p ps ih =>
    obtain ⟨r, hr⟩ := storeParam_eq_withReport v p
    obtain ⟨t, ht⟩ := ih (storeParam v p)
    exact ⟨t, by rw [List.foldl_cons, ht, hr, v.withReport_withReport]⟩

/-- Clearing changes the report only. -/
theorem clearStats_eq_withReport (v : VirtualMachineInfo) :
    ∃ r, clearStats v = v.withReport r := ⟨(clearStats v).report, rfl⟩

/-! ### A refresh, record by record -/

/-- What one stats record does to a listed record. -/
def refreshOne (v : VirtualMachineInfo) (r : DomainStatsRecord) : VirtualMachineInfo :=
  if v.domid = r.domid then r.params.foldl storeParam v else v

/-- What a whole reply does to a listed record. -/
def refresh (reply : StatsReply) (v : VirtualMachineInfo) : VirtualMachineInfo :=
  match reply with
  | .noConnection => v
  | .failed => clearStats v
  | .records rs => rs.foldl refreshOne (clearStats v)

/-- One stats record changes the report only. -/
theorem refreshOne_eq_withReport (v : VirtualMachineInfo) (r : DomainStatsRecord) :
    ∃ t, refreshOne v r = v.withReport t := by
  unfold refreshOne
  split
  · exact foldl_storeParam_eq_withReport r.params v
  · exact ⟨v.report, rfl⟩

private theorem foldl_refreshOne_eq_withReport (rs : List DomainStatsRecord)
    (v : VirtualMachineInfo) : ∃ t, rs.foldl refreshOne v = v.withReport t := by
  induction rs generalizing v with
  | nil => exact ⟨v.report, rfl⟩
  | cons r rs ih =>
    obtain ⟨t, ht⟩ := refreshOne_eq_withReport v r
    obtain ⟨u, hu⟩ := ih (refreshOne v r)
    exact ⟨u, by rw [List.foldl_cons, hu, ht, v.withReport_withReport]⟩

/-- A reply changes the report only. -/
theorem refresh_eq_withReport (reply : StatsReply) (v : VirtualMachineInfo) :
    ∃ t, refresh reply v = v.withReport t := by
  cases reply with
  | noConnection => exact ⟨v.report, rfl⟩
  | failed => exact clearStats_eq_withReport v
  | records rs =>
    obtain ⟨t, ht⟩ := foldl_refreshOne_eq_withReport rs (clearStats v)
    exact ⟨t, ht⟩

private theorem domid_refreshOne (v : VirtualMachineInfo) (r : DomainStatsRecord) :
    (refreshOne v r).domid = v.domid := by
  obtain ⟨t, ht⟩ := refreshOne_eq_withReport v r
  rw [ht]
  rfl

private theorem foldl_getOneDomainStats (rs : List DomainStatsRecord)
    (vms : List VirtualMachineInfo) (hnd : (vms.map (·.domid)).Nodup) :
    rs.foldl getOneDomainStats vms = vms.map (fun v ↦ rs.foldl refreshOne v) := by
  induction rs generalizing vms with
  | nil => exact (List.map_id vms).symm
  | cons r rs ih =>
    have hone : getOneDomainStats vms r = vms.map (fun v ↦ refreshOne v r) :=
      updateFirst_eq_map VirtualMachineInfo.domid r.domid _ hnd
    have hkeys : (vms.map (fun v ↦ refreshOne v r)).map (·.domid) = vms.map (·.domid) := by
      simp only [List.map_map, Function.comp_def, domid_refreshOne]
    rw [List.foldl_cons, hone, ih _ (hkeys ▸ hnd), List.map_map]
    rfl

/-- With distinct domain ids, the nested loops of `GetAllDomainsStats` treat every record
on its own. -/
theorem getAllDomainsStats_eq_map (reply : StatsReply) (vms : List VirtualMachineInfo)
    (hnd : (vms.map (·.domid)).Nodup) :
    getAllDomainsStats reply vms = vms.map (refresh reply) := by
  cases reply with
  | noConnection => exact (List.map_id vms).symm
  | failed => rfl
  | records rs =>
    have hkeys : (vms.map clearStats).map (·.domid) = vms.map (·.domid) := by
      simp only [List.map_map, Function.comp_def, clearStats]
    have hfold := foldl_getOneDomainStats rs (vms.map clearStats) (hkeys ▸ hnd)
    rw [List.map_map] at hfold
    exact hfold

/-- A failed query keeps the report, an answer replaces the sizes and the state in it. -/
theorem getVmInfo_getD_eq_withReport (info : Option DomainInfo) (v : VirtualMachineInfo) :
    ∃ t, t.memstat = v.memstat ∧ t.enableFpr = v.enableFpr ∧
      (getVmInfo info v).getD v = v.withReport t := by
  cases info with
  | none => exact ⟨v.report, rfl, rfl, rfl⟩
  | some i => exact ⟨((getVmInfo (some i) v).getD v).report, rfl, rfl, rfl⟩

end Memlink
