import Memlink.Vm.Stats

/-!
# What a statistics refresh stores

`GetAllDomainsStats` (`libvirt_helper.c:279–307`) field by field: `reported` says which value
each field of a listed record has after a reply, in terms of the parameters of its domain
alone, whatever their number and order.
-/

namespace Memlink

/-- The parameters that a reply holds for a domain, in the order they are read. -/
def paramsFor (rs : List DomainStatsRecord) (domid : Int) : List TypedParameter :=
  (rs.filter (fun r ↦ r.domid = domid)).flatMap (·.params)

/-- The value of the last parameter of a name, or a default if there is none. -/
def lastValue {α : Type} (f : StatField) (value : TypedParameter → α) (ps : List TypedParameter)
    (default : α) : α :=
  ((ps.filter (fun p ↦ p.field = f)).getLast?.map value).getD default

/-- Some `balloon.disk_caches` parameter has bit 0 set. -/
def fprReported (ps : List TypedParameter) : Bool :=
  ps.any (fun p ↦ p.field = .balloonDiskCaches && p.value.toNat.testBit 0)

/-- A record after a reply with the parameters `ps` for its domain: the five statistics are
the last value or 0, the sizes and the state the last value or the previous one. -/
def reported (ps : List TypedParameter) (v : VirtualMachineInfo) : VirtualMachineInfo :=
  { v with
    state := lastValue .stateState (·.valueI.toInt16) ps v.state
    currentMem := lastValue .balloonCurrent (·.value.toInt64) ps v.currentMem
    memory := lastValue .balloonMaximum (·.value.toInt64) ps v.memory
    memstat :=
      { actualBalloon := lastValue .balloonCurrent (·.value) ps 0
        available := lastValue .balloonAvailable (·.value) ps 0
        usable := lastValue .balloonUsable (·.value) ps 0
        unused := lastValue .balloonUnused (·.value) ps 0
        rss := lastValue .balloonRss (·.value) ps 0 }
    enableFpr := fprReported ps }

/-! ### The parameter loop -/

/-- The first parameter only matters as a default for the others. -/
theorem lastValue_cons {α : Type} (f : StatField) (value : TypedParameter → α)
    (p : TypedParameter) (ps : List TypedParameter) (d : α) :
    lastValue f value (p :: ps) d =
      lastValue f value ps (if p.field = f then value p else d) := by
  unfold lastValue
  rw [List.filter_cons]
  by_cases hp : p.field = f
  · rw [if_pos (decide_eq_true hp), if_pos hp, List.getLast?_cons]
    cases (ps.filter (fun p ↦ decide (p.field = f))).getLast? with
    | none => rfl
    | some q => rfl
  · rw [if_neg (by simpa using hp), if_neg hp]

/-- The flag test of the source reads bit 0. -/
theorem fprFlag_iff (x : UInt64) : (x &&& enabledFprFlag) > 0 ↔ x.toNat.testBit 0 = true := by
  have hval : (x &&& enabledFprFlag).toNat = x.toNat % 2 := by
    rw [UInt64.toNat_and]
    exact Nat.and_one_is_mod x.toNat
  rw [gt_iff_lt, UInt64.lt_iff_toNat_lt, hval, Nat.testBit_zero, decide_eq_true_iff]
  change 0 < x.toNat % 2 ↔ _
  omega

private def stored (ps : List TypedParameter) (v : VirtualMachineInfo) : VirtualMachineInfo :=
  { v with
    state := lastValue .stateState (·.valueI.toInt16) ps v.state
    currentMem := lastValue .balloonCurrent (·.value.toInt64) ps v.currentMem
    memory := lastValue .balloonMaximum (·.value.toInt64) ps v.memory
    memstat :=
      { actualBalloon := lastValue .balloonCurrent (·.value) ps v.memstat.actualBalloon
        available := lastValue .balloonAvailable (·.value) ps v.memstat.available
        usable := lastValue .balloonUsable (·.value) ps v.memstat.usable
        unused := lastValue .balloonUnused (·.value) ps v.memstat.unused
        rss := lastValue .balloonRss (·.value) ps v.memstat.rss }
    enableFpr := v.enableFpr || fprReported ps }

private theorem stored_cons (p : TypedParameter) (ps : List TypedParameter)
    (v : VirtualMachineInfo) : stored (p :: ps) v = stored ps (storeParam v p) := by
  unfold stored fprReported
  simp only [lastValue_cons, List.any_cons]
  unfold storeParam
  cases hf : p.field with
  | balloonDiskCaches =>
    dsimp only
    by_cases hbit : (p.value &&& enabledFprFlag) > 0
    · simp [hbit, (fprFlag_iff p.value).mp hbit]
    · have hclear : p.value.toNat.testBit 0 = false := by
        simpa using (not_congr (fprFlag_iff p.value)).mp hbit
      simp [hbit, hclear]
  | _ => simp

private theorem foldl_storeParam (ps : List TypedParameter) (v : VirtualMachineInfo) :
    ps.foldl storeParam v = stored ps v := by
  induction ps generalizing v with
  | nil => simp [stored, lastValue, fprReported]
  | cons p ps ih => rw [List.foldl_cons, ih, stored_cons]

/-- The records of a reply are read as one list of parameters of the record's domain. -/
theorem foldl_refreshOne (rs : List DomainStatsRecord) (v : VirtualMachineInfo) :
    rs.foldl refreshOne v = (paramsFor rs v.domid).foldl storeParam v := by
  induction rs generalizing v with
  | nil => rfl
  | cons r rs ih =>
    obtain ⟨t, ht⟩ := refreshOne_eq_withReport v r
    have hdomid : (refreshOne v r).domid = v.domid := by
      rw [ht]
      rfl
    rw [List.foldl_cons, ih, hdomid]
    unfold paramsFor refreshOne
    rw [List.filter_cons]
    by_cases hd : v.domid = r.domid
    · rw [if_pos hd, if_pos (by simpa using hd.symm), List.flatMap_cons, List.foldl_append]
    · rw [if_neg hd, if_neg (by simpa using fun h ↦ hd h.symm)]

/-- A successful reply leaves every record as `reported` says. -/
theorem refresh_records (rs : List DomainStatsRecord) (v : VirtualMachineInfo) :
    refresh (.records rs) v = reported (paramsFor rs v.domid) v := by
  change rs.foldl refreshOne (clearStats v) = _
  rw [foldl_refreshOne, foldl_storeParam]
  unfold stored reported clearStats
  simp only [Bool.false_or]

/-- With a valid sample the current memory is the sampled balloon size: one parameter feeds
both. -/
theorem currentMem_of_valid {ps : List TypedParameter} {v : VirtualMachineInfo}
    (h : checkVmMemoryStat (reported ps v) = 0) :
    (reported ps v).currentMem = (reported ps v).memstat.actualBalloon.toInt64 := by
  have hne : (reported ps v).memstat.actualBalloon ≠ 0 := by
    intro hz
    simp [checkVmMemoryStat, hz] at h
  unfold reported lastValue at hne ⊢
  dsimp only at hne ⊢
  cases hl : (ps.filter (fun p ↦ decide (p.field = .balloonCurrent))).getLast? with
  | none => simp [hl] at hne
  | some p => rfl

/-- The refresh is exact. With a connection, for every list with distinct domain ids and every
reply, each record is as `reported` says; a failing call clears the statistics and nothing
else; and a record with valid statistics has its balloon size as its current memory. -/
theorem getAllDomainsStats_exact (vms : List VirtualMachineInfo)
    (hnd : (vms.map (·.domid)).Nodup) :
    (∀ rs, getAllDomainsStats (.records rs) vms =
      vms.map (fun v ↦ reported (paramsFor rs v.domid) v)) ∧
    getAllDomainsStats .failed vms =
      vms.map (fun v ↦ { v with memstat := ⟨0, 0, 0, 0, 0⟩, enableFpr := false }) ∧
    ∀ reply, reply ≠ .noConnection → ∀ v ∈ getAllDomainsStats reply vms,
      checkVmMemoryStat v = 0 → v.currentMem = v.memstat.actualBalloon.toInt64 := by
  have hrecords : ∀ rs, getAllDomainsStats (.records rs) vms =
      vms.map (fun v ↦ reported (paramsFor rs v.domid) v) := by
    intro rs
    rw [getAllDomainsStats_eq_map _ vms hnd]
    exact List.map_congr_left fun v _ ↦ refresh_records rs v
  refine ⟨hrecords, rfl, fun reply hconn v hv hvalid ↦ ?_⟩
  cases reply with
  | noConnection => exact absurd rfl hconn
  | failed =>
    obtain ⟨w, _, rfl⟩ := List.mem_map.mp hv
    simp [checkVmMemoryStat, clearStats] at hvalid
  | records rs =>
    rw [hrecords] at hv
    obtain ⟨w, _, rfl⟩ := List.mem_map.mp hv
    exact currentMem_of_valid hvalid

/-- Two guests, one of them unknown to the reply; the repeated parameter counts last. -/
theorem getAllDomainsStats_exact_repeated :
    getAllDomainsStats
        (.records [⟨1, [⟨.balloonCurrent, 7⟩, ⟨.other, 3⟩, ⟨.balloonDiskCaches, 2⟩]⟩,
          ⟨9, [⟨.balloonCurrent, 4⟩]⟩, ⟨1, [⟨.balloonCurrent, 8⟩]⟩])
        [newVM 0 1, newVM 1 2] =
      [{ newVM 0 1 with currentMem := 8, memstat := ⟨0, 0, 8, 0, 0⟩ }, newVM 1 2] := by
  rw [(getAllDomainsStats_exact [newVM 0 1, newVM 1 2] (by decide)).1]
  decide

end Memlink
