import Memlink.Vm.Stats

/-!
# The VM list

`g_vmlistHead` and the functions that insert, reference and release its records
(`memlink_driver.c:101–278`). The list is `LIST_HEAD`-style: insertion is at the head and
a record is unlinked in place. A record is freed by `DeleteVMFromList` only, when its
reference count drops to zero. Released records are kept in `freed` with the contents they
had, newest first: a stale handle reads what the released memory last held.
-/

namespace Memlink

/-- `g_vmlistHead`, with the memory of the records it has released and the next unused
record identity. -/
structure VmList where
  vms : List VirtualMachineInfo
  freed : List VirtualMachineInfo
  count : Int
  nextAddr : Nat
  deriving DecidableEq, Repr

/-- The list of a daemon that has just started. -/
def VmList.empty : VmList := ⟨[], [], 0, 0⟩

/-- What `InitAndCheckVM` learns about a domain it could look up: its name, if libvirt
names it and the copy succeeds, the return codes of `CheckVMHasHugePage` and
`CheckVMIsWindows`, and the answer of `virDomainGetInfo`. -/
structure DomainProbe where
  name : Option String
  hugePage : Int
  windows : Int
  info : Option DomainInfo
  deriving DecidableEq, Repr

/-- `InitAndCheckVM`, `memlink_driver.c:133–180`; `none` is the return code -1. The probe is
`none` when the domain id cannot be looked up. -/
def initAndCheckVM (probe : Option DomainProbe) (v : VirtualMachineInfo) :
    Option VirtualMachineInfo :=
  match probe with
  | none => none
  | some p =>
    match p.name with
    | none => none
    | some name =>
      let v := { v with domname := name }
      if p.hugePage > 0 then none
      else
        let v := if p.windows ≥ 0 then { v with isWindows := decide (p.windows ≠ 0) } else v
        getVmInfo p.info v

/-- `FindAddVMToList`, `memlink_driver.c:182–215`; `alloc` is the success of `calloc`. -/
def findAddVMToList (l : VmList) (domid : Int) (alloc : Bool) (probe : Option DomainProbe) :
    VmList :=
  if l.vms.any (fun v ↦ v.domid = domid) then l
  else if alloc = false then l
  else
    match initAndCheckVM probe (newVM l.nextAddr domid) with
    | none => { l with nextAddr := l.nextAddr + 1 }
    | some v =>
      { l with vms := v :: l.vms, count := l.count + 1, nextAddr := l.nextAddr + 1 }

/-- `DeleteVMFromList`, `memlink_driver.c:217–224`: unlink, count down, free. -/
def deleteVMFromList (l : VmList) (v : VirtualMachineInfo) : VmList :=
  { l with
    vms := l.vms.eraseP (fun w ↦ w.addr = v.addr)
    count := l.count - 1
    freed := v :: l.freed }

/-- One reference fewer. -/
def decRef (v : VirtualMachineInfo) : VirtualMachineInfo := { v with refcount := v.refcount - 1 }

/-- One reference more: `VMInfoRef`, `memlink_driver.c:227–230`. -/
def vmInfoRef (v : VirtualMachineInfo) : VirtualMachineInfo :=
  { v with refcount := v.refcount + 1 }

/-- `VMInfoUnref`, `memlink_driver.c:233–238`, on the record at an address. -/
def vmInfoUnref (l : VmList) (addr : Nat) : VmList :=
  match l.vms.find? (fun v ↦ v.addr = addr) with
  | some v =>
    if (decRef v).refcount = 0 then deleteVMFromList l (decRef v)
    else { l with vms := updateFirst (fun w ↦ w.addr = addr) decRef l.vms }
  | none =>
    match l.freed.find? (fun v ↦ v.addr = addr) with
    | some v =>
      if (decRef v).refcount = 0 then deleteVMFromList l (decRef v)
      else { l with freed := updateFirst (fun w ↦ w.addr = addr) decRef l.freed }
    | none => l

/-- `FindDeleteVMFromList`, `memlink_driver.c:240–252`. -/
def findDeleteVMFromList (l : VmList) (name : String) : VmList :=
  match l.vms.find? (fun v ↦ v.domname = name) with
  | some v => vmInfoUnref l v.addr
  | none => l

/-- `FreeAllVM`, `memlink_driver.c:118–131`: drop one reference of every listed record. The
successor is read before a record may be freed, so the loop visits the list as it was. -/
def freeAllVM (l : VmList) : VmList := (l.vms.map (·.addr)).foldl vmInfoUnref l

/-- `GetRefVMInfoByDomid`, `memlink_driver.c:254–268`, with the handle it returns. -/
def getRefVMInfoByDomid (l : VmList) (domid : Int) : VmList × Option Nat :=
  match l.vms.find? (fun v ↦ v.domid = domid) with
  | some v =>
    ({ l with vms := updateFirst (fun w ↦ w.domid = domid) vmInfoRef l.vms }, some v.addr)
  | none => (l, none)

/-- `PutUnrefVMInfo`, `memlink_driver.c:270–278`. -/
def putUnrefVMInfo (l : VmList) (handle : Option Nat) : VmList :=
  match handle with
  | none => l
  | some addr => vmInfoUnref l addr

/-! ### Well-formed lists -/

/-- Records are distinct objects of distinct domains, identities are used once, and the
counter counts the list. -/
structure VmList.Wf (l : VmList) : Prop where
  addr_nodup : (l.vms.map (·.addr)).Nodup
  domid_nodup : (l.vms.map (·.domid)).Nodup
  addr_lt : ∀ v ∈ l.vms, v.addr < l.nextAddr
  count_eq : l.count = l.vms.length

/-- A new list is well formed. -/
theorem VmList.wf_empty : VmList.empty.Wf :=
  ⟨List.nodup_nil, List.nodup_nil, fun _ h ↦ absurd h List.not_mem_nil, rfl⟩

/-- Changing records without moving them keeps a list well formed. -/
theorem VmList.Wf.map {l : VmList} (h : l.Wf) {f : VirtualMachineInfo → VirtualMachineInfo}
    (haddr : ∀ v, (f v).addr = v.addr) (hdomid : ∀ v, (f v).domid = v.domid) :
    VmList.Wf { l with vms := l.vms.map f } := by
  refine ⟨?_, ?_, fun v hv ↦ ?_, ?_⟩
  · simpa only [List.map_map, Function.comp_def, haddr] using h.addr_nodup
  · simpa only [List.map_map, Function.comp_def, hdomid] using h.domid_nodup
  · obtain ⟨w, hw, rfl⟩ := List.mem_map.mp hv
    rw [haddr]
    exact h.addr_lt w hw
  · simpa using h.count_eq

/-! ### Insertion -/

/-- A record as `FindAddVMToList` inserts it: `NewVM`, then a name, the Windows flag and a
first report. -/
def IsNew (v : VirtualMachineInfo) : Prop :=
  ∃ addr domid name win r,
    v = ({ newVM addr domid with domname := name, isWindows := win }).withReport r

/-- A record that passes `InitAndCheckVM` is new, at its own address and domain id. -/
theorem initAndCheckVM_isNew {probe : Option DomainProbe} {addr : Nat} {domid : Int}
    {v : VirtualMachineInfo} (h : initAndCheckVM probe (newVM addr domid) = some v) :
    IsNew v ∧ v.addr = addr ∧ v.domid = domid ∧ v.refcount = 1 := by
  obtain _ | ⟨name, hugePage, windows, info⟩ := probe
  · cases h
  · obtain _ | name := name
    · cases h
    · simp only [initAndCheckVM] at h
      split at h
      · cases h
      · obtain _ | i := info
        · cases h
        · have hv := (Option.some.inj h).symm
          let r : Report := ⟨i.maxMem.toInt64, i.memory.toInt64, i.state.toUInt16.toInt16,
            ⟨0, 0, 0, 0, 0⟩, false⟩
          by_cases hw : windows ≥ 0
          · simp only [hw, if_true] at hv
            subst hv
            exact ⟨⟨addr, domid, name, decide (windows ≠ 0), r, rfl⟩, rfl, rfl, rfl⟩
          · simp only [hw, if_false] at hv
            subst hv
            exact ⟨⟨addr, domid, name, false, r, rfl⟩, rfl, rfl, rfl⟩

/-- A record that passes `InitAndCheckVM` has the name libvirt gave. -/
theorem initAndCheckVM_domname {p : DomainProbe} {v w : VirtualMachineInfo}
    (h : initAndCheckVM (some p) v = some w) : p.name = some w.domname := by
  obtain ⟨_ | name, hugePage, windows, info⟩ := p
  · cases h
  · simp only [initAndCheckVM] at h
    split at h
    · cases h
    · obtain _ | i := info
      · cases h
      · obtain rfl := Option.some.inj h
        by_cases hw : windows ≥ 0
        · rw [if_pos hw]
        · rw [if_neg hw]

/-- `InitAndCheckVM` stores no statistics. -/
theorem initAndCheckVM_memstat {p : Option DomainProbe} {v w : VirtualMachineInfo}
    (h : initAndCheckVM p v = some w) : w.memstat = v.memstat := by
  obtain _ | ⟨_ | name, hugePage, windows, info⟩ := p
  · cases h
  · cases h
  · simp only [initAndCheckVM] at h
    split at h
    · cases h
    · obtain _ | i := info
      · cases h
      · obtain rfl := Option.some.inj h
        by_cases hw : windows ≥ 0
        · rw [if_pos hw]
        · rw [if_neg hw]

/-- The verdict of `InitAndCheckVM` depends on libvirt's answers only. -/
theorem initAndCheckVM_isSome (p : Option DomainProbe) (v w : VirtualMachineInfo) :
    (initAndCheckVM p v).isSome = (initAndCheckVM p w).isSome := by
  obtain _ | ⟨_ | name, hugePage, windows, _ | i⟩ := p
  · rfl
  · rfl
  · rfl
  · simp only [initAndCheckVM]
    split <;> rfl
  · simp only [initAndCheckVM]
    split <;> rfl

/-- `FindAddVMToList` leaves the list as it is or puts one new record of a new domain at its
head. -/
theorem findAddVMToList_cases (l : VmList) (domid : Int) (alloc : Bool)
    (probe : Option DomainProbe) :
    (∃ n, l.nextAddr ≤ n ∧ findAddVMToList l domid alloc probe = { l with nextAddr := n }) ∨
    ∃ v, initAndCheckVM probe (newVM l.nextAddr domid) = some v ∧
      domid ∉ l.vms.map (·.domid) ∧
      findAddVMToList l domid alloc probe =
        { l with vms := v :: l.vms, count := l.count + 1, nextAddr := l.nextAddr + 1 } := by
  unfold findAddVMToList
  split
  · exact .inl ⟨l.nextAddr, Nat.le_refl _, rfl⟩
  · next hany =>
    split
    · exact .inl ⟨l.nextAddr, Nat.le_refl _, rfl⟩
    · split
      · exact .inl ⟨l.nextAddr + 1, Nat.le_succ _, rfl⟩
      · next v hv =>
        refine .inr ⟨v, hv, fun hm ↦ hany ?_, rfl⟩
        obtain ⟨w, hw, hd⟩ := List.mem_map.mp hm
        exact List.any_eq_true.mpr ⟨w, hw, by simpa using hd⟩

/-- Insertion keeps a list well formed. -/
theorem VmList.Wf.findAdd {l : VmList} (h : l.Wf) (domid : Int) (alloc : Bool)
    (probe : Option DomainProbe) : (findAddVMToList l domid alloc probe).Wf := by
  rcases findAddVMToList_cases l domid alloc probe with ⟨n, hn, he⟩ | ⟨v, hv, hd, he⟩
  · rw [he]
    exact ⟨h.addr_nodup, h.domid_nodup, fun v hv ↦ Nat.lt_of_lt_of_le (h.addr_lt v hv) hn,
      h.count_eq⟩
  · obtain ⟨_, hva, hvd, _⟩ := initAndCheckVM_isNew hv
    rw [he]
    refine ⟨?_, ?_, ?_, ?_⟩
    · rw [List.map_cons, List.nodup_cons]
      refine ⟨fun hm ↦ ?_, h.addr_nodup⟩
      obtain ⟨w, hw, hwa⟩ := List.mem_map.mp hm
      have hlt := h.addr_lt w hw
      omega
    · rw [List.map_cons, List.nodup_cons, hvd]
      exact ⟨hd, h.domid_nodup⟩
    · intro w hw
      change w.addr < l.nextAddr + 1
      rcases List.mem_cons.mp hw with rfl | hw
      · omega
      · have hlt := h.addr_lt w hw
        omega
    · have hc := h.count_eq
      simp only [List.length_cons]
      omega

/-! ### References -/

/-- Dropping a reference of a listed record either releases it or counts it down. -/
theorem vmInfoUnref_eq {l : VmList} (h : l.Wf) {v : VirtualMachineInfo} (hv : v ∈ l.vms) :
    vmInfoUnref l v.addr =
      if v.refcount = 1 then deleteVMFromList l (decRef v)
      else
        { l with vms := l.vms.map (fun w ↦ if w.addr = v.addr then decRef w else w) } := by
  have hfind := find?_eq_some_of_nodup VirtualMachineInfo.addr h.addr_nodup hv
  have hzero : ((decRef v).refcount = 0) = (v.refcount = 1) := by
    apply propext
    change v.refcount - 1 = 0 ↔ v.refcount = 1
    omega
  unfold vmInfoUnref
  rw [hfind]
  simp only [hzero]
  rw [updateFirst_eq_map VirtualMachineInfo.addr v.addr decRef h.addr_nodup]

/-- Unlinking a listed record keeps a list well formed. -/
theorem VmList.Wf.delete {l : VmList} (h : l.Wf) {v : VirtualMachineInfo}
    (hv : v.addr ∈ l.vms.map (·.addr)) : (deleteVMFromList l v).Wf := by
  obtain ⟨w, hw, hwa⟩ := List.mem_map.mp hv
  have hsub := List.eraseP_sublist (p := fun w ↦ decide (w.addr = v.addr)) (l := l.vms)
  refine ⟨h.addr_nodup.sublist (hsub.map _), h.domid_nodup.sublist (hsub.map _),
    fun u hu ↦ h.addr_lt u (hsub.subset hu), ?_⟩
  have hlen := List.length_eraseP_of_mem hw (p := fun w ↦ decide (w.addr = v.addr))
    (by simpa using hwa)
  have hpos := List.length_pos_of_mem hw
  have hc := h.count_eq
  change l.count - 1 = ((l.vms.eraseP _).length : Int)
  omega

/-- Dropping a reference of a listed record keeps a list well formed. -/
theorem VmList.Wf.unref {l : VmList} (h : l.Wf) {a : Nat} (ha : a ∈ l.vms.map (·.addr)) :
    (vmInfoUnref l a).Wf := by
  obtain ⟨v, hv, rfl⟩ := List.mem_map.mp ha
  rw [vmInfoUnref_eq h hv]
  split
  · exact h.delete (v := decRef v) ha
  · apply h.map
    · intro w
      split <;> rfl
    · intro w
      split <;> rfl

/-- Records are only removed, or their reference counts change. -/
structure Shrinks (l l' : VmList) : Prop where
  source : ∀ v' ∈ l'.vms, ∃ v ∈ l.vms, ∃ n, v' = { v with refcount := n }
  nextAddr_eq : l'.nextAddr = l.nextAddr

/-- A list shrinks to itself. -/
theorem Shrinks.refl (l : VmList) : Shrinks l l := ⟨fun v hv ↦ ⟨v, hv, v.refcount, rfl⟩, rfl⟩

/-- Shrinking composes. -/
theorem Shrinks.trans {k l m : VmList} (h : Shrinks k l) (h' : Shrinks l m) : Shrinks k m := by
  refine ⟨fun v hv ↦ ?_, h'.nextAddr_eq.trans h.nextAddr_eq⟩
  obtain ⟨w, hw, n, rfl⟩ := h'.source v hv
  obtain ⟨u, hu, m, rfl⟩ := h.source w hw
  exact ⟨u, hu, n, rfl⟩

/-- Dropping a reference of a listed record shrinks the list. -/
theorem shrinks_unref {l : VmList} (h : l.Wf) {a : Nat} (ha : a ∈ l.vms.map (·.addr)) :
    Shrinks l (vmInfoUnref l a) := by
  obtain ⟨v, hv, rfl⟩ := List.mem_map.mp ha
  rw [vmInfoUnref_eq h hv]
  split
  · exact ⟨fun w hw ↦ ⟨w, List.mem_of_mem_eraseP hw, w.refcount, rfl⟩, rfl⟩
  · refine ⟨fun w hw ↦ ?_, rfl⟩
    obtain ⟨u, hu, rfl⟩ := List.mem_map.mp hw
    by_cases hua : u.addr = v.addr
    · exact ⟨u, hu, u.refcount - 1, if_pos hua⟩
    · exact ⟨u, hu, u.refcount, if_neg hua⟩

/-- Dropping a reference of one record leaves the other addresses listed. -/
theorem mem_addr_unref {l : VmList} (h : l.Wf) {a b : Nat} (ha : a ∈ l.vms.map (·.addr))
    (hb : b ∈ l.vms.map (·.addr)) (hne : b ≠ a) : b ∈ (vmInfoUnref l a).vms.map (·.addr) := by
  obtain ⟨v, hv, rfl⟩ := List.mem_map.mp ha
  obtain ⟨w, hw, rfl⟩ := List.mem_map.mp hb
  rw [vmInfoUnref_eq h hv]
  split
  · have hmem := List.mem_eraseP_of_neg (p := fun u ↦ decide (u.addr = v.addr)) (a := w)
      (l := l.vms) (by simpa only [decide_eq_true_eq] using hne)
    exact List.mem_map.mpr ⟨w, hmem.mpr hw, rfl⟩
  · refine List.mem_map.mpr ⟨w, List.mem_map.mpr ⟨w, hw, ?_⟩, rfl⟩
    exact if_neg hne

private theorem foldl_unref {l : VmList} (h : l.Wf) (as : List Nat) (hnd : as.Nodup)
    (hall : ∀ a ∈ as, a ∈ l.vms.map (·.addr)) :
    (as.foldl vmInfoUnref l).Wf ∧ Shrinks l (as.foldl vmInfoUnref l) := by
  induction as generalizing l with
  | nil => exact ⟨h, Shrinks.refl l⟩
  | cons a as ih =>
    rw [List.nodup_cons] at hnd
    have ha := hall a List.mem_cons_self
    have hrest : ∀ b ∈ as, b ∈ (vmInfoUnref l a).vms.map (·.addr) := by
      intro b hb
      exact mem_addr_unref h ha (hall b (List.mem_cons_of_mem a hb))
        (fun he ↦ hnd.1 (he ▸ hb))
    obtain ⟨hw, hs⟩ := ih (h.unref ha) hnd.2 hrest
    exact ⟨hw, (shrinks_unref h ha).trans hs⟩

/-- `FreeAllVM` keeps a list well formed and shrinks it. -/
theorem freeAllVM_spec {l : VmList} (h : l.Wf) : (freeAllVM l).Wf ∧ Shrinks l (freeAllVM l) :=
  foldl_unref h _ h.addr_nodup (fun _ ha ↦ ha)

/-- `FindDeleteVMFromList` keeps a list well formed and shrinks it. -/
theorem findDeleteVMFromList_spec {l : VmList} (h : l.Wf) (name : String) :
    (findDeleteVMFromList l name).Wf ∧ Shrinks l (findDeleteVMFromList l name) := by
  unfold findDeleteVMFromList
  split
  · next v hv =>
    have ha := List.mem_map_of_mem (f := (·.addr)) (List.mem_of_find?_eq_some hv)
    exact ⟨h.unref ha, shrinks_unref h ha⟩
  · exact ⟨h, Shrinks.refl l⟩

/-! ### Lists without handles -/

/-- No record is referenced by anything but the list. -/
def VmList.Unshared (l : VmList) : Prop := ∀ v ∈ l.vms, v.refcount = 1

/-- Dropping the only reference of a listed record unlinks it. -/
theorem vmInfoUnref_unshared {l : VmList} (h : l.Wf) (hone : l.Unshared)
    {v : VirtualMachineInfo} (hv : v ∈ l.vms) :
    vmInfoUnref l v.addr = deleteVMFromList l (decRef v) := by
  rw [vmInfoUnref_eq h hv, if_pos (hone v hv)]

/-- `FindDeleteVMFromList` unlinks the first record of a name. -/
theorem findDeleteVMFromList_unshared {l : VmList} (h : l.Wf) (hone : l.Unshared)
    (name : String) :
    (findDeleteVMFromList l name).vms = l.vms.eraseP (fun v ↦ v.domname = name) := by
  unfold findDeleteVMFromList
  cases hfind : l.vms.find? (fun v ↦ decide (v.domname = name)) with
  | none =>
    refine (List.eraseP_of_forall_not fun v hv ↦ ?_).symm
    exact List.find?_eq_none.mp hfind v hv
  | some v =>
    dsimp only
    rw [vmInfoUnref_unshared h hone (List.mem_of_find?_eq_some hfind)]
    -- The reference is dropped before the record is unlinked; its address is the same.
    have herase := eraseP_key_of_find? VirtualMachineInfo.addr h.addr_nodup hfind
    exact herase

/-- `FreeAllVM` empties the list. -/
theorem freeAllVM_unshared {l : VmList} (h : l.Wf) (hone : l.Unshared) :
    (freeAllVM l).vms = [] := by
  unfold freeAllVM
  generalize hvms : l.vms = vms
  induction vms generalizing l with
  | nil => exact hvms
  | cons v vms ih =>
    have hv : v ∈ l.vms := hvms ▸ List.mem_cons_self
    rw [List.map_cons, List.foldl_cons, vmInfoUnref_unshared h hone hv]
    have hrest : (deleteVMFromList l (decRef v)).vms = vms := by
      change l.vms.eraseP _ = vms
      rw [hvms]
      exact List.eraseP_cons_of_pos (decide_eq_true rfl)
    have hlisted : v.addr ∈ l.vms.map (·.addr) := List.mem_map_of_mem hv
    refine ih (h.delete (v := decRef v) hlisted) (fun w hw ↦ ?_) hrest
    exact hone w (hvms ▸ List.mem_cons_of_mem v (hrest ▸ hw))

end Memlink
