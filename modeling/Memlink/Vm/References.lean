import Memlink.Base.Transition
import Memlink.Vm.VmList

/-!
# Reference accounting

Runs of the five operations that move reference counts: insertion, deletion by name,
`FreeAllVM`, and the pair `GetRefVMInfoByDomid` and `PutUnrefVMInfo`. A state keeps, beside the
list, the handles handed out and not yet put, and the records whose list reference was dropped.
-/

namespace Memlink

open Transition

/-- The list, the outstanding handles, and the records on which a deletion or `FreeAllVM` has
dropped the reference that the list holds. -/
structure RefState where
  list : VmList
  handles : List Nat
  dropped : List Nat

/-- The operations. -/
inductive RefOp where
  | findAddVMToList (domid : Int) (alloc : Bool) (probe : Option DomainProbe)
  | findDeleteVMFromList (name : String)
  | freeAllVM
  | getRefVMInfoByDomid (domid : Int)
  | putUnrefVMInfo (handle : Nat)

/-- No record and no handle. -/
def RefState.init : RefState := ⟨VmList.empty, [], []⟩

/-- The record that `FindDeleteVMFromList` finds. -/
def findByName (l : VmList) (name : String) : Option VirtualMachineInfo :=
  l.vms.find? (fun v ↦ v.domname = name)

/-- One operation. A handle is put at most once: putting one that is not outstanding is not a
step of any caller. -/
def refStep (s : RefState) : RefOp → RefState
  | .findAddVMToList domid alloc probe =>
    { s with list := findAddVMToList s.list domid alloc probe }
  | .findDeleteVMFromList name =>
    { s with
      list := findDeleteVMFromList s.list name
      dropped := ((findByName s.list name).map (·.addr)).toList ++ s.dropped }
  | .freeAllVM =>
    { s with
      list := freeAllVM s.list
      dropped := (s.list.vms.map (·.addr)).reverse ++ s.dropped }
  | .getRefVMInfoByDomid domid =>
    let r := getRefVMInfoByDomid s.list domid
    { s with list := r.1, handles := r.2.toList ++ s.handles }
  | .putUnrefVMInfo handle =>
    if handle ∈ s.handles then
      { s with
        list := putUnrefVMInfo s.list (some handle)
        handles := s.handles.erase handle }
    else s

/-- Every record is released at most once, after its list reference was dropped and with no
handle outstanding, and the counter counts the list. -/
def RefSafe (s : RefState) : Prop :=
  (s.list.freed.map (·.addr)).Nodup ∧
    (∀ v ∈ s.list.freed, v.addr ∈ s.dropped ∧ v.addr ∉ s.handles) ∧
    s.list.count = s.list.vms.length

instance (s : RefState) : Decidable (RefSafe s) :=
  inferInstanceAs (Decidable ((s.list.freed.map (·.addr)).Nodup ∧
    (∀ v ∈ s.list.freed, v.addr ∈ s.dropped ∧ v.addr ∉ s.handles) ∧
    s.list.count = s.list.vms.length))

/-- What the count of a record stands for: the list's own reference and the handles. -/
def owed (handles dropped : List Nat) (addr : Nat) : Int :=
  (if addr ∈ dropped then 0 else 1) + (handles.count addr : Int)

/-- The accounting. -/
structure RefInv (s : RefState) : Prop where
  wf : s.list.Wf
  refcount_eq : ∀ v ∈ s.list.vms, v.refcount = owed s.handles s.dropped v.addr
  refcount_pos : ∀ v ∈ s.list.vms, 0 < v.refcount
  handle_listed : ∀ a ∈ s.handles, a ∈ s.list.vms.map (·.addr)
  dropped_lt : ∀ a ∈ s.dropped, a < s.list.nextAddr
  freed_nodup : (s.list.freed.map (·.addr)).Nodup
  freed_dropped : ∀ v ∈ s.list.freed, v.addr ∈ s.dropped
  freed_unlisted : ∀ v ∈ s.list.freed, v.addr ∉ s.list.vms.map (·.addr)

/-- The accounting makes every release safe. -/
theorem RefInv.safe {s : RefState} (h : RefInv s) : RefSafe s :=
  ⟨h.freed_nodup,
    fun v hv ↦ ⟨h.freed_dropped v hv, fun hh ↦ h.freed_unlisted v hv (h.handle_listed _ hh)⟩,
    h.wf.count_eq⟩

private theorem owed_congr {handles handles' dropped dropped' : List Nat} {a : Nat}
    (hh : handles'.count a = handles.count a) (hd : a ∈ dropped' ↔ a ∈ dropped) :
    owed handles' dropped' a = owed handles dropped a := by
  unfold owed
  rw [hh]
  by_cases h : a ∈ dropped
  · rw [if_pos h, if_pos (hd.mpr h)]
  · rw [if_neg h, if_neg (fun h' ↦ h (hd.mp h'))]

section Unref

variable {s : RefState} {v : VirtualMachineInfo} {handles' dropped' : List Nat}

private theorem handle_listed_of_ne (h : RefInv s)
    (hh : ∀ a, a ≠ v.addr → handles'.count a = s.handles.count a) {a : Nat} (ha : a ∈ handles')
    (hne : a ≠ v.addr) : a ∈ s.list.vms.map (·.addr) := by
  apply h.handle_listed
  rw [← List.count_pos_iff, ← hh a hne]
  exact List.count_pos_iff.mpr ha

private theorem dropped_lt_of_ne (h : RefInv s) (hv : v ∈ s.list.vms)
    (hd : ∀ a, a ≠ v.addr → (a ∈ dropped' ↔ a ∈ s.dropped)) {a : Nat} (ha : a ∈ dropped') :
    a < s.list.nextAddr := by
  by_cases he : a = v.addr
  · rw [he]
    exact h.wf.addr_lt v hv
  · exact h.dropped_lt a ((hd a he).mp ha)

private theorem freed_dropped_of_ne (h : RefInv s) (hv : v ∈ s.list.vms)
    (hd : ∀ a, a ≠ v.addr → (a ∈ dropped' ↔ a ∈ s.dropped)) {w : VirtualMachineInfo}
    (hw : w ∈ s.list.freed) : w.addr ∈ dropped' := by
  have hne : w.addr ≠ v.addr := fun he ↦
    h.freed_unlisted w hw (he ▸ List.mem_map_of_mem hv)
  exact (hd _ hne).mpr (h.freed_dropped w hw)

private theorem refInv_release (h : RefInv s) (hv : v ∈ s.list.vms)
    (howed : owed handles' dropped' v.addr = 0)
    (hh : ∀ a, a ≠ v.addr → handles'.count a = s.handles.count a)
    (hd : ∀ a, a ≠ v.addr → (a ∈ dropped' ↔ a ∈ s.dropped)) :
    RefInv ⟨deleteVMFromList s.list (decRef v), handles', dropped'⟩ := by
  have hlisted : v.addr ∈ s.list.vms.map (·.addr) := List.mem_map_of_mem hv
  have hgone := not_mem_map_eraseP VirtualMachineInfo.addr h.wf.addr_nodup v.addr
  have hdropped : v.addr ∈ dropped' := by
    unfold owed at howed
    split at howed
    · assumption
    · omega
  have hnone : v.addr ∉ handles' := by
    intro hm
    have hpos := List.count_pos_iff.mpr hm
    unfold owed at howed
    split at howed <;> omega
  have hother : ∀ w ∈ (deleteVMFromList s.list (decRef v)).vms,
      w ∈ s.list.vms ∧ w.addr ≠ v.addr := by
    intro w hw
    exact ⟨List.mem_of_mem_eraseP hw, fun he ↦ hgone (List.mem_map.mpr ⟨w, hw, he⟩)⟩
  refine ⟨h.wf.delete hlisted, ?_, ?_, ?_, ?_, ?_, ?_, ?_⟩
  · intro w hw
    obtain ⟨hw', hne⟩ := hother w hw
    rw [h.refcount_eq w hw', owed_congr (hh _ hne) (hd _ hne)]
  · intro w hw
    exact h.refcount_pos w (hother w hw).1
  · intro a ha
    have hne : a ≠ v.addr := fun he ↦ hnone (he ▸ ha)
    obtain ⟨w, hw, rfl⟩ := List.mem_map.mp (handle_listed_of_ne h hh ha hne)
    refine List.mem_map_of_mem ((List.mem_eraseP_of_neg ?_).mpr hw)
    exact fun hd' ↦ hne (of_decide_eq_true hd')
  · intro a ha
    exact dropped_lt_of_ne h hv hd ha
  · change ((decRef v).addr :: s.list.freed.map (·.addr)).Nodup
    rw [List.nodup_cons]
    refine ⟨fun hm ↦ ?_, h.freed_nodup⟩
    obtain ⟨w, hw, hwa⟩ := List.mem_map.mp hm
    exact h.freed_unlisted w hw (hwa ▸ hlisted)
  · intro w hw
    rcases List.mem_cons.mp hw with rfl | hw
    · exact hdropped
    · exact freed_dropped_of_ne h hv hd hw
  · intro w hw hm
    rcases List.mem_cons.mp hw with rfl | hw
    · exact hgone hm
    · obtain ⟨u, hu, hua⟩ := List.mem_map.mp hm
      exact h.freed_unlisted w hw (hua ▸ List.mem_map_of_mem (hother u hu).1)

private theorem refInv_map (h : RefInv s) {f : VirtualMachineInfo → VirtualMachineInfo}
    (haddr : ∀ w, (f w).addr = w.addr) (hdomid : ∀ w, (f w).domid = w.domid)
    (hcount : ∀ w ∈ s.list.vms, (f w).refcount = owed handles' dropped' w.addr)
    (hpos : ∀ w ∈ s.list.vms, 0 < (f w).refcount)
    (hh : ∀ a ∈ handles', a ∈ s.list.vms.map (·.addr))
    (hd : ∀ a ∈ dropped', a < s.list.nextAddr) (hf : ∀ w ∈ s.list.freed, w.addr ∈ dropped') :
    RefInv ⟨{ s.list with vms := s.list.vms.map f }, handles', dropped'⟩ := by
  have hkeys : (s.list.vms.map f).map (·.addr) = s.list.vms.map (·.addr) := by
    simp only [List.map_map, Function.comp_def, haddr]
  refine ⟨h.wf.map haddr hdomid, ?_, ?_, ?_, hd, h.freed_nodup, hf, ?_⟩
  · intro w hw
    obtain ⟨u, hu, rfl⟩ := List.mem_map.mp hw
    rw [haddr u]
    exact hcount u hu
  · intro w hw
    obtain ⟨u, hu, rfl⟩ := List.mem_map.mp hw
    exact hpos u hu
  · intro a ha
    change a ∈ List.map _ (List.map _ _)
    rw [hkeys]
    exact hh a ha
  · intro w hw
    change w.addr ∉ List.map _ (List.map _ _)
    rw [hkeys]
    exact h.freed_unlisted w hw

private theorem refInv_countDown (h : RefInv s) (hv : v ∈ s.list.vms) (hmany : v.refcount ≠ 1)
    (howed : owed handles' dropped' v.addr = v.refcount - 1)
    (hh : ∀ a, a ≠ v.addr → handles'.count a = s.handles.count a)
    (hd : ∀ a, a ≠ v.addr → (a ∈ dropped' ↔ a ∈ s.dropped)) :
    RefInv ⟨{ s.list with
      vms := s.list.vms.map (fun w ↦ if w.addr = v.addr then decRef w else w) },
      handles', dropped'⟩ := by
  have hpos := h.refcount_pos v hv
  apply refInv_map h
  · intro w
    split <;> rfl
  · intro w
    split <;> rfl
  · intro w hw
    by_cases he : w.addr = v.addr
    · obtain rfl := eq_of_key_eq (·.addr) h.wf.addr_nodup hw hv he
      rw [if_pos rfl, howed]
      rfl
    · rw [if_neg he, h.refcount_eq w hw, owed_congr (hh _ he) (hd _ he)]
  · intro w hw
    by_cases he : w.addr = v.addr
    · obtain rfl := eq_of_key_eq (·.addr) h.wf.addr_nodup hw hv he
      rw [if_pos rfl]
      change 0 < w.refcount - 1
      omega
    · rw [if_neg he]
      exact h.refcount_pos w hw
  · intro a ha
    by_cases he : a = v.addr
    · rw [he]
      exact List.mem_map_of_mem hv
    · exact handle_listed_of_ne h hh ha he
  · intro a ha
    exact dropped_lt_of_ne h hv hd ha
  · intro w hw
    exact freed_dropped_of_ne h hv hd hw

/-- Dropping a reference keeps the accounting if one reference less is owed afterwards. -/
theorem RefInv.unref (h : RefInv s) (hv : v ∈ s.list.vms)
    (howed : owed handles' dropped' v.addr = v.refcount - 1)
    (hh : ∀ a, a ≠ v.addr → handles'.count a = s.handles.count a)
    (hd : ∀ a, a ≠ v.addr → (a ∈ dropped' ↔ a ∈ s.dropped)) :
    RefInv ⟨vmInfoUnref s.list v.addr, handles', dropped'⟩ := by
  rw [vmInfoUnref_eq h.wf hv]
  split
  · next hone => exact refInv_release h hv (by omega) hh hd
  · next hmany => exact refInv_countDown h hv hmany howed hh hd

end Unref

/-! ### The operations keep the accounting -/

/-- Dropping a list reference that is still held keeps the accounting. -/
theorem RefInv.drop {s : RefState} (h : RefInv s) {v : VirtualMachineInfo}
    (hv : v ∈ s.list.vms) (hheld : v.addr ∉ s.dropped) :
    RefInv ⟨vmInfoUnref s.list v.addr, s.handles, v.addr :: s.dropped⟩ := by
  apply h.unref hv
  · rw [h.refcount_eq v hv]
    unfold owed
    rw [if_pos List.mem_cons_self, if_neg hheld]
    omega
  · intro a _
    rfl
  · intro a hne
    rw [List.mem_cons]
    exact or_iff_right hne

private theorem refInv_dropAll {s : RefState} (h : RefInv s) (as : List Nat) (hnd : as.Nodup)
    (hlisted : ∀ a ∈ as, a ∈ s.list.vms.map (·.addr)) (hheld : ∀ a ∈ as, a ∉ s.dropped) :
    RefInv ⟨as.foldl vmInfoUnref s.list, s.handles, as.reverse ++ s.dropped⟩ := by
  induction as generalizing s with
  | nil => exact h
  | cons a as ih =>
    rw [List.nodup_cons] at hnd
    have ha := hlisted a List.mem_cons_self
    obtain ⟨v, hv, rfl⟩ := List.mem_map.mp ha
    have hrest := ih (h.drop hv (hheld _ List.mem_cons_self)) hnd.2
      (fun b hb ↦ mem_addr_unref h.wf ha (hlisted b (List.mem_cons_of_mem _ hb))
        (fun he ↦ hnd.1 (he ▸ hb)))
      (fun b hb hm ↦ (List.mem_cons.mp hm).elim (fun he ↦ hnd.1 (he ▸ hb))
        (hheld b (List.mem_cons_of_mem _ hb)))
    rw [List.reverse_cons, List.append_assoc]
    exact hrest

private theorem refInv_add {s : RefState} (h : RefInv s) (domid : Int) (alloc : Bool)
    (probe : Option DomainProbe) :
    RefInv { s with list := findAddVMToList s.list domid alloc probe } := by
  have hwf := h.wf.findAdd domid alloc probe
  rcases findAddVMToList_cases s.list domid alloc probe with ⟨n, hn, he⟩ | ⟨v, hv, _, he⟩
  · rw [he] at hwf ⊢
    exact ⟨hwf, h.refcount_eq, h.refcount_pos, h.handle_listed,
      fun a ha ↦ Nat.lt_of_lt_of_le (h.dropped_lt a ha) hn, h.freed_nodup, h.freed_dropped,
      h.freed_unlisted⟩
  · obtain ⟨_, hva, _, hvr⟩ := initAndCheckVM_isNew hv
    rw [he] at hwf ⊢
    -- The new address is above everything the accounting mentions.
    have hfresh : v.addr ∉ s.dropped := fun hm ↦ by
      have := h.dropped_lt _ hm
      omega
    have hnohandle : v.addr ∉ s.handles := fun hm ↦ by
      obtain ⟨w, hw, hwa⟩ := List.mem_map.mp (h.handle_listed _ hm)
      have := h.wf.addr_lt w hw
      omega
    refine ⟨hwf, ?_, ?_, ?_, ?_, h.freed_nodup, h.freed_dropped, ?_⟩
    · intro w hw
      rcases List.mem_cons.mp hw with rfl | hw
      · unfold owed
        rw [if_neg hfresh, List.count_eq_zero.mpr hnohandle, hvr]
        rfl
      · exact h.refcount_eq w hw
    · intro w hw
      rcases List.mem_cons.mp hw with rfl | hw
      · omega
      · exact h.refcount_pos w hw
    · intro a ha
      exact List.mem_cons_of_mem _ (h.handle_listed a ha)
    · intro a ha
      exact Nat.lt_succ_of_lt (h.dropped_lt a ha)
    · intro w hw hm
      rcases List.mem_cons.mp hm with he' | hm
      · have hd := h.freed_dropped w hw
        rw [he'] at hd
        exact hfresh hd
      · exact h.freed_unlisted w hw hm

private theorem refInv_get {s : RefState} (h : RefInv s) (domid : Int) :
    RefInv (refStep s (.getRefVMInfoByDomid domid)) := by
  simp only [refStep, getRefVMInfoByDomid]
  cases hfind : s.list.vms.find? (fun v ↦ decide (v.domid = domid)) with
  | none => exact h
  | some v =>
    have hv := List.mem_of_find?_eq_some hfind
    obtain rfl : v.domid = domid := by simpa using List.find?_some hfind
    rw [updateFirst_eq_map VirtualMachineInfo.domid v.domid vmInfoRef h.wf.domid_nodup]
    change RefInv ⟨{ s.list with
      vms := s.list.vms.map (fun w ↦ if w.domid = v.domid then vmInfoRef w else w) },
      v.addr :: s.handles, s.dropped⟩
    refine refInv_map h ?_ ?_ ?_ ?_ ?_ h.dropped_lt h.freed_dropped
    · intro w
      split <;> rfl
    · intro w
      split <;> rfl
    · intro w hw
      have hw' := h.refcount_eq w hw
      by_cases he : w.domid = v.domid
      · obtain rfl := eq_of_key_eq (·.domid) h.wf.domid_nodup hw hv he
        unfold owed at hw' ⊢
        rw [if_pos rfl, List.count_cons_self]
        change w.refcount + 1 = _
        omega
      · have hne : v.addr ≠ w.addr := fun ha ↦
          he (congrArg _ (eq_of_key_eq (·.addr) h.wf.addr_nodup hv hw ha)).symm
        rw [if_neg he, hw']
        exact (owed_congr (List.count_cons_of_ne hne) Iff.rfl).symm
    · intro w hw
      have hpos := h.refcount_pos w hw
      split
      · change 0 < w.refcount + 1
        omega
      · exact hpos
    · intro a ha
      rcases List.mem_cons.mp ha with rfl | ha
      · exact List.mem_map_of_mem hv
      · exact h.handle_listed a ha

private theorem refInv_put {s : RefState} (h : RefInv s) (handle : Nat) :
    RefInv (refStep s (.putUnrefVMInfo handle)) := by
  simp only [refStep, putUnrefVMInfo]
  split
  · next hmem =>
    obtain ⟨v, hv, rfl⟩ := List.mem_map.mp (h.handle_listed handle hmem)
    apply h.unref hv
    · have hpos := List.count_pos_iff.mpr hmem
      rw [h.refcount_eq v hv]
      unfold owed
      rw [List.count_erase_self]
      omega
    · intro a hne
      exact List.count_erase_of_ne hne
    · intro a _
      exact Iff.rfl
  · exact h

/-- A deletion and `FreeAllVM` only meet records whose list reference is still held. -/
def ListRefHeld (s : RefState) : RefOp → Prop
  | .findDeleteVMFromList name =>
    match findByName s.list name with
    | some v => v.addr ∉ s.dropped
    | none => True
  | .freeAllVM => ∀ v ∈ s.list.vms, v.addr ∉ s.dropped
  | _ => True

instance (s : RefState) : ∀ op, Decidable (ListRefHeld s op)
  | .findDeleteVMFromList name =>
    match h : findByName s.list name with
    | some v => decidable_of_iff (v.addr ∉ s.dropped) (by simp only [ListRefHeld, h])
    | none => .isTrue (by simp only [ListRefHeld, h])
  | .freeAllVM => inferInstanceAs (Decidable (∀ v ∈ s.list.vms, v.addr ∉ s.dropped))
  | .findAddVMToList _ _ _ => .isTrue trivial
  | .getRefVMInfoByDomid _ => .isTrue trivial
  | .putUnrefVMInfo _ => .isTrue trivial

/-- Every operation that meets the condition keeps the accounting. -/
theorem refInv_step {s : RefState} (h : RefInv s) (op : RefOp) (hok : ListRefHeld s op) :
    RefInv (refStep s op) := by
  cases op with
  | findAddVMToList domid alloc probe => exact refInv_add h domid alloc probe
  | findDeleteVMFromList name =>
    simp only [refStep, findDeleteVMFromList]
    simp only [ListRefHeld, findByName] at hok ⊢
    cases hfind : s.list.vms.find? (fun v ↦ decide (v.domname = name)) with
    | none => exact h
    | some v =>
      simp only [hfind] at hok
      exact h.drop (List.mem_of_find?_eq_some hfind) hok
  | freeAllVM =>
    refine refInv_dropAll h _ h.wf.addr_nodup (fun _ ha ↦ ha) (fun a ha ↦ ?_)
    obtain ⟨v, hv, rfl⟩ := List.mem_map.mp ha
    exact hok v hv
  | getRefVMInfoByDomid domid => exact refInv_get h domid
  | putUnrefVMInfo handle => exact refInv_put h handle

/-- In every run in which a deletion and `FreeAllVM` only meet records whose list reference is
still held, references are accounted for. -/
theorem refSafe_of_listRefHeld (ops : List RefOp)
    (h : StepsMeet refStep ListRefHeld RefState.init ops) :
    RefSafe (run refStep RefState.init ops) := by
  have hinit : RefInv RefState.init := by
    refine ⟨VmList.wf_empty, ?_, ?_, ?_, ?_, List.nodup_nil, ?_, ?_⟩ <;>
      exact fun _ hm ↦ absurd hm List.not_mem_nil
  exact (h.invariant hinit fun s op hok hs ↦ refInv_step hs op hok).safe

/-- libvirt's answer for a guest named `vm`. -/
def vmProbe : DomainProbe := ⟨some "vm", 0, 0, some ⟨1, 8388608, 8388608⟩⟩

/-- A record deleted while a handle is out is released when the handle is put. -/
theorem refSafe_deferred :
    RefSafe (run refStep RefState.init [.findAddVMToList 1 true (some vmProbe),
      .getRefVMInfoByDomid 1, .findDeleteVMFromList "vm", .putUnrefVMInfo 0]) ∧
    (run refStep RefState.init [.findAddVMToList 1 true (some vmProbe),
      .getRefVMInfoByDomid 1, .findDeleteVMFromList "vm",
      .putUnrefVMInfo 0]).list.freed.map (·.addr) = [0] :=
  ⟨refSafe_of_listRefHeld _ (by decide), by decide⟩

/-- A second deletion finds the record still listed and takes the reference of the handle: the
record is released under its holder. -/
theorem released_with_handle : ¬ ∀ ops, RefSafe (run refStep RefState.init ops) := by
  intro h
  have hrun := h [.findAddVMToList 1 true (some vmProbe), .getRefVMInfoByDomid 1,
    .findDeleteVMFromList "vm", .findDeleteVMFromList "vm"]
  revert hrun
  decide

end Memlink
