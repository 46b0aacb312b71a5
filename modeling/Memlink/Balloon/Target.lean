import Memlink.Base.Binary32
import Memlink.Base.MachineInt
import Memlink.Vm.Stats

/-!
# Guest usage and the balloon target

`RecordPressure` (`memlink_core.c:65–94`), `DoBallooning` (`memlink_core.c:98–152`) and
the helpers `MIN` and `MAX` (`util.c:743–751`). The usage percentage is a `float`; the
target mixes `int64_t`, `uint64_t` and `int` operands, and every conversion of the source
is written out. Signed operations wrap here; the daemon is built with `-ftrapv`, so a wrap
would abort it, and `inInt64_signed_products` shows that none takes place for memory sizes
below `2^49` KiB.
-/

namespace Memlink

/-- `UPPER_LIMIT`, percent of guest memory in use. -/
def upperLimit : Nat := 50

/-- `LOWER_LIMIT`, percent of guest memory in use. -/
def lowerLimit : Nat := 30

/-- `BALLON_TARGET_RESERVED_KBYTES`. -/
def ballonTargetReservedKbytes : Int64 := 1024 * 1024

/-- `NEED_BALLOON_CHECK_TIMES`. -/
def needBalloonCheckTimes : Int := 20

/-- The two percentages read from the configuration file, in the ranges that `LoadCfgFile`
admits (`memlink_driver.c:538–545`). -/
structure BalloonConfig where
  usedPercent : Int32
  maxTotalPercent : Int32
  usedPercent_range : 120 ≤ usedPercent.toInt ∧ usedPercent.toInt ≤ 10000
  maxTotalPercent_range : 0 ≤ maxTotalPercent.toInt ∧ maxTotalPercent.toInt ≤ 100

/-- `BALLOON_TARGET_USED_PERCENT` and `BALLOON_TARGET_MAX_TOTAL_PERCENT`. -/
def BalloonConfig.default : BalloonConfig := ⟨130, 50, by decide, by decide⟩

/-- `MIN`, `util.c:743`: unsigned. -/
def minU64 (a b : UInt64) : UInt64 := if a < b then a else b

/-- `MAX`, `util.c:748`: signed. -/
def maxI64 (a b : Int64) : Int64 := if a > b then a else b

/-- The memory the guest calls free: `usable` if it is reported, else `unused`. -/
def guestFreeMemory (v : VirtualMachineInfo) : UInt64 :=
  if v.memstat.usable ≠ 0 then v.memstat.usable else v.memstat.unused

/-- `guestUsedMemory` of `RecordPressure` and `DoBallooning`, in unsigned arithmetic. -/
def guestUsedMemory (v : VirtualMachineInfo) : UInt64 :=
  if v.memstat.usable ≠ 0 then v.memstat.available - v.memstat.usable
  else v.memstat.available - v.memstat.unused

/-- `((float)guestUsedMemory / guestTotalMemory) * PERCENT`. -/
def guestUsagePercent (v : VirtualMachineInfo) : Binary32.Frac :=
  Binary32.mul
    (Binary32.div (Binary32.ofNat (guestUsedMemory v).toNat)
      (Binary32.ofNat v.memstat.available.toNat))
    (Binary32.ofNat 100)

/-- `guestUsagePercent > UPPER_LIMIT`. -/
def usageHigh (v : VirtualMachineInfo) : Bool :=
  Binary32.lt (Binary32.ofNat upperLimit) (guestUsagePercent v)

/-- `guestUsagePercent < LOWER_LIMIT`. -/
def usageLow (v : VirtualMachineInfo) : Bool :=
  Binary32.lt (guestUsagePercent v) (Binary32.ofNat lowerLimit)

/-- `RecordPressure`. -/
def recordPressure (v : VirtualMachineInfo) : VirtualMachineInfo :=
  if checkVmMemoryStat v < 0 then v
  else if v.needBalloonFlag = 0 ∧ v.ballooning = false then
    if usageHigh v then { v with needBalloonFlag := 1 } else v
  else v

/-- `needBalloonFlag` after the usage test of `DoBallooning`, `memlink_core.c:122–126`. -/
def countedFlag (v : VirtualMachineInfo) : Int :=
  if usageHigh v then 1
  else if usageLow v ∧ v.needBalloonFlag > 0 then v.needBalloonFlag + 1
  else v.needBalloonFlag

/-- The first assignment to `balloonTarget`, `memlink_core.c:137`: the two unsigned
differences may wrap, and their sum is converted to `int64_t`. -/
def usedTarget (v : VirtualMachineInfo) : Int64 :=
  ((v.memory.toUInt64 - v.memstat.available) + guestUsedMemory v).toInt64

/-- `balloonTarget` after the three signed maxima, `memlink_core.c:139–143`. -/
def flooredTarget (cfg : BalloonConfig) (v : VirtualMachineInfo) : Int64 :=
  maxI64
    (maxI64
      (maxI64 (usedTarget v * cfg.usedPercent.toInt64 / 100) ballonTargetReservedKbytes)
      (v.memory * cfg.maxTotalPercent.toInt64 / 100))
    v.memparam.minGuarantee.toInt64

/-- `balloonTarget` after the unsigned minimum, `memlink_core.c:144`. -/
def balloonTargetOf (cfg : BalloonConfig) (v : VirtualMachineInfo) : Int64 :=
  (minU64 (flooredTarget cfg v).toUInt64 v.memory.toUInt64).toInt64

/-- `DoBallooning`. -/
def doBallooning (cfg : BalloonConfig) (lib : Libvirt) (v : VirtualMachineInfo) (log : Log) :
    VirtualMachineInfo × Log :=
  if checkVmMemoryStat v < 0 then (v, log)
  else if countedFlag v ≥ needBalloonCheckTimes then
    let v := { v with needBalloonFlag := 0, balloonTarget := balloonTargetOf cfg v }
    if v.balloonTarget > 0 then
      let (ret, log) := setVmBalloonTarget lib .doBallooning v v.balloonTarget.toUInt64 log
      if ret = 0 then ({ v with ballooning := true, ballooningDown := true }, log)
      else (v, log)
    else (v, log)
  else ({ v with needBalloonFlag := countedFlag v }, log)

/-! ### The target as a number -/

open MachineInt

/-- The signed maximum is the maximum of the values. -/
theorem toInt_maxI64 (a b : Int64) : (maxI64 a b).toInt = max a.toInt b.toInt := by
  unfold maxI64
  split
  · next h =>
    have hlt : b.toInt < a.toInt := Int64.lt_iff_toInt_lt.mp h
    omega
  · next h =>
    have hle : ¬ b.toInt < a.toInt := fun hlt ↦ h (Int64.lt_iff_toInt_lt.mpr hlt)
    omega

/-- The unsigned minimum is the minimum of the values. -/
theorem toNat_minU64 (a b : UInt64) : (minU64 a b).toNat = min a.toNat b.toNat := by
  unfold minU64
  split
  · next h =>
    have hlt : a.toNat < b.toNat := UInt64.lt_iff_toNat_lt.mp h
    omega
  · next h =>
    have hle : ¬ a.toNat < b.toNat := fun hlt ↦ h (UInt64.lt_iff_toNat_lt.mpr hlt)
    omega

/-- The guest's total cancels: the two wrapping differences leave `memory - free`. -/
theorem usedTarget_eq (v : VirtualMachineInfo) :
    usedTarget v = v.memory - (guestFreeMemory v).toInt64 := by
  have hcancel : ∀ m a f : UInt64, (m - a) + (a - f) = m - f := by grind
  unfold usedTarget guestUsedMemory guestFreeMemory
  split
  · rw [hcancel, UInt64.toInt64_sub, Int64.toInt64_toUInt64]
  · rw [hcancel, UInt64.toInt64_sub, Int64.toInt64_toUInt64]

/-- Sizes of a record that the arithmetic of `DoBallooning` can hold: a positive memory and
every other size below `2^49` KiB. -/
structure SizesInRange (v : VirtualMachineInfo) : Prop where
  memory_pos : 0 < v.memory.toInt
  memory_lt : v.memory.toInt < 2 ^ 49
  available_lt : v.memstat.available.toNat < 2 ^ 49
  usable_lt : v.memstat.usable.toNat < 2 ^ 49
  unused_lt : v.memstat.unused.toNat < 2 ^ 49
  minGuarantee_lt : v.memparam.minGuarantee.toNat < 2 ^ 49

private theorem free_lt {v : VirtualMachineInfo} (h : SizesInRange v) :
    (guestFreeMemory v).toNat < 2 ^ 49 := by
  unfold guestFreeMemory
  split
  · exact h.usable_lt
  · exact h.unused_lt

/-- In range, the used target is the exact difference, also when it is negative. -/
theorem toInt_usedTarget {v : VirtualMachineInfo} (h : SizesInRange v) :
    (usedTarget v).toInt = v.memory.toInt - (guestFreeMemory v).toNat := by
  have hf := free_lt h
  have hpos := h.memory_pos
  have hlt := h.memory_lt
  have hval := toInt_toInt64 (u := guestFreeMemory v) (by omega)
  rw [usedTarget_eq, toInt_sub, hval]
  rw [hval]
  exact ⟨by omega, by omega⟩

/-- In range, neither signed product of the target computation leaves `int64_t`. -/
theorem inInt64_signed_products (cfg : BalloonConfig) {v : VirtualMachineInfo}
    (h : SizesInRange v) :
    InInt64 ((usedTarget v).toInt * cfg.usedPercent.toInt) ∧
      InInt64 (v.memory.toInt * cfg.maxTotalPercent.toInt) := by
  have hf := free_lt h
  have hpos := h.memory_pos
  have hlt := h.memory_lt
  obtain ⟨hp0, hp1⟩ := cfg.usedPercent_range
  obtain ⟨hq0, hq1⟩ := cfg.maxTotalPercent_range
  have hused := toInt_usedTarget h
  exact ⟨inInt64_mul (m := 2 ^ 49) (n := 10000) (by omega) (by omega) (by decide),
    inInt64_mul (m := 2 ^ 49) (n := 100) (by omega) (by omega) (by decide)⟩

/-- The law of the balloon target, on exact integers: at least 1 GiB, the used share, the
share of the total and the guarantee, and at most the memory `m`. `f` is the guest's free
memory, `p` and `q` the two percentages, `g` the guarantee. -/
def targetLaw (m f p q g : Int) : Int :=
  min m (max (max (max (((m - f) * p).tdiv 100) 1048576) ((m * q).tdiv 100)) g)

/-- In range, the 64-bit computation follows the law exactly. -/
theorem toInt_balloonTargetOf (cfg : BalloonConfig) {v : VirtualMachineInfo}
    (h : SizesInRange v) :
    (balloonTargetOf cfg v).toInt =
      targetLaw v.memory.toInt (guestFreeMemory v).toNat cfg.usedPercent.toInt
        cfg.maxTotalPercent.toInt v.memparam.minGuarantee.toNat := by
  obtain ⟨hup, hmq⟩ := inInt64_signed_products cfg h
  have hg : v.memparam.minGuarantee.toInt64.toInt = v.memparam.minGuarantee.toNat :=
    toInt_toInt64 (by have := h.minGuarantee_lt; omega)
  have hused : (usedTarget v * cfg.usedPercent.toInt64 / 100).toInt =
      ((v.memory.toInt - (guestFreeMemory v).toNat) * cfg.usedPercent.toInt).tdiv 100 := by
    rw [toInt_div (by decide), toInt_mul (by rwa [Int32.toInt_toInt64]),
      Int32.toInt_toInt64, toInt_usedTarget h]
    rfl
  have htotal : (v.memory * cfg.maxTotalPercent.toInt64 / 100).toInt =
      (v.memory.toInt * cfg.maxTotalPercent.toInt).tdiv 100 := by
    rw [toInt_div (by decide), toInt_mul (by rwa [Int32.toInt_toInt64]), Int32.toInt_toInt64]
    rfl
  have hreserved : ballonTargetReservedKbytes.toInt = 1048576 := by decide
  have hfloor : (flooredTarget cfg v).toInt =
      max (max (max (((v.memory.toInt - (guestFreeMemory v).toNat) *
        cfg.usedPercent.toInt).tdiv 100) 1048576)
        ((v.memory.toInt * cfg.maxTotalPercent.toInt).tdiv 100))
        v.memparam.minGuarantee.toNat := by
    unfold flooredTarget
    rw [toInt_maxI64, toInt_maxI64, toInt_maxI64, hused, htotal, hreserved, hg]
  -- Both operands of the unsigned minimum are positive, so they keep their values.
  have hpos := h.memory_pos
  have hlt := h.memory_lt
  have hmem := toNat_toUInt64 (a := v.memory) (by omega)
  have hfu := toNat_toUInt64 (a := flooredTarget cfg v) (by omega)
  have hmin := toNat_minU64 (flooredTarget cfg v).toUInt64 v.memory.toUInt64
  unfold balloonTargetOf targetLaw
  rw [toInt_toInt64 (by omega), ← hfloor, hmin]
  omega

/-- Consequences of the law: the target is positive and at most the memory, it respects the
share of the total and the 1 GiB floor, and at most the guest's free memory is taken. -/
theorem targetLaw_bounds {m f p q g : Int} (hm : 0 < m) (hf : 0 ≤ f) (hp : 100 ≤ p)
    (hq0 : 0 ≤ q) (hq1 : q ≤ 100) :
    1 ≤ targetLaw m f p q g ∧ targetLaw m f p q g ≤ m ∧
      (m * q).tdiv 100 ≤ targetLaw m f p q g ∧ min m 1048576 ≤ targetLaw m f p q g ∧
      m - targetLaw m f p q g ≤ f := by
  have hshare : (m * q).tdiv 100 ≤ m := by
    have hprod : m * q ≤ m * 100 := Int.mul_le_mul_of_nonneg_left hq1 (Int.le_of_lt hm)
    have hnonneg : 0 ≤ m * q := Int.mul_nonneg (Int.le_of_lt hm) hq0
    rw [Int.tdiv_eq_ediv_of_nonneg hnonneg]
    omega
  -- Below full use, 100 percent of the used part is already at least `m - f`.
  have hused : 0 ≤ m - f → m - f ≤ ((m - f) * p).tdiv 100 := by
    intro hle
    have hprod : (m - f) * 100 ≤ (m - f) * p := Int.mul_le_mul_of_nonneg_left hp hle
    rw [Int.tdiv_eq_ediv_of_nonneg (by omega)]
    omega
  unfold targetLaw
  refine ⟨by omega, by omega, by omega, by omega, ?_⟩
  by_cases hle : 0 ≤ m - f
  · have := hused hle
    omega
  · omega

/-- The target law of `DoBallooning`: at the trigger it sends exactly one command, whose
value follows `targetLaw` for every reported total, and no signed intermediate overflows. -/
theorem doBallooning_targetLaw (cfg : BalloonConfig) (lib : Libvirt) (v : VirtualMachineInfo)
    (log : Log) (hstat : checkVmMemoryStat v = 0) (h : SizesInRange v)
    (htrigger : needBalloonCheckTimes ≤ countedFlag v) :
    ∃ target : UInt64,
      (doBallooning cfg lib v log).2 =
        ⟨{ v with needBalloonFlag := 0, balloonTarget := balloonTargetOf cfg v },
          .doBallooning, target, lib log.length⟩ :: log ∧
      (target.toNat : Int) =
        targetLaw v.memory.toInt (guestFreeMemory v).toNat cfg.usedPercent.toInt
          cfg.maxTotalPercent.toInt v.memparam.minGuarantee.toNat ∧
      InInt64 (v.memory.toInt - (guestFreeMemory v).toNat) ∧
      InInt64 ((v.memory.toInt - (guestFreeMemory v).toNat) * cfg.usedPercent.toInt) ∧
      InInt64 (v.memory.toInt * cfg.maxTotalPercent.toInt) ∧
      1 ≤ target.toNat ∧ (target.toNat : Int) ≤ v.memory.toInt ∧
      (v.memory.toInt * cfg.maxTotalPercent.toInt).tdiv 100 ≤ target.toNat ∧
      min v.memory.toInt 1048576 ≤ target.toNat ∧
      v.memory.toInt - target.toNat ≤ (guestFreeMemory v).toNat := by
  obtain ⟨hp0, hp1⟩ := cfg.usedPercent_range
  obtain ⟨hq0, hq1⟩ := cfg.maxTotalPercent_range
  obtain ⟨hup, hmq⟩ := inInt64_signed_products cfg h
  obtain ⟨hb1, hb2, hb3, hb4, hb5⟩ := targetLaw_bounds (g := v.memparam.minGuarantee.toNat)
    h.memory_pos (Int.natCast_nonneg (guestFreeMemory v).toNat) (p := cfg.usedPercent.toInt)
    (by omega) hq0 hq1
  have hlaw := toInt_balloonTargetOf cfg h
  have hused := toInt_usedTarget h
  have hval := toNat_toUInt64 (a := balloonTargetOf cfg v) (by omega)
  have hpos : balloonTargetOf cfg v > 0 := Int64.lt_iff_toInt_lt.mpr (by
    change 0 < (balloonTargetOf cfg v).toInt
    omega)
  have hfree := free_lt h
  have hmem := h.memory_lt
  have hmem0 := h.memory_pos
  refine ⟨(balloonTargetOf cfg v).toUInt64, ?_, ?_, ⟨by omega, by omega⟩, ?_, hmq, ?_⟩
  · have hvalid : ¬ checkVmMemoryStat v < 0 := by omega
    have hge : countedFlag v ≥ needBalloonCheckTimes := htrigger
    unfold doBallooning setVmBalloonTarget
    simp only [hvalid, hge, hpos, if_false, if_true]
    split
    · rfl
    · rfl
  · rw [hval, hlaw]
  · rwa [← hused]
  · rw [hval, hlaw]
    exact ⟨by omega, hb2, hb3, hb4, hb5⟩

/-- An 8 GiB guest that uses an eighth of its memory, one evaluation before the trigger. -/
def idleGuest : VirtualMachineInfo :=
  { newVM 0 1 with
    domname := "idle"
    memory := 8388608
    currentMem := 8388608
    memstat := ⟨8000000, 6500000, 8388608, 0, 7000000⟩
    state := virDomainRunning
    needBalloonFlag := 19 }

/-- The law at a concrete guest: 130 percent of the used part is below half the memory, so
4 GiB is the target. -/
theorem doBallooning_targetLaw_idleGuest :
    ∃ target : UInt64,
      (doBallooning .default (fun _ ↦ true) idleGuest []).2.map (·.target) = [target] ∧
        target.toNat = 4194304 := by
  have hrange : SizesInRange idleGuest :=
    ⟨by decide, by decide, by decide, by decide, by decide, by decide⟩
  obtain ⟨target, hlog, hval, _⟩ := doBallooning_targetLaw .default (fun _ ↦ true) idleGuest []
    (by decide) hrange (by decide +kernel)
  refine ⟨target, by rw [hlog]; rfl, ?_⟩
  have hlaw : targetLaw idleGuest.memory.toInt (guestFreeMemory idleGuest).toNat
      BalloonConfig.default.usedPercent.toInt BalloonConfig.default.maxTotalPercent.toInt
      idleGuest.memparam.minGuarantee.toNat = 4194304 := by decide
  omega

end Memlink
