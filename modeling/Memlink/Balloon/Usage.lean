import Memlink.Balloon.Target
import Memlink.Base.Rounding

/-!
# The usage of a guest

What the check `CheckVmMemoryStat` (`libvirt_helper.c:372–392`) means for the arithmetic of
`RecordPressure` and `DoBallooning` (`memlink_core.c:76–88`, `memlink_core.c:113–119`). The
check asks for values other than zero. The used memory is an unsigned difference, and it is
part of the total only if the free memory that the guest reports is.
-/

namespace Memlink

open Binary32

/-- `(float)guestUsedMemory / guestTotalMemory`. -/
def guestUsageRatio (v : VirtualMachineInfo) : Frac :=
  div (ofNat (guestUsedMemory v).toNat) (ofNat v.memstat.available.toNat)

/-- The ratio before rounding. -/
def exactUsageRatio (v : VirtualMachineInfo) : ℚ :=
  (guestUsedMemory v).toNat / v.memstat.available.toNat

/-- The percentage is computed from the ratio. -/
theorem guestUsagePercent_eq (v : VirtualMachineInfo) :
    guestUsagePercent v = mul (guestUsageRatio v) (ofNat 100) := rfl

/-- `guestUsagePercent > UPPER_LIMIT` as a comparison of values. -/
theorem usageHigh_iff (v : VirtualMachineInfo) :
    usageHigh v = true ↔ (ofNat upperLimit).val < (guestUsagePercent v).val :=
  lt_iff (den_round_pos _) (den_round_pos _)

/-- `guestUsagePercent < LOWER_LIMIT` as a comparison of values. -/
theorem usageLow_iff (v : VirtualMachineInfo) :
    usageLow v = true ↔ (guestUsagePercent v).val < (ofNat lowerLimit).val :=
  lt_iff (den_round_pos _) (den_round_pos _)

/-- The used memory is the total less the free memory, in unsigned arithmetic. -/
theorem guestUsedMemory_eq (v : VirtualMachineInfo) :
    guestUsedMemory v = v.memstat.available - guestFreeMemory v := by
  unfold guestUsedMemory guestFreeMemory
  split
  · rfl
  · rfl

/-- Accepted statistics have a total. -/
theorem available_pos {v : VirtualMachineInfo} (h : checkVmMemoryStat v = 0) :
    0 < v.memstat.available.toNat := by
  unfold checkVmMemoryStat at h
  split at h
  · cases h
  · next hzero =>
    apply Nat.pos_of_ne_zero
    intro havail
    exact hzero (.inr (UInt64.toNat_inj.mp havail))

/-- Free memory within the total: the difference is exact. -/
theorem guestUsedMemory_exact {v : VirtualMachineInfo}
    (h : guestFreeMemory v ≤ v.memstat.available) :
    (guestUsedMemory v).toNat + (guestFreeMemory v).toNat = v.memstat.available.toNat := by
  have hle := UInt64.le_iff_toNat_le.mp h
  rw [guestUsedMemory_eq, UInt64.toNat_sub_of_le _ _ h]
  omega

/-- Free memory beyond the total: the difference wraps around to more than the total. -/
theorem available_lt_guestUsedMemory {v : VirtualMachineInfo}
    (h : v.memstat.available < guestFreeMemory v) : v.memstat.available < guestUsedMemory v := by
  have hlt := UInt64.lt_iff_toNat_lt.mp h
  have hfree := (guestFreeMemory v).toNat_lt
  rw [guestUsedMemory_eq, UInt64.lt_iff_toNat_lt, UInt64.toNat_sub]
  omega

/-! ### The ratio follows the used memory -/

section SameTotal

variable {v w : VirtualMachineInfo} (htotal : w.memstat.available = v.memstat.available)
  (hused : (guestUsedMemory v).toNat ≤ (guestUsedMemory w).toNat)

include htotal hused

/-- Of two reports of one total, the one with more used memory has the larger ratio. -/
theorem exactUsageRatio_mono : exactUsageRatio v ≤ exactUsageRatio w := by
  unfold exactUsageRatio
  rw [htotal]
  exact div_le_div_of_nonneg_right (Nat.cast_le.mpr hused) (Nat.cast_nonneg _)

variable (hpos : 0 < v.memstat.available.toNat)

include hpos

/-- The same for the `float` ratio. -/
theorem guestUsageRatio_mono : (guestUsageRatio v).val ≤ (guestUsageRatio w).val := by
  unfold guestUsageRatio
  rw [htotal]
  exact div_mono (den_round_pos _) (den_round_pos _) (num_ofNat_pos hpos) (ofNat_mono hused)

/-- The same for the percentage. -/
theorem guestUsagePercent_mono : (guestUsagePercent v).val ≤ (guestUsagePercent w).val := by
  rw [guestUsagePercent_eq, guestUsagePercent_eq]
  exact mul_mono (den_round_pos _) (den_round_pos _) (den_round_pos _)
    (guestUsageRatio_mono htotal hused hpos)

/-- More used memory leaves a high usage high. -/
theorem usageHigh_mono (h : usageHigh v = true) : usageHigh w = true := by
  rw [usageHigh_iff] at h ⊢
  exact lt_of_lt_of_le h (guestUsagePercent_mono htotal hused hpos)

/-- Less used memory leaves a low usage low. -/
theorem usageLow_mono (h : usageLow w = true) : usageLow v = true := by
  rw [usageLow_iff] at h ⊢
  exact lt_of_le_of_lt (guestUsagePercent_mono htotal hused hpos) h

end SameTotal

/-! ### What the check protects -/

/-- What the arithmetic relies on: the used memory is the exact difference and part of the
total, the ratio is between 0 and 1 as a number and as a `float`, and it and the two
decisions taken from it follow the free memory: another accepted report of the same total with
less of it free does not have a smaller ratio, is high if this one is and low only if this one
is. -/
structure UsageSound (v : VirtualMachineInfo) : Prop where
  used_add_free : (guestUsedMemory v).toNat + (guestFreeMemory v).toNat =
    v.memstat.available.toNat
  used_le_total : guestUsedMemory v ≤ v.memstat.available
  ratio_range : 0 ≤ exactUsageRatio v ∧ exactUsageRatio v ≤ 1
  float_range : 0 ≤ (guestUsageRatio v).val ∧ (guestUsageRatio v).val ≤ 1
  antitone : ∀ w, checkVmMemoryStat w = 0 → w.memstat.available = v.memstat.available →
    guestFreeMemory w ≤ guestFreeMemory v →
      exactUsageRatio v ≤ exactUsageRatio w ∧
      (guestUsageRatio v).val ≤ (guestUsageRatio w).val ∧
      (usageHigh v = true → usageHigh w = true) ∧ (usageLow w = true → usageLow v = true)

/-- A report with its free memory within the total is sound. -/
theorem usageSound_of_free_le {v : VirtualMachineInfo} (hstat : checkVmMemoryStat v = 0)
    (h : guestFreeMemory v ≤ v.memstat.available) : UsageSound v := by
  have hpos := available_pos hstat
  have hsum := guestUsedMemory_exact h
  have hle : (guestUsedMemory v).toNat ≤ v.memstat.available.toNat := by omega
  refine ⟨hsum, UInt64.le_iff_toNat_le.mpr hle, ⟨?_, ?_⟩, ⟨Frac.val_nonneg _, ?_⟩, ?_⟩
  · exact div_nonneg (Nat.cast_nonneg _) (Nat.cast_nonneg _)
  · exact div_le_one_of_le₀ (Nat.cast_le.mpr hle) (Nat.cast_nonneg _)
  · exact Binary32.div_le_one (den_round_pos _) (num_ofNat_pos hpos) (ofNat_mono hle)
  · intro w _ htotal hfree
    have hwsum := guestUsedMemory_exact (v := w) (by
      rw [htotal]
      exact UInt64.le_trans hfree h)
    have hfree := UInt64.le_iff_toNat_le.mp hfree
    have hused : (guestUsedMemory v).toNat ≤ (guestUsedMemory w).toNat := by
      rw [htotal] at hwsum
      omega
    exact ⟨exactUsageRatio_mono htotal hused, guestUsageRatio_mono htotal hused hpos,
      usageHigh_mono htotal hused hpos, usageLow_mono htotal hused hpos⟩

/-- A report with more free memory than the total counts as a high usage. -/
theorem usageHigh_of_available_lt_free {v : VirtualMachineInfo} (hstat : checkVmMemoryStat v = 0)
    (h : v.memstat.available < guestFreeMemory v) : usageHigh v = true := by
  have hpos := available_pos hstat
  have hlt := UInt64.lt_iff_toNat_lt.mp (available_lt_guestUsedMemory h)
  have hratio : 1 ≤ (guestUsageRatio v).val :=
    Binary32.one_le_div (den_round_pos _) (den_round_pos _) (num_ofNat_pos hpos)
      (ofNat_mono hlt.le)
  have hpercent : (mul (round ⟨1, 1⟩) (ofNat 100)).val ≤ (guestUsagePercent v).val := by
    rw [guestUsagePercent_eq]
    apply mul_mono (den_round_pos _) (den_round_pos _) (den_round_pos _)
    rwa [val_round_one]
  have hlimit : (ofNat upperLimit).val < (mul (round ⟨1, 1⟩) (ofNat 100)).val :=
    (lt_iff (den_round_pos _) (den_round_pos _)).mp (by decide +kernel)
  exact (usageHigh_iff v).mpr (lt_of_lt_of_le hlimit hpercent)

/-- Such a report arms the reclaim counter of a record that is at rest. -/
theorem recordPressure_of_available_lt_free {v : VirtualMachineInfo}
    (hstat : checkVmMemoryStat v = 0) (h : v.memstat.available < guestFreeMemory v)
    (hrest : v.needBalloonFlag = 0 ∧ v.ballooning = false) :
    recordPressure v = { v with needBalloonFlag := 1 } := by
  have hvalid : ¬ checkVmMemoryStat v < 0 := by omega
  unfold recordPressure
  rw [if_neg hvalid, if_pos hrest, if_pos (usageHigh_of_available_lt_free hstat h)]

/-- It also starts the count again, and no command is sent. -/
theorem doBallooning_of_available_lt_free (cfg : BalloonConfig) (lib : Libvirt)
    {v : VirtualMachineInfo} (log : Log) (hstat : checkVmMemoryStat v = 0)
    (h : v.memstat.available < guestFreeMemory v) :
    doBallooning cfg lib v log = ({ v with needBalloonFlag := 1 }, log) := by
  have hvalid : ¬ checkVmMemoryStat v < 0 := by omega
  have hcount : countedFlag v = 1 := by
    unfold countedFlag
    rw [if_pos (usageHigh_of_available_lt_free hstat h)]
  unfold doBallooning
  rw [if_neg hvalid, hcount, if_neg (by decide)]

/-- Accepted statistics give a sound usage exactly when the free memory that is used, `usable`
or else `unused`, is at most the total. -/
theorem usageSound_iff (v : VirtualMachineInfo) (hstat : checkVmMemoryStat v = 0) :
    UsageSound v ↔ guestFreeMemory v ≤ v.memstat.available := by
  constructor
  · intro h
    by_contra hlt
    exact UInt64.not_le.mpr (available_lt_guestUsedMemory (UInt64.not_le.mp hlt)) h.used_le_total
  · exact usageSound_of_free_le hstat

/-- A guest that reports three quarters of its memory as usable. -/
def soundGuest : VirtualMachineInfo :=
  { newVM 0 1 with memstat := ⟨8000000, 5000000, 8388608, 0, 6000000⟩ }

/-- Its usage is sound. -/
theorem usageSound_soundGuest : checkVmMemoryStat soundGuest = 0 ∧ UsageSound soundGuest :=
  ⟨by decide, (usageSound_iff soundGuest (by decide)).mpr (by decide)⟩

/-- A guest that reports more usable memory than it has. -/
def boastfulGuest : VirtualMachineInfo :=
  { newVM 0 1 with memstat := ⟨8000000, 5000000, 8388608, 0, 8000001⟩ }

/-- The check accepts such statistics, and the used memory wraps around. -/
theorem boastfulGuest_underflows :
    ¬ ∀ v : VirtualMachineInfo, checkVmMemoryStat v = 0 → UsageSound v := by
  intro h
  have hle := (h boastfulGuest (by decide)).used_le_total
  revert hle
  decide

end Memlink
