import Memlink.Balloon.Commands
import Memlink.Base.Transition

/-!
# The balloon samples

`currentActualBalloon` and `balloonI` (`memlink_core.c:172–174`) are a ring of two slots. In a
down phase the slot that is written next holds an old sample, and the other one the sample
taken last, or the 0 that the ring starts with.
-/

namespace Memlink

open MachineInt Transition

/-- What can happen to the samples of a record: an accepted down command starts a down phase,
an accepted step-1 command ends it, and in between `BalloonCheck` samples the balloon size;
`slow` tells whether it takes the slow-stop branch. -/
inductive SampleEvent where
  | started
  | sampled (size : UInt64) (slow : Bool)
  | ended
  deriving DecidableEq, Repr

/-- The newest event's sample, 0 if it is none. -/
def previousSample : List SampleEvent → UInt64
  | .sampled size _ :: _ => size
  | _ => 0

/-- The history is in a down phase: nothing but samples since its start. -/
def InDownPhase (h : List SampleEvent) : Prop :=
  ∃ phase before, h = phase ++ SampleEvent.started :: before ∧
    ∀ e ∈ phase, ∃ size slow, e = SampleEvent.sampled size slow

/-- Every sample is taken in a down phase, and the slow-stop branch compares it with the
sample before it in this phase. -/
def ComparesWithPrevious (h : List SampleEvent) : Prop :=
  ∀ (newer : List SampleEvent) (size : UInt64) (slow : Bool) (older : List SampleEvent),
    h = newer ++ SampleEvent.sampled size slow :: older →
    InDownPhase older ∧
      (size.toNat < 2 ^ 63 → (previousSample older).toNat < 2 ^ 63 →
        (slow = true ↔ ((size.toNat : Int) - (previousSample older).toNat).natAbs < 307200))

/-- The slot that is not written next. -/
def lastSlot (v : VirtualMachineInfo) : Int64 :=
  if v.balloonI = 0 then v.currentActualBalloon.2 else v.currentActualBalloon.1

/-- In a down phase the ring holds the sample taken last. -/
structure SampleLaw (v : VirtualMachineInfo) (h : List SampleEvent) : Prop where
  phase : v.ballooningDown = true → InDownPhase h
  slot : v.ballooningDown = true → lastSlot v = (previousSample h).toInt64
  compares : ComparesWithPrevious h

/-- The law reads three fields of the record. -/
theorem SampleLaw.congr {v w : VirtualMachineInfo} {h : List SampleEvent} (hlaw : SampleLaw v h)
    (hd : w.ballooningDown = v.ballooningDown) (hi : w.balloonI = v.balloonI)
    (hs : w.currentActualBalloon = v.currentActualBalloon) : SampleLaw w h := by
  refine ⟨fun hw ↦ hlaw.phase (hd ▸ hw), fun hw ↦ ?_, hlaw.compares⟩
  rw [← hlaw.slot (hd ▸ hw)]
  unfold lastSlot
  rw [hi, hs]

end Memlink
