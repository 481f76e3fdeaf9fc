import Mathlib.Algebra.GroupWithZero.Nat
import Mathlib.Data.List.Basic

namespace Nlink.Tc

/-!
# Units and handles of traffic control
-/

/-- `Duration`. -/
structure Duration where
  nanos : Nat
  deriving DecidableEq

/-- `as_micros() as u32`. -/
def Duration.asMicros (duration : Duration) : BitVec 32 :=
  BitVec.ofNat 32 (duration.nanos / 1000)

/-- `util::Rate`. -/
structure Rate where
  bytesPerSec : BitVec 64

namespace Rate

def ZERO : Rate := ⟨0⟩

def saturatingAdd (rate other : Rate) : Rate :=
  if rate.bytesPerSec.toNat + other.bytesPerSec.toNat < 2 ^ 64 then
    ⟨rate.bytesPerSec + other.bytesPerSec⟩
  else
    ⟨BitVec.allOnes 64⟩

def sum (rates : List Rate) : Rate :=
  rates.foldl saturatingAdd ZERO

end Rate

/-!
## Handles
-/

/-- The major and the minor number of a qdisc or a class. -/
abbrev TcHandle := BitVec 32

namespace TcHandle

def ROOT : TcHandle := 0xFFFFFFFF
def INGRESS : TcHandle := 0xFFFFFFF1
def CLSACT : TcHandle := 0xFFFFFFF2
def UNSPEC : TcHandle := 0

def new (major minor : BitVec 16) : TcHandle :=
  major.setWidth 32 <<< 16 ||| minor.setWidth 32

def majorOnly (major : BitVec 16) : TcHandle :=
  new major 0

def major (handle : TcHandle) : BitVec 16 :=
  (handle >>> 16).setWidth 16

def minor (handle : TcHandle) : BitVec 16 :=
  (handle &&& 0xFFFF).setWidth 16

/-- `{:x}`. -/
def hex (number : BitVec 16) : String :=
  String.ofList (Nat.toDigits 16 number.toNat)

def format (handle : TcHandle) : String :=
  if handle = ROOT then
    "root"
  else if handle = INGRESS then
    "ingress"
  else if handle = CLSACT then
    "clsact"
  else if handle = UNSPEC then
    "none"
  else if handle.minor = 0 then
    hex handle.major ++ ":"
  else
    hex handle.major ++ ":" ++ hex handle.minor

@[simp]
theorem minor_new (major minor : BitVec 16) : (new major minor).minor = minor := by
  apply BitVec.eq_of_getLsbD_eq
  intro place inside
  have low : (0xFFFF : BitVec 32).getLsbD place = true := by
    have bits : ∀ place < 16, (0xFFFF : BitVec 32).getLsbD place = true := by decide
    exact bits place inside
  have wide : place < 32 := by omega
  rw [TcHandle.minor, new, BitVec.getLsbD_setWidth, BitVec.getLsbD_and,
    BitVec.getLsbD_or, BitVec.getLsbD_shiftLeft, BitVec.getLsbD_setWidth, low]
  simp [inside, wide]

@[simp]
theorem major_new (major minor : BitVec 16) : (new major minor).major = major := by
  apply BitVec.eq_of_getLsbD_eq
  intro place inside
  have shifted : 16 + place < 32 := by omega
  have small : minor.getLsbD (16 + place) = false :=
    BitVec.getLsbD_of_ge minor _ (Nat.le_add_right 16 place)
  rw [TcHandle.major, new, BitVec.getLsbD_setWidth, BitVec.getLsbD_ushiftRight, BitVec.getLsbD_or,
    BitVec.getLsbD_shiftLeft, BitVec.getLsbD_setWidth, BitVec.getLsbD_setWidth, small]
  have back : 16 + place - 16 = place := Nat.add_sub_cancel_left 16 place
  have wide : place < 32 := by omega
  simp [inside, shifted, wide]

end TcHandle

/-!
## Netem qdiscs

A netem delays, drops, duplicates, corrupts or reorders packets.
-/

/-- `util::Percent`, as it is looked at: the kernel's probability, which is
rounded down, and whether the percentage is zero. -/
structure Percent where
  kernelProbability : BitVec 32
  isZero : Bool
  zero_probability : isZero = true → kernelProbability = 0

def Percent.ZERO : Percent where
  kernelProbability := 0
  isZero := true
  zero_probability := fun _ => rfl

structure NetemConfig where
  delay : Option Duration := none
  jitter : Option Duration := none
  delayCorrelation : Percent := Percent.ZERO
  loss : Percent := Percent.ZERO
  lossCorrelation : Percent := Percent.ZERO
  duplicate : Percent := Percent.ZERO
  duplicateCorrelation : Percent := Percent.ZERO
  corrupt : Percent := Percent.ZERO
  corruptCorrelation : Percent := Percent.ZERO
  reorder : Percent := Percent.ZERO
  reorderCorrelation : Percent := Percent.ZERO
  gap : BitVec 32 := 0
  rate : Option Rate := none
  limit : BitVec 32 := 1000

/-- `TcNetemQopt` without the delays in microseconds, which the attributes in
nanoseconds override, and the attributes after it. -/
structure NetemAttrs where
  limit : BitVec 32
  loss : BitVec 32
  gap : BitVec 32
  duplicate : BitVec 32
  latency64 : Option (BitVec 64)
  jitter64 : Option (BitVec 64)
  corr : Option (BitVec 32 × BitVec 32 × BitVec 32)
  reorder : Option (BitVec 32 × BitVec 32)
  corrupt : Option (BitVec 32 × BitVec 32)
  rate : Option (BitVec 32)
  rate64 : Option (BitVec 64)

namespace NetemConfig

variable (config : NetemConfig)

/-- The gap of a reordering that is given none is one. -/
def effectiveGap : BitVec 32 :=
  if config.reorder.isZero = false ∧ config.gap = 0 then 1 else config.gap

/-- A probability, if the percentage is not zero. -/
def probability (percent : Percent) : BitVec 32 :=
  if percent.isZero then 0 else percent.kernelProbability

/-- `as_nanos() as i64`. -/
def asNanos (duration : Duration) : BitVec 64 :=
  BitVec.ofNat 64 duration.nanos

/-- `write_options`; reordering needs a delay. -/
def writeOptions : Except String NetemAttrs :=
  if config.reorder.isZero = false ∧ config.delay.isNone then
    .error "netem: reorder requires delay to be set"
  else
    .ok
      { limit := config.limit
        loss := probability config.loss
        gap := config.effectiveGap
        duplicate := probability config.duplicate
        latency64 := config.delay.map asNanos
        jitter64 := config.jitter.map asNanos
        corr :=
          if config.delayCorrelation.isZero && config.lossCorrelation.isZero &&
              config.duplicateCorrelation.isZero then
            none
          else
            some (config.delayCorrelation.kernelProbability,
              config.lossCorrelation.kernelProbability,
              config.duplicateCorrelation.kernelProbability)
        reorder :=
          if config.reorder.isZero then
            none
          else
            some (config.reorder.kernelProbability, config.reorderCorrelation.kernelProbability)
        corrupt :=
          if config.corrupt.isZero then
            none
          else
            some (config.corrupt.kernelProbability, config.corruptCorrelation.kernelProbability)
        rate := config.rate.map fun rate =>
          BitVec.ofNat 32 (min rate.bytesPerSec.toNat (2 ^ 32 - 1))
        rate64 := config.rate.bind fun rate =>
          if 2 ^ 32 - 1 < rate.bytesPerSec.toNat then some rate.bytesPerSec else none }

end NetemConfig

/-- What a netem reports of itself. -/
structure NetemOptions where
  delayNs : BitVec 64
  jitterNs : BitVec 64
  delayCorr : BitVec 32
  lossRaw : BitVec 32
  lossCorr : BitVec 32
  duplicateRaw : BitVec 32
  duplicateCorr : BitVec 32
  corruptRaw : BitVec 32
  corruptCorr : BitVec 32
  reorderRaw : BitVec 32
  reorderCorr : BitVec 32
  gap : BitVec 32
  rate : BitVec 64
  limit : BitVec 32

/-- The kernel takes what is not written as zero. -/
def NetemAttrs.settled (attrs : NetemAttrs) : NetemOptions where
  delayNs := attrs.latency64.getD 0
  jitterNs := attrs.jitter64.getD 0
  delayCorr := (attrs.corr.map (·.1)).getD 0
  lossRaw := attrs.loss
  lossCorr := (attrs.corr.map (·.2.1)).getD 0
  duplicateRaw := attrs.duplicate
  duplicateCorr := (attrs.corr.map (·.2.2)).getD 0
  corruptRaw := (attrs.corrupt.map (·.1)).getD 0
  corruptCorr := (attrs.corrupt.map (·.2)).getD 0
  reorderRaw := (attrs.reorder.map (·.1)).getD 0
  reorderCorr := (attrs.reorder.map (·.2)).getD 0
  gap := attrs.gap
  rate := attrs.rate64.getD ((attrs.rate.getD 0).setWidth 64)
  limit := attrs.limit

end Nlink.Tc
