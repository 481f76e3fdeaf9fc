import Mathlib.Algebra.Order.Floor.Semiring
import Mathlib.Data.List.Pairwise
import Mathlib.Data.Rat.Floor
import Mathlib.Tactic.GCongr
import Mathlib.Tactic.Linarith
import Mathlib.Tactic.NormNum
import Mathlib.Tactic.Positivity
import Mathlib.Tactic.Ring
import Nlink.Foundation.Collect

namespace Nlink.RateTable

open Foundation

/-!
# Rate tables

A rate table has the ticks that a packet takes on the wire, one entry for each
cell of packet lengths.  The cell grows until the longest packet has an entry,
and the length an entry is made for is the end of its cell.
-/

/-- Microseconds per second. -/
def TIME_UNITS_PER_SEC : ℚ := 1000000

def TC_RTAB_SIZE : Nat := 1024

def TC_RTAB_ENTRIES : Nat := TC_RTAB_SIZE / 4

/-- The largest number of 32 bits. -/
def U32_MAX : Nat := 2 ^ 32 - 1

/-- Link layer a rate table is computed for. -/
inductive LinkLayer where
  | unaware
  | ethernet
  | atm
  deriving DecidableEq

def LinkLayer.number : LinkLayer → BitVec 8
  | .unaware => 0
  | .ethernet => 1
  | .atm => 2

/-- What a token bucket says of its rate. -/
structure TcRateSpec where
  cellLog : BitVec 8
  linklayer : BitVec 8
  overhead : BitVec 16
  cellAlign : BitVec 16
  mpu : BitVec 16
  rate : BitVec 32

/-- The clock of the packet scheduler; it never stands still. -/
structure Psched where
  tickInUsec : ℚ
  clockFactor : ℚ
  hz : BitVec 64
  ticking : 0 < tickInUsec

/-- The constants of a kernel with a nanosecond clock. -/
def Psched.MODERN : Psched where
  tickInUsec := 125 / 8
  clockFactor := 1
  hz := 1000000000
  ticking := by norm_num

/-- Clamp a number into 32 bits. -/
def saturateU32 (value : ℚ) : BitVec 32 :=
  if value ≤ 0 then 0
  else if (U32_MAX : ℚ) ≤ value then BitVec.ofNat 32 U32_MAX
  else BitVec.ofNat 32 ⌊value⌋₊

/-- Adjust a packet size for the link layer; a product beyond 32 bits overflows. -/
def adjustSize (size : BitVec 32) (mpu : BitVec 16) (linklayer : LinkLayer) :
    Option (BitVec 32) :=
  let size := if size.toNat < mpu.toNat then mpu.setWidth 32 else size
  match linklayer with
  | .atm =>
      let wire := (size.toNat + 47) / 48 * 53
      if wire ≤ U32_MAX then some (BitVec.ofNat 32 wire) else none
  | .ethernet | .unaware => some size

/--
The first shift that brings the longest packet below the number of entries.

A shift by as many bits as the number has panics, which is where the search ends.
-/
def cellLogFrom (mtu : BitVec 32) : Nat → Nat → Option Nat
  | 0, _ => none
  | left + 1, cellLog =>
      if TC_RTAB_ENTRIES - 1 < (mtu >>> cellLog).toNat then
        cellLogFrom mtu left (cellLog + 1)
      else
        some cellLog

namespace Psched

variable (self : Psched)

/-- Microseconds in ticks. -/
def time2tick (timeUs : ℚ) : BitVec 32 :=
  saturateU32 (timeUs * self.tickInUsec)

/-- Ticks taken to transmit a packet; without a rate there are none. -/
def calcXmittime (rate : BitVec 64) (size : BitVec 32) : BitVec 32 :=
  if rate = 0 then 0 else
    let secs := (size.toNat : ℚ) / rate.toNat
    self.time2tick (TIME_UNITS_PER_SEC * secs)

/-- One entry of a rate table. -/
def rtabEntry (mpu : BitVec 16) (rate : BitVec 64) (linklayer : LinkLayer) (cellLog i : Nat) :
    Option (BitVec 32) :=
  -- The shift itself never fails, it drops the bits that leave the word.
  (adjustSize (BitVec.ofNat 32 (i + 1) <<< cellLog) mpu linklayer).map (self.calcXmittime rate)

/-- Build a rate table and stamp the matching fields into the rate. -/
def calcRtable (spec : TcRateSpec) (rate : BitVec 64) (mtu : BitVec 32) (linklayer : LinkLayer) :
    Option (TcRateSpec × List (BitVec 32)) := do
  let mtu := if mtu = 0 then 2047 else mtu
  let cellLog ← cellLogFrom mtu 32 0
  let table ← (List.range TC_RTAB_ENTRIES).mapM (self.rtabEntry spec.mpu rate linklayer cellLog)
  pure ({ spec with
    cellLog := BitVec.ofNat 8 cellLog
    cellAlign := -1
    linklayer := linklayer.number &&& 0x0f }, table)

/-- The ticks that some bytes take, without a limit and not cut. -/
def exactTicks (rate : BitVec 64) (size : Nat) : ℚ :=
  TIME_UNITS_PER_SEC * ((size : ℚ) / rate.toNat) * self.tickInUsec

/-- The whole ticks that some bytes take, at most as many as 32 bits hold. -/
def wholeTicks (rate : BitVec 64) (size : Nat) : Nat :=
  min ⌊self.exactTicks rate size⌋₊ U32_MAX

variable {self} {rate : BitVec 64}

theorem exactTicks_nonneg (size : Nat) : 0 ≤ self.exactTicks rate size :=
  mul_nonneg (mul_nonneg (by norm_num [TIME_UNITS_PER_SEC]) (by positivity)) self.ticking.le

theorem exactTicks_mono {first second : Nat} (le : first ≤ second) :
    self.exactTicks rate first ≤ self.exactTicks rate second := by
  have longer : (first : ℚ) / rate.toNat ≤ (second : ℚ) / rate.toNat := by gcongr
  have clocked : TIME_UNITS_PER_SEC * ((first : ℚ) / rate.toNat) ≤
      TIME_UNITS_PER_SEC * ((second : ℚ) / rate.toNat) :=
    mul_le_mul_of_nonneg_left longer (by norm_num [TIME_UNITS_PER_SEC])
  exact mul_le_mul_of_nonneg_right clocked self.ticking.le

theorem wholeTicks_mono {first second : Nat} (le : first ≤ second) :
    self.wholeTicks rate first ≤ self.wholeTicks rate second :=
  min_le_min_right _ (Nat.floor_le_floor (exactTicks_mono le))

theorem exactTicks_add (first second : Nat) : self.exactTicks rate (first + second) =
    self.exactTicks rate first + self.exactTicks rate second := by
  simp only [exactTicks, Nat.cast_add]
  ring

@[simp]
theorem exactTicks_zero_rate (size : Nat) : self.exactTicks 0 size = 0 := by
  simp [exactTicks]

theorem toNat_saturateU32 {value : ℚ} (nonneg : 0 ≤ value) :
    (saturateU32 value).toNat = min ⌊value⌋₊ U32_MAX := by
  rw [saturateU32]
  split_ifs with none all
  · rw [le_antisymm none nonneg, Nat.floor_zero, Nat.zero_min]
    rfl
  · rw [min_eq_right (Nat.le_floor all)]
    rfl
  · have below : ⌊value⌋₊ < U32_MAX := (Nat.floor_lt nonneg).mpr (not_le.mp all)
    rw [min_eq_left below.le, BitVec.toNat_ofNat]
    exact Nat.mod_eq_of_lt (below.trans (by decide))

theorem toNat_calcXmittime (size : BitVec 32) :
    (self.calcXmittime rate size).toNat = self.wholeTicks rate size.toNat := by
  rw [calcXmittime]
  split_ifs with still
  · rw [still, wholeTicks, exactTicks_zero_rate, Nat.floor_zero, Nat.zero_min]
    rfl
  · exact toNat_saturateU32 (exactTicks_nonneg size.toNat)

/-- Ticks that are none once they are cut were less than one. -/
theorem exactTicks_lt_one (size : Nat) (none : self.wholeTicks rate size = 0) :
    self.exactTicks rate size < 1 := by
  rcases Nat.min_eq_zero_iff.mp none with below | full
  · exact Nat.floor_eq_zero.mp below
  · cases full

/--
Bytes that are more than twice as many take no more whole ticks exactly if there
is no rate, if even they take less than a tick, or if the fewer reach the limit.
-/
theorem wholeTicks_le_iff {few many : Nat} (more : 2 * few < many) :
    self.wholeTicks rate many ≤ self.wholeTicks rate few ↔
      rate = 0 ∨ self.exactTicks rate many < 1 ∨ (U32_MAX : ℚ) ≤ self.exactTicks rate few := by
  constructor
  · intro le
    by_contra! none
    obtain ⟨-, ticks, below⟩ := none
    have few_lt : ⌊self.exactTicks rate few⌋₊ < U32_MAX :=
      (Nat.floor_lt (exactTicks_nonneg few)).mpr below
    have twice : self.exactTicks rate few + self.exactTicks rate few ≤
        self.exactTicks rate many := by
      rw [← exactTicks_add]
      exact exactTicks_mono (by omega)
    have next : ⌊self.exactTicks rate few⌋₊ + 1 ≤ ⌊self.exactTicks rate many⌋₊ := by
      apply Nat.le_floor
      have cut := Nat.floor_le (@exactTicks_nonneg self rate few)
      push_cast
      rcases Nat.eq_zero_or_pos ⌊self.exactTicks rate few⌋₊ with zero | pos
      · rw [zero]
        simpa using ticks
      · have one : (1 : ℚ) ≤ ⌊self.exactTicks rate few⌋₊ := by exact_mod_cast pos
        linarith
    rw [wholeTicks, wholeTicks, min_eq_left few_lt.le] at le
    omega
  · rintro (rfl | small | full)
    · rw [wholeTicks, exactTicks_zero_rate, Nat.floor_zero, Nat.zero_min]
      exact Nat.zero_le _
    · rw [wholeTicks, Nat.floor_eq_zero.mpr small, Nat.zero_min]
      exact Nat.zero_le _
    · rw [wholeTicks, wholeTicks, min_eq_right (Nat.le_floor full)]
      exact min_le_right _ _

end Psched

/-!
## What a rate table is looked up for

The kernel shifts the length of a packet, less one, by the logarithm of the cell
and takes the entry there.  A packet of at least 2 gigabytes is looked up in cells
whose last one ends where 32 bits do.
-/

/-- The bytes that a packet is billed for: at least `mpu`, and whole cells of ATM. -/
def billedSize (linklayer : LinkLayer) (mpu len : Nat) : Nat :=
  match linklayer with
  | .atm => (max len mpu + 47) / 48 * 53
  | .ethernet | .unaware => max len mpu

theorem billedSize_mono (linklayer : LinkLayer) (mpu : Nat) {first second : Nat}
    (le : first ≤ second) : billedSize linklayer mpu first ≤ billedSize linklayer mpu second := by
  have longer : max first mpu ≤ max second mpu := max_le_max_right _ le
  cases linklayer with
  | atm => exact Nat.mul_le_mul_right 53 (Nat.div_le_div_right (by omega))
  | ethernet => exact longer
  | unaware => exact longer

theorem adjustSize_eq (size : BitVec 32) (mpu : BitVec 16) (linklayer : LinkLayer) :
    adjustSize size mpu linklayer =
      if billedSize linklayer mpu.toNat size.toNat ≤ U32_MAX then
        some (BitVec.ofNat 32 (billedSize linklayer mpu.toNat size.toNat))
      else none := by
  have larger : (if size.toNat < mpu.toNat then mpu.setWidth 32 else size).toNat =
      max size.toNat mpu.toNat := by
    split_ifs with less
    · rw [max_eq_right less.le, BitVec.toNat_setWidth,
        Nat.mod_eq_of_lt (mpu.isLt.trans (by decide))]
    · rw [max_eq_left (Nat.le_of_not_lt less)]
  have fits : max size.toNat mpu.toNat ≤ U32_MAX := by
    rw [← larger]
    exact Nat.le_pred_of_lt (BitVec.isLt _)
  cases linklayer with
  | atm =>
      simp only [adjustSize, larger]
      rfl
  | ethernet | unaware =>
      refine Eq.trans ?_ (if_pos fits).symm
      change some _ = some (BitVec.ofNat 32 (max size.toNat mpu.toNat))
      rw [← larger, BitVec.ofNat_toNat, BitVec.setWidth_eq]

/-- The first shift that leaves 8 bits of a number; it has no smaller one. -/
theorem cellLogFrom_eq (mtu : BitVec 32) : ∃ cellLog, cellLogFrom mtu 32 0 = some cellLog ∧
    mtu.toNat / 2 ^ cellLog ≤ 255 ∧ (cellLog = 0 ∨ 255 < mtu.toNat / 2 ^ (cellLog - 1)) := by
  have search : ∀ left cellLog, mtu.toNat < 2 ^ (cellLog + left + 7) →
      (cellLog = 0 ∨ 255 < mtu.toNat / 2 ^ (cellLog - 1)) → (left = 0 → cellLog ≠ 0) →
      ∃ found, cellLogFrom mtu left cellLog = some found ∧ mtu.toNat / 2 ^ found ≤ 255 ∧
        (found = 0 ∨ 255 < mtu.toNat / 2 ^ (found - 1)) := by
    intro left
    induction left with
    | zero =>
        intro cellLog below before started
        have above := before.resolve_left (started rfl)
        rw [← Nat.succ_le_iff, Nat.le_div_iff_mul_le (Nat.two_pow_pos _)] at above
        have split : 2 ^ (cellLog + 0 + 7) = 2 ^ 8 * 2 ^ (cellLog - 1) := by
          rw [← Nat.pow_add]
          congr 1
          have := started rfl
          omega
        omega
    | succ left ih =>
        intro cellLog below before _
        have shifted : (mtu >>> cellLog).toNat = mtu.toNat / 2 ^ cellLog := by
          rw [BitVec.toNat_ushiftRight, Nat.shiftRight_eq_div_pow]
        rw [cellLogFrom, shifted]
        split_ifs with above
        · exact ih (cellLog + 1) (by rwa [show cellLog + 1 + left + 7 = cellLog + (left + 1) + 7
            by omega]) (.inr above) fun _ => Nat.succ_ne_zero cellLog
        · exact ⟨cellLog, rfl, Nat.le_of_not_lt above, before⟩
  exact search 32 0 (mtu.isLt.trans (by decide)) (.inl rfl) (by decide)

/-- The length that an entry is made for; the bits over 32 are dropped. -/
def slotSize (cellLog i : Nat) : Nat :=
  (i + 1) * 2 ^ cellLog % 2 ^ 32

variable {self : Psched} {spec : TcRateSpec} {rate : BitVec 64} {mtu : BitVec 32}
  {linklayer : LinkLayer}

theorem rtabEntry_eq (mpu : BitVec 16) (cellLog : Nat) {i : Nat} (inside : i < 256) :
    self.rtabEntry mpu rate linklayer cellLog i =
      if billedSize linklayer mpu.toNat (slotSize cellLog i) ≤ U32_MAX then
        some (BitVec.ofNat 32 (self.wholeTicks rate
          (billedSize linklayer mpu.toNat (slotSize cellLog i))))
      else none := by
  have small : i + 1 < 2 ^ 32 := by omega
  have size : (BitVec.ofNat 32 (i + 1) <<< cellLog).toNat = slotSize cellLog i := by
    rw [BitVec.toNat_shiftLeft, BitVec.toNat_ofNat, Nat.shiftLeft_eq,
      Nat.mod_eq_of_lt small, slotSize]
  rw [Psched.rtabEntry, adjustSize_eq, size]
  split_ifs with fits
  · have ticks := @Psched.toNat_calcXmittime self rate
      (BitVec.ofNat 32 (billedSize linklayer mpu.toNat (slotSize cellLog i)))
    rw [BitVec.toNat_ofNat, Nat.mod_eq_of_lt (Nat.lt_of_le_pred (by decide) fits)] at ticks
    rw [Option.map_some, ← ticks, BitVec.ofNat_toNat, BitVec.setWidth_eq]
  · rfl

/-- The table of a cell size. -/
def ticksOf (self : Psched) (mpu : BitVec 16) (rate : BitVec 64) (linklayer : LinkLayer)
    (cellLog : Nat) : List (BitVec 32) :=
  (List.range 256).map fun i =>
    BitVec.ofNat 32 (self.wholeTicks rate (billedSize linklayer mpu.toNat (slotSize cellLog i)))

/-- The longest packet that a table is made for. -/
def effectiveMtu (mtu : BitVec 32) : BitVec 32 :=
  if mtu = 0 then 2047 else mtu

theorem calcRtable_eq {cellLog : Nat} (isLog : cellLogFrom (effectiveMtu mtu) 32 0 = some cellLog) :
    self.calcRtable spec rate mtu linklayer =
      if ∀ i ∈ List.range 256, billedSize linklayer spec.mpu.toNat (slotSize cellLog i) ≤ U32_MAX
      then some ({ spec with
        cellLog := BitVec.ofNat 8 cellLog
        cellAlign := -1
        linklayer := linklayer.number &&& 0x0f },
        ticksOf self spec.mpu rate linklayer cellLog)
      else none := by
  have entries := mapM_guard fun i (member : i ∈ List.range 256) =>
    @rtabEntry_eq self rate linklayer spec.mpu cellLog i (List.mem_range.mp member)
  rw [effectiveMtu] at isLog
  simp only [Psched.calcRtable, isLog, Option.bind_eq_bind, Option.bind_some]
  rw [show TC_RTAB_ENTRIES = 256 from rfl, entries]
  split_ifs <;> rfl

/-- A table serves the packets of at most `mtu` bytes. -/
structure Serves (clock : Psched) (stamped : TcRateSpec) (table : List (BitVec 32))
    (rate : BitVec 64) (mtu : BitVec 32) (linklayer : LinkLayer) : Prop where
  shiftable : stamped.cellLog.toNat < 32
  addressed : (mtu >>> stamped.cellLog.toNat).toNat ≤ 255
  whole : table.length = 256
  sorted : table.Pairwise fun before behind => before.toNat ≤ behind.toNat
  covered : ∀ len, 1 ≤ len → len ≤ mtu.toNat → ∃ entry,
    table[(len - 1) >>> stamped.cellLog.toNat]? = some entry ∧
      clock.wholeTicks rate (billedSize linklayer stamped.mpu.toNat len) ≤ entry.toNat ∧
      (entry = 0 →
        rate = 0 ∨ clock.exactTicks rate (billedSize linklayer stamped.mpu.toNat len) < 1)

/-- A rate table is built, without an overflow, that serves every packet of the `mtu`. -/
def Usable (self : Psched) (spec : TcRateSpec) (rate : BitVec 64) (mtu : BitVec 32)
    (linklayer : LinkLayer) : Prop :=
  ∃ stamped table, self.calcRtable spec rate mtu linklayer = some (stamped, table) ∧
    stamped.mpu = spec.mpu ∧ Serves self stamped table rate mtu linklayer

theorem wholeTicks_le_max (size : Nat) : self.wholeTicks rate size ≤ U32_MAX :=
  min_le_right _ _

theorem toNat_wholeTicks (size : Nat) :
    (BitVec.ofNat 32 (self.wholeTicks rate size)).toNat = self.wholeTicks rate size := by
  rw [BitVec.toNat_ofNat, Nat.mod_eq_of_lt (Nat.lt_of_le_pred (by decide) (wholeTicks_le_max size))]

theorem getElem?_ticksOf (mpu : BitVec 16) (cellLog : Nat) {i : Nat} (inside : i < 256) :
    (ticksOf self mpu rate linklayer cellLog)[i]? = some (BitVec.ofNat 32
      (self.wholeTicks rate (billedSize linklayer mpu.toNat (slotSize cellLog i)))) := by
  rw [ticksOf, List.getElem?_map, List.getElem?_range inside, Option.map_some]

/-- What a table has to have of its cells to serve the packets. -/
theorem serves_ticksOf_iff {stamped : TcRateSpec} {mpu : BitVec 16} {cellLog : Nat}
    (isMpu : stamped.mpu = mpu) (isLog : stamped.cellLog = BitVec.ofNat 8 cellLog)
    (shiftable : cellLog < 32) (addressed : mtu.toNat / 2 ^ cellLog ≤ 255) :
    Serves self stamped (ticksOf self mpu rate linklayer cellLog) rate mtu linklayer ↔
      (∀ i j, i < j → j < 256 →
        self.wholeTicks rate (billedSize linklayer mpu.toNat (slotSize cellLog i)) ≤
          self.wholeTicks rate (billedSize linklayer mpu.toNat (slotSize cellLog j))) ∧
      ∀ len, 1 ≤ len → len ≤ mtu.toNat →
        self.wholeTicks rate (billedSize linklayer mpu.toNat len) ≤
          self.wholeTicks rate (billedSize linklayer mpu.toNat
            (slotSize cellLog ((len - 1) / 2 ^ cellLog))) := by
  subst isMpu
  have log : stamped.cellLog.toNat = cellLog := by
    rw [isLog, BitVec.toNat_ofNat, Nat.mod_eq_of_lt (by omega)]
  have inside : ∀ len, len ≤ mtu.toNat → (len - 1) / 2 ^ cellLog < 256 := fun len le =>
    Nat.lt_succ_of_le ((Nat.div_le_div_right (by omega)).trans addressed)
  constructor
  · intro serves
    refine ⟨fun i j less bound => ?_, fun len positive le => ?_⟩
    · have sorted := List.pairwise_iff_getElem.mp serves.sorted i j
        (by rw [serves.whole]; omega) (by rw [serves.whole]; exact bound) less
      simpa only [ticksOf, List.getElem_map, List.getElem_range, toNat_wholeTicks] using sorted
    · obtain ⟨entry, isEntry, ticks, -⟩ := serves.covered len positive le
      rw [log, Nat.shiftRight_eq_div_pow, getElem?_ticksOf _ _ (inside len le)] at isEntry
      rwa [← Option.some.inj isEntry, toNat_wholeTicks] at ticks
  · rintro ⟨sorted, covered⟩
    refine ⟨by rwa [log], ?_, by simp [ticksOf], ?_, fun len positive le => ?_⟩
    · rwa [log, BitVec.toNat_ushiftRight, Nat.shiftRight_eq_div_pow]
    · refine List.pairwise_map.mpr (List.pairwise_iff_getElem.mpr fun i j _ bound less => ?_)
      rw [List.length_range] at bound
      simp only [List.getElem_range, toNat_wholeTicks]
      exact sorted i j less bound
    · have ticks := covered len positive le
      refine ⟨_, by rw [log, Nat.shiftRight_eq_div_pow, getElem?_ticksOf _ _ (inside len le)],
        by rwa [toNat_wholeTicks], fun none => .inr ?_⟩
      have zero := congrArg BitVec.toNat none
      rw [toNat_wholeTicks] at zero
      exact Psched.exactTicks_lt_one _ (Nat.le_zero.mp (ticks.trans zero.le))

/-- A table is usable exactly if no cell overflows and its cells serve the packets. -/
theorem usable_iff_cells {cellLog : Nat}
    (isLog : cellLogFrom (effectiveMtu mtu) 32 0 = some cellLog) (shiftable : cellLog < 32)
    (addressed : mtu.toNat / 2 ^ cellLog ≤ 255) : Usable self spec rate mtu linklayer ↔
      (∀ i < 256, billedSize linklayer spec.mpu.toNat (slotSize cellLog i) ≤ U32_MAX) ∧
      (∀ i j, i < j → j < 256 →
        self.wholeTicks rate (billedSize linklayer spec.mpu.toNat (slotSize cellLog i)) ≤
          self.wholeTicks rate (billedSize linklayer spec.mpu.toNat (slotSize cellLog j))) ∧
      ∀ len, 1 ≤ len → len ≤ mtu.toNat →
        self.wholeTicks rate (billedSize linklayer spec.mpu.toNat len) ≤
          self.wholeTicks rate (billedSize linklayer spec.mpu.toNat
            (slotSize cellLog ((len - 1) / 2 ^ cellLog))) := by
  rw [Usable, calcRtable_eq isLog]
  simp only [List.mem_range]
  split_ifs with fits
  · rw [and_iff_right fits]
    constructor
    · rintro ⟨_, _, ⟨⟩, -, serves⟩
      exact (serves_ticksOf_iff (by rfl) (by rfl) shiftable addressed).mp serves
    · intro cells
      exact ⟨_, _, rfl, rfl, (serves_ticksOf_iff (by rfl) (by rfl) shiftable addressed).mpr cells⟩
  · exact iff_of_false (by rintro ⟨_, _, ⟨⟩, _⟩) fun cells => fits cells.1

/-! ## Packets below 2 gigabytes -/

theorem slotSize_eq {cellLog i : Nat} (low : cellLog ≤ 23) (inside : i < 256) :
    slotSize cellLog i = (i + 1) * 2 ^ cellLog ∧ slotSize cellLog i ≤ 2 ^ 31 := by
  have bound : (i + 1) * 2 ^ cellLog ≤ 256 * 2 ^ 23 :=
    Nat.mul_le_mul (by omega) (Nat.pow_le_pow_right (by decide) low)
  rw [slotSize, Nat.mod_eq_of_lt (by omega)]
  exact ⟨rfl, by omega⟩

theorem billedSize_le (linklayer : LinkLayer) (mpu : BitVec 16) {size : Nat}
    (le : size ≤ 2 ^ 31) : billedSize linklayer mpu.toNat size ≤ U32_MAX := by
  have small := mpu.isLt
  have larger : max size mpu.toNat ≤ 2 ^ 31 := max_le le (by omega)
  rw [U32_MAX]
  cases linklayer with
  | atm =>
      have cells : (max size mpu.toNat + 47) / 48 ≤ (2 ^ 31 + 47) / 48 :=
        Nat.div_le_div_right (by omega)
      exact (Nat.mul_le_mul_right 53 cells).trans (by decide)
  | ethernet | unaware => exact larger.trans (by decide)

/-- A packet is not longer than the end of its cell. -/
theorem le_cellEnd (len cellLog : Nat) : len ≤ ((len - 1) / 2 ^ cellLog + 1) * 2 ^ cellLog := by
  have split := Nat.lt_div_mul_add (Nat.two_pow_pos cellLog) (a := len - 1)
  rw [Nat.add_mul, Nat.one_mul]
  omega

theorem usable_of_lt (low : mtu.toNat < 2 ^ 31) : Usable self spec rate mtu linklayer := by
  have effective : (effectiveMtu mtu).toNat < 2 ^ 31 ∧ mtu.toNat ≤ (effectiveMtu mtu).toNat := by
    rw [effectiveMtu]
    split_ifs with zero
    · rw [zero]
      decide
    · exact ⟨low, le_refl _⟩
  obtain ⟨cellLog, isLog, addressed, least⟩ := cellLogFrom_eq (effectiveMtu mtu)
  have few : cellLog ≤ 23 := by
    rcases least with rfl | above
    · decide
    · by_contra! many
      have smaller : (effectiveMtu mtu).toNat / 2 ^ (cellLog - 1) ≤
          (effectiveMtu mtu).toNat / 2 ^ 23 :=
        Nat.div_le_div_left (Nat.pow_le_pow_right (by decide) (by omega)) (by decide)
      omega
  have inside : mtu.toNat / 2 ^ cellLog ≤ 255 :=
    (Nat.div_le_div_right effective.2).trans addressed
  refine (usable_iff_cells isLog (by omega) inside).mpr ⟨fun i bound => ?_,
    fun i j less bound => ?_, fun len positive le => ?_⟩
  · exact billedSize_le linklayer spec.mpu (slotSize_eq few bound).2
  · apply Psched.wholeTicks_mono
    apply billedSize_mono
    rw [(slotSize_eq few bound).1, (slotSize_eq few (less.trans bound)).1]
    exact Nat.mul_le_mul_right _ (by omega)
  · apply Psched.wholeTicks_mono
    apply billedSize_mono
    have cell : (len - 1) / 2 ^ cellLog < 256 :=
      Nat.lt_succ_of_le ((Nat.div_le_div_right (by omega)).trans inside)
    rw [(slotSize_eq few cell).1]
    exact le_cellEnd len cellLog

/-! ## Packets of 2 gigabytes and more -/

theorem cellLogFrom_top (high : 2 ^ 31 ≤ mtu.toNat) :
    cellLogFrom (effectiveMtu mtu) 32 0 = some 24 ∧ mtu.toNat / 2 ^ 24 ≤ 255 := by
  have bound := mtu.isLt
  have effective : effectiveMtu mtu = mtu := by
    rw [effectiveMtu, if_neg]
    rintro rfl
    exact absurd high (by decide)
  obtain ⟨cellLog, isLog, addressed, least⟩ := cellLogFrom_eq (effectiveMtu mtu)
  rw [effective] at isLog addressed least ⊢
  have log : cellLog = 24 := by
    apply le_antisymm
    · rcases least with rfl | above
      · decide
      · by_contra! many
        have smaller : mtu.toNat / 2 ^ (cellLog - 1) ≤ mtu.toNat / 2 ^ 24 :=
          Nat.div_le_div_left (Nat.pow_le_pow_right (by decide) (by omega)) (by decide)
        omega
    · by_contra! few
      have larger : mtu.toNat / 2 ^ 23 ≤ mtu.toNat / 2 ^ cellLog :=
        Nat.div_le_div_left (Nat.pow_le_pow_right (by decide) (by omega)) (Nat.two_pow_pos _)
      omega
  rw [log] at isLog addressed
  exact ⟨isLog, addressed⟩

/-- A slot of the largest cells; the last one has lost its only bit. -/
theorem slotSize_top {i : Nat} (inside : i < 256) :
    slotSize 24 i = if i = 255 then 0 else (i + 1) * 2 ^ 24 := by
  rw [slotSize]
  split_ifs with last
  · rw [last]
    rfl
  · exact Nat.mod_eq_of_lt (by omega)

theorem not_usable_atm (high : 2 ^ 31 ≤ mtu.toNat) : ¬ Usable self spec rate mtu .atm := by
  obtain ⟨isLog, addressed⟩ := cellLogFrom_top high
  intro usable
  have fits := ((usable_iff_cells isLog (by decide) addressed).mp usable).1 231 (by decide)
  have more : billedSize .atm 0 (slotSize 24 231) ≤
      billedSize .atm spec.mpu.toNat (slotSize 24 231) :=
    Nat.mul_le_mul_right 53 (Nat.div_le_div_right (by omega))
  exact absurd (more.trans fits) (by decide)

/-- The length that the last cell has to be good for. -/
def lastCell (mtu : BitVec 32) : Nat :=
  max mtu.toNat (255 * 2 ^ 24)

theorem usable_top_iff (high : 2 ^ 31 ≤ mtu.toNat) (plain : linklayer ≠ .atm) :
    Usable self spec rate mtu linklayer ↔
      self.wholeTicks rate (lastCell mtu) ≤ self.wholeTicks rate spec.mpu.toNat := by
  obtain ⟨isLog, addressed⟩ := cellLogFrom_top high
  have small := spec.mpu.isLt
  have bound := mtu.isLt
  have billed : ∀ size, billedSize linklayer spec.mpu.toNat size = max size spec.mpu.toNat := by
    intro size
    cases linklayer with
    | atm => exact absurd rfl plain
    | ethernet | unaware => rfl
  have lastSlot : max (slotSize 24 255) spec.mpu.toNat = spec.mpu.toNat := Nat.zero_max _
  have slot : ∀ i < 255, max (slotSize 24 i) spec.mpu.toNat = (i + 1) * 2 ^ 24 := by
    intro i before
    rw [slotSize_top (by omega), if_neg (by omega)]
    omega
  rw [usable_iff_cells isLog (by decide) addressed]
  simp only [billed]
  constructor
  · rintro ⟨-, sorted, covered⟩
    by_cases long : 255 * 2 ^ 24 < mtu.toNat
    · have last := covered mtu.toNat (by omega) (Nat.le_refl _)
      rw [show (mtu.toNat - 1) / 2 ^ 24 = 255 by omega, lastSlot, max_eq_left (by omega)] at last
      rwa [lastCell, max_eq_left long.le]
    · have last := sorted 254 255 (by decide) (by decide)
      rw [lastSlot, slot 254 (by decide)] at last
      rwa [lastCell, max_eq_right (Nat.le_of_not_lt long)]
  · intro last
    have below : ∀ size, size ≤ lastCell mtu →
        self.wholeTicks rate size ≤ self.wholeTicks rate spec.mpu.toNat :=
      fun size le => (Psched.wholeTicks_mono le).trans last
    refine ⟨fun i inside => ?_, fun i j less inside => ?_, fun len positive le => ?_⟩
    · rw [slotSize_top inside, U32_MAX]
      split_ifs <;> omega
    · rw [slot i (by omega)]
      by_cases isLast : j = 255
      · rw [isLast, lastSlot]
        exact below _ (by rw [lastCell]; omega)
      · rw [slot j (by omega)]
        exact Psched.wholeTicks_mono (Nat.mul_le_mul_right _ (by omega))
    · have cell := le_cellEnd len 24
      have inside : (len - 1) / 2 ^ 24 < 256 := by omega
      by_cases isLast : (len - 1) / 2 ^ 24 = 255
      · rw [isLast, lastSlot]
        exact below _ (max_le (le.trans (le_max_left _ _)) (by rw [lastCell]; omega))
      · rw [slot _ (by omega)]
        exact Psched.wholeTicks_mono (max_le cell (by omega))

/--
A rate table is usable exactly for packets below 2 gigabytes, or, where no cells of
ATM are counted, if the time of the longest packet cannot be told from that of the
least billed size.
-/
theorem usable_iff : Usable self spec rate mtu linklayer ↔ mtu.toNat < 2 ^ 31 ∨
    linklayer ≠ .atm ∧ (rate = 0 ∨ self.exactTicks rate (lastCell mtu) < 1 ∨
      (U32_MAX : ℚ) ≤ self.exactTicks rate spec.mpu.toNat) := by
  by_cases low : mtu.toNat < 2 ^ 31
  · exact iff_of_true (usable_of_lt low) (.inl low)
  · have high := Nat.le_of_not_lt low
    rw [or_iff_right low]
    by_cases plain : linklayer = .atm
    · rw [plain]
      exact iff_of_false (not_usable_atm high) fun cells => cells.1 rfl
    · have small := spec.mpu.isLt
      rw [usable_top_iff high plain, Psched.wholeTicks_le_iff (by rw [lastCell]; omega),
        and_iff_right plain]

/-- At a megabit, the last entry for packets of any length is none. -/
theorem not_usable_megabit :
    ¬ Usable Psched.MODERN ⟨0, 0, 0, 0, 0, 125000⟩ 125000 (BitVec.ofNat 32 U32_MAX) .ethernet := by
  rw [usable_top_iff (by decide) (by decide)]
  have first : Psched.MODERN.wholeTicks 125000 0 = 0 := by
    simp [Psched.wholeTicks, Psched.exactTicks]
  have last : 1 ≤ Psched.MODERN.wholeTicks 125000 (lastCell (BitVec.ofNat 32 U32_MAX)) := by
    refine le_min (Nat.le_floor ?_) (by decide)
    rw [show lastCell (BitVec.ofNat 32 U32_MAX) = 4294967295 by decide]
    have bytes : (125000 : BitVec 64).toNat = 125000 := rfl
    norm_num [Psched.exactTicks, Psched.MODERN, TIME_UNITS_PER_SEC, bytes]
  intro le
  change _ ≤ Psched.MODERN.wholeTicks 125000 0 at le
  omega

end Nlink.RateTable
