import Nlink.GenlRequest
import Nlink.NetlinkAttrCut
import Nlink.TcRecipe

namespace Nlink.Tc.Wire

open Foundation Netlink List Writer

/-!
# Netem options as bytes

The options of a netem are a structure of six words and attributes behind it.
The program writes them, the kernel reports them in the same form, and the
program reads them into what it compares with a configuration.
-/

def TCA_NETEM_CORR : Nat := 1
def TCA_NETEM_REORDER : Nat := 3
def TCA_NETEM_CORRUPT : Nat := 4
def TCA_NETEM_LOSS : Nat := 5
def TCA_NETEM_RATE : Nat := 6
def TCA_NETEM_ECN : Nat := 7
def TCA_NETEM_RATE64 : Nat := 8
def TCA_NETEM_LATENCY64 : Nat := 10
def TCA_NETEM_JITTER64 : Nat := 11
def TCA_NETEM_SLOT : Nat := 12

def NETEM_LOSS_GI : Nat := 1
def NETEM_LOSS_GE : Nat := 2

attribute [simp] TCA_NETEM_CORR TCA_NETEM_REORDER TCA_NETEM_CORRUPT TCA_NETEM_RATE
  TCA_NETEM_ECN TCA_NETEM_RATE64 TCA_NETEM_LATENCY64 TCA_NETEM_JITTER64

variable (order : ByteOrder)

/-- Numbers of four bytes, one behind another. -/
def words (numbers : List (BitVec 32)) : List UInt8 :=
  numbers.flatMap fun number => order.toBytes 4 number.toNat

/-- The number in the four bytes from an offset on. -/
def wordAt (data : List UInt8) (offset : Nat) : BitVec 32 :=
  readU32 order (data.drop offset)

/-- The number in the eight bytes from an offset on. -/
def longAt (data : List UInt8) (offset : Nat) : BitVec 64 :=
  BitVec.ofNat 64 (order.ofBytes ((data.drop offset).take 8))

/-!
## Writing
-/

structure TcNetemQopt where
  latency : BitVec 32
  limit : BitVec 32
  loss : BitVec 32
  gap : BitVec 32
  duplicate : BitVec 32
  jitter : BitVec 32

namespace TcNetemQopt

def SIZE : Nat := 24

def asBytes (qopt : TcNetemQopt) : List UInt8 :=
  words order [qopt.latency, qopt.limit, qopt.loss, qopt.gap, qopt.duplicate, qopt.jitter]

end TcNetemQopt

section Writing

variable (config : NetemConfig)

/-- The structure that `write_options` builds. -/
def qoptOf : TcNetemQopt where
  latency := (config.delay.map Duration.asMicros).getD 0
  limit := config.limit
  loss := NetemConfig.probability config.loss
  gap := config.effectiveGap
  duplicate := NetemConfig.probability config.duplicate
  jitter := (config.jitter.map Duration.asMicros).getD 0

/-- `TcNetemRate`, with a rate only. -/
def rateBytes (rate : BitVec 32) : List UInt8 :=
  words order [rate, 0, 0, 0]

/-- A rate over 32 bits goes into a second attribute. -/
def writeRate (rate : Rate) : Writer order :=
  if 2 ^ 32 - 1 < rate.bytesPerSec.toNat then
    (Writer.attr TCA_NETEM_RATE (rateBytes order (BitVec.allOnes 32))).andThen
      (.attr TCA_NETEM_RATE64 (order.toBytes 8 rate.bytesPerSec.toNat))
  else
    .attr TCA_NETEM_RATE (rateBytes order (rate.bytesPerSec.setWidth 32))

def writeLatency64 : Writer order :=
  .whenSome config.delay fun delay =>
    .attr TCA_NETEM_LATENCY64 (order.toBytes 8 (NetemConfig.asNanos delay).toNat)

def writeJitter64 : Writer order :=
  .whenSome config.jitter fun jitter =>
    .attr TCA_NETEM_JITTER64 (order.toBytes 8 (NetemConfig.asNanos jitter).toNat)

/-- One of the three correlations of `TCA_NETEM_CORR` is set. -/
def correlates : Bool :=
  !config.delayCorrelation.isZero || !config.lossCorrelation.isZero ||
    !config.duplicateCorrelation.isZero

def writeCorr : Writer order :=
  .when (correlates config)
    (.attr TCA_NETEM_CORR (words order [config.delayCorrelation.kernelProbability,
      config.lossCorrelation.kernelProbability, config.duplicateCorrelation.kernelProbability]))

def writeReorder : Writer order :=
  .when (!config.reorder.isZero)
    (.attr TCA_NETEM_REORDER (words order [config.reorder.kernelProbability,
      config.reorderCorrelation.kernelProbability]))

def writeCorrupt : Writer order :=
  .when (!config.corrupt.isZero)
    (.attr TCA_NETEM_CORRUPT (words order [config.corrupt.kernelProbability,
      config.corruptCorrelation.kernelProbability]))

/-- The attributes that `write_options` appends. -/
def writeAttrs : Writer order :=
  .all
    [writeLatency64 order config, writeJitter64 order config, writeCorr order config,
      writeReorder order config, writeCorrupt order config,
      .whenSome config.rate (writeRate order)]

/-- `write_options`; reordering needs a delay. -/
def writeOptions (builder : MessageBuilder) : Except String MessageBuilder :=
  if config.reorder.isZero = false ∧ config.delay.isNone then
    .error "netem: reorder requires delay to be set"
  else
    .ok ((writeAttrs order config).write (builder.appendBytes ((qoptOf config).asBytes order)))

end Writing

/-!
## Reading
-/

/-- `NetemLossModel`, in probabilities. -/
inductive NetemLossModel where
  | gilbertIntuitive (p13 p31 p32 p14 p23 : BitVec 32)
  | gilbertElliot (p r h k1 : BitVec 32)

structure NetemSlotOptions where
  minDelayNs : BitVec 64
  maxDelayNs : BitVec 64
  maxPackets : BitVec 32
  maxBytes : BitVec 32
  distDelayNs : BitVec 64
  distJitterNs : BitVec 64

/-- `NetemOptions`; a percentage is the probability that it is read from. -/
structure NetemOptions extends Tc.NetemOptions where
  packetOverhead : BitVec 32
  cellSize : BitVec 32
  cellOverhead : BitVec 32
  ecn : Bool
  slot : Option NetemSlotOptions
  lossModel : Option NetemLossModel

/-- `NetemOptions::default`. -/
def NetemOptions.default : NetemOptions where
  delayNs := 0
  jitterNs := 0
  delayCorr := 0
  lossRaw := 0
  lossCorr := 0
  duplicateRaw := 0
  duplicateCorr := 0
  corruptRaw := 0
  corruptCorr := 0
  reorderRaw := 0
  reorderCorr := 0
  gap := 0
  rate := 0
  limit := 0
  packetOverhead := 0
  cellSize := 0
  cellOverhead := 0
  ecn := false
  slot := none
  lossModel := none

/-- The loop over attributes that the parsers of options have: a bad length ends
it, and so does an attribute with nothing behind it. -/
def attrLoop {σ : Type} (step : σ → Attribute → σ) : Nat → σ → List UInt8 → σ
  | 0, state, _ => state
  | fuel + 1, state, input =>
      if input.length < 4 then
        state
      else
        let len := order.ofBytes (input.take 2)
        let attrType := order.ofBytes ((input.drop 2).take 2)
        if len < 4 ∨ input.length < len then
          state
        else
          let payload := (input.take len).drop 4
          let state := step state (attrType % 0x4000, payload)
          let aligned := nlaAlign len
          if input.length ≤ aligned then state else attrLoop step fuel state (input.drop aligned)

/-- What a loss model does in `parse_netem_loss_model`. -/
def NetemOptions.addLossModel (opts : NetemOptions) (attr : Attribute) : NetemOptions :=
  let (attrType, payload) := attr
  if attrType = NETEM_LOSS_GI ∧ 20 ≤ payload.length then
    { opts with
      lossModel := some (.gilbertIntuitive (wordAt order payload 0) (wordAt order payload 4)
        (wordAt order payload 8) (wordAt order payload 12) (wordAt order payload 16)) }
  else if attrType = NETEM_LOSS_GE ∧ 16 ≤ payload.length then
    { opts with
      lossModel := some (.gilbertElliot (wordAt order payload 0) (wordAt order payload 4)
        (wordAt order payload 8) (wordAt order payload 12)) }
  else
    opts

def parseNetemLossModel (data : List UInt8) (opts : NetemOptions) : NetemOptions :=
  attrLoop order (NetemOptions.addLossModel order) data.length opts data

namespace NetemOptions

variable (opts : NetemOptions) (payload : List UInt8)

/-- `TCA_NETEM_RATE` may be shorter than its structure. -/
def addRate : NetemOptions :=
  let opts :=
    if 4 ≤ payload.length then { opts with rate := (wordAt order payload 0).setWidth 64 } else opts
  if 16 ≤ payload.length then
    { opts with
      packetOverhead := wordAt order payload 4
      cellSize := wordAt order payload 8
      cellOverhead := wordAt order payload 12 }
  else
    opts

def addSlot : NetemOptions :=
  { opts with
    slot := some
      { minDelayNs := longAt order payload 0
        maxDelayNs := longAt order payload 8
        maxPackets := wordAt order payload 16
        maxBytes := wordAt order payload 20
        distDelayNs := longAt order payload 24
        distJitterNs := longAt order payload 32 } }

/-- What an attribute does in `parse_netem_options`; one that is too short for
its type does nothing. -/
def addAttr (attr : Attribute) : NetemOptions :=
  let (attrType, payload) := attr
  if attrType = TCA_NETEM_CORR ∧ 12 ≤ payload.length then
    { opts with
      delayCorr := wordAt order payload 0
      lossCorr := wordAt order payload 4
      duplicateCorr := wordAt order payload 8 }
  else if attrType = TCA_NETEM_REORDER ∧ 8 ≤ payload.length then
    { opts with reorderRaw := wordAt order payload 0, reorderCorr := wordAt order payload 4 }
  else if attrType = TCA_NETEM_CORRUPT ∧ 8 ≤ payload.length then
    { opts with corruptRaw := wordAt order payload 0, corruptCorr := wordAt order payload 4 }
  else if attrType = TCA_NETEM_RATE then
    opts.addRate order payload
  else if attrType = TCA_NETEM_RATE64 ∧ 8 ≤ payload.length then
    { opts with rate := longAt order payload 0 }
  else if attrType = TCA_NETEM_ECN then
    { opts with ecn := true }
  else if attrType = TCA_NETEM_LATENCY64 ∧ 8 ≤ payload.length then
    { opts with delayNs := longAt order payload 0 }
  else if attrType = TCA_NETEM_JITTER64 ∧ 8 ≤ payload.length then
    { opts with jitterNs := longAt order payload 0 }
  else if attrType = TCA_NETEM_SLOT ∧ 40 ≤ payload.length then
    opts.addSlot order payload
  else if attrType = TCA_NETEM_LOSS then
    parseNetemLossModel order payload opts
  else
    opts

/-- What the structure in front of the attributes says. -/
def ofQopt (data : List UInt8) : NetemOptions :=
  { NetemOptions.default with
    delayNs := (wordAt order data 0).setWidth 64 * 1000
    limit := wordAt order data 4
    lossRaw := wordAt order data 8
    gap := wordAt order data 12
    duplicateRaw := wordAt order data 16
    jitterNs := (wordAt order data 20).setWidth 64 * 1000 }

end NetemOptions

/-- `parse_netem_options`. -/
def parseNetemOptions (data : List UInt8) : NetemOptions :=
  let opts := if TcNetemQopt.SIZE ≤ data.length then .ofQopt order data else .default
  if TcNetemQopt.SIZE < data.length then
    attrLoop order (NetemOptions.addAttr order) data.length opts (data.drop TcNetemQopt.SIZE)
  else
    opts

/-!
## Comparing
-/

/-- `TcMessage`, a qdisc's kind and options. -/
structure TcMessage where
  kind : Option String
  options : Option (List UInt8)

/-- `netem_matches`, with percentages that are converted exactly. -/
def netemMatches (desired : NetemConfig) (live : TcMessage) : Bool :=
  live.kind = some "netem" &&
    live.options.any fun data =>
      netemOptionsMatch id desired (parseNetemOptions order data).toNetemOptions

/-!
## When the drift check of a netem is exact

A netem that reports the options it was given is read back into what the
program wrote.  The check does not compare correlations, and a delay or a jitter
that is given as zero is never found again.
-/

section Reading

variable {order : ByteOrder}

/-!
## Attributes
-/

/-- The loop of the parsers visits what the attribute iterator yields. -/
theorem attrLoop_eq {σ : Type} (step : σ → Attribute → σ) {fuel : Nat} {data : List UInt8}
    (enough : data.length ≤ fuel) (state : σ) :
    attrLoop order step fuel state data = (attrIter order data).foldl step state := by
  induction fuel generalizing state data with
  | zero =>
      rw [eq_nil_of_length_eq_zero (Nat.le_zero.mp enough)]
      rfl
  | succ fuel ih =>
      rw [attrLoop]
      split
      · rename_i short
        rw [attrIter_of_none (nextAttr_of_short order short)]
        rfl
      · rename_i long
        have next := nextAttr_of_long order long
        rw [NLA_HDRLEN] at next
        dsimp only at next ⊢
        split
        · rename_i bad
          rw [if_pos bad] at next
          rw [attrIter_of_none next]
          rfl
        · rename_i good
          rw [if_neg good] at next
          have shrinks := nextAttr_shrinks next
          rw [attrIter_of_next next, foldl_cons]
          split
          · rename_i last
            rw [drop_of_length_le last, attrIter_of_none rfl]
            rfl
          · exact ih (by omega) _

/-!
## Fields
-/

variable {config : NetemConfig} {rest : List UInt8}

variable (number : BitVec 32)

theorem words_cons (numbers : List (BitVec 32)) :
    words order (number :: numbers) = order.toBytes 4 number.toNat ++ words order numbers :=
  rfl

theorem length_words (numbers : List (BitVec 32)) :
    (words order numbers).length = 4 * numbers.length := by
  induction numbers with
  | nil => rfl
  | cons number numbers ih =>
      rw [words_cons, length_append, order.toBytes_length, ih, length_cons,
        Nat.mul_succ, Nat.add_comm]

theorem wordAt_words_zero (numbers : List (BitVec 32)) :
    wordAt order (words order (number :: numbers)) 0 = number := by
  have fits : number.toNat < 256 ^ 4 := number.isLt
  rw [wordAt, drop_zero, words_cons, readU32, take_left' (order.toBytes_length 4 _),
    ByteOrder.ofBytes_toBytes _ fits, BitVec.ofNat_toNat, BitVec.setWidth_eq]

theorem wordAt_words_add (numbers : List (BitVec 32)) (offset : Nat) :
    wordAt order (words order (number :: numbers)) (offset + 4) =
      wordAt order (words order numbers) offset := by
  rw [wordAt, wordAt, words_cons, Nat.add_comm, ← drop_drop, drop_left' (order.toBytes_length 4 _)]

theorem wordAt_append {data : List UInt8} {offset : Nat} (inside : offset + 4 ≤ data.length) :
    wordAt order (data ++ rest) offset = wordAt order data offset := by
  have enough : 4 ≤ (data.drop offset).length := by
    rw [length_drop]
    omega
  rw [wordAt, wordAt, readU32, readU32, drop_append_of_le_length (by omega),
    take_append_of_le_length enough]

theorem longAt_toBytes (value : BitVec 64) :
    longAt order (order.toBytes 8 value.toNat) 0 = value := by
  have fits : value.toNat < 256 ^ 8 := value.isLt
  rw [longAt, drop_zero, take_of_length_le (Nat.le_of_eq (order.toBytes_length 8 _)),
    ByteOrder.ofBytes_toBytes _ fits, BitVec.ofNat_toNat, BitVec.setWidth_eq]

/-!
## What each attribute does
-/

variable {opts : NetemOptions}

theorem addAttr_latency64 (value : BitVec 64) :
    opts.addAttr order (TCA_NETEM_LATENCY64, order.toBytes 8 value.toNat) =
      { opts with delayNs := value } := by
  simp [NetemOptions.addAttr, longAt_toBytes]

theorem addAttr_jitter64 (value : BitVec 64) :
    opts.addAttr order (TCA_NETEM_JITTER64, order.toBytes 8 value.toNat) =
      { opts with jitterNs := value } := by
  simp [NetemOptions.addAttr, longAt_toBytes]

theorem addAttr_corr (delay loss duplicate : BitVec 32) :
    opts.addAttr order (TCA_NETEM_CORR, words order [delay, loss, duplicate]) =
      { opts with delayCorr := delay, lossCorr := loss, duplicateCorr := duplicate } := by
  simp [NetemOptions.addAttr, length_words, wordAt_words_zero, wordAt_words_add]

theorem addAttr_reorder (probability correlation : BitVec 32) :
    opts.addAttr order (TCA_NETEM_REORDER, words order [probability, correlation]) =
      { opts with reorderRaw := probability, reorderCorr := correlation } := by
  simp [NetemOptions.addAttr, length_words, wordAt_words_zero, wordAt_words_add]

theorem addAttr_corrupt (probability correlation : BitVec 32) :
    opts.addAttr order (TCA_NETEM_CORRUPT, words order [probability, correlation]) =
      { opts with corruptRaw := probability, corruptCorr := correlation } := by
  simp [NetemOptions.addAttr, length_words, wordAt_words_zero, wordAt_words_add]

theorem addAttr_rate (rate : BitVec 32) :
    (opts.addAttr order (TCA_NETEM_RATE, rateBytes order rate)).toNetemOptions =
      { opts.toNetemOptions with rate := rate.setWidth 64 } := by
  simp [NetemOptions.addAttr, NetemOptions.addRate, rateBytes, length_words, wordAt_words_zero,
    wordAt_words_add]

theorem addAttr_rate64 (rate : BitVec 64) :
    opts.addAttr order (TCA_NETEM_RATE64, order.toBytes 8 rate.toNat) =
      { opts with rate := rate } := by
  simp [NetemOptions.addAttr, longAt_toBytes]

theorem foldl_latency64 :
    (writeLatency64 order config).seen.foldl (NetemOptions.addAttr order) opts =
      { opts with delayNs := (config.delay.map NetemConfig.asNanos).getD opts.delayNs } := by
  rw [writeLatency64, foldl_seen_whenSome]
  cases config.delay with
  | none => rfl
  | some delay => exact addAttr_latency64 _

theorem foldl_jitter64 :
    (writeJitter64 order config).seen.foldl (NetemOptions.addAttr order) opts =
      { opts with jitterNs := (config.jitter.map NetemConfig.asNanos).getD opts.jitterNs } := by
  rw [writeJitter64, foldl_seen_whenSome]
  cases config.jitter with
  | none => rfl
  | some jitter => exact addAttr_jitter64 _

theorem foldl_corr :
    (writeCorr order config).seen.foldl (NetemOptions.addAttr order) opts =
      if correlates config then
        { opts with
          delayCorr := config.delayCorrelation.kernelProbability
          lossCorr := config.lossCorrelation.kernelProbability
          duplicateCorr := config.duplicateCorrelation.kernelProbability }
      else
        opts := by
  rw [writeCorr]
  cases correlates config with
  | false => rfl
  | true => exact addAttr_corr _ _ _

theorem foldl_reorder :
    (writeReorder order config).seen.foldl (NetemOptions.addAttr order) opts =
      if config.reorder.isZero then
        opts
      else
        { opts with
          reorderRaw := config.reorder.kernelProbability
          reorderCorr := config.reorderCorrelation.kernelProbability } := by
  rw [writeReorder]
  cases config.reorder.isZero with
  | false => exact addAttr_reorder _ _
  | true => rfl

theorem foldl_corrupt :
    (writeCorrupt order config).seen.foldl (NetemOptions.addAttr order) opts =
      if config.corrupt.isZero then
        opts
      else
        { opts with
          corruptRaw := config.corrupt.kernelProbability
          corruptCorr := config.corruptCorrelation.kernelProbability } := by
  rw [writeCorrupt]
  cases config.corrupt.isZero with
  | false => exact addAttr_corrupt _ _
  | true => rfl

theorem foldl_rate (rate : Rate) :
    ((writeRate order rate).seen.foldl (NetemOptions.addAttr order) opts).toNetemOptions =
      { opts.toNetemOptions with rate := rate.bytesPerSec } := by
  rw [writeRate]
  split
  · change (NetemOptions.addAttr order (NetemOptions.addAttr order opts (TCA_NETEM_RATE, _))
      (TCA_NETEM_RATE64, _)).toNetemOptions = _
    rw [addAttr_rate64]
    change { (NetemOptions.addAttr order opts (TCA_NETEM_RATE, _)).toNetemOptions with
      rate := rate.bytesPerSec } = _
    rw [addAttr_rate]
  · rename_i narrow
    change (NetemOptions.addAttr order opts (TCA_NETEM_RATE, _)).toNetemOptions = _
    have fits : rate.bytesPerSec.toNat < 2 ^ 32 := by omega
    have whole : (rate.bytesPerSec.setWidth 32).setWidth 64 = rate.bytesPerSec := by
      apply BitVec.eq_of_toNat_eq
      rw [BitVec.toNat_setWidth, BitVec.toNat_setWidth, Nat.mod_eq_of_lt fits,
        Nat.mod_eq_of_lt rate.bytesPerSec.isLt]
    rw [addAttr_rate, whole]

theorem foldl_whenRate (rate : Option Rate) :
    ((whenSome rate (writeRate order)).seen.foldl
        (NetemOptions.addAttr order) opts).toNetemOptions =
      { opts.toNetemOptions with rate := (rate.map (·.bytesPerSec)).getD opts.rate } := by
  cases rate with
  | none => rfl
  | some rate => exact foldl_rate rate

/-!
## What is read back
-/

theorem small_writeRate (rate : Rate) : (writeRate order rate).Small 38 := by
  have first (word : BitVec 32) :
      (Writer.attr TCA_NETEM_RATE (rateBytes order word) : Writer order).Small 23 :=
    small_attr (by decide) (by rw [rateBytes, length_words]; exact Nat.le_refl 23) (by decide)
  have second : (Writer.attr TCA_NETEM_RATE64
      (order.toBytes 8 rate.bytesPerSec.toNat) : Writer order).Small 15 :=
    small_attr (by decide) (by rw [order.toBytes_length]) (by decide)
  rw [writeRate]
  split
  · exact (first _).andThen second
  · exact (first _).mono (by decide)

theorem small_writeAttrs : (writeAttrs order config).Small 228 := by
  have long (attrType : Nat) (plain : attrType < 65536) (duration : Duration) :
      (Writer.attr attrType (order.toBytes 8 (NetemConfig.asNanos duration).toNat) :
        Writer order).Small 38 :=
    small_attr plain (by rw [order.toBytes_length]; decide) (by decide)
  have short (attrType : Nat) (plain : attrType < 65536) (numbers : List (BitVec 32))
      (few : numbers.length ≤ 3) :
      (Writer.attr attrType (words order numbers) : Writer order).Small 38 :=
    small_attr plain (by rw [length_words]; omega) (by decide)
  refine Writer.Small.all 38 ?_ (by simp)
  simp only [forall_mem_cons]
  refine ⟨?_, ?_, ?_, ?_, ?_, ?_, forall_mem_nil _⟩
  · exact Writer.small_whenSome.mpr fun delay _ => long _ (by decide) delay
  · exact Writer.small_whenSome.mpr fun jitter _ => long _ (by decide) jitter
  · exact Writer.small_when.mpr fun _ => short _ (by decide) _ (Nat.le_refl 3)
  · exact Writer.small_when.mpr fun _ => short _ (by decide) _ (Nat.le_succ 2)
  · exact Writer.small_when.mpr fun _ => short _ (by decide) _ (Nat.le_succ 2)
  · exact Writer.small_whenSome.mpr fun rate _ => small_writeRate rate

theorem asBytes_length (qopt : TcNetemQopt) : (qopt.asBytes order).length = TcNetemQopt.SIZE :=
  length_words _

theorem ofQopt_asBytes (qopt : TcNetemQopt) :
    NetemOptions.ofQopt order (qopt.asBytes order ++ rest) =
      { NetemOptions.default with
        delayNs := qopt.latency.setWidth 64 * 1000
        limit := qopt.limit
        lossRaw := qopt.loss
        gap := qopt.gap
        duplicateRaw := qopt.duplicate
        jitterNs := qopt.jitter.setWidth 64 * 1000 } := by
  have length : (qopt.asBytes order).length = 24 := asBytes_length qopt
  simp only [NetemOptions.ofQopt]
  rw [wordAt_append (by omega), wordAt_append (by omega), wordAt_append (by omega),
    wordAt_append (by omega), wordAt_append (by omega), wordAt_append (by omega)]
  simp [TcNetemQopt.asBytes, wordAt_words_zero, wordAt_words_add]

theorem parseNetemOptions_append (qopt : TcNetemQopt) (data : List UInt8) :
    parseNetemOptions order (qopt.asBytes order ++ data) =
      (attrIter order data).foldl (NetemOptions.addAttr order)
        (.ofQopt order (qopt.asBytes order ++ data)) := by
  have length := @asBytes_length order qopt
  have behind : (qopt.asBytes order ++ data).drop TcNetemQopt.SIZE = data := drop_left' length
  have inside : TcNetemQopt.SIZE ≤ (qopt.asBytes order ++ data).length := by
    rw [length_append, length]
    exact Nat.le_add_right _ _
  rw [parseNetemOptions, if_pos inside, behind]
  split
  · exact attrLoop_eq _ (by rw [length_append]; omega) _
  · rename_i nothing
    have isNil : data = [] := by
      rw [length_append, length] at nothing
      exact eq_nil_of_length_eq_zero (by omega)
    rw [isNil, attrIter_of_none rfl]
    rfl

/-- What the optional attributes leave of the options, in the order they are read. -/
theorem foldl_corr_rate :
    ((whenSome config.rate (writeRate order)).seen.foldl (NetemOptions.addAttr order)
        ((writeCorrupt order config).seen.foldl (NetemOptions.addAttr order)
          ((writeReorder order config).seen.foldl (NetemOptions.addAttr order)
            ((writeCorr order config).seen.foldl (NetemOptions.addAttr order)
              opts)))).toNetemOptions =
      { opts.toNetemOptions with
        delayCorr := if correlates config then
          config.delayCorrelation.kernelProbability else opts.delayCorr
        lossCorr := if correlates config then
          config.lossCorrelation.kernelProbability else opts.lossCorr
        duplicateCorr := if correlates config then
          config.duplicateCorrelation.kernelProbability else opts.duplicateCorr
        reorderRaw := if config.reorder.isZero then
          opts.reorderRaw else config.reorder.kernelProbability
        reorderCorr := if config.reorder.isZero then
          opts.reorderCorr else config.reorderCorrelation.kernelProbability
        corruptRaw := if config.corrupt.isZero then
          opts.corruptRaw else config.corrupt.kernelProbability
        corruptCorr := if config.corrupt.isZero then
          opts.corruptCorr else config.corruptCorrelation.kernelProbability
        rate := (config.rate.map (·.bytesPerSec)).getD opts.rate } := by
  rw [foldl_whenRate, foldl_corrupt, foldl_reorder, foldl_corr]
  cases correlates config <;> cases config.reorder.isZero <;>
    cases config.corrupt.isZero <;> rfl

theorem settled_rate (rate : Option Rate) :
    (rate.bind fun rate =>
        if 2 ^ 32 - 1 < rate.bytesPerSec.toNat then some rate.bytesPerSec else none).getD
      (((rate.map fun rate =>
        BitVec.ofNat 32 (min rate.bytesPerSec.toNat (2 ^ 32 - 1))).getD 0).setWidth 64) =
      (rate.map (·.bytesPerSec)).getD 0 := by
  cases rate with
  | none => rfl
  | some rate =>
      rw [Option.bind_some, Option.map_some, Option.map_some]
      split
      · rfl
      · rename_i narrow
        have fits : rate.bytesPerSec.toNat < 2 ^ 32 := by omega
        apply BitVec.eq_of_toNat_eq
        change ((BitVec.ofNat 32 _).setWidth 64).toNat = rate.bytesPerSec.toNat
        rw [BitVec.toNat_setWidth, BitVec.toNat_ofNat, Nat.min_eq_left (by omega),
          Nat.mod_eq_of_lt fits, Nat.mod_eq_of_lt rate.bytesPerSec.isLt]

theorem correlates_eq : correlates config =
    !(config.delayCorrelation.isZero && config.lossCorrelation.isZero &&
      config.duplicateCorrelation.isZero) := by
  rw [Bool.not_and, Bool.not_and, correlates]

theorem settled_field {α : Type} (isZero : Bool) (written : α) (field : α → BitVec 32) :
    ((if isZero then none else some written).map field).getD 0 =
      if isZero then 0 else field written := by
  cases isZero <;> rfl

theorem settled_duration (duration : Option Duration) :
    (duration.map NetemConfig.asNanos).getD
        (((duration.map Duration.asMicros).getD 0).setWidth 64 * 1000) =
      (duration.map NetemConfig.asNanos).getD 0 := by
  cases duration <;> rfl

/-- A configuration that is written is read back as the kernel settles it. -/
theorem parse_written {builder written : MessageBuilder} (aligned : 4 ∣ builder.buf.length)
    (accepted : writeOptions order config builder = .ok written) :
    ∃ attrs, config.writeOptions = .ok attrs ∧
      (parseNetemOptions order (written.buf.drop builder.buf.length)).toNetemOptions =
        attrs.settled := by
  rw [writeOptions] at accepted
  split at accepted
  · cases accepted
  · rename_i allowed
    cases accepted
    refine ⟨_, by rw [NetemConfig.writeOptions, if_neg allowed], ?_⟩
    have length := @asBytes_length order (qoptOf config)
    have qoptAligned : (builder.appendBytes ((qoptOf config).asBytes order)).buf =
        builder.buf ++ (qoptOf config).asBytes order := by
      have whole : 4 ∣ (builder.buf ++ (qoptOf config).asBytes order).length := by
        rw [length_append, length]
        exact Nat.dvd_add aligned (by decide)
      rw [MessageBuilder.appendBytes, padding_of_dvd whole, List.append_nil]
    have stillAligned :
        4 ∣ (builder.appendBytes ((qoptOf config).asBytes order)).buf.length := by
      rw [qoptAligned, length_append, length]
      exact Nat.dvd_add aligned (by decide)
    rw [(writeAttrs order config).appends.appended _ stillAligned, qoptAligned, List.append_assoc,
      drop_left, parseNetemOptions_append, attrIter_payload small_writeAttrs, writeAttrs]
    simp only [seen_all_cons, foldl_append]
    rw [seen_all_nil, foldl_nil, foldl_corr_rate, foldl_jitter64, foldl_latency64,
      ofQopt_asBytes, NetemAttrs.settled, correlates_eq]
    simp only [settled_field, settled_rate]
    rw [qoptOf, settled_duration, settled_duration]
    generalize (config.delayCorrelation.isZero && config.lossCorrelation.isZero &&
      config.duplicateCorrelation.isZero) = isZero
    cases isZero <;> rfl

end Reading

/-!
## What is compared
-/

/-- A duration in nanoseconds; nothing is zero. -/
def nanosOf (duration : Option Duration) : Nat :=
  (duration.map (·.nanos)).getD 0

/-- Two configurations do the same to packets, up to durations and correlations. -/
structure SameEffects (a b : NetemConfig) : Prop where
  loss : a.loss.kernelProbability = b.loss.kernelProbability
  duplicate : a.duplicate.kernelProbability = b.duplicate.kernelProbability
  corrupt : a.corrupt.kernelProbability = b.corrupt.kernelProbability
  reorder : a.reorder.kernelProbability = b.reorder.kernelProbability
  gap : a.effectiveGap = b.effectiveGap
  rate : (a.rate.map (·.bytesPerSec)).getD 0 = (b.rate.map (·.bytesPerSec)).getD 0
  limit : a.limit = b.limit

structure SameDurations (a b : NetemConfig) : Prop where
  delay : nanosOf a.delay = nanosOf b.delay
  jitter : nanosOf a.jitter = nanosOf b.jitter

structure SameCorrelations (a b : NetemConfig) : Prop where
  delay : a.delayCorrelation.kernelProbability = b.delayCorrelation.kernelProbability
  loss : a.lossCorrelation.kernelProbability = b.lossCorrelation.kernelProbability
  duplicate : a.duplicateCorrelation.kernelProbability = b.duplicateCorrelation.kernelProbability
  corrupt : a.corruptCorrelation.kernelProbability = b.corruptCorrelation.kernelProbability
  reorder : a.reorderCorrelation.kernelProbability = b.reorderCorrelation.kernelProbability

/-- Two configurations ask for the same behaviour. -/
structure SameBehaviour (a b : NetemConfig) : Prop where
  effects : SameEffects a b
  durations : SameDurations a b
  correlations : SameCorrelations a b

/-- The durations agree in the 64 bits that are written. -/
structure SameNanos (a b : NetemConfig) : Prop where
  delay : nanosOf a.delay % 2 ^ 64 = nanosOf b.delay % 2 ^ 64
  jitter : nanosOf a.jitter % 2 ^ 64 = nanosOf b.jitter % 2 ^ 64

/-- A duration that is given is neither zero nor over 64 bits. -/
def Plain (duration : Option Duration) : Prop :=
  ∀ given ∈ duration, 0 < given.nanos ∧ given.nanos < 2 ^ 64

/-- The durations of a configuration are found again when it is read back. -/
structure PlainDurations (config : NetemConfig) : Prop where
  delay : Plain config.delay
  jitter : Plain config.jitter

theorem toNat_settled (duration : Option Duration) :
    ((duration.map NetemConfig.asNanos).getD 0).toNat = nanosOf duration % 2 ^ 64 := by
  cases duration with
  | none => rfl
  | some duration => exact BitVec.toNat_ofNat _ _

theorem eq_readDuration_iff {wanted written : Option Duration} :
    wanted = readDuration ((written.map NetemConfig.asNanos).getD 0) ↔
      Plain wanted ∧ nanosOf wanted % 2 ^ 64 = nanosOf written % 2 ^ 64 := by
  have toNat := toNat_settled written
  generalize (written.map NetemConfig.asNanos).getD 0 = nanos at toNat ⊢
  rw [← toNat, readDuration]
  split
  · rename_i isZero
    subst isZero
    cases wanted with
    | none => exact ⟨fun _ => ⟨nofun, rfl⟩, fun _ => rfl⟩
    | some wanted =>
        refine ⟨nofun, fun ⟨plain, same⟩ => ?_⟩
        obtain ⟨positive, small⟩ := plain wanted rfl
        change wanted.nanos % 2 ^ 64 = 0 at same
        rw [Nat.mod_eq_of_lt small] at same
        exact absurd same (Nat.ne_of_gt positive)
  · rename_i nonzero
    cases wanted with
    | none =>
        refine ⟨nofun, fun ⟨_, same⟩ => ?_⟩
        exact absurd (BitVec.eq_of_toNat_eq same.symm) nonzero
    | some wanted =>
        rw [Option.some.injEq]
        constructor
        · rintro rfl
          refine ⟨?_, Nat.mod_eq_of_lt nanos.isLt⟩
          rintro _ ⟨⟩
          exact ⟨Nat.pos_of_ne_zero fun zero => nonzero (BitVec.eq_of_toNat_eq zero), nanos.isLt⟩
        · rintro ⟨plain, same⟩
          change wanted.nanos % 2 ^ 64 = nanos.toNat at same
          rw [Nat.mod_eq_of_lt (plain wanted rfl).2] at same
          exact congrArg Duration.mk same

/-!
## The drift check
-/

theorem readProbability_id (raw : BitVec 32) : readProbability id raw = raw := by
  rw [readProbability]
  split
  · rename_i isZero
    exact isZero.symm
  · rfl

theorem probability_eq (percent : Percent) :
    NetemConfig.probability percent = percent.kernelProbability := by
  rw [NetemConfig.probability]
  split
  · rename_i isZero
    exact (percent.zero_probability isZero).symm
  · rfl

/-- A probability that is written only if it is not zero. -/
theorem getD_probability (percent correlation : Percent) :
    (((if percent.isZero then none else
      some (percent.kernelProbability, correlation.kernelProbability)).map
        fun pair : BitVec 32 × BitVec 32 => pair.1).getD 0) = percent.kernelProbability := by
  rw [settled_field]
  exact probability_eq percent

section Drift

variable {order : ByteOrder} {a b : NetemConfig}

/-- A configuration is recognised in what another one settles to if what is compared
agrees. -/
theorem netemOptionsMatch_settled {attrs : NetemAttrs} (accepted : b.writeOptions = .ok attrs) :
    netemOptionsMatch id a attrs.settled = true ↔
      PlainDurations a ∧ SameNanos a b ∧ SameEffects a b := by
  rw [NetemConfig.writeOptions] at accepted
  split at accepted
  · cases accepted
  · cases accepted
    simp only [netemOptionsMatch, Bool.and_eq_true, decide_eq_true_eq]
    simp only [NetemAttrs.settled, readProbability_id, probability_eq, getD_probability,
      settled_rate, eq_readDuration_iff]
    constructor
    · rintro ⟨⟨⟨⟨⟨⟨⟨⟨⟨plainDelay, delay⟩, plainJitter, jitter⟩, loss⟩, duplicate⟩, corrupt⟩, reorder⟩,
        gap⟩, rate⟩, limit⟩
      exact ⟨⟨plainDelay, plainJitter⟩, ⟨delay, jitter⟩,
        ⟨loss, duplicate, corrupt, reorder, gap, rate, limit⟩⟩
    · rintro ⟨⟨plainDelay, plainJitter⟩, ⟨delay, jitter⟩,
        ⟨loss, duplicate, corrupt, reorder, gap, rate, limit⟩⟩
      exact ⟨⟨⟨⟨⟨⟨⟨⟨⟨plainDelay, delay⟩, plainJitter, jitter⟩, loss⟩, duplicate⟩, corrupt⟩, reorder⟩,
        gap⟩, rate⟩, limit⟩

variable {builder written : MessageBuilder}

/-- The live qdisc that holds what was written. -/
def echoed (builder written : MessageBuilder) : TcMessage where
  kind := some "netem"
  options := some (written.buf.drop builder.buf.length)

theorem netemMatches_written (aligned : 4 ∣ builder.buf.length)
    (accepted : writeOptions order b builder = .ok written) :
    netemMatches order a (echoed builder written) = true ↔
      PlainDurations a ∧ SameNanos a b ∧ SameEffects a b := by
  obtain ⟨attrs, isAttrs, isRead⟩ := parse_written aligned accepted
  have matched := netemOptionsMatch_settled (a := a) isAttrs
  rw [← isRead] at matched
  rw [← matched, netemMatches, echoed, decide_eq_true rfl, Bool.true_and, Option.any_some]

/-- The check is exact for two configurations if it does not confuse them, which the
correlations and the upper bits of the durations decide, and if what the first asks
for can be found again. -/
theorem netemMatches_exact (aligned : 4 ∣ builder.buf.length)
    (accepted : writeOptions order b builder = .ok written) :
    (netemMatches order a (echoed builder written) = true ↔ SameBehaviour a b) ↔
      (PlainDurations a → SameNanos a b → SameEffects a b →
        SameDurations a b ∧ SameCorrelations a b) ∧
      (SameBehaviour a b → PlainDurations a) := by
  rw [netemMatches_written aligned accepted]
  constructor
  · intro isExact
    refine ⟨fun plain nanos effects => ?_, fun same => (isExact.mpr same).1⟩
    obtain ⟨-, durations, correlations⟩ := isExact.mp ⟨plain, nanos, effects⟩
    exact ⟨durations, correlations⟩
  · rintro ⟨told, found⟩
    constructor
    · rintro ⟨plain, nanos, effects⟩
      obtain ⟨durations, correlations⟩ := told plain nanos effects
      exact ⟨effects, durations, correlations⟩
    · intro same
      exact ⟨found same, ⟨congrArg (· % 2 ^ 64) same.durations.delay,
        congrArg (· % 2 ^ 64) same.durations.jitter⟩, same.effects⟩

/-- A configuration is found again in its own echo exactly when its durations are
plain. -/
theorem netemMatches_own (aligned : 4 ∣ builder.buf.length)
    (accepted : writeOptions order a builder = .ok written) :
    netemMatches order a (echoed builder written) = true ↔ PlainDurations a := by
  rw [netemMatches_written aligned accepted]
  exact ⟨And.left, fun plain => ⟨plain, ⟨rfl, rfl⟩, ⟨rfl, rfl, rfl, rfl, rfl, rfl, rfl⟩⟩⟩

end Drift

/-- What the configuration writes onto nothing. -/
def alone (config : NetemConfig) : MessageBuilder :=
  (writeAttrs .little config).write
    ((MessageBuilder.mk []).appendBytes ((qoptOf config).asBytes .little))

/-- A delay of 100 ms. -/
def delayed : NetemConfig where
  delay := some ⟨100000000⟩

theorem netemMatches_exact_delayed :
    netemMatches .little delayed (echoed ⟨[]⟩ (alone delayed)) = true := by
  have plain : PlainDurations delayed := by
    refine ⟨?_, nofun⟩
    rintro _ ⟨⟩
    exact ⟨by decide, by decide⟩
  have same : SameBehaviour delayed delayed :=
    ⟨⟨rfl, rfl, rfl, rfl, rfl, rfl, rfl⟩, ⟨rfl, rfl⟩, ⟨rfl, rfl, rfl, rfl, rfl⟩⟩
  have isExact := @netemMatches_exact .little delayed delayed ⟨[]⟩ (alone delayed)
    (Nat.dvd_zero 4) rfl
  exact (isExact.mpr ⟨fun _ _ _ => ⟨same.durations, same.correlations⟩, fun _ => plain⟩).mpr same

/-- A loss of 1% with a correlation. -/
def correlated (correlation : BitVec 32) : NetemConfig where
  loss := ⟨42949672, false, nofun⟩
  lossCorrelation := ⟨correlation, false, nofun⟩

def zeroDelay : NetemConfig where
  delay := some ⟨0⟩

/-- Correlations of 25% and 50% are taken for each other, and a delay of zero is not
found again. -/
theorem netemMatches_confuses :
    (writeOptions .little (correlated 2147483647) ⟨[]⟩ = .ok (alone (correlated 2147483647)) ∧
      netemMatches .little (correlated 1073741823)
        (echoed ⟨[]⟩ (alone (correlated 2147483647))) = true ∧
      ¬ SameBehaviour (correlated 1073741823) (correlated 2147483647)) ∧
    writeOptions .little zeroDelay ⟨[]⟩ = .ok (alone zeroDelay) ∧
      netemMatches .little zeroDelay (echoed ⟨[]⟩ (alone zeroDelay)) = false ∧
      SameBehaviour zeroDelay zeroDelay := by
  refine ⟨⟨rfl, by decide +kernel, fun same => ?_⟩, rfl, by decide +kernel,
    ⟨⟨rfl, rfl, rfl, rfl, rfl, rfl, rfl⟩, ⟨rfl, rfl⟩, ⟨rfl, rfl, rfl, rfl, rfl⟩⟩⟩
  exact absurd same.correlations.loss (by decide)

end Nlink.Tc.Wire
