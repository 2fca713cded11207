import Spectator.Meter.Wire
import Spectator.Utils.ToString

/-!
# The operations of the meters

The methods of the ten meter types that record something: each checks its argument, or does not, and
hands one line to `Writer::Write`.

* `Amount`: what `ConstructLine` is instantiated at. `Amount.read`, `Amount.reading_mono`: what its
  text says.
* `AgeGauge.now`, …, `Timer.record`: the methods; the result is the message for `Writer::Write`, if
  there is one. `Operation`: a call of any of them.
* `Check.test_iff`: a check lets a finite value through by its comparison with zero.
* `operation_line`: the line of an operation.
-/

namespace Spectator

/-! ## Amounts -/

/-- The argument of `ConstructLine`: a `double`, or a value of an integer type. -/
inductive Amount where
  | double (x : Binary64)
  | integer (n : Int)
  deriving DecidableEq

namespace Amount

/-- `std::to_string`. -/
def toStr : Amount → Str
  | .double x => toFixed x
  | .integer n => toDecimal n

/-- The value of the amount, if it is finite. -/
def value : Amount → Option ℚ
  | .double x => if x.isFinite then some x.value else none
  | .integer n => some n

/-- What the text of a finite amount says. -/
def reading : Amount → ℚ
  | .double x => roundedValue x
  | .integer n => n

variable {a b : Amount} {v w : ℚ}

theorem read (h : a.value = some v) : readDecimal a.toStr = some a.reading := by
  cases a with
  | double x =>
    rw [value] at h
    split at h
    · next hx => exact readDecimal_toFixed hx
    · cases h
  | integer n => exact readDecimal_toDecimal n

/-- The text is within half a millionth of the value. -/
theorem abs_reading_sub_le (h : a.value = some v) : |a.reading - v| ≤ 1 / (2 * 10 ^ 6) := by
  cases a with
  | double x =>
    rw [value] at h
    split at h
    · cases h
      exact abs_roundedValue_sub_le x
    · cases h
  | integer n =>
    cases h
    simp [reading]

/-- The text gives a number of millionths. -/
theorem reading_eq (a : Amount) : ∃ k : ℤ, a.reading = k / 10 ^ 6 := by
  cases a with
  | double x => exact roundedValue_eq x
  | integer n => exact ⟨n * 10 ^ 6, by rw [reading]; push_cast; ring⟩

/-- A value in millionths is given exactly. -/
theorem reading_eq_value (h : a.value = some v) (hk : ∃ k : ℤ, v = k / 10 ^ 6) :
    a.reading = v := by
  cases a with
  | double x =>
    rw [value] at h
    split at h
    · cases h
      exact roundedValue_eq_value hk
    · cases h
  | integer n =>
    cases h
    rfl

/-- The texts keep the order of the values, also between the two kinds of amounts. -/
theorem reading_mono (ha : a.value = some v) (hb : b.value = some w) (h : v ≤ w) :
    a.reading ≤ b.reading := by
  have hda := abs_reading_sub_le ha
  have hdb := abs_reading_sub_le hb
  have near : |a.reading - v| + |b.reading - w| < 1 / 10 ^ 6 → a.reading ≤ b.reading :=
    fun hd => Rounding.le_of_near (by positivity) a.reading_eq b.reading_eq hd h
  cases a with
  | integer n =>
    cases ha
    refine near ?_
    rw [reading, sub_self, abs_zero, zero_add]
    exact lt_of_le_of_lt hdb (by norm_num)
  | double x =>
    cases b with
    | integer n =>
      cases hb
      refine near ?_
      rw [reading.eq_def (.integer n), sub_self, abs_zero, add_zero]
      exact lt_of_le_of_lt hda (by norm_num)
    | double y =>
      rw [value] at ha hb
      split at ha
      · split at hb
        · cases ha
          cases hb
          refine roundedValue_mono ?_
          rwa [Binary64.value, Binary64.value,
            div_le_div_iff_of_pos_right Binary64.scale_cast_pos, Int.cast_le] at h
        · cases hb
      · cases ha

/-- The text of an amount is a value text: what the wire format assumes of it holds. -/
theorem valueText (a : Amount) : ValueText a.toStr := by
  have chars : ∀ c ∈ a.toStr,
      c = ch '-' ∨ c = ch '.' ∨ isDigit c = true ∨ c ∈ str "nan" ∨ c ∈ str "inf" := by
    intro c hc
    cases a with
    | double x => exact mem_toFixed hc
    | integer n =>
      rcases mem_toDecimal hc with h | h
      · exact .inl h
      · exact .inr (.inr (.inl (by simpa [isDigit, ch] using h)))
  refine ⟨?_, fun hc => ?_, fun hc => ?_⟩
  · cases a with
    | double x => exact toFixed_ne_nil x
    | integer n => exact toDecimal_ne_nil n
  · exact absurd (chars _ hc) (by decide)
  · exact absurd (chars _ hc) (by decide)

end Amount

/-! ## The methods -/

/-- The body of a method: where its check holds, it builds a line and writes it. -/
def Meter.emit (m : Meter) (check : Bool) (amount : Amount) : Option Str :=
  if check then some (m.constructLine amount.toStr) else none

def AgeGauge.now (id : MeterId) : Option Str := (ageGauge id).emit true (.integer 0)

def AgeGauge.set (id : MeterId) (seconds : Binary64) : Option Str :=
  (ageGauge id).emit true (.double seconds)

def Counter.increment (id : MeterId) (delta : Binary64 := .one) : Option Str :=
  (counter id).emit (Binary64.zero.lt delta) (.double delta)

def DistributionSummary.record (id : MeterId) (amount : Binary64) : Option Str :=
  (distributionSummary id).emit (Binary64.zero.le amount) (.double amount)

def Gauge.set (id : MeterId) (ttlSeconds : Option Int) (value : Binary64) : Option Str :=
  (gauge id ttlSeconds).emit true (.double value)

def MaxGauge.set (id : MeterId) (value : Binary64) : Option Str :=
  (maxGauge id).emit true (.double value)

def MonotonicCounter.set (id : MeterId) (amount : Binary64) : Option Str :=
  (monotonicCounter id).emit true (.double amount)

def MonotonicCounterUint.set (id : MeterId) (amount : UInt64) : Option Str :=
  (monotonicCounterUint id).emit true (.integer amount.toNat)

def PercentileDistributionSummary.record (id : MeterId) (amount : Int64) : Option Str :=
  (percentileDistributionSummary id).emit (decide (0 ≤ amount)) (.integer amount.toInt)

def PercentileTimer.record (id : MeterId) (seconds : Binary64) : Option Str :=
  (percentileTimer id).emit (Binary64.zero.le seconds) (.double seconds)

def Timer.record (id : MeterId) (seconds : Binary64) : Option Str :=
  (timer id).emit (Binary64.zero.le seconds) (.double seconds)

/-- A call of a method, without the id of its meter. -/
inductive Operation where
  | ageGaugeNow
  | ageGaugeSet (seconds : Binary64)
  | counterIncrement (delta : Binary64)
  | distributionSummaryRecord (amount : Binary64)
  | gaugeSet (ttlSeconds : Option Int) (value : Binary64)
  | maxGaugeSet (value : Binary64)
  | monotonicCounterSet (amount : Binary64)
  | monotonicCounterUintSet (amount : UInt64)
  | percentileDistributionSummaryRecord (amount : Int64)
  | percentileTimerRecord (seconds : Binary64)
  | timerRecord (seconds : Binary64)
  deriving DecidableEq

/-- What the check of a method asks of a finite value. -/
inductive Check where
  | anything
  | notNegative
  | positive
  deriving DecidableEq

/-- The values that the check lets through. -/
def Check.Admits : Check → ℚ → Prop
  | .anything, _ => True
  | .notNegative, v => 0 ≤ v
  | .positive, v => 0 < v

namespace Operation

/-- The method. -/
def run : Operation → MeterId → Option Str
  | .ageGaugeNow, id => AgeGauge.now id
  | .ageGaugeSet seconds, id => AgeGauge.set id seconds
  | .counterIncrement delta, id => Counter.increment id delta
  | .distributionSummaryRecord amount, id => DistributionSummary.record id amount
  | .gaugeSet ttlSeconds value, id => Gauge.set id ttlSeconds value
  | .maxGaugeSet value, id => MaxGauge.set id value
  | .monotonicCounterSet amount, id => MonotonicCounter.set id amount
  | .monotonicCounterUintSet amount, id => MonotonicCounterUint.set id amount
  | .percentileDistributionSummaryRecord amount, id =>
    PercentileDistributionSummary.record id amount
  | .percentileTimerRecord seconds, id => PercentileTimer.record id seconds
  | .timerRecord seconds, id => Timer.record id seconds

/-- The meter type. -/
def kind : Operation → MeterKind
  | .ageGaugeNow | .ageGaugeSet _ => .ageGauge
  | .counterIncrement _ => .counter
  | .distributionSummaryRecord _ => .distributionSummary
  | .gaugeSet ttlSeconds _ => .gauge ttlSeconds
  | .maxGaugeSet _ => .maxGauge
  | .monotonicCounterSet _ => .monotonicCounter
  | .monotonicCounterUintSet _ => .monotonicCounterUint
  | .percentileDistributionSummaryRecord _ => .percentileDistributionSummary
  | .percentileTimerRecord _ => .percentileTimer
  | .timerRecord _ => .timer

/-- The argument of `ConstructLine`. -/
def amount : Operation → Amount
  | .ageGaugeNow => .integer 0
  | .ageGaugeSet x | .counterIncrement x | .distributionSummaryRecord x | .gaugeSet _ x
  | .maxGaugeSet x | .monotonicCounterSet x | .percentileTimerRecord x | .timerRecord x => .double x
  | .monotonicCounterUintSet n => .integer n.toNat
  | .percentileDistributionSummaryRecord n => .integer n.toInt

/-- The check of the method. -/
def check : Operation → Check
  | .counterIncrement _ => .positive
  | .distributionSummaryRecord _ | .percentileDistributionSummaryRecord _
  | .percentileTimerRecord _ | .timerRecord _ => .notNegative
  | _ => .anything

end Operation

/-- The check, as a test of an amount. -/
def Check.test : Check → Amount → Bool
  | .anything, _ => true
  | .notNegative, .double x => Binary64.zero.le x
  | .notNegative, .integer n => decide (0 ≤ n)
  | .positive, .double x => Binary64.zero.lt x
  | .positive, .integer n => decide (0 < n)

/-- Every method is the same body, at its meter, its check and its argument. -/
theorem Operation.run_eq (op : Operation) (id : MeterId) :
    op.run id = (op.kind.meter id).emit (op.check.test op.amount) op.amount := by
  cases op with
  | percentileDistributionSummaryRecord n =>
    have hle : decide (0 ≤ n) = decide (0 ≤ n.toInt) := by
      rw [decide_eq_decide, Int64.le_iff_toInt_le]
      rfl
    rw [run, PercentileDistributionSummary.record, hle]
    rfl
  | _ => rfl

theorem Meter.emit_eq_some {m : Meter} {check : Bool} {amount : Amount} {line : Str} :
    m.emit check amount = some line ↔ check = true ∧ line = m.constructLine amount.toStr := by
  unfold emit
  split <;> simp_all [eq_comm]

theorem Operation.exists_run {op : Operation} {id : MeterId} :
    (∃ line, op.run id = some line) ↔ op.check.test op.amount = true := by
  rw [run_eq]
  simp [Meter.emit_eq_some]

/-! ## The checks -/

namespace Check

/-- On finite values, the test compares the value with zero. -/
theorem test_iff {check : Check} {a : Amount} {v : ℚ} (h : a.value = some v) :
    check.test a = true ↔ check.Admits v := by
  cases a with
  | integer n =>
    cases h
    cases check <;> simp [test, Admits]
  | double x =>
    rw [Amount.value] at h
    split at h
    · next hx =>
      cases h
      cases check with
      | anything => simp [test, Admits]
      | notNegative =>
        rw [test, Admits, Binary64.le_iff_value Binary64.isFinite_zero hx, Binary64.value_zero]
      | positive =>
        rw [test, Admits, Binary64.lt_iff_value Binary64.isFinite_zero hx, Binary64.value_zero]
    · cases h

end Check

/-! ## The lines -/

/-- **What a line says.** Whatever the meter and the amount, the line of an operation is one that
the wire format can carry; cut at colons it is the type symbol, the id and the text of the amount;
and for a finite amount this text is a decimal number within half a millionth of it, and exact where
the amount is a number of millionths. Texts are in the order of the amounts. -/
theorem operation_line (op : Operation) (name : Str) {tags : Tags} (o : tags.Iteration) {line : Str}
    (h : op.run (.new name o) = some line) :
    Emitted line ∧ line.splitOn (ch ':') = [(op.kind.meter (.new name o)).meterTypeSymbol,
      (MeterId.new name o).spectatordId, op.amount.toStr] ∧
    ∀ v, op.amount.value = some v → ∃ q, readDecimal op.amount.toStr = some q ∧
      |q - v| ≤ 1 / (2 * 10 ^ 6) ∧ ((∃ k : ℤ, v = k / 10 ^ 6) → q = v) ∧
      ∀ (op' : Operation) (w : ℚ), op'.amount.value = some w → v ≤ w →
        ∃ r, readDecimal op'.amount.toStr = some r ∧ q ≤ r := by
  rw [Operation.run_eq, Meter.emit_eq_some] at h
  obtain ⟨-, rfl⟩ := h
  have hv := op.amount.valueText
  refine ⟨.line op.kind name o hv, constructLine_splitOn op.kind name o hv.colon, fun v hval => ?_⟩
  refine ⟨_, Amount.read hval, Amount.abs_reading_sub_le hval, Amount.reading_eq_value hval, ?_⟩
  exact fun op' w hw hle => ⟨_, Amount.read hw, Amount.reading_mono hval hw hle⟩

/-- A tenth is recorded by a timer. -/
theorem operation_line_tenth : ∃ (x : Binary64) (line : Str), line = str "t:x:0.100000" ∧
    Emitted line ∧ ∃ q, readDecimal (toFixed x) = some q ∧ |q - x.value| ≤ 1 / (2 * 10 ^ 6) := by
  let o : UMap.Iteration (UMap.assignIf validTag (∅ : Tags) []) :=
    .ofAssignIf validTag [] (by decide)
  let x : Binary64 := ⟨false, 1019, 0x999999999999a⟩
  have hrun : (Operation.timerRecord x).run (.new (str "x") o) = some (str "t:x:0.100000") := by
    decide +kernel
  obtain ⟨hline, -, hread⟩ := operation_line (.timerRecord x) (str "x") o hrun
  obtain ⟨q, hq, hnear, -⟩ := hread x.value rfl
  exact ⟨x, _, rfl, hline, q, hq, hnear⟩

end Spectator
