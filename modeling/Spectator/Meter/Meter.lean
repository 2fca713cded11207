import Spectator.Meter.MeterId

/-!
# Meters

The model of `meter.h` and of the constructors of the ten meter types: each is the base class with
its own type symbol, and a gauge puts its TTL into the symbol.

* `Meter`, `Meter.constructLine`: the base class and the line it builds.
* `ageGauge`, …, `timer`: the constructors. `MeterKind.meter`: any of them.
* `MeterKind.symbol_cons`, `MeterKind.mem_symbol`: what a type symbol is made of.
-/

namespace Spectator

/-- `Meter`: `m_id` and `m_meterTypeSymbol`. -/
structure Meter where
  id : MeterId
  meterTypeSymbol : Str

/-- `FIELD_SEPARATOR`. -/
def fieldSeparator : Str := str ":"

/-- `ConstructLine`, with `valueStr` for `std::to_string(value)`. -/
def Meter.constructLine (m : Meter) (valueStr : Str) : Str :=
  let result := m.meterTypeSymbol
  let result := result ++ fieldSeparator
  let result := result ++ m.id.spectatordId
  let result := result ++ fieldSeparator
  result ++ valueStr

/-! ## The meter types -/

def ageGauge (id : MeterId) : Meter := ⟨id, str "A"⟩

def counter (id : MeterId) : Meter := ⟨id, str "c"⟩

def distributionSummary (id : MeterId) : Meter := ⟨id, str "d"⟩

/-- `Gauge`: the TTL, if there is one, follows a comma in the type symbol. -/
def gauge (id : MeterId) (ttlSeconds : Option Int) : Meter :=
  ⟨id, match ttlSeconds with
    | some ttl => str "g" ++ str "," ++ toDecimal ttl
    | none => str "g"⟩

def maxGauge (id : MeterId) : Meter := ⟨id, str "m"⟩

def monotonicCounter (id : MeterId) : Meter := ⟨id, str "C"⟩

def monotonicCounterUint (id : MeterId) : Meter := ⟨id, str "U"⟩

def percentileDistributionSummary (id : MeterId) : Meter := ⟨id, str "D"⟩

def percentileTimer (id : MeterId) : Meter := ⟨id, str "T"⟩

def timer (id : MeterId) : Meter := ⟨id, str "t"⟩

/-- A meter type, with what its constructor takes besides the id. -/
inductive MeterKind where
  | ageGauge
  | counter
  | distributionSummary
  | gauge (ttlSeconds : Option Int)
  | maxGauge
  | monotonicCounter
  | monotonicCounterUint
  | percentileDistributionSummary
  | percentileTimer
  | timer
  deriving DecidableEq

/-- The constructor of the type. -/
def MeterKind.meter : MeterKind → MeterId → Meter
  | .ageGauge, id => Spectator.ageGauge id
  | .counter, id => Spectator.counter id
  | .distributionSummary, id => Spectator.distributionSummary id
  | .gauge ttlSeconds, id => Spectator.gauge id ttlSeconds
  | .maxGauge, id => Spectator.maxGauge id
  | .monotonicCounter, id => Spectator.monotonicCounter id
  | .monotonicCounterUint, id => Spectator.monotonicCounterUint id
  | .percentileDistributionSummary, id => Spectator.percentileDistributionSummary id
  | .percentileTimer, id => Spectator.percentileTimer id
  | .timer, id => Spectator.timer id

@[simp] theorem MeterKind.meter_id (kind : MeterKind) (id : MeterId) : (kind.meter id).id = id := by
  cases kind <;> rfl

/-- A type symbol is a letter, and for a gauge with a TTL a comma and a decimal number. -/
theorem MeterKind.symbol_cons (kind : MeterKind) (id : MeterId) :
    ∃ c rest, (kind.meter id).meterTypeSymbol = c :: rest ∧ validChar c = true ∧
      (rest = [] ∨ ∃ ttl, rest = ch ',' :: toDecimal ttl) := by
  cases kind with
  | gauge ttlSeconds =>
    cases ttlSeconds with
    | none => exact ⟨ch 'g', [], rfl, by decide, .inl rfl⟩
    | some ttl => exact ⟨ch 'g', _, rfl, by decide, .inr ⟨ttl, rfl⟩⟩
  | _ => exact ⟨_, [], rfl, by decide, .inl rfl⟩

/-- The type symbol of a counter is its own. -/
theorem MeterKind.symbol_head_eq (kind : MeterKind) (id : MeterId) :
    (kind.meter id).meterTypeSymbol.headD 0 = ch 'c' ↔ kind = .counter := by
  cases kind with
  | counter => exact iff_of_true rfl rfl
  | gauge ttlSeconds => cases ttlSeconds <;> exact iff_of_false (of_decide_eq_false rfl) nofun
  | _ => exact iff_of_false (of_decide_eq_false rfl) nofun

/-- A byte of a type symbol is a valid character or a comma. -/
theorem MeterKind.mem_symbol {kind : MeterKind} {id : MeterId} {c : UInt8}
    (h : c ∈ (kind.meter id).meterTypeSymbol) : validChar c = true ∨ c = ch ',' := by
  obtain ⟨c₀, rest, hs, hc, hrest⟩ := kind.symbol_cons id
  rw [hs] at h
  rcases List.mem_cons.mp h with rfl | h
  · exact .inl hc
  · rcases hrest with rfl | ⟨ttl, rfl⟩
    · cases h
    · rcases List.mem_cons.mp h with h | h
      · exact .inr h
      · rcases mem_toDecimal h with rfl | ⟨h1, h2⟩
        · exact .inl (by decide)
        · exact .inl (validChar_of_digit h1 h2)

/-- The line is the type symbol, the id and the value, separated by colons. -/
theorem Meter.constructLine_eq (m : Meter) (valueStr : Str) :
    m.constructLine valueStr =
      m.meterTypeSymbol ++ ch ':' :: (m.id.spectatordId ++ ch ':' :: valueStr) := by
  simp [constructLine, fieldSeparator, str]

end Spectator
