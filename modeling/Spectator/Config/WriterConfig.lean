import Spectator.Utils.Convert
import Spectator.Writer.Writer

/-!
# Writer configuration

The model of `writer_config.cpp` and of the tables of `writer_types.h`: which writer a type string
stands for, and where it writes to. `getenv` gives the environment.

* `getWriterConfigFromString`: the table, then the two URL prefixes.
* `WriterConfig.ofType`, `WriterConfig.new`: the two constructors. `effectiveType`: the string that
  they judge.
-/

namespace Spectator

namespace WriterTypes

def memory : Str := str "memory"

def udp : Str := str "udp"

def unix : Str := str "unix"

def udpUrl : Str := str "udp://"

def unixUrl : Str := str "unix://"

end WriterTypes

namespace DefaultLocations

def noLocation : Str := str ""

def udp : Str := str "udp://127.0.0.1:1234"

def uds : Str := str "unix:///run/spectatord/spectatord.unix"

end DefaultLocations

/-- `TypeToLocationMap`. -/
def typeToLocationMap : List (Str × WriterType × Str) :=
  [(WriterTypes.memory, .memory, DefaultLocations.noLocation),
    (WriterTypes.udp, .udp, DefaultLocations.udp),
    (WriterTypes.unix, .unix, DefaultLocations.uds)]

/-- `WriterConfigConstants::RuntimeErrorMessage`. -/
def runtimeErrorMessage : Str := str "Invalid writer type: "

/-- `GetWriterConfigFromString`. -/
def getWriterConfigFromString (type : Str) : Except Exn (WriterType × Str) :=
  match typeToLocationMap.lookup type with
  | some entry => .ok entry
  | none =>
    if WriterTypes.udpUrl.isPrefixOf type then .ok (.udp, type)
    else if WriterTypes.unixUrl.isPrefixOf type then .ok (.unix, type)
    else .error (.runtimeError (runtimeErrorMessage ++ type))

/-- `WriterConfig`: `m_type`, `m_location`, `m_bufferSize`. -/
structure WriterConfig where
  type : WriterType
  location : Str
  bufferSize : Nat := 0

/-- The environment variable that replaces the type string. -/
def envOutputLocation : Str := str "SPECTATOR_OUTPUT_LOCATION"

/-- The constructor from a type string. -/
def WriterConfig.ofType (getenv : Str → Option Str) (type : Str) : Except Exn WriterConfig :=
  match getenv envOutputLocation with
  | some envValue => do
    let (writerType, location) ← getWriterConfigFromString envValue
    return { type := writerType, location := location }
  | none => do
    let (writerType, location) ← getWriterConfigFromString type
    return { type := writerType, location := location }

/-- The constructor with a buffer size, which delegates to the other one. -/
def WriterConfig.new (getenv : Str → Option Str) (type : Str) (bufferSize : Nat) :
    Except Exn WriterConfig := do
  let config ← WriterConfig.ofType getenv type
  return { config with bufferSize := bufferSize }

/-- The string that decides: the environment's, even if it is empty, or the type string. -/
def effectiveType (getenv : Str → Option Str) (type : Str) : Str :=
  (getenv envOutputLocation).getD type

theorem WriterConfig.new_eq (getenv : Str → Option Str) (type : Str) (bufferSize : Nat) :
    WriterConfig.new getenv type bufferSize =
      (getWriterConfigFromString (effectiveType getenv type)).map fun e =>
        ⟨e.1, e.2, bufferSize⟩ := by
  unfold WriterConfig.new WriterConfig.ofType effectiveType
  cases getenv envOutputLocation with
  | some envValue =>
    dsimp only [Option.getD]
    cases getWriterConfigFromString envValue <;> rfl
  | none =>
    dsimp only [Option.getD]
    cases getWriterConfigFromString type <;> rfl

/-! ## Which strings are accepted -/

theorem getWriterConfigFromString_udpUrl (rest : Str) :
    getWriterConfigFromString (WriterTypes.udpUrl ++ rest) =
      .ok (.udp, WriterTypes.udpUrl ++ rest) :=
  rfl

theorem getWriterConfigFromString_unixUrl (rest : Str) :
    getWriterConfigFromString (WriterTypes.unixUrl ++ rest) =
      .ok (.unix, WriterTypes.unixUrl ++ rest) :=
  rfl

/-- A key of the table, a string with one of the prefixes, or an error. -/
theorem getWriterConfigFromString_cases (s : Str) :
    s = WriterTypes.memory ∨ s = WriterTypes.udp ∨ s = WriterTypes.unix ∨
      (∃ rest, s = WriterTypes.udpUrl ++ rest) ∨ (∃ rest, s = WriterTypes.unixUrl ++ rest) ∨
      getWriterConfigFromString s = .error (.runtimeError (runtimeErrorMessage ++ s)) := by
  by_cases hm : s = WriterTypes.memory
  · exact .inl hm
  by_cases hu : s = WriterTypes.udp
  · exact .inr (.inl hu)
  by_cases hx : s = WriterTypes.unix
  · exact .inr (.inr (.inl hx))
  have hlookup : typeToLocationMap.lookup s = none := by
    simp [typeToLocationMap, List.lookup_cons, beq_eq_false_iff_ne.mpr hm,
      beq_eq_false_iff_ne.mpr hu, beq_eq_false_iff_ne.mpr hx]
  refine .inr (.inr (.inr ?_))
  unfold getWriterConfigFromString
  rw [hlookup]
  dsimp only
  by_cases hp : WriterTypes.udpUrl.isPrefixOf s = true
  · obtain ⟨rest, rfl⟩ := List.isPrefixOf_iff_prefix.mp hp
    exact .inl ⟨rest, rfl⟩
  by_cases hq : WriterTypes.unixUrl.isPrefixOf s = true
  · obtain ⟨rest, rfl⟩ := List.isPrefixOf_iff_prefix.mp hq
    exact .inr (.inl ⟨rest, rfl⟩)
  · rw [if_neg hp, if_neg hq]
    exact .inr (.inr rfl)

end Spectator
