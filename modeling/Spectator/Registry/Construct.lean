import Spectator.Config.WriterConfig
import Spectator.Registry.Address
import Spectator.Registry.Registry

/-!
# Constructing a registry

The model of the constructor of `Registry` and of what leads to it,
`Registry(Config(WriterConfig(type, bufferSize), extraTags))`: which calls of `Writer::Initialize`
it makes, what it does to the singleton, and how it ends.

* `FullConfig`: `Config` with its writer part. `Registry.new`: the constructor.
* `startRegistry`: the whole expression.
* `Address`: the address grammar, with what an address stands for.
* `startRegistry_address`: an address makes one call. `startRegistry_rejected`: anything else makes
  none.
-/

namespace Spectator

/-- `Config` with its other member, `m_writerConfig`. -/
structure FullConfig extends Config where
  writerConfig : WriterConfig

/-- The constructor of `Config`. -/
def FullConfig.new (getenv : Str → Option Str) (writerConfig : WriterConfig) {extraTags : Tags}
    (o : extraTags.Iteration) : FullConfig where
  toConfig := .new getenv o
  writerConfig := writerConfig

/-- The arguments of a call of `Writer::Initialize`. -/
structure InitArgs where
  type : WriterType
  param : Str
  port : Int
  bufferSize : Nat
  deriving DecidableEq

/-- How the construction ends. -/
inductive Startup.Result where
  | constructed (r : Registry)
  | threw (e : Exn)
  /-- `Writer::Initialize` threw. -/
  | initializeThrew
  | terminated

/-- The calls of `Writer::Initialize`, the singleton after them, and how the construction ends. -/
structure Startup where
  calls : List InitArgs
  writer : Writer
  result : Startup.Result

/-- An exception before any call. -/
def Startup.throw (w : Writer) (e : Exn) : Startup := ⟨[], w, .threw e⟩

/-- A call of `Writer::Initialize`, the last thing the constructor of `r` does. -/
def Startup.initializeWriter (f : Writer.Faults) (r : Registry) (args : InitArgs) (w : Writer) :
    Startup :=
  match Writer.initializeWriter f args.type args.param args.port args.bufferSize w with
  | .returned w' => ⟨[args], w', .constructed r⟩
  | .threw w' => ⟨[args], w', .initializeThrew⟩
  | .terminated => ⟨[args], w, .terminated⟩

/-- The constructor of `Registry`. -/
def Registry.new (f : Writer.Faults) (config : FullConfig) (w : Writer) : Startup :=
  let r : Registry := ⟨config.toConfig⟩
  let writerType := config.writerConfig.type
  let bufferSize := config.writerConfig.bufferSize
  if writerType = .memory then Startup.initializeWriter f r ⟨writerType, str "", 0, bufferSize⟩ w
  else if writerType = .udp then
    match parseUdpAddress config.writerConfig.location with
    | .error e => .throw w e
    | .ok (ip, port) => Startup.initializeWriter f r ⟨writerType, ip, port, bufferSize⟩ w
  else if writerType = .unix then
    match parseUnixAddress config.writerConfig.location with
    | .error e => .throw w e
    | .ok socketPath => Startup.initializeWriter f r ⟨writerType, socketPath, 0, bufferSize⟩ w
  else ⟨[], w, .constructed r⟩

/-- `Registry(Config(WriterConfig(type, bufferSize), extraTags))`. -/
def startRegistry (getenv : Str → Option Str) (f : Writer.Faults) (type : Str) (bufferSize : Nat)
    {extraTags : Tags} (o : extraTags.Iteration) (w : Writer) : Startup :=
  match WriterConfig.new getenv type bufferSize with
  | .error e => .throw w e
  | .ok writerConfig => Registry.new f (.new getenv writerConfig o) w

/-! ## The grammar -/

/-- The addresses, each with the writer type, the parameter and the port that it stands for. -/
inductive Address : Str → WriterType → Str → Nat → Prop
  | memory : Address (str "memory") .memory (str "") 0
  | udp : Address (str "udp") .udp (str "127.0.0.1") 1234
  | unix : Address (str "unix") .unix (str "/run/spectatord/spectatord.unix") 0
  | udpUrl {ip d : Str} : ip ≠ [] → (∀ c ∈ ip, isDigit c = true ∨ c = ch '.') → d ≠ [] →
      (∀ c ∈ d, isDigit c = true) → decimal d ≤ 65535 →
      Address (str "udp://" ++ ip ++ str ":" ++ d) .udp ip (decimal d)
  | unixUrl {path : Str} : ch '\n' ∉ path → ch '\r' ∉ path →
      Address (str "unix://" ++ path) .unix path 0

/-- The logged call is the call that is made: the run of `Writer::Initialize` on these arguments
decides about the singleton and the end. -/
theorem Startup.initializeWriter_spec (f : Writer.Faults) (r : Registry) (args : InitArgs)
    (w : Writer) :
    let out := Startup.initializeWriter f r args w
    out.calls = [args] ∧
      match Writer.initializeWriter f args.type args.param args.port args.bufferSize w with
      | .returned w' => out.writer = w' ∧ out.result = .constructed r
      | .threw w' => out.writer = w' ∧ out.result = .initializeThrew
      | .terminated => out.writer = w ∧ out.result = .terminated := by
  unfold Startup.initializeWriter
  cases Writer.initializeWriter f args.type args.param args.port args.bufferSize w <;>
    exact ⟨rfl, rfl, rfl⟩

section Start

variable (getenv : Str → Option Str) (f : Writer.Faults) {type : Str} (bufferSize : Nat)
  {extraTags : Tags} (o : extraTags.Iteration) (w : Writer)

/-- What the writer configuration accepts is what the constructor of `Registry` gets. -/
theorem startRegistry_of_ok {s location : Str} {writerType : WriterType}
    (hs : effectiveType getenv type = s)
    (h : getWriterConfigFromString s = .ok (writerType, location)) :
    startRegistry getenv f type bufferSize o w =
      Registry.new f (.new getenv ⟨writerType, location, bufferSize⟩ o) w := by
  unfold startRegistry
  rw [WriterConfig.new_eq, hs, h]
  rfl

theorem startRegistry_of_error {s : Str} {e : Exn} (hs : effectiveType getenv type = s)
    (h : getWriterConfigFromString s = .error e) :
    startRegistry getenv f type bufferSize o w = .throw w e := by
  unfold startRegistry
  rw [WriterConfig.new_eq, hs, h]
  rfl

theorem Registry.new_udp {config : FullConfig} (ht : config.writerConfig.type = .udp) :
    Registry.new f config w = match parseUdpAddress config.writerConfig.location with
      | .error e => .throw w e
      | .ok (ip, port) => Startup.initializeWriter f ⟨config.toConfig⟩
          ⟨.udp, ip, port, config.writerConfig.bufferSize⟩ w := by
  unfold Registry.new
  rw [ht]
  rfl

theorem Registry.new_unix {config : FullConfig} (ht : config.writerConfig.type = .unix) :
    Registry.new f config w = match parseUnixAddress config.writerConfig.location with
      | .error e => .throw w e
      | .ok socketPath => Startup.initializeWriter f ⟨config.toConfig⟩
          ⟨.unix, socketPath, 0, config.writerConfig.bufferSize⟩ w := by
  unfold Registry.new
  rw [ht]
  rfl

/-- A location of the UDP form, with a port in range. -/
theorem startRegistry_udp {s location ip d : Str} (hs : effectiveType getenv type = s)
    (h : getWriterConfigFromString s = .ok (.udp, location)) (hform : UdpForm location ip d)
    (hport : decimal d ≤ 65535) : startRegistry getenv f type bufferSize o w =
      Startup.initializeWriter f ⟨.new getenv o⟩ ⟨.udp, ip, decimal d, bufferSize⟩ w := by
  rw [startRegistry_of_ok getenv f bufferSize o w hs h, Registry.new_udp f w rfl]
  dsimp only [FullConfig.new]
  rw [parseUdpAddress_form hform, if_pos hport]

/-- A location of the Unix form. -/
theorem startRegistry_unix {s location path : Str} (hs : effectiveType getenv type = s)
    (h : getWriterConfigFromString s = .ok (.unix, location)) (hform : UnixForm location path) :
    startRegistry getenv f type bufferSize o w =
      Startup.initializeWriter f ⟨.new getenv o⟩ ⟨.unix, path, 0, bufferSize⟩ w := by
  rw [startRegistry_of_ok getenv f bufferSize o w hs h, Registry.new_unix f w rfl]
  dsimp only [FullConfig.new]
  rw [parseUnixAddress_form hform]

/-- An address makes one call of `Writer::Initialize`, with what the address stands for. -/
theorem startRegistry_address {s param : Str} {writerType : WriterType} {port : Nat}
    (hs : effectiveType getenv type = s) (ha : Address s writerType param port) :
    startRegistry getenv f type bufferSize o w =
      Startup.initializeWriter f ⟨.new getenv o⟩ ⟨writerType, param, port, bufferSize⟩ w := by
  cases ha with
  | memory => exact startRegistry_of_ok getenv f bufferSize o w hs rfl
  | udp =>
    have hform : UdpForm DefaultLocations.udp (str "127.0.0.1") (str "1234") :=
      ⟨by decide, by decide, ipChars_of_all (by decide), by decide,
        List.all_eq_true.mp (by decide)⟩
    exact startRegistry_udp getenv f bufferSize o w hs rfl hform (by decide)
  | unix =>
    have hform : UnixForm DefaultLocations.uds (str "/run/spectatord/spectatord.unix") :=
      ⟨by decide, by decide, by decide⟩
    exact startRegistry_unix getenv f bufferSize o w hs rfl hform
  | @udpUrl _ d hip hipc hd hdc hport =>
    have hform : UdpForm (WriterTypes.udpUrl ++ (param ++ str ":" ++ d)) param d :=
      ⟨by simp [WriterTypes.udpUrl], hip, hipc, hd, hdc⟩
    rw [hform.eq.symm] at hs
    exact startRegistry_udp getenv f bufferSize o w hs (getWriterConfigFromString_udpUrl _) hform
      hport
  | unixUrl hn hr =>
    have hform : UnixForm (WriterTypes.unixUrl ++ param) param := ⟨rfl, hn, hr⟩
    exact startRegistry_unix getenv f bufferSize o w hs (getWriterConfigFromString_unixUrl param)
      hform

/-- Any other string: an exception, and no call. -/
theorem startRegistry_rejected {s : Str} (hs : effectiveType getenv type = s)
    (ha : ∀ writerType param port, ¬ Address s writerType param port) :
    ∃ e, startRegistry getenv f type bufferSize o w = .throw w e := by
  rcases getWriterConfigFromString_cases s with
    rfl | rfl | rfl | ⟨rest, rfl⟩ | ⟨rest, rfl⟩ | herr
  · exact absurd .memory (ha _ _ _)
  · exact absurd .udp (ha _ _ _)
  · exact absurd .unix (ha _ _ _)
  · -- The prefix is right: the pattern, the conversion or the range check rejects the rest.
    rw [startRegistry_of_ok getenv f bufferSize o w hs (getWriterConfigFromString_udpUrl rest),
      Registry.new_udp f w rfl]
    dsimp only [FullConfig.new]
    by_cases hform : ∃ ip d, UdpForm (WriterTypes.udpUrl ++ rest) ip d
    · obtain ⟨ip, d, hform⟩ := hform
      have hport : ¬ decimal d ≤ 65535 := fun hport => by
        have haddr := Address.udpUrl hform.ip_ne hform.ip_chars hform.digits_ne hform.digits hport
        rw [← hform.eq] at haddr
        exact ha _ _ _ haddr
      rw [parseUdpAddress_form hform, if_neg hport]
      by_cases hlong : decimal d < 2 ^ 31
      · rw [if_pos hlong]
        exact ⟨_, rfl⟩
      · rw [if_neg hlong]
        exact ⟨_, rfl⟩
    · rw [parseUdpAddress_bad fun ip d h => hform ⟨ip, d, h⟩]
      exact ⟨_, rfl⟩
  · rw [startRegistry_of_ok getenv f bufferSize o w hs (getWriterConfigFromString_unixUrl rest),
      Registry.new_unix f w rfl]
    dsimp only [FullConfig.new]
    have hbad : ∀ path, ¬ UnixForm (WriterTypes.unixUrl ++ rest) path := fun path hform => by
      have haddr := Address.unixUrl hform.lineFeed hform.carriageReturn
      rw [← hform.eq] at haddr
      exact ha _ _ _ haddr
    rw [parseUnixAddress_bad hbad]
    exact ⟨_, rfl⟩
  · exact ⟨_, startRegistry_of_error getenv f bufferSize o w hs herr⟩

end Start

/-- **The configuration pipeline accepts its address grammar.** The string that decides is the
environment's, if it is set, or the type string. If it is an address, then `Writer::Initialize` is
called once, with what the address stands for and the buffer size, and the run of this call decides
what the singleton is afterwards and how the construction ends. If not, then the construction throws,
without a call, and the singleton is unchanged. -/
theorem registry_accepts_grammar (getenv : Str → Option Str) (f : Writer.Faults) (type : Str)
    (bufferSize : Nat) {extraTags : Tags} (o : extraTags.Iteration) (w : Writer) :
    let s := (getenv (str "SPECTATOR_OUTPUT_LOCATION")).getD type
    let out := startRegistry getenv f type bufferSize o w
    (∀ writerType param port, Address s writerType param port →
      out.calls = [⟨writerType, param, port, bufferSize⟩] ∧
        match Writer.initializeWriter f writerType param port bufferSize w with
        | .returned w' => out.writer = w' ∧ out.result = .constructed ⟨.new getenv o⟩
        | .threw w' => out.writer = w' ∧ out.result = .initializeThrew
        | .terminated => out.writer = w ∧ out.result = .terminated) ∧
    ((∀ writerType param port, ¬ Address s writerType param port) →
      out.calls = [] ∧ out.writer = w ∧ ∃ e, out.result = .threw e) := by
  intro s out
  refine ⟨fun writerType param port ha => ?_, fun ha => ?_⟩
  · have heq : out = _ := startRegistry_address getenv f bufferSize o w rfl ha
    rw [heq]
    exact Startup.initializeWriter_spec f ⟨.new getenv o⟩ ⟨writerType, param, port, bufferSize⟩ w
  · obtain ⟨e, he⟩ := startRegistry_rejected getenv f bufferSize o w (s := s) rfl ha
    have heq : out = .throw w e := he
    rw [heq]
    exact ⟨rfl, rfl, e, rfl⟩

/-- The environment replaces the type string; the port has leading zeros. -/
theorem registry_accepts_grammar_env : ∃ getenv : Str → Option Str,
    getenv (str "SPECTATOR_OUTPUT_LOCATION") = some (str "udp://10.0.0.1:000080") ∧
    ∀ {extraTags : Tags} (o : extraTags.Iteration),
      (startRegistry getenv {} (str "memory") 16 o {}).calls =
        [⟨.udp, str "10.0.0.1", 80, 16⟩] := by
  refine ⟨fun _ => some (str "udp://10.0.0.1:000080"), rfl, fun {_} o => ?_⟩
  have h := registry_accepts_grammar (fun _ => some (str "udp://10.0.0.1:000080")) {}
    (str "memory") 16 o {}
  have haddr : Address (str "udp://" ++ str "10.0.0.1" ++ str ":" ++ str "000080") .udp
      (str "10.0.0.1") (decimal (str "000080")) :=
    .udpUrl (by decide) (ipChars_of_all (by decide)) (by decide) (List.all_eq_true.mp (by decide))
      (by decide)
  exact (h.1 _ _ _ haddr).1

end Spectator
