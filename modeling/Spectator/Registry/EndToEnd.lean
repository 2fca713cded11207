import Spectator.Registry.Construct
import Spectator.Registry.WireId
import Spectator.Writer.EndToEnd

/-!
# From the configuration to a decoded line

The library as its user sees it: a registry built from the environment, a location and extra tags,
threads that create meters by name and call their methods, and a receiver at the other end of the
socket.

* `RegistryCall`: a meter created by name, and a call of one of its methods.
  `RegistryCall.meterCall`: the same call, as one on an id with well-formed tags.
* `tagAt`: which source a tag comes from. `Received`: what a decoded line says of a call.
* `registry_received`: every decoded line says so of one of the calls.
-/

namespace Spectator

/-- A meter created by name with `r`, and a call of one of its methods. The tags are well formed, or
extra tags are configured. -/
structure RegistryCall (r : Registry) where
  name : Str
  tags : Tags
  order : tags.Iteration
  extraOrder : r.config.extraTags.Iteration
  copyOrder : UMap.Iteration (UMap.assign (MeterId.new name order).tags extraOrder.toList)
  clean : tags.WellFormed ∨ r.config.extraTags ≠ ∅
  operation : Operation

namespace RegistryCall

variable {r : Registry} (c : RegistryCall r)

/-- The id of the meter. -/
def id : MeterId := r.createNewId c.name c.order c.extraOrder c.copyOrder

/-- The message for `Writer::Write`. -/
def message : Option Str := c.operation.run c.id

/-- The call on an id with well-formed tags: those of the argument, or those of the copy in
`WithTags`. -/
def meterCall : MeterCall :=
  if h : r.config.extraTags = ∅ then
    ⟨c.name, c.tags, c.order, c.clean.resolve_right (not_not_intro h), c.operation⟩
  else
    ⟨c.name, _, c.copyOrder,
      (assign_wellFormed_iff (MeterId.valid _) c.extraOrder).mpr r.config.valid, c.operation⟩

theorem meterCall_name : c.meterCall.name = c.name := by
  unfold meterCall
  split <;> rfl

theorem meterCall_operation : c.meterCall.operation = c.operation := by
  unfold meterCall
  split <;> rfl

theorem meterCall_id : c.meterCall.id = c.id := by
  unfold meterCall id
  split
  · next h => exact (r.createNewId_of_empty c.name c.order c.extraOrder c.copyOrder h).symm
  · next h => exact (r.createNewId_of_ne c.name c.order c.extraOrder c.copyOrder h).symm

theorem meterCall_tags : c.meterCall.tags = c.id.tags := by
  rw [← meterCall_id]
  exact (MeterId.new_tags_eq c.meterCall.wellFormed c.meterCall.order).symm

theorem meterCall_message : c.meterCall.message = c.message := by
  rw [MeterCall.message, meterCall_operation, meterCall_id]
  rfl

end RegistryCall

/-- The tag at the key `k`: the environment's, or the extra tag, or the meter's own. -/
def tagAt (getenv : Str → Option Str) (extraTags tags : Tags) (k : Str) : Option Str :=
  ((envTag getenv k).or ((extraTags.lookup k).filter (validTag k))).or
    ((tags.lookup k).filter (validTag k))

/-- What a decoded line says of the call that it comes from. -/
structure Received (getenv : Str → Option Str) (extraTags : Tags) {r : Registry} (p : ProtocolLine)
    (c : RegistryCall r) : Prop where
  symbol : (c.operation.kind.meter c.id).meterTypeSymbol.head? = some p.symbol
  name : p.id.name = replaceInvalidChars c.name
  /-- Each tag is one of the call's. -/
  tag_of : ∀ k v, p.id.tags.lookup k = some v → ∃ k₀ v₀,
    tagAt getenv extraTags c.tags k₀ = some v₀ ∧ k = replaceInvalidChars k₀ ∧
      v = replaceInvalidChars v₀
  /-- Each tag of the call is there, if no two keys become one. -/
  of_tag : c.id.tags.StayDistinct → ∀ k₀ v₀, tagAt getenv extraTags c.tags k₀ = some v₀ →
    p.id.tags.lookup (replaceInvalidChars k₀) = some (replaceInvalidChars v₀)
  value : p.value = c.operation.amount.toStr ++ [newLine]
  /-- The text of a finite amount says its value, to half a millionth. -/
  reading : ∀ v, c.operation.amount.value = some v → ∃ q,
    readDecimal c.operation.amount.toStr = some q ∧ |q - v| ≤ 1 / (2 * 10 ^ 6)

section Start

variable {getenv : Str → Option Str} {f : Writer.Faults} {type : Str} {n : Nat} {extraTags : Tags}
  {o : extraTags.Iteration} {w₀ : Writer} {r : Registry}

/-- If a registry is constructed, then its location is an address, and `Initialize` has returned. -/
theorem startRegistry_constructed
    (h : (startRegistry getenv f type n o w₀).result = .constructed r) :
    r = ⟨.new getenv o⟩ ∧ ∃ writerType param port,
      Address (effectiveType getenv type) writerType param port ∧
      Writer.initializeWriter f writerType param port n w₀ =
        .returned (startRegistry getenv f type n o w₀).writer := by
  by_cases ha : ∃ writerType param port, Address (effectiveType getenv type) writerType param port
  · obtain ⟨writerType, param, port, ha⟩ := ha
    have hstart := startRegistry_address getenv f n o w₀ rfl ha
    rw [hstart] at h ⊢
    unfold Startup.initializeWriter at h ⊢
    cases hw : Writer.initializeWriter f writerType param port n w₀ with
    | returned w =>
      simp only [hw] at h ⊢
      cases h
      exact ⟨rfl, writerType, param, port, ha, hw⟩
    | threw | terminated =>
      simp only [hw] at h
      cases h
  · simp only [not_exists] at ha
    obtain ⟨e, he⟩ := startRegistry_rejected getenv f n o w₀ rfl ha
    rw [he] at h
    cases h

/-- The tags of an id by name. -/
theorem RegistryCall.lookup_id (c : RegistryCall ⟨.new getenv o⟩) (k : Str) :
    c.id.tags.lookup k = tagAt getenv extraTags c.tags k := by
  refine (Registry.createNewId_lookup _ c.name c.order c.extraOrder c.copyOrder k).trans ?_
  rw [tagAt, ← lookup_calculateTags getenv o k]
  rfl

/-- The decoded line of a call. -/
theorem RegistryCall.received (ord : (tags : Tags) → tags.Iteration)
    (c : RegistryCall ⟨.new getenv o⟩) :
    Received getenv extraTags (c.meterCall.decoded ord) c where
  symbol := by
    obtain ⟨s, rest, hsym, -⟩ := c.operation.kind.symbol_cons c.id
    rw [MeterCall.decoded, c.meterCall_operation, c.meterCall_id, hsym]
    rfl
  name := congrArg replaceInvalidChars c.meterCall_name
  tag_of k v h := by
    obtain ⟨k₀, v₀, hk, hkey, hval⟩ := MeterCall.mem_of_decoded_lookup h
    rw [c.meterCall_tags, c.lookup_id] at hk
    exact ⟨k₀, v₀, hk, hkey, hval⟩
  of_tag hd k₀ v₀ h := by
    rw [← c.meterCall_tags] at hd
    refine MeterCall.decoded_lookup hd ?_
    rw [c.meterCall_tags, c.lookup_id]
    exact h
  value := by
    rw [MeterCall.decoded, c.meterCall_operation]
  reading v hv := ⟨_, Amount.read hv, Amount.abs_reading_sub_le hv⟩

end Start

section Threads

variable {ι : Type} [DecidableEq ι] {getenv : Str → Option Str} {f : Writer.Faults} {type : Str}
  {n : Nat} {extraTags : Tags} {o : extraTags.Iteration} {args : List InitArgs} {w : Writer}
  {r : Registry} {tr : List (Label ι)} {s : State ι}

/-- **From the configuration to the wire and back.** A registry is constructed on a fresh singleton
from any environment, any location of a socket and any extra tags, with a buffer; threads create
meters by name and call their methods, interleaved in any way, and the system calls return anything.
Then every line of every datagram is decoded, and says of one of the calls: its symbol, its
sanitised name, at each key the tag of the first of environment, extra tags and the meter's own, and
its amount. No call is decoded twice, and the order is that in which the messages were accepted. -/
theorem registry_received
    (hstart : startRegistry getenv f type n o {} = ⟨args, w, .constructed r⟩) (hn : 0 < n)
    {registryCalls : ι → List (RegistryCall r)}
    (h : Lts.Run Step (State.start w fun i => (registryCalls i).filterMap RegistryCall.message)
      tr s)
    {s₀ : SocketWriter} (hs : ∃ impl, w.impl = some impl ∧ impl.Behind s₀) {cs : List SocketCall}
    (hcs : cs.map SocketCall.event = calls tr) (ord : (tags : Tags) → tags.Iteration) :
    ∃ received : List (RegistryCall r), (∀ c ∈ received, ∃ i, c ∈ registryCalls i) ∧
      (received.map RegistryCall.message).Sublist ((appended tr).map some) ∧
      List.Forall₂ (fun line c => ∃ p, line = some p ∧ Received getenv extraTags p c)
        ((s₀.datagrams cs).flatMap (decodeDatagram ord)) received := by
  obtain ⟨rfl, writerType, param, port, -, hw⟩ :=
    startRegistry_constructed (by rw [hstart] : (startRegistry getenv f type n o {}).result = _)
  rw [hstart] at hw
  obtain ⟨impl, -, hb⟩ := hs
  obtain ⟨peer, he⟩ := hb.established
  have hmessage : ∀ i, (registryCalls i).filterMap RegistryCall.message =
      ((registryCalls i).map RegistryCall.meterCall).filterMap MeterCall.message := by
    intro i
    rw [List.filterMap_map]
    exact List.filterMap_congr fun c _ => c.meterCall_message.symm
  simp only [hmessage] at h
  obtain ⟨decoded, hmem, hsub, heq⟩ := exists_received hw hn h he hcs ord
  obtain ⟨received, hrec, rfl⟩ : ∃ received : List (RegistryCall _),
      (∀ c ∈ received, ∃ i, c ∈ registryCalls i) ∧
        received.map RegistryCall.meterCall = decoded := by
    refine exists_map_eq fun m hm => ?_
    obtain ⟨i, hi⟩ := hmem m hm
    obtain ⟨c, hc, rfl⟩ := List.mem_map.mp hi
    exact ⟨c, ⟨i, hc⟩, rfl⟩
  refine ⟨received, hrec, ?_, ?_⟩
  · rw [List.map_map] at hsub
    rwa [List.map_congr_left fun c _ => (c.meterCall_message).symm]
  · rw [heq, List.map_map, List.forall₂_map_left_iff]
    exact List.forall₂_same.mpr fun c _ => ⟨_, rfl, c.received ord⟩

/-- A container in the environment and an age gauge without tags: its line is decoded with the tag
of the container. -/
theorem registry_received_container : ∃ (datagram : Str) (p : ProtocolLine)
    (ord : (tags : Tags) → tags.Iteration), decodeDatagram ord datagram = [some p] ∧
    p.symbol = ch 'A' ∧ p.id.name = str "n_" ∧
    p.id.tags.lookup (str "nf.container") = some (str "c_1") := by
  let getenv : Str → Option Str := fun v =>
    if v = ConfigConstants.envVarContainer then some (str "c 1") else none
  let empty : UMap.Iteration (UMap.assignIf validTag (∅ : Tags) []) :=
    .ofAssignIf validTag [] (by decide)
  let r : Registry := ⟨.new getenv empty⟩
  let oe : r.config.extraTags.Iteration := (UMap.Iteration.nonempty _).some
  let c : RegistryCall r := ⟨str "n ", _, empty, oe, (UMap.Iteration.nonempty _).some,
    .inl (validateTags_wellFormed []), .ageGaugeNow⟩
  have hdistinct : c.id.tags.StayDistinct := by
    have hkey : ∀ k ∈ c.id.tags, k = ConfigConstants.container := by
      intro k hk
      obtain ⟨v, hv⟩ := Finmap.mem_iff.mp hk
      rw [c.lookup_id, tagAt, envTag] at hv
      split at hv
      · assumption
      · split at hv <;> cases hv
    exact fun k hk k' hk' _ => (hkey k hk).trans (hkey k' hk').symm
  obtain ⟨line, hline⟩ : ∃ line, c.message = some line := Operation.exists_run.mpr rfl
  have hstart : startRegistry getenv {} (str "udp") 1 empty {} =
      ⟨[⟨.udp, str "127.0.0.1", 1234, 1⟩], Writer.buffered (.udp (str "127.0.0.1") 1234) 1,
        .constructed r⟩ :=
    startRegistry_address getenv {} 1 empty {} (by decide) .udp
  have hc : [c].filterMap RegistryCall.message = [line] := by simp [hline]
  obtain ⟨tr, s, run, -, -, -, hcalls⟩ :=
    run_one_line (.udp (str "127.0.0.1") 1234) (n := 1) (m := line) (by decide) (by simp)
  rw [← hc] at run
  let cs : List SocketCall :=
    [.write (line ++ [newLine]) { send := fun _ => .returned false (line.length + 1) }]
  have hcs : cs.map SocketCall.event = calls tr := by rw [hcalls]; rfl
  let ord (tags : Tags) : tags.Iteration := (UMap.Iteration.nonempty tags).some
  obtain ⟨received, hmem, -, hall⟩ := registry_received hstart (by decide) run
    ⟨_, rfl, .udp (str "127.0.0.1") 1234 {}⟩ hcs ord
  -- The batch is sent with the first attempt, and the datagram is one line.
  have hdelivers : cs.filterMap SocketWriter.delivered? = [line ++ [newLine]] := by
    have hok : WriteCalls.Delivers { send := fun _ => .returned false (line.length + 1) }
        (line ++ [newLine]) :=
      ⟨0, by decide, by simp [SendResult.complete], fun _ h => absurd h (Nat.not_lt_zero _)⟩
    simp [cs, SocketWriter.delivered?, hok]
  have hdatagrams : (UDPWriter.new (str "127.0.0.1") 1234 {}).datagrams cs =
      [line ++ [newLine]] := by
    obtain ⟨peer, he⟩ := (Impl.Behind.udp (str "127.0.0.1") 1234 {}).established
    rw [SocketWriter.datagrams_eq_filter he, hdelivers]
    intro message os hm
    obtain ⟨rfl, rfl⟩ := SocketCall.write.inj (List.mem_singleton.mp hm)
    rfl
  have hdecode : decodeDatagram ord (line ++ [newLine]) =
      [parseProtocolLine ord (line ++ [newLine])] := by
    have hline' : newLine ∉ line := c.meterCall.newLine_notMem (c.meterCall_message.trans hline)
    have h1 : linesText [line] = line ++ [newLine] := by simp [linesText, Writer.nonBufferedText]
    rw [← h1, decodeDatagram_linesText ord (by simpa using hline'), h1]
    rfl
  rw [hdatagrams, List.flatMap_singleton, hdecode, List.forall₂_cons_left_iff] at hall
  obtain ⟨c', rest, ⟨p, hparse, hp'⟩, -, rfl⟩ := hall
  obtain ⟨-, hc'⟩ := hmem c' List.mem_cons_self
  obtain rfl := List.mem_singleton.mp hc'
  exact ⟨line ++ [newLine], p, ord, by rw [hdecode, hparse], (Option.some.inj hp'.symbol).symm,
    hp'.name, hp'.of_tag hdistinct (str "nf.container") (str "c 1") (by decide)⟩

end Threads

end Spectator
