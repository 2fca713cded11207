import Spectator.Config.Config
import Spectator.Meter.Meter

/-!
# The registry

The model of `CreateNewId` and of the functions of `registry.cpp` that create a meter by name. The
iteration orders are those of the argument (`o`), of the configured extra tags (`oe`) and of the
copy in `WithTags` (`on`).

* `Registry.createNewId`: with and without extra tags. `createNewId_lookup`: both ways, one law.
* `Registry.createAgeGauge`, …: by name. `Registry.createdByName`: all of them.
* `tag_precedence`: from the environment to the meter, which source a tag comes from.
-/

namespace Spectator

/-- `Registry`: `m_config`. -/
structure Registry where
  config : Config

namespace Registry

section Create

variable (r : Registry) (name : Str) {tags : Tags} (o : tags.Iteration)
  (oe : r.config.extraTags.Iteration)
  (on : UMap.Iteration (UMap.assign (MeterId.new name o).tags oe.toList))

/-- `CreateNewId`. -/
def createNewId : MeterId :=
  let newMeterId := MeterId.new name o
  if r.config.extraTags = ∅ then newMeterId else newMeterId.withTags oe on

def createAgeGauge : Meter := ageGauge (r.createNewId name o oe on)

def createCounter : Meter := counter (r.createNewId name o oe on)

def createDistributionSummary : Meter := distributionSummary (r.createNewId name o oe on)

def createGauge (ttlSeconds : Option Int) : Meter := gauge (r.createNewId name o oe on) ttlSeconds

def createMaxGauge : Meter := maxGauge (r.createNewId name o oe on)

def createMonotonicCounter : Meter := monotonicCounter (r.createNewId name o oe on)

def createMonotonicCounterUint : Meter := monotonicCounterUint (r.createNewId name o oe on)

def createPercentDistributionSummary : Meter :=
  percentileDistributionSummary (r.createNewId name o oe on)

def createPercentTimer : Meter := percentileTimer (r.createNewId name o oe on)

def createTimer : Meter := timer (r.createNewId name o oe on)

/-- The meters that the functions by name create from the same arguments. -/
def createdByName (ttlSeconds : Option Int) : List Meter :=
  [r.createAgeGauge name o oe on, r.createCounter name o oe on,
    r.createDistributionSummary name o oe on, r.createGauge name o oe on ttlSeconds,
    r.createMaxGauge name o oe on, r.createMonotonicCounter name o oe on,
    r.createMonotonicCounterUint name o oe on, r.createPercentDistributionSummary name o oe on,
    r.createPercentTimer name o oe on, r.createTimer name o oe on]

theorem id_of_createdByName {ttlSeconds : Option Int} {m : Meter}
    (h : m ∈ r.createdByName name o oe on ttlSeconds) : m.id = r.createNewId name o oe on := by
  simp only [createdByName, List.mem_cons, List.not_mem_nil, or_false] at h
  rcases h with rfl | rfl | rfl | rfl | rfl | rfl | rfl | rfl | rfl | rfl <;> rfl

theorem createNewId_of_empty (h : r.config.extraTags = ∅) :
    r.createNewId name o oe on = .new name o :=
  if_pos h

theorem createNewId_of_ne (h : r.config.extraTags ≠ ∅) :
    r.createNewId name o oe on = (MeterId.new name o).withTags oe on :=
  if_neg h

theorem createNewId_name : (r.createNewId name o oe on).name = name := by
  by_cases h : r.config.extraTags = ∅
  · rw [createNewId_of_empty r name o oe on h]; rfl
  · rw [createNewId_of_ne r name o oe on h]; rfl

/-- Extra tags come first, and then the well-formed entries of the argument. -/
theorem createNewId_lookup (k : Str) : (r.createNewId name o oe on).tags.lookup k =
    (r.config.extraTags.lookup k).or ((tags.lookup k).filter (validTag k)) := by
  by_cases h : r.config.extraTags = ∅
  · rw [createNewId_of_empty r name o oe on h, MeterId.new_lookup, h, Finmap.lookup_empty,
      Option.none_or]
  · rw [createNewId_of_ne r name o oe on h, MeterId.withTags_lookup, MeterId.new_lookup]
    -- What overrides is well formed, so the check at the end drops nothing.
    cases he : r.config.extraTags.lookup k with
    | some v => exact Option.filter_some_pos (r.config.valid k v he)
    | none =>
      rw [Option.none_or, Option.filter_filter]
      simp

end Create

end Registry

/-- **Tag precedence.** The id that `CreateNewId` builds, and with it every meter created by name,
has the given name, and at each key the first of these that there is: the environment's value, the
well-formed entry of the extra tags, the well-formed entry of the tags. -/
theorem tag_precedence (getenv : Str → Option Str) {extraTags tags : Tags}
    (oc : extraTags.Iteration) (name : Str) (o : tags.Iteration)
    (oe : (Config.new getenv oc).extraTags.Iteration)
    (on : UMap.Iteration (UMap.assign (MeterId.new name o).tags oe.toList))
    (ttlSeconds : Option Int) :
    let r : Registry := ⟨Config.new getenv oc⟩
    let id := r.createNewId name o oe on
    id.name = name ∧
      (∀ k, id.tags.lookup k = ((envTag getenv k).or ((extraTags.lookup k).filter (validTag k))).or
        ((tags.lookup k).filter (validTag k))) ∧
      ∀ m ∈ r.createdByName name o oe on ttlSeconds, m.id = id := by
  intro r id
  refine ⟨r.createNewId_name name o oe on, fun k => ?_,
    fun m hm => r.id_of_createdByName name o oe on hm⟩
  rw [← lookup_calculateTags getenv oc k]
  exact r.createNewId_lookup name o oe on k

/-- Three layers: the container from the environment, the process from the extra tags because the
environment's value is blank, and a tag of the meter that an empty extra tag does not hide. -/
theorem tag_precedence_layers : ∃ m : Meter,
    m.id.tags.lookup ConfigConstants.container = some (str "c1") ∧
    m.id.tags.lookup ConfigConstants.process = some (str "p") ∧
    m.id.tags.lookup (str "a") = some (str "1") := by
  let getenv : Str → Option Str := fun v =>
    if v = ConfigConstants.envVarContainer then some (str "c1")
    else if v = ConfigConstants.envVarProcess then some (str " ")
    else none
  let oc := UMap.Iteration.ofAssignIf (fun _ _ => true)
    [(ConfigConstants.process, str "p"), (str "a", str "")] (by decide)
  let o := UMap.Iteration.ofAssignIf (fun _ _ => true)
    [(ConfigConstants.process, str "q"), (str "a", str "1")] (by decide)
  obtain ⟨oe⟩ := UMap.Iteration.nonempty (Config.new getenv oc).extraTags
  obtain ⟨on⟩ := UMap.Iteration.nonempty (UMap.assign (MeterId.new (str "n") o).tags oe.toList)
  obtain ⟨-, hlookup, hmeters⟩ := tag_precedence getenv oc (str "n") o oe on none
  let r : Registry := ⟨Config.new getenv oc⟩
  have hid := hmeters (r.createCounter (str "n") o oe on) (by simp [Registry.createdByName, r])
  refine ⟨r.createCounter (str "n") o oe on, ?_, ?_, ?_⟩
  all_goals rw [hid, hlookup]
  · decide
  · decide
  · decide

end Spectator
