import Spectator.Meter.MeterId

/-!
# Configuration

The model of `config.cpp`: the extra tags of a configuration, from its argument and from the
environment (`getenv`).

* `calculateTags`: `CalculateTags`. `Config`: the extra tags with the proof that they are well
  formed, so that no ill-formed extra tag can be configured.
* `envTag`: what the environment says of a key. `lookup_calculateTags`: the environment comes first,
  then the well-formed entries of the argument.
-/

namespace Spectator

namespace ConfigConstants

def container : Str := str "nf.container"

def process : Str := str "nf.process"

def envVarContainer : Str := str "TITUS_CONTAINER_NAME"

def envVarProcess : Str := str "TITUS_PROCESS_NAME"

end ConfigConstants

open ConfigConstants

/-- An environment variable in `CalculateTags`: set and not all white space, it becomes a tag. -/
def assignEnv (key : Str) (value : Option Str) (validTags : Tags) : Tags :=
  match value with
  | none => validTags
  | some valueStr =>
    if isEmptyOrWhitespace valueStr == false then validTags.insert key valueStr else validTags

/-- `CalculateTags`. -/
def calculateTags (getenv : Str → Option Str) {tags : Tags} (o : tags.Iteration) : Tags :=
  let validTags := UMap.assignIf validTag ∅ o.toList
  let containerName := getenv envVarContainer
  let processName := getenv envVarProcess
  let validTags := assignEnv container containerName validTags
  assignEnv process processName validTags

/-- What the environment says of the key `k`. -/
def envTag (getenv : Str → Option Str) (k : Str) : Option Str :=
  if k = container then (getenv envVarContainer).filter fun s => isEmptyOrWhitespace s == false
  else if k = process then (getenv envVarProcess).filter fun s => isEmptyOrWhitespace s == false
  else none

theorem lookup_assignEnv (key : Str) (value : Option Str) (tags : Tags) (k : Str) :
    (assignEnv key value tags).lookup k =
      (if k = key then value.filter fun s => isEmptyOrWhitespace s == false else none).or
        (tags.lookup k) := by
  cases value with
  | none => by_cases hk : k = key <;> simp [assignEnv, hk]
  | some s =>
    cases hs : isEmptyOrWhitespace s with
    | true => by_cases hk : k = key <;> simp [assignEnv, hs, hk, Option.filter]
    | false =>
      have hset : assignEnv key (some s) tags = Finmap.insert key s tags := by
        simp [assignEnv, hs]
      rw [hset]
      by_cases hk : k = key
      · rw [hk, if_pos rfl, Finmap.lookup_insert, Option.filter_some_pos (by simp [hs])]
        rfl
      · rw [if_neg hk, Option.none_or, Finmap.lookup_insert_of_ne _ hk]

/-- The extra tags: the environment first, then the well-formed entries of the argument. -/
theorem lookup_calculateTags (getenv : Str → Option Str) {tags : Tags} (o : tags.Iteration)
    (k : Str) : (calculateTags getenv o).lookup k =
      (envTag getenv k).or ((tags.lookup k).filter (validTag k)) := by
  have hne : container ≠ process := by decide
  unfold calculateTags envTag
  dsimp only
  rw [lookup_assignEnv, lookup_assignEnv, UMap.lookup_assignIf o]
  by_cases hc : k = container
  · subst hc
    simp [hne]
  · simp [hc]

theorem envTag_valid {getenv : Str → Option Str} {k v : Str} (h : envTag getenv k = some v) :
    validTag k v = true := by
  unfold envTag at h
  split at h
  · rename_i hk
    obtain ⟨-, hv⟩ := Option.filter_eq_some_iff.mp h
    subst hk
    exact validTag_iff.mpr ⟨by decide, by simpa using hv⟩
  · split at h
    · rename_i hk
      obtain ⟨-, hv⟩ := Option.filter_eq_some_iff.mp h
      subst hk
      exact validTag_iff.mpr ⟨by decide, by simpa using hv⟩
    · cases h

theorem calculateTags_wellFormed (getenv : Str → Option Str) {tags : Tags} (o : tags.Iteration) :
    Tags.WellFormed (calculateTags getenv o) := by
  intro k v h
  rw [lookup_calculateTags] at h
  cases he : envTag getenv k with
  | some w =>
    rw [he] at h
    cases h
    exact envTag_valid he
  | none =>
    rw [he, Option.none_or] at h
    exact (Option.filter_eq_some_iff.mp h).2

/-- `Config`: `m_extraTags`. -/
structure Config where
  extraTags : Tags
  valid : extraTags.WellFormed

/-- The constructor. -/
def Config.new (getenv : Str → Option Str) {extraTags : Tags} (o : extraTags.Iteration) :
    Config where
  extraTags := calculateTags getenv o
  valid := calculateTags_wellFormed getenv o

end Spectator
