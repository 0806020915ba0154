import SwarmUpkeep.Upkeep.Upgrade.Template

/-!
# The parameters that a new template is given

Parameters can be supplied again unless one is missing, and then the first that is missing is named.
-/

namespace SwarmUpkeep.Template

theorem parse_of_place {raw : String} {allowInsecure : Bool} {url : Url}
    (h : place raw allowInsecure = .ok url) : Url.parse raw = .ok url := by
  unfold place at h
  cases hparse : Url.parse raw with
  | error e =>
      rw [hparse] at h
      cases h
  | ok parsed =>
      rw [hparse] at h
      simp only [pure_bind] at h
      split at h
      · split at h
        · exact congrArg Except.ok (Except.ok.inj h)
        · cases h
      · cases h

/-- A parameter whose value the provider keeps to itself and nobody here knows. -/
def IsMissing (config : Config) (entry : String × Parameter) : Prop :=
  entry.2.value = none ∧ entry.2.secure = true ∧ entry.1 ≠ config.swarm.secretParameter

instance (config : Config) : DecidablePred (IsMissing config) :=
  fun _ => inferInstanceAs (Decidable (_ ∧ _ ∧ _))

/-- The value with which a parameter is supplied, if it is. -/
def supplied? (config : Config) (entry : String × Parameter) : Option Json :=
  entry.2.value.or <|
    if entry.1 = config.swarm.secretParameter then some (.str config.cloud.appSecret.value)
    else none

/-- The parameters that are supplied. -/
def supplied (config : Config) (parameters : List (String × Parameter)) : Json.Members :=
  parameters.filterMap fun entry =>
    (supplied? config entry).map fun value => (entry.1, .obj [("value", value)])

variable {config : Config} {parameters : List (String × Parameter)}

theorem carried_eq (name : String) (parameter : Parameter) :
    carried config name parameter =
      if IsMissing config (name, parameter) then .error (.missingParameter name)
      else .ok (supplied? config (name, parameter)) := by
  obtain ⟨value, secure⟩ := parameter
  cases value with
  | some value => simp [carried, IsMissing, supplied?]
  | none =>
      by_cases hname : name = config.swarm.secretParameter
      · simp [carried, IsMissing, supplied?, hname]
      · cases secure <;> simp [carried, IsMissing, supplied?, hname]

theorem carriedForward_eq (config : Config) (parameters : List (String × Parameter)) :
    carriedForward config parameters =
      match parameters.find? fun entry => IsMissing config entry with
      | some (name, _) => .error (.missingParameter name)
      | none => .ok (supplied config parameters) := by
  induction parameters with
  | nil => rfl
  | cons entry rest ih =>
      obtain ⟨name, parameter⟩ := entry
      unfold carriedForward
      rw [carried_eq, ih, List.find?_cons]
      by_cases hmissing : IsMissing config (name, parameter)
      · simp only [hmissing, if_true, decide_true]
        rfl
      · simp only [hmissing, if_false, decide_false]
        cases rest.find? fun entry => IsMissing config entry with
        | some found => rfl
        | none =>
            cases hvalue : supplied? config (name, parameter) <;>
              simp only [supplied, List.filterMap_cons, hvalue] <;> rfl

/-- Parameters are supplied again exactly: each that has a value with that value, and the secret of
the application, if it has none, with the secret that is known here. -/
structure Supplies (config : Config) (parameters : List (String × Parameter))
    (supplied : Json.Members) : Prop where
  ascending : supplied.Pairwise (·.1 < ·.1)
  entries : ∀ key body, (key, body) ∈ supplied ↔ ∃ parameter, (key, parameter) ∈ parameters ∧
    ((∃ value, parameter.value = some value ∧ body = .obj [("value", value)]) ∨
      (parameter.value = none ∧ key = config.swarm.secretParameter ∧
        body = .obj [("value", .str config.cloud.appSecret.value)]))

theorem supplied?_eq_some_iff {config : Config} {name : String} {parameter : Parameter}
    {value : Json} :
    supplied? config (name, parameter) = some value ↔
      parameter.value = some value ∨ (parameter.value = none ∧ name = config.swarm.secretParameter ∧
        value = .str config.cloud.appSecret.value) := by
  obtain ⟨found, secure⟩ := parameter
  cases found with
  | some found => simp [supplied?]
  | none =>
      by_cases hname : name = config.swarm.secretParameter
      · simp [supplied?, hname, eq_comm]
      · simp [supplied?, hname]

theorem supplied_supplies (config : Config) {parameters : List (String × Parameter)}
    (hascending : parameters.Pairwise (·.1 < ·.1)) :
    Supplies config parameters (supplied config parameters) where
  ascending := by
    refine List.pairwise_filterMap.mpr (hascending.imp ?_)
    intro first second hlt entry hentry entry' hentry'
    obtain ⟨_, _, rfl⟩ := Option.map_eq_some_iff.mp hentry
    obtain ⟨_, _, rfl⟩ := Option.map_eq_some_iff.mp hentry'
    exact hlt
  entries := by
    intro key body
    rw [supplied, List.mem_filterMap]
    constructor
    · rintro ⟨⟨name, parameter⟩, hmem, hsupplied⟩
      obtain ⟨value, hvalue, heq⟩ := Option.map_eq_some_iff.mp hsupplied
      obtain ⟨rfl, rfl⟩ := Prod.mk.inj heq
      refine ⟨parameter, hmem, ?_⟩
      rcases supplied?_eq_some_iff.mp hvalue with hown | ⟨hnone, hname, rfl⟩
      · exact .inl ⟨value, hown, rfl⟩
      · exact .inr ⟨hnone, hname, rfl⟩
    · rintro ⟨parameter, hmem, ⟨value, hvalue, rfl⟩ | ⟨hnone, hname, rfl⟩⟩
      · exact ⟨(key, parameter), hmem, Option.map_eq_some_iff.mpr
          ⟨value, supplied?_eq_some_iff.mpr (.inl hvalue), rfl⟩⟩
      · exact ⟨(key, parameter), hmem, Option.map_eq_some_iff.mpr
          ⟨_, supplied?_eq_some_iff.mpr (.inr ⟨hnone, hname, rfl⟩), rfl⟩⟩

/-- The first parameter that is missing has the least name of all that are. -/
theorem least_of_find {config : Config} {parameters : List (String × Parameter)}
    {entry : String × Parameter} (hascending : parameters.Pairwise (·.1 < ·.1))
    (hfind : parameters.find? (fun entry => IsMissing config entry) = some entry) :
    entry ∈ parameters ∧ IsMissing config entry ∧
      ∀ other ∈ parameters, IsMissing config other → entry.1 ≤ other.1 := by
  obtain ⟨hmissing, before, after, rfl, hbefore⟩ := List.find?_eq_some_iff_append.mp hfind
  refine ⟨by simp, of_decide_eq_true hmissing, fun other hother hmissing' => ?_⟩
  rcases List.mem_append.mp hother with hearlier | hlater
  · have hnot := hbefore other hearlier
    simp [hmissing'] at hnot
  · rcases List.mem_cons.mp hlater with rfl | hafter
    · exact String.le_refl _
    · have hlt := List.rel_of_pairwise_cons (List.pairwise_append.mp hascending).2.1 hafter
      exact String.not_lt.mp (String.lt_asymm hlt)

end SwarmUpkeep.Template
