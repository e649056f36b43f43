import StagedQuery.Outcome

/-!
# Outcomes in sequence

A sequence of two outcomes is taken apart: what it logs is what both log, and it
succeeds exactly if both succeed.
-/

namespace StagedQuery.Outcome

variable {α β : Type}

/-- Plain values are told apart as outcomes. -/
theorem pure_inj {left right : α} : (pure left : Outcome α) = pure right ↔ left = right := by
  constructor
  · intro same
    exact Except.ok.inj (congrArg Outcome.result same)
  · intro same
    rw [same]

/-- A sequence succeeds exactly if its first part does and its second part does with the
    result of the first. -/
theorem bind_result_eq_ok {first : Outcome α} {next : α → Outcome β} {value : β} :
    (first >>= next).result = .ok value ↔
      ∃ middle, first.result = .ok middle ∧ (next middle).result = .ok value := by
  obtain ⟨log, result⟩ := first
  constructor
  · intro succeeded
    cases result with
    | error fault => cases succeeded
    | ok middle => exact ⟨middle, rfl, succeeded⟩
  · rintro ⟨middle, rfl, succeeded⟩
    exact succeeded

/-- A sequence fails exactly if its first part does or its second part does with the result
    of the first. -/
theorem bind_result_eq_error {first : Outcome α} {next : α → Outcome β} {fault : ExecutionFault} :
    (first >>= next).result = .error fault ↔ first.result = .error fault ∨
      ∃ middle, first.result = .ok middle ∧ (next middle).result = .error fault := by
  obtain ⟨log, result⟩ := first
  cases result with
  | error own =>
    constructor
    · intro failed
      exact .inl (congrArg Except.error (Except.error.inj failed))
    · rintro (⟨⟨⟩⟩ | ⟨middle, ⟨⟩, -⟩)
      rfl
  | ok middle =>
    constructor
    · intro failed
      exact .inr ⟨middle, rfl, failed⟩
    · rintro (⟨⟨⟩⟩ | ⟨middle, ⟨⟩, failed⟩)
      exact failed

/-- The log of a sequence whose first part succeeds. -/
theorem bind_log {first : Outcome α} {next : α → Outcome β} {middle : α}
    (succeeded : first.result = .ok middle) :
    (first >>= next).log = first.log ++ (next middle).log := by
  obtain ⟨log, _ | other⟩ := first
  · cases succeeded
  · cases succeeded
    rfl

/-- Changing the value changes neither the log nor a fault. -/
theorem map_eq_mk (change : α → β) (outcome : Outcome α) :
    change <$> outcome = ⟨outcome.log, outcome.result.map change⟩ := by
  obtain ⟨log, fault | value⟩ := outcome
  · rfl
  · rw [map_eq_pure_bind]
    exact congrArg (Outcome.mk · _) (List.append_nil log)

/-- An outcome succeeds with a changed value exactly if it does with one that is changed to it. -/
theorem map_result_eq_ok {change : α → β} {outcome : Outcome α} {value : β} :
    (change <$> outcome).result = .ok value ↔
      ∃ before, outcome.result = .ok before ∧ change before = value := by
  rw [map_eq_pure_bind, bind_result_eq_ok]
  constructor
  · rintro ⟨before, found, same⟩
    exact ⟨before, found, Except.ok.inj same⟩
  · rintro ⟨before, found, rfl⟩
    exact ⟨before, found, rfl⟩

/-- Changing the value changes no fault. -/
theorem map_result_eq_error {change : α → β} {outcome : Outcome α} {fault : ExecutionFault} :
    (change <$> outcome).result = .error fault ↔ outcome.result = .error fault := by
  rw [map_eq_pure_bind, bind_result_eq_error]
  constructor
  · rintro (failed | ⟨value, -, ⟨⟩⟩)
    exact failed
  · exact .inl

/-- A sequence is a plain value exactly if both its parts are. -/
theorem bind_eq_pure {first : Outcome α} {next : α → Outcome β} {value : β} :
    first >>= next = pure value ↔ ∃ middle, first = pure middle ∧ next middle = pure value := by
  constructor
  · intro same
    have whole : (first >>= next).result = .ok value := by
      rw [same]
      rfl
    obtain ⟨middle, succeeded, later⟩ := bind_result_eq_ok.mp whole
    have logs : first.log ++ (next middle).log = [] := by
      rw [← bind_log succeeded, same]
      rfl
    obtain ⟨firstLog, nextLog⟩ := List.append_eq_nil_iff.mp logs
    have plain {γ : Type} {outcome : Outcome γ} {result : γ} (silent : outcome.log = [])
        (fine : outcome.result = .ok result) : outcome = pure result := by
      obtain ⟨log, _ | _⟩ := outcome <;> cases fine
      cases silent
      rfl
    exact ⟨middle, plain firstLog succeeded, plain nextLog later⟩
  · rintro ⟨middle, rfl, same⟩
    exact same

/-! ## Success -/

/-- An outcome that is a value. -/
def Succeeds (outcome : Outcome α) : Prop :=
  ∃ value, outcome.result = .ok value

/-- A plain value is a success. -/
theorem succeeds_pure (value : α) : Succeeds (pure value : Outcome α) :=
  ⟨value, rfl⟩

/-- A sequence succeeds if its second part does with every result of the first. -/
theorem Succeeds.bind {first : Outcome α} {next : α → Outcome β} (succeeds : first.Succeeds)
    (rest : ∀ value, first.result = .ok value → (next value).Succeeds) :
    (first >>= next).Succeeds := by
  obtain ⟨middle, found⟩ := succeeds
  obtain ⟨value, later⟩ := rest middle found
  exact ⟨value, bind_result_eq_ok.mpr ⟨middle, found, later⟩⟩

/-- A success stays one when its value changes. -/
theorem Succeeds.map {outcome : Outcome α} (succeeds : outcome.Succeeds) (change : α → β) :
    (change <$> outcome).Succeeds := by
  rw [map_eq_pure_bind]
  exact succeeds.bind fun value _ => succeeds_pure _

/-- Both parts of a sequence that succeeds do. -/
theorem succeeds_of_bind {first : Outcome α} {next : α → Outcome β}
    (succeeds : (first >>= next).Succeeds) :
    ∃ middle, first.result = .ok middle ∧ (next middle).Succeeds := by
  obtain ⟨value, found⟩ := succeeds
  obtain ⟨middle, before, after⟩ := bind_result_eq_ok.mp found
  exact ⟨middle, before, value, after⟩

/-- A change of the value makes a success of nothing else. -/
theorem succeeds_of_map {outcome : Outcome α} {change : α → β}
    (succeeds : (change <$> outcome).Succeeds) : outcome.Succeeds := by
  obtain ⟨result, changed⟩ := succeeds
  obtain ⟨value, found, -⟩ := map_result_eq_ok.mp changed
  exact ⟨value, found⟩

/-- A sequence whose second part does not look at the result of the first succeeds exactly if
    both parts do. -/
theorem succeeds_bind_const_iff {first : Outcome α} {rest : Outcome β} :
    (first >>= fun _ => rest).Succeeds ↔ first.Succeeds ∧ rest.Succeeds := by
  constructor
  · intro succeeds
    obtain ⟨value, found, later⟩ := succeeds_of_bind succeeds
    exact ⟨⟨value, found⟩, later⟩
  · rintro ⟨own, later⟩
    exact own.bind fun _ _ => later

/-- Two results are combined exactly if both are found. -/
theorem succeeds_combine_iff {γ : Type} {first : Outcome α} {rest : Outcome β}
    (combine : α → β → γ) :
    (first >>= fun own => rest >>= fun others => pure (combine own others)).Succeeds ↔
      first.Succeeds ∧ rest.Succeeds := by
  constructor
  · intro succeeds
    obtain ⟨own, found, later⟩ := succeeds_of_bind succeeds
    obtain ⟨others, foundToo, -⟩ := succeeds_of_bind later
    exact ⟨⟨own, found⟩, others, foundToo⟩
  · rintro ⟨own, later⟩
    exact own.bind fun _ _ => later.bind fun _ _ => succeeds_pure _

/-! ## Effects -/

/-- What an outcome does apart from its value: the calls that it starts and the fault that it
    ends with. -/
def effect (outcome : Outcome α) : Outcome Unit :=
  (fun _ => ()) <$> outcome

/-- A plain value has no effect. -/
theorem effect_pure (value : α) : (pure value : Outcome α).effect = pure () := rfl

/-- An outcome without a value of interest is its own effect. -/
theorem effect_unit (outcome : Outcome Unit) : outcome.effect = outcome :=
  id_map outcome

/-- What is made of the value does not matter to the effect. -/
theorem effect_map (change : α → β) (outcome : Outcome α) :
    (change <$> outcome).effect = outcome.effect := by
  simp [effect]

/-- The effect of a sequence is the effect of its second part after the first. -/
theorem effect_bind (first : Outcome α) (next : α → Outcome β) :
    (first >>= next).effect = first >>= fun value => (next value).effect := by
  simp [effect]

/-- An effect has the fault of its outcome. -/
theorem effect_result_eq_error {outcome : Outcome α} {fault : ExecutionFault} :
    outcome.effect.result = .error fault ↔ outcome.result = .error fault :=
  map_result_eq_error

/-- Outcomes with one effect start the same calls. -/
theorem log_of_effect {first : Outcome α} {second : Outcome β}
    (same : first.effect = second.effect) : first.log = second.log := by
  have log {γ : Type} (outcome : Outcome γ) : outcome.effect.log = outcome.log := by
    obtain ⟨log, _ | _⟩ := outcome
    · rfl
    · exact List.append_nil log
  rw [← log first, same, log second]

/-- Sequences have one effect if their first parts do and their second parts do after any
    results of the first. -/
theorem effect_bind_congr {γ δ : Type} {first : Outcome α} {first' : Outcome β}
    {next : α → Outcome γ} {next' : β → Outcome δ} (same : first.effect = first'.effect)
    (rest : ∀ value value', first.result = .ok value → first'.result = .ok value' →
      (next value).effect = (next' value').effect) :
    (first >>= next).effect = (first' >>= next').effect := by
  have logs := log_of_effect same
  obtain ⟨log, fault | value⟩ := first <;> obtain ⟨log', fault' | value'⟩ := first'
  · cases same
    rfl
  · cases congrArg Outcome.result same
  · cases congrArg Outcome.result same
  · obtain rfl : log = log' := logs
    have sequence {γ δ : Type} (value : γ) (next : γ → Outcome δ) :
        ((⟨log, .ok value⟩ : Outcome γ) >>= next).effect =
          (⟨log, .ok ()⟩ : Outcome Unit) >>= fun _ => (next value).effect := by
      rw [effect, map_bind]
      rfl
    rw [sequence, sequence, rest value value' rfl rfl]

/-- An outcome succeeds exactly if its effect does. -/
theorem succeeds_effect {outcome : Outcome α} : outcome.effect.Succeeds ↔ outcome.Succeeds :=
  ⟨succeeds_of_map, fun succeeds => succeeds.map _⟩

end StagedQuery.Outcome
