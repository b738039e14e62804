/-!
# Outcomes of steps that may fail
-/

namespace CodeGraph

variable {ε ε' α β : Type}

/-- Two steps succeed exactly if the first one does, and the second one on its result. -/
theorem bind_eq_ok_iff {step : Except ε α} {next : α → Except ε β} {value : β} :
    step >>= next = .ok value ↔ ∃ between, step = .ok between ∧ next between = .ok value := by
  cases step <;> simp [bind, Except.bind]

/-- Two steps fail exactly if the first one does, or the second one on its result. -/
theorem bind_eq_error_iff {step : Except ε α} {next : α → Except ε β} {error : ε} :
    step >>= next = .error error ↔
      step = .error error ∨ ∃ between, step = .ok between ∧ next between = .error error := by
  cases step <;> simp [bind, Except.bind]

/-- A check is followed by a step that does not look at its result. -/
theorem check_bind_eq_ok_iff {check : Except ε Unit} {next : Except ε β} {value : β} :
    (check >>= fun _ => next) = .ok value ↔ check = .ok () ∧ next = .ok value := by
  cases check <;> simp [bind, Except.bind]

theorem map_eq_ok_iff {change : α → β} {step : Except ε α} {value : β} :
    step.map change = .ok value ↔ ∃ before, step = .ok before ∧ change before = value := by
  cases step <;> simp [Except.map]

theorem map_eq_error_iff {change : α → β} {step : Except ε α} {error : ε} :
    step.map change = .error error ↔ step = .error error := by
  cases step <;> simp [Except.map]

theorem mapError_eq_ok_iff {rename : ε → ε'} {step : Except ε α} {value : α} :
    step.mapError rename = .ok value ↔ step = .ok value := by
  cases step <;> constructor <;> rintro ⟨⟩ <;> rfl

theorem mapError_eq_error_iff {rename : ε → ε'} {step : Except ε α} {error : ε'} :
    step.mapError rename = .error error ↔
      ∃ before, step = .error before ∧ rename before = error := by
  constructor
  · intro renamed
    cases step with
    | error before => exact ⟨before, rfl, Except.error.inj renamed⟩
    | ok => exact nomatch renamed
  · rintro ⟨before, rfl, rfl⟩
    rfl

theorem mapM_cons_eq_ok_iff {step : α → Except ε β} {item : α} {items : List α}
    {values : List β} :
    (item :: items).mapM step = .ok values ↔
      ∃ first others, step item = .ok first ∧ items.mapM step = .ok others ∧
        first :: others = values := by
  simp only [List.mapM_cons, bind_eq_ok_iff]
  constructor
  · rintro ⟨first, first_eq, others, others_eq, same⟩
    exact ⟨first, others, first_eq, others_eq, Except.ok.inj same⟩
  · rintro ⟨first, others, first_eq, others_eq, rfl⟩
    exact ⟨first, first_eq, others, others_eq, rfl⟩

/-- Steps of which each succeeds with a value of a kind succeed with values of that kind. -/
theorem exists_mapM_eq_ok {step : α → Except ε β} {good : β → Prop} {items : List α}
    (each : ∀ item ∈ items, ∃ value, step item = .ok value ∧ good value) :
    ∃ values, items.mapM step = .ok values ∧ ∀ value ∈ values, good value := by
  induction items with
  | nil => exact ⟨[], rfl, List.forall_mem_nil _⟩
  | cons item items ih =>
      obtain ⟨⟨first, first_eq, first_good⟩, each⟩ := List.forall_mem_cons.mp each
      obtain ⟨others, others_eq, others_good⟩ := ih each
      exact ⟨first :: others, mapM_cons_eq_ok_iff.mpr ⟨first, others, first_eq, others_eq, rfl⟩,
        List.forall_mem_cons.mpr ⟨first_good, others_good⟩⟩

end CodeGraph
