import PaymentOps.Mapping.Mapper

/-!
# Validation of mappings

What a mapping definition must satisfy before its profile is published: `validateMapping` finds
no error exactly in a definition that is `WellFormed`.
-/

namespace PaymentOps.Mapping

open Text

/-- The canonical target paths, relative to a transaction. -/
def allowedTargets : List String :=
  ["instruction_id", "end_to_end_id", "transaction_id", "amount.amount_minor", "amount.currency",
    "debtor.name", "creditor.name", "debtor.postal_address.street_name",
    "debtor.postal_address.building_number", "debtor.postal_address.postcode",
    "debtor.postal_address.town_name", "debtor.postal_address.country",
    "debtor.postal_address.address_lines", "creditor.postal_address.street_name",
    "creditor.postal_address.building_number", "creditor.postal_address.postcode",
    "creditor.postal_address.town_name", "creditor.postal_address.country",
    "creditor.postal_address.address_lines", "debtor_account.iban", "debtor_account.name",
    "debtor_account.other_identification", "creditor_account.iban", "creditor_account.name",
    "debtor_agent.bic", "debtor_agent.name", "creditor_agent.bic", "creditor_agent.name",
    "remittance.unstructured"]

/-- The transforms that a field may name. -/
def supportedTransforms : List String :=
  ["collapse_whitespace", "company_suffix_normalization", "country_to_iso2", "lower",
    "normalize_bic_case", "normalize_iban_whitespace", "normalize_unicode", "parse_date",
    "parse_decimal", "remove_safe_punctuation", "trim", "upper"]

/-- What the validation of a mapping finds. -/
structure MappingValidation where
  valid : Bool
  errors : List MappingIssue := []
  warnings : List MappingIssue := []

/-- `MappingIssue(code, severity, message, path)` where the condition holds. -/
def issueIf (c : Bool) (issue : MappingIssue) : List MappingIssue := if c then [issue] else []

/-- The errors of one field, after the targets `seen`. -/
def fieldErrors (seen : List String) (fm : FieldMapping) : List MappingIssue :=
  issueIf (fm.source = "") ⟨"MAP-003", .error, "Empty source selector", some fm.target⟩ ++
  issueIf (fm.target ∉ allowedTargets)
    ⟨"MAP-004", .error, "Unknown canonical target '" ++ fm.target ++ "'", some fm.target⟩ ++
  issueIf (fm.target ∈ seen)
    ⟨"MAP-005", .error, "Duplicate target '" ++ fm.target ++ "'", some fm.target⟩ ++
  fm.transforms.flatMap fun t =>
    issueIf (t ∉ supportedTransforms)
      ⟨"MAP-006", .error, "Unsupported transform '" ++ t ++ "'", some fm.target⟩

/-- `for fm in definition.fields`, with the targets seen so far. -/
def fieldsErrors : List String → List FieldMapping → List MappingIssue
  | _, [] => []
  | seen, fm :: fields => fieldErrors seen fm ++ fieldsErrors (fm.target :: seen) fields

/-- The issues that make a mapping invalid. -/
def mappingErrors (definition : MappingDefinition) : List MappingIssue :=
  issueIf definition.fields.isEmpty ⟨"MAP-002", .error, "Mapping has no field mappings", none⟩ ++
  issueIf (definition.sourceFormat = .customXml && ! truthy definition.recordSelector)
    ⟨"MAP-011", .error, "Custom XML mapping requires record_selector", none⟩ ++
  fieldsErrors [] definition.fields

/-- The issues that do not. -/
def mappingWarnings (definition : MappingDefinition) : List MappingIssue :=
  issueIf (definition.sourceFormat = .json && ! truthy definition.recordSelector)
    ⟨"MAP-010", .warning, "JSON mapping lacks record_selector", none⟩ ++
  definition.fields.flatMap fun fm =>
    issueIf (fm.target = "amount.currency" && "parse_decimal" ∈ fm.transforms)
      ⟨"MAP-007", .warning, "currency should not be decimal-parsed", some fm.target⟩

/-- `validate_mapping`. -/
def validateMapping (definition : MappingDefinition) : MappingValidation where
  valid := (mappingErrors definition).isEmpty
  errors := mappingErrors definition
  warnings := mappingWarnings definition

/-! ## Definitions without errors -/

/-- A field without errors. -/
structure WellFormedField (fm : FieldMapping) : Prop where
  source : fm.source ≠ ""
  target : fm.target ∈ allowedTargets
  transforms : ∀ t ∈ fm.transforms, t ∈ supportedTransforms

/-- Fields that read something, each for a target of its own, with transforms that exist. -/
structure WellFormed (definition : MappingDefinition) : Prop where
  fields_ne : definition.fields ≠ []
  selector : definition.sourceFormat = .customXml → truthy definition.recordSelector
  fields : ∀ fm ∈ definition.fields, WellFormedField fm
  targets : (definition.fields.map (·.target)).Nodup

@[simp] theorem issueIf_eq_nil {c : Bool} {issue : MappingIssue} :
    issueIf c issue = [] ↔ c = false := by
  cases c <;> simp [issueIf]

theorem fieldErrors_eq_nil {seen : List String} {fm : FieldMapping} :
    fieldErrors seen fm = [] ↔ WellFormedField fm ∧ fm.target ∉ seen := by
  simp only [fieldErrors, List.append_eq_nil_iff, issueIf_eq_nil, List.flatMap_eq_nil_iff,
    decide_eq_false_iff_not, not_not]
  constructor
  · rintro ⟨⟨⟨hsource, htarget⟩, hseen⟩, htransforms⟩
    exact ⟨⟨hsource, htarget, htransforms⟩, hseen⟩
  · rintro ⟨h, hseen⟩
    exact ⟨⟨⟨h.source, h.target⟩, hseen⟩, h.transforms⟩

theorem fieldsErrors_eq_nil {seen : List String} {fields : List FieldMapping} :
    fieldsErrors seen fields = [] ↔ (∀ fm ∈ fields, WellFormedField fm ∧ fm.target ∉ seen) ∧
      (fields.map (·.target)).Nodup := by
  induction fields generalizing seen with
  | nil => simp [fieldsErrors]
  | cons fm fields ih =>
    rw [fieldsErrors, List.append_eq_nil_iff, fieldErrors_eq_nil, ih, List.map_cons,
      List.nodup_cons]
    constructor
    · rintro ⟨hfm, hall, hnodup⟩
      refine ⟨?_, fun hmem => ?_, hnodup⟩
      · intro x hx
        rcases List.mem_cons.mp hx with rfl | hx
        · exact hfm
        · exact ⟨(hall x hx).1, fun hseen => (hall x hx).2 (List.mem_cons_of_mem _ hseen)⟩
      · obtain ⟨x, hx, heq⟩ := List.mem_map.mp hmem
        exact (hall x hx).2 (heq ▸ List.mem_cons_self)
    · rintro ⟨hall, hnew, hnodup⟩
      refine ⟨hall fm List.mem_cons_self, fun x hx => ⟨?_, fun hmem => ?_⟩, hnodup⟩
      · exact (hall x (List.mem_cons_of_mem _ hx)).1
      · rcases List.mem_cons.mp hmem with heq | hseen
        · exact hnew (List.mem_map.mpr ⟨x, hx, heq⟩)
        · exact (hall x (List.mem_cons_of_mem _ hx)).2 hseen

/-- A definition has no errors exactly when it is well formed. -/
theorem validateMapping_eq_nil {definition : MappingDefinition} :
    (validateMapping definition).errors = [] ↔ WellFormed definition := by
  simp only [validateMapping, mappingErrors, List.append_eq_nil_iff, issueIf_eq_nil,
    fieldsErrors_eq_nil, List.not_mem_nil, not_false_eq_true, and_true]
  constructor
  · rintro ⟨⟨hne, hselector⟩, hfields, htargets⟩
    exact ⟨by simpa using hne, by simpa using hselector, hfields, htargets⟩
  · intro h
    exact ⟨⟨by simpa using h.fields_ne, by simpa using h.selector⟩, h.fields, h.targets⟩

theorem WellFormed.of_valid {definition : MappingDefinition}
    (h : (validateMapping definition).valid) : WellFormed definition :=
  validateMapping_eq_nil.mp (List.isEmpty_iff.mp h)

/-- Every target is one that the mapper can fill. -/
theorem WellFormed.allowed {definition : MappingDefinition} (h : WellFormed definition) :
    ∀ fm ∈ definition.fields, fm.target ∈ allowedTargets :=
  fun fm hfm => (h.fields fm hfm).target

end PaymentOps.Mapping
