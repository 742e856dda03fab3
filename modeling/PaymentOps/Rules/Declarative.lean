import Mathlib.Data.List.Infix
import PaymentOps.Lib.Decimal
import PaymentOps.Lib.JsonDumps
import PaymentOps.Rules.Address
import PaymentOps.Rules.Fields

/-!
# Customer rules

A customer's rule is configuration: a field, an operator of a fixed list and a value.  The rules of
a profile run after those of CloudNova.
-/

namespace PaymentOps

open Text

namespace RuleConfig

/-- The operators that a rule may have. -/
def operators : List String :=
  ["in", "not_in", "equals", "not_equals", "is_empty", "not_empty", "greater_than", "less_than",
    "contains", "starts_with"]

/-- The classification of the rules of the system. -/
def systemMandatory : String := "SYSTEM_MANDATORY"

/-- The classification of the rules of customers. -/
def customerConfigurable : String := "CUSTOMER_CONFIGURABLE"

end RuleConfig

/-- A rule as a customer writes it. -/
structure RuleConfig where
  ruleId : String
  field : String
  operator : String
  value : Json
  severity : Severity := .warning
  message : Option String := none
  category : String := "customer"
  classification : String := RuleConfig.customerConfigurable
  rulesetVersion : String := "cloudnova-customer-v1"

/-- `validate_rule_config`. -/
def validateRuleConfig (config : RuleConfig) : List String :=
  (if config.operator ∈ RuleConfig.operators then []
    else ["unsupported operator '" ++ config.operator ++ "'"]) ++
  (if config.classification = RuleConfig.systemMandatory then
      ["customer config cannot declare SYSTEM_MANDATORY"]
    else [])

theorem validateRuleConfig_eq_nil {config : RuleConfig} :
    validateRuleConfig config = [] ↔
      config.operator ∈ RuleConfig.operators ∧
        config.classification ≠ RuleConfig.systemMandatory := by
  unfold validateRuleConfig
  by_cases hop : config.operator ∈ RuleConfig.operators <;>
    by_cases hclass : config.classification = RuleConfig.systemMandatory <;> simp [hop, hclass]

/-! ## Evaluation -/

/-- A Python float. -/
inductive FloatValue where
  | finite (q : ℚ)
  | infinite (negative : Bool)
  | nan
  deriving DecidableEq

/-- `v < w`, which no `nan` is. -/
def FloatValue.lt : FloatValue → FloatValue → Bool
  | finite q, finite r => q < r
  | finite _, infinite negative => ! negative
  | infinite negative, finite _ => negative
  | infinite negative, infinite negative' => negative && ! negative'
  | nan, _ => false
  | _, nan => false

/-- A rational number as a float. -/
def floatOf (q : ℚ) : FloatValue :=
  match Decimal.binary64 q with
  | some r => .finite r
  | none => .infinite (q < 0)

/-- How values are written as texts: `repr` of what a field holds, and `str` of the value of a rule
that is no text. -/
structure PythonText where
  repr : Node → String
  str : Json → String

namespace RuleConfig

/-- `float(text)` -/
def floatOfText (u : Unicode) (text : String) : Option FloatValue :=
  (Decimal.ofFloatText u text).map fun
    | .finite q => floatOf q
    | .infinite => .infinite (Decimal.takeSign (strip text).toList).1
    | .nan => .nan

/-- `_num` of what a field holds -/
def fieldNum (u : Unicode) : Node → Option FloatValue
  | .text s => floatOfText u s
  | .number n => some (floatOf n)
  | _ => none

/-- `_num` of the value of a rule -/
def valueNum (u : Unicode) : Json → Option FloatValue
  | .str s => floatOfText u s
  | .num q => some (floatOf q)
  | _ => none

/-- The dictionary of the fields received. -/
def fieldMembers (f : OriginalFields) : List (String × String) :=
  [("StrtNm", f.strtNm), ("BldgNb", f.bldgNb), ("PstCd", f.pstCd), ("TwnNm", f.twnNm),
    ("Ctry", f.ctry)].filterMap fun p => p.2.map (p.1, ·)

/-- `text == value` -/
def textEquals (s : String) : Json → Bool
  | .str t => s = t
  | _ => false

/-- `value == expected`; a `bool` counts as a number. -/
def equals : Node → Json → Bool
  | .absent, .null => true
  | .text s, e => textEquals s e
  | .number n, .num q => n = q
  | .number n, .bool b => n = if b then 1 else 0
  | .texts l, .arr items => l.length = items.length && (l.zip items).all fun p => textEquals p.1 p.2
  | .fields f, .obj members =>
    (fieldMembers f).length = members.length &&
      (fieldMembers f).all fun p => (members.lookup p.1).any (textEquals p.2)
  | _, _ => false

/-- `_matches` -/
def holds (u : Unicode) (py : PythonText) (value : Node) (operator : String) (expected : Json) :
    Bool :=
  if operator = "in" then
    match expected with
    | .arr items => items.any (equals value)
    | _ => false
  else if operator = "not_in" then
    match expected with
    | .arr items => ! items.any (equals value)
    | _ => false
  else if operator = "equals" then equals value expected
  else if operator = "not_equals" then ! equals value expected
  else if operator = "is_empty" then value = .absent || value = .text ""
  else if operator = "not_empty" then value ≠ .absent && value ≠ .text ""
  else if operator = "greater_than" then
    match fieldNum u value, valueNum u expected with
    | some v, some e => e.lt v
    | _, _ => false
  else if operator = "less_than" then
    match fieldNum u value, valueNum u expected with
    | some v, some e => v.lt e
    | _, _ => false
  else if operator = "contains" then
    match value, expected with
    | .text s, .str t => t.toList <:+: s.toList
    | _, _ => false
  else if operator = "starts_with" then
    match value, expected with
    | .text s, .str t => startsWith t s
    | .text s, e => startsWith (py.str e) s
    | _, _ => false
  else false

/-- `DeclarativeRule` -/
def rule (u : Unicode) (py : PythonText) (config : RuleConfig) : Rule where
  ruleId := config.ruleId
  severity := config.severity
  evaluate tx :=
    let resolved := resolveField tx config.field
    if holds u py resolved config.operator config.value then
      [{ ruleId := config.ruleId, rulesetVersion := config.rulesetVersion
         severity := config.severity, target := config.field
         message := (or config.message
           (some ("Rule " ++ config.ruleId ++ " triggered"))).getD ""
         evidence := ["field='" ++ config.field ++ "' value=" ++ py.repr resolved] }]
    else []

end RuleConfig

/-- `build_declarative_rules`: one rule for each configuration. -/
def buildDeclarativeRules (u : Unicode) (py : PythonText) (configs : List RuleConfig) :
    RuleEngine :=
  configs.map (RuleConfig.rule u py)

/-- `CompositeRuleEngine`: the baseline, then the rules of the organization and of the profile. -/
def compositeRuleEngine (baseline orgRules profileRules : RuleEngine) : RuleEngine :=
  baseline ++ orgRules ++ profileRules

/-- `build_profile_rules` -/
def buildProfileRules (u : Unicode) (py : PythonText) (rules : List RuleConfig) : RuleEngine :=
  compositeRuleEngine buildAddressRuleset (buildDeclarativeRules u py rules) []

theorem buildProfileRules_eq (u : Unicode) (py : PythonText) (rules : List RuleConfig) :
    buildProfileRules u py rules = addressRuleset ++ buildDeclarativeRules u py rules :=
  List.append_nil _

end PaymentOps
