import PaymentOps.Address.CloudNova
import PaymentOps.Mapping.JsonSource

/-!
# The remote address service

`Swift.analyze` asks the service about an address: it retries when a request is lost, and opens a
circuit after too many failures in a row.

* `post_cases`: what the retries come to;
* `analyze_cases`: an analysis raises exactly when a response arrives that cannot be used.
-/

namespace PaymentOps.Address

open Mapping Text

/-- Why `response.json()` raises. -/
inductive JsonFailure where
  /-- `JSONDecodeError` -/
  | notJson
  /-- `UnicodeDecodeError` -/
  | charset
  /-- `ValueError`: an integer of more than 4300 digits -/
  | digits
  /-- `RecursionError`: lists or objects that are nested too deeply -/
  | depth
  deriving DecidableEq, Repr

/-- The body of a response, as far as it can be read. -/
inductive Body (F : Type) where
  /-- the content encoding is broken -/
  | undecodable
  /-- the content is there, but `response.json()` raises -/
  | refused (why : JsonFailure)
  | json (v : JsonValue F)

/-- What a request to the service comes to. -/
inductive Outcome (F : Type) where
  | timeout
  | transportError
  | response (status : ℕ) (body : Body F)

/-- What a request, or the use of its response, raises. -/
inductive CallError where
  | timeout
  | transport
  | status (code : ℕ)
  | decoding
  | json (why : JsonFailure)
  | attribute
  deriving DecidableEq, Repr

/-- `except (httpx.TimeoutException, httpx.TransportError)` -/
def CallError.retried : CallError → Bool
  | timeout => true
  | transport => true
  | _ => false

/-- `except (httpx.TimeoutException, httpx.TransportError, httpx.HTTPStatusError)` -/
def CallError.caught : CallError → Bool
  | timeout => true
  | transport => true
  | status _ => true
  | _ => false

variable {F : Type}

/-- `client.post`, `raise_for_status` and `json` -/
def Outcome.result : Outcome F → Except CallError (JsonValue F)
  | timeout => .error .timeout
  | transportError => .error .transport
  | response _ .undecodable => .error .decoding
  | response status (.refused why) =>
    if 200 ≤ status ∧ status ≤ 299 then .error (.json why) else .error (.status status)
  | response status (.json v) =>
    if 200 ≤ status ∧ status ≤ 299 then .ok v else .error (.status status)

namespace Swift

/-- The arguments of the provider. -/
structure Config where
  endpointUrl : String
  maxRetries : ℕ := 1
  circuitThreshold : ℤ := 3
  cooldown : ℚ := 30

/-- The failures in a row, and the time until which no request is made. -/
structure Circuit where
  failures : ℕ := 0
  openUntil : ℚ := 0

/-- What the service is asked. -/
structure Payload where
  text : String
  suggestedCountry : Option String
  force : Bool
  deriving DecidableEq, Repr

/-- An analysis: its address, the clock before and after the requests, and what each request comes
to. -/
structure Call (F : Type) where
  address : PostalAddress
  now : ℚ
  later : ℚ
  outcome : ℕ → Outcome F

/-- What an analysis comes to: its result, the requests and the circuit afterwards. -/
structure Answer where
  result : Except CallError AddressAnalysis
  sent : List Payload
  circuit : Circuit

/-- Values of a reply. -/
structure ReplyOps (F : Type) where
  python : PythonOps F
  /-- `f >= x` -/
  atLeast : F → ℚ → Bool

/-- An endpoint is set; slashes at its end do not count. -/
def Config.configured (config : Config) : Bool := rstripChars ['/'] config.endpointUrl ≠ ""

/-- The circuit refuses requests until its time is over. -/
def Circuit.isOpen (circuit : Circuit) (now : ℚ) : Bool := now < circuit.openUntil

/-- One more failure, which opens the circuit when it is the last that is allowed. -/
def recordFailure (config : Config) (circuit : Circuit) (later : ℚ) : Circuit :=
  if config.circuitThreshold ≤ circuit.failures + 1 then
    { failures := 0, openUntil := later + config.cooldown }
  else { circuit with failures := circuit.failures + 1 }

/-- A success forgets the failures. -/
def recordSuccess (circuit : Circuit) : Circuit := { circuit with failures := 0 }

/-- The analysis that stands for a provider that gave none. -/
def unavailable (reason : String) : AddressAnalysis where
  provider := "swift_derived"
  providerVersion := "0.1.0"
  available := false
  note := some "ADDRESS_PROVIDER_FALLBACK"
  evidence := [reason]

/-- The lines of an address, or one line of its fields. -/
def addressLines (address : PostalAddress) : List String :=
  if address.addressLines = [] then
    let parts := ([address.streetName, address.buildingNumber, address.postcode, address.townName,
      address.country].filter truthy).map (·.getD "")
    if parts = [] then [] else [join " " parts]
  else address.addressLines

/-- The suggested country, and whether it is forced. -/
def suggestion (address : PostalAddress) : Option String × Bool :=
  if truthy address.country then
    (address.country, isValidCountryCode (address.country.getD ""))
  else (none, false)

/-- What is posted of an address. -/
def payload (address : PostalAddress) : Payload where
  text := join "\n" (addressLines address)
  suggestedCountry := (suggestion address).1
  force := (suggestion address).2

/-- `_post`, with `n` attempts left: what the last of them comes to, and the requests. -/
def post (payload : Payload) (outcome : ℕ → Outcome F) :
    ℕ → ℕ → CallError → Except CallError (JsonValue F) × List Payload
  | 0, _, last => (.error last, [])
  | n + 1, attempt, _ =>
    match (outcome attempt).result with
    | .ok v => (.ok v, [payload])
    | .error e =>
      if e.retried then
        let rest := post payload outcome n (attempt + 1) e
        (rest.1, payload :: rest.2)
      else (.error e, [payload])

/-! ## Replies -/

section

variable (ops : ReplyOps F)

/-- `bool(v)` -/
def isTrue : JsonValue F → Bool
  | .null => false
  | .bool b => b
  | .int n => n ≠ 0
  | .float f => ops.python.value f ≠ .finite 0
  | .str s => s ≠ ""
  | .list items => ! items.isEmpty
  | .dict members => ! members.isEmpty

/-- `result.get(key)` -/
def field (members : List (String × JsonValue F)) (key : String) : JsonValue F :=
  (Dict.get members key).getD .null

/-- `isinstance(value, float)`. -/
def isFloat : JsonValue F → Bool
  | .float _ => true
  | _ => false

/-- `isinstance(v, float) and v >= x` -/
def floatAtLeast (v : JsonValue F) (x : ℚ) : Bool :=
  match v with
  | .float f => ops.atLeast f x
  | _ => false

/-- `str(v) if v else None` -/
def textOrNone (v : JsonValue F) : Option String :=
  if isTrue ops v then some ((MappedValue.json v).str ops.python) else none

/-- `_classify` of the answer's town, country and confidences. -/
def classify (town country countryConf townConf : JsonValue F) : AddressReadiness :=
  if isTrue ops country && isTrue ops town && floatAtLeast ops countryConf (15 / 100) &&
      floatAtLeast ops townConf (15 / 100) then .ready
  else if isTrue ops country || isTrue ops town then .reviewRequired
  else .unresolved

/-- The evidence level of the two confidences. -/
def level (countryConf townConf : JsonValue F) : EvidenceLevel :=
  if floatAtLeast ops countryConf (1 / 2) && floatAtLeast ops townConf (1 / 2) then .high
  else if isFloat countryConf || isFloat townConf then .medium
  else .low

/-- `_build_analysis`: only a dictionary has `get`. -/
def buildAnalysis : JsonValue F → Except CallError AddressAnalysis
  | .dict members =>
    let country := textOrNone ops (field members "country")
    let town := textOrNone ops (field members "town")
    let countryConf := field members "country_confidence"
    let townConf := field members "town_confidence"
    .ok {
      provider := "swift_derived"
      providerVersion := "0.1.0"
      countryCode := country
      townName := town
      normalizedFields := (country.map ("country", ·)).toList ++ (town.map ("town_name", ·)).toList
      readiness := classify ops (field members "town") (field members "country") countryConf
        townConf
      evidenceLevel := level ops countryConf townConf
      note := some "upstream engine"
      evidence := ["upstream town/country inference", "upstream commit 916deca20a2f"] }
  | _ => .error .attribute

/-- `SwiftDerivedAddressProvider.analyze` -/
def analyze (config : Config) (circuit : Circuit) (call : Call F) : Answer :=
  if ! config.configured || circuit.isOpen call.now then
    ⟨.ok (unavailable "not configured or circuit open"), [], circuit⟩
  else if addressLines call.address = [] then
    ⟨.ok (unavailable "no address lines to structure"), [], circuit⟩
  else
    let (reply, sent) :=
      post (payload call.address) call.outcome (config.maxRetries + 1) 0 .transport
    match reply with
    | .ok v => ⟨buildAnalysis ops v, sent, recordSuccess circuit⟩
    | .error e =>
      if e.caught then
        ⟨.ok (unavailable "provider call failed or timed out"), sent,
          recordFailure config circuit call.later⟩
      else ⟨.error e, sent, circuit⟩

end

/-! ## Outcomes -/

end Swift

namespace Outcome

/-- No response arrives. -/
def Lost : Outcome F → Prop
  | timeout => True
  | transportError => True
  | response _ _ => False

/-- A success that carries a dictionary. -/
def Usable : Outcome F → Prop
  | response status (.json (.dict _)) => 200 ≤ status ∧ status ≤ 299
  | _ => False

/-- A response that cannot be used and is no HTTP error: its body cannot be decoded, or the status
is a success and `response.json()` raises or gives no dictionary. -/
def Unusable : Outcome F → Prop
  | response _ .undecodable => True
  | response status (.refused _) => 200 ≤ status ∧ status ≤ 299
  | response _ (.json (.dict _)) => False
  | response status (.json _) => 200 ≤ status ∧ status ≤ 299
  | _ => False

theorem lost_iff (o : Outcome F) : o.Lost ↔ ∃ e, o.result = .error e ∧ e.retried := by
  cases o with
  | timeout => simp [Lost, result, CallError.retried]
  | transportError => simp [Lost, result, CallError.retried]
  | response status body =>
    cases body with
    | undecodable => simp [Lost, result, CallError.retried]
    | refused why =>
      by_cases h : 200 ≤ status ∧ status ≤ 299 <;> simp [Lost, result, h, CallError.retried]
    | json v =>
      by_cases h : 200 ≤ status ∧ status ≤ 299 <;> simp [Lost, result, h, CallError.retried]

theorem Lost.not_unusable {o : Outcome F} (h : o.Lost) : ¬ o.Unusable := by
  cases o with
  | response status body => exact absurd h id
  | _ => exact id

theorem Usable.not_unusable {o : Outcome F} (h : o.Usable) : ¬ o.Unusable := by
  unfold Usable at h
  split at h
  · exact id
  · exact absurd h id

/-- Only the first response that arrives matters. -/
theorem forall_not_unusable_iff {outcome : ℕ → Outcome F} {n j : ℕ} (hj : j ≤ n)
    (hlost : ∀ i < j, (outcome i).Lost) (harrives : ¬ (outcome j).Lost) :
    (∀ k ≤ n, (∀ i < k, (outcome i).Lost) → ¬ (outcome k).Unusable) ↔
      ¬ (outcome j).Unusable := by
  constructor
  · intro h
    exact h j hj hlost
  · intro h k _ hprevious
    rcases Nat.lt_trichotomy k j with hlt | rfl | hlt
    · exact (hlost k hlt).not_unusable
    · exact h
    · exact absurd (hprevious j hlt) harrives

end Outcome

namespace Swift

/-- What the attempts come to: all requests are lost, or the first that is not decides. -/
theorem post_cases (payload : Payload) (outcome : ℕ → Outcome F) (n k : ℕ) {last : CallError}
    (hlast : last.retried) :
    ((∀ j < n, (outcome (k + j)).Lost) ∧
      (∃ e, (post payload outcome n k last).1 = .error e ∧ e.retried) ∧
      (post payload outcome n k last).2.length = n) ∨
    ∃ j < n, (∀ i < j, (outcome (k + i)).Lost) ∧ ¬ (outcome (k + j)).Lost ∧
      (post payload outcome n k last).1 = (outcome (k + j)).result ∧
      (post payload outcome n k last).2.length = j + 1 := by
  induction n generalizing k last with
  | zero => exact .inl ⟨nofun, ⟨last, rfl, hlast⟩, rfl⟩
  | succ n ih =>
    by_cases hlost : (outcome k).Lost
    · obtain ⟨e, he, hretried⟩ := (Outcome.lost_iff _).mp hlost
      have hpost : post payload outcome (n + 1) k last =
          ((post payload outcome n (k + 1) e).1,
            payload :: (post payload outcome n (k + 1) e).2) := by
        simp only [post, he, hretried, if_true]
      have hshift : ∀ i, k + 1 + i = k + (i + 1) := by
        intro i
        omega
      rw [hpost]
      have hfirst : ∀ m, (∀ i < m, (outcome (k + 1 + i)).Lost) →
          ∀ i < m + 1, (outcome (k + i)).Lost := by
        intro m hm i hi
        cases i with
        | zero => exact hlost
        | succ i => exact hshift i ▸ hm i (Nat.lt_of_succ_lt_succ hi)
      rcases ih (k + 1) hretried with ⟨hall, hresult, hlen⟩ | ⟨j, hj, hall, hnot, hresult, hlen⟩
      · exact .inl ⟨hfirst n hall, hresult, congrArg (· + 1) hlen⟩
      · rw [hshift j] at hnot hresult
        exact .inr ⟨j + 1, Nat.succ_lt_succ hj, hfirst j hall, hnot, hresult,
          congrArg (· + 1) hlen⟩
    · have hpost : post payload outcome (n + 1) k last = ((outcome k).result, [payload]) := by
        unfold post
        cases hresult : (outcome k).result with
        | ok v => rfl
        | error e =>
          have hretried : ¬ e.retried := fun h => hlost ((Outcome.lost_iff _).mpr ⟨e, hresult, h⟩)
          simp [hretried]
      refine .inr ⟨0, Nat.succ_pos n, nofun, hlost, ?_, ?_⟩
      · rw [hpost]
        rfl
      · rw [hpost]
        rfl

/-! ## Analyses -/

section

variable (ops : ReplyOps F) (config : Config) (circuit : Circuit) (call : Call F)

/-- No request is made, or the first response that arrives is not one that cannot be used. -/
def Clean : Prop :=
  config.configured = false ∨ circuit.isOpen call.now ∨ addressLines call.address = [] ∨
    ∀ j ≤ config.maxRetries, (∀ i < j, (call.outcome i).Lost) → ¬ (call.outcome j).Unusable

/-- A usable reply is received. -/
def Received (answer : Answer) : Prop :=
  ∃ j < answer.sent.length, (call.outcome j).Usable

/-- The result of one reply. -/
theorem result_cases {o : Outcome F} (h : ¬ o.Lost) :
    (∃ members, o.result = .ok (.dict members) ∧ o.Usable) ∨
      (∃ code, o.result = .error (.status code) ∧ ¬ o.Unusable) ∨
      (o.Unusable ∧ ((∃ v, o.result = .ok v ∧ ∃ e, buildAnalysis ops v = .error e) ∨
        ∃ e, o.result = .error e ∧ e.caught = false)) := by
  cases o with
  | timeout => exact absurd trivial h
  | transportError => exact absurd trivial h
  | response status body =>
    cases body with
    | undecodable => exact .inr (.inr ⟨trivial, .inr ⟨_, rfl, rfl⟩⟩)
    | refused why =>
      by_cases hstatus : 200 ≤ status ∧ status ≤ 299
      · exact .inr (.inr ⟨hstatus, .inr ⟨_, if_pos hstatus, rfl⟩⟩)
      · exact .inr (.inl ⟨status, if_neg hstatus, hstatus⟩)
    | json v =>
      by_cases hstatus : 200 ≤ status ∧ status ≤ 299
      · have hresult : (Outcome.response status (.json v)).result = .ok v := if_pos hstatus
        cases v with
        | dict members => exact .inl ⟨members, hresult, hstatus⟩
        | _ => exact .inr (.inr ⟨hstatus, .inl ⟨_, hresult, _, rfl⟩⟩)
      · refine .inr (.inl ⟨status, if_neg hstatus, ?_⟩)
        cases v with
        | dict members => exact id
        | _ => exact hstatus

/-- An analysis makes a bounded number of requests, and raises exactly when it is not clean; without
a usable reply its result is not available. -/
theorem analyze_cases :
    (analyze ops config circuit call).sent.length ≤ config.maxRetries + 1 ∧
      (Clean config circuit call → ∃ a, (analyze ops config circuit call).result = .ok a ∧
        (¬ Received call (analyze ops config circuit call) → a.available = false)) ∧
      (¬ Clean config circuit call →
        ∃ e, (analyze ops config circuit call).result = .error e) := by
  unfold analyze
  split_ifs with hguard hlines
  · have hclean : Clean config circuit call := by
      rcases Bool.or_eq_true_iff.mp hguard with h | h
      · exact .inl (by simpa using h)
      · exact .inr (.inl h)
    exact ⟨Nat.zero_le _, fun _ => ⟨_, rfl, fun _ => rfl⟩, fun h => absurd hclean h⟩
  · exact ⟨Nat.zero_le _, fun _ => ⟨_, rfl, fun _ => rfl⟩,
      fun h => absurd (.inr (.inr (.inl hlines))) h⟩
  · have hclean : Clean config circuit call ↔
        ∀ j ≤ config.maxRetries, (∀ i < j, (call.outcome i).Lost) →
          ¬ (call.outcome j).Unusable := by
      simp only [Clean, hlines, false_or]
      simp only [Bool.or_eq_true, not_or, Bool.not_eq_true'] at hguard
      simp [hguard]
    have hretried : CallError.transport.retried := rfl
    have hposted := post_cases (payload call.address) call.outcome (config.maxRetries + 1) 0
      hretried
    simp only [Nat.zero_add] at hposted
    rw [hclean]
    rcases hreply : post (payload call.address) call.outcome (config.maxRetries + 1) 0 .transport
      with ⟨reply, sent⟩
    rw [hreply] at hposted
    rcases hposted with ⟨hall, ⟨e, rfl, hretried⟩, hlen⟩ | ⟨j, hj, hall, hnot, rfl, hlen⟩
    · -- every request is lost
      have hcaught : e.caught := by
        cases e <;> first | rfl | cases hretried
      dsimp only
      rw [if_pos hcaught]
      exact ⟨hlen.le, fun _ => ⟨_, rfl, fun _ => rfl⟩,
        fun h => absurd (fun k hk _ => (hall k (by omega)).not_unusable) h⟩
    · rw [Outcome.forall_not_unusable_iff (Nat.le_of_lt_succ hj) hall hnot]
      have hbound : sent.length ≤ config.maxRetries + 1 := hlen.le.trans hj
      rcases result_cases ops hnot with
        ⟨members, hresult, husable⟩ | ⟨code, hresult, hunusable⟩ | ⟨hunusable, hraises⟩
      · rw [hresult]
        refine ⟨hbound, fun _ => ⟨_, rfl, fun h => absurd ⟨j, ?_, husable⟩ h⟩,
          fun h => absurd husable.not_unusable h⟩
        exact hlen.ge
      · rw [hresult]
        exact ⟨hbound, fun _ => ⟨_, rfl, fun _ => rfl⟩, fun h => absurd hunusable h⟩
      · rcases hraises with ⟨v, hresult, e, hbuild⟩ | ⟨e, hresult, hcaught⟩
        · rw [hresult]
          exact ⟨hbound, fun h => absurd hunusable h, fun _ => ⟨e, hbuild⟩⟩
        · rw [hresult]
          dsimp only
          rw [if_neg (by simp [hcaught])]
          exact ⟨hbound, fun h => absurd hunusable h, fun _ => ⟨e, rfl⟩⟩

end

end Swift

end PaymentOps.Address
