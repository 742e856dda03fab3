import PaymentOps.Address.Swift

/-!
# The fallback of the address service

`Fallback.analyze` puts the result of `CloudNova.analyze` in the place of one that is not available.
The providers keep their state from call to call, so the promise that no failure of the service gets
through is one about runs: `run_promise_iff`.
-/

namespace PaymentOps.Address.Fallback

open Swift

variable {F : Type} (u : Unicode) (isUpper : Char → Bool) (ops : ReplyOps F) (config : Config)

/-- The state of both providers. -/
structure State where
  circuit : Circuit := {}
  fallbacks : ℕ := 0

/-- One call: the state before it, what the primary provider answers and what is returned. -/
structure Step (F : Type) where
  before : State
  call : Call F
  primary : Answer
  result : Except CallError AddressAnalysis
  after : State

/-- `replace(fallback_result, fallback=True, ...)` -/
def marked (a : AddressAnalysis) : AddressAnalysis :=
  { a with
    fallback := true
    note := some "ADDRESS_PROVIDER_FALLBACK"
    evidence := a.evidence ++ ["primary provider unavailable; CloudNova fallback"] }

/-- What is returned for the result of the primary provider, and how many fallbacks there were. -/
def resolve (fallbacks : ℕ) (address : PostalAddress) :
    Except CallError AddressAnalysis → Except CallError AddressAnalysis × ℕ
  | .error e => (.error e, fallbacks)
  | .ok a =>
    if a.available then (.ok a, fallbacks)
    else (.ok (marked (CloudNova.analyze u isUpper address)), fallbacks + 1)

/-- `FallbackAddressProvider.analyze` -/
def analyze (state : State) (call : Call F) : Step F :=
  let primary := Swift.analyze ops config state.circuit call
  let resolved := resolve u isUpper state.fallbacks call.address primary.result
  { before := state
    call := call
    primary := primary
    result := resolved.1
    after := { circuit := primary.circuit, fallbacks := resolved.2 } }

/-- The calls one after the other; one that raises does not end the run. -/
def run : State → List (Call F) → List (Step F)
  | _, [] => []
  | state, call :: calls =>
    let step := analyze u isUpper ops config state call
    step :: run step.after calls

/-- The data that a fallback takes over. -/
def SameData (a b : AddressAnalysis) : Prop :=
  a.countryCode = b.countryCode ∧ a.countryName = b.countryName ∧ a.townName = b.townName ∧
    a.normalizedFields = b.normalizedFields ∧ a.readiness = b.readiness

/-- No failure of the service gets through: both providers return, the primary one after a bounded
number of requests, and without a usable reply it is not available and its place is taken. -/
structure Promise (step : Step F) : Prop where
  requests : step.primary.sent.length ≤ config.maxRetries + 1
  primary : ∃ a, step.primary.result = .ok a ∧
    (¬ Received step.call step.primary → a.available = false)
  returned : ∃ a, step.result = .ok a ∧
    (¬ Received step.call step.primary →
      SameData a (CloudNova.analyze u isUpper step.call.address) ∧ a.fallback = true)

section

variable {u isUpper ops config}

theorem promise_analyze_iff (state : State) (call : Call F) :
    Promise u isUpper config (analyze u isUpper ops config state call) ↔
      Clean config state.circuit call := by
  obtain ⟨hrequests, hclean, hraises⟩ := analyze_cases ops config state.circuit call
  by_cases h : Clean config state.circuit call
  · obtain ⟨a, ha, havailable⟩ := hclean h
    have hresult : (analyze u isUpper ops config state call).result =
        (resolve u isUpper state.fallbacks call.address (.ok a)).1 := by
      rw [← ha]
      rfl
    refine iff_of_true ⟨hrequests, ⟨a, ha, havailable⟩, ?_⟩ h
    rw [hresult, resolve]
    split_ifs with hvailable
    · exact ⟨a, rfl, fun hnot => absurd hvailable (by simp [havailable hnot])⟩
    · exact ⟨_, rfl, fun _ => ⟨⟨rfl, rfl, rfl, rfl, rfl⟩, rfl⟩⟩
  · obtain ⟨e, he⟩ := hraises h
    have hresult : (analyze u isUpper ops config state call).result =
        (resolve u isUpper state.fallbacks call.address (.error e)).1 := by
      rw [← he]
      rfl
    refine iff_of_false (fun hpromise => ?_) h
    obtain ⟨a, ha, -⟩ := hpromise.returned
    rw [hresult] at ha
    cases ha

theorem mem_run {state : State} {calls : List (Call F)} {step : Step F}
    (h : step ∈ run u isUpper ops config state calls) :
    step = analyze u isUpper ops config step.before step.call := by
  induction calls generalizing state with
  | nil => cases h
  | cons call calls ih =>
    rcases List.mem_cons.mp h with rfl | h
    · rfl
    · exact ih h

end

/-- In every run of the providers, over every sequence of addresses and of outcomes, exactly the
clean calls keep the promise. -/
theorem run_promise_iff {F : Type} (u : Unicode) (isUpper : Char → Bool) (ops : ReplyOps F)
    (config : Config) (state : State) (calls : List (Call F)) :
    ∀ step ∈ run u isUpper ops config state calls,
      (Promise u isUpper config step ↔ Clean config step.before.circuit step.call) := by
  intro step hstep
  have heq := mem_run hstep
  have hbefore : Promise u isUpper config (analyze u isUpper ops config step.before step.call) ↔
      Clean config step.before.circuit step.call := promise_analyze_iff step.before step.call
  rwa [← heq] at hbefore

/-- A service with one retry. -/
def service : Config where
  endpointUrl := "http://structuring:8000/"

/-- No float is compared with anything. -/
def noFloats : ReplyOps Empty where
  python := .noFloats
  atLeast := nofun

/-- An address with a country name, and the same outcome for every request. -/
def italianCall (outcome : Outcome Empty) : Call Empty where
  address := { country := some "Italy", townName := some "Milano" }
  now := 1
  later := 2
  outcome := fun _ => outcome

/-- A success whose body is no JSON gets through. -/
theorem run_promise_broken : ∃ step ∈ run .ascii Char.isUpper noFloats service {}
    [italianCall (.response 200 (.refused .notJson))],
      ¬ Promise .ascii Char.isUpper service step := by
  refine ⟨_, List.mem_cons_self, fun hpromise => ?_⟩
  obtain ⟨a, ha, -⟩ := hpromise.returned
  cases ha

theorem run_promise_iff_timeout :
    Promise .ascii Char.isUpper service
        (analyze .ascii Char.isUpper noFloats service {} (italianCall .timeout)) ↔
      Clean service {} (italianCall .timeout) :=
  run_promise_iff .ascii Char.isUpper noFloats service {} [italianCall .timeout] _
    List.mem_cons_self

end PaymentOps.Address.Fallback
