import PaymentOps.Batch.Service
import PaymentOps.Repair.Generator

/-!
# The engine behind a CSV profile

`analyze_profile` maps a payload to a message and lets the pipeline analyze it.  A batch whose
engine this is analyzes a row as the direct path does, when the row is read back as it was
(`analyzeRow_eq_direct`).
-/

namespace PaymentOps.Batch

open Csv Mapping Profiles Repair

/-- What `analyze_profile` builds for a profile: its rules and its address provider. -/
structure CsvEngine (Value : Type) where
  unicode : Unicode
  ops : SourceOps (List Row) Row Value
  generator : IntegrationProfile → GeneratorEnv
  readiness : IntegrationProfile → PostalAddress → AddressReadiness
  clock : Instant

namespace CsvEngine

variable {Value : Type} (engine : CsvEngine Value)

/-- `analyze_message` of a mapped message, down to what a batch reads of it. -/
def analyzeMessage (profile : IntegrationProfile) (message : PaymentMessage) :
    Except RowError EngineResult := do
  let env := engine.generator profile
  let levels := message.transactions.flatMap fun tx =>
    (addresses tx).map fun a => engine.readiness profile a.2
  let _ ← (generateCandidate env message none engine.clock).mapError .service
  pure { levels := levels, ruleFindings := env.rules.evaluate message }

/-- `analyze_profile`: map the payload, then analyze the message. -/
def analyze (profile : IntegrationProfile) (payload : String) : Except RowError EngineResult := do
  let mapped ← mapInput engine.unicode engine.ops profile payload engine.clock
  engine.analyzeMessage profile mapped.message

/-- Batches of CSV profiles. -/
def batchEnv (profiles : ℕ → Option IntegrationProfileRow) : BatchEnv where
  profiles := profiles
  engine profile _ payload := engine.analyze profile payload

/-- A row that is read back as it was gets the analysis of an input that consists of it. -/
theorem analyzeRow_eq_direct {header cells : List String} (h : AgreesDirect header cells)
    (profiles : ℕ → Option IntegrationProfileRow) (profile : IntegrationProfile)
    (index : ℕ) {direct : String} (hdirect : dictReader excel direct = .ok [rowOf header cells]) :
    analyzeRow (engine.batchEnv profiles) profile (rowOf header cells, index) =
      analyzeProfile (engine.batchEnv profiles) profile index direct := by
  obtain ⟨text, htext, -⟩ := h.reparsed
  have hmapped := h.mapped engine.unicode engine.ops profile text direct engine.clock htext hdirect
  have hanalyze : engine.analyze profile text = engine.analyze profile direct := by
    rw [analyze, analyze, hmapped]
  calc analyzeRow (engine.batchEnv profiles) profile (rowOf header cells, index)
      = analyzeProfile (engine.batchEnv profiles) profile index text := by
        rw [analyzeRow, htext]
        rfl
    _ = analyzeProfile (engine.batchEnv profiles) profile index direct := by
        rw [analyzeProfile, analyzeProfile]
        exact congrArg _ hanalyze

end CsvEngine

end PaymentOps.Batch
