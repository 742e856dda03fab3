import PaymentOps.Lib.CsvWriter
import PaymentOps.Matching.Service
import PaymentOps.Service.Integrity

/-!
# Exports

The two reports that are downloaded as CSV.  A text that a spreadsheet would take for a formula gets
an apostrophe in front of it.

* `accountReconciliationReport` has one record for each of the last reconciliations of an
  organization, `reconciliationReport` one for each candidate of a run;
* `not_formula_safeCsv`: no text of a report starts as a formula does;
* `accountReport_spec`: after every run the report of the reconciliations is read back as it was
  written, and each record has the entry that the reconciliation is about.
-/

namespace PaymentOps.Exports

open AccountService

variable {D : Type}

/-- A spreadsheet takes the text for a formula. -/
def isFormula (s : String) : Bool := ["=", "+", "-", "@"].any fun t => Text.startsWith t s

/-- `_safe_csv` -/
def safeCsv (value : Option String) : String :=
  let s := value.getD ""
  if isFormula s then "'" ++ s else s

/-- How the keys and the scores of rows are written. -/
structure Texts where
  key : ℕ → String
  score : ℚ → String

/-- A guarded text is no formula. -/
theorem not_formula_safeCsv (value : Option String) : isFormula (safeCsv value) = false := by
  unfold safeCsv
  dsimp only
  split_ifs with h
  · have hhead : ("'" ++ value.getD "").toList = '\'' :: (value.getD "").toList := by
      rw [String.toList_append]
      rfl
    simp only [isFormula, Text.startsWith, hhead]
    rfl
  · simpa using h

/-! ## The reconciliations of entries -/

/-- The columns of the account report. -/
def accountHeader : List String :=
  ["lifecycle_reference", "account_entry_reference", "amount", "currency", "credit_debit",
    "classification", "match_score", "critical_conflict", "review_required"]

/-- The cells that are guarded, and the two numbers as they are. -/
def accountCells (texts : Texts) (row : AccountReconciliationRow)
    (entry : Option AccountEntryRow) : List String := [
  safeCsv (some ((row.lifecycleId.map texts.key).getD "")),
  safeCsv (entry.bind (·.entryReference)),
  ((entry.bind (·.amountMinor)).map toString).getD "",
  safeCsv (entry.bind (·.currency)),
  safeCsv ((entry.bind (·.creditDebit)).map (·.value)),
  safeCsv (some row.classification.value),
  texts.score row.matchScore,
  safeCsv (some (",".intercalate row.conflicts)),
  safeCsv (some row.status)]

section

variable (order : RowOrder (Store D) Store.accountReconciliations)

/-- `list_account_reconciliations`, with its default limit. -/
def listAccountReconciliations (org : String) (s : Store D) : List AccountReconciliationRow :=
  ((order.select s (·.organizationId == org)).take 200).map (·.2)

/-- `_entry_by_id` -/
def entryById (org : String) (entryId : ℕ) (s : Store D) : Option AccountEntryRow :=
  s.accountEntries[entryId]?.filter (·.organizationId == org)

/-- The account report, in the order of the database. -/
def accountReconciliationReport (texts : Texts) (org : String) (s : Store D) : List Char :=
  Csv.write Csv.excel (accountHeader :: (listAccountReconciliations order org s).map fun row =>
    accountCells texts row (entryById org row.accountEntryId s))

end

/-- The positions of the two numbers. -/
theorem not_formula_accountCells (texts : Texts) (row : AccountReconciliationRow)
    (entry : Option AccountEntryRow) {i : ℕ} {cell : String}
    (hcell : (accountCells texts row entry)[i]? = some cell) (hamount : i ≠ 2) (hscore : i ≠ 6) :
    isFormula cell = false := by
  unfold accountCells at hcell
  match i with
  | 0 | 1 | 3 | 4 | 5 | 7 | 8 =>
    obtain rfl := Option.some.inj hcell
    exact not_formula_safeCsv _
  | 2 => exact absurd rfl hamount
  | 6 => exact absurd rfl hscore
  | n + 9 => cases hcell

section

variable {order : RowOrder (Store D) Store.accountReconciliations} {texts : Texts} {org : String}
  {s : Store D}

theorem mem_listAccountReconciliations {row : AccountReconciliationRow}
    (h : row ∈ listAccountReconciliations order org s) :
    row ∈ s.accountReconciliations ∧ row.organizationId = org := by
  obtain ⟨r, hr, rfl⟩ := List.mem_map.mp h
  obtain ⟨hrow, horg⟩ := RowOrder.mem_select.mp (List.mem_of_mem_take hr)
  exact ⟨List.mem_of_getElem? hrow, by simpa using horg⟩

theorem length_listAccountReconciliations :
    (listAccountReconciliations order org s).length =
      min 200 (s.accountReconciliations.countP (·.organizationId == org)) := by
  rw [listAccountReconciliations, List.length_map, List.length_take, order.select_length]

/-- No reconciliation is listed twice. -/
theorem nodup_listAccountReconciliations
    (h : (s.accountReconciliations.map (·.accountEntryId)).Nodup) :
    (listAccountReconciliations order org s).Nodup := by
  have hselected : ((order.select s (·.organizationId == org)).map (·.2)).Nodup :=
    (order.select_perm s _).nodup_iff.mpr (h.of_map.filter _)
  rw [listAccountReconciliations, List.map_take]
  exact hselected.sublist (List.take_sublist _ _)

/-- The entry of a reconciliation is found. -/
theorem entryById_of_consistent {ids : LifecycleIds} (h : s.Consistent ids)
    {row : AccountReconciliationRow} (hrow : row ∈ s.accountReconciliations)
    (horg : row.organizationId = org) : ∃ e, entryById org row.accountEntryId s = some e ∧
      s.accountEntries[row.accountEntryId]? = some e ∧ Settles row e := by
  obtain ⟨e, he, hsettles⟩ := h.reconciliations row hrow
  refine ⟨e, ?_, he, hsettles⟩
  rw [entryById, he]
  simp [hsettles.organization, horg]

/-- What each element of a list has can be listed beside it. -/
theorem exists_pairs {α β : Type} {P : α → β → Prop} {l : List α} (h : ∀ a ∈ l, ∃ b, P a b) :
    ∃ rows : List (α × β), rows.map Prod.fst = l ∧ ∀ p ∈ rows, P p.1 p.2 := by
  induction l with
  | nil => exact ⟨[], rfl, fun p hp => absurd hp List.not_mem_nil⟩
  | cons a l ih =>
    obtain ⟨b, hb⟩ := h a List.mem_cons_self
    obtain ⟨rows, hrows, hall⟩ := ih fun a' ha' => h a' (List.mem_cons_of_mem _ ha')
    refine ⟨(a, b) :: rows, by rw [List.map_cons, hrows], fun p hp => ?_⟩
    rcases List.mem_cons.mp hp with rfl | hp
    · exact hb
    · exact hall p hp

end

theorem accountHeader_length :
    ∀ name ∈ accountHeader, name.toList.length ≤ Csv.excel.fieldLimit := by
  decide

/-- After every run of operations, wherever they are cut off, the report is read back as it was
written unless a cell is longer than the reader allows; it has the last two hundred reconciliations
of the organization, each once, with the entry that it is about, and no text of it is a formula. -/
theorem accountReport_spec [DecidableEq D] (env : Env D) (ids : LifecycleIds)
    (calls : List (Operation × ℕ)) (order : RowOrder (Store D) Store.accountReconciliations)
    (texts : Texts) (org : String) :
    let s := Session.cutRun (perform env ids) calls ({} : Store D)
    ∃ rows : List (AccountReconciliationRow × AccountEntryRow),
      (rows.map Prod.fst).Nodup ∧
      rows.length = min 200 (s.accountReconciliations.countP (·.organizationId == org)) ∧
      (∀ p ∈ rows, p.1 ∈ s.accountReconciliations ∧ p.1.organizationId = org ∧
        s.accountEntries[p.1.accountEntryId]? = some p.2 ∧ Settles p.1 p.2 ∧
        ∀ i cell, (accountCells texts p.1 (some p.2))[i]? = some cell → i ≠ 2 → i ≠ 6 →
          isFormula cell = false) ∧
      (Csv.records Csv.excel {} (Csv.lines (accountReconciliationReport order texts org s)) =
          .ok (accountHeader :: rows.map fun p => accountCells texts p.1 (some p.2)) ↔
        ∀ p ∈ rows, ∀ cell ∈ accountCells texts p.1 (some p.2),
          cell.toList.length ≤ Csv.excel.fieldLimit) := by
  intro s
  have hconsistent : s.Consistent ids := Session.cutRun_of_keeps
    (fun op => Store.Consistent.perform env op) calls Store.Consistent.empty
  obtain ⟨rows, hrows, hall⟩ := exists_pairs (l := listAccountReconciliations order org s)
    fun row hrow =>
      let ⟨hmem, horg⟩ := mem_listAccountReconciliations hrow
      entryById_of_consistent hconsistent hmem horg
  have hlisted : ∀ p ∈ rows, p.1 ∈ listAccountReconciliations order org s :=
    fun p hp => hrows ▸ List.mem_map_of_mem hp
  have hcells : (listAccountReconciliations order org s).map
      (fun row => accountCells texts row (entryById org row.accountEntryId s)) =
        rows.map fun p => accountCells texts p.1 (some p.2) := by
    rw [← hrows, List.map_map]
    apply List.map_congr_left
    intro p hp
    rw [Function.comp_apply, (hall p hp).1]
  refine ⟨rows, ?_, ?_, fun p hp => ?_, ?_⟩
  · rw [hrows]
    exact nodup_listAccountReconciliations hconsistent.single
  · have hlength : (listAccountReconciliations order org s).length =
        min 200 (s.accountReconciliations.countP (·.organizationId == org)) :=
      length_listAccountReconciliations
    rw [← hlength, ← hrows, List.length_map]
  · obtain ⟨hmem, horg⟩ := mem_listAccountReconciliations (hlisted p hp)
    exact ⟨hmem, horg, (hall p hp).2.1, (hall p hp).2.2,
      fun i cell hcell => not_formula_accountCells texts p.1 (some p.2) hcell⟩
  · rw [accountReconciliationReport, hcells, Csv.records_write_iff, List.forall_mem_cons,
      and_iff_right accountHeader_length, List.forall_mem_map]

/-! ## The candidates of a run -/

/-- The columns of the report of a run. -/
def matchHeader : List String :=
  ["source_reference", "candidate_reference", "classification", "match_score",
    "critical_conflict", "review_required"]

/-- The cells that are guarded, and the score as it is. -/
def matchCells (texts : Texts) (c : Matching.MatchCandidate) : List String := [
  safeCsv (some c.sourceRecordId),
  safeCsv (some c.candidateRecordId),
  safeCsv (some c.classification.value),
  texts.score c.matchScore,
  safeCsv (some (",".intercalate (c.criticalConflicts.map (·.field.key)))),
  safeCsv (some c.status)]

section

open Matching

variable (order : RowOrder MatchingStore MatchingStore.candidates)

/-- `list_run_candidates` -/
def listRunCandidates (org : String) (runId : ℕ) (s : MatchingStore) : List MatchCandidate :=
  (order.select s fun c => c.runId == runId && c.organizationId == org).map (·.2)

/-- The report of a run, in the order of the database. -/
def reconciliationReport (texts : Texts) (org : String) (runId : ℕ) (s : MatchingStore) :
    List Char :=
  Csv.write Csv.excel (matchHeader :: (listRunCandidates order org runId s).map (matchCells texts))

/-- The report of a run is read back as it was written unless a cell is longer than the reader
allows, with one record for each candidate of the run. -/
theorem reconciliationReport_iff (texts : Texts) (org : String) (runId : ℕ) (s : MatchingStore) :
    ∃ rows : List MatchCandidate,
      rows.Perm (s.candidates.filter fun c => c.runId == runId && c.organizationId == org) ∧
      (Csv.records Csv.excel {} (Csv.lines (reconciliationReport order texts org runId s)) =
          .ok (matchHeader :: rows.map (matchCells texts)) ↔
        ∀ c ∈ rows, ∀ cell ∈ matchCells texts c, cell.toList.length ≤ Csv.excel.fieldLimit) := by
  have hheader : ∀ name ∈ matchHeader, name.toList.length ≤ Csv.excel.fieldLimit := by
    decide
  refine ⟨listRunCandidates order org runId s, order.select_perm s _, ?_⟩
  rw [reconciliationReport, Csv.records_write_iff, List.forall_mem_cons, and_iff_right hheader,
    List.forall_mem_map]

end

end PaymentOps.Exports
