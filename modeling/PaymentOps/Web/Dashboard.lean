import Mathlib.Algebra.Order.BigOperators.Group.List
import PaymentOps.Account.Classification
import PaymentOps.Lib.Dict
import PaymentOps.Lib.Rounding
import PaymentOps.Service.Integrity
import PaymentOps.Service.Views

/-!
# The dashboard and the pages of account reports

Two counts of the same entries: the dashboard counts the entries of an organization by their
statuses, the page of a report lists its entries and counts those that it lists.

* `dashboard` has the tiles about account entries, `getAccountReport` is the page of a report;
* `ReportsSound`: entries are in reports of their organizations, no report has more entries than
  it was announced with, and two of the statuses are given to no entry;
* `dashboard_spec`: after every run, wherever its calls were cut off, the tiles add up, and the
  pages together show what the tiles count unless a page has reached its limit.
-/

namespace PaymentOps.Dashboard

open AccountService Text Reconciliation

variable {D : Type}

/-! ## The tiles -/

/-- `_count_by`: the rows of the organization, counted by the text of a column. -/
def countBy {α : Type} (column organization : α → String) (org : String) (rows : List α) :
    Dict String ℕ :=
  Dict.tally column (rows.filter (organization · == org))

/-- `str(reconciliation_status)` -/
def statusText (status : Option AccountReconciliationStatus) : String :=
  (status.map (·.value)).getD "None"

/-- The numbers on the dashboard. -/
structure AccountTiles where
  accountEntries : ℕ
  accountReconciled : ℕ
  missingAccountEvent : ℕ
  accountMismatches : ℕ
  unmatchedEntries : ℕ
  duplicateEntries : ℕ
  reconciliationRate : ℚ

/-- The tiles about account entries. -/
def dashboard (org : String) (s : Store D) : AccountTiles :=
  let account := countBy (fun e => statusText e.reconciliationStatus) (·.organizationId) org
    s.accountEntries
  let totalEntries := account.total
  let reconciled := account.countOf "RECONCILED"
  { accountEntries := totalEntries
    accountReconciled := reconciled
    missingAccountEvent := account.countOf "MISSING_ACCOUNT_EVENT"
    accountMismatches := account.countOf "ACCOUNT_MISMATCH" + account.countOf "AMOUNT_MISMATCH" +
      account.countOf "CURRENCY_MISMATCH"
    unmatchedEntries := account.countOf "UNMATCHED_ACCOUNT_ENTRY"
    duplicateEntries := account.countOf "DUPLICATE_ACCOUNT_ENTRY"
    reconciliationRate :=
      if totalEntries = 0 then 0 else Decimal.round2 (100 * reconciled / totalEntries) }

/-! ## The page of a report -/

/-- The filters of a list of entries. -/
structure EntryQuery where
  reportId : Option ℕ := none
  creditDebit : Option String := none
  reconciliationStatus : Option String := none
  limit : ℕ := 200

/-- The conditions of a query, of which the absent ones and the empty texts are left out. -/
def EntryQuery.selects (org : String) (query : EntryQuery) (e : AccountEntryRow) : Bool :=
  e.organizationId == org && query.reportId.all (e.reportId == ·) &&
    (!truthy query.creditDebit || e.creditDebit.map (·.value) == query.creditDebit) &&
    (!truthy query.reconciliationStatus ||
      e.reconciliationStatus.map (·.value) == query.reconciliationStatus)

section

variable (entryOrder : RowOrder (Store D) Store.accountEntries)
  (balanceOrder : RowOrder (Store D) Store.accountBalances)

/-- `GET` of the entries, 200 of them at most. -/
def listAccountEntries (org : String) (query : EntryQuery) (s : Store D) :
    List (ℕ × AccountEntryRow) :=
  (entryOrder.select s (query.selects org)).take query.limit

/-- `_balances` -/
def balances (org : String) (reportId : ℕ) (s : Store D) : List AccountBalanceRow :=
  (balanceOrder.select s fun b => b.organizationId == org && b.reportId == reportId).map (·.2)

/-- `_reconciliation_summary` -/
def reconciliationSummary (entries : List AccountEntryRow) : Dict String ℕ :=
  Dict.tally (fun e => (or (e.reconciliationStatus.map (·.value)) (some "PENDING")).getD "PENDING")
    entries

/-- The page of a report. -/
structure ReportPage where
  report : AccountReportRow
  balances : List AccountBalanceRow
  entries : List (ℕ × AccountEntryRow)
  reconciliationSummary : Dict String ℕ

/-- The page of a report, none where the answer is a 404. -/
def getAccountReport (org : String) (reportId : ℕ) (s : Store D) : Option ReportPage :=
  (s.accountReports[reportId]?.filter (·.organizationId == org)).map fun report =>
    let entries := listAccountEntries entryOrder org { reportId := some reportId } s
    { report := report
      balances := balances balanceOrder org reportId s
      entries := entries
      reconciliationSummary := reconciliationSummary (entries.map (·.2)) }

/-- The entries on the pages of all reports. -/
def shownEntries (org : String) (s : Store D) : List AccountEntryRow :=
  (List.range s.accountReports.length).flatMap fun reportId =>
    ((getAccountReport entryOrder balanceOrder org reportId s).map
      (·.entries.map (·.2))).getD []

end

/-! ## What every operation keeps -/

/-- The status is one that an entry can get. -/
def Given (status : Option AccountReconciliationStatus) : Prop :=
  status ≠ some .missingAccountEvent ∧ status ≠ some .referenceMismatch

/-- What the rows of the reports say of each other. -/
structure ReportsSound (s : Store D) : Prop where
  reports : ∀ e ∈ s.accountEntries, s.HasReport e.organizationId e.reportId
  statuses : ∀ e ∈ s.accountEntries, Given e.reconciliationStatus
  counts : ∀ key r, s.accountReports[key]? = some r →
    s.accountEntries.countP (·.reportId = key) ≤ r.entryCount

/-- The report is open, and there is room for `n` more of its entries. -/
structure Room (org : String) (reportId n : ℕ) (s : Store D) : Prop where
  sound : ReportsSound s
  room : ∃ r, s.accountReports[reportId]? = some r ∧ r.organizationId = org ∧
    s.accountEntries.countP (·.reportId = reportId) + n ≤ r.entryCount

theorem given_classification (u : Unicode) (entry : AccountEntry)
    (account : Option AccountReference) (lifecycle : LifecycleAccountContext) :
    Given (some (reconcileAccountEntry u entry account lifecycle).classification) := by
  rw [classification_eq, evidenceClass]
  split_ifs <;> exact ⟨by decide, by decide⟩

/-- A repeated entry is a duplicate or confirmed, and a new one gets what the reconciler returns. -/
theorem given_status {env : Env D} {st : EntryStep D} : Given (some (st.status env)) := by
  unfold EntryStep.status EntryStep.reconcilerResult
  rcases st.existing env with _ | ⟨i, e⟩
  · rcases findLifecycleForEntry env st.org st.entry (st.added env) with _ | ⟨id, l⟩
    · show Given (some .unmatchedAccountEntry)
      exact ⟨by decide, by decide⟩
    · exact given_classification env.unicode st.entry st.report.account (lifecycleContext l)
  · dsimp only
    rcases st.repeatStatus_eq e with h | h
    · rw [h]
      exact ⟨by decide, by decide⟩
    · rw [h]
      exact ⟨by decide, by decide⟩

/-- At every commit of a step its entry is the last one, in the report that the step is about. -/
theorem stage_entries {env : Env D} {st : EntryStep D} {c : Store D}
    (h : EntryStep.Stage env st c) : ∃ row, c.accountEntries = st.before.accountEntries ++ [row] ∧
      c.accountReports = st.before.accountReports ∧ row.organizationId = st.org ∧
      row.reportId = st.reportId ∧ Given row.reconciliationStatus := by
  obtain ⟨horg, -, hreport⟩ : (st.finalRow env).organizationId = st.org ∧ _ :=
    EntryStep.finalRow_booking
  have hgiven : Given (st.finalRow env).reconciliationStatus := by
    rw [EntryStep.finalRow_status]
    exact given_status
  cases h with
  | added => exact ⟨st.row env, rfl, rfl, rfl, rfl, nofun, nofun⟩
  | settling => exact ⟨st.finalRow env, rfl, rfl, horg, hreport, hgiven⟩
  | concluded => exact ⟨st.finalRow env, rfl, rfl, horg, hreport, hgiven⟩

namespace ReportsSound

variable {s t : Store D} {org : String}

theorem congr (h : ReportsSound s) (hreports : t.accountReports = s.accountReports)
    (hentries : t.accountEntries = s.accountEntries) : ReportsSound t where
  reports e he := by
    rw [Store.HasReport, hreports]
    exact h.reports e (hentries ▸ he)
  statuses e he := h.statuses e (hentries ▸ he)
  counts key r hr := by
    rw [hentries]
    exact h.counts key r (hreports ▸ hr)

/-- An entry takes one of the places that are left in its report. -/
theorem withEntry (env : Env D) (org : String) (report : AccountReport) (reportId : ℕ)
    (entry : AccountEntry) (n : ℕ) : Session.Triple (Room org reportId (n + 1))
      (AccountService.ingestEntry env org report reportId entry) ReportsSound
      fun _ => Room org reportId n := by
  intro s hs
  have hcommits : ∀ c ∈ ((AccountService.ingestEntry env org report reportId entry).run s).commits,
      Room org reportId n c := by
    intro c hc
    obtain ⟨r, hr, horg, hroom⟩ := hs.room
    obtain ⟨row, hentries, hreports, hown, hkey, hgiven⟩ :=
      stage_entries (EntryStep.exec_stages env ⟨org, report, reportId, entry, s⟩ c hc)
    dsimp only at hentries hreports hown hkey
    have hcount : ∀ key, c.accountEntries.countP (·.reportId = key) =
        s.accountEntries.countP (·.reportId = key) + if reportId = key then 1 else 0 := by
      intro key
      rw [hentries, List.countP_append, List.countP_singleton, hkey]
      simp only [decide_eq_true_eq]
    refine ⟨⟨fun e he => ?_, fun e he => ?_, fun key r' hr' => ?_⟩, r, ?_, horg, ?_⟩
    · rw [Store.HasReport, hreports]
      rw [hentries] at he
      rcases List.mem_append.mp he with he | he
      · exact hs.sound.reports e he
      · rw [List.mem_singleton.mp he, hown, hkey]
        exact ⟨r, hr, horg⟩
    · rw [hentries] at he
      rcases List.mem_append.mp he with he | he
      · exact hs.sound.statuses e he
      · rw [List.mem_singleton.mp he]
        exact hgiven
    · rw [hreports] at hr'
      rw [hcount]
      split_ifs with h
      · subst h
        obtain rfl := Option.some.inj (hr.symm.trans hr')
        omega
      · exact hs.sound.counts key r' hr'
    · rw [hreports]
      exact hr
    · rw [hcount, if_pos rfl]
      omega
  refine ⟨fun c hc => (hcommits c hc).sound, fun _ _ => ?_⟩
  apply Session.final_of_commits _ hcommits
  obtain ⟨r, hr, horg, hroom⟩ := hs.room
  exact ⟨hs.sound, r, hr, horg, by omega⟩

/-- The entries of a report fill the places that it was opened with. -/
theorem ingestEntries (env : Env D) (org : String) (report : AccountReport) (reportId : ℕ)
    (entries : List AccountEntry) : Session.Triple (Room org reportId entries.length)
      (Session.each (AccountService.ingestEntry env org report reportId) entries) ReportsSound
      fun _ => ReportsSound := by
  induction entries with
  | nil => exact .pure fun s hs => hs.sound
  | cons entry entries ih =>
    rw [Session.each_cons]
    exact .bind (withEntry env org report reportId entry entries.length) fun _ => ih

/-- A report is opened with as many places as it has entries. -/
theorem openReport (org : String) (iso : Option ℕ) (report : AccountReport) :
    Session.Triple ReportsSound (AccountService.openReport org iso report : Service D ℕ)
      ReportsSound fun reportId => Room org reportId report.entries.length := by
  refine .bind (Q := fun reportId => Room org reportId report.entries.length) (.transact ?_)
    fun reportId => ?_
  · intro s a s' hs h
    cases h
    have hreports : ∀ row : AccountReportRow, ∀ e ∈ s.accountEntries,
        ({ s with accountReports := s.accountReports ++ [row] } : Store D).HasReport
          e.organizationId e.reportId := by
      intro row e he
      obtain ⟨r, hr, horg⟩ := hs.reports e he
      exact ⟨r, List.getElem?_append_left (List.getElem?_eq_some_iff.mp hr).1 ▸ hr, horg⟩
    have hnone : s.accountEntries.countP (·.reportId = s.accountReports.length) = 0 := by
      apply List.countP_eq_zero.mpr
      intro e he
      obtain ⟨r, hr, -⟩ := hs.reports e he
      have hlt := (List.getElem?_eq_some_iff.mp hr).1
      simp only [decide_eq_true_eq]
      omega
    have hsound : ∀ row : AccountReportRow,
        ReportsSound ({ s with accountReports := s.accountReports ++ [row] } : Store D) := by
      intro row
      refine ⟨hreports row, hs.statuses, fun key r hr => ?_⟩
      rcases Nat.lt_or_ge key s.accountReports.length with hlt | hge
      · rw [List.getElem?_append_left hlt] at hr
        exact hs.counts key r hr
      · have hkey : key = s.accountReports.length := by
          have hlt := (List.getElem?_eq_some_iff.mp hr).1
          rw [List.length_append, List.length_singleton] at hlt
          omega
        show s.accountEntries.countP (·.reportId = key) ≤ r.entryCount
        rw [hkey, hnone]
        exact Nat.zero_le _
    refine ⟨hsound _, hsound _, _, List.getElem?_concat_length, rfl, ?_⟩
    show s.accountEntries.countP (·.reportId = s.accountReports.length) + _ ≤ _
    rw [hnone, Nat.zero_add]
  · refine .bind (Q := fun _ => Room org reportId report.entries.length)
      (.ite (fun _ => .pure fun s hs => hs) fun _ => .commit fun s hs => ?_) fun _ =>
        .pure fun s hs => hs
    exact ⟨hs.sound.congr rfl rfl, hs.sound.congr rfl rfl, hs.room⟩

theorem ingestAccountReport (env : Env D) (org : String) (reports : List AccountReport)
    (iso : Option ℕ) : Session.Keeps ReportsSound
      (AccountService.ingestAccountReport env org reports iso) :=
  Session.Triple.each fun report _ => .bind (openReport org iso report) fun reportId =>
    ingestEntries env org report reportId report.entries

theorem perform [DecidableEq D] (env : Env D) (ids : LifecycleIds) (op : Operation) :
    Session.Keeps ReportsSound (AccountService.perform env ids op) := by
  cases op with
  | ingest i =>
    exact (ingestAccountReport env i.org i.reports i.isoMessageId).bind fun _ => .pure _
  | message org pipeline payload clock =>
    refine Session.Keeps.bind ?_ fun _ => .pure _
    apply IsoAnalysis.analyzeIsoMessage_invariant
    · exact fun s rows hs => hs.congr rfl rfl
    · intro result _ isoId messageHash
      apply IsoAnalysis.correlateAndBuildLifecycle_invariant
      · exact fun _ _ hs => hs.congr rfl rfl
      · exact fun s id hs => hs.congr rfl rfl
      · exact fun _ _ _ _ hs => hs.congr rfl rfl
    · exact ingestAccountReport env org
  | detect org now windowHours =>
    have hcase : ∀ lifecycleId, Session.Keeps ReportsSound
        (ensureWith org (missingCaseId lifecycleId) (withMissingCase org lifecycleId) :
          Service D Unit) :=
      fun lifecycleId => ensureWith_invariant fun s hs _ => hs.congr rfl rfl
    exact .bind (.ofExcept _) fun cutoff => .bind (.read _) fun rows =>
      .fold (fun flagged l _ => .bind (.read _) fun found =>
        .ite (.pure _) (.bind (hcase _) fun _ => .pure _)) []

end ReportsSound

/-! ## What the pages show -/

/-- A list in groups, each in its order. -/
theorem groups_perm {α : Type} (key : α → ℕ) {n : ℕ} {xs : List α} (h : ∀ x ∈ xs, key x < n) :
    ((List.range n).flatMap fun k => xs.filter (key · = k)).Perm xs := by
  have hgroups : ∀ m, ((List.range m).flatMap fun k => xs.filter (key · = k)).Perm
      (xs.filter (key · < m)) := by
    intro m
    induction m with
    | zero => simp
    | succ m ih =>
      have hlow : (xs.filter (key · < m + 1)).filter (key · < m) = xs.filter (key · < m) := by
        rw [List.filter_filter]
        refine List.filter_congr fun x _ => ?_
        rw [← Bool.decide_and]
        exact decide_eq_decide.mpr ⟨fun h => h.1, fun h => ⟨h, by omega⟩⟩
      have hhigh : (xs.filter (key · < m + 1)).filter (fun x => !decide (key x < m)) =
          xs.filter (key · = m) := by
        rw [List.filter_filter]
        refine List.filter_congr fun x _ => ?_
        rw [← decide_not, ← Bool.decide_and]
        exact decide_eq_decide.mpr ⟨fun h => by omega, fun h => by omega⟩
      have hsplit := List.filter_append_perm (key · < m) (xs.filter (key · < m + 1))
      rw [hlow, hhigh] at hsplit
      rw [List.range_succ, List.flatMap_append, List.flatMap_singleton]
      exact (ih.append_right _).trans hsplit
  have hall : xs.filter (key · < n) = xs :=
    List.filter_eq_self.mpr fun x hx => decide_eq_true (h x hx)
  exact (hgroups n).trans (List.Perm.of_eq hall)

section

variable {entryOrder : RowOrder (Store D) Store.accountEntries}
  {balanceOrder : RowOrder (Store D) Store.accountBalances} {org : String} {s : Store D}

/-- The organization has the entry in the report. -/
def inReport (org : String) (reportId : ℕ) (e : AccountEntryRow) : Bool :=
  e.organizationId == org && e.reportId == reportId

theorem selects_report (reportId : ℕ) (e : AccountEntryRow) :
    EntryQuery.selects org { reportId := some reportId } e = inReport org reportId e := by
  simp [EntryQuery.selects, inReport]

/-- The entries that the page of a report lists. -/
def listed (entryOrder : RowOrder (Store D) Store.accountEntries) (org : String) (reportId : ℕ)
    (s : Store D) : List AccountEntryRow :=
  (listAccountEntries entryOrder org { reportId := some reportId } s).map (·.2)

theorem length_listed (entryOrder : RowOrder (Store D) Store.accountEntries) (org : String)
    (reportId : ℕ) (s : Store D) : (listed entryOrder org reportId s).length =
      min 200 (s.accountEntries.countP (inReport org reportId)) := by
  rw [listed, listAccountEntries, List.length_map, List.length_take, entryOrder.select_length]
  congr 2
  funext e
  exact selects_report reportId e

theorem listed_perm {reportId : ℕ}
    (h : s.accountEntries.countP (inReport org reportId) ≤ 200) :
    (listed entryOrder org reportId s).Perm (s.accountEntries.filter (inReport org reportId)) := by
  have hselects : EntryQuery.selects org { reportId := some reportId } = inReport org reportId :=
    funext fun e => selects_report reportId e
  rw [listed, listAccountEntries, hselects, List.take_of_length_le]
  · exact entryOrder.select_perm s _
  · rw [entryOrder.select_length]
    exact h

/-- A report of another organization has no entry of this one. -/
theorem shownEntries_eq (h : ReportsSound s) : shownEntries entryOrder balanceOrder org s =
    (List.range s.accountReports.length).flatMap fun reportId =>
      listed entryOrder org reportId s := by
  rw [shownEntries]
  refine List.flatMap_congr fun reportId _ => ?_
  rw [getAccountReport, listed]
  rcases hr : s.accountReports[reportId]?.filter (·.organizationId == org) with _ | report
  · have hnone : s.accountEntries.countP (inReport org reportId) = 0 := by
      apply List.countP_eq_zero.mpr
      intro e he hin
      simp only [inReport, Bool.and_eq_true, beq_iff_eq] at hin
      obtain ⟨r, hreport, horg⟩ := h.reports e he
      rw [hin.2] at hreport
      rw [hreport] at hr
      simp [Option.filter, horg, hin.1] at hr
    have hlength := length_listed entryOrder org reportId s
    rw [hnone, Nat.min_zero] at hlength
    rw [hr]
    exact (List.eq_nil_of_length_eq_zero hlength).symm
  · rw [hr]
    rfl

/-- Entries are in reports that are stored. -/
theorem reportId_lt (h : ReportsSound s) {e : AccountEntryRow} (he : e ∈ s.accountEntries) :
    e.reportId < s.accountReports.length := by
  obtain ⟨r, hr, -⟩ := h.reports e he
  exact (List.getElem?_eq_some_iff.mp hr).1

/-- The pages show the entries of the organization unless one of them has reached its limit. -/
theorem shownEntries_perm_iff (h : ReportsSound s) :
    (shownEntries entryOrder balanceOrder org s).Perm
        (s.accountEntries.filter (·.organizationId == org)) ↔
      ∀ reportId, s.accountEntries.countP (inReport org reportId) ≤ 200 := by
  have hgroups : ((List.range s.accountReports.length).flatMap fun reportId =>
      s.accountEntries.filter (inReport org reportId)).Perm
        (s.accountEntries.filter (·.organizationId == org)) := by
    have hlt : ∀ e ∈ s.accountEntries.filter (·.organizationId == org),
        e.reportId < s.accountReports.length :=
      fun e he => reportId_lt h (List.mem_filter.mp he).1
    refine (List.Perm.of_eq (List.flatMap_congr fun reportId _ => ?_)).trans
      (groups_perm AccountEntryRow.reportId hlt)
    rw [List.filter_filter]
    refine List.filter_congr fun e _ => ?_
    rw [inReport, Bool.and_comm]
    rfl
  rw [shownEntries_eq h]
  constructor
  · intro hperm reportId
    by_contra hover
    have hlt : reportId < s.accountReports.length := by
      have hpos : 0 < s.accountEntries.countP (inReport org reportId) := by omega
      obtain ⟨e, he, hin⟩ := List.countP_pos_iff.mp hpos
      simp only [inReport, Bool.and_eq_true, beq_iff_eq] at hin
      exact hin.2 ▸ reportId_lt h he
    have hlength := (hperm.trans hgroups.symm).length_eq
    rw [List.length_flatMap, List.length_flatMap] at hlength
    refine absurd hlength (Nat.ne_of_lt (List.sum_lt_sum _ _ (fun key _ => ?_)
      ⟨reportId, List.mem_range.mpr hlt, ?_⟩))
    · rw [length_listed, ← List.countP_eq_length_filter]
      exact Nat.min_le_right _ _
    · rw [length_listed, ← List.countP_eq_length_filter]
      omega
  · intro hlimit
    exact (List.Perm.flatMap_left _ fun reportId _ => listed_perm (hlimit reportId)).trans hgroups

end

/-! ## What the tiles count -/

/-- The entry is in none of the tiles but that of all entries. -/
def untiled (e : AccountEntryRow) : Bool :=
  e.reconciliationStatus ∈ [none, some .possibleReconciliation, some .reviewRequired]

theorem tiles_partition {xs : List AccountEntryRow} (h : ∀ e ∈ xs, Given e.reconciliationStatus) :
    let counted := fun text => xs.countP fun e => statusText e.reconciliationStatus = text
    xs.length = counted "RECONCILED" +
      (counted "ACCOUNT_MISMATCH" + counted "AMOUNT_MISMATCH" + counted "CURRENCY_MISMATCH") +
      counted "UNMATCHED_ACCOUNT_ENTRY" + counted "DUPLICATE_ACCOUNT_ENTRY" +
      xs.countP untiled := by
  dsimp only
  induction xs with
  | nil => rfl
  | cons e xs ih =>
    have hrest := ih fun e' he' => h e' (List.mem_cons_of_mem _ he')
    obtain ⟨hmissing, hreference⟩ := h e List.mem_cons_self
    have hone : ∀ status, Given status →
        1 = (if statusText status = "RECONCILED" then 1 else 0) +
          ((if statusText status = "ACCOUNT_MISMATCH" then 1 else 0) +
            (if statusText status = "AMOUNT_MISMATCH" then 1 else 0) +
            if statusText status = "CURRENCY_MISMATCH" then 1 else 0) +
          (if statusText status = "UNMATCHED_ACCOUNT_ENTRY" then 1 else 0) +
          (if statusText status = "DUPLICATE_ACCOUNT_ENTRY" then 1 else 0) +
          if status ∈ [none, some .possibleReconciliation, some .reviewRequired] then 1 else 0 := by
      intro status hgiven
      rcases status with _ | status
      · decide
      · cases status with
        | missingAccountEvent => exact absurd rfl hgiven.1
        | referenceMismatch => exact absurd rfl hgiven.2
        | _ => decide
    have hentry := hone e.reconciliationStatus (h e List.mem_cons_self)
    simp only [List.length_cons, List.countP_cons, untiled, decide_eq_true_eq] at hrest ⊢
    omega

/-- No entry has the status of the events that are missing. -/
theorem statusText_ne_missing {status : Option AccountReconciliationStatus} (h : Given status) :
    statusText status ≠ "MISSING_ACCOUNT_EVENT" := by
  rcases status with _ | status
  · decide
  · cases status with
    | missingAccountEvent => exact absurd rfl h.1
    | _ => decide

/-- The tiles and the pages of one store. -/
structure Agreeing (entryOrder : RowOrder (Store D) Store.accountEntries)
    (balanceOrder : RowOrder (Store D) Store.accountBalances) (org : String) (s : Store D) :
    Prop where
  entries : (dashboard org s).accountEntries = s.accountEntries.countP (·.organizationId == org)
  partition : (dashboard org s).accountEntries = (dashboard org s).accountReconciled +
    (dashboard org s).accountMismatches + (dashboard org s).unmatchedEntries +
    (dashboard org s).duplicateEntries +
    s.accountEntries.countP fun e => untiled e && e.organizationId == org
  missing : (dashboard org s).missingAccountEvent = 0
  rate : 0 ≤ (dashboard org s).reconciliationRate ∧ (dashboard org s).reconciliationRate ≤ 100
  pages : ∀ reportId page, getAccountReport entryOrder balanceOrder org reportId s = some page →
    page.report.organizationId = org ∧
      page.entries.length = min 200 (s.accountEntries.countP (·.reportId = reportId)) ∧
      s.accountEntries.countP (·.reportId = reportId) ≤ page.report.entryCount ∧
      page.reconciliationSummary.total = page.entries.length
  shown : (shownEntries entryOrder balanceOrder org s).Perm
      (s.accountEntries.filter (·.organizationId == org)) ↔
    ∀ reportId, s.accountEntries.countP (inReport org reportId) ≤ 200

section

variable {entryOrder : RowOrder (Store D) Store.accountEntries}
  {balanceOrder : RowOrder (Store D) Store.accountBalances} {org : String} {s : Store D}

theorem page_spec (h : ReportsSound s) {reportId : ℕ} {page : ReportPage}
    (hpage : getAccountReport entryOrder balanceOrder org reportId s = some page) :
    page.report.organizationId = org ∧
      page.entries.length = min 200 (s.accountEntries.countP (·.reportId = reportId)) ∧
      s.accountEntries.countP (·.reportId = reportId) ≤ page.report.entryCount ∧
      page.reconciliationSummary.total = page.entries.length := by
  obtain ⟨report, hreport, rfl⟩ := Option.map_eq_some_iff.mp hpage
  obtain ⟨hrow, horg⟩ := Option.filter_eq_some_iff.mp hreport
  have horg : report.organizationId = org := by simpa using horg
  have hcount : s.accountEntries.countP (inReport org reportId) =
      s.accountEntries.countP (·.reportId = reportId) := by
    refine List.countP_congr fun e he => ?_
    simp only [inReport, Bool.and_eq_true, beq_iff_eq, decide_eq_true_eq]
    refine ⟨fun hin => hin.2, fun hkey => ⟨?_, hkey⟩⟩
    obtain ⟨r, hr, howner⟩ := h.reports e he
    rw [hkey, hrow] at hr
    obtain rfl := Option.some.inj hr
    exact howner.symm.trans horg
  have hlength := length_listed entryOrder org reportId s
  rw [listed, List.length_map, hcount] at hlength
  refine ⟨horg, hlength, h.counts reportId report hrow, ?_⟩
  show (reconciliationSummary _).total = _
  rw [reconciliationSummary, Dict.total_tally, List.length_map]

/-- The rate is a percentage. -/
theorem rate_bounds (h : (dashboard org s).accountReconciled ≤ (dashboard org s).accountEntries) :
    0 ≤ (dashboard org s).reconciliationRate ∧ (dashboard org s).reconciliationRate ≤ 100 := by
  obtain ⟨total, htotal⟩ : ∃ n, (dashboard org s).accountEntries = n := ⟨_, rfl⟩
  obtain ⟨reconciled, hreconciled⟩ : ∃ n, (dashboard org s).accountReconciled = n := ⟨_, rfl⟩
  have hrate : (dashboard org s).reconciliationRate =
      if total = 0 then 0 else Decimal.round2 (100 * reconciled / total) := by
    rw [← htotal, ← hreconciled]
    rfl
  rw [htotal, hreconciled] at h
  rw [hrate]
  split_ifs with hzero
  · exact ⟨le_refl 0, by norm_num⟩
  · have hpos : (0 : ℚ) < total := Nat.cast_pos.mpr (Nat.pos_of_ne_zero hzero)
    have hle : (reconciled : ℚ) ≤ total := Nat.cast_le.mpr h
    have hlow : ((0 : ℤ) : ℚ) ≤ 100 * reconciled / total := by
      rw [Int.cast_zero]
      positivity
    have hhigh : 100 * reconciled / total ≤ ((100 : ℤ) : ℚ) := by
      rw [div_le_iff₀ hpos]
      push_cast
      linarith
    exact ⟨by exact_mod_cast Decimal.le_round2 hlow, by exact_mod_cast Decimal.round2_le hhigh⟩

theorem ReportsSound.agreeing (h : ReportsSound s) : Agreeing entryOrder balanceOrder org s := by
  have hown : ∀ e ∈ s.accountEntries.filter (·.organizationId == org),
      Given e.reconciliationStatus := fun e he => h.statuses e (List.mem_filter.mp he).1
  have htotal : (dashboard org s).accountEntries =
      (s.accountEntries.filter (·.organizationId == org)).length := by
    simp only [dashboard, countBy, Dict.total_tally]
  refine ⟨?_, ?_, ?_, ?_, fun reportId page hpage => page_spec h hpage, shownEntries_perm_iff h⟩
  · rw [htotal, List.countP_eq_length_filter]
  · rw [htotal, tiles_partition hown, List.countP_filter]
    simp only [dashboard, countBy, Dict.countOf_tally]
  · simp only [dashboard, countBy, Dict.countOf_tally]
    apply List.countP_eq_zero.mpr
    intro e he
    simpa using statusText_ne_missing (hown e he)
  · apply rate_bounds
    rw [htotal]
    simp only [dashboard, countBy, Dict.countOf_tally]
    exact List.countP_le_length

end

/-- After every run, wherever its calls were cut off, each entry of an organization is in one tile
or in none but the first, none is counted as a missing event, no page has more entries than the
report was announced with, and the pages show what the tiles count exactly when no report has more
entries than a page lists. -/
theorem dashboard_spec [DecidableEq D] (env : Env D) (ids : LifecycleIds)
    (calls : List (Operation × ℕ)) (entryOrder : RowOrder (Store D) Store.accountEntries)
    (balanceOrder : RowOrder (Store D) Store.accountBalances) (org : String) :
    Agreeing entryOrder balanceOrder org (Session.cutRun (perform env ids) calls {}) := by
  have hstart : ReportsSound ({} : Store D) :=
    ⟨fun e he => absurd he List.not_mem_nil, fun e he => absurd he List.not_mem_nil,
      fun key r hr => by cases hr⟩
  exact (Session.cutRun_of_keeps (fun op => ReportsSound.perform env ids op) calls
    hstart).agreeing

end PaymentOps.Dashboard
