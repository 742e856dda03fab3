import PaymentOps.Service.Account

/-!
# One account entry

An `EntryStep` is one call of `_ingest_entry` with the store in which it starts.  It says which
earlier entry the step finds, what the reconciler answers and which status the entry gets.

A run is a list of `Ingestion`s; `runSteps` are its entry steps, in order.  `run_starts` and
`run_commits` carry an invariant from step to step, to the ends of calls and to every commit.
-/

namespace PaymentOps

open Reconciliation AccountService

variable {D : Type}

/-- A call of `_ingest_entry`. -/
structure EntryStep (D : Type) where
  org : String
  report : AccountReport
  reportId : ℕ
  entry : AccountEntry
  before : Store D

namespace EntryStep

variable (env : Env D) (st : EntryStep D)

/-- The hash of the entry's identity. -/
def identityHash : String := env.hash.identity st.entry.identityText

/-- The key of the row that the step adds. -/
def rowId : ℕ := st.before.accountEntries.length

/-- The row as it is first stored. -/
def row : AccountEntryRow := entryToRow st.org st.entry st.reportId (st.identityHash env)

/-- The store once the row is added. -/
def added : Store D :=
  { st.before with accountEntries := st.before.accountEntries ++ [st.row env] }

/-- The earlier entry with the same identity that the step finds. -/
def existing : Option (ℕ × AccountEntryRow) :=
  findEntryByIdentity env st.org (st.identityHash env) st.before

/-- The status that an earlier entry gives to this one. -/
def repeatStatus (existing : AccountEntryRow) : AccountReconciliationStatus :=
  duplicateStatus st.before st.report st.reportId existing

/-- What the reconciler returns for the entry, where it is called. -/
def reconcilerResult : Option AccountReconciliationResult :=
  match st.existing env with
  | some _ => none
  | none => (findLifecycleForEntry env st.org st.entry (st.added env)).map fun l =>
    reconcileAccountEntry env.unicode st.entry st.report.account (lifecycleContext l.2)

/-- The status that the step stores. -/
def status : AccountReconciliationStatus :=
  match st.existing env with
  | some e => st.repeatStatus e.2
  | none => ((st.reconcilerResult env).map (·.classification)).getD .unmatchedAccountEntry

/-- The key of the earlier entry that the step confirms. -/
def confirmed : Option ℕ :=
  (st.existing env).bind fun e => if st.repeatStatus e.2 = .reconciled then some e.1 else none

/-- What the step leaves behind. -/
def exec : Exec (Store D) ServiceError Unit :=
  (ingestEntry env st.org st.report st.reportId st.entry).run st.before

/-- The store where the step ends. -/
def after : Store D := (st.exec env).final st.before

/-- What the entries look like at every commit of the step: one row is added, and it has no
status yet or that of the step. -/
def Committed (entries : List AccountEntryRow) : Prop :=
  ∃ row, entries = st.before.accountEntries ++ [row] ∧ row.organizationId = st.org ∧
    row.identityHash = st.identityHash env ∧
    (row.reconciliationStatus = none ∨ row.reconciliationStatus = some (st.status env))

end EntryStep

/-! ## Frames -/

namespace AccountService

theorem addLifecycleEvent_entries (org : String) (l : ℕ) (entry : AccountEntry)
    (report : AccountReport) (eventType : String) :
    Session.Leaves Store.accountEntries
      (addLifecycleEvent org l entry report eventType : Service D Unit) :=
  .commit fun _ => rfl

theorem persistReconciliation_entries (org : String) (e : ℕ) (l : Option ℕ)
    (c : AccountReconciliationStatus) (score : ℚ) (evidence conflicts : List String) :
    Session.Leaves Store.accountEntries
      (persistReconciliation org e l c score evidence conflicts : Service D Unit) :=
  .commit fun _ => rfl

/-- A case adds to the cases and to the audit events only. -/
theorem ensureCase_leaves {γ : Type} {g : Store D → γ}
    (hg : ∀ s rows rows', g { s with cases := rows, auditEvents := rows' } = g s)
    (org : String) (e : ℕ) (identityHash classification : String) :
    Session.Leaves g (ensureCase org e identityHash classification : Service D Unit) := by
  refine .bind (.read _) fun existing => .ite (.pure _) (.transact fun s a s' h => ?_)
  split_ifs at h
  cases h
  exact hg s _ _

theorem ensureCase_entries (org : String) (e : ℕ) (identityHash classification : String) :
    Session.Leaves Store.accountEntries
      (ensureCase org e identityHash classification : Service D Unit) :=
  ensureCase_leaves (fun _ _ _ => rfl) org e identityHash classification

/-- Opening a report adds to the reports and to the balances only. -/
theorem openReport_leaves {γ : Type} {g : Store D → γ}
    (hr : ∀ s rows, g { s with accountReports := rows } = g s)
    (hb : ∀ s rows, g { s with accountBalances := rows } = g s)
    (org : String) (iso : Option ℕ) (report : AccountReport) :
    Session.Leaves g (openReport org iso report : Service D ℕ) := by
  refine .bind (.transact fun s a s' h => ?_) fun reportId => .bind ?_ fun _ => .pure _
  · cases h
    exact hr s _
  · unfold persistBalances
    exact .ite (.pure _) (.commit fun s => hb s _)

theorem openReport_entries (org : String) (iso : Option ℕ) (report : AccountReport) :
    Session.Leaves Store.accountEntries (openReport org iso report : Service D ℕ) :=
  openReport_leaves (fun _ _ => rfl) (fun _ _ => rfl) org iso report

/-- What no entry of an account report touches. -/
structure EntryFrame {γ : Type} (g : Store D → γ) : Prop where
  entries : ∀ s rows, g { s with accountEntries := rows } = g s
  reconciliations : ∀ s rows, g { s with accountReconciliations := rows } = g s
  events : ∀ s rows, g { s with lifecycleEvents := rows } = g s
  cases : ∀ s rows rows', g { s with cases := rows, auditEvents := rows' } = g s

/-- An entry keeps what its case keeps and what the tables of the entries do not touch. -/
theorem ingestEntry_invariant {I : Store D → Prop} {org : String}
    (hentries : ∀ s rows, I s → I { s with accountEntries := rows })
    (hreconciliations : ∀ s rows, I s → I { s with accountReconciliations := rows })
    (hevents : ∀ s rows, I s → I { s with lifecycleEvents := rows })
    (hcase : ∀ e identityHash classification,
      Session.Keeps I (ensureCase org e identityHash classification : Service D Unit))
    (env : Env D) (report : AccountReport) (reportId : ℕ) (entry : AccountEntry) :
    Session.Keeps I (ingestEntry env org report reportId entry) := by
  have hevent : ∀ l eventType, Session.Keeps I
      (addLifecycleEvent org l entry report eventType : Service D Unit) := fun l eventType =>
    .commit fun s hs => hevents s _ hs
  have hupdate : ∀ id f, Session.Keeps I (Store.updateEntry id f : Service D Unit) := fun id f =>
    .commit fun s hs => hentries s _ hs
  have hreconciliation : ∀ e l c score evidence conflicts, Session.Keeps I
      (persistReconciliation org e l c score evidence conflicts : Service D Unit) :=
    fun e l c score evidence conflicts => .commit fun s hs => hreconciliations s _ hs
  refine .bind (.read _) fun existing => .bind (.read _) fun store => .bind ?_ fun entryId => ?_
  · exact .transact fun s a s' hs h => by
      cases h
      exact hentries s _ hs
  · rcases existing with _ | ⟨i, e⟩
    · refine .bind (.read _) fun lifecycle => ?_
      rcases lifecycle with _ | ⟨l, row⟩
      · exact .bind (hupdate _ _) fun _ => hreconciliation _ _ _ _ _ _
      · exact .bind (hupdate _ _) fun _ => .bind (hreconciliation _ _ _ _ _ _) fun _ =>
          .bind (hevent _ _) fun _ => .ite (hcase _ _ _) (.pure _)
    · refine .bind (hupdate _ _) fun _ => .ite ?_ (hcase _ _ _)
      cases e.lifecycleId with
      | none => exact .pure _
      | some l => exact hevent _ _

theorem ingestEntry_leaves {γ : Type} {g : Store D → γ} (h : EntryFrame g) (env : Env D)
    (org : String) (report : AccountReport) (reportId : ℕ) (entry : AccountEntry) :
    Session.Leaves g (ingestEntry env org report reportId entry) := by
  refine .of_keeps fun v => ?_
  apply ingestEntry_invariant
  · exact fun t rows ht => (h.entries t rows).trans ht
  · exact fun t rows ht => (h.reconciliations t rows).trans ht
  · exact fun t rows ht => (h.events t rows).trans ht
  · exact fun e identityHash classification =>
      (ensureCase_leaves h.cases org e identityHash classification).keeps (· = v)

/-- An account report keeps what each of its entries keeps and what opening a report keeps. -/
theorem ingestAccountReport_invariant {I : Store D → Prop} {org : String} {env : Env D}
    (hreports : ∀ s rows, I s → I { s with accountReports := rows })
    (hbalances : ∀ s rows, I s → I { s with accountBalances := rows })
    (hentry : ∀ report reportId entry,
      Session.Keeps I (ingestEntry env org report reportId entry))
    (reports : List AccountReport) (iso : Option ℕ) :
    Session.Keeps I (ingestAccountReport env org reports iso) := by
  have hopen : ∀ report, Session.Keeps I (openReport org iso report : Service D ℕ) := by
    intro report
    refine .bind (.transact fun s a s' hs h => ?_) fun reportId =>
      .bind (.ite (.pure _) (.commit fun s hs => hbalances s _ hs)) fun _ => .pure _
    cases h
    exact hreports s _ hs
  exact Session.Triple.each fun report _ => .bind (hopen report) fun reportId =>
    Session.Triple.each fun entry _ => hentry report reportId entry

theorem ingestAccountReport_leaves {γ : Type} {g : Store D → γ} (h : EntryFrame g)
    (hreports : ∀ s rows, g { s with accountReports := rows } = g s)
    (hbalances : ∀ s rows, g { s with accountBalances := rows } = g s)
    (env : Env D) (org : String) (reports : List AccountReport) (iso : Option ℕ) :
    Session.Leaves g (ingestAccountReport env org reports iso) := by
  refine .of_keeps fun v => ?_
  apply ingestAccountReport_invariant
  · exact fun t rows ht => (hreports t rows).trans ht
  · exact fun t rows ht => (hbalances t rows).trans ht
  · exact fun report reportId entry =>
      (ingestEntry_leaves h env org report reportId entry).keeps (· = v)

end AccountService

/-! ## Runs of ingestions -/

/-- A call of `ingest_account_report`. -/
structure Ingestion where
  org : String
  reports : List AccountReport
  isoMessageId : Option ℕ := none

section

variable (env : Env D)

/-- The ingestion as a session. -/
def ingest (i : Ingestion) : Service D Unit :=
  ingestAccountReport env i.org i.reports i.isoMessageId

/-- The entry steps of one report. -/
def reportSteps (org : String) (iso : Option ℕ) (report : AccountReport) (s : Store D) :
    List (EntryStep D) :=
  match ((openReport org iso report).run s).outcome with
  | .error _ => []
  | .ok reportId =>
    (Session.visited (ingestEntry env org report reportId) report.entries
      (((openReport org iso report).run s).final s)).map fun v =>
        ⟨org, report, reportId, v.1, v.2⟩

/-- The entry steps of one call. -/
def callSteps (i : Ingestion) (s : Store D) : List (EntryStep D) :=
  (Session.visited (ingestReport env i.org i.isoMessageId) i.reports s).flatMap fun v =>
    reportSteps env i.org i.isoMessageId v.1 v.2

/-- The entry steps of a run, in order. -/
def runSteps (run : List Ingestion) (s : Store D) : List (EntryStep D) :=
  (Session.calls (ingest env) run s).flatMap fun c => callSteps env c.1 c.2

/-- The stores committed in a run. -/
def runStores (run : List Ingestion) (s : Store D) : List (Store D) :=
  Session.stores (ingest env) run s

end

section

variable {env : Env D} {I : Store D → Prop} {s : Store D}

theorem mem_callSteps {i : Ingestion} {st : EntryStep D} :
    st ∈ callSteps env i s ↔
      ∃ v ∈ Session.visited (ingestReport env i.org i.isoMessageId) i.reports s,
        st ∈ reportSteps env i.org i.isoMessageId v.1 v.2 :=
  List.mem_flatMap

theorem mem_runSteps {run : List Ingestion} {st : EntryStep D} :
    st ∈ runSteps env run s ↔
      ∃ c ∈ Session.calls (ingest env) run s, st ∈ callSteps env c.1 c.2 :=
  List.mem_flatMap

/-- A report is opened, then its entries follow. -/
theorem ingestReport_run {org : String} {iso : Option ℕ} {report : AccountReport}
    {reportId : ℕ} (ho : ((openReport org iso report).run s).outcome = .ok reportId) :
    ((ingestReport env org iso report).run s).commits =
        ((openReport org iso report).run s).commits ++
          ((Session.each (ingestEntry env org report reportId) report.entries).run
            (((openReport org iso report).run s).final s)).commits ∧
      ((ingestReport env org iso report).run s).final s =
        ((Session.each (ingestEntry env org report reportId) report.entries).run
          (((openReport org iso report).run s).final s)).final
            (((openReport org iso report).run s).final s) := by
  unfold ingestReport
  rw [Session.bind_final ho, Session.bind_ok ho]
  exact ⟨rfl, rfl⟩

/-- What is handed on when a report is opened and from step to step holds where each step starts
and where the report ends. -/
theorem ingestReport_starts {org : String} {iso : Option ℕ} {report : AccountReport} (hs : I s)
    (hopen : I s → I (((openReport org iso report).run s).final s))
    (h : ∀ st ∈ reportSteps env org iso report s, I st.before → I (st.after env)) :
    (∀ st ∈ reportSteps env org iso report s, I st.before) ∧
      I (((ingestReport env org iso report).run s).final s) := by
  unfold reportSteps at h ⊢
  rcases ho : ((openReport org iso report).run s).outcome with e | reportId
  · unfold ingestReport
    rw [Session.bind_final_error ho]
    exact ⟨by simp, hopen hs⟩
  · rw [ho] at h
    rw [(ingestReport_run ho).2]
    obtain ⟨hv, hend⟩ := Session.each_final_of_visited (hopen hs) fun v hv hI =>
      h _ (List.mem_map_of_mem hv) hI
    refine ⟨fun st hst => ?_, hend⟩
    obtain ⟨v, hvm, rfl⟩ := List.mem_map.mp hst
    exact hv v hvm

/-- What is handed on when a report is opened and from step to step holds where each step of a run
starts and where each call ends. -/
theorem run_starts {run : List Ingestion} (hs : I s)
    (hopen : ∀ org iso report t, I t → I (((openReport org iso report).run t).final t))
    (h : ∀ st ∈ runSteps env run s, I st.before → I (st.after env)) :
    (∀ st ∈ runSteps env run s, I st.before) ∧
      ∀ c ∈ Session.calls (ingest env) run s, I (((ingest env c.1).run c.2).final c.2) := by
  have hcall : ∀ c ∈ Session.calls (ingest env) run s, I c.2 →
      (∀ st ∈ callSteps env c.1 c.2, I st.before) ∧ I (((ingest env c.1).run c.2).final c.2) := by
    intro c hc hI
    have hreport : ∀ v ∈
        Session.visited (ingestReport env c.1.org c.1.isoMessageId) c.1.reports c.2,
        I v.2 → (∀ st ∈ reportSteps env c.1.org c.1.isoMessageId v.1 v.2, I st.before) ∧
          I (((ingestReport env c.1.org c.1.isoMessageId v.1).run v.2).final v.2) := fun v hv hI =>
      ingestReport_starts hI (hopen _ _ _ _) fun st hst =>
        h st (mem_runSteps.mpr ⟨c, hc, mem_callSteps.mpr ⟨v, hv, hst⟩⟩)
    obtain ⟨hv, hend⟩ := Session.each_final_of_visited hI fun v hv hI => (hreport v hv hI).2
    refine ⟨fun st hst => ?_, hend⟩
    obtain ⟨v, hvm, hst⟩ := mem_callSteps.mp hst
    exact (hreport v hvm (hv v hvm)).1 st hst
  have hc := Session.calls_of_final hs fun c hc hI => (hcall c hc hI).2
  refine ⟨fun st hst => ?_, fun c hcm => (hcall c hcm (hc c hcm)).2⟩
  obtain ⟨c, hcm, hst⟩ := mem_runSteps.mp hst
  exact (hcall c hcm (hc c hcm)).1 st hst

theorem ingestReport_commits {org : String} {iso : Option ℕ} {report : AccountReport} (hs : I s)
    (hopen : ∀ c ∈ ((openReport org iso report).run s).commits, I c)
    (h : ∀ st ∈ reportSteps env org iso report s, I st.before → ∀ c ∈ (st.exec env).commits, I c) :
    ∀ c ∈ ((ingestReport env org iso report).run s).commits, I c := by
  unfold reportSteps at h
  rcases ho : ((openReport org iso report).run s).outcome with e | reportId
  · unfold ingestReport
    rw [Session.bind_error ho]
    exact hopen
  · rw [ho] at h
    rw [(ingestReport_run ho).1]
    intro c hc
    rcases List.mem_append.mp hc with hc | hc
    · exact hopen c hc
    · exact (Session.each_commits_of_visited (Session.final_of_commits hs hopen)
        fun v hv hI => h _ (List.mem_map_of_mem hv) hI).2 c hc

/-- What every commit keeps, where a report is opened and in every step, holds in every store that
a run commits. -/
theorem run_commits {run : List Ingestion} (hs : I s)
    (hopen : ∀ org iso report t, I t → ∀ c ∈ ((openReport org iso report).run t).commits, I c)
    (h : ∀ st ∈ runSteps env run s, I st.before → ∀ c ∈ (st.exec env).commits, I c) :
    ∀ t ∈ runStores env run s, I t := by
  refine (Session.stores_of_calls hs fun c hc hI => ?_).2
  refine (Session.each_commits_of_visited hI fun v hv hI => ?_).2
  exact ingestReport_commits hI (hopen _ _ _ _ hI) fun st hst =>
    h st (mem_runSteps.mpr ⟨c, hc, mem_callSteps.mpr ⟨v, hv, hst⟩⟩)

/-- What a step of a run commits, the run commits. -/
theorem mem_runStores_of_step {run : List Ingestion} {st : EntryStep D}
    (hst : st ∈ runSteps env run s) {t : Store D} (ht : t ∈ (st.exec env).commits) :
    t ∈ runStores env run s := by
  obtain ⟨c, hc, hst⟩ := mem_runSteps.mp hst
  obtain ⟨v, hv, hst⟩ := mem_callSteps.mp hst
  refine Session.mem_stores.mpr ⟨c, hc, Session.mem_each_commits.mpr ⟨v, hv, ?_⟩⟩
  unfold reportSteps at hst
  rcases ho : ((openReport c.1.org c.1.isoMessageId v.1).run v.2).outcome with e | reportId
  · rw [ho] at hst
    cases hst
  · rw [ho] at hst
    obtain ⟨w, hw, rfl⟩ := List.mem_map.mp hst
    rw [(ingestReport_run ho).1]
    exact List.mem_append_right _ (Session.mem_each_commits.mpr ⟨w, hw, ht⟩)

end

end PaymentOps
