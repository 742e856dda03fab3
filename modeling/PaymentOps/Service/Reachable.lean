import PaymentOps.Service.IsoSteps
import PaymentOps.Service.Views

/-!
# Reachable stores

A store is reachable when some ingestions leave it, of account reports or of ISO messages, whether
or not the last one got past the commit.

* `eventView_eventRow`: what an organization sees of the events that its messages leave;
* `ingestEntry_keeps` and `ingestAccountReport_keeps`: an account report keeps what is known of the
  rows that other rows refer to, commit by commit;
* `Reachable.owned`: what the rows of a reachable store refer to is there.
-/

namespace PaymentOps

open AccountService

variable {D : Type}

/-! ## Events of ISO messages -/

/-- The organization sees the rank of the message that left an event, and not its key, which counts
the messages of others as well. -/
theorem eventView_eventRow (org : String) (s : Store D) (result : IsoAnalysisResult D)
    (isoId : ℕ) (messageHash : D) (lifecycleId : ℕ) (evidence : List String) :
    eventView org s (IsoAnalysis.eventRow org result isoId messageHash lifecycleId evidence) =
      IsoAnalysis.eventRow org result (isoRank org s isoId) messageHash
        (lifecycleRank org s lifecycleId) evidence := by
  simp only [eventView, IsoAnalysis.eventRow, Option.isSome_some, if_true, Option.map_some,
    Text.int_toString, Option.elim_some, Int.toNat_natCast]

/-! ## References -/

/-- What the entries of a report rely on while the report is ingested. -/
def ReportOpen (org : String) (reportId : ℕ) (s : Store D) : Prop :=
  s.Owned ∧ s.HasReport org reportId

/-- The same, once the entry under the key is added. -/
def EntryAdded (org : String) (reportId entryId : ℕ) (s : Store D) : Prop :=
  ReportOpen org reportId s ∧ entryId < s.accountEntries.length

section

variable {org : String} {reportId entryId : ℕ}

/-- An update keeps the fields by which an entry refers to its report. -/
theorem updateEntry_keeps {f : AccountEntryRow → AccountEntryRow}
    (horg : ∀ row, (f row).organizationId = row.organizationId)
    (hreport : ∀ row, (f row).reportId = row.reportId) (id : ℕ) :
    Session.Keeps (EntryAdded org reportId entryId) (Store.updateEntry id f : Service D Unit) := by
  refine .commit fun s hs => ?_
  obtain ⟨⟨howned, hfound⟩, hlt⟩ := hs
  have hlength : (s.accountEntries.modify id f).length = s.accountEntries.length :=
    List.length_modify _ _ _
  refine ⟨⟨⟨?_, howned.balances, ?_, ?_⟩, hfound⟩, ?_⟩
  · intro e he
    obtain ⟨i, hi⟩ := List.getElem?_of_mem he
    rw [List.getElem?_modify] at hi
    obtain ⟨row, hrow, rfl⟩ := Option.map_eq_some_iff.mp hi
    have hmem := howned.entries row (List.mem_of_getElem? hrow)
    split_ifs
    · rw [horg, hreport]
      exact hmem
    · exact hmem
  · intro r hr
    show r.accountEntryId < (s.accountEntries.modify id f).length
    rw [hlength]
    exact howned.reconciliations r hr
  · intro a ha
    show a.entryId < (s.accountEntries.modify id f).length
    rw [hlength]
    exact howned.audits a ha
  · show entryId < (s.accountEntries.modify id f).length
    rw [hlength]
    exact hlt

theorem persistReconciliation_keeps (l : Option ℕ) (c : AccountReconciliationStatus) (score : ℚ)
    (evidence conflicts : List String) :
    Session.Keeps (EntryAdded org reportId entryId)
      (persistReconciliation org entryId l c score evidence conflicts : Service D Unit) := by
  refine .commit fun s hs => ?_
  obtain ⟨⟨howned, hfound⟩, hlt⟩ := hs
  refine ⟨⟨⟨howned.entries, howned.balances, fun r hr => ?_, howned.audits⟩, hfound⟩, hlt⟩
  rcases List.mem_append.mp hr with hr | hr
  · exact howned.reconciliations r hr
  · rw [List.mem_singleton.mp hr]
    exact hlt

theorem addLifecycleEvent_keeps (l : ℕ) (entry : AccountEntry) (report : AccountReport)
    (eventType : String) :
    Session.Keeps (EntryAdded org reportId entryId)
      (addLifecycleEvent org l entry report eventType : Service D Unit) :=
  .commit fun _ hs => ⟨⟨hs.1.1.congr rfl rfl rfl rfl rfl, hs.1.2⟩, hs.2⟩

theorem ensureCase_keeps (identityHash classification : String) :
    Session.Keeps (EntryAdded org reportId entryId)
      (ensureCase org entryId identityHash classification : Service D Unit) := by
  rw [ensureCase_eq]
  apply ensureWith_invariant
  rintro s ⟨⟨howned, hfound⟩, hlt⟩ -
  exact ⟨⟨howned.withCase org hlt identityHash classification, hfound⟩, hlt⟩

theorem reconcileAndPersist_keeps (env : Env D) (identityHash : String) (entry : AccountEntry)
    (report : AccountReport) (lifecycle : Option (ℕ × PaymentLifecycleRow)) :
    Session.Keeps (EntryAdded org reportId entryId)
      (reconcileAndPersist env org entryId identityHash entry report lifecycle) := by
  rcases lifecycle with _ | ⟨id, row⟩
  · refine .bind (updateEntry_keeps ?_ ?_ _) fun _ => persistReconciliation_keeps _ _ _ _ _
    · exact fun _ => rfl
    · exact fun _ => rfl
  · refine .bind (updateEntry_keeps ?_ ?_ _) fun _ =>
      .bind (persistReconciliation_keeps _ _ _ _ _) fun _ =>
      .bind (addLifecycleEvent_keeps _ _ _ _) fun _ => .ite (ensureCase_keeps _ _) (.pure _)
    · exact fun _ => rfl
    · exact fun _ => rfl

end

/-- An entry keeps the references of its report, commit by commit. -/
theorem ingestEntry_keeps (env : Env D) (org : String) (report : AccountReport) (reportId : ℕ)
    (entry : AccountEntry) :
    Session.Keeps (ReportOpen org reportId) (ingestEntry env org report reportId entry) := by
  refine .bind (.read _) fun existing => .bind (.read _) fun store =>
    Session.Triple.bind (Q := fun entryId => EntryAdded org reportId entryId) (.transact ?_)
      fun entryId => ?_
  · intro s a s' hs h
    cases h
    have hadded : ReportOpen org reportId
        (s.withEntries [entryToRow org entry reportId (env.hash.identity entry.identityText)]
          [] []) :=
      ⟨hs.1.withEntries hs.2 (by simp), hs.2⟩
    have heq : ∀ row : AccountEntryRow, s.withEntries [row] [] [] =
        { s with accountEntries := s.accountEntries ++ [row] } := by
      intro row
      simp [Store.withEntries]
    rw [heq] at hadded
    refine ⟨hadded, hadded, ?_⟩
    show s.accountEntries.length < (s.accountEntries ++ [_]).length
    rw [List.length_append, List.length_singleton]
    omega
  · -- from here on the entry is there, which is more than the report needs
    refine Session.Triple.conseq (P := EntryAdded org reportId entryId)
      (C := EntryAdded org reportId entryId) (Q := fun _ => EntryAdded org reportId entryId)
      ?_ (fun _ hs => hs) (fun _ hs => hs.1) fun _ _ hs => hs.1
    rcases existing with _ | ⟨i, e⟩
    · exact Session.Keeps.bind (.read _) fun lifecycle =>
        reconcileAndPersist_keeps env _ entry report lifecycle
    · refine Session.Keeps.bind (updateEntry_keeps ?_ ?_ _) fun _ =>
        .ite ?_ (ensureCase_keeps _ _)
      · exact fun _ => rfl
      · exact fun _ => rfl
      · cases e.lifecycleId with
        | none => exact .pure _
        | some l => exact addLifecycleEvent_keeps _ _ _ _

theorem persistBalances_keeps (org : String) (report : AccountReport) (reportId : ℕ) :
    Session.Keeps (ReportOpen org reportId)
      (persistBalances org report reportId : Service D Unit) := by
  refine .ite (.pure _) (.commit fun s hs => ?_)
  obtain ⟨howned, hfound⟩ := hs
  obtain ⟨row, hrow, horg⟩ := hfound
  have hlt := (List.getElem?_eq_some_iff.mp hrow).1
  refine ⟨⟨howned.entries, fun b hb => ?_, howned.reconciliations, howned.audits⟩, row, hrow, horg⟩
  rcases List.mem_append.mp hb with hb | hb
  · exact howned.balances b hb
  · obtain ⟨bal, -, rfl⟩ := List.mem_map.mp hb
    exact hlt

/-- A report is opened, with balances that refer to it. -/
theorem openReport_owned (org : String) (iso : Option ℕ) (report : AccountReport) :
    Session.Triple Store.Owned (openReport org iso report : Service D ℕ) Store.Owned
      fun reportId => ReportOpen org reportId := by
  refine .bind (Q := fun reportId => ReportOpen org reportId) (.transact ?_) fun reportId => ?_
  · intro s a s' hs h
    cases h
    have hopened : ∀ row : AccountReportRow,
        ({ s with accountReports := s.accountReports ++ [row] } : Store D).Owned := by
      intro row
      have hopened : (s.withReport row []).Owned := hs.withReport row (by simp)
      exact hopened.congr rfl (by simp [Store.withReport]) rfl rfl rfl
    exact ⟨hopened _, hopened _, _, found_withReport s _ [], rfl⟩
  · exact .bind (Session.Triple.conseq (persistBalances_keeps org report reportId)
      (fun _ hs => hs) (fun _ hs => hs.1) fun _ _ hs => hs) fun _ => .pure fun _ hs => hs

/-- The reports of an organization keep the references of the store, commit by commit. -/
theorem ingestAccountReport_keeps (env : Env D) (org : String) (reports : List AccountReport)
    (iso : Option ℕ) : Session.Keeps Store.Owned (ingestAccountReport env org reports iso) := by
  refine Session.Triple.each fun report _ => .bind (openReport_owned org iso report)
    fun reportId => ?_
  refine Session.Triple.conseq (P := ReportOpen org reportId) (C := ReportOpen org reportId)
    (Q := fun _ => ReportOpen org reportId) (Session.Triple.each fun entry _ => ?_)
    (fun _ hs => hs) (fun _ hs => hs.1) fun _ _ hs => hs.1
  exact ingestEntry_keeps env org report reportId entry

/-! ## Runs -/

section

variable [DecidableEq D]

/-- An ISO message leaves the account tables as they are, or ingests its reports. -/
theorem analyzeIsoMessage_keeps (env : Env D) (org : String) (pipeline : AnalysisPipeline)
    (payload : List UInt8) (clock : Instant) : Session.Keeps Store.Owned
      (IsoAnalysis.analyzeIsoMessage env org pipeline payload clock) := by
  have hframe : ∀ (s : Store D) messages lifecycles events,
      ({ s with isoMessages := messages, lifecycles := lifecycles, lifecycleEvents := events } :
        Store D).Owned = s.Owned := by
    intro s messages lifecycles events
    exact propext ⟨fun h => h.congr rfl rfl rfl rfl rfl, fun h => h.congr rfl rfl rfl rfl rfl⟩
  apply IsoAnalysis.analyzeIsoMessage_invariant
  · exact fun s rows hs => (hframe s rows _ _).mpr hs
  · exact fun result _ isoId messageHash =>
      (IsoAnalysis.correlateAndBuildLifecycle_leaves (fun s rows => hframe s _ rows _)
        (fun s rows => hframe s _ _ rows) env org result isoId messageHash clock).keeps id
  · exact fun reports iso => ingestAccountReport_keeps env org reports iso

/-- The stores that ingestions commit, one after the other, with or without an interruption. -/
inductive Reachable (env : Env D) : Store D → Prop
  | empty : Reachable env {}
  | account (i : Ingestion) {s t : Store D} (h : Reachable env s)
      (ht : t ∈ ((ingest env i).run s).commits) : Reachable env t
  | message (org : String) (pipeline : AnalysisPipeline) (payload : List UInt8) (clock : Instant)
      {s t : Store D} (h : Reachable env s)
      (ht : t ∈ ((IsoAnalysis.analyzeIsoMessage env org pipeline payload clock).run s).commits) :
      Reachable env t

variable {env : Env D} {s : Store D}

/-- The store where an ingestion ends is reachable. -/
theorem Reachable.ingest (h : Reachable env s) (i : Ingestion) :
    Reachable env (((PaymentOps.ingest env i).run s).final s) :=
  Session.final_of_commits h fun _ hc => .account i h hc

/-- What the rows of a reachable store refer to is there. -/
theorem Reachable.owned (h : Reachable env s) : s.Owned := by
  induction h with
  | empty => exact ⟨by simp, by simp, by simp, by simp⟩
  | account i _ ht ih =>
    exact (ingestAccountReport_keeps env i.org i.reports i.isoMessageId _ ih).1 _ ht
  | message org pipeline payload clock _ ht ih =>
    exact (analyzeIsoMessage_keeps env org pipeline payload clock _ ih).1 _ ht

end

end PaymentOps
