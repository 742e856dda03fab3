import PaymentOps.Service.ConfirmationChain

/-!
# How often a booking is live

A booking is an entry identity in the reports of one type of an organization.  A repeated entry
should be stored as a duplicate, so that a booking has one live entry.  The lookup returns any
earlier entry with the identity, and an entry of the other type of report makes the new one a
confirmation, whether or not an entry of its own type is live already.

* `LiveUnique`: no booking has two live entries;
* `liveUnique_iff`: every store that a run commits is such, exactly when no step confirms an entry
  of the other type while its booking is live;
* `booked_twice` is a run of three messages that books an entry twice.
-/

namespace PaymentOps

open AccountService

variable {D : Type}

/-- The entry counts: it has a status, and it is no duplicate. -/
def AccountEntryRow.Live (row : AccountEntryRow) : Prop :=
  ∃ status ∈ row.reconciliationStatus, status ≠ .duplicateAccountEntry

instance (row : AccountEntryRow) : Decidable row.Live :=
  inferInstanceAs (Decidable (∃ _ ∈ _, _))

/-- The entries have the same organization, identity and type of report. -/
def SameBooking (type : ℕ → Option AccountReportType) (row row' : AccountEntryRow) : Prop :=
  row.organizationId = row'.organizationId ∧ row.identityHash = row'.identityHash ∧
    type row.reportId = type row'.reportId

instance (type : ℕ → Option AccountReportType) (row row' : AccountEntryRow) :
    Decidable (SameBooking type row row') :=
  inferInstanceAs (Decidable (_ ∧ _ ∧ _))

/-- No booking has two live entries. -/
def LiveUnique (type : ℕ → Option AccountReportType) (entries : List AccountEntryRow) : Prop :=
  entries.Pairwise fun row row' => row.Live → row'.Live → ¬ SameBooking type row row'

instance (type : ℕ → Option AccountReportType) (entries : List AccountEntryRow) :
    Decidable (LiveUnique type entries) :=
  inferInstanceAs (Decidable (List.Pairwise _ _))

namespace LiveUnique

variable {type type' : ℕ → Option AccountReportType} {entries : List AccountEntryRow}
  {row : AccountEntryRow}

/-- A new entry may be live when its booking is not. -/
theorem append_iff :
    LiveUnique type (entries ++ [row]) ↔ LiveUnique type entries ∧
      (row.Live → ∀ r ∈ entries, r.Live → ¬ SameBooking type r row) := by
  unfold LiveUnique
  rw [List.pairwise_append]
  constructor
  · rintro ⟨h, -, hrow⟩
    exact ⟨h, fun hlive r hr hlive' => hrow r hr row List.mem_cons_self hlive' hlive⟩
  · rintro ⟨h, hrow⟩
    refine ⟨h, List.pairwise_singleton _ _, fun r hr r' hr' hlive hlive' => ?_⟩
    rw [List.mem_singleton.mp hr'] at hlive' ⊢
    exact hrow hlive' r hr hlive

theorem congr (h : LiveUnique type entries)
    (htype : ∀ r ∈ entries, type' r.reportId = type r.reportId) : LiveUnique type' entries := by
  refine List.Pairwise.imp_of_mem (fun {r r'} hr hr' hne hlive hlive' hsame => ?_) h
  refine hne hlive hlive' ⟨hsame.1, hsame.2.1, ?_⟩
  rw [← htype r hr, ← htype r' hr']
  exact hsame.2.2

end LiveUnique

/-- No booking of the store has two live entries. -/
def Store.LiveUnique (s : Store D) : Prop :=
  PaymentOps.LiveUnique (reportTypeOf s) s.accountEntries

instance (s : Store D) : Decidable s.LiveUnique :=
  inferInstanceAs (Decidable (PaymentOps.LiveUnique _ _))

/-! ## Reports -/

/-- A report is opened under the next key. -/
theorem openReport_reports (org : String) (iso : Option ℕ) (report : AccountReport) (s : Store D) :
    ∃ row : AccountReportRow, row.reportType = report.reportType ∧
      ((openReport org iso report).run s).outcome = .ok s.accountReports.length ∧
      (∀ c ∈ ((openReport org iso report).run s).commits,
        c.accountReports = s.accountReports ++ [row]) ∧
      (((openReport org iso report).run s).final s).accountReports = s.accountReports ++ [row] := by
  obtain ⟨row, hrow, -, hrun⟩ := openReport_run (D := D) org report
  obtain ⟨hok, hfinal, hcommits⟩ := hrun iso s
  refine ⟨row iso, (hrow iso).2.1, hok, fun c hc => ?_, ?_⟩
  · obtain ⟨balances, rfl⟩ := hcommits c hc
    rfl
  · rw [hfinal]
    rfl

theorem ingestEntry_reports (env : Env D) (org : String) (report : AccountReport) (reportId : ℕ)
    (entry : AccountEntry) :
    Session.Leaves Store.accountReports (ingestEntry env org report reportId entry) :=
  ingestEntry_leaves ⟨fun _ _ => rfl, fun _ _ => rfl, fun _ _ => rfl, fun _ _ _ => rfl⟩
    env org report reportId entry

/-- The report of a step is stored with its type. -/
theorem reportType_of_step {env : Env D} {run : List Ingestion} {s : Store D} {st : EntryStep D}
    (h : st ∈ runSteps env run s) :
    reportTypeOf st.before st.reportId = some st.report.reportType := by
  obtain ⟨c, -, h⟩ := mem_runSteps.mp h
  obtain ⟨v, -, h⟩ := mem_callSteps.mp h
  obtain ⟨row, hrow, hok, -, hfinal⟩ := openReport_reports c.1.org c.1.isoMessageId v.1 v.2
  unfold reportSteps at h
  rw [hok] at h
  obtain ⟨w, hw, rfl⟩ := List.mem_map.mp h
  -- no entry of the report touches the reports
  have hkept := (Session.each_final_of_visited
    (I := fun t : Store D => t.accountReports = v.2.accountReports ++ [row]) hfinal
    fun w hw hI => ((ingestEntry_reports env _ _ _ w.1).final w.2).trans hI).1 w hw
  simp [reportTypeOf, hkept, hrow]

/-! ## One step -/

namespace EntryStep

variable {env : Env D} {st : EntryStep D}

/-- Where the step confirms an entry of the other type, its own booking has no live entry. -/
def ConfirmsFree (env : Env D) (st : EntryStep D) : Prop :=
  ∀ e ∈ st.existing env, st.repeatStatus e.2 = .reconciled →
    ∀ row ∈ st.before.accountEntries, hasIdentity st.org (st.identityHash env) row → row.Live →
      reportTypeOf st.before row.reportId ≠ some st.report.reportType

instance : Decidable (st.ConfirmsFree env) :=
  inferInstanceAs (Decidable (∀ _ ∈ _, _ → ∀ _ ∈ _, _ → _ → _))

theorem row_not_live : ¬ (st.row env).Live := by
  rintro ⟨status, hstatus, -⟩
  cases hstatus

theorem finalRow_live : (st.finalRow env).Live ↔ st.status env ≠ .duplicateAccountEntry := by
  simp [AccountEntryRow.Live, finalRow_status]

theorem sameBooking_finalRow {type : ℕ → Option AccountReportType}
    (htype : type st.reportId = some st.report.reportType) {row : AccountEntryRow} :
    SameBooking type row (st.finalRow env) ↔
      hasIdentity st.org (st.identityHash env) row ∧
        type row.reportId = some st.report.reportType := by
  obtain ⟨horg, hhash, hreport⟩ : (st.finalRow env).organizationId = st.org ∧ _ :=
    finalRow_booking
  rw [SameBooking, horg, hhash, hreport, htype, hasIdentity_iff, and_assoc]

/-- The row of the step repeats no live entry exactly when the step confirms a free booking. -/
theorem confirmsFree_iff
    (htype : reportTypeOf st.before st.reportId = some st.report.reportType) :
    st.ConfirmsFree env ↔ ((st.finalRow env).Live → ∀ r ∈ st.before.accountEntries, r.Live →
      ¬ SameBooking (reportTypeOf st.before) r (st.finalRow env)) := by
  constructor
  · intro h hlive r hr hlive' hsame
    obtain ⟨hid, hrtype⟩ := (sameBooking_finalRow htype).mp hsame
    obtain ⟨i, hi⟩ := List.getElem?_of_mem hr
    obtain ⟨j, e, he⟩ := RowOrder.exists_first (o := env.entryOrder) (s := st.before) hi hid
    have hstatus : st.status env = st.repeatStatus e := by
      unfold status
      rw [show st.existing env = some (j, e) from he]
    rcases repeatStatus_eq st e with hdup | hrec
    · exact finalRow_live.mp hlive (hstatus.trans hdup)
    · exact h (j, e) he hrec r hr hid hlive' hrtype
  · intro h e he hrec r hr hid hlive hrtype
    have hstatus : st.status env = .reconciled := by
      unfold status
      rw [Option.mem_def.mp he, ← hrec]
    refine h (finalRow_live.mpr ?_) r hr hlive ((sameBooking_finalRow htype).mpr ⟨hid, hrtype⟩)
    rw [hstatus]
    decide

end EntryStep

/-! ## Runs -/

/-- The entries refer to stored reports, and no booking has two live entries. -/
structure Store.Booked (s : Store D) : Prop where
  reports : ∀ r ∈ s.accountEntries, r.reportId < s.accountReports.length
  unique : s.LiveUnique

theorem reportTypeOf_append {s t : Store D} {row : AccountReportRow}
    (h : t.accountReports = s.accountReports ++ [row]) {id : ℕ}
    (hid : id < s.accountReports.length) :
    reportTypeOf t id = reportTypeOf s id := by
  rw [reportTypeOf, reportTypeOf, h, List.getElem?_append_left hid]

theorem reportTypeOf_congr {s t : Store D} (h : t.accountReports = s.accountReports) :
    reportTypeOf t = reportTypeOf s := by
  funext id
  rw [reportTypeOf, reportTypeOf, h]

namespace Store.Booked

variable {s t : Store D}

/-- A new report leaves the bookings as they are. -/
theorem withReport (h : s.Booked) {row : AccountReportRow}
    (hreports : t.accountReports = s.accountReports ++ [row])
    (hentries : t.accountEntries = s.accountEntries) : t.Booked := by
  constructor
  · intro r hr
    rw [hentries] at hr
    have hlt := h.reports r hr
    rw [hreports, List.length_append]
    omega
  · unfold LiveUnique
    rw [hentries]
    exact h.unique.congr fun r hr => reportTypeOf_append hreports (h.reports r hr)

theorem withEntry (h : s.Booked) {row : AccountEntryRow}
    (hreports : t.accountReports = s.accountReports)
    (hentries : t.accountEntries = s.accountEntries ++ [row])
    (hid : row.reportId < s.accountReports.length)
    (hrow : row.Live → ∀ r ∈ s.accountEntries, r.Live →
      ¬ SameBooking (reportTypeOf s) r row) : t.Booked := by
  constructor
  · intro r hr
    rw [hreports]
    rw [hentries] at hr
    rcases List.mem_append.mp hr with hr | hr
    · exact h.reports r hr
    · rwa [List.mem_singleton.mp hr]
  · unfold LiveUnique
    rw [hentries, reportTypeOf_congr hreports]
    exact LiveUnique.append_iff.mpr ⟨h.unique, hrow⟩

end Store.Booked

theorem lt_of_reportTypeOf {s : Store D} {id : ℕ} {type : AccountReportType}
    (h : reportTypeOf s id = some type) : id < s.accountReports.length := by
  obtain ⟨row, hrow, -⟩ := Option.map_eq_some_iff.mp h
  exact (List.getElem?_eq_some_iff.mp hrow).1

/-- Every store that a run commits has at most one live entry for each booking, exactly when each
step that confirms an entry of the other type of report finds no live entry of its own booking. -/
theorem liveUnique_iff (env : Env D) (run : List Ingestion) (s : Store D)
    (hs : s.accountEntries = []) :
    (∀ t ∈ runStores env run s, t.LiveUnique) ↔
      ∀ st ∈ runSteps env run s, st.ConfirmsFree env := by
  constructor
  · intro h st hst
    have hreports : (st.after env).accountReports = st.before.accountReports :=
      (ingestEntry_reports env _ _ _ _).final _
    have hunique := h _ (mem_runStores_of_step hst EntryStep.after_mem)
    unfold Store.LiveUnique at hunique
    rw [EntryStep.after_entries, reportTypeOf_congr hreports, LiveUnique.append_iff] at hunique
    exact (EntryStep.confirmsFree_iff (reportType_of_step hst)).mpr hunique.2
  · intro h
    have h0 : s.Booked := by
      constructor
      · simp [hs]
      · unfold Store.LiveUnique
        rw [hs]
        exact List.Pairwise.nil
    intro t ht
    refine (run_commits h0 ?_ ?_ t ht : t.Booked).unique
    · intro org iso report u hu c hc
      obtain ⟨row, -, -, hreports, -⟩ := openReport_reports org iso report u
      exact hu.withReport (hreports c hc) (openReport_entries org iso report u c hc)
    · intro st hst hI c hc
      have htype := reportType_of_step hst
      have hreports : c.accountReports = st.before.accountReports :=
        ingestEntry_reports env _ _ _ _ st.before c hc
      rcases EntryStep.exec_commits c hc with hentries | hentries
      · exact hI.withEntry hreports hentries (lt_of_reportTypeOf htype) fun hlive =>
          absurd hlive EntryStep.row_not_live
      · refine hI.withEntry hreports hentries ?_ ((EntryStep.confirmsFree_iff htype).mp (h st hst))
        rw [EntryStep.finalRow_booking.2.2]
        exact lt_of_reportTypeOf htype

/-! ## Three messages -/

/-- The ingestion of one report. -/
def sampleIngestion (type : AccountReportType) : Ingestion := ⟨"org", [sampleReport type], none⟩

/-- The notification of an entry, and the statement that contains it, twice. -/
def sampleRepeated : List Ingestion :=
  [sampleIngestion .notification, sampleIngestion .statement, sampleIngestion .statement]

theorem liveUnique_sample :
    (∀ st ∈ runSteps (.insertion .structural) sampleIngestions ({} : Store Digest),
      st.ConfirmsFree (.insertion .structural)) ∧
    ∀ t ∈ runStores (.insertion .structural) sampleIngestions ({} : Store Digest),
      t.LiveUnique := by
  have hfree : ∀ st ∈ runSteps (.insertion .structural) sampleIngestions ({} : Store Digest),
      st.ConfirmsFree (.insertion .structural) := by
    decide +kernel
  exact ⟨hfree, (liveUnique_iff _ sampleIngestions {} rfl).mpr hfree⟩

/-- The second statement confirms the notification once more: the booking has two live entries. -/
theorem booked_twice :
    ∃ t ∈ runStores (.insertion .structural) sampleRepeated ({} : Store Digest),
      ¬ t.LiveUnique := by
  decide +kernel

end PaymentOps
