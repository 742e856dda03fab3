import PaymentOps.Lib.Ownership
import PaymentOps.Service.LiveEntries

/-!
# The rows of one organization

`Store.view` is the store that an organization would see if the tables were its own: its rows only,
with keys renumbered.

* `Store.Owned`: what the rows of a store refer to is there, and the report of an entry is that of
  its organization;
* `Env.Local`: the database answers the queries of an organization alike in stores with the same
  view, as `Env.insertion` does;
* `view_withReport`, `view_withEntries` and `view_withCase`: the view of a store that grew is the
  view of the store, grown;
* `Twins.settled`: steps that start in stores with the same view settle their entries alike.
-/

namespace PaymentOps

open AccountService

attribute [ext] Store

variable {D : Type}

section

variable (org : String) (s : Store D)

/-- The number of messages of the organization that were stored before. -/
def isoRank (id : ℕ) : ℕ := rank (·.organizationId == org) s.isoMessages id

/-- The number of lifecycles of the organization that were opened before. -/
def lifecycleRank (id : ℕ) : ℕ := rank (·.organizationId == org) s.lifecycles id

/-- The number of reports of the organization that were stored before. -/
def reportRank (id : ℕ) : ℕ := rank (·.organizationId == org) s.accountReports id

/-- The number of entries of the organization that were stored before. -/
def entryRank (id : ℕ) : ℕ := rank (·.organizationId == org) s.accountEntries id

/-- An entry with the keys of its report and its lifecycle renumbered. -/
def entryView (row : AccountEntryRow) : AccountEntryRow :=
  { row with
    reportId := reportRank org s row.reportId
    lifecycleId := row.lifecycleId.map (lifecycleRank org s) }

/-- A reconciliation with the keys of its entry and its lifecycle renumbered. -/
def reconciliationView (row : AccountReconciliationRow) : AccountReconciliationRow :=
  { row with
    accountEntryId := entryRank org s row.accountEntryId
    lifecycleId := row.lifecycleId.map (lifecycleRank org s) }

/-- An event of an ISO message, which has a source hash, holds the key of the message as a text; an
event of an account report holds the message id of the entry. -/
def eventView (row : PaymentLifecycleEventRow D) : PaymentLifecycleEventRow D :=
  { row with
    lifecycleId := lifecycleRank org s row.lifecycleId
    messageId :=
      if row.sourceHash.isSome then
        row.messageId.map fun key =>
          (Text.int .ascii key).elim key fun id => toString (isoRank org s id.toNat)
      else row.messageId }

/-- A report with the key of its message renumbered. -/
def reportView (row : AccountReportRow) : AccountReportRow :=
  { row with isoMessageId := row.isoMessageId.map (isoRank org s) }

/-- A balance with the key of its report renumbered. -/
def balanceView (row : AccountBalanceRow) : AccountBalanceRow :=
  { row with reportId := reportRank org s row.reportId }

/-- An audit event with the key of its entry renumbered. -/
def auditView (row : AuditEvent) : AuditEvent :=
  { row with entryId := entryRank org s row.entryId }

/-- The store as the organization sees it. -/
def Store.view : Store D where
  isoMessages := s.isoMessages.filter (·.organizationId == org)
  lifecycles := s.lifecycles.filter (·.organizationId == org)
  lifecycleEvents := (s.lifecycleEvents.filter (·.organizationId == org)).map (eventView org s)
  accountReports := (s.accountReports.filter (·.organizationId == org)).map (reportView org s)
  accountBalances := (s.accountBalances.filter (·.organizationId == org)).map (balanceView org s)
  accountEntries := (s.accountEntries.filter (·.organizationId == org)).map (entryView org s)
  accountReconciliations :=
    (s.accountReconciliations.filter (·.organizationId == org)).map (reconciliationView org s)
  cases := s.cases.filter (·.organizationId == some org)
  auditEvents := (s.auditEvents.filter (·.organizationId == org)).map (auditView org s)

end

/-- The report of the organization is stored under the key. -/
def Store.HasReport (s : Store D) (org : String) (reportId : ℕ) : Prop :=
  ∃ r, s.accountReports[reportId]? = some r ∧ r.organizationId = org

/-- What the rows of the store refer to is stored, the report of an entry for its organization. -/
structure Store.Owned (s : Store D) : Prop where
  entries : ∀ e ∈ s.accountEntries, s.HasReport e.organizationId e.reportId
  balances : ∀ b ∈ s.accountBalances, b.reportId < s.accountReports.length
  reconciliations : ∀ r ∈ s.accountReconciliations, r.accountEntryId < s.accountEntries.length
  audits : ∀ a ∈ s.auditEvents, a.entryId < s.accountEntries.length

/-- In stores with the same view the queries of the organization return the same rows, in the order
of a database that does not look at the rows of others. -/
structure Env.Local (env : Env D) (org : String) : Prop where
  entries : ∀ {s s' : Store D}, s.view org = s'.view org → ∀ identityHash,
    (findEntryByIdentity env org identityHash s).map (fun e => entryView org s e.2) =
      (findEntryByIdentity env org identityHash s').map fun e => entryView org s' e.2
  lifecycles : ∀ {s s' : Store D}, s.view org = s'.view org → ∀ entry,
    (findLifecycleForEntry env org entry s).map (fun l => (lifecycleRank org s l.1, l.2)) =
      (findLifecycleForEntry env org entry s').map fun l => (lifecycleRank org s' l.1, l.2)

/-- Rows in the order of their keys are in an order that does not look at the rows of others. -/
theorem Env.insertion_local (hash : Hashing D) (org : String) :
    (Env.insertion hash).Local org := by
  constructor
  · intro s s' hview identityHash
    have hrow : ∀ s : Store D, (findEntryByIdentity (Env.insertion hash) org identityHash s).map
        (fun e => entryView org s e.2) =
          (s.view org).accountEntries[(s.view org).accountEntries.findIdx
            (hasIdentity org identityHash)]? := by
      intro s
      have hown : ∀ e : AccountEntryRow, hasIdentity org identityHash e → e.organizationId == org :=
        fun e he => by simp [(EntryStep.hasIdentity_iff.mp he).1]
      have hfirst : (findEntryByIdentity (Env.insertion hash) org identityHash s).map
          (fun e => (entryRank org s e.1, e.2)) = _ :=
        RowOrder.insertion_rank hown s
      have hrows := congrArg (Option.map fun r => entryView org s r.2) hfirst
      rw [Option.map_map, Option.map_map] at hrows
      rw [Store.view, List.findIdx_map, List.getElem?_map]
      exact hrows
    rw [hrow, hrow, hview]
  · intro s s' hview entry
    have hown : ∀ l : PaymentLifecycleRow, entryMatches org entry l → l.organizationId == org := by
      intro l hl
      exact (Bool.and_eq_true_iff.mp hl).1
    have hrow : ∀ s : Store D, (findLifecycleForEntry (Env.insertion hash) org entry s).map
        (fun l => (lifecycleRank org s l.1, l.2)) =
          (s.view org).lifecycles[(s.view org).lifecycles.findIdx (entryMatches org entry)]?.map
            ((s.view org).lifecycles.findIdx (entryMatches org entry), ·) :=
      fun s => RowOrder.insertion_rank hown s
    rw [hrow, hrow, hview]

/-! ## Stores that grow -/

section

variable {org : String} {s : Store D}

/-- A store with more entries, reconciliations and events of the organization. -/
def Store.withEntries (s : Store D) (entries : List AccountEntryRow)
    (reconciliations : List AccountReconciliationRow) (events : List (PaymentLifecycleEventRow D)) :
    Store D :=
  { s with
    accountEntries := s.accountEntries ++ entries
    accountReconciliations := s.accountReconciliations ++ reconciliations
    lifecycleEvents := s.lifecycleEvents ++ events }

theorem entryRank_withEntries {id : ℕ} (h : id ≤ s.accountEntries.length)
    (entries : List AccountEntryRow) (reconciliations : List AccountReconciliationRow)
    (events : List (PaymentLifecycleEventRow D)) :
    entryRank org (s.withEntries entries reconciliations events) id = entryRank org s id :=
  rank_append h _

/-- The rows of the organization in a table that grew by its rows. -/
theorem map_filter_append {α β : Type} {f : α → β} {key : α → String} {old new : List α}
    (h : ∀ a ∈ new, key a = org) :
    ((old ++ new).filter (key · == org)).map f =
      (old.filter (key · == org)).map f ++ new.map f := by
  have hnew : new.filter (key · == org) = new :=
    List.filter_eq_self.mpr fun a ha => by simp [h a ha]
  rw [List.filter_append, List.map_append, hnew]

/-- The view of a store that grew is the view of the store, grown. -/
theorem view_withEntries (h : s.Owned) {entries : List AccountEntryRow}
    {reconciliations : List AccountReconciliationRow} {events : List (PaymentLifecycleEventRow D)}
    (hentries : ∀ e ∈ entries, e.organizationId = org)
    (hreconciliations : ∀ r ∈ reconciliations, r.organizationId = org)
    (hevents : ∀ e ∈ events, e.organizationId = org) :
    (s.withEntries entries reconciliations events).view org =
      (s.view org).withEntries (entries.map (entryView org s))
        (reconciliations.map
          (reconciliationView org (s.withEntries entries reconciliations events)))
        (events.map (eventView org s)) := by
  have hold : (s.accountReconciliations.filter (·.organizationId == org)).map
      (reconciliationView org (s.withEntries entries reconciliations events)) =
        (s.accountReconciliations.filter (·.organizationId == org)).map
          (reconciliationView org s) := by
    apply List.map_congr_left
    intro r hr
    have hlt := h.reconciliations r (List.mem_filter.mp hr).1
    unfold reconciliationView
    rw [entryRank_withEntries (Nat.le_of_lt hlt)]
    rfl
  have haudits : (s.auditEvents.filter (·.organizationId == org)).map
      (auditView org (s.withEntries entries reconciliations events)) =
        (s.auditEvents.filter (·.organizationId == org)).map (auditView org s) := by
    apply List.map_congr_left
    intro a ha
    have hlt := h.audits a (List.mem_filter.mp ha).1
    unfold auditView
    rw [entryRank_withEntries (Nat.le_of_lt hlt)]
  apply Store.ext
  case isoMessages | lifecycles | accountReports | accountBalances | cases => rfl
  case lifecycleEvents => exact map_filter_append hevents
  case accountEntries => exact map_filter_append hentries
  case accountReconciliations =>
    exact (map_filter_append hreconciliations).trans (congrArg (· ++ _) hold)
  case auditEvents => exact haudits

/-- The view of a store with one more report. -/
theorem view_withReport (h : s.Owned) {row : AccountReportRow} {balances : List AccountBalanceRow}
    (hrow : row.organizationId = org) (hbalances : ∀ b ∈ balances, b.organizationId = org) :
    (s.withReport row balances).view org =
      (s.view org).withReport (reportView org s row)
        (balances.map (balanceView org (s.withReport row balances))) := by
  have hrank : ∀ id ≤ s.accountReports.length,
      reportRank org (s.withReport row balances) id = reportRank org s id :=
    fun id hid => rank_append hid _
  have hold : (s.accountBalances.filter (·.organizationId == org)).map
      (balanceView org (s.withReport row balances)) =
        (s.accountBalances.filter (·.organizationId == org)).map (balanceView org s) := by
    apply List.map_congr_left
    intro b hb
    have hlt := h.balances b (List.mem_filter.mp hb).1
    unfold balanceView
    rw [hrank _ (Nat.le_of_lt hlt)]
  have hentries : (s.accountEntries.filter (·.organizationId == org)).map
      (entryView org (s.withReport row balances)) =
        (s.accountEntries.filter (·.organizationId == org)).map (entryView org s) := by
    apply List.map_congr_left
    intro e he
    obtain ⟨r, hr, -⟩ := h.entries e (List.mem_filter.mp he).1
    have hlt := (List.getElem?_eq_some_iff.mp hr).1
    unfold entryView
    rw [hrank _ (Nat.le_of_lt hlt)]
    rfl
  apply Store.ext
  case isoMessages | lifecycles | lifecycleEvents | accountReconciliations | cases | auditEvents =>
    rfl
  case accountReports => exact map_filter_append (by simpa using hrow)
  case accountBalances =>
    exact (map_filter_append hbalances).trans (congrArg (· ++ _) hold)
  case accountEntries => exact hentries

/-- The view of a store with one more case. -/
theorem view_withCase (s : Store D) (org : String) (entryId : ℕ)
    (identityHash classification : String) :
    (withCase org entryId identityHash classification s).view org =
      withCase org (entryRank org s entryId) identityHash classification (s.view org) := by
  apply Store.ext
  case isoMessages | lifecycles | lifecycleEvents | accountReports | accountBalances |
      accountEntries | accountReconciliations =>
    rfl
  case cases =>
    have hnew : [exceptionCase org identityHash classification].filter
        (·.organizationId == some org) =
        [exceptionCase org identityHash classification] := by
      simp [exceptionCase]
    exact (List.filter_append _ _).trans (congrArg (_ ++ ·) hnew)
  case auditEvents => exact map_filter_append (by simp)

namespace Store.Owned

variable {t : Store D}

theorem congr (h : s.Owned) (hreports : t.accountReports = s.accountReports)
    (hbalances : t.accountBalances = s.accountBalances)
    (hentries : t.accountEntries = s.accountEntries)
    (hreconciliations : t.accountReconciliations = s.accountReconciliations)
    (haudits : t.auditEvents = s.auditEvents) : t.Owned := by
  constructor
  · unfold HasReport
    rw [hentries, hreports]
    exact h.entries
  · rw [hbalances, hreports]
    exact h.balances
  · rw [hreconciliations, hentries]
    exact h.reconciliations
  · rw [haudits, hentries]
    exact h.audits

theorem withReport (h : s.Owned) (row : AccountReportRow) {balances : List AccountBalanceRow}
    (hbalances : ∀ b ∈ balances, b.reportId = s.accountReports.length) :
    (s.withReport row balances).Owned := by
  constructor
  · intro e he
    obtain ⟨r, hr, horg⟩ := h.entries e he
    have hlt := (List.getElem?_eq_some_iff.mp hr).1
    refine ⟨r, ?_, horg⟩
    show (s.accountReports ++ [row])[e.reportId]? = some r
    rw [List.getElem?_append_left hlt, hr]
  · intro b hb
    show b.reportId < (s.accountReports ++ [row]).length
    rw [List.length_append, List.length_singleton]
    rcases List.mem_append.mp hb with hb | hb
    · have hlt := h.balances b hb
      omega
    · have heq := hbalances b hb
      omega
  · exact h.reconciliations
  · exact h.audits

theorem withEntries (h : s.Owned) {row : AccountEntryRow}
    {reconciliations : List AccountReconciliationRow} {events : List (PaymentLifecycleEventRow D)}
    (hrow : s.HasReport row.organizationId row.reportId)
    (hreconciliations : ∀ r ∈ reconciliations, r.accountEntryId = s.accountEntries.length) :
    (s.withEntries [row] reconciliations events).Owned := by
  have hlength : (s.accountEntries ++ [row]).length = s.accountEntries.length + 1 := by simp
  constructor
  · intro e he
    rcases List.mem_append.mp he with he | he
    · exact h.entries e he
    · rw [List.mem_singleton.mp he]
      exact hrow
  · exact h.balances
  · intro r hr
    show r.accountEntryId < (s.accountEntries ++ [row]).length
    rw [hlength]
    rcases List.mem_append.mp hr with hr | hr
    · have hlt := h.reconciliations r hr
      omega
    · have heq := hreconciliations r hr
      omega
  · intro a ha
    have hlt := h.audits a ha
    show a.entryId < (s.accountEntries ++ [row]).length
    omega

theorem withCase (h : s.Owned) (org : String) {entryId : ℕ}
    (hid : entryId < s.accountEntries.length) (identityHash classification : String) :
    (AccountService.withCase org entryId identityHash classification s).Owned := by
  refine ⟨h.entries, h.balances, h.reconciliations, fun a ha => ?_⟩
  rcases List.mem_append.mp ha with ha | ha
  · exact h.audits a ha
  · rw [List.mem_singleton.mp ha]
    exact hid

end Store.Owned

end

theorem found_withReport (s : Store D) (row : AccountReportRow)
    (balances : List AccountBalanceRow) :
    (s.withReport row balances).accountReports[s.accountReports.length]? = some row := by
  show (s.accountReports ++ [row])[s.accountReports.length]? = some row
  simp

/-! ## Two steps for one entry -/

/-- Two stores with the same view, and the keys of one report of the organization in them. -/
structure Twins (org : String) (reportId reportId' : ℕ) (t t' : Store D) : Prop where
  view : t.view org = t'.view org
  owned : t.Owned
  owned' : t'.Owned
  report : t.HasReport org reportId
  report' : t'.HasReport org reportId'
  rank : reportRank org t reportId = reportRank org t' reportId'

section

variable {env : Env D} {org : String} {t t' : Store D}

/-- The type of a report of the organization, read from its view. -/
theorem reportTypeOf_view {k : ℕ} (h : t.HasReport org k) :
    reportTypeOf t k = (t.view org).accountReports[reportRank org t k]?.map (·.reportType) := by
  obtain ⟨r, hr, horg⟩ := h
  have hrank : (t.accountReports.filter (·.organizationId == org))[reportRank org t k]? = some r :=
    getElem?_rank hr (by simp [horg])
  rw [reportTypeOf, hr, Store.view, List.getElem?_map, hrank]
  rfl

theorem report_eq_iff {k j k' j' : ℕ}
    (hk : t.HasReport org k) (hj : t.HasReport org j)
    (hkk : reportRank org t k = reportRank org t' k')
    (hjj : reportRank org t j = reportRank org t' j') (heq : k' = j') : k = j := by
  obtain ⟨r, hr, horg⟩ := hk
  obtain ⟨r', hr', horg'⟩ := hj
  apply rank_inj hr (p := (·.organizationId == org)) (by simp [horg]) hr' (by simp [horg'])
  exact hkk.trans (heq ▸ hjj.symm)

/-- Entries that look the same to the organization have the same effect on a repeated entry. -/
theorem Twins.duplicateStatus {reportId reportId' : ℕ} (h : Twins org reportId reportId' t t')
    (report : AccountReport) {e e' : AccountEntryRow} (he : e ∈ t.accountEntries)
    (he' : e' ∈ t'.accountEntries) (horg : e.organizationId = org) (horg' : e'.organizationId = org)
    (hview : entryView org t e = entryView org t' e') :
    AccountService.duplicateStatus t report reportId e =
      AccountService.duplicateStatus t' report reportId' e' := by
  have hown := h.owned.entries e he
  have hown' := h.owned'.entries e' he'
  rw [horg] at hown
  rw [horg'] at hown'
  have hrank : reportRank org t e.reportId = reportRank org t' e'.reportId :=
    congrArg AccountEntryRow.reportId hview
  have hsame : e.reportId = reportId ↔ e'.reportId = reportId' :=
    ⟨report_eq_iff hown' h.report' hrank.symm h.rank.symm, report_eq_iff hown h.report hrank h.rank⟩
  have htype : reportTypeOf t e.reportId = reportTypeOf t' e'.reportId := by
    rw [reportTypeOf_view hown, reportTypeOf_view hown', h.view, hrank]
  unfold AccountService.duplicateStatus
  simp only [hsame, htype]

theorem added_eq (st : EntryStep D) (env : Env D) :
    st.added env = st.before.withEntries [st.row env] [] [] := by
  simp [EntryStep.added, Store.withEntries]

variable {reportId reportId' : ℕ} {report : AccountReport} {entry : AccountEntry}
  {st st' : EntryStep D}

theorem eventView_event (t : Store D) (st : EntryStep D) (id : ℕ) (eventType : String) :
    eventView org t (st.event id eventType) =
      { st.event id eventType with lifecycleId := lifecycleRank org t id } := rfl

theorem Twins.view_row (h : Twins org reportId reportId' t t')
    (hst : st = ⟨org, report, reportId, entry, t⟩)
    (hst' : st' = ⟨org, report, reportId', entry, t'⟩) (env : Env D) :
    entryView org t (st.row env) = entryView org t' (st'.row env) := by
  subst hst hst'
  unfold entryView EntryStep.row entryToRow
  rw [show reportRank org t reportId = reportRank org t' reportId' from h.rank]
  rfl

theorem Twins.view_added (h : Twins org reportId reportId' t t')
    (hst : st = ⟨org, report, reportId, entry, t⟩)
    (hst' : st' = ⟨org, report, reportId', entry, t'⟩) (env : Env D) :
    (st.added env).view org = (st'.added env).view org := by
  have hrow := h.view_row hst hst' env
  subst hst hst'
  rw [added_eq, added_eq, view_withEntries h.owned (by simp [EntryStep.row, entryToRow]) (by simp)
    (by simp), view_withEntries h.owned' (by simp [EntryStep.row, entryToRow]) (by simp) (by simp),
    h.view]
  simp only [List.map_cons, List.map_nil, hrow]

/-- What the two steps find: entries that look the same, or no lifecycle, or the same one. -/
theorem Twins.cases (h : Twins org reportId reportId' t t')
    (hst : st = ⟨org, report, reportId, entry, t⟩)
    (hst' : st' = ⟨org, report, reportId', entry, t'⟩) (henv : env.Local org) :
    (∃ i e i' e', st.existing env = some (i, e) ∧ st'.existing env = some (i', e') ∧
        entryView org t e = entryView org t' e' ∧ st.repeatStatus e = st'.repeatStatus e') ∨
      (st.existing env = none ∧ st'.existing env = none ∧
        ((st.lifecycle env = none ∧ st'.lifecycle env = none) ∨
          ∃ id id' l, st.lifecycle env = some (id, l) ∧ st'.lifecycle env = some (id', l) ∧
            lifecycleRank org t id = lifecycleRank org t' id')) := by
  have hadded := h.view_added hst hst' env
  subst hst hst'
  have hentries := henv.entries h.view (env.hash.identity entry.identityText)
  rcases he : EntryStep.existing env ⟨org, report, reportId, entry, t⟩ with _ | ⟨i, e⟩
  · rw [show findEntryByIdentity env org (env.hash.identity entry.identityText) t = none from he]
      at hentries
    have he' : EntryStep.existing env ⟨org, report, reportId', entry, t'⟩ = none :=
      Option.map_eq_none_iff.mp hentries.symm
    refine .inr ⟨rfl, he', ?_⟩
    have hlifecycles := henv.lifecycles hadded entry
    rw [EntryStep.find_lifecycle he, EntryStep.find_lifecycle he'] at hlifecycles
    rcases hl : EntryStep.lifecycle env ⟨org, report, reportId, entry, t⟩ with _ | ⟨id, l⟩
    · rw [hl] at hlifecycles
      exact .inl ⟨rfl, Option.map_eq_none_iff.mp hlifecycles.symm⟩
    · rw [hl] at hlifecycles
      obtain ⟨⟨id', l'⟩, hl', heq⟩ := Option.map_eq_some_iff.mp hlifecycles.symm
      obtain ⟨hrank, rfl⟩ := Prod.mk.inj heq
      exact .inr ⟨id, id', _, rfl, hl', hrank.symm⟩
  · rw [show findEntryByIdentity env org (env.hash.identity entry.identityText) t = some (i, e)
      from he] at hentries
    obtain ⟨⟨i', e'⟩, he', hview⟩ := Option.map_eq_some_iff.mp hentries.symm
    obtain ⟨hget, hid⟩ := RowOrder.first_some he
    obtain ⟨hget', hid'⟩ := RowOrder.first_some he'
    refine .inl ⟨i, e, i', e', rfl, he', hview.symm, ?_⟩
    exact h.duplicateStatus report (List.mem_of_getElem? hget) (List.mem_of_getElem? hget')
      (EntryStep.hasIdentity_iff.mp hid).1 (EntryStep.hasIdentity_iff.mp hid').1 hview.symm

/-- The next entry has the same rank in both stores. -/
theorem Twins.rank_rowId (h : Twins org reportId reportId' t t') :
    entryRank org t t.accountEntries.length = entryRank org t' t'.accountEntries.length := by
  have hlength := congrArg (fun s => s.accountEntries.length) h.view
  simp only [Store.view, List.length_map] at hlength
  rw [entryRank, entryRank, rank_length, rank_length, hlength]

/-- The two steps settle their entries alike, and for the same exception. -/
theorem Twins.settles (h : Twins org reportId reportId' t t')
    (hst : st = ⟨org, report, reportId, entry, t⟩)
    (hst' : st' = ⟨org, report, reportId', entry, t'⟩) (henv : env.Local org) :
    entryView org t (st.finalRow env) = entryView org t' (st'.finalRow env) ∧
      (st.newReconciliations env).map (reconciliationView org t) =
        (st'.newReconciliations env).map (reconciliationView org t') ∧
      (st.newEvents env).map (eventView org t) = (st'.newEvents env).map (eventView org t') ∧
      st.exceptionText env = st'.exceptionText env := by
  have hrank := h.rank
  have hid := h.rank_rowId
  unfold EntryStep.finalRow EntryStep.newReconciliations EntryStep.newEvents
    EntryStep.exceptionText
  rcases h.cases hst hst' henv with
    ⟨i, e, i', e', he, he', hview, hrepeat⟩ | ⟨he, he', ⟨hl, hl'⟩ | ⟨id, id', l, hl, hl', hlrank⟩⟩
  · have hlifecycle : e.lifecycleId.map (lifecycleRank org t) =
        e'.lifecycleId.map (lifecycleRank org t') :=
      congrArg AccountEntryRow.lifecycleId hview
    rw [he, he']
    dsimp only
    rw [hrepeat]
    subst hst hst'
    refine ⟨?_, rfl, ?_, rfl⟩
    · simp only [entryView, EntryStep.row, entryToRow, EntryStep.identityHash, hrank, hlifecycle]
    · split_ifs
      · rcases hid : e.lifecycleId with _ | id <;> rcases hid' : e'.lifecycleId with _ | id'
        all_goals simp only [hid, hid', Option.map_none, Option.map_some, Option.some.injEq,
          reduceCtorEq] at hlifecycle
        · rfl
        · simp only [Option.toList_some, List.map_cons, List.map_nil, eventView_event, hlifecycle]
          rfl
      · rfl
  · rw [he, he', hl, hl']
    subst hst hst'
    refine ⟨?_, ?_, rfl, rfl⟩
    · simp only [entryView, EntryStep.row, entryToRow, EntryStep.identityHash, hrank,
        Option.map_none]
    · simp only [List.map_cons, List.map_nil, reconciliationView, EntryStep.rowId, hid]
      rfl
  · rw [he, he', hl, hl']
    subst hst hst'
    refine ⟨?_, ?_, ?_, rfl⟩
    · simp only [entryView, EntryStep.row, entryToRow, EntryStep.identityHash,
        EntryStep.reconciledWith, hrank, hlrank, Option.map_some]
    · simp only [List.map_cons, List.map_nil, reconciliationView, EntryStep.rowId,
        EntryStep.reconciledWith, hid, hlrank, Option.map_some]
    · simp only [List.map_cons, List.map_nil, eventView_event, hlrank]
      rfl

theorem mem_newReconciliations {r : AccountReconciliationRow} (hr : r ∈ st.newReconciliations env) :
    r.organizationId = st.org ∧ r.accountEntryId = st.rowId := by
  unfold EntryStep.newReconciliations at hr
  split at hr
  · cases hr
  · rw [List.mem_singleton.mp hr]
    exact ⟨rfl, rfl⟩
  · rw [List.mem_singleton.mp hr]
    exact ⟨rfl, rfl⟩

theorem mem_newEvents {e : PaymentLifecycleEventRow D} (he : e ∈ st.newEvents env) :
    e.organizationId = st.org := by
  unfold EntryStep.newEvents at he
  split at he
  · split_ifs at he
    · obtain ⟨id, -, rfl⟩ := List.mem_map.mp he
      rfl
    · cases he
  · cases he
  · rw [List.mem_singleton.mp he]
    rfl

/-- The store once the entry is settled, as the organization sees it. -/
theorem view_settled (horg : st.org = org) (hbefore : st.before = t) (h : t.Owned) :
    (st.settled env).view org = (t.view org).withEntries [entryView org t (st.finalRow env)]
      ((st.newReconciliations env).map (reconciliationView org t))
      ((st.newEvents env).map (eventView org t)) := by
  subst horg hbefore
  have hsettled : st.settled env = st.before.withEntries [st.finalRow env]
      (st.newReconciliations env) (st.newEvents env) := rfl
  have hrow : ∀ e ∈ [st.finalRow env], e.organizationId = st.org := by
    intro e he
    rw [List.mem_singleton.mp he]
    exact EntryStep.finalRow_booking.1
  have hreconciliations : (st.newReconciliations env).map
      (reconciliationView st.org (st.before.withEntries [st.finalRow env]
        (st.newReconciliations env) (st.newEvents env))) =
          (st.newReconciliations env).map (reconciliationView st.org st.before) := by
    apply List.map_congr_left
    intro r hr
    unfold reconciliationView
    have hid : st.rowId ≤ st.before.accountEntries.length := Nat.le_refl _
    rw [(mem_newReconciliations hr).2, entryRank_withEntries hid]
    rfl
  rw [hsettled, view_withEntries h hrow (fun r hr => (mem_newReconciliations hr).1)
    (fun e he => mem_newEvents he), hreconciliations]
  rfl

theorem owned_settled (h : st.before.Owned) (hreport : st.before.HasReport st.org st.reportId) :
    (st.settled env).Owned := by
  obtain ⟨horg, -, hid⟩ : (st.finalRow env).organizationId = st.org ∧ _ :=
    EntryStep.finalRow_booking
  refine h.withEntries ?_ fun r hr => (mem_newReconciliations hr).2
  rw [horg, hid]
  exact hreport

theorem rowId_lt_settled (st : EntryStep D) (env : Env D) :
    st.rowId < (st.settled env).accountEntries.length := by
  show st.before.accountEntries.length < (st.before.accountEntries ++ [_]).length
  rw [List.length_append, List.length_singleton]
  omega

/-- The two steps settle their entries alike. -/
theorem Twins.settled (h : Twins org reportId reportId' t t')
    (hst : st = ⟨org, report, reportId, entry, t⟩)
    (hst' : st' = ⟨org, report, reportId', entry, t'⟩) (henv : env.Local org) :
    Twins org reportId reportId' (st.settled env) (st'.settled env) := by
  obtain ⟨hrow, hreconciliations, hevents, -⟩ := h.settles hst hst' henv
  have hview : (st.settled env).view org = _ :=
    view_settled (by rw [hst]) (by rw [hst]) h.owned
  have hview' : (st'.settled env).view org = _ :=
    view_settled (by rw [hst']) (by rw [hst']) h.owned'
  rw [h.view, hrow, hreconciliations, hevents, ← hview'] at hview
  subst hst hst'
  exact ⟨hview, owned_settled h.owned h.report, owned_settled h.owned' h.report', h.report,
    h.report', h.rank⟩

/-- The two steps open the same case. -/
theorem Twins.withCase (h : Twins org reportId reportId' t t') {entryId entryId' : ℕ}
    (hid : entryId < t.accountEntries.length) (hid' : entryId' < t'.accountEntries.length)
    (hrank : entryRank org t entryId = entryRank org t' entryId')
    (identityHash classification : String) :
    Twins org reportId reportId' (AccountService.withCase org entryId identityHash classification t)
      (AccountService.withCase org entryId' identityHash classification t') := by
  refine ⟨?_, h.owned.withCase org hid identityHash classification,
    h.owned'.withCase org hid' identityHash classification, h.report, h.report', h.rank⟩
  rw [view_withCase, view_withCase, h.view, hrank]

end

end PaymentOps
