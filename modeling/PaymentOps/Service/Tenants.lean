import PaymentOps.Service.Reachable

/-!
# Organizations that do not interfere

An organization should not notice the rows of others: the ingestion of its account reports should
end alike in stores that have the same view.  Every query is about one organization, but a case id
is made of the identity of an entry only, and no two organizations can have the same one.

* `EntryStep.CaseAgrees`: the case id that a step is about to use belongs to another organization
  in both stores, or in neither;
* `Twins.step`: steps with this property end alike, and other ones part;
* `noninterference_iff`: a call ends alike in two stores exactly when its steps have the property;
* `foreign_case` is a pair of stores in which a call does not end alike.
-/

namespace PaymentOps

open AccountService

variable {D : Type} {env : Env D} {org : String} {s s' t t' : Store D}

/-! ## Cases of others -/

/-- Another organization has a case with the id. -/
def ForeignCase (org caseId : String) (s : Store D) : Prop :=
  ∃ c ∈ s.cases, c.caseId = caseId ∧ c.organizationId ≠ org

instance (org caseId : String) (s : Store D) : Decidable (ForeignCase org caseId s) :=
  inferInstanceAs (Decidable (∃ c ∈ _, _))

theorem caseTaken_iff {caseId : String} (org : String) :
    CaseTaken caseId s ↔ HasCase org caseId s ∨ ForeignCase org caseId s := by
  constructor
  · rintro ⟨c, hc, hid⟩
    by_cases horg : c.organizationId = org
    · exact .inl ⟨c, hc, hid, horg⟩
    · exact .inr ⟨c, hc, hid, horg⟩
  · rintro (h | ⟨c, hc, hid, -⟩)
    · exact h.taken
    · exact ⟨c, hc, hid⟩

theorem hasCase_view {caseId : String} :
    HasCase org caseId (s.view org) ↔ HasCase org caseId s := by
  unfold HasCase
  simp only [Store.view, List.mem_filter, beq_iff_eq]
  constructor
  · rintro ⟨c, ⟨hc, -⟩, h⟩
    exact ⟨c, hc, h⟩
  · rintro ⟨c, hc, hid, horg⟩
    exact ⟨c, ⟨hc, horg⟩, hid, horg⟩

/-- How many cases the organization has. -/
def ownCases (org : String) (s : Store D) : ℕ := (s.view org).cases.length

/-- The cases of the others. -/
def otherCases (org : String) (s : Store D) : List PaymentCase :=
  s.cases.filter (·.organizationId != some org)

/-- What an organization leaves as it is: the messages, and the cases of others. -/
structure Kept (org : String) (s t : Store D) : Prop where
  isoMessages : t.isoMessages = s.isoMessages
  others : otherCases org t = otherCases org s

theorem Kept.foreignCase {caseId : String} (h : Kept org s t) :
    ForeignCase org caseId t ↔ ForeignCase org caseId s := by
  have hmem : ∀ s : Store D,
      ForeignCase org caseId s ↔ ∃ c ∈ otherCases org s, c.caseId = caseId := by
    intro s
    unfold ForeignCase otherCases
    simp only [List.mem_filter, bne_iff_ne]
    grind
  rw [hmem, hmem, h.others]

/-- The organization adds its own cases only. -/
theorem Kept.withCase (h : Kept org s t) (entryId : ℕ) (identityHash classification : String) :
    Kept org s (AccountService.withCase org entryId identityHash classification t) := by
  refine ⟨h.isoMessages, Eq.trans ?_ h.others⟩
  unfold otherCases AccountService.withCase
  simp [exceptionCase]

/-! ## Steps -/

namespace EntryStep

variable {st st' : EntryStep D}

/-- The id of the case of the entry. -/
def caseId (env : Env D) (st : EntryStep D) : String := caseIdFor (st.identityHash env)

/-- The step opens a case: its entry is an exception, and the organization has no such case. -/
def Opens (env : Env D) (st : EntryStep D) : Prop :=
  st.status env ∈ exceptionStatuses ∧ ¬ HasCase st.org (st.caseId env) st.before

instance : Decidable (st.Opens env) := inferInstanceAs (Decidable (_ ∧ _))

/-- The id of a case that the step opens belongs to another organization in both stores, or in
neither. -/
def CaseAgrees (env : Env D) (s s' : Store D) (st : EntryStep D) : Prop :=
  st.Opens env → (ForeignCase st.org (st.caseId env) s ↔ ForeignCase st.org (st.caseId env) s')

instance : Decidable (st.CaseAgrees env s s') :=
  inferInstanceAs (Decidable (_ → (_ ↔ _)))

theorem opens_iff :
    st.Opens env ↔ st.exceptionText env ≠ none ∧ ¬ HasCase st.org (st.caseId env) st.before := by
  unfold Opens
  rw [exceptionText_eq]
  simp

/-- A step ends with its settling unless it opens a case. -/
theorem exec_of_not_opens (h : ¬ st.Opens env) :
    st.after env = st.settled env ∧ (st.exec env).outcome = .ok () := by
  rw [(exec_eq env st).1, (exec_eq env st).2, conclusion]
  rcases htext : st.exceptionText env with _ | text
  · exact ⟨rfl, rfl⟩
  · have hown : HasCase st.org (st.caseId env) (st.settled env) := by
      by_contra hno
      exact h (opens_iff.mpr ⟨by rw [htext]; exact Option.some_ne_none _, hno⟩)
    dsimp only
    rw [ensureCase_known hown]
    exact ⟨rfl, rfl⟩

/-- A step that opens a case fails when the case is foreign. -/
theorem exec_of_opens (h : st.Opens env) : ∃ text, st.exceptionText env = some text ∧
    ((ForeignCase st.org (st.caseId env) st.before ∧ st.after env = st.settled env ∧
        (st.exec env).outcome = .error (.integrityError "payment_cases.case_id")) ∨
      (¬ ForeignCase st.org (st.caseId env) st.before ∧
        st.after env = withCase st.org st.rowId (st.identityHash env) text (st.settled env) ∧
        (st.exec env).outcome = .ok ())) := by
  obtain ⟨hne, hown⟩ := opens_iff.mp h
  obtain ⟨text, htext⟩ := Option.ne_none_iff_exists'.mp hne
  have hown' : ¬ HasCase st.org (caseIdFor (st.identityHash env)) (st.settled env) := hown
  refine ⟨text, htext, ?_⟩
  rw [(exec_eq env st).1, (exec_eq env st).2, conclusion, htext]
  by_cases hforeign : ForeignCase st.org (st.caseId env) st.before
  · have htaken : CaseTaken (caseIdFor (st.identityHash env)) (st.settled env) :=
      (caseTaken_iff st.org).mpr (.inr hforeign)
    dsimp only
    rw [ensureCase_taken htaken hown']
    exact .inl ⟨hforeign, rfl, rfl⟩
  · have hfree : ¬ CaseTaken (caseIdFor (st.identityHash env)) (st.settled env) := fun htaken =>
      ((caseTaken_iff st.org).mp htaken).elim hown' hforeign
    dsimp only
    rw [ensureCase_free hfree]
    exact .inr ⟨hforeign, rfl, rfl⟩

end EntryStep

/-- The stores of two runs that ingest a report of the organization. -/
def InReport (org : String) (s s' : Store D) (reportId reportId' : ℕ) (t t' : Store D) : Prop :=
  Twins org reportId reportId' t t' ∧ Kept org s t ∧ Kept org s' t'

section

variable {reportId reportId' : ℕ} {report : AccountReport} {entry : AccountEntry}
  {st st' : EntryStep D}

theorem Twins.opens_iff (h : Twins org reportId reportId' t t')
    (hst : st = ⟨org, report, reportId, entry, t⟩)
    (hst' : st' = ⟨org, report, reportId', entry, t'⟩) (henv : env.Local org) :
    st.Opens env ↔ st'.Opens env := by
  have htext := (h.settles hst hst' henv).2.2.2
  have hcase : HasCase org (st.caseId env) t ↔ HasCase org (st.caseId env) t' := by
    rw [← hasCase_view, h.view, hasCase_view]
  rw [EntryStep.opens_iff, EntryStep.opens_iff, htext]
  subst hst hst'
  exact and_congr_right fun _ => not_congr hcase

theorem InReport.settled (h : InReport org s s' reportId reportId' t t')
    (hst : st = ⟨org, report, reportId, entry, t⟩)
    (hst' : st' = ⟨org, report, reportId', entry, t'⟩) (henv : env.Local org) :
    InReport org s s' reportId reportId' (st.settled env) (st'.settled env) := by
  obtain ⟨htwins, hkept, hkept'⟩ := h
  refine ⟨htwins.settled hst hst' henv, ?_, ?_⟩
  · rw [hst]
    exact ⟨hkept.isoMessages, hkept.others⟩
  · rw [hst']
    exact ⟨hkept'.isoMessages, hkept'.others⟩

/-- What the two steps leave when both of them open their case. -/
theorem InReport.withCase (h : InReport org s s' reportId reportId' t t')
    (hst : st = ⟨org, report, reportId, entry, t⟩)
    (hst' : st' = ⟨org, report, reportId', entry, t'⟩) (henv : env.Local org) (text : String) :
    InReport org s s' reportId reportId'
      (AccountService.withCase st.org st.rowId (st.identityHash env) text (st.settled env))
      (AccountService.withCase st'.org st'.rowId (st'.identityHash env) text
        (st'.settled env)) := by
  have hrank : ∀ st : EntryStep D, entryRank org (st.settled env) st.rowId =
      entryRank org st.before st.before.accountEntries.length :=
    fun st => rank_append (Nat.le_refl _) _
  obtain ⟨htwins, hkept, hkept'⟩ := h.settled hst hst' henv
  have hranks : entryRank org (st.settled env) st.rowId =
      entryRank org (st'.settled env) st'.rowId := by
    rw [hrank, hrank, hst, hst']
    exact h.1.rank_rowId
  have horg : st.org = org ∧ st'.org = org := by
    rw [hst, hst']
    exact ⟨rfl, rfl⟩
  have hhash : st.identityHash env = st'.identityHash env := by
    rw [hst, hst']
    rfl
  rw [horg.1, horg.2, hhash]
  exact ⟨htwins.withCase (rowId_lt_settled st env) (rowId_lt_settled st' env) hranks _ _,
    hkept.withCase _ _ _, hkept'.withCase _ _ _⟩

theorem ownCases_of_view (h : t.view org = t'.view org) : ownCases org t = ownCases org t' := by
  rw [ownCases, h, ownCases]

theorem ownCases_withCase (org : String) (entryId : ℕ) (identityHash classification : String)
    (s : Store D) : ownCases org (withCase org entryId identityHash classification s) =
      ownCases org s + 1 := by
  rw [ownCases, view_withCase]
  exact List.length_append

/-- Two steps end alike when they agree on the owner of a case id, and part otherwise. -/
theorem InReport.step (h : InReport org s s' reportId reportId' t t')
    (hst : st = ⟨org, report, reportId, entry, t⟩)
    (hst' : st' = ⟨org, report, reportId', entry, t'⟩) (henv : env.Local org) :
    (st.CaseAgrees env s s' → Session.Alike (InReport org s s' reportId reportId')
        (ingestEntry env org report reportId entry) (ingestEntry env org report reportId' entry)
        t t') ∧
      (¬ st.CaseAgrees env s s' → Session.Parts (ownCases org)
        (ingestEntry env org report reportId entry) (ingestEntry env org report reportId' entry)
        t t') := by
  have hopens := h.1.opens_iff hst hst' henv
  have htext := (h.1.settles hst hst' henv).2.2.2
  have hsettled := h.settled hst hst' henv
  have hcase := h.withCase hst hst' henv
  have hforeign : ForeignCase st.org (st.caseId env) st.before ↔
      ForeignCase st.org (st.caseId env) s := by
    rw [hst]
    exact h.2.1.foreignCase
  have hforeign' : ForeignCase st'.org (st'.caseId env) st'.before ↔
      ForeignCase st.org (st.caseId env) s' := by
    rw [hst, hst']
    exact h.2.2.foreignCase
  have hexec : (ingestEntry env org report reportId entry).run t = st.exec env ∧
      (st.exec env).final t = st.after env := by
    rw [hst]
    exact ⟨rfl, rfl⟩
  have hexec' : (ingestEntry env org report reportId' entry).run t' = st'.exec env ∧
      (st'.exec env).final t' = st'.after env := by
    rw [hst']
    exact ⟨rfl, rfl⟩
  have horg : st.org = org ∧ st'.org = org := by
    rw [hst, hst']
    exact ⟨rfl, rfl⟩
  have hcount := ownCases_of_view hsettled.1.view
  unfold Session.Alike Session.Parts EntryStep.CaseAgrees
  rw [hexec.1, hexec'.1, hexec.2, hexec'.2]
  by_cases ho : st.Opens env
  · obtain ⟨text, ht, hout⟩ := EntryStep.exec_of_opens ho
    obtain ⟨text', ht', hout'⟩ := EntryStep.exec_of_opens (hopens.mp ho)
    obtain rfl : text = text' := Option.some.inj (ht.symm.trans (htext.trans ht'))
    rw [hforeign] at hout
    rw [hforeign'] at hout'
    rcases hout with ⟨hf, hafter, houtcome⟩ | ⟨hf, hafter, houtcome⟩ <;>
      rcases hout' with ⟨hf', hafter', houtcome'⟩ | ⟨hf', hafter', houtcome'⟩ <;>
      rw [hafter, hafter', houtcome, houtcome']
    · exact ⟨fun _ => ⟨rfl, hsettled⟩, fun hno => absurd (fun _ => ⟨fun _ => hf', fun _ => hf⟩) hno⟩
    · refine ⟨fun hagree => absurd ((hagree ho).mp hf) hf', fun _ => .inl ⟨_, rfl, ?_⟩⟩
      rw [horg.2, ownCases_withCase]
      omega
    · refine ⟨fun hagree => absurd ((hagree ho).mpr hf') hf, fun _ => .inr ⟨_, rfl, ?_⟩⟩
      rw [horg.1, ownCases_withCase]
      omega
    · exact ⟨fun _ => ⟨rfl, hcase text⟩,
        fun hno => absurd (fun _ => ⟨fun hs => absurd hs hf, fun hs => absurd hs hf'⟩) hno⟩
  · obtain ⟨hafter, houtcome⟩ := EntryStep.exec_of_not_opens ho
    obtain ⟨hafter', houtcome'⟩ := EntryStep.exec_of_not_opens (fun h => ho (hopens.mpr h))
    rw [hafter, hafter', houtcome, houtcome']
    exact ⟨fun _ => ⟨rfl, hsettled⟩, fun hno => absurd (fun h => absurd h ho) hno⟩

end

/-! ## Reports and calls -/

/-- The stores of two runs that ingest reports of the organization. -/
structure InCall (org : String) (s s' t t' : Store D) : Prop where
  view : t.view org = t'.view org
  owned : t.Owned
  owned' : t'.Owned
  kept : Kept org s t
  kept' : Kept org s' t'

theorem InReport.inCall {reportId reportId' : ℕ}
    (h : InReport org s s' reportId reportId' t t') : InCall org s s' t t' :=
  ⟨h.1.view, h.1.owned, h.1.owned', h.2.1, h.2.2⟩

section

variable {iso iso' : Option ℕ}

/-- The report is opened alike in the two stores. -/
theorem InCall.openReport (h : InCall org s s' t t')
    (hiso : iso.map (isoRank org s) = iso'.map (isoRank org s')) (report : AccountReport) :
    InReport org s s' t.accountReports.length t'.accountReports.length
      (((openReport org iso report).run t).final t)
      (((openReport org iso' report).run t').final t') := by
  obtain ⟨row, hrow, hset, hrun⟩ := openReport_run (D := D) org report
  have horg : ∀ iso, (row iso).organizationId = org := fun iso => (hrow iso).1
  have hid : ∀ iso, (row iso).isoMessageId = iso := fun iso => (hrow iso).2.2
  rw [(hrun iso t).2.1, (hrun iso' t').2.1]
  set balances : ℕ → List AccountBalanceRow := fun k => report.balances.map (balanceRow org k)
  have hbalances : ∀ k, ∀ b ∈ balances k, b.organizationId = org ∧ b.reportId = k := by
    intro k b hb
    obtain ⟨bal, -, rfl⟩ := List.mem_map.mp hb
    exact ⟨rfl, rfl⟩
  -- the new report has the same rank in both stores
  have hrank : ∀ (t : Store D) (k : Option ℕ) (l : List AccountBalanceRow),
      reportRank org (t.withReport (row k) l) t.accountReports.length =
        (t.view org).accountReports.length := by
    intro t k l
    have hrank : reportRank org (t.withReport (row k) l) t.accountReports.length =
        reportRank org t t.accountReports.length :=
      rank_append (Nat.le_refl _) _
    rw [hrank, reportRank, rank_length, Store.view, List.length_map]
  have hview : ∀ (t : Store D) (k : Option ℕ), t.Owned →
      (t.withReport (row k) (balances t.accountReports.length)).view org =
        (t.view org).withReport (row (k.map (isoRank org t)))
          (balances (t.view org).accountReports.length) := by
    intro t k hown
    rw [view_withReport hown (horg k) fun b hb => (hbalances _ b hb).1]
    have hreport : reportView org t (row k) = row (k.map (isoRank org t)) := by
      rw [reportView, hset, hid]
    have hmap : (balances t.accountReports.length).map
        (balanceView org (t.withReport (row k) (balances t.accountReports.length))) =
          balances (t.view org).accountReports.length := by
      rw [List.map_map]
      apply List.map_congr_left
      intro bal _
      simp only [Function.comp_apply, balanceView, balanceRow, hrank]
    rw [hreport, hmap]
  have hranks : iso.map (isoRank org t) = iso'.map (isoRank org t') := by
    unfold isoRank at hiso ⊢
    rw [h.kept.isoMessages, h.kept'.isoMessages]
    exact hiso
  refine ⟨⟨?_, h.owned.withReport _ fun b hb => (hbalances _ b hb).2,
    h.owned'.withReport _ fun b hb => (hbalances _ b hb).2, ⟨_, found_withReport _ _ _, horg iso⟩,
    ⟨_, found_withReport _ _ _, horg iso'⟩, ?_⟩,
    ⟨h.kept.isoMessages, h.kept.others⟩, ⟨h.kept'.isoMessages, h.kept'.others⟩⟩
  · rw [hview t iso h.owned, hview t' iso' h.owned', h.view, hranks]
  · rw [hrank, hrank, h.view]

/-- No step takes a case away. -/
theorem ingestEntry_ascends (env : Env D) (org : String) (report : AccountReport) (reportId : ℕ)
    (entry : AccountEntry) :
    Session.Ascends (ownCases org) (ingestEntry env org report reportId entry) := by
  intro s
  have hcases := EntryStep.after_cases env ⟨org, report, reportId, entry, s⟩
  show ownCases org s ≤ ownCases org (EntryStep.after env ⟨org, report, reportId, entry, s⟩)
  rcases hcases with ⟨-, hafter⟩ | ⟨text, -, ⟨-, hafter⟩ | ⟨-, hafter⟩⟩
  · rewrite [hafter]
    exact Nat.le_refl _
  · rewrite [hafter]
    exact Nat.le_refl _
  · rw [hafter, ownCases_withCase]
    exact Nat.le_succ _

theorem ingestReport_ascends (env : Env D) (org : String) (iso : Option ℕ)
    (report : AccountReport) :
    Session.Ascends (ownCases org) (ingestReport env org iso report) :=
  .bind (.of_leaves (openReport_leaves (fun _ _ => rfl) (fun _ _ => rfl) org iso report))
    fun id => .each fun entry _ => ingestEntry_ascends env org report id entry

/-- Two reports end alike when their steps agree on the owners of case ids, and part otherwise. -/
theorem InCall.report (h : InCall org s s' t t') (henv : env.Local org)
    (hiso : iso.map (isoRank org s) = iso'.map (isoRank org s')) (report : AccountReport) :
    ((∀ st ∈ reportSteps env org iso report t, st.CaseAgrees env s s') →
        Session.Alike (InCall org s s') (ingestReport env org iso report)
          (ingestReport env org iso' report) t t') ∧
      (¬ (∀ st ∈ reportSteps env org iso report t, st.CaseAgrees env s s') →
        Session.Parts (ownCases org) (ingestReport env org iso report)
          (ingestReport env org iso' report) t t') := by
  obtain ⟨row, -, -, hrun⟩ := openReport_run (D := D) org report
  have hok := (hrun iso t).1
  have hok' := (hrun iso' t').1
  have hopen := h.openReport hiso report
  unfold reportSteps
  rw [hok]
  simp only [List.forall_mem_map]
  constructor
  · intro hagree
    refine Session.Alike.bind hok hok' (Session.Alike.mono
      (R := InReport org s s' t.accountReports.length t'.accountReports.length) ?_
      fun _ _ h => h.inCall)
    exact Session.each_alike hopen fun v hv u hu => (hu.step rfl rfl henv).1 (hagree v hv)
  · intro hno
    push Not at hno
    refine Session.Parts.bind hok hok' ?_
    exact Session.each_parts hopen (fun v hv u hu => hu.step rfl rfl henv)
      (fun entry => ingestEntry_ascends env org report _ entry)
      (fun entry => ingestEntry_ascends env org report _ entry) hno

/-- Two calls end alike exactly when their steps agree on the owners of case ids. -/
theorem InCall.call_iff (h : InCall org s s' s s') (henv : env.Local org)
    (hiso : iso.map (isoRank org s) = iso'.map (isoRank org s')) (reports : List AccountReport) :
    Session.Alike (fun t t' => t.view org = t'.view org)
        (ingestAccountReport env org reports iso) (ingestAccountReport env org reports iso') s s' ↔
      ∀ st ∈ callSteps env ⟨org, reports, iso⟩ s, st.CaseAgrees env s s' := by
  constructor
  · intro halike
    by_contra hno
    refine Session.Parts.not_alike (g := ownCases org) (fun hview => ownCases_of_view hview) ?_
      halike
    refine Session.each_parts h (fun v hv u hu => hu.report henv hiso v.1)
      (fun report => ingestReport_ascends env org iso report)
      (fun report => ingestReport_ascends env org iso' report) ?_
    by_contra hall
    push Not at hall
    refine hno fun st hst => ?_
    obtain ⟨v, hv, hst⟩ := mem_callSteps.mp hst
    exact hall v hv st hst
  · intro hagree
    refine Session.Alike.mono (R := InCall org s s') ?_ fun _ _ h => h.view
    exact Session.each_alike h fun v hv u hu =>
      (hu.report henv hiso v.1).1 fun st hst => hagree st (mem_callSteps.mpr ⟨v, hv, hst⟩)

end

/-! ## Calls in reachable stores -/

/-- A call of an organization ends alike in two reachable stores with the same view, with the same
outcome and the same view, exactly when every case that it opens has an id that belongs to another
organization in both stores or in neither. -/
theorem noninterference_iff [DecidableEq D] (env : Env D) (org : String) (henv : env.Local org)
    {s s' : Store D} (hs : Reachable env s) (hs' : Reachable env s')
    (hview : s.view org = s'.view org) {iso iso' : Option ℕ}
    (hiso : iso.map (isoRank org s) = iso'.map (isoRank org s')) (reports : List AccountReport) :
    (((ingest env ⟨org, reports, iso⟩).run s).outcome =
          ((ingest env ⟨org, reports, iso'⟩).run s').outcome ∧
        (((ingest env ⟨org, reports, iso⟩).run s).final s).view org =
          (((ingest env ⟨org, reports, iso'⟩).run s').final s').view org) ↔
      ∀ st ∈ callSteps env ⟨org, reports, iso⟩ s, st.CaseAgrees env s s' :=
  InCall.call_iff ⟨hview, hs.owned, hs'.owned, ⟨rfl, rfl⟩, ⟨rfl, rfl⟩⟩ henv hiso reports

/-! ## Two organizations with one entry -/

/-- The store that another organization leaves when it ingests these messages. -/
def sampleOther (types : List AccountReportType) : Store Digest :=
  (((ingest (.insertion .structural) ⟨"other", types.map sampleReport, none⟩).run {}).final {})

theorem sampleOther_reachable (types : List AccountReportType) :
    Reachable (.insertion .structural) (sampleOther types) :=
  Reachable.empty.ingest ⟨"other", types.map sampleReport, none⟩

/-- A message with an entry, and with the same entry once more. -/
def sampleTwice : Ingestion := ⟨"org", [sampleReport .statement, sampleReport .statement], none⟩

theorem noninterference_sample :
    ((ingest (.insertion .structural) sampleTwice).run (sampleOther [.statement])).outcome =
        ((ingest (.insertion .structural) sampleTwice).run {}).outcome ∧
      (((ingest (.insertion .structural) sampleTwice).run (sampleOther [.statement])).final
          (sampleOther [.statement])).view "org" =
        (((ingest (.insertion .structural) sampleTwice).run {}).final {}).view "org" :=
  (noninterference_iff (.insertion .structural) "org" (Env.insertion_local _ _)
    (sampleOther_reachable [.statement]) .empty (by decide +kernel) rfl _).mpr (by decide +kernel)

/-- The other organization has a case for the entry already. -/
theorem foreign_case :
    ∃ s s' : Store Digest, Reachable (.insertion .structural) s ∧
      Reachable (.insertion .structural) s' ∧ s.view "org" = s'.view "org" ∧
      ((ingest (.insertion .structural) sampleTwice).run s).outcome =
          .error (.integrityError "payment_cases.case_id") ∧
        ((ingest (.insertion .structural) sampleTwice).run s').outcome = .ok () := by
  refine ⟨sampleOther [.statement, .statement], {}, sampleOther_reachable _, .empty, ?_, ?_, ?_⟩
  · decide +kernel
  · rfl
  · rfl

end PaymentOps
