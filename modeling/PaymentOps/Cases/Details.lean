import PaymentOps.Cases.Audit

/-!
# The page of a case

An organization that opens one of its cases sees the audit events about it.  They are found by the
id of the case alone, not by the organization as in its listings.

* `caseDetail` is the page;
* `DetailSound` is what every operation keeps of the audit trail;
* `detail_spec`: the page shows the events about the case that the organization can list and, where
  an analysis has stored the case, the event of that analysis, in the order of their times.
-/

namespace PaymentOps.Cases

/-- An event as the page of a case shows it. -/
structure CaseAuditEntry where
  timestamp : Instant
  actor : Option String
  event : String
  deriving DecidableEq, Repr

/-- An audit event as the page of its case shows it. -/
def caseAuditEntry (e : AuditEvent) : CaseAuditEntry where
  timestamp := e.createdAt
  actor := e.userIdentity
  event := e.eventType

/-- `_audit_events` -/
def caseAuditEvents (order : RowOrder CaseStore CaseStore.auditEvents) (caseId : String)
    (s : CaseStore) : List CaseAuditEntry :=
  let found : List AuditEvent := (order.select s (·.caseId = some caseId)).map (·.2)
  (found.insertionSort fun a b => a.createdAt ≤ b.createdAt).map caseAuditEntry

/-- The page of a case. -/
structure CaseDetail where
  case : PaymentCase
  audit : List CaseAuditEntry

/-- The page of a case. -/
def caseDetail (order : RowOrder CaseStore CaseStore.auditEvents) (org caseId : String)
    (s : CaseStore) : Except CaseError CaseDetail :=
  match getCase org caseId s with
  | .ok case => .ok { case := case, audit := caseAuditEvents order caseId s }
  | .error _ => .error (.httpException 404 "case not found")

/-- The event is about the case and carries the id of the organization. -/
def own (org caseId : String) (e : AuditEvent) : Bool :=
  e.caseId = some caseId && e.organizationId = some org

/-- The event is about the case and carries no organization. -/
def unowned (caseId : String) (e : AuditEvent) : Bool :=
  e.caseId = some caseId && e.organizationId = none

/-- An event about a case carries the organization of the case, or it is the one of the analysis
that has stored the case. -/
structure DetailSound (s : CaseStore) : Prop where
  known : EventsKnown s
  carried : ∀ e ∈ s.auditEvents, ∀ org, Owns s org e.caseId →
    e.organizationId = some org ∨ e.organizationId = none
  completed : ∀ e ∈ s.auditEvents, e.organizationId = none → e.eventType = "analysis_completed"
  single : ∀ caseId, s.auditEvents.countP (unowned caseId) ≤ 1

variable {D : Type} {s t : CaseStore} {org caseId : String}

theorem DetailSound.empty : DetailSound {} where
  known _ he := absurd he List.not_mem_nil
  carried _ he := absurd he List.not_mem_nil
  completed _ he := absurd he List.not_mem_nil
  single _ := Nat.zero_le 1

/-! ## Writers -/

/-- Events that carry the organization of their cases. -/
theorem DetailSound.append (h : DetailSound s) (hextends : Extends s t)
    {events : List AuditEvent} (hevents : t.auditEvents = s.auditEvents ++ events)
    (hnew : ∀ e ∈ events, ∃ org case, e.organizationId = some org ∧
      e.caseId = some case.caseId ∧ t.cases.find case.caseId = some case ∧
        case.organizationId = some org) : DetailSound t where
  known := by
    apply h.known.append hextends hevents
    intro e he k hk
    obtain ⟨org, case, -, hcase, hfind, -⟩ := hnew e he
    obtain rfl := Option.some.inj (hcase.symm.trans hk)
    rw [hfind]
    rfl
  carried := by
    intro e he owner howns
    rw [hevents] at he
    rcases List.mem_append.mp he with he | he
    · exact h.carried e he owner ((hextends.owns_iff he h.known).mp howns)
    · left
      obtain ⟨org, case, horg, hcase, hfind, hcaseOrg⟩ := hnew e he
      obtain ⟨k, case', hcase', hfind', howner⟩ := owns_iff.mp howns
      obtain rfl := Option.some.inj (hcase.symm.trans hcase')
      cases hfind.symm.trans hfind'
      exact horg.trans (hcaseOrg.symm.trans howner)
  completed := by
    intro e he hnone
    rw [hevents] at he
    rcases List.mem_append.mp he with he | he
    · exact h.completed e he hnone
    · obtain ⟨org, case, horg, -⟩ := hnew e he
      cases hnone.symm.trans horg
  single := by
    intro k
    have hzero : events.countP (unowned k) = 0 := by
      apply List.countP_eq_zero.mpr
      intro e he
      obtain ⟨org, case, horg, -⟩ := hnew e he
      simp [unowned, horg]
    rw [hevents, List.countP_append, hzero]
    exact h.single k

/-- An analysis has the first event about its case. -/
theorem DetailSound.storesCase (h : DetailSound s) {owner : Option String}
    (hstores : StoresCase owner s t) : DetailSound t := by
  have hknown := hstores.known h.known
  have hextends := hstores.extension
  obtain ⟨case, clock, -, hinsert, hevents⟩ := hstores
  have hfree : s.cases.find case.caseId = none := (Table.insert_eq_some hinsert).1
  refine ⟨hknown, fun e he org howns => ?_, fun e he hnone => ?_, fun k => ?_⟩
  · rw [hevents] at he
    rcases List.mem_append.mp he with he | he
    · exact h.carried e he org ((hextends.owns_iff he h.known).mp howns)
    · right
      obtain rfl := List.mem_singleton.mp he
      rfl
  · rw [hevents] at he
    rcases List.mem_append.mp he with he | he
    · exact h.completed e he hnone
    · obtain rfl := List.mem_singleton.mp he
      rfl
  · rw [hevents, List.countP_append]
    by_cases hk : case.caseId = k
    · -- no event was about the case before it was stored
      have hzero : s.auditEvents.countP (unowned k) = 0 := by
        apply List.countP_eq_zero.mpr
        intro e he hunowned
        have hcase : e.caseId = some k := by
          simp only [unowned, Bool.and_eq_true, decide_eq_true_eq] at hunowned
          exact hunowned.1
        have hsome := h.known e he k hcase
        rw [← hk, hfree] at hsome
        cases hsome
      rw [hzero, Nat.zero_add]
      exact List.countP_le_length
    · have hzero : [completedEvent case.caseId clock].countP (unowned k) = 0 := by
        simp [unowned, completedEvent, hk]
      rw [hzero]
      exact h.single k

theorem DetailSound.transition {call : Transition} (h : DetailSound s)
    (ht : t ∈ ((transitionCase call).run s).commits) : DetailSound t := by
  obtain ⟨case', ht⟩ := Session.mem_transact.mp ht
  obtain ⟨⟨loaded, newStatus⟩, hcheck, ht⟩ := Except.bind_eq_ok.mp ht
  obtain ⟨case'', -, ht⟩ := Except.bind_eq_ok.mp ht
  cases ht
  obtain ⟨case, hcase, -⟩ := checkTransition_eq_ok.mp hcheck
  obtain ⟨hfind, horg⟩ := getCase_eq_ok.mp hcase
  obtain ⟨hfind', horg'⟩ := getCase_eq_ok.mp (getCase_commitTransition hcase loaded newStatus)
  apply h.append _ rfl
  · intro e he
    obtain rfl := List.mem_singleton.mp he
    have hid := (Table.find_eq_some.mp hfind').2
    exact ⟨call.organizationId, _, rfl, congrArg some hid.symm, hid.symm ▸ hfind', horg'⟩
  · intro k case hfind
    rw [commitTransition, Table.find_modify]
    split_ifs
    · exact ⟨_, congrArg _ hfind, rfl⟩
    · exact ⟨case, hfind, rfl⟩

open AccountService in
theorem DetailSound.account {d : Deployment D} {c : Store D} (h : DetailSound d.tables)
    (hopened : Opened org (d.tables.cases.rows.map accountCase) c.cases c.auditEvents)
    (clock : ℕ → Instant) : DetailSound (d.withAccount clock c).tables := by
  obtain ⟨opened, hcases, hnodup, hevents⟩ := hopened
  have hrows := withAccount_cases hcases hnodup clock
  apply h.append _ rfl
  · intro e he
    obtain ⟨e', he', rfl⟩ := List.mem_map.mp he
    obtain ⟨horg, case, hmem, hcase, hcaseOrg⟩ := hevents e' he'
    refine ⟨org, exceptionCase case, congrArg some horg, congrArg some hcase.symm,
      Table.find_eq_some.mpr ⟨?_, rfl⟩, hcaseOrg⟩
    rw [hrows]
    exact List.mem_append_right _ (List.mem_map_of_mem hmem)
  · intro k case hfind
    obtain ⟨hmem, hcase⟩ := Table.find_eq_some.mp hfind
    refine ⟨case, Table.find_eq_some.mpr ⟨?_, hcase⟩, rfl⟩
    rw [hrows]
    exact List.mem_append_left _ hmem

/-- Every operation keeps the audit trail sound. -/
theorem perform_detailSound (env : Env D) (op : Operation) {d d' : Deployment D}
    (h : DetailSound d.tables) (hd' : d' ∈ ((perform env op).run d).commits) :
    DetailSound d'.tables := by
  cases op with
  | analyze call =>
    obtain ⟨t, ht, rfl⟩ := mem_onTables.mp hd'
    exact h.storesCase (stored_of_analyze ht).2
  | profileAnalyze call =>
    obtain ⟨t, ht, rfl⟩ := mem_onTables.mp hd'
    exact h.storesCase (stored_of_profileAnalyze ht).2
  | transition call =>
    obtain ⟨t, ht, rfl⟩ := mem_onTables.mp hd'
    exact h.transition ht
  | accountReport i clock =>
    obtain ⟨c, hc, rfl⟩ := List.mem_map.mp hd'
    have hstart : Opened i.org (d.tables.cases.rows.map accountCase) d.accountStore.cases
        d.accountStore.auditEvents := by
      refine ⟨[], (List.append_nil _).symm, ?_, by simp [Deployment.accountStore]⟩
      rw [Deployment.accountStore, List.map_map]
      exact d.tables.cases.unique
    exact h.account ((ingest_opened env i _ hstart).1 c hc) clock

/-! ## The page -/

/-- The events about a case of the organization. -/
theorem DetailSound.about (h : DetailSound s) {case : PaymentCase}
    (hcase : getCase org caseId s = .ok case) {e : AuditEvent} (he : e ∈ s.auditEvents)
    (habout : e.caseId = some caseId) : own org caseId e = ! unowned caseId e := by
  obtain ⟨hfind, horg⟩ := getCase_eq_ok.mp hcase
  have howns : Owns s org e.caseId := owns_iff.mpr ⟨caseId, case, habout, hfind, horg⟩
  rcases h.carried e he org howns with h | h
  · simp [own, unowned, habout, h]
  · simp [own, unowned, habout, h]

/-- Two conditions of which at most one holds select apart. -/
theorem filter_or_perm {α : Type} {p q : α → Bool} {l : List α}
    (h : ∀ a ∈ l, ¬ (p a ∧ q a)) :
    (l.filter fun a => p a || q a).Perm (l.filter p ++ l.filter q) := by
  induction l with
  | nil => exact List.Perm.nil
  | cons a l ih =>
    have ih := ih fun b hb => h b (List.mem_cons_of_mem _ hb)
    have ha := h a List.mem_cons_self
    cases hp : p a with
    | true =>
      have hq : q a = false := by simpa [hp] using ha
      simpa [hp, hq] using ih
    | false =>
      cases hq : q a with
      | true =>
        simp only [List.filter_cons, hp, hq, Bool.or_true, if_true, Bool.false_eq_true, if_false]
        exact (ih.cons a).trans List.perm_middle.symm
      | false => simpa [hp, hq] using ih

/-- Over every run of analyses, operators' actions and account reports, the page of a case shows the
events about the case that carry the id of its organization, at most one event besides, that of the
analysis that has stored the case, and no event of another organization, in the order of their
times. -/
theorem detail_spec (env : Env D) (ops : List Operation) :
    ∀ d ∈ Session.stores (perform env) ops ({} : Deployment D),
      ∀ order org caseId detail, caseDetail order org caseId d.tables = .ok detail →
        ∃ completion : List AuditEvent, completion.length ≤ 1 ∧
          (∀ e ∈ completion, e ∈ d.tables.auditEvents ∧ e.caseId = some caseId ∧
            e.organizationId = none ∧ e.eventType = "analysis_completed") ∧
          detail.audit.Perm
            ((d.tables.auditEvents.filter (own org caseId) ++ completion).map caseAuditEntry) ∧
          detail.audit.Pairwise fun a b => a.timestamp ≤ b.timestamp := by
  have hstores : ∀ d ∈ Session.stores (perform env) ops ({} : Deployment D),
      DetailSound d.tables :=
    (Session.stores_of_calls (I := fun d => DetailSound d.tables) DetailSound.empty
      fun c _ h d' hd' => perform_detailSound env c.1 h hd').2
  intro d hd order org caseId detail hdetail
  have hsound := hstores d hd
  unfold caseDetail at hdetail
  split at hdetail
  · rename_i case hcase
    cases hdetail
    refine ⟨d.tables.auditEvents.filter (unowned caseId), ?_, ?_, ?_, ?_⟩
    · rw [← List.countP_eq_length_filter]
      exact hsound.single caseId
    · intro e he
      obtain ⟨hmem, hunowned⟩ := List.mem_filter.mp he
      simp only [unowned, Bool.and_eq_true, decide_eq_true_eq] at hunowned
      exact ⟨hmem, hunowned.1, hunowned.2, hsound.completed e hmem hunowned.2⟩
    · have habout : d.tables.auditEvents.filter (·.caseId = some caseId) =
          d.tables.auditEvents.filter fun e => own org caseId e || unowned caseId e := by
        apply List.filter_congr
        intro e he
        by_cases h : e.caseId = some caseId
        · simp [h, hsound.about hcase he h]
        · simp [h, own, unowned]
      have hapart : ∀ e ∈ d.tables.auditEvents, ¬ (own org caseId e ∧ unowned caseId e) := by
        intro e _
        simp only [own, unowned, Bool.and_eq_true, decide_eq_true_eq]
        rintro ⟨⟨-, horg⟩, -, hnone⟩
        cases horg.symm.trans hnone
      apply List.Perm.map
      refine (List.perm_insertionSort _ _).trans ((order.select_perm _ _).trans ?_)
      rw [habout]
      exact filter_or_perm hapart
    · apply List.pairwise_map.mpr
      have hsorted := List.pairwise_insertionSort
        (fun a b : AuditEvent => a.createdAt ≤ b.createdAt)
        ((order.select d.tables (·.caseId = some caseId)).map (·.2))
      exact hsorted
  · cases hdetail

/-- The page of a case that was analyzed and approved. -/
theorem detail_spec_approved :
    ∃ d ∈ Session.stores (perform (.insertion .structural)) [.profileAnalyze (retries 0),
        .transition { organizationId := "org", caseId := "case-", action := "approve" }]
        ({} : Deployment Digest),
      ∃ detail, caseDetail (.insertion _ _) "org" "case-" d.tables = .ok detail ∧
        detail.audit.length = 2 ∧
        ∃ completion : List AuditEvent, completion.length ≤ 1 ∧
          (∀ e ∈ completion, e ∈ d.tables.auditEvents ∧ e.caseId = some "case-" ∧
            e.organizationId = none ∧ e.eventType = "analysis_completed") ∧
          detail.audit.Perm
            ((d.tables.auditEvents.filter (own "org" "case-") ++ completion).map
              caseAuditEntry) ∧
          detail.audit.Pairwise fun a b => a.timestamp ≤ b.timestamp := by
  have hpage : ∃ d ∈ Session.stores (perform (.insertion .structural))
      [.profileAnalyze (retries 0),
        .transition { organizationId := "org", caseId := "case-", action := "approve" }]
      ({} : Deployment Digest),
      ((caseDetail (.insertion _ _) "org" "case-" d.tables).toOption.map (·.audit.length)) =
        some 2 := by
    decide +kernel
  obtain ⟨d, hd, hlength⟩ := hpage
  rcases hdetail : caseDetail (.insertion _ _) "org" "case-" d.tables with e | detail
  · rw [hdetail] at hlength
    cases hlength
  · rw [hdetail] at hlength
    exact ⟨d, hd, detail, hdetail, Option.some.inj hlength,
      detail_spec _ _ d hd _ _ _ _ hdetail⟩

end PaymentOps.Cases
