import PaymentOps.Service.ArrivalOrder
import PaymentOps.Service.Reachable

/-!
# Status reports of a whole message

A pacs.002 names the message that it reports on, and may have no transactions of its own.

* `Reachable.originalMessageId`: no lifecycle carries an original message id, so a lookup never
  finds one by it;
* `followsPayment_iff`: a status report leaves an event on a lifecycle of the message before it
  exactly when it left one there earlier, or one of its transactions has only lifecycles of that
  message to find;
* `group_rejection_lost` is the rejection of a whole message.
-/

namespace PaymentOps

open Text Lifecycle

variable {D : Type} {env : Env D} {org : String} {s t : Store D}

/-! ## Original message ids -/

/-- No lifecycle carries an original message id. -/
def NoOriginalIds (s : Store D) : Prop := ∀ l ∈ s.lifecycles, l.originalMessageId = none

namespace AccountService

/-- Account reports leave the lifecycles as they are. -/
theorem ingestAccountReport_lifecycles (env : Env D) (org : String) (reports : List AccountReport)
    (iso : Option ℕ) :
    Session.Leaves Store.lifecycles (ingestAccountReport env org reports iso) := by
  apply ingestAccountReport_leaves
  · exact ⟨fun _ _ => rfl, fun _ _ => rfl, fun _ _ => rfl, fun _ _ _ => rfl⟩
  · exact fun _ _ => rfl
  · exact fun _ _ => rfl

end AccountService

namespace IsoAnalysis

variable {result : IsoAnalysisResult D} {isoId : ℕ} {messageHash : D} {clock : Instant}

theorem originalMessageId_setStatus (status : Option String) (l : PaymentLifecycleRow) :
    (setStatus status l).originalMessageId = l.originalMessageId :=
  congrArg (·.originalMessageId) (stripped_setStatus status l)

theorem withStatus_noOriginalIds (id : ℕ) (h : NoOriginalIds s) :
    NoOriginalIds (withStatus result id s) := by
  intro l hl
  obtain ⟨i, hi⟩ := List.getElem?_of_mem hl
  rw [withStatus, List.getElem?_modify] at hi
  obtain ⟨row, hrow, rfl⟩ := Option.map_eq_some_iff.mp hi
  have hnone := h row (List.mem_of_getElem? hrow)
  split_ifs
  · exact (originalMessageId_setStatus _ row).trans hnone
  · exact hnone

/-- The transactions of a message keep it so, those of a payment because they have no original
message id. -/
theorem correlateAndBuildLifecycle_noOriginalIds (env : Env D) (org : String) (isoId : ℕ)
    (messageHash : D) (clock : Instant)
    (hprofiles : isStatusReport result = false →
      ∀ p ∈ result.correlationProfiles, p.originalMessageId = none) :
    Session.Keeps NoOriginalIds
      (correlateAndBuildLifecycle env org result isoId messageHash clock) := by
  apply correlateAndBuildLifecycle_invariant
  · exact fun _ _ hs => hs
  · exact fun s id hs => withStatus_noOriginalIds id hs
  · intro hreport data hdata s hs l hl
    rcases List.mem_append.mp hl with hl | hl
    · exact hs l hl
    · obtain rfl := List.mem_singleton.mp hl
      exact hprofiles hreport data hdata

/-- A payment has no original message id. -/
theorem originalMessageId_of_payment {pipeline : AnalysisPipeline} {payload : List UInt8}
    (hresult : pipeline.analyzeIso env.hash payload clock = .ok result)
    (hreport : isStatusReport result = false) :
    ∀ p ∈ result.correlationProfiles, p.originalMessageId = none := by
  intro p hp
  rcases result_cases hresult with ⟨_, _, message, -, -, -, -, hprofiles⟩ |
    ⟨_, _, report, -, hsum⟩ | ⟨_, _, bundle, -, -, hprofiles⟩
  · rw [hprofiles] at hp
    obtain ⟨tx, -, rfl⟩ := List.mem_map.mp hp
    rfl
  · rw [hsum.statusReport] at hreport
    cases hreport
  · rw [hprofiles] at hp
    cases hp

variable [DecidableEq D]

/-- A message keeps it so. -/
theorem analyzeIsoMessage_noOriginalIds (env : Env D) (org : String) (pipeline : AnalysisPipeline)
    (payload : List UInt8) (clock : Instant) :
    Session.Keeps NoOriginalIds (analyzeIsoMessage env org pipeline payload clock) := by
  apply analyzeIsoMessage_invariant
  · exact fun _ _ hs => hs
  · exact fun result hresult isoId messageHash =>
      correlateAndBuildLifecycle_noOriginalIds env org isoId messageHash clock
        (originalMessageId_of_payment hresult)
  · exact fun reports iso =>
      (AccountService.ingestAccountReport_lifecycles env org reports iso).keeps
        fun rows => ∀ l ∈ rows, l.originalMessageId = none

end IsoAnalysis

/-- No lifecycle of a reachable store carries an original message id. -/
theorem Reachable.originalMessageId [DecidableEq D] (h : Reachable env s) : NoOriginalIds s := by
  induction h with
  | empty => intro l hl; cases hl
  | account i _ ht ih =>
    have hsame := AccountService.ingestAccountReport_lifecycles env i.org i.reports i.isoMessageId
    rw [NoOriginalIds, hsame _ _ ht]
    exact ih
  | message org pipeline payload clock _ ht ih =>
    exact (IsoAnalysis.analyzeIsoMessage_noOriginalIds env org pipeline payload clock _ ih).1 _ ht

namespace IsoAnalysis

open Lifecycle

variable {result : IsoAnalysisResult D} {isoId : ℕ} {messageHash : D} {clock : Instant}

/-- In a reachable store a lookup is about the references of the transaction only. -/
theorem lookup_of_reachable [DecidableEq D] (h : Reachable env s) {p : CorrelationProfile}
    {l : PaymentLifecycleRow} (hl : l ∈ s.lifecycles) :
    lookup org p l ↔ l.organizationId = org ∧ OwnReference p l := by
  constructor
  · intro hlookup
    exact ⟨(lookup_iff.mp hlookup).1, ownReference_of_lookup (h.originalMessageId l hl) hlookup⟩
  · rintro ⟨horg, hown⟩
    exact lookup_iff.mpr ⟨horg, .inr hown⟩

/-! ## Events of a message -/

/-- The lifecycle has an event of the message. -/
def HasEvent (org : String) (messageHash : D) (key : ℕ) (s : Store D) : Prop :=
  ∃ e ∈ s.lifecycleEvents,
    e.organizationId = org ∧ e.lifecycleId = key ∧ e.sourceHash = some messageHash

instance [DecidableEq D] (key : ℕ) (s : Store D) : Decidable (HasEvent org messageHash key s) :=
  inferInstanceAs (Decidable (∃ e ∈ _, _))

theorem hasEvent_withEvent {id key : ℕ} {evidence : List String} :
    HasEvent org messageHash key (withEvent org result isoId messageHash id evidence s) ↔
      HasEvent org messageHash key s ∨ id = key := by
  constructor
  · rintro ⟨e, he, horg, hkey, hhash⟩
    rcases List.mem_append.mp he with he | he
    · exact .inl ⟨e, he, horg, hkey, hhash⟩
    · obtain rfl := List.mem_singleton.mp he
      exact .inr hkey
  · rintro (⟨e, he, h⟩ | rfl)
    · exact ⟨e, List.mem_append_left _ he, h⟩
    · exact ⟨_, List.mem_append_right _ List.mem_cons_self, rfl, rfl, rfl⟩

/-- The lifecycles with an event are those that had one and those that are found. -/
theorem hasEvent_fold (env : Env D) (hn : truthy result.normalizedStatus)
    (xs : List CorrelationProfile) (c : Correlation) (t : Store D) (key : ℕ) :
    HasEvent org messageHash key
        (((Session.fold (statusStep env org result isoId messageHash) c xs).run t).final t) ↔
      HasEvent org messageHash key t ∨
        ∃ it ∈ Session.iterations (statusStep env org result isoId messageHash) c xs t, ∃ row,
          findLifecycle env org (profileFromDict it.item) it.start = some (key, row) := by
  induction xs generalizing c t with
  | nil => simp [Session.iterations]
  | cons data xs ih =>
    rw [Session.fold_cons]
    obtain ⟨c', e, he, ho, hcases⟩ := statusStep_cases env hn isoId messageHash c data t
    subst he
    rw [Session.bind_final ho, ih, Session.iterations_cons_ok ho]
    simp only [List.exists_mem_cons_iff]
    rcases hcases with ⟨hf, -, hfin⟩ | ⟨id, l, evidence, hf, -, hfin⟩
    · rw [hfin]
      simp [hf]
    · have hevent : HasEvent org messageHash key
          (withStatus result id (withEvent org result isoId messageHash id evidence t)) ↔
          HasEvent org messageHash key t ∨ id = key := hasEvent_withEvent
      rw [hfin, hevent, or_assoc]
      simp [hf]

/-! ## The lifecycles that are found -/

section

variable {mine : ℕ → Prop}

/-- Some transaction has a lifecycle to find, and only lifecycles of mine. -/
def FindsOnly (org : String) (mine : ℕ → Prop) (report : LifecycleStatusReport) (t : Store D) :
    Prop :=
  ∃ tx ∈ report.transactionStatuses,
    (∃ l ∈ t.lifecycles, lookup org (profileFromStatus report tx) l) ∧
      ∀ (key : ℕ) (l : PaymentLifecycleRow), t.lifecycles[key]? = some l →
        lookup org (profileFromStatus report tx) l → mine key

open Classical in
/-- A lifecycle that is not mine, where a query has one. -/
noncomputable def foreignKey (mine : ℕ → Prop) (t : Store D) (q : PaymentLifecycleRow → Bool) :
    ℕ :=
  if h : ∃ key, ¬ mine key ∧ ∃ l, t.lifecycles[key]? = some l ∧ q l then h.choose else 0

/-- An order that returns the rows of others first. -/
noncomputable def foreignOrder (mine : ℕ → Prop) (t : Store D) :
    RowOrder (Store D) Store.lifecycles :=
  .preferring fun _ q => foreignKey mine t q

/-- This order returns a lifecycle of mine only when there is no other. -/
theorem foreignOrder_first {st : Store D} (hsame : HasLifecycles t.lifecycles st)
    {p : CorrelationProfile} {key : ℕ} {row : PaymentLifecycleRow}
    (hfirst : (foreignOrder mine t).first st (lookup org p) = some (key, row))
    (hmine : mine key) (key' : ℕ) (l : PaymentLifecycleRow) (hl : t.lifecycles[key']? = some l)
    (hlookup : lookup org p l) : mine key' := by
  by_contra hno
  have hex : ∃ key, ¬ mine key ∧ ∃ l, t.lifecycles[key]? = some l ∧ lookup org p l :=
    ⟨key', hno, l, hl, hlookup⟩
  have hkey : foreignKey mine t (lookup org p) = hex.choose := dif_pos hex
  obtain ⟨hforeign, r, hr, hlr⟩ := hex.choose_spec
  obtain ⟨r', hr', -, hlr'⟩ := row_at_start hsame hr hlr
  rw [← hkey] at hforeign hr'
  have hfirst' : (foreignOrder mine t).first st (lookup org p) = some (_, r') :=
    RowOrder.preferring_first hr' hlr'
  rw [hfirst] at hfirst'
  have hsamekey : key = foreignKey mine t (lookup org p) :=
    congrArg Prod.fst (Option.some.inj hfirst')
  exact hforeign (hsamekey ▸ hmine)

variable {report : LifecycleStatusReport}

theorem exists_event_of_finds (h : Summarizes result report)
    (hfinds : FindsOnly org mine report t) :
    ∃ key, mine key ∧
      HasEvent org messageHash key (reportFinal env org result isoId messageHash t) := by
  obtain ⟨tx, htx, ⟨l, hl, hlookup⟩, honly⟩ := hfinds
  obtain ⟨it, hit, hitem⟩ : ∃ it ∈ reportSteps env org result isoId messageHash t,
      it.item = profileFromStatus report tx := h.exists_step htx
  obtain ⟨-, -, -, hsame⟩ := h.step hit
  obtain ⟨i, hi⟩ := List.getElem?_of_mem hl
  obtain ⟨row, hrow, -, hrowlookup⟩ := row_at_start hsame hi hlookup
  obtain ⟨key, row', hfind⟩ : ∃ key row', findLifecycle env org (profileFromStatus report tx)
      it.start = some (key, row') := RowOrder.exists_first hrow hrowlookup
  obtain ⟨hget, hkeylookup⟩ := findLifecycle_some hfind
  obtain ⟨row₀, hrow₀, hstrip⟩ := hsame.row hget
  refine ⟨key, honly key row₀ hrow₀ (by rwa [lookup_of_stripped hstrip]), ?_⟩
  refine (hasEvent_fold env h.truthy _ _ _ _).mpr (.inr ⟨it, hit, row', ?_⟩)
  rw [hitem]
  exact hfind

theorem finds_of_events (env : Env D) (h : Summarizes result report)
    (hnone : ∀ key, mine key → ¬ HasEvent org messageHash key t)
    (hall : ∀ order : RowOrder (Store D) Store.lifecycles, ∃ key, mine key ∧
      HasEvent org messageHash key
        (reportFinal { env with lifecycleOrder := order } org result isoId messageHash t)) :
    FindsOnly org mine report t := by
  obtain ⟨key, hmine, hevent⟩ := hall (foreignOrder mine t)
  rcases (hasEvent_fold _ h.truthy _ _ _ _).mp hevent with hevent | ⟨it, hit, row, hfind⟩
  · exact absurd hevent (hnone key hmine)
  · obtain ⟨tx, htx, hitem, hsame⟩ := h.step hit
    rw [hitem] at hfind
    obtain ⟨hget, hlookup⟩ := findLifecycle_some hfind
    obtain ⟨row₀, hrow₀, hstrip⟩ := hsame.row hget
    refine ⟨tx, htx, ⟨row₀, List.mem_of_getElem? hrow₀, ?_⟩, ?_⟩
    · rw [lookup_of_stripped hstrip]
      exact hlookup
    · exact foreignOrder_first hsame hfind hmine

end

section

variable [DecidableEq D]

/-- The lifecycle has an event of the message. -/
def EventOf (env : Env D) (org : String) (pipeline : AnalysisPipeline) (m : Arrival) (key : ℕ)
    (s : Store D) : Prop :=
  ∃ result, pipeline.analyzeIso env.hash m.payload m.clock = .ok result ∧
    HasEvent org (env.hash.message (messageKey result)) key s

/-- A lifecycle that the payment created or updated has an event of the report. -/
def CorrelatedWith (env : Env D) (org : String) (pipeline : AnalysisPipeline)
    (payment report : Arrival) (before after : Store D) : Prop :=
  ∃ key, EventOf env org pipeline payment key before ∧ EventOf env org pipeline report key after

/-- A status report that follows a payment leaves an event on one of its lifecycles, in whatever
order the database returns its rows, exactly when it left one there earlier, or it is new and one
of its transactions has lifecycles of the payment to find and no others. -/
theorem followsPayment_iff (env : Env D) (org : String) (pipeline : AnalysisPipeline)
    (payment report : Arrival) (s : Store D) {root : Xml.Element}
    {registered : Iso.RegisteredMessage} {statusReport : LifecycleStatusReport}
    {result : IsoAnalysisResult D}
    (hparse : pipeline.parseIso report.payload report.clock =
      .ok (root, registered, .status statusReport))
    (hresult : pipeline.analyzeIso env.hash report.payload report.clock = .ok result) :
    (∀ order : RowOrder (Store D) Store.lifecycles,
      CorrelatedWith env org pipeline payment report (arrive env org pipeline payment s)
        (arrive { env with lifecycleOrder := order } org pipeline report
          (arrive env org pipeline payment s))) ↔
      CorrelatedWith env org pipeline payment report (arrive env org pipeline payment s)
          (arrive env org pipeline payment s) ∨
        ¬ Known env org result (arrive env org pipeline payment s) ∧
          FindsOnly org (EventOf env org pipeline payment · (arrive env org pipeline payment s))
            statusReport (arrive env org pipeline payment s) := by
  generalize arrive env org pipeline payment s = t
  have hsum := result_of_status hparse hresult
  have hevents : ∀ key s', EventOf env org pipeline report key s' ↔
      HasEvent org (env.hash.message (messageKey result)) key s' := by
    intro key s'
    constructor
    · rintro ⟨result', hresult', hevent⟩
      rw [hresult] at hresult'
      cases hresult'
      exact hevent
    · exact fun hevent => ⟨result, hresult, hevent⟩
  by_cases hk : Known env org result t
  · -- the report changes nothing
    have hsame : ∀ order : RowOrder (Store D) Store.lifecycles,
        arrive { env with lifecycleOrder := order } org pipeline report t = t := fun order =>
      lifecycles_of_known hresult hk
    simp only [hsame, hk, not_true_eq_false, false_and, or_false]
    exact ⟨fun h => h env.lifecycleOrder, fun h _ => h⟩
  have hfinal : ∀ order : RowOrder (Store D) Store.lifecycles,
      arrive { env with lifecycleOrder := order } org pipeline report t =
        reportFinal { env with lifecycleOrder := order } org result t.isoMessages.length
          (env.hash.message (messageKey result)) (recorded env org result t) := fun order =>
    final_status hresult hk hsum.reports hsum.statusReport
  simp only [hfinal, CorrelatedWith, hevents]
  constructor
  · intro hall
    rw [or_iff_not_imp_left]
    intro hearlier
    refine ⟨hk, ?_⟩
    have hfinds : FindsOnly org (EventOf env org pipeline payment · t) statusReport
        (recorded env org result t) :=
      finds_of_events env hsum (fun key hmine hevent => hearlier ⟨key, hmine, hevent⟩) hall
    exact hfinds
  · rintro (⟨key, hmine, hevent⟩ | ⟨-, hfinds⟩) order
    · exact ⟨key, hmine, (hasEvent_fold _ hsum.truthy _ _ _ _).mpr (.inl hevent)⟩
    · exact exists_event_of_finds (t := recorded env org result t) hsum hfinds

end

/-! ## The rejection of a whole message -/

/-- The tree of a payment with a message id. -/
def namedPaymentTree : Xml.Element :=
  Repair.isoElement "Document" none [Repair.isoElement "FIToFICstmrCdtTrf" none [
    Repair.isoElement "GrpHdr" none [Repair.isoElement "MsgId" (some "M-1") []],
    Repair.isoElement "CdtTrfTxInf" none [
      Repair.isoElement "PmtId" none [Repair.isoElement "EndToEndId" (some "E-1") []]]]]

/-- A report on the message, with these transactions. -/
def groupTree (blocks : List Xml.Element) : Xml.Element :=
  statusElement "Document" none [statusElement "FIToFIPmtStsRpt" none
    (statusElement "OrgnlGrpInfAndSts" none [
      statusElement "OrgnlMsgId" (some "M-1") [],
      statusElement "GrpSts" (some "RJCT") []] :: blocks)]

/-- A pipeline for the payment and a report with these transactions. -/
def groupPipeline (blocks : List Xml.Element) : AnalysisPipeline :=
  pairPipeline namedPaymentTree (groupTree blocks)

/-- The payment as it is mapped. -/
def namedMessage : PaymentMessage :=
  { earlyMessage with messageId := some "M-1" }

/-- A status of the whole message. -/
def groupStatus : LifecycleStatusReport where
  messageFamily := "pacs"
  messageDefinition := "FIToFIPaymentStatusReportV16"
  messageVersion := "pacs.002.001.16"
  namespace_ := "urn:iso:std:iso:20022:tech:xsd:pacs.002.001.16"
  originalMessageId := some "M-1"
  groupStatusRaw := some "RJCT"
  groupStatus := .rejected

theorem namedMessage_parse (blocks : List Xml.Element) :
    (groupPipeline blocks).parseIso earlyPayment.payload earlyPayment.clock =
      .ok (namedPaymentTree, ⟨"pacs", Iso.pacs008Version, .pacs008⟩, .payment namedMessage) := by
  have hmessage : Iso.mapPacs008ToCanonical .ascii namedPaymentTree Iso.pacs008Version 0 =
      .ok namedMessage := by
    decide +kernel
  have hmap : Iso.Adapter.map .ascii 0 namedPaymentTree Iso.pacs008Version .pacs008 =
      .ok (.payment namedMessage) := by
    rw [Iso.Adapter.map, hmessage]
    rfl
  have hparse : (groupPipeline blocks).parseIso earlyPayment.payload earlyPayment.clock =
      (Iso.Adapter.map .ascii 0 namedPaymentTree Iso.pacs008Version .pacs008 >>= fun artifact =>
        pure (namedPaymentTree, ⟨"pacs", Iso.pacs008Version, .pacs008⟩, artifact)) := rfl
  rw [hparse, hmap]
  rfl

theorem groupStatus_parse : (groupPipeline []).parseIso earlyReport.payload earlyReport.clock =
    .ok (groupTree [], mixedRegistered, .status groupStatus) := by
  rfl

/-- The same rejection, with the reference of the transaction. -/
def referredStatus : LifecycleStatusReport :=
  { groupStatus with
    transactionStatuses := [
      { originalEndToEndId := some "E-1", rawIsoStatus := some "RJCT"
        normalizedStatus := .rejected }] }

/-- A pipeline whose report names the transaction. -/
def referringPipeline : AnalysisPipeline := groupPipeline [statusBlock "E-1" "RJCT"]

theorem referredStatus_parse :
    referringPipeline.parseIso earlyReport.payload earlyReport.clock =
      .ok (groupTree [statusBlock "E-1" "RJCT"], mixedRegistered, .status referredStatus) := by
  rfl

/-- The store after the payment. -/
def referredStore : Store Digest := arrive mixedEnv "org" referringPipeline earlyPayment {}

/-- The transaction finds the lifecycle of the payment. -/
theorem followsPayment_iff_sample :
    CorrelatedWith mixedEnv "org" referringPipeline earlyPayment earlyReport referredStore
      (arrive mixedEnv "org" referringPipeline earlyReport referredStore) := by
  have hcreated : ∃ r ∈ (referringPipeline.analyzeIso mixedEnv.hash earlyPayment.payload
      earlyPayment.clock).toOption,
      HasEvent "org" (mixedEnv.hash.message (messageKey r)) 0 referredStore := by
    decide +kernel
  obtain ⟨r, hr, hevent⟩ := hcreated
  have hpayment : EventOf mixedEnv "org" referringPipeline earlyPayment 0 referredStore := by
    refine ⟨r, ?_, hevent⟩
    rcases ha : referringPipeline.analyzeIso mixedEnv.hash earlyPayment.payload
      earlyPayment.clock with e | result
    · rw [ha] at hr
      cases hr
    · rw [ha] at hr
      cases hr
      rfl
  have hlength : referredStore.lifecycles.length = 1 := by
    decide +kernel
  refine (followsPayment_iff mixedEnv "org" referringPipeline earlyPayment earlyReport {}
    referredStatus_parse (AnalysisPipeline.analyzeIso_of_parse referredStatus_parse)).mpr
    (.inr ⟨by decide +kernel, ?_⟩) mixedEnv.lifecycleOrder
  refine ⟨_, List.mem_cons_self, by decide +kernel, fun key l hl _ => ?_⟩
  obtain rfl : key = 0 := by
    have hkey : key < referredStore.lifecycles.length := (List.getElem?_eq_some_iff.mp hl).1
    omega
  exact hpayment

/-- The rejection of the whole message reaches no lifecycle. -/
theorem group_rejection_lost :
    namedMessage.messageId = some "M-1" ∧ groupStatus.originalMessageId = some "M-1" ∧
      (groupPipeline []).parseIso earlyPayment.payload earlyPayment.clock =
        .ok (namedPaymentTree, ⟨"pacs", Iso.pacs008Version, .pacs008⟩, .payment namedMessage) ∧
      (groupPipeline []).parseIso earlyReport.payload earlyReport.clock =
        .ok (groupTree [], mixedRegistered, .status groupStatus) ∧
      ¬ CorrelatedWith mixedEnv "org" (groupPipeline []) earlyPayment earlyReport
        (arrive mixedEnv "org" (groupPipeline []) earlyPayment {})
        (arrive mixedEnv "org" (groupPipeline []) earlyReport
          (arrive mixedEnv "org" (groupPipeline []) earlyPayment {})) := by
  refine ⟨rfl, rfl, namedMessage_parse [], groupStatus_parse, ?_⟩
  rintro ⟨key, -, result, hresult, e, he, -, -, hhash⟩
  rw [AnalysisPipeline.analyzeIso_of_parse groupStatus_parse] at hresult
  cases hresult
  have hnone : ∀ e ∈ (arrive mixedEnv "org" (groupPipeline []) earlyReport
      (arrive mixedEnv "org" (groupPipeline []) earlyPayment {})).lifecycleEvents,
      e.sourceHash ≠ some (mixedEnv.hash.message (messageKey
        (AnalysisPipeline.isoStatusResult mixedEnv.hash mixedRegistered true groupStatus))) := by
    decide +kernel
  exact hnone e he hhash

end IsoAnalysis

end PaymentOps
