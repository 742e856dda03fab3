import PaymentOps.Repair.Simulation
import PaymentOps.Service.PaymentLifecycles
import PaymentOps.Service.Retry

/-!
# A status report that arrives before its payment

A status report that finds no lifecycle is recorded, and nothing of it is left for the payment
that arrives later.

* `arrivalIndependent_iff`: the two orders of arrival lead to the same statuses exactly when one
  of the messages was ingested before, no transaction has a reference, or the reported status is
  unknown;
* `early_report_lost` is a payment whose acceptance arrives first.
-/

namespace PaymentOps.IsoAnalysis

open Text Lifecycle

variable {D : Type} [DecidableEq D] {env : Env D} {org : String} {pipeline : AnalysisPipeline}
  {s t : Store D}

/-- A payload and the time of its receipt. -/
structure Arrival where
  payload : List UInt8
  clock : Instant

/-- The store after a message. -/
def arrive (env : Env D) (org : String) (pipeline : AnalysisPipeline) (m : Arrival)
    (s : Store D) : Store D :=
  ((analyzeIsoMessage env org pipeline m.payload m.clock).run s).final s

/-- The statuses of the lifecycles. -/
def statuses (s : Store D) : List String := s.lifecycles.map (·.currentStatus)

/-- The lifecycles have the same statuses in both orders of arrival. -/
def ArrivalIndependent (env : Env D) (org : String) (pipeline : AnalysisPipeline)
    (payment report : Arrival) (s : Store D) : Prop :=
  statuses (arrive env org pipeline report (arrive env org pipeline payment s)) =
    statuses (arrive env org pipeline payment (arrive env org pipeline report s))

/-! ## The status report -/

section

variable {result : IsoAnalysisResult D} {report : LifecycleStatusReport} {m : Arrival}

/-- A lifecycle keeps its status, or a transaction looks it up and it gets that of the first. -/
theorem status_arrive (hsum : Summarizes result report)
    (hresult : pipeline.analyzeIso env.hash m.payload m.clock = .ok result) (key : ℕ) :
    (statuses (arrive env org pipeline m t))[key]? = (statuses t)[key]? ∨
      ∃ tx ∈ report.transactionStatuses, ∃ row, t.lifecycles[key]? = some row ∧
        lookup org (profileFromStatus report tx) row ∧
        ∃ first, report.transactionStatuses.head?.map (·.normalizedStatus) = some first ∧
          (statuses (arrive env org pipeline m t))[key]? = some first.value := by
  simp only [statuses, List.getElem?_map]
  by_cases hk : Known env org result t
  · left
    rw [arrive, lifecycles_of_known hresult hk]
  · rw [arrive, final_status hresult hk hsum.reports hsum.statusReport]
    by_cases hfound : ∃ it ∈ reportSteps env org result t.isoMessages.length
        (env.hash.message (messageKey result)) (recorded env org result t), ∃ row,
        findLifecycle env org (profileFromDict it.item) it.start = some (key, row)
    · right
      obtain ⟨it, hit, row, hrow⟩ := hfound
      obtain ⟨tx, htx, hitem, hsame⟩ := hsum.step hit
      obtain ⟨hget, hlookup⟩ := findLifecycle_some hrow
      obtain ⟨row₀, hrow₀, hstrip⟩ := hsame.row hget
      rw [hitem] at hlookup
      refine ⟨tx, htx, row₀, hrow₀, ?_, hsum.final hit hrow⟩
      rw [lookup_of_stripped hstrip]
      exact hlookup
    · left
      have hsame : (reportFinal env org result t.isoMessages.length
          (env.hash.message (messageKey result)) (recorded env org result t)).lifecycles[key]? =
          t.lifecycles[key]? :=
        lifecycle_final hsum.truthy result.correlationProfiles {} (recorded env org result t) key
          fun it hit row hrow =>
            hfound ⟨it, hit, row, hrow⟩
      exact congrArg (Option.map (·.currentStatus)) hsame

/-- A report that looks up no lifecycle leaves the statuses as they are. -/
theorem statuses_arrive (hsum : Summarizes result report)
    (hresult : pipeline.analyzeIso env.hash m.payload m.clock = .ok result)
    (h : ∀ tx ∈ report.transactionStatuses, ∀ row ∈ t.lifecycles,
      ¬ lookup org (profileFromStatus report tx) row) :
    statuses (arrive env org pipeline m t) = statuses t := by
  refine List.ext_getElem? fun key => ?_
  rcases status_arrive hsum hresult key with hsame | ⟨tx, htx, row, hrow, hlookup, -⟩
  · exact hsame
  · exact absurd hlookup (h tx htx row (List.mem_of_getElem? hrow))

/-- A lifecycle that shares a reference with the report gets the status of the first
transaction, or another one does. -/
theorem status_of_shared (hsum : Summarizes result report)
    (hresult : pipeline.analyzeIso env.hash m.payload m.clock = .ok result)
    (hnew : ¬ Known env org result t) {tx : TransactionStatus}
    (htx : tx ∈ report.transactionStatuses) {l : PaymentLifecycleRow} (hl : l ∈ t.lifecycles)
    (hlookup : lookup org (profileFromStatus report tx) l) :
    ∃ key < t.lifecycles.length, ∃ first,
      report.transactionStatuses.head?.map (·.normalizedStatus) = some first ∧
        (statuses (arrive env org pipeline m t))[key]? = some first.value := by
  obtain ⟨it, hit, hitem⟩ : ∃ it ∈ reportSteps env org result t.isoMessages.length
      (env.hash.message (messageKey result)) (recorded env org result t),
      it.item = profileFromStatus report tx := hsum.exists_step htx
  obtain ⟨-, -, -, hsame⟩ := hsum.step hit
  obtain ⟨i, hi⟩ := List.mem_iff_getElem?.mp hl
  obtain ⟨row, hrow, -, hrowlookup⟩ := row_at_start hsame hi hlookup
  obtain ⟨key, row', hfind⟩ : ∃ key row', findLifecycle env org (profileFromStatus report tx)
      it.start = some (key, row') := RowOrder.exists_first hrow hrowlookup
  have hfind' : findLifecycle env org (profileFromDict it.item) it.start = some (key, row') := by
    rw [hitem]
    exact hfind
  obtain ⟨row₀, hrow₀, -⟩ := hsame.row (findLifecycle_some hfind).1
  obtain ⟨first, hfirst, hfinal⟩ := hsum.final hit hfind'
  refine ⟨key, (List.getElem?_eq_some_iff.mp hrow₀).1, first, hfirst, ?_⟩
  rw [arrive, final_status hresult hnew hsum.reports hsum.statusReport, statuses,
    List.getElem?_map]
  exact hfinal

end

/-! ## Both orders -/

omit [DecidableEq D] in
/-- A payment and a report have different keys. -/
theorem messageKey_ne {result result' : IsoAnalysisResult D}
    (hpay : isStatusReport result = false) (hreport : isStatusReport result') :
    messageKey result ≠ messageKey result' := by
  intro h
  have hversion : result.messageVersion = result'.messageVersion := congrArg MessageKey.version h
  rw [isStatusReport, hversion] at hpay
  exact absurd hreport (by simp [isStatusReport, hpay])

/-- Whether a message was ingested before does not depend on another one. -/
theorem known_arrive {result result' : IsoAnalysisResult D} {m : Arrival}
    (hne : env.hash.message (messageKey result) ≠ env.hash.message (messageKey result'))
    (hresult : pipeline.analyzeIso env.hash m.payload m.clock = .ok result) :
    Known env org result' (arrive env org pipeline m s) ↔ Known env org result' s := by
  unfold Known
  rw [arrive, isoMessages_final hresult]
  split_ifs
  · rfl
  · constructor
    · rintro ⟨r, hr, hash⟩
      rcases List.mem_append.mp hr with hr | hr
      · exact ⟨r, hr, hash⟩
      · obtain rfl := List.mem_singleton.mp hr
        exact absurd (by simpa [hasHash, isoMessageRow] using hash) hne
    · rintro ⟨r, hr, hash⟩
      exact ⟨r, List.mem_append_left _ hr, hash⟩

omit [DecidableEq D] in
/-- What a payment opens is not known to have a status, and carries no original message id. -/
theorem fresh_of_opened {message : PaymentMessage} {clock : Instant} {l : PaymentLifecycleRow}
    (hl : l ∈ openedBy org clock [] (profileFromMessage message)) :
    l.currentStatus = "UNKNOWN" ∧ l.originalMessageId = none := by
  rcases mem_openedBy hl with hl | ⟨data, hdata, rfl⟩
  · cases hl
  · obtain ⟨tx, -, rfl⟩ := List.mem_map.mp hdata
    exact ⟨rfl, rfl⟩

/-- An original message id finds no lifecycle without one. -/
theorem ownReference_of_lookup {p : CorrelationProfile} {l : PaymentLifecycleRow}
    (horig : l.originalMessageId = none) (h : lookup org p l) : OwnReference p l := by
  rcases (lookup_iff.mp h).2 with hp | hown
  · rw [horig] at hp
    cases hpo : p.originalMessageId with
    | none => simp [hpo] at hp
    | some v => simp [hpo] at hp
  · exact hown

section

variable {message : PaymentMessage} {statusReport : LifecycleStatusReport}
  {result : IsoAnalysisResult D} {payment report : Arrival}

/-- The reported status reaches a lifecycle of a payment that shares a reference. -/
theorem first_of_shared (hsum : Summarizes result statusReport)
    (hresult : pipeline.analyzeIso env.hash report.payload report.clock = .ok result)
    (hnew : ¬ Known env org result t)
    (ht : t.lifecycles = openedBy org payment.clock [] (profileFromMessage message))
    {p : CorrelationProfile} (hp : p ∈ profileFromMessage message) (href : HasReference p)
    {tx : TransactionStatus} (htx : tx ∈ statusReport.transactionStatuses)
    (hrefs : references (profileFromStatus statusReport tx) = references p) :
    ∃ key < t.lifecycles.length, ∃ first,
      statusReport.transactionStatuses.head?.map (·.normalizedStatus) = some first ∧
        (statuses (arrive env org pipeline report t))[key]? = some first.value := by
  obtain ⟨l, hl, hlookup⟩ : ∃ l ∈ openedBy org payment.clock [] (profileFromMessage message),
      lookup org (profileFromDict p) l := exists_lookup_openedBy hp href
  have hown : OwnReference p l := ownReference_of_lookup (fresh_of_opened hl).2 hlookup
  have hshared : lookup org (profileFromStatus statusReport tx) l :=
    lookup_iff.mpr ⟨(lookup_iff.mp hlookup).1, .inr ((ownReference_congr hrefs l).mpr hown)⟩
  exact status_of_shared hsum hresult hnew htx (by rwa [ht]) hshared

/-- On the lifecycles that a payment opened, a report of its references changes no status exactly
when none of them is present or the status is unknown. -/
theorem statuses_opened_iff (hsum : Summarizes result statusReport)
    (hresult : pipeline.analyzeIso env.hash report.payload report.clock = .ok result)
    (hnew : ¬ Known env org result t)
    (ht : t.lifecycles = openedBy org payment.clock [] (profileFromMessage message))
    (hrefs : ∀ refs, refs ∈ (profileFromMessage message).map references ↔
      refs ∈ (profileFromStatusReport statusReport).map references) :
    statuses (arrive env org pipeline report t) = statuses t ↔
      (∀ p ∈ profileFromMessage message, ¬ HasReference p) ∨
        statusReport.transactionStatuses.head?.map (·.normalizedStatus) = some .unknown := by
  have hfresh : ∀ l ∈ t.lifecycles, l.currentStatus = "UNKNOWN" ∧ l.originalMessageId = none :=
    fun l hl => fresh_of_opened (ht ▸ hl)
  constructor
  · intro hsame
    by_contra hno
    rw [not_or] at hno
    obtain ⟨hsome, hknown⟩ := hno
    push Not at hsome
    obtain ⟨p, hp, href⟩ := hsome
    obtain ⟨q, hq, hpq⟩ := List.mem_map.mp ((hrefs _).mp (List.mem_map_of_mem hp))
    obtain ⟨tx, htx, rfl⟩ := List.mem_map.mp hq
    obtain ⟨key, hkey, first, hfirst, hstatus⟩ :=
      first_of_shared hsum hresult hnew ht hp href htx hpq
    have hunknown : PaymentStatus.unknown.value = first.value := by
      rw [hsame, statuses, List.getElem?_map, List.getElem?_eq_getElem hkey, Option.map_some,
        (hfresh _ (List.getElem_mem hkey)).1] at hstatus
      exact Option.some.inj hstatus
    rw [hfirst, PaymentStatus.value_injective hunknown] at hknown
    exact hknown rfl
  · rintro (hnone | hunknown)
    · refine statuses_arrive hsum hresult fun tx htx row hrow hlookup => ?_
      obtain ⟨p, hp, hpq⟩ := List.mem_map.mp
        ((hrefs _).mpr (List.mem_map_of_mem (List.mem_map_of_mem htx)))
      have hown := ownReference_of_lookup (hfresh row hrow).2 hlookup
      exact hnone p hp ((hasReference_congr hpq).mpr hown.hasReference)
    · refine List.ext_getElem? fun key => ?_
      rcases status_arrive hsum hresult key with hsame |
        ⟨tx, htx, row, hrow, -, first, hfirst, hstatus⟩
      · exact hsame
      · -- the status that is set is the one that the lifecycle has
        rw [hunknown] at hfirst
        cases hfirst
        rw [hstatus, statuses, List.getElem?_map, hrow, Option.map_some,
          (hfresh row (List.mem_of_getElem? hrow)).1]
        rfl

end

/-- The two orders of arrival lead to the same statuses, for a payment and a report with the
references of its transactions, exactly when one of them was ingested before, no transaction has
a reference, or the first status of the report is unknown. -/
theorem arrivalIndependent_iff (env : Env D) (hinj : env.hash.Injective) (org : String)
    (pipeline : AnalysisPipeline) (payment report : Arrival) (s : Store D)
    {root root' : Xml.Element} {registered registered' : Iso.RegisteredMessage}
    {message : PaymentMessage} {statusReport : LifecycleStatusReport}
    {result result' : IsoAnalysisResult D}
    (hparse : pipeline.parseIso payment.payload payment.clock =
      .ok (root, registered, .payment message))
    (hresult : pipeline.analyzeIso env.hash payment.payload payment.clock = .ok result)
    (hparse' : pipeline.parseIso report.payload report.clock =
      .ok (root', registered', .status statusReport))
    (hresult' : pipeline.analyzeIso env.hash report.payload report.clock = .ok result')
    (hrefs : ∀ refs, refs ∈ (profileFromMessage message).map references ↔
      refs ∈ (profileFromStatusReport statusReport).map references)
    (hempty : s.lifecycles = []) :
    ArrivalIndependent env org pipeline payment report s ↔
      Known env org result s ∨ Known env org result' s ∨
        (∀ p ∈ profileFromMessage message, ¬ HasReference p) ∨
        statusReport.transactionStatuses.head?.map (·.normalizedStatus) = some .unknown := by
  obtain ⟨hpay, hnormalized, hreports, hprofiles⟩ := result_of_payment hparse hresult
  have hsum := result_of_status hparse' hresult'
  have hne : env.hash.message (messageKey result) ≠ env.hash.message (messageKey result') :=
    fun h => messageKey_ne hpay hsum.statusReport (hinj.message h)
  by_cases hk : Known env org result s
  · -- the payment changes nothing in either order
    refine iff_of_true ?_ (.inl hk)
    have hfirst : arrive env org pipeline payment s = s := lifecycles_of_known hresult hk
    have hsecond : arrive env org pipeline payment (arrive env org pipeline report s) =
        arrive env org pipeline report s :=
      lifecycles_of_known hresult ((known_arrive hne.symm hresult').mpr hk)
    rw [ArrivalIndependent, hfirst, hsecond]
  by_cases hk' : Known env org result' s
  · -- the report changes nothing in either order
    refine iff_of_true ?_ (.inr (.inl hk'))
    have hfirst : arrive env org pipeline report s = s := lifecycles_of_known hresult' hk'
    have hsecond : arrive env org pipeline report (arrive env org pipeline payment s) =
        arrive env org pipeline payment s :=
      lifecycles_of_known hresult' ((known_arrive hne hresult).mpr hk')
    rw [ArrivalIndependent, hfirst, hsecond]
  rw [or_iff_right hk, or_iff_right hk']
  have ht : (arrive env org pipeline payment s).lifecycles =
      openedBy org payment.clock [] (profileFromMessage message) := by
    have hleft := lifecycles_of_payment hresult hpay hreports hnormalized hk
    rwa [hprofiles, hempty] at hleft
  have hearly : (arrive env org pipeline report s).lifecycles = [] := by
    have hsame : statuses (arrive env org pipeline report s) = statuses s :=
      statuses_arrive hsum hresult' (by simp [hempty])
    rw [statuses, statuses, hempty] at hsame
    exact List.map_eq_nil_iff.mp hsame
  -- the payment that arrives late opens what it opens when it is the first
  have hlate : statuses (arrive env org pipeline payment (arrive env org pipeline report s)) =
      statuses (arrive env org pipeline payment s) := by
    have hleft := lifecycles_of_payment hresult hpay hreports hnormalized
      (mt (known_arrive hne.symm hresult').mp hk)
    rw [hprofiles, hearly] at hleft
    rw [statuses, statuses, ht]
    exact congrArg (List.map (·.currentStatus)) hleft
  rw [ArrivalIndependent, hlate]
  exact statuses_opened_iff hsum hresult' (mt (known_arrive hne hresult).mp hk') ht hrefs

/-! ## An acceptance that arrives first -/

/-- The tree of a payment. -/
def paymentTree : Xml.Element :=
  Repair.isoElement "Document" none [Repair.isoElement "FIToFICstmrCdtTrf" none [
    Repair.isoElement "CdtTrfTxInf" none [
      Repair.isoElement "PmtId" none [Repair.isoElement "EndToEndId" (some "E-1") []]]]]

/-- The tree of its status report. -/
def reportTree : Xml.Element :=
  statusElement "Document" none [statusElement "FIToFIPmtStsRpt" none [
    statusBlock "E-1" "ACCP"]]

/-- A pipeline whose XML library reads one of two trees. -/
def pairPipeline (payment report : Xml.Element) : AnalysisPipeline where
  generator := {
    unicode := .ascii
    xmlLibrary := {
      fromstring := fun payload => .ok (if payload = [60] then payment else report)
      validate := fun _ _ => true }
    provider := fun _ => {}
    rules := structuralRules }

/-- A pipeline for the payment and the report. -/
def earlyPipeline : AnalysisPipeline := pairPipeline paymentTree reportTree

/-- The arrival of the payment. -/
def earlyPayment : Arrival := ⟨[60], 0⟩
/-- The arrival of the report. -/
def earlyReport : Arrival := ⟨[62], 0⟩

/-- The payment as it is mapped. -/
def earlyMessage : PaymentMessage where
  messageType := some "pacs.008.001.08"
  transactions := [{
    endToEndId := some "E-1", sourcePath := some "/Document/FIToFICstmrCdtTrf/CdtTrfTxInf[0]" }]
  sourceFormat := .xmlPacs008
  receivedAt := 0
  sourceMetadata := [("message_name", "FIToFICustomerCreditTransferV08")]

/-- The report as it is mapped. -/
def earlyStatus : LifecycleStatusReport where
  messageFamily := "pacs"
  messageDefinition := "FIToFIPaymentStatusReportV16"
  messageVersion := "pacs.002.001.16"
  namespace_ := "urn:iso:std:iso:20022:tech:xsd:pacs.002.001.16"
  transactionStatuses := [
    { originalEndToEndId := some "E-1", rawIsoStatus := some "ACCP"
      normalizedStatus := .accepted }]

theorem earlyPayment_parse : earlyPipeline.parseIso earlyPayment.payload earlyPayment.clock =
    .ok (paymentTree, ⟨"pacs", Iso.pacs008Version, .pacs008⟩, .payment earlyMessage) := by
  have hmap : Iso.Adapter.map .ascii 0 paymentTree Iso.pacs008Version .pacs008 =
      .ok (.payment earlyMessage) := by
    have hmessage : Iso.mapPacs008ToCanonical .ascii paymentTree Iso.pacs008Version 0 =
        .ok earlyMessage := by
      decide +kernel
    rw [Iso.Adapter.map, hmessage]
    rfl
  have hparse : earlyPipeline.parseIso earlyPayment.payload earlyPayment.clock =
      (Iso.Adapter.map .ascii 0 paymentTree Iso.pacs008Version .pacs008 >>= fun artifact =>
        pure (paymentTree, ⟨"pacs", Iso.pacs008Version, .pacs008⟩, artifact)) := rfl
  rw [hparse, hmap]
  rfl

theorem earlyReport_parse : earlyPipeline.parseIso earlyReport.payload earlyReport.clock =
    .ok (reportTree, mixedRegistered, .status earlyStatus) := by
  rfl

theorem early_references (refs : Option String × Option String × Option String) :
    refs ∈ (profileFromMessage earlyMessage).map references ↔
      refs ∈ (profileFromStatusReport earlyStatus).map references := by
  rfl

theorem earlyPayment_result : ∃ result,
    earlyPipeline.analyzeIso mixedEnv.hash earlyPayment.payload earlyPayment.clock =
      .ok result := by
  apply Except.exists_of_toBool
  decide +kernel

/-- Neither message was ingested before, so the two orders differ. -/
theorem arrivalIndependent_iff_sample :
    ¬ ArrivalIndependent mixedEnv "org" earlyPipeline earlyPayment earlyReport {} := by
  obtain ⟨result, hresult⟩ := earlyPayment_result
  have hnew : ∀ result : IsoAnalysisResult Digest, ¬ Known mixedEnv "org" result {} := by
    rintro result ⟨r, hr, -⟩
    cases hr
  intro hsame
  rcases (arrivalIndependent_iff mixedEnv Hashing.structural_injective "org" earlyPipeline
    earlyPayment earlyReport {} earlyPayment_parse hresult earlyReport_parse
    (AnalysisPipeline.analyzeIso_of_parse earlyReport_parse) early_references rfl).mp hsame with
    hk | hk | hnone | hunknown
  · exact hnew _ hk
  · exact hnew _ hk
  · exact absurd hnone (by decide)
  · exact absurd hunknown (by decide)

/-- The acceptance that arrives first is lost. -/
theorem early_report_lost :
    (∀ refs, refs ∈ (profileFromMessage earlyMessage).map references ↔
      refs ∈ (profileFromStatusReport earlyStatus).map references) ∧
    statuses (arrive mixedEnv "org" earlyPipeline earlyReport
      (arrive mixedEnv "org" earlyPipeline earlyPayment {})) = ["ACCEPTED"] ∧
    statuses (arrive mixedEnv "org" earlyPipeline earlyPayment
      (arrive mixedEnv "org" earlyPipeline earlyReport {})) = ["UNKNOWN"] :=
  ⟨early_references, by decide +kernel, by decide +kernel⟩

end PaymentOps.IsoAnalysis
