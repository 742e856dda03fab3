import PaymentOps.Iso.CamtSchema
import PaymentOps.Iso.Registry
import PaymentOps.Lib.Fallible

/-!
# The references of account entries

An `Ntry` may book several payments: it has any number of `NtryDtls`, and each of these any number
of `TxDtls`.  The adapters read the first `TxDtls` of the first `NtryDtls` only.

* `exists_bundle`: an accepted message is mapped;
* `losesNothing_iff`: its entries keep every reference exactly when no `TxDtls` has one that the
  first one lacks;
* `batch_booking_loses` is a batch booking of two payments.
-/

namespace PaymentOps.Iso

open Text Xml

/-! ## References -/

/-- The references that an entry has. -/
inductive Reference where
  | transactionId | endToEndId | instructionId | uetr
  deriving DecidableEq, Repr

namespace Reference

/-- The element of a reference. -/
def name : Reference → String
  | transactionId => "TxId"
  | endToEndId => "EndToEndId"
  | instructionId => "InstrId"
  | uetr => "UETR"

/-- The reference in a `TxDtls`. -/
def ofDetails (r : Reference) (tx : Option Element) : Option String :=
  childText (child tx "Refs") r.name

/-- The reference as the mapped entry has it. -/
def ofEntry (e : AccountEntry) : Reference → Option String
  | transactionId => e.transactionId
  | endToEndId => e.endToEndId
  | instructionId => e.instructionId
  | uetr => e.uetr

end Reference

/-- All the `TxDtls` of an `Ntry`. -/
def transactionDetails (ntry : Element) : List Element :=
  (children (some ntry) "NtryDtls").flatMap fun details => children (some details) "TxDtls"

/-- The `TxDtls` that the adapters read. -/
def firstDetails (ntry : Element) : Option Element :=
  child (child (some ntry) "NtryDtls") "TxDtls"

/-- Each reference of an `Ntry` is that of some entry. -/
def Covers (ntry : Element) (entries : List AccountEntry) : Prop :=
  ∀ tx ∈ transactionDetails ntry, ∀ (r : Reference) (v : String),
    r.ofDetails (some tx) = some v → ∃ e ∈ entries, r.ofEntry e = some v

/-- Every `Ntry` produces entries, in document order, which have all its references. -/
def LosesNothing (ntries : List Element) (entries : List AccountEntry) : Prop :=
  ∃ groups : List (List AccountEntry), groups.flatten = entries ∧
    List.Forall₂ (fun ntry group => group ≠ [] ∧ Covers ntry group) ntries groups

/-- The first `TxDtls` has the references of all. -/
def FirstHasAll (ntry : Element) : Prop :=
  ∀ tx ∈ transactionDetails ntry, ∀ (r : Reference) (v : String),
    r.ofDetails (some tx) = some v → r.ofDetails (firstDetails ntry) = some v

/-! ## One entry -/

section

variable {u : Unicode} {ntry : Element} {path : String} {e : AccountEntry}

theorem ofEntry_mapEntry (h : Camt.mapEntry u ntry path = .ok e) (r : Reference) :
    r.ofEntry e = r.ofDetails (firstDetails ntry) := by
  obtain ⟨amount, -, h⟩ := Except.bind_eq_ok.mp h
  obtain rfl := Except.pure_eq_ok.mp h
  cases r <;> rfl

theorem covers_mapEntry (h : Camt.mapEntry u ntry path = .ok e) :
    Covers ntry [e] ↔ FirstHasAll ntry := by
  simp only [Covers, FirstHasAll, List.mem_singleton, exists_eq_left, ofEntry_mapEntry h]

end

/-! ## All entries -/

/-- As many nonempty groups as members are groups of one. -/
theorem groups_eq_singletons {α : Type} {groups : List (List α)} (hne : ∀ g ∈ groups, g ≠ [])
    (hlength : groups.flatten.length = groups.length) : groups = groups.flatten.map ([·]) := by
  have hle : ∀ groups : List (List α), (∀ g ∈ groups, g ≠ []) →
      groups.length ≤ groups.flatten.length := by
    intro groups hne
    induction groups with
    | nil => exact Nat.le_refl _
    | cons g groups ih =>
      have hg := List.length_pos_of_ne_nil (hne g List.mem_cons_self)
      have hrest := ih fun g' hg' => hne g' (List.mem_cons_of_mem _ hg')
      rw [List.flatten_cons, List.length_append, List.length_cons]
      omega
  induction groups with
  | nil => rfl
  | cons g groups ih =>
    have hrest : ∀ g' ∈ groups, g' ≠ [] := fun g' hg' => hne g' (List.mem_cons_of_mem _ hg')
    have hg := List.length_pos_of_ne_nil (hne g List.mem_cons_self)
    have hmore := hle groups hrest
    rw [List.flatten_cons, List.length_append, List.length_cons] at hlength
    obtain ⟨a, rfl⟩ := List.length_eq_one_iff.mp (by omega : g.length = 1)
    have hrec := ih hrest (by omega)
    rw [List.flatten_cons, List.singleton_append, List.map_cons, ← hrec]

theorem losesNothing_of_mapped {u : Unicode} {path : String} {ntries : List Element}
    {entries : List AccountEntry}
    (h : List.Forall₂ (fun ntry e => Camt.mapEntry u ntry path = .ok e) ntries entries) :
    LosesNothing ntries entries ↔ ∀ ntry ∈ ntries, FirstHasAll ntry := by
  have hone : List.Forall₂ (fun ntry group => group ≠ [] ∧ Covers ntry group) ntries
      (entries.map ([·])) ↔ ∀ ntry ∈ ntries, FirstHasAll ntry := by
    rw [List.forall₂_map_right_iff]
    induction h with
    | nil => simp
    | cons hmap _ ih =>
      rw [List.forall₂_cons, ih, covers_mapEntry hmap]
      simp
  rw [← hone]
  constructor
  · rintro ⟨groups, hflatten, hgroups⟩
    have hne : ∀ g ∈ groups, g ≠ [] := by
      intro g hg
      obtain ⟨i, hi, rfl⟩ := List.getElem_of_mem hg
      exact (hgroups.get (hgroups.length_eq ▸ hi) hi).1
    have hlength : groups.flatten.length = groups.length := by
      rw [hflatten, ← hgroups.length_eq, h.length_eq]
    rw [← hflatten, ← groups_eq_singletons hne hlength]
    exact hgroups
  · intro hgroups
    refine ⟨entries.map ([·]), ?_, hgroups⟩
    rw [← List.flatMap_def]
    exact List.flatMap_singleton' entries

/-! ## A message -/

/-- The adapter of the messages with these reports. -/
def mapReports (u : Unicode) (version : SupportedVersion) (root : Element) :
    AccountReportType → Except ServiceError AccountReportBundle
  | .statement => mapCamt053ToAccountReport u root version
  | .notification => mapCamt054ToAccountReport u root version

/-- The `Ntry` elements of a message, in document order. -/
def ntriesOf (type : AccountReportType) (root : Element) : List Element :=
  (CamtSchema.reports type root).flatMap fun r => children (some r) "Ntry"

/-- The path of the entries of each kind of report. -/
def entryPath : AccountReportType → String
  | .statement => "/BkToCstmrStmt/Stmt/Ntry"
  | .notification => "/BkToCstmrDbtCdtNtfctn/Ntfctn/Ntry"

section

variable {dates : DateTypes} {type : AccountReportType} {root e : Element}

/-- The report has the entries of the element. -/
def HasEntries (u : Unicode) (path : String) (e : Element) (report : AccountReport) : Prop :=
  List.Forall₂ (fun ntry entry => Camt.mapEntry u ntry path = .ok entry)
    (children (some e) "Ntry") report.entries

theorem exists_mapAmount (u : Unicode) {amount : Option Element}
    (h : ∀ a, amount = some a → CamtSchema.activeOrHistoricCurrencyAndAmount a) :
    ∃ m, mapAmount u amount = .ok m := by
  cases amount with
  | none => exact ⟨none, rfl⟩
  | some a => exact CamtSchema.mapAmount_of_accepted u (h a rfl)

theorem exists_entries (u : Unicode) (path : String) (h : CamtSchema.report dates type e) :
    ∃ entries, (children (some e) "Ntry").mapM (Camt.mapEntry u · path) = .ok entries := by
  refine Except.exists_mapM fun ntry hntry => ?_
  obtain ⟨m, hm⟩ : ∃ m, mapAmount u (child (some ntry) "Amt") = .ok m :=
    exists_mapAmount u fun a ha =>
      CamtSchema.amount_of_entry (CamtSchema.entry_of_report h hntry) ha
  exact ⟨_, Except.bind_eq_ok.mpr ⟨m, hm, rfl⟩⟩

theorem exists_balances (u : Unicode) {ns : String} (h : CamtSchema.statement dates ns e) :
    ∃ balances, (children (some e) "Bal").mapM (Camt.mapBalance u) = .ok balances := by
  refine Except.exists_mapM fun bal hbal => ?_
  obtain ⟨m, hm⟩ : ∃ m, mapAmount u (child (some bal) "Amt") = .ok m :=
    exists_mapAmount u fun a ha => CamtSchema.amount_of_balance
      (CamtSchema.balance_of_statement h hbal) ha
  unfold Camt.mapBalance
  dsimp only
  split
  · exact ⟨none, rfl⟩
  · rw [hm]
    exact ⟨_, rfl⟩

theorem exists_statement (u : Unicode) (version : SupportedVersion) (grp : Option Element)
    (h : CamtSchema.report dates .statement e) :
    ∃ report, Camt.mapStatement u version grp e = .ok report ∧
      HasEntries u (entryPath .statement) e report := by
  obtain ⟨balances, hbalances⟩ := exists_balances u h
  obtain ⟨entries, hentries⟩ := exists_entries u (entryPath .statement) h
  exact ⟨_, Except.bind_eq_ok.mpr ⟨balances, hbalances,
    Except.bind_eq_ok.mpr ⟨entries, hentries, rfl⟩⟩, Except.forall₂_of_mapM hentries⟩

theorem exists_notification (u : Unicode) (version : SupportedVersion) (grp : Option Element)
    (h : CamtSchema.report dates .notification e) :
    ∃ report, Camt.mapNotification u version grp e = .ok report ∧
      HasEntries u (entryPath .notification) e report := by
  obtain ⟨entries, hentries⟩ := exists_entries u (entryPath .notification) h
  exact ⟨_, Except.bind_eq_ok.mpr ⟨entries, hentries, rfl⟩, Except.forall₂_of_mapM hentries⟩

/-- An accepted message is mapped, with one entry for each `Ntry`, in document order. -/
theorem exists_bundle (u : Unicode) (version : SupportedVersion)
    (h : CamtSchema.accepts dates type root) :
    ∃ bundle, mapReports u version root type = .ok bundle ∧
      List.Forall₂ (fun ntry entry => Camt.mapEntry u ntry (entryPath type) = .ok entry)
        (ntriesOf type root) (bundle.reports.flatMap (·.entries)) := by
  set grp := child (child (some root) (CamtSchema.messageName type)) "GrpHdr" with hgrp
  have hentries : ∀ {f : Element → Except ServiceError AccountReport},
      (∀ e, CamtSchema.report dates type e →
        ∃ report, f e = .ok report ∧ HasEntries u (entryPath type) e report) →
      ∃ reports, (CamtSchema.reports type root).mapM f = .ok reports ∧
        List.Forall₂ (fun ntry entry => Camt.mapEntry u ntry (entryPath type) = .ok entry)
          (ntriesOf type root) (reports.flatMap (·.entries)) := by
    intro f hf
    obtain ⟨reports, hreports⟩ : ∃ reports, (CamtSchema.reports type root).mapM f = .ok reports :=
      Except.exists_mapM fun e he => (hf e (CamtSchema.report_of_accepts h he)).imp fun _ h => h.1
    have hall : List.Forall₂ (HasEntries u (entryPath type)) (CamtSchema.reports type root)
        reports := by
      refine ((List.forall₂_and_left _ _).mpr ⟨fun e he => CamtSchema.report_of_accepts h he,
        Except.forall₂_of_mapM hreports⟩).imp fun e report hboth => ?_
      obtain ⟨report', hok, hentries⟩ := hf e hboth.1
      rw [hboth.2] at hok
      cases hok
      exact hentries
    exact ⟨reports, hreports, List.rel_flatMap hall fun e report hentries => hentries⟩
  cases type with
  | statement =>
    obtain ⟨reports, hreports, hall⟩ := hentries fun e he =>
      exists_statement u version grp he
    exact ⟨_, Except.bind_eq_ok.mpr ⟨reports, hreports, rfl⟩, hall⟩
  | notification =>
    obtain ⟨reports, hreports, hall⟩ := hentries fun e he =>
      exists_notification u version grp he
    exact ⟨_, Except.bind_eq_ok.mpr ⟨reports, hreports, rfl⟩, hall⟩

/-- The schema accepts only messages that are mapped, and the entries keep every reference of the
message exactly when the first `TxDtls` of every `Ntry` has them all. -/
theorem losesNothing_iff (u : Unicode) (dates : DateTypes) (version : SupportedVersion)
    (type : AccountReportType) (root : Element) (h : CamtSchema.accepts dates type root) :
    ∃ bundle, mapReports u version root type = .ok bundle ∧
      (LosesNothing (ntriesOf type root) (bundle.reports.flatMap (·.entries)) ↔
        ∀ ntry ∈ ntriesOf type root, FirstHasAll ntry) := by
  obtain ⟨bundle, hbundle, hentries⟩ := exists_bundle u version h
  exact ⟨bundle, hbundle, losesNothing_of_mapped hentries⟩

end

/-! ## A batch booking -/

/-- A tag in the namespace of statements. -/
def camtTag (name : String) : Tag := .name (some (CamtSchema.targetNamespace .statement)) name

/-- An element in the namespace of statements. -/
def camtElement (name : String) (text : Option String) (nodes : List Element) : Element :=
  .node (camtTag name) [] text nodes none

/-- The details of a transaction with this reference. -/
def bookedPayment (endToEndId : String) : Element :=
  camtElement "TxDtls" none [
    camtElement "Refs" none [camtElement "EndToEndId" (some endToEndId) []]]

/-- A statement with one `Ntry`, which books these payments. -/
def batchTree (endToEndIds : List String) : Element :=
  camtElement "Document" none [camtElement "BkToCstmrStmt" none [
    camtElement "GrpHdr" none [
      camtElement "MsgId" (some "S-1") [],
      camtElement "CreDtTm" (some "2026-01-01T00:00:00") []],
    camtElement "Stmt" none [
      camtElement "Id" (some "1") [],
      camtElement "Ntry" none [
        .node (camtTag "Amt") [("Ccy", "EUR")] (some "2.00") [] none,
        camtElement "CdtDbtInd" (some "CRDT") [],
        camtElement "NtryDtls" none (endToEndIds.map bookedPayment)]]]]

/-- Dates that are texts of any kind. -/
def anyDates : DateTypes := ⟨Xsd.string, Xsd.string⟩

/-- A statement about one payment. -/
theorem losesNothing_iff_sample :
    ∃ bundle, mapReports .ascii camt053Version (batchTree ["E-1"]) .statement = .ok bundle ∧
      LosesNothing (ntriesOf .statement (batchTree ["E-1"]))
        (bundle.reports.flatMap (·.entries)) := by
  obtain ⟨bundle, hbundle, hiff⟩ := losesNothing_iff .ascii anyDates camt053Version .statement
    (batchTree ["E-1"]) (by decide +kernel)
  refine ⟨bundle, hbundle, hiff.mpr ?_⟩
  have hfirst : ∀ ntry ∈ ntriesOf .statement (batchTree ["E-1"]), ∀ tx ∈ transactionDetails ntry,
      ∀ r ∈ [Reference.transactionId, .endToEndId, .instructionId, .uetr],
        r.ofDetails (some tx) = r.ofDetails (firstDetails ntry) := by
    decide +kernel
  intro ntry hntry tx htx r v hv
  rw [← hfirst ntry hntry tx htx r (by cases r <;> decide)]
  exact hv

/-- The second payment of a batch booking is lost. -/
theorem batch_booking_loses :
    CamtSchema.accepts anyDates .statement (batchTree ["E-1", "E-2"]) ∧
      ∃ bundle, mapReports .ascii camt053Version (batchTree ["E-1", "E-2"]) .statement =
          .ok bundle ∧
        ¬ LosesNothing (ntriesOf .statement (batchTree ["E-1", "E-2"]))
          (bundle.reports.flatMap (·.entries)) := by
  have haccepts : CamtSchema.accepts anyDates .statement (batchTree ["E-1", "E-2"]) := by
    decide +kernel
  obtain ⟨bundle, hbundle, hentries⟩ := exists_bundle .ascii camt053Version haccepts
  refine ⟨haccepts, bundle, hbundle, ?_⟩
  rw [losesNothing_of_mapped hentries]
  intro h
  have hlost : ∃ ntry ∈ ntriesOf .statement (batchTree ["E-1", "E-2"]),
      ∃ tx ∈ transactionDetails ntry, Reference.endToEndId.ofDetails (some tx) = some "E-2" ∧
        Reference.endToEndId.ofDetails (firstDetails ntry) ≠ some "E-2" := by
    decide +kernel
  obtain ⟨ntry, hntry, tx, htx, hv, hne⟩ := hlost
  exact hne (h ntry hntry tx htx .endToEndId "E-2" hv)

end PaymentOps.Iso
