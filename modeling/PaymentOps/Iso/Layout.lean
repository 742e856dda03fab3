import PaymentOps.Iso.PaymentSchema
import PaymentOps.Lib.DecimalText
import PaymentOps.Lib.XmlLayout

/-!
# Messages that differ in their layout

The adapters and the bundled schemas go by elements, so a message that was only laid out anew is
mapped to the same artifact, with the same schema result.

* `map_plain`: the adapters;
* `validateMessage_plain`: the schemas.
-/

namespace PaymentOps.Iso

open Text Xml Element Decimal

/-! ## The reads of the adapters -/

section

variable {name : String}

theorem strip_of_blank {t : String} (h : t.toList.all Xsd.isSpace) : strip t = "" := by
  have hspace : ∀ c ∈ t.toList, Text.isSpace c := by
    intro c hc
    have hc := List.all_eq_true.mp h c hc
    simp only [Xsd.isSpace, Bool.or_eq_true, decide_eq_true_eq] at hc
    rcases hc with ((rfl | rfl) | rfl) | rfl <;> decide
  rw [strip, List.dropWhile_eq_nil_iff.mpr hspace]
  rfl

@[simp] theorem text_some_plain (e : Element) : text (some e.plain) = text (some e) := by
  have hblank : ∀ t : Option String, ((unlessBlank t).bind fun t => orNone (strip t)) =
      t.bind fun t => orNone (strip t) := by
    intro t
    cases t with
    | none => rfl
    | some t =>
      rw [unlessBlank]
      split_ifs with h
      · rw [Option.bind_some, strip_of_blank (t := t) h]
        rfl
      · rfl
  rw [text, text, Option.bind_some, Option.bind_some, text_plain]
  split
  · exact hblank e.text
  · rfl

@[simp] theorem text_map_plain (el : Option Element) : text (el.map plain) = text el := by
  cases el with
  | none => rfl
  | some e => exact text_some_plain e

@[simp] theorem child_map_plain (hname : name ≠ "") (el : Option Element) :
    child (el.map plain) name = (child el name).map plain := by
  cases el with
  | none => rfl
  | some e => exact child_plain hname e

@[simp] theorem child_some_plain (hname : name ≠ "") (e : Element) :
    child (some e.plain) name = (child (some e) name).map plain := child_plain hname e

@[simp] theorem children_map_plain (hname : name ≠ "") (el : Option Element) :
    children (el.map plain) name = (children el name).map plain := by
  cases el with
  | none => rfl
  | some e => exact children_plain hname e

@[simp] theorem children_some_plain (hname : name ≠ "") (e : Element) :
    children (some e.plain) name = (children (some e) name).map plain := children_plain hname e

@[simp] theorem childText_map_plain (hname : name ≠ "") (el : Option Element) :
    childText (el.map plain) name = childText el name := by
  rw [childText, childText, child_map_plain hname, text_map_plain]

@[simp] theorem childText_some_plain (hname : name ≠ "") (e : Element) :
    childText (some e.plain) name = childText (some e) name := childText_map_plain hname (some e)

end

/-! ## The adapters -/

section

variable (u : Unicode) (el : Option Element) (e : Element) (path : String)

@[simp] theorem currencyOf_plain : currencyOf e.plain = currencyOf e := by
  rw [currencyOf, currencyOf, get_plain]

@[simp] theorem mapAmount_map_plain : mapAmount u (el.map plain) = mapAmount u el := by
  cases el with
  | none => rfl
  | some e =>
    simp only [mapAmount, Option.map_some, text_some_plain]
    cases text (some e) with
    | none => rfl
    | some value => simp only [currencyOf_plain]

@[simp] theorem mapAddress_map_plain : mapAddress (el.map plain) path = mapAddress el path := by
  cases el with
  | none => rfl
  | some e => simp [mapAddress, List.filterMap_map]

@[simp] theorem mapParty_map_plain : mapParty (el.map plain) path = mapParty el path := by
  cases el with
  | none => rfl
  | some e => simp [mapParty]

@[simp] theorem mapAccount_map_plain : mapAccount (el.map plain) path = mapAccount el path := by
  cases el with
  | none => rfl
  | some e => simp [mapAccount]

@[simp] theorem mapAgent_map_plain : mapAgent (el.map plain) path = mapAgent el path := by
  cases el with
  | none => rfl
  | some e => simp [mapAgent]

@[simp] theorem mapRemittance_map_plain :
    mapRemittance (el.map plain) path = mapRemittance el path := by
  cases el with
  | none => rfl
  | some e => simp [mapRemittance, List.filterMap_map]

@[simp] theorem paymentMessage_map_plain (version : SupportedVersion) (format : SourceFormat)
    (clock : Instant) (txs : List PaymentTransaction) (metadata : List (String × String)) :
    paymentMessage version format clock (el.map plain) txs metadata =
      paymentMessage version format clock el txs metadata := by
  simp [paymentMessage]

namespace Pacs008

/-- The amounts of a pacs.008 do not pass through `text`; a blank text and no text are zero. -/
theorem floatMinor_unlessBlank (t : Option String) :
    floatMinor u (strip ((Text.or (unlessBlank t) (some "0")).getD "0")) =
      floatMinor u (strip ((Text.or t (some "0")).getD "0")) := by
  have hempty : floatMinor u "" = .ok 0 := by rfl
  have hstrip : strip "0" = "0" := by decide +kernel
  have hzero : floatMinor u "0" = .ok 0 := by
    have hread : Decimal.ofFloatText u (strip "0") = some (.finite (Xsd.decimalValue "0")) :=
      Xsd.ofFloatText_strip u (by decide +kernel)
    rw [floatMinor, ← hstrip, hread]
    decide +kernel
  cases t with
  | none => rfl
  | some t =>
    rw [unlessBlank]
    split_ifs with h
    · have hnone : Text.or none (some "0") = some "0" := by rfl
      rw [hnone, Option.getD_some, hstrip, hzero]
      by_cases ht : truthy (some t)
      · rw [Text.or, if_pos ht, Option.getD_some, strip_of_blank (t := t) h, hempty]
      · rw [Text.or, if_neg ht, Option.getD_some, hstrip, hzero]
    · rfl

@[simp] theorem mapAmount_map_plain : mapAmount u (el.map plain) = mapAmount u el := by
  cases el with
  | none => rfl
  | some e =>
    have htext : floatMinor u (strip ((Text.or e.plain.text (some "0")).getD "0")) =
        floatMinor u (strip ((Text.or e.text (some "0")).getD "0")) := by
      rw [text_plain]
      split
      · exact floatMinor_unlessBlank u e.text
      · rfl
    rw [Option.map_some, mapAmount, mapAmount, htext, currencyOf_plain]

@[simp] theorem mapRemittance_map_plain :
    mapRemittance (el.map plain) path = mapRemittance el path := by
  cases el with
  | none => rfl
  | some e => simp [mapRemittance, List.filterMap_map]

@[simp] theorem mapTransaction_plain (index : ℕ) :
    mapTransaction u e.plain index = mapTransaction u e index := by
  simp [mapTransaction]

end Pacs008

@[simp] theorem Pain001.mapTransaction_plain (tx : Element) :
    mapTransaction u e.plain tx.plain = mapTransaction u e tx := by
  simp [mapTransaction]

namespace Pacs009

@[simp] theorem fiParty_map_plain : fiParty (el.map plain) path = fiParty el path := by
  cases el with
  | none => rfl
  | some e => simp [fiParty]

@[simp] theorem mapTransaction_plain : mapTransaction u e.plain = mapTransaction u e := by
  simp [mapTransaction]

@[simp] theorem variant_plain : variant e.plain = variant e := by
  rw [variant, variant, child_some_plain (by simp)]
  cases child (some e) "UndrlygCstmrCdtTrf" <;> simp

end Pacs009

namespace Pacs002

@[simp] theorem reasons_plain : reasons e.plain = reasons e := by
  simp [reasons, Function.comp_def]

@[simp] theorem reference_map_plain : reference u (el.map plain) = reference u el := by
  cases el with
  | none => rfl
  | some e => simp [reference]

@[simp] theorem mapStatus_plain : mapStatus u e.plain = mapStatus u e := by
  simp [mapStatus]

end Pacs002

namespace Camt

@[simp] theorem mapAccount_map_plain : mapAccount (el.map plain) = mapAccount el := by
  cases el with
  | none => rfl
  | some e => simp [mapAccount]

@[simp] theorem mapBalance_plain : mapBalance u e.plain = mapBalance u e := by
  simp [mapBalance]

@[simp] theorem bankTxCode_map_plain : bankTxCode (el.map plain) = bankTxCode el := by
  cases el with
  | none => rfl
  | some e => simp [bankTxCode]

@[simp] theorem remittance_map_plain : remittance (el.map plain) = remittance el := by
  simp [remittance]

@[simp] theorem relatedAgents_map_plain : relatedAgents (el.map plain) = relatedAgents el := by
  simp [relatedAgents, List.filterMap_cons]

@[simp] theorem entryDate_map_plain : entryDate (el.map plain) = entryDate el := by
  simp [entryDate]

@[simp] theorem mapEntry_plain : mapEntry u e.plain path = mapEntry u e path := by
  simp [mapEntry, Option.bind_map]

end Camt

theorem mapTransactions_plain : mapTransactions u e.plain = mapTransactions u e := by
  simp [mapTransactions, List.zipIdx_map, List.mapM_map, Function.comp_def]

theorem mapPacs008_plain (version : SupportedVersion) (clock : Instant) :
    mapPacs008ToCanonical u e.plain version clock = mapPacs008ToCanonical u e version clock := by
  simp [mapPacs008ToCanonical, mapTransactions_plain]

theorem mapPain001_plain (version : SupportedVersion) (hname : version.rootElement ≠ "")
    (clock : Instant) :
    mapPain001ToCanonical u e.plain version clock = mapPain001ToCanonical u e version clock := by
  have hblocks : ∀ blocks : List Element,
      ((blocks.map plain).flatMap fun b => (children (some b) "CdtTrfTxInf").map (b, ·)) =
        (blocks.flatMap fun b => (children (some b) "CdtTrfTxInf").map (b, ·)).map
          (Prod.map plain plain) := by
    intro blocks
    simp [List.flatMap_map, List.map_flatMap, Function.comp_def]
  simp [mapPain001ToCanonical, hname, hblocks, List.mapM_map, Function.comp_def]

theorem mapPacs009_plain (version : SupportedVersion) (hname : version.rootElement ≠ "")
    (clock : Instant) :
    mapPacs009ToCanonical u e.plain version clock = mapPacs009ToCanonical u e version clock := by
  simp [mapPacs009ToCanonical, hname, List.mapM_map, Function.comp_def]

theorem mapPacs002_plain (version : SupportedVersion) (hname : version.rootElement ≠ "") :
    mapPacs002ToStatus u e.plain version = mapPacs002ToStatus u e version := by
  simp [mapPacs002ToStatus, hname, List.mapM_map, Function.comp_def]

namespace Camt

@[simp] theorem report_map_plain (version : SupportedVersion) (type : AccountReportType) :
    report version type (el.map plain) = report version type el := by
  simp [report]

@[simp] theorem bundle_map_plain (version : SupportedVersion) (type : AccountReportType)
    (reports : List AccountReport) :
    bundle version type (el.map plain) reports = bundle version type el reports := by
  simp [bundle]

@[simp] theorem periodDate_map_plain : periodDate (el.map plain) = periodDate el := by
  simp [periodDate]

@[simp] theorem mapStatement_plain (version : SupportedVersion) :
    mapStatement u version (el.map plain) e.plain = mapStatement u version el e := by
  simp [mapStatement, List.mapM_map, Function.comp_def]

@[simp] theorem mapNotification_plain (version : SupportedVersion) :
    mapNotification u version (el.map plain) e.plain = mapNotification u version el e := by
  simp [mapNotification, List.mapM_map, Function.comp_def]

end Camt

theorem mapCamt053_plain (version : SupportedVersion) :
    mapCamt053ToAccountReport u e.plain version = mapCamt053ToAccountReport u e version := by
  simp [mapCamt053ToAccountReport, List.mapM_map, Function.comp_def]

theorem mapCamt054_plain (version : SupportedVersion) :
    mapCamt054ToAccountReport u e.plain version = mapCamt054ToAccountReport u e version := by
  simp [mapCamt054ToAccountReport, List.mapM_map, Function.comp_def]

/-- The adapters do not see the layout. -/
theorem map_plain {registered : RegisteredMessage} (hmem : registered ∈ registry)
    (clock : Instant) :
    registered.adapter.map u clock e.plain registered.version =
      registered.adapter.map u clock e registered.version := by
  simp only [registry, List.mem_cons, List.not_mem_nil, or_false] at hmem
  rcases hmem with rfl | rfl | rfl | rfl | rfl | rfl
  · exact congrArg (Except.map _) (mapPacs008_plain u e pacs008Version clock)
  · exact congrArg (Except.map _) (mapPain001_plain u e pain001Version (by decide) clock)
  · exact congrArg (Except.map _) (mapPacs002_plain u e pacs002Version (by decide))
  · exact congrArg (Except.map _) (mapPacs009_plain u e pacs009Version (by decide) clock)
  · exact congrArg (Except.map _) (mapCamt053_plain u e camt053Version)
  · exact congrArg (Except.map _) (mapCamt054_plain u e camt054Version)

end

/-! ## The schemas -/

section

open Xsd

variable (dates : DateTypes)

theorem resolveRoot_plain (root : Element) : resolveRoot root.plain = resolveRoot root := by
  rw [resolveRoot, resolveRoot, extractNamespace, extractNamespace, namespace?_plain]

/-- Each type of a schema is a sequence or has simple content. -/
theorem schemas_plain {s : String × (Element → Bool)} (hs : s ∈ schemas dates) (root : Element) :
    s.2 root.plain = s.2 root := by
  simp only [schemas, List.mem_cons, List.not_mem_nil, or_false] at hs
  rcases hs with rfl | rfl | rfl | rfl | rfl | rfl <;> refine accepts_plain ?_ root <;>
    repeat' first
      | exact ignoresLayout_simpleContent _ _
      | apply ignoresLayout_sequence
      | exact ignoresLayout_nil
      | apply ignoresLayout_cons

theorem validateMessage_plain (identifier : String) (root : Element) :
    validateMessage dates identifier root.plain = validateMessage dates identifier root := by
  rw [validateMessage, validateMessage]
  cases h : (schemas dates).lookup identifier with
  | none => rfl
  | some accepts =>
    obtain ⟨l, l', hl, -⟩ := List.lookup_eq_some_iff.mp h
    have hmem : (identifier, accepts) ∈ schemas dates := by
      rw [hl]
      simp
    exact schemas_plain dates hmem root

end

end PaymentOps.Iso
