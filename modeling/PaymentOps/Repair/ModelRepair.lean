import PaymentOps.Lib.Dict
import PaymentOps.Lib.Fallible
import PaymentOps.Mapping.Mapper
import PaymentOps.Repair.Proposals

/-!
# Repairing messages that are not pacs.008

The generator applies the changes of such a message by parsing their paths.  It expects the index
of the transaction in the second segment; no source other than pacs.008 writes it there, so that
every change is skipped.

* `Unindexed` is what these sources have in common, `unindexed_of_source` proves it of each;
* `applyToMessage_of_source`: no change reaches the message;
* `modelRepair_iff`: the message that is validated again is the message with its changes exactly
  when there is nothing to change.
-/

namespace PaymentOps.Repair

open Text Xml Iso Mapping
open Xml.Element hiding child children text

variable {u : Unicode}

/-! ## Sources -/

/-- The messages that the generator receives from sources other than pacs.008. -/
inductive ModelSource (u : Unicode) : PaymentMessage → Prop where
  | mapped {Source Record Value : Type} (ops : SourceOps Source Record Value)
      (definition : MappingDefinition) (source : Source) (clock : Instant) {r : MappingResult}
      (h : mapToCanonical u ops definition source clock = .ok r) : ModelSource u r.message
  | pain001 (root : Element) (version : SupportedVersion) (clock : Instant) {m : PaymentMessage}
      (h : mapPain001ToCanonical u root version clock = .ok m) : ModelSource u m
  | pacs009 (root : Element) (version : SupportedVersion) (clock : Instant) {m : PaymentMessage}
      (h : mapPacs009ToCanonical u root version clock = .ok m) : ModelSource u m
  | checked {m : PaymentMessage} (status : ValidationStatus) (h : ModelSource u m) :
      ModelSource u { m with validationStatus := status }

/-- An address of which each field is as it was received, and which has no index in its path. -/
structure Unindexed (u : Unicode) (a : PostalAddress) : Prop where
  received : ∀ leaf : Leaf, leaf.received a = leaf.value a
  path : ∀ base ∈ a.sourcePath, NoIndex u base

/-- The name of a party or of an element is no index. -/
theorem int_names {s : String} (h : s ∈ ["Dbtr", "Cdtr", "PmtInf", "CdtTrfTxInf"]) :
    int u (stripChars ['[', ']'] s) = none := by
  have hhead : (strip (stripChars ['[', ']'] s)).toList.head?.any Char.isAlpha := by
    revert s
    decide +kernel
  cases hs : (strip (stripChars ['[', ']'] s)).toList with
  | nil => simp [hs] at hhead
  | cons c cs =>
    rw [hs] at hhead
    exact int_of_isAlpha hs hhead

/-! ## Addresses of ISO messages -/

theorem unindexed_mapAddress {el : Option Element} {path : String} {a : PostalAddress}
    (h : mapAddress el path = some a) (hpath : NoIndex u path) : Unindexed u a := by
  cases el with
  | none => cases h
  | some e =>
    cases h
    refine ⟨fun leaf => ?_, fun base hbase => ?_⟩
    · cases leaf <;> exact ite_self _
    · obtain rfl : path = base := by simpa using hbase
      exact hpath

theorem unindexed_mapParty {el : Option Element} {path : String} {a : PostalAddress}
    (h : (mapParty el path).bind (·.postalAddress) = some a)
    (hpath : NoIndex u (path ++ "/PstlAdr")) : Unindexed u a := by
  cases el with
  | none => cases h
  | some e => exact unindexed_mapAddress h hpath

theorem unindexed_mapAgent {el : Option Element} {path : String} {a : PostalAddress}
    (h : (mapAgent el path).bind (·.postalAddress) = some a)
    (hpath : NoIndex u (path ++ "/FinInstnId/PstlAdr")) : Unindexed u a := by
  cases el with
  | none => cases h
  | some e => exact unindexed_mapAddress h hpath

/-- Every address of the transaction is unindexed. -/
def UnindexedTransaction (u : Unicode) (tx : PaymentTransaction) : Prop :=
  ∀ place a, Place.address tx place = some a → Unindexed u a

theorem unindexed_pain001 {pmtInf tx : Element} {t : PaymentTransaction}
    (h : Pain001.mapTransaction u pmtInf tx = .ok t) : UnindexedTransaction u t := by
  obtain ⟨amount, -, h⟩ := Except.bind_eq_ok.mp h
  obtain rfl := Except.pure_eq_ok.mp h
  have hno : ∀ rest ∈ ["/Dbtr/PstlAdr", "/CdtTrfTxInf/Cdtr/PstlAdr",
      "/DbtrAgt/FinInstnId/PstlAdr", "/CdtTrfTxInf/CdtrAgt/FinInstnId/PstlAdr"],
      NoIndex u (Pain001.pmtInfPath ++ rest) := by
    intro rest hrest
    refine ⟨"CstmrCdtTrfInitn", "PmtInf", (segments rest), ?_, int_names (by simp)⟩
    revert rest
    decide +kernel
  rintro (_ | _ | _ | _) a ha
  · exact unindexed_mapParty ha (hno "/Dbtr/PstlAdr" (by simp))
  · exact unindexed_mapParty ha (hno "/CdtTrfTxInf/Cdtr/PstlAdr" (by simp))
  · exact unindexed_mapAgent ha (hno "/DbtrAgt/FinInstnId/PstlAdr" (by simp))
  · exact unindexed_mapAgent ha (hno "/CdtTrfTxInf/CdtrAgt/FinInstnId/PstlAdr" (by simp))

theorem fiParty_address (el : Option Element) (path : String) :
    (Pacs009.fiParty el path).bind (·.postalAddress) = none := by
  cases el <;> rfl

theorem unindexed_pacs009 {tx : Element} {t : PaymentTransaction}
    (h : Pacs009.mapTransaction u tx = .ok t) : UnindexedTransaction u t := by
  obtain ⟨amount, -, h⟩ := Except.bind_eq_ok.mp h
  obtain rfl := Except.pure_eq_ok.mp h
  have hno : ∀ rest ∈ ["/DbtrAgt/FinInstnId/PstlAdr", "/CdtrAgt/FinInstnId/PstlAdr"],
      NoIndex u (Pacs009.transactionPath ++ rest) := by
    intro rest hrest
    refine ⟨"FICdtTrf", "CdtTrfTxInf", (segments rest), ?_, int_names (by simp)⟩
    revert rest
    decide +kernel
  rintro (_ | _ | _ | _) a ha
  · cases (fiParty_address _ _).symm.trans ha
  · cases (fiParty_address _ _).symm.trans ha
  · exact unindexed_mapAgent ha (hno "/DbtrAgt/FinInstnId/PstlAdr" (by simp))
  · exact unindexed_mapAgent ha (hno "/CdtrAgt/FinInstnId/PstlAdr" (by simp))

/-! ## Addresses of mapped records -/

section

variable {Source Record Value : Type} {ops : SourceOps Source Record Value}

/-- An address that the mapper has filled: only the country is kept as received as well. -/
structure MappedAddress (path : String) (a : PostalAddress) : Prop where
  ctry : a.originalFields.ctry = a.country
  twnNm : a.originalFields.twnNm = none
  sourcePath : ∀ base ∈ a.sourcePath, base = path

theorem mappedAddress_default (path : String) : MappedAddress path {} where
  ctry := rfl
  twnNm := rfl
  sourcePath _ h := by cases h

theorem MappedAddress.set {path : String} {seg : List String} {value : Value}
    {a a' : PostalAddress} (ha : MappedAddress path a)
    (h : setAddress ops a seg value path = .ok a') : MappedAddress path a' := by
  cases seg with
  | nil =>
    cases h
    exact ha
  | cons field seg =>
    have hpath : ∀ base ∈ some path, base = path := fun base hb => (Option.some.inj hb).symm
    have hstr : ∀ {f : String → PostalAddress},
        (do pure (f (← ops.str value)) : Except ServiceError PostalAddress) = .ok a' →
          ∃ s, a' = f s := by
      intro f hf
      obtain ⟨s, -, hf⟩ := Except.bind_eq_ok.mp hf
      exact ⟨s, (Except.pure_eq_ok.mp hf).symm⟩
    unfold setAddress at h
    dsimp only at h
    split_ifs at h
    · obtain ⟨s, rfl⟩ := hstr h
      exact ⟨ha.ctry, ha.twnNm, hpath⟩
    · obtain ⟨s, rfl⟩ := hstr h
      exact ⟨ha.ctry, ha.twnNm, hpath⟩
    · obtain ⟨s, rfl⟩ := hstr h
      exact ⟨ha.ctry, ha.twnNm, hpath⟩
    · obtain ⟨s, rfl⟩ := hstr h
      exact ⟨ha.ctry, ha.twnNm, hpath⟩
    · obtain ⟨s, rfl⟩ := hstr h
      exact ⟨rfl, ha.twnNm, hpath⟩
    · obtain ⟨s, rfl⟩ := hstr h
      exact ⟨ha.ctry, ha.twnNm, hpath⟩
    · cases h
      exact ⟨ha.ctry, ha.twnNm, hpath⟩

/-- A party as a mapping leaves it, with the path of its address. -/
def MappedParty (path : String) (p : Party) : Prop :=
  ∀ a ∈ p.postalAddress, MappedAddress (path ++ "/PstlAdr") a

theorem MappedParty.set {path field : String} {rest : List String} {value : Value} {p p' : Party}
    (hp : MappedParty path p) (h : setPartyField ops p field rest value path = .ok p') :
    MappedParty path p' := by
  unfold setPartyField at h
  split_ifs at h
  · obtain ⟨s, -, h⟩ := Except.bind_eq_ok.mp h
    obtain rfl := Except.pure_eq_ok.mp h
    exact hp
  · obtain ⟨a, ha, h⟩ := Except.bind_eq_ok.mp h
    obtain rfl := Except.pure_eq_ok.mp h
    have hbefore : MappedAddress (path ++ "/PstlAdr") (p.postalAddress.getD {}) := by
      cases hpa : p.postalAddress with
      | none => exact mappedAddress_default _
      | some b => exact hp b hpa
    intro b hb
    obtain rfl : a = b := by simpa using hb
    exact hbefore.set ha
  · cases h
    exact hp

/-- A transaction that the mapper has filled: agents have no address. -/
structure MappedTransaction (pre : String) (tx : PaymentTransaction) : Prop where
  debtor : ∀ p ∈ tx.debtor, MappedParty (pre ++ "/" ++ "Dbtr") p
  creditor : ∀ p ∈ tx.creditor, MappedParty (pre ++ "/" ++ "Cdtr") p
  debtorAgent : ∀ g ∈ tx.debtorAgent, g.postalAddress = none
  creditorAgent : ∀ g ∈ tx.creditorAgent, g.postalAddress = none

theorem mappedParty_getD {path : String} {o : Option Party} (h : ∀ p ∈ o, MappedParty path p) :
    MappedParty path (o.getD {}) := by
  cases o with
  | none =>
    intro a ha
    cases ha
  | some p => exact h p rfl

theorem setAgent_address {g g' : FinancialInstitution} {seg : List String} {value : Value}
    (h : setAgent ops g seg value = .ok g') : g'.postalAddress = g.postalAddress := by
  cases seg with
  | nil =>
    cases h
    rfl
  | cons field seg =>
    unfold setAgent at h
    dsimp only at h
    split_ifs at h
    · obtain ⟨s, -, h⟩ := Except.bind_eq_ok.mp h
      obtain rfl := Except.pure_eq_ok.mp h
      rfl
    · obtain ⟨s, -, h⟩ := Except.bind_eq_ok.mp h
      obtain rfl := Except.pure_eq_ok.mp h
      rfl
    · cases h
      rfl

theorem setAgent_getD {o : Option FinancialInstitution} {g' : FinancialInstitution}
    {seg : List String} {value : Value} (ho : ∀ g ∈ o, g.postalAddress = none)
    (h : setAgent ops (o.getD {}) seg value = .ok g') : g'.postalAddress = none := by
  rw [setAgent_address h]
  cases o with
  | none => rfl
  | some g => exact ho g rfl

theorem MappedTransaction.set {pre target : String} {value : Value} {tx tx' : PaymentTransaction}
    (htx : MappedTransaction pre tx) (h : setTarget u ops tx target value pre = .ok tx') :
    MappedTransaction pre tx' := by
  obtain ⟨hd, hc, hda, hca⟩ := htx
  unfold setTarget at h
  split at h
  · cases h
    exact ⟨hd, hc, hda, hca⟩
  · rename_i head seg heq
    have hkeep : ∀ {α : Type} {x : Except ServiceError α} {f : α → PaymentTransaction},
        (do pure (f (← x)) : Except ServiceError PaymentTransaction) = .ok tx' →
          ∃ y, x = .ok y ∧ tx' = f y := by
      intro α x f hf
      obtain ⟨y, hy, hf⟩ := Except.bind_eq_ok.mp hf
      exact ⟨y, hy, (Except.pure_eq_ok.mp hf).symm⟩
    have hite : ∀ {c : Prop} [Decidable c] {x y : Except ServiceError PaymentTransaction},
        (x = .ok tx' → MappedTransaction pre tx') → (y = .ok tx' → MappedTransaction pre tx') →
          (if c then x else y) = .ok tx' → MappedTransaction pre tx' := by
      intro c _ x y hx hy hxy
      by_cases hc : c
      · exact hx (by rwa [if_pos hc] at hxy)
      · exact hy (by rwa [if_neg hc] at hxy)
    have hother : ∀ {α : Type} {x : Except ServiceError α} {f : α → PaymentTransaction},
        (∀ y, MappedTransaction pre (f y)) →
          (do pure (f (← x)) : Except ServiceError PaymentTransaction) = .ok tx' →
            MappedTransaction pre tx' := by
      intro α x f hf hx
      obtain ⟨y, -, rfl⟩ := hkeep hx
      exact hf y
    revert h
    refine hite (fun h => ?_) (hite (hother fun _ => ⟨hd, hc, hda, hca⟩)
      (hite (hother fun _ => ⟨hd, hc, hda, hca⟩) (hite (hother fun _ => ⟨hd, hc, hda, hca⟩)
        (hite (fun h => ?_) (hite (fun h => ?_) (hite (hother fun _ => ⟨hd, hc, hda, hca⟩)
          (hite (hother fun _ => ⟨hd, hc, hda, hca⟩) (hite (fun h => ?_) (hite (fun h => ?_)
            (hite (hother fun _ => ⟨hd, hc, hda, hca⟩) fun h => ?_))))))))))
    · cases seg with
      | nil =>
        cases h
        exact ⟨hd, hc, hda, hca⟩
      | cons field seg =>
        obtain ⟨y, -, rfl⟩ := hkeep h
        exact ⟨hd, hc, hda, hca⟩
    · -- the debtor
      cases seg with
      | nil =>
        cases h
        exact ⟨hd, hc, hda, hca⟩
      | cons field seg =>
        obtain ⟨p, hp, rfl⟩ := hkeep h
        have hparty := (mappedParty_getD hd).set hp
        refine ⟨fun q hq => ?_, hc, hda, hca⟩
        obtain rfl : p = q := by simpa using hq
        exact hparty
    · -- the creditor
      cases seg with
      | nil =>
        cases h
        exact ⟨hd, hc, hda, hca⟩
      | cons field seg =>
        obtain ⟨p, hp, rfl⟩ := hkeep h
        have hparty := (mappedParty_getD hc).set hp
        refine ⟨hd, fun q hq => ?_, hda, hca⟩
        obtain rfl : p = q := by simpa using hq
        exact hparty
    · obtain ⟨g, hg, rfl⟩ := hkeep h
      refine ⟨hd, hc, fun g' hg' => ?_, hca⟩
      obtain rfl : g = g' := by simpa using hg'
      exact setAgent_getD hda hg
    · obtain ⟨g, hg, rfl⟩ := hkeep h
      refine ⟨hd, hc, hda, fun g' hg' => ?_⟩
      obtain rfl : g = g' := by simpa using hg'
      exact setAgent_getD hca hg
    · cases h
      exact ⟨hd, hc, hda, hca⟩

theorem mappedTransaction_of_record {fields : List FieldMapping} {record : Record} {index : ℕ}
    {r : PaymentTransaction × List MappingIssue}
    (h : mapRecord u ops fields record index = .ok r) :
    MappedTransaction (recordPath index) r.1 := by
  refine Except.foldlM_invariant (P := fun acc => MappedTransaction (recordPath index) acc.1)
    ?_ ?_ h
  · intro fm _ acc acc' hacc hstep
    have hplace : ∀ value, (setTarget u ops acc.1 fm.target
        (applyTransforms ops value fm.transforms) (recordPath index)).map
          (fun tx => (tx, acc.2)) = .ok acc' → MappedTransaction (recordPath index) acc'.1 := by
      intro value hv
      obtain ⟨tx, htx, rfl⟩ := Except.map_eq_ok.mp hv
      exact hacc.set htx
    unfold mapField at hstep
    dsimp only at hstep
    split at hstep
    · exact hplace _ hstep
    · split_ifs at hstep
      · cases hstep
        exact hacc
      · exact hplace _ hstep
    · split_ifs at hstep
      · cases hstep
        exact hacc
      · cases hstep
        exact hacc
  · refine ⟨?_, ?_, ?_, ?_⟩
    all_goals
      intro x hx
      cases hx

/-- The path of a mapped address names its record in the first segment. -/
theorem noIndex_mapped (index : ℕ) {label : String} (hlabel : label ∈ ["Dbtr", "Cdtr"]) :
    NoIndex u (recordPath index ++ "/" ++ label ++ "/PstlAdr") := by
  have hslash : '/' ∉ (recordPath index).toList := by
    simp only [recordPath, String.toList_append, List.mem_append, not_or]
    refine ⟨⟨by decide, fun h => ?_⟩, by decide⟩
    exact absurd (isDigit_of_mem_toString h) (by decide)
  have hne : recordPath index ≠ "" := by
    intro h
    simpa [recordPath] using congrArg String.toList h
  have hrest : segments (label ++ "/PstlAdr") = [label, "PstlAdr"] := by
    revert label
    decide +kernel
  refine ⟨recordPath index, label, ["PstlAdr"], ?_, int_names ?_⟩
  · have hassoc : recordPath index ++ "/" ++ label ++ "/PstlAdr" =
        recordPath index ++ "/" ++ (label ++ "/PstlAdr") := String.append_assoc
    rw [hassoc, segments_append, segments_of_not_mem hslash hne, hrest]
    rfl
  · revert label
    decide

theorem unindexed_mapped {fields : List FieldMapping} {record : Record} {index : ℕ}
    {r : PaymentTransaction × List MappingIssue}
    (h : mapRecord u ops fields record index = .ok r) : UnindexedTransaction u r.1 := by
  have htx := mappedTransaction_of_record h
  have haddr : ∀ {label : String} {a : PostalAddress}, label ∈ ["Dbtr", "Cdtr"] →
      MappedAddress (recordPath index ++ "/" ++ label ++ "/PstlAdr") a → Unindexed u a := by
    intro label a hlabel ha
    refine ⟨fun leaf => ?_, fun base hbase => ?_⟩
    · cases leaf with
      | country =>
        show or a.originalFields.ctry a.country = a.country
        rw [ha.ctry]
        exact ite_self _
      | town =>
        show or a.originalFields.twnNm a.townName = a.townName
        rw [ha.twnNm]
        rfl
    · rw [ha.sourcePath base hbase]
      exact noIndex_mapped index hlabel
  rintro (_ | _ | _ | _) a ha
  · obtain ⟨p, hp, ha⟩ := Option.bind_eq_some_iff.mp ha
    exact haddr (by simp) (htx.debtor p hp a ha)
  · obtain ⟨p, hp, ha⟩ := Option.bind_eq_some_iff.mp ha
    exact haddr (by simp) (htx.creditor p hp a ha)
  · obtain ⟨g, hg, ha⟩ := Option.bind_eq_some_iff.mp ha
    rw [htx.debtorAgent g hg] at ha
    cases ha
  · obtain ⟨g, hg, ha⟩ := Option.bind_eq_some_iff.mp ha
    rw [htx.creditorAgent g hg] at ha
    cases ha

end

/-- No source other than pacs.008 numbers its paths as the generator reads them. -/
theorem unindexed_of_source {m : PaymentMessage} (h : ModelSource u m) :
    ∀ tx ∈ m.transactions, UnindexedTransaction u tx := by
  induction h with
  | mapped ops definition source clock h =>
    obtain ⟨records, mapped, -, hmapped, htransactions, -⟩ := mapToCanonical_parts h
    intro tx htx
    rw [htransactions] at htx
    obtain ⟨r, hr, rfl⟩ := List.mem_map.mp htx
    obtain ⟨x, -, hx⟩ := Except.exists_of_mem_mapM hmapped hr
    exact unindexed_mapped hx
  | pain001 root version clock h =>
    obtain ⟨txs, htxs, h⟩ := Except.bind_eq_ok.mp h
    obtain rfl := Except.pure_eq_ok.mp h
    exact Except.forall_of_mapM (fun _ _ => unindexed_pain001) htxs
  | pacs009 root version clock h =>
    obtain ⟨txs, htxs, h⟩ := Except.bind_eq_ok.mp h
    obtain rfl := Except.pure_eq_ok.mp h
    exact Except.forall_of_mapM (fun _ _ => unindexed_pacs009) htxs
  | checked status h ih => exact ih

/-! ## No change reaches the message -/

variable {provider : AddressProvider} {m : PaymentMessage}

theorem applyToMessage_of_source (h : ModelSource u m) (provider : AddressProvider) :
    applyToMessage u m (proposedChanges provider m) = .ok m := by
  rw [proposedChanges_eq]
  refine applyToMessage_of_noIndex fun p hp => ?_
  obtain ⟨tx, a, htx, ha, hpath, hbase, -⟩ := mem_proposals.mp hp
  have haddr := unindexed_of_source h tx (List.mem_of_getElem? htx) p.place a ha
  obtain ⟨base, hb, -⟩ := truthy_iff.mp hpath
  rw [hb, Option.getD_some] at hbase
  exact hbase ▸ haddr.path _ hb

/-- What the message has at the target of a proposal. -/
def Proposal.valueIn (p : Proposal) (m : PaymentMessage) : Option (Option String) :=
  (m.transactions[p.transaction]?).bind fun t => (p.place.address t).map p.leaf.value

theorem Proposal.valueIn_apply {p : Proposal} (h : p.HasTarget m) :
    p.valueIn (p.apply (fun leaf v a => leaf.set v a) m) = some (some p.after) := by
  obtain ⟨t, a, ht, ha⟩ := h
  have hset : p.leaf.value (p.leaf.set p.after a) = some p.after := by
    cases p.leaf <;> rfl
  simp [valueIn, Proposal.apply, ht, Place.address_update, ha, hset]

theorem hasTarget_applied {p : Proposal} (ps : List Proposal) (h : p.HasTarget m) :
    p.HasTarget (appliedMessage m ps) := by
  induction ps generalizing m with
  | nil => exact h
  | cons q ps ih => exact ih h.apply

/-- A list of proposals of which each wants another value than there is changes the message. -/
theorem appliedMessage_eq_self {ps : List Proposal}
    (h : ∀ p ∈ ps, p.HasTarget m ∧ p.valueIn m ≠ some (some p.after)) :
    appliedMessage m ps = m ↔ ps = [] := by
  constructor
  · intro heq
    rcases List.eq_nil_or_concat ps with hnil | ⟨init, p, rfl⟩
    · exact hnil
    · -- the last of the proposals has its value in the end
      obtain ⟨htarget, hvalue⟩ := h p (by simp)
      have hlast : appliedMessage m (init ++ [p]) =
          p.apply (fun leaf v a => leaf.set v a) (appliedMessage m init) := by
        simp [appliedMessage]
      have hp := Proposal.valueIn_apply (hasTarget_applied init htarget)
      rw [← hlast, ← List.concat_eq_append, heq] at hp
      exact absurd hp hvalue
  · rintro rfl
    rfl

/-- For each address with a path, the provider resolves nothing other than what was received. -/
def NothingToRepair (provider : AddressProvider) (m : PaymentMessage) : Prop :=
  ∀ tx ∈ m.transactions, ∀ place a, Place.address tx place = some a → truthy a.sourcePath →
    ∀ leaf v, Leaf.resolved (provider a) leaf = some v → v ≠ "" → leaf.received a = some v

theorem proposals_eq_nil : proposals provider m = [] ↔ NothingToRepair provider m := by
  rw [List.eq_nil_iff_forall_not_mem]
  constructor
  · intro h tx htx place a ha hpath leaf v hv hne
    obtain ⟨i, hi⟩ := List.mem_iff_getElem?.mp htx
    by_contra hrec
    exact h ⟨i, place, leaf, a.sourcePath.getD "", leaf.received a, v⟩
      (mem_proposals.mpr ⟨tx, a, hi, ha, hpath, rfl, hv, hne, rfl, hrec⟩)
  · intro h p hp
    obtain ⟨tx, a, htx, ha, hpath, -, hv, hne, hbefore, hdiff⟩ := mem_proposals.mp hp
    rw [hbefore] at hdiff
    exact hdiff (h tx (List.mem_of_getElem? htx) p.place a ha hpath p.leaf p.after hv hne)

/-- The message that is validated again has the listed changes, each at its target, exactly when
there is nothing to change. -/
theorem modelRepair_iff (u : Unicode) (provider : AddressProvider) (m : PaymentMessage)
    (h : ModelSource u m) :
    applyToMessage u m (proposedChanges provider m) =
        .ok (appliedMessage m (proposals provider m)) ↔
      NothingToRepair provider m := by
  have hps : ∀ p ∈ proposals provider m, p.HasTarget m ∧ p.valueIn m ≠ some (some p.after) := by
    intro p hp
    obtain ⟨tx, a, htx, ha, -, -, -, -, hbefore, hdiff⟩ := mem_proposals.mp hp
    have haddr := unindexed_of_source h tx (List.mem_of_getElem? htx) p.place a ha
    refine ⟨⟨tx, a, htx, ha⟩, ?_⟩
    rw [hbefore, haddr.received] at hdiff
    simpa [Proposal.valueIn, htx, ha] using hdiff
  rw [applyToMessage_of_source h, ← proposals_eq_nil, ← appliedMessage_eq_self hps]
  constructor
  · intro heq
    exact (Except.ok.inj heq).symm
  · intro heq
    rw [heq]

/-! ## A CSV row with a country name -/

/-- Rows of strings, by column. -/
def csvOps : SourceOps (List (Dict String String)) (Dict String String) String where
  asList rows := some rows
  asDict _ := none
  resolveJsonPath _ _ := []
  xpath _ _ := .ok none
  getValue row column := row.get column
  ofString s := s
  isEmpty v := v = ""
  transform _ v := v
  str v := .ok v
  toMinor _ := .ok 0

/-- A mapping of one column to the country of the creditor. -/
def csvDefinition : MappingDefinition where
  mappingVersion := "1"
  sourceFormat := .csv
  fields := [{ source := "country", target := "creditor.postal_address.country" }]

/-- What the row `Germany` is mapped to. -/
def csvMessage : PaymentMessage where
  messageType := some "csv"
  sourceFormat := .csv
  receivedAt := 0
  transactions := [{
    creditor := some {
      postalAddress := some {
        country := some "Germany"
        sourcePath := some "transactions[0]/Cdtr/PstlAdr"
        originalFields := { ctry := some "Germany" } } } }]

/-- A provider that finds a country. -/
def csvProvider : AddressProvider := fun _ => { countryCode := some "DE" }

theorem csvMessage_source : ModelSource .ascii csvMessage := by
  have h : mapToCanonical .ascii csvOps csvDefinition [[("country", "Germany")]] 0 =
      .ok { message := csvMessage, mappingVersion := "1" } := by
    rfl
  exact .mapped csvOps csvDefinition [[("country", "Germany")]] 0 h

theorem modelRepair_iff_sample :
    applyToMessage .ascii csvMessage (proposedChanges csvProvider csvMessage) =
        .ok (appliedMessage csvMessage (proposals csvProvider csvMessage)) ↔
      NothingToRepair csvProvider csvMessage :=
  modelRepair_iff .ascii csvProvider csvMessage csvMessage_source

/-- The country of the row is to become `DE`; the message that is validated still has `Germany`. -/
theorem change_skipped :
    ModelSource .ascii csvMessage ∧
    proposedChanges csvProvider csvMessage = [
      { path := "transactions[0]/Cdtr/PstlAdr/Ctry", before := some "Germany", after := some "DE"
        source := .addressProvider }] ∧
    applyToMessage .ascii csvMessage (proposedChanges csvProvider csvMessage) ≠
      .ok (appliedMessage csvMessage (proposals csvProvider csvMessage)) :=
  ⟨csvMessage_source, by decide +kernel, by decide +kernel⟩

end PaymentOps.Repair
