import PaymentOps.Repair.AddressRepair
import PaymentOps.Repair.Simulation
import PaymentOps.Repair.Validation
import PaymentOps.Rules.Declarative

/-!
# When a repaired payment is validated

For a pacs.008 with the rules and the provider of CloudNova, `validated_iff` says which candidates
are labelled `VALIDATED`, in terms of the message that was received: the repair makes every address
pass whose country can be found, and nothing else.

* `address_repairMessage`: the repaired message has the repaired addresses;
* `rulesPass_baseline`: what of a message the rules of CloudNova block;
* `stripped_proposal`: a value that the provider proposes survives being read again;
* `compatible_proposal`: it can be written to the tree, when the tree was parsed.
-/

namespace PaymentOps.Repair

open Text Xml Iso
open Address (normalizeWhitespace townCandidates)
open Address.CloudNova (sourceTown)

/-! ## Addresses of a repaired message -/

section

variable {f : Leaf → String → PostalAddress → PostalAddress} {m : PaymentMessage} {i : ℕ}
  {tx : PaymentTransaction} {place : Place}

theorem amount_update (g : PostalAddress → PostalAddress) (tx : PaymentTransaction)
    (place : Place) : (place.update g tx).amount = tx.amount := by
  cases place <;> rfl

/-- Proposals reach the address of a transaction that is in their place. -/
theorem address_foldl (f : Leaf → String → PostalAddress → PostalAddress) (ps : List Proposal)
    {m : PaymentMessage} {i : ℕ} {tx : PaymentTransaction} (htx : m.transactions[i]? = some tx) :
    ∃ tx', (ps.foldl (Proposal.apply f) m).transactions[i]? = some tx' ∧ tx'.amount = tx.amount ∧
      ∀ place : Place, place.address tx' = (place.address tx).map fun a =>
        (ps.filter fun p => p.transaction = i ∧ p.place = place).foldl
          (fun a p => f p.leaf p.after a) a := by
  induction ps generalizing m tx with
  | nil => exact ⟨tx, htx, rfl, fun place => by simp⟩
  | cons p ps ih =>
    by_cases hp : p.transaction = i
    · have htx₁ : (p.apply f m).transactions[i]? = some (p.place.update (f p.leaf p.after) tx) := by
        simp [Proposal.apply, htx, hp]
      obtain ⟨tx', htx', hamount, haddr⟩ := ih htx₁
      refine ⟨tx', htx', hamount.trans (amount_update _ _ _), fun place => ?_⟩
      rw [haddr, Place.address_update]
      by_cases hplace : place = p.place
      · simp [hplace, hp, Function.comp_def]
      · simp [hplace, hp, Ne.symm hplace]
    · have htx₁ : (p.apply f m).transactions[i]? = some tx := by
        simp [Proposal.apply, htx, hp]
      obtain ⟨tx', htx', hamount, haddr⟩ := ih htx₁
      exact ⟨tx', htx', hamount, fun place => by rw [haddr]; simp [hp]⟩

theorem length_foldl (f : Leaf → String → PostalAddress → PostalAddress) (ps : List Proposal)
    (m : PaymentMessage) :
    (ps.foldl (Proposal.apply f) m).transactions.length = m.transactions.length := by
  induction ps generalizing m with
  | nil => rfl
  | cons p ps ih => rw [List.foldl_cons, ih, Proposal.apply, List.length_modify]

end

/-- Only one element of a list has a given index. -/
theorem filter_flatMap_zipIdx {α β : Type} {P : β → Bool} {g : α × ℕ → List β} {i : ℕ} (l : List α)
    (k : ℕ) (hg : ∀ x j, j ≠ k + i → (g (x, j)).filter P = []) :
    ((l.zipIdx k).flatMap g).filter P =
      (l[i]?).toList.flatMap fun x => (g (x, k + i)).filter P := by
  induction l generalizing i k with
  | nil => rfl
  | cons x l ih =>
    rw [List.zipIdx_cons, List.flatMap_cons, List.filter_append]
    cases i with
    | zero =>
      have hrest : ((l.zipIdx (k + 1)).flatMap g).filter P = [] := by
        rw [List.filter_flatMap, List.flatMap_eq_nil_iff]
        rintro ⟨y, j⟩ hj
        have := List.le_snd_of_mem_zipIdx hj
        exact hg y j (by dsimp only at this; omega)
      simp [hrest]
    | succ i =>
      have hindex : k + 1 + i = k + (i + 1) := by omega
      have hrest := ih (i := i) (k + 1) fun y j hj => hg y j (by omega)
      rw [hg x k (by omega), List.nil_append, hrest, hindex]
      rfl

/-- The proposals for an address are in its place. -/
theorem place_of_mem {provider : AddressProvider} {i : ℕ} {place : Place} {a : PostalAddress}
    {p : Proposal} (hp : p ∈ addressProposals provider i place a) :
    p.transaction = i ∧ p.place = place := by
  have hleaf : ∀ leaf, p ∈ leafProposals i place a (provider a) leaf →
      p.transaction = i ∧ p.place = place := by
    intro leaf hp
    unfold leafProposals at hp
    split at hp
    · cases hp
    · split_ifs at hp
      · obtain rfl := List.mem_singleton.mp hp
        exact ⟨rfl, rfl⟩
      · cases hp
  unfold addressProposals at hp
  split_ifs at hp
  · exact (List.mem_append.mp hp).elim (hleaf _) (hleaf _)
  · cases hp

/-- The proposals for one address of a message. -/
theorem filter_proposals (provider : AddressProvider) {m : PaymentMessage} {i : ℕ}
    {tx : PaymentTransaction} (htx : m.transactions[i]? = some tx) (place : Place) :
    (proposals provider m).filter (fun p => p.transaction = i ∧ p.place = place) =
      (place.address tx).toList.flatMap (addressProposals provider i place) := by
  have hchunk : ∀ (j : ℕ) (place' : Place) (tx' : PaymentTransaction),
      ((place'.address tx').toList.flatMap (addressProposals provider j place')).filter
          (fun p => p.transaction = i ∧ p.place = place) =
        if j = i ∧ place' = place then
          (place'.address tx').toList.flatMap (addressProposals provider j place')
        else [] := by
    intro j place' tx'
    have hplace : ∀ p ∈ (place'.address tx').toList.flatMap (addressProposals provider j place'),
        p.transaction = j ∧ p.place = place' := by
      intro p hp
      obtain ⟨a, -, hp⟩ := List.mem_flatMap.mp hp
      exact place_of_mem hp
    split_ifs with h
    · apply List.filter_eq_self.mpr
      intro p hp
      obtain ⟨htransaction, hp⟩ := hplace p hp
      simp [htransaction, hp, h]
    · apply List.filter_eq_nil_iff.mpr
      intro p hp
      obtain ⟨htransaction, hp⟩ := hplace p hp
      simpa [htransaction, hp] using h
  unfold proposals transactionProposals
  rw [filter_flatMap_zipIdx (i := i) m.transactions 0, htx]
  · simp only [Option.toList_some, List.flatMap_cons, List.flatMap_nil, List.append_nil, zero_add,
      Place.all, List.filter_append, hchunk, true_and]
    cases place <;> simp
  · intro tx' j hj
    have hne : j ≠ i := by omega
    rw [List.filter_flatMap, List.flatMap_eq_nil_iff]
    intro place' _
    rw [hchunk, if_neg fun h => hne h.1]

/-- The proposals for an address make its changes. -/
theorem foldl_replace (provider : AddressProvider) (i : ℕ) (place : Place) (a : PostalAddress) :
    (addressProposals provider i place a).foldl (fun b p => p.leaf.replace p.after b) a =
      repaired provider a := by
  have hstep : ∀ (b : PostalAddress) (p : Proposal),
      reread b p.diff = p.leaf.replace p.after b := by
    intro b p
    have hfield : (segments p.diff.path).getLastD "" = p.leaf.name := by
      rw [Proposal.diff, segments_append, segments_leaf, List.getLastD_concat]
    unfold reread
    rw [hfield]
    cases p.leaf <;> rfl
  rw [repaired, addressChanges_eq provider i place, List.foldl_map]
  simp only [hstep]

/-- The repaired message has the repaired addresses. -/
theorem address_repairMessage (provider : AddressProvider) {m : PaymentMessage} {i : ℕ}
    {tx : PaymentTransaction} (htx : m.transactions[i]? = some tx) :
    ∃ tx', (repairMessage m (proposals provider m)).transactions[i]? = some tx' ∧
      tx'.amount = tx.amount ∧
      ∀ place : Place, place.address tx' = (place.address tx).map (repaired provider) := by
  obtain ⟨tx', htx', hamount, haddr⟩ :=
    address_foldl (fun leaf v a => leaf.replace v a) (proposals provider m) htx
  refine ⟨tx', htx', hamount, fun place => ?_⟩
  rw [haddr, filter_proposals provider htx]
  cases place.address tx with
  | none => rfl
  | some a => simp [foldl_replace provider i place a]

/-! ## The rules of CloudNova -/

section

variable {m : PaymentMessage} {tx : PaymentTransaction} {u : Unicode} {isUpper : Char → Bool}

theorem rulesPass_append {rules overlay : RuleEngine} :
    RulesPass (rules ++ overlay) m ↔ RulesPass rules m ∧ RulesPass overlay m := by
  simp only [RulesPass, mem_evaluate_append, or_imp]
  exact forall_and

theorem forall_addresses {P : PostalAddress → Prop} :
    (∀ a ∈ labelledAddresses tx, P a.2) ↔ ∀ place : Place, ∀ a ∈ place.address tx, P a := by
  have hlabel : ∀ (o : Option PostalAddress) (label : String),
      (∀ a ∈ (o.map (label, ·)).toList, P a.2) ↔ ∀ a ∈ o, P a := by
    intro o label
    cases o <;> simp
  simp only [labelledAddresses, List.mem_append, or_imp, forall_and, hlabel]
  constructor
  · rintro ⟨⟨⟨hdebtor, hcreditor⟩, hdebtorAgent⟩, hcreditorAgent⟩ place
    cases place with
    | debtor => exact hdebtor
    | creditor => exact hcreditor
    | debtorAgent => exact hdebtorAgent
    | creditorAgent => exact hcreditorAgent
  · intro h
    exact ⟨⟨⟨h .debtor, h .creditor⟩, h .debtorAgent⟩, h .creditorAgent⟩

theorem structuralRule_eq_nil {id element message evidence : String} {severity : Severity}
    {fails : PaymentTransaction → Bool} :
    (structuralRule id severity element message evidence fails).evaluate tx = [] ↔ ¬ fails tx := by
  simp [structuralRule]

/-- The rules whose findings block. -/
theorem rulesPass_iff_evaluate : RulesPass buildAddressRuleset m ↔
    ∀ tx ∈ m.transactions, missingAmountRule.evaluate tx = [] ∧
      countryMissingRule.evaluate tx = [] ∧ invalidCountryCodeRule.evaluate tx = [] := by
  constructor
  · intro h tx htx
    have hrule : ∀ rule ∈ addressRuleset, rule.severity = .error → rule.evaluate tx = [] := by
      intro rule hrule hseverity
      apply List.eq_nil_iff_forall_not_mem.mpr
      intro f hf
      apply (h f (mem_evaluate.mpr ⟨tx, htx, rule, hrule, hf⟩)).1
      exact (finding_of_rule hrule hf).2.trans hseverity
    exact ⟨hrule _ (by simp [addressRuleset, structuralRules]) rfl,
      hrule _ (by simp [addressRuleset, addressRules]) rfl,
      hrule _ (by simp [addressRuleset, addressRules]) rfl⟩
  · intro h f hf
    obtain ⟨tx, htx, rule, hrule, hf⟩ := mem_evaluate.mp hf
    obtain ⟨hamount, hcountry, hcode⟩ := h tx htx
    have hne : rule.evaluate tx ≠ [] := List.ne_nil_of_mem hf
    rw [(finding_of_rule hrule hf).2]
    simp only [buildAddressRuleset, addressRuleset, structuralRules, addressRules, List.mem_append,
      List.mem_cons, List.not_mem_nil, or_false] at hrule
    rcases hrule with (rfl | rfl | rfl | rfl | rfl | rfl) | rfl | rfl | rfl | rfl | rfl
    · exact ⟨by decide, by decide⟩
    · exact absurd hamount hne
    · exact ⟨by decide, by decide⟩
    · exact ⟨by decide, by decide⟩
    · exact ⟨by decide, by decide⟩
    · exact ⟨by decide, by decide⟩
    · exact ⟨by decide, by decide⟩
    · exact absurd hcountry hne
    · exact absurd hcode hne
    · exact ⟨by decide, by decide⟩
    · exact ⟨by decide, by decide⟩

/-- The rules of CloudNova block a message without a positive amount, or with an address whose
country field is no code. -/
theorem rulesPass_baseline : RulesPass buildAddressRuleset m ↔
    ∀ tx ∈ m.transactions, (∃ amount, tx.amount = some amount ∧ 0 < amount.amountMinor) ∧
      ∀ place : Place, ∀ a ∈ place.address tx, (Address.CloudNova.country u a).ok := by
  have haddress : ∀ (c : AddressCheck) (tx : PaymentTransaction),
      (addressRule c).evaluate tx = [] ↔ ∀ place : Place, ∀ a ∈ place.address tx, ¬ c.fails a := by
    intro c tx
    rw [← forall_addresses (P := fun a => ¬ c.fails a)]
    simp [addressRule, List.filter_eq_nil_iff]
  have hok : ∀ a : PostalAddress, (Address.CloudNova.country u a).ok ↔
      ¬ countryMissing.fails a ∧ ¬ invalidCountryCode.fails a := by
    intro a
    rw [Address.CloudNova.country_ok_iff]
    cases hcountry : a.country <;> simp [countryMissing, invalidCountryCode, hcountry]
  rw [rulesPass_iff_evaluate]
  simp only [countryMissingRule, invalidCountryCodeRule, haddress, hok, forall_and]
  apply and_congr_left'
  apply forall₂_congr
  intro tx _
  rw [missingAmountRule, structuralRule_eq_nil]
  cases tx.amount <;> simp

end

/-! ## The texts of a tree -/

/-- The text of a node of a parsed tree: the parser takes characters of XML only. -/
def HasXmlText (e : Element) : Prop := ∀ text ∈ e.text, XmlCompatible text

section

variable {s t : String}

theorem XmlCompatible.mono (hs : XmlCompatible s) (h : ∀ c ∈ t.toList, c ∈ s.toList) :
    XmlCompatible t := fun c hc => hs c (h c hc)

theorem XmlCompatible.strip (hs : XmlCompatible s) : XmlCompatible (strip s) := by
  refine hs.mono fun c hc => ?_
  rw [Text.strip, String.toList_ofList, List.mem_reverse] at hc
  have hleft := (List.dropWhile_sublist _).subset hc
  rw [List.mem_reverse] at hleft
  exact (List.dropWhile_sublist _).subset hleft

theorem XmlCompatible.normalizeWhitespace (hs : XmlCompatible s) :
    XmlCompatible (normalizeWhitespace s) := by
  intro c hc
  rw [Address.toList_normalizeWhitespace] at hc
  rcases Words.mem_intercalate hc with hblank | ⟨word, hword, hmem⟩
  · obtain rfl := List.mem_singleton.mp hblank
    decide
  · exact hs c ((Words.mem_fields hword).2 c hmem).2

/-- A part of a text between commas. -/
theorem XmlCompatible.part (hs : XmlCompatible s) (h : t ∈ Address.splitCommas s) :
    XmlCompatible t := by
  obtain ⟨part, hpart, rfl⟩ := List.mem_map.mp (List.mem_filter.mp h).1
  obtain ⟨chars, hchars, rfl⟩ := List.mem_map.mp hpart
  refine XmlCompatible.strip (hs.mono fun c hc => ?_)
  rw [String.toList_ofList] at hc
  have hword : chars ∈ Words.fields (· == ',') s.toList :=
    List.mem_filter.mpr ⟨hchars, by simpa using List.ne_nil_of_mem hc⟩
  exact ((Words.mem_fields hword).2 c hc).2

variable {a : PostalAddress} {u : Unicode} {isUpper : Char → Bool} {e : Element} {path : String}

theorem XmlCompatible.candidate (hlines : ∀ line ∈ a.addressLines, XmlCompatible line)
    (h : t ∈ townCandidates u isUpper a.addressLines) : XmlCompatible t := by
  obtain ⟨line, hline, ht⟩ := List.mem_flatMap.mp h
  obtain ⟨p, hp, hsome⟩ := List.mem_filterMap.mp ht
  split_ifs at hsome
  obtain rfl : p.1 = t := Option.some.inj hsome
  exact (hlines line hline).part (List.of_mem_zip hp).1

theorem XmlCompatible.text {el : Option Element} (hel : ∀ e ∈ el, HasXmlText e)
    (h : Iso.text el = some t) : XmlCompatible t := by
  obtain ⟨raw, hraw, ht⟩ := Option.bind_eq_some_iff.mp h
  obtain ⟨e, he, htext⟩ := Option.bind_eq_some_iff.mp hraw
  have hstrip : Text.strip raw = t := by
    unfold orNone at ht
    split_ifs at ht
    exact Option.some.inj ht
  exact hstrip ▸ (hel e he raw htext).strip

theorem mem_nodes_of_mem_children {c : Element} {name : String} (h : c ∈ e.children name) :
    c ∈ e.nodes :=
  (List.mem_filter.mp h).1

theorem mem_nodes_of_child {c : Element} {name : String} (h : e.child name = some c) :
    c ∈ e.nodes :=
  List.mem_of_find?_eq_some h

/-- The town and the lines of an address that was mapped from a parsed tree. -/
theorem compatible_of_mapAddress (he : e.Everywhere HasXmlText)
    (h : mapAddress (some e) path = some a) : (∀ town ∈ a.townName, XmlCompatible town) ∧
      ∀ line ∈ a.addressLines, XmlCompatible line := by
  obtain rfl := Option.some.inj h
  have hnode : ∀ c ∈ e.nodes, HasXmlText c := fun c hc =>
    (Element.everywhere_iff.mp ((Element.everywhere_iff.mp he).2 c hc)).1
  constructor
  · intro town htown
    exact XmlCompatible.text (fun c hc => hnode c (mem_nodes_of_child hc)) htown
  · intro line hline
    obtain ⟨c, hc, hline⟩ := List.mem_filterMap.mp hline
    refine XmlCompatible.text (fun d hd => ?_) hline
    obtain rfl : c = d := Option.some.inj hd
    exact hnode c (mem_nodes_of_mem_children hc)

end

/-! ## The address provider of CloudNova -/

section

variable {u : Unicode} {isUpper : Char → Bool} {m : PaymentMessage}

/-- A value that the provider proposes is read from the new tree as it was written. -/
theorem stripped_proposal {p : Proposal} (hp : p ∈ proposals (cloudNova u isUpper) m) :
    Stripped p.after ∧ p.after ≠ "" := by
  obtain ⟨tx, a, -, -, -, -, hresolved, hne, -⟩ := mem_proposals.mp hp
  refine ⟨?_, hne⟩
  cases hleaf : p.leaf with
  | country =>
    have hcountry : (Address.CloudNova.country u a).value = some p.after := by
      rw [hleaf] at hresolved
      exact hresolved
    have hvalid := Address.CloudNova.country_valid hcountry
    exact (Address.normalized_of_mem_tables (u := u) (Address.mem_tables_of_code hvalid)).2.2.1
  | town =>
    rw [hleaf, resolved_town] at hresolved
    split_ifs at hresolved
    · unfold sourceTown at hresolved
      split_ifs at hresolved
      obtain ⟨town, -, htown⟩ := Option.map_eq_some_iff.mp hresolved
      rw [← htown]
      exact Address.stripped_normalizeWhitespace town
    · exact Address.stripped_candidate (List.mem_of_head? hresolved)

/-- The codes are texts of XML, and a town is one when those of the address are. -/
theorem compatible_proposal {p : Proposal} (hp : p ∈ proposals (cloudNova u isUpper) m)
    (haddr : ∀ tx ∈ m.transactions, ∀ (place : Place), ∀ a ∈ place.address tx,
      (∀ town ∈ a.townName, XmlCompatible town) ∧ ∀ line ∈ a.addressLines, XmlCompatible line) :
    XmlCompatible p.after := by
  obtain ⟨tx, a, htx, ha, -, -, hresolved, -⟩ := mem_proposals.mp hp
  obtain ⟨htown, hlines⟩ := haddr tx (List.mem_of_getElem? htx) p.place a ha
  cases hleaf : p.leaf with
  | country =>
    have hcountry : (Address.CloudNova.country u a).value = some p.after := by
      rw [hleaf] at hresolved
      exact hresolved
    have hcodes : ∀ code ∈ validCountryCodes, XmlCompatible code := by decide +kernel
    exact hcodes _ (List.contains_iff_mem.mp (Address.CloudNova.country_valid hcountry))
  | town =>
    rw [hleaf, resolved_town] at hresolved
    split_ifs at hresolved
    · unfold sourceTown at hresolved
      split_ifs at hresolved
      obtain ⟨town, hfield, hafter⟩ := Option.map_eq_some_iff.mp hresolved
      exact hafter ▸ (htown town hfield).normalizeWhitespace
    · exact XmlCompatible.candidate hlines (List.mem_of_head? hresolved)

/-- The country field of the repaired address is a code exactly when the provider has a country. -/
theorem country_ok_repaired_iff {a : PostalAddress} (hpath : truthy a.sourcePath)
    (hreceived : Leaf.country.received a = a.country) :
    (Address.CloudNova.country u (repaired (cloudNova u isUpper) a)).ok ↔
      (Address.CloudNova.country u a).value.isSome := by
  rw [country_ok_repaired]
  constructor
  · rintro (hok | hnew)
    · obtain ⟨code, hcountry, hcode⟩ := Address.CloudNova.country_ok_iff.mp hok
      rw [(Address.CloudNova.country_of_code hcountry hcode).2]
      rfl
    · obtain ⟨code, hnew⟩ := Option.isSome_iff_exists.mp hnew
      exact Option.isSome_iff_exists.mpr ⟨code, (newValue_eq_some.mp hnew).2.1⟩
  · intro hvalue
    obtain ⟨code, hvalue⟩ := Option.isSome_iff_exists.mp hvalue
    have hvalid := Address.CloudNova.country_valid hvalue
    by_cases hsame : Leaf.country.received a = some code
    · -- the field already holds the code that the provider finds
      left
      exact Address.CloudNova.country_ok_iff.mpr ⟨code, hreceived ▸ hsame, hvalid⟩
    · right
      have hresolved : Leaf.country.resolved (cloudNova u isUpper a) = some code := hvalue
      have hne := Address.CloudNova.ne_empty_of_valid hvalid
      rw [newValue_eq_some.mpr ⟨hpath, hresolved, hne, hsame⟩]
      rfl

end

/-! ## Messages of a tree -/

section

variable {u : Unicode} {version : SupportedVersion} {clock : Instant} {root : Element}
  {m : PaymentMessage} {i : ℕ} {t : PaymentTransaction} {place : Place} {a : PostalAddress}

/-- A mapped address comes from an element of the tree. -/
theorem exists_mapAddress {P : Element → Prop} (hP : root.Everywhere P)
    (h : Represents u version clock root m) (ht : m.transactions[i]? = some t)
    (ha : place.address t = some a) :
    ∃ e path, e.Everywhere P ∧ mapAddress (some e) path = some a := by
  have hchild : ∀ {e c : Element} {name : String}, e.Everywhere P → child (some e) name = some c →
      c.Everywhere P := fun he hc => (Element.everywhere_iff.mp he).2 _ (mem_nodes_of_child hc)
  unfold Represents mapPacs008ToCanonical at h
  obtain ⟨txs, htxs, h⟩ := Except.bind_eq_ok.mp h
  obtain rfl := Except.pure_eq_ok.mp h
  obtain ⟨tx, htx, hmap⟩ := Except.exists_of_mapM_zipIdx htxs ht
  have htx : tx.Everywhere P := by
    cases hmsg : child (some root) "FIToFICstmrCdtTrf" with
    | none => simp [hmsg, children] at htx
    | some msg =>
      rw [hmsg] at htx
      exact (Element.everywhere_iff.mp (hchild hP hmsg)).2 _
        (mem_nodes_of_mem_children (List.mem_of_getElem? htx))
  unfold Pacs008.mapTransaction at hmap
  obtain ⟨amount, -, hmap⟩ := Except.bind_eq_ok.mp hmap
  obtain rfl := Except.pure_eq_ok.mp hmap
  have haddress : ∀ {c : Element} {name path : String}, c.Everywhere P →
      mapAddress (child (some c) name) path = some a →
        ∃ e path, e.Everywhere P ∧ mapAddress (some e) path = some a := by
    intro c name path hc hmapped
    obtain ⟨e, he, -⟩ := mapAddress_some hmapped
    exact ⟨e, path, hchild hc he, he ▸ hmapped⟩
  cases place with
  | debtor | creditor =>
    obtain ⟨p, hp, ha⟩ := Option.bind_eq_some_iff.mp ha
    obtain ⟨c, hc, rfl⟩ := Option.map_eq_some_iff.mp hp
    exact haddress (hchild htx hc) ha
  | debtorAgent | creditorAgent =>
    obtain ⟨p, hp, ha⟩ := Option.bind_eq_some_iff.mp ha
    obtain ⟨c, hc, rfl⟩ := Option.map_eq_some_iff.mp hp
    obtain ⟨e, he, -⟩ := mapAddress_some ha
    obtain ⟨fi, hfi, -⟩ := Option.bind_eq_some_iff.mp he
    exact haddress (hchild (hchild htx hc) hfi) (hfi ▸ ha)

/-- The country of a mapped address is the one received. -/
theorem received_of_mapped (h : Represents u version clock root m)
    (ht : m.transactions[i]? = some t) (ha : place.address t = some a) :
    truthy a.sourcePath ∧ Leaf.country.received a = a.country := by
  constructor
  · rw [(exists_address h ht ha).1, truthy_some]
    cases place <;> simp [Place.path]
  · obtain ⟨e, path, -, hmapped⟩ :=
      exists_mapAddress (P := fun _ => True) (fun _ _ _ => trivial) h ht ha
    obtain rfl := Option.some.inj hmapped
    exact ite_self _

theorem identifyPacs008_congr {tree : Element} (h : tree.tag = root.tag) :
    identifyPacs008 tree = identifyPacs008 root := by
  unfold identifyPacs008
  rw [h]

/-- Of the repaired message the rules of CloudNova block what the repair cannot help. -/
theorem rulesPass_repaired {isUpper : Char → Bool} (h : Represents u version clock root m) :
    RulesPass buildAddressRuleset (repairMessage m (proposals (cloudNova u isUpper) m)) ↔
      ∀ tx ∈ m.transactions, (∃ amount, tx.amount = some amount ∧ 0 < amount.amountMinor) ∧
        ∀ place : Place, ∀ a ∈ place.address tx,
          (Address.CloudNova.country u a).value.isSome := by
  obtain ⟨m', hm'⟩ : ∃ m', repairMessage m (proposals (cloudNova u isUpper) m) = m' := ⟨_, rfl⟩
  have hlength : m'.transactions.length = m.transactions.length := by
    rw [← hm', repairMessage, length_foldl]
  have htransaction : ∀ (i : ℕ) tx tx', m.transactions[i]? = some tx →
      m'.transactions[i]? = some tx' →
      (((∃ amount, tx'.amount = some amount ∧ 0 < amount.amountMinor) ∧
          ∀ place : Place, ∀ a ∈ place.address tx', (Address.CloudNova.country u a).ok) ↔
        (∃ amount, tx.amount = some amount ∧ 0 < amount.amountMinor) ∧
          ∀ place : Place, ∀ a ∈ place.address tx,
            (Address.CloudNova.country u a).value.isSome) := by
    intro i tx tx' htx htx'
    obtain ⟨tx₁, htx₁, hamount, haddr⟩ := address_repairMessage (cloudNova u isUpper) htx
    obtain rfl : tx₁ = tx' := by
      rw [hm', htx'] at htx₁
      exact (Option.some.inj htx₁).symm
    rw [hamount]
    apply and_congr_right'
    apply forall_congr'
    intro place
    rw [haddr]
    cases ha : place.address tx with
    | none => simp
    | some a =>
      obtain ⟨hpath, hreceived⟩ := received_of_mapped h htx ha
      simp [country_ok_repaired_iff hpath hreceived]
  rw [hm', rulesPass_baseline (u := u)]
  constructor
  · intro hall tx htx
    obtain ⟨i, htx⟩ := List.mem_iff_getElem?.mp htx
    have hi : i < m'.transactions.length := by
      rw [hlength]
      exact (List.getElem?_eq_some_iff.mp htx).1
    have htx' := List.getElem?_eq_getElem hi
    exact (htransaction i tx _ htx htx').mp (hall _ (List.getElem_mem hi))
  · intro hall tx' htx'
    obtain ⟨i, htx'⟩ := List.mem_iff_getElem?.mp htx'
    have hi : i < m.transactions.length := by
      rw [← hlength]
      exact (List.getElem?_eq_some_iff.mp htx').1
    have htx := List.getElem?_eq_getElem hi
    exact (htransaction i _ tx' htx htx').mpr (hall _ (List.getElem_mem hi))

end

/-- The candidate of a pacs.008 that was parsed and needs changes holds the tree of the repaired
message.  It is labelled `VALIDATED` exactly when the schema accepts that tree, every amount
received is positive, the provider finds the country of every address received, and the rules of the
customer pass on the repaired message. -/
theorem validated_iff (xmlLibrary : XmlLibrary) (u : Unicode) (isUpper : Char → Bool)
    (orgRules profileRules : RuleEngine) (root : Element) (version : SupportedVersion)
    (clock clock' : Instant) (message : PaymentMessage)
    (hid : identifyPacs008 root = .ok version)
    (hmap : mapPacs008ToCanonical u root version clock = .ok message)
    (hparsed : root.Everywhere HasXmlText)
    (hc : proposedChanges (cloudNova u isUpper) message ≠ []) :
    let env : GeneratorEnv :=
      { unicode := u, xmlLibrary := xmlLibrary, provider := cloudNova u isUpper
        rules := compositeRuleEngine buildAddressRuleset orgRules profileRules }
    let repairedMessage :=
      { repairMessage message (proposals env.provider message) with receivedAt := clock' }
    ∃ c tree, generateCandidate env message (some root) clock' = .ok c ∧ c.xml = some tree ∧
      mapPacs008ToCanonical u tree version clock' = .ok repairedMessage ∧
      (c.status = .validated ↔ xmlLibrary.validate version.identifier tree = true ∧
        (∀ tx ∈ message.transactions,
          (∃ amount, tx.amount = some amount ∧ 0 < amount.amountMinor) ∧
            ∀ place : Place, ∀ a ∈ place.address tx,
              (Address.CloudNova.analyze u isUpper a).countryCode.isSome) ∧
        RulesPass (orgRules ++ profileRules) repairedMessage) := by
  intro env repairedMessage
  have hrep : Represents u version clock root message := hmap
  have haddr : ∀ tx ∈ message.transactions, ∀ (place : Place), ∀ a ∈ place.address tx,
      (∀ town ∈ a.townName, XmlCompatible town) ∧
        ∀ line ∈ a.addressLines, XmlCompatible line := by
    intro tx htx place a ha
    obtain ⟨i, hi⟩ := List.getElem?_of_mem htx
    obtain ⟨e, path, he, hmapped⟩ := exists_mapAddress hparsed hrep hi ha
    exact compatible_of_mapAddress he hmapped
  obtain ⟨tree, hfold, hrep', htag, -⟩ := applySteps_simulate
    (proposals (cloudNova u isUpper) message) { original := root, tree := root }
    (tag_of_identifyPacs008 hid) hrep (fun p hp => targets_of_mem hrep hp)
    fun p hp => ⟨(stripped_proposal hp).1, (stripped_proposal hp).2, compatible_proposal hp haddr⟩
  rw [← proposedChanges_eq] at hfold
  have hformat : message.sourceFormat = .xmlPacs008 := by
    unfold mapPacs008ToCanonical at hmap
    obtain ⟨txs, -, hmap⟩ := Except.bind_eq_ok.mp hmap
    obtain rfl := Except.pure_eq_ok.mp hmap
    rfl
  have hid' : identifyPacs008 tree = .ok version := (identifyPacs008_congr htag).trans hid
  have hmap' := represents_clock hrep' clock'
  have hgen : generateCandidate env message (some root) clock' =
      xmlCandidate env root (proposedChanges env.provider message) clock' := by
    rw [generateCandidate_eq hc]
    simp [reconstructed, hformat]
  rw [hgen]
  unfold xmlCandidate
  refine ⟨_, tree, Except.bind_eq_ok.mpr ⟨_, hfold, Except.bind_eq_ok.mpr ⟨_, hid',
    Except.bind_eq_ok.mpr ⟨_, hmap', rfl⟩⟩⟩, rfl, hmap', ?_⟩
  have hrules : RulesPass env.rules repairedMessage ↔
      RulesPass buildAddressRuleset repairedMessage ∧
        RulesPass (orgRules ++ profileRules) repairedMessage := by
    rw [← rulesPass_append]
    simp [env, compositeRuleEngine]
  have hbaseline : RulesPass buildAddressRuleset repairedMessage ↔
      RulesPass buildAddressRuleset (repairMessage message (proposals env.provider message)) :=
    Iff.rfl
  rw [statusOf_eq_validated, Bool.and_eq_true, Bool.not_eq_true', ← rulesPass_iff, hrules,
    hbaseline, rulesPass_repaired hrep]
  rfl

/-- A payment to an address in Milano whose country and town stand in its line. -/
def milanoTree : Element :=
  isoElement "Document" none [isoElement "FIToFICstmrCdtTrf" none [
    isoElement "CdtTrfTxInf" none [isoElement "Cdtr" none [isoElement "PstlAdr" none [
      isoElement "AdrLine" (some "Via Roma 1, Milano, Italy") []]]]]]

/-- A message with an address in Milano. -/
def milanoMessage : PaymentMessage where
  messageType := some "pacs.008.001.08"
  transactions := [
    { creditor := some {
        postalAddress := some {
          addressLines := ["Via Roma 1, Milano, Italy"]
          sourcePath := some "/Document/FIToFICstmrCdtTrf/CdtTrfTxInf[0]/Cdtr/PstlAdr" }
        sourcePath := some "/Document/FIToFICstmrCdtTrf/CdtTrfTxInf[0]/Cdtr" }
      sourcePath := some "/Document/FIToFICstmrCdtTrf/CdtTrfTxInf[0]" }]
  sourceFormat := .xmlPacs008
  receivedAt := 0
  sourceMetadata := [("message_name", "FIToFICustomerCreditTransferV08")]

theorem validated_iff_milano :
    let env : GeneratorEnv :=
      { unicode := .ascii, xmlLibrary := structuralEnv.xmlLibrary
        provider := cloudNova .ascii Char.isUpper
        rules := compositeRuleEngine buildAddressRuleset [] [] }
    let repairedMessage :=
      { repairMessage milanoMessage (proposals env.provider milanoMessage) with receivedAt := 1 }
    ∃ c tree, generateCandidate env milanoMessage (some milanoTree) 1 = .ok c ∧
      c.xml = some tree ∧
      mapPacs008ToCanonical .ascii tree pacs008Version 1 = .ok repairedMessage ∧
      (c.status = .validated ↔ env.xmlLibrary.validate pacs008Version.identifier tree = true ∧
        (∀ tx ∈ milanoMessage.transactions,
          (∃ amount, tx.amount = some amount ∧ 0 < amount.amountMinor) ∧
            ∀ place : Place, ∀ a ∈ place.address tx,
              (Address.CloudNova.analyze .ascii Char.isUpper a).countryCode.isSome) ∧
        RulesPass ([] ++ []) repairedMessage) := by
  have hnode : ∀ name text nodes, (isoElement name text nodes).Everywhere HasXmlText ↔
      (∀ t ∈ text, XmlCompatible t) ∧ ∀ c ∈ nodes, c.Everywhere HasXmlText :=
    fun _ _ _ => Element.everywhere_iff
  have hparsed : milanoTree.Everywhere HasXmlText := by
    simp only [milanoTree, hnode, List.forall_mem_cons, List.not_mem_nil, false_imp_iff,
      implies_true, and_true]
    decide +kernel
  exact validated_iff structuralEnv.xmlLibrary .ascii Char.isUpper [] [] milanoTree pacs008Version
    0 1 milanoMessage (by decide +kernel) (by decide +kernel) hparsed (by decide +kernel)

end PaymentOps.Repair
