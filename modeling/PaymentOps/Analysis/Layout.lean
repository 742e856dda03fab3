import PaymentOps.Analysis.Parsing
import PaymentOps.Iso.Layout
import PaymentOps.Repair.Conformance

/-!
# Payloads that differ in their layout

A payload that was only laid out anew, with other white space around its elements, is analyzed to
the same result.  So the services tell by its input hash that they have it.

* `applyOne_plain` is the step lemma of a reconstruction, `applyChanges_shape` the run lemma;
* `generateCandidate_plain`: the candidates differ in the layout of their trees;
* `analyzeIso_layout` is the statement about the pipeline.  Of the library it asks only that its
  schemas do not see the white space either, as `validateMessage_plain` shows of the bundled ones.
-/

namespace PaymentOps.Repair

open Text Xml Element Iso

section

variable (u : Unicode) (e : Element)

/-! ## Paths -/

theorem orderIndex_plain (c : Element) : orderIndex c.plain = orderIndex c := by
  rw [orderIndex, orderIndex, localName_plain]

theorem findIdxs_plain (name : String) :
    e.plain.nodes.findIdxs (·.localName = name) = e.nodes.findIdxs (·.localName = name) := by
  rw [nodes_plain]
  split
  · rw [List.findIdxs_map]
    simp only [Function.comp_def, localName_plain]
  · rfl

theorem childByLocal_plain (segment : String) :
    childByLocal u e.plain segment = childByLocal u e segment := by
  simp only [childByLocal, locate, findIdxs_plain]

theorem walk_plain (segs : List String) (e : Element) : walk u e.plain segs = walk u e segs := by
  induction segs generalizing e with
  | nil => rfl
  | cons seg rest ih =>
    rw [walk, walk, childByLocal_plain]
    refine bind_congr fun found => ?_
    cases found with
    | none => rfl
    | some k =>
      dsimp only
      rw [nodes_plain]
      cases e.hasElements with
      | true =>
        rw [if_pos rfl, List.getElem?_map]
        cases e.nodes[k]? with
        | none => rfl
        | some c => exact congrArg (Except.map _) (ih c)
      | false => rfl

theorem navigate_plain (path : String) : navigate u e.plain path = navigate u e path := by
  rw [navigate, navigate]
  cases segments path with
  | nil => rfl
  | cons seg rest => simp only [localName_plain, walk_plain]

/-! ## Changes -/

/-- The tree that a change gives, without its layout. -/
abbrev plainResult (r : Except ServiceError (Option Element)) :
    Except ServiceError (Option Element) := r.map (Option.map plain)

theorem respectsLayout_insertMissing (name : String) (value : Option String) :
    RespectsLayout (insertMissing name value) := by
  refine RespectsLayout.insert orderIndex_plain (n := fun e => newChild e name value) ?_ ?_
  · intro e
    rw [newChild, newChild, namespace?_plain]
  · intro e h
    cases h

theorem createMissing_plain (path : String) (value : Option String) :
    plainResult (createMissing u e.plain path value) =
      plainResult (createMissing u e path value) := by
  unfold createMissing
  by_cases hlen : (segments path).length < 2
  · rw [if_pos hlen, if_pos hlen]
  · rw [if_neg hlen, if_neg hlen, navigate_plain]
    generalize navigate u e (join "/" (segments path).dropLast) = found
    cases found with
    | error err => simp only [bind, Except.bind]
    | ok found =>
      cases found with
      | none => simp only [bind, Except.bind]
      | some pos =>
        have hspecial : (e.plain.at? pos).any (·.tag = .special) =
            (e.at? pos).any (·.tag = .special) := by
          have htag := congrArg (Option.any (· = Tag.special)) (tag_at?_plain pos e)
          simpa only [Option.any_map, Function.comp_def] using htag
        simp only [bind, Except.bind, hspecial]
        split_ifs
        · rfl
        · cases checkText value with
          | error err => rfl
          | ok written =>
            exact congrArg (fun tree => Except.ok (some tree))
              (((respectsLayout_insertMissing _ value).updateAt pos).plain e)
        · rfl

/-- The step lemma: a change finds the same elements with or without the layout. -/
theorem applyOne_plain (change : DiffEntry) :
    plainResult (applyOne u e.plain change) = plainResult (applyOne u e change) := by
  rw [applyOne, applyOne, navigate_plain]
  generalize navigate u e change.path = found
  cases found with
  | error err => rfl
  | ok found =>
    cases found with
    | none => exact createMissing_plain u e change.path change.after
    | some pos =>
      simp only [bind, Except.bind]
      cases checkText change.after with
      | error err => rfl
      | ok written =>
        exact congrArg (fun tree => Except.ok (some tree))
          (((RespectsLayout.setText change.after).updateAt pos).plain e)

/-- What is read of a reconstruction. -/
def shape (r : Reconstruction) : Element × List DiffEntry := (r.tree.plain, r.applied)

theorem applyStep_shape (r r' : Reconstruction) (change : DiffEntry) (h : shape r = shape r') :
    (applyStep u r change).map shape = (applyStep u r' change).map shape := by
  obtain ⟨htree, happlied⟩ := Prod.mk.inj h
  have hone : plainResult (applyOne u r.tree change) = plainResult (applyOne u r'.tree change) := by
    rw [← applyOne_plain, htree, applyOne_plain]
  unfold applyStep
  obtain ⟨err, hfirst, hsecond⟩ | ⟨tree, tree', hfirst, hsecond, hplain⟩ :=
    Except.cases_of_map_eq hone
  · rw [hfirst, hsecond]
    rfl
  · rw [hfirst, hsecond]
    rcases tree with _ | tree <;> rcases tree' with _ | tree'
    · simp [bind, Except.bind, pure, Except.pure, Except.map, shape, htree, happlied]
    · cases hplain
    · cases hplain
    · have htree' : tree.plain = tree'.plain := Option.some.inj hplain
      simp [bind, Except.bind, pure, Except.pure, Except.map, shape, htree', happlied]

/-- The run lemma: the reconstructions differ in the layout of their trees. -/
theorem applyChanges_shape (changes : List DiffEntry) :
    (applyChanges u e.plain changes).map shape = (applyChanges u e changes).map shape := by
  refine Except.map_foldlM_congr (fun r r' change h => applyStep_shape u r r' change h) changes ?_
  rw [shape, shape, plain_plain]

end

/-! ## Candidates -/

section

variable {env : GeneratorEnv} (e : Element)

/-- A candidate with its tree laid out in one way. -/
def plainCandidate (c : RepairCandidate) : RepairCandidate := { c with xml := c.xml.map plain }

theorem xmlCandidate_plain
    (hlibrary : ∀ id e, env.xmlLibrary.validate id (plain e) = env.xmlLibrary.validate id e)
    (changes : List DiffEntry) (clock : Instant) :
    (xmlCandidate env e.plain changes clock).map plainCandidate =
      (xmlCandidate env e changes clock).map plainCandidate := by
  unfold xmlCandidate
  obtain ⟨err, hfirst, hsecond⟩ | ⟨r, r', hfirst, hsecond, hshape⟩ :=
    Except.cases_of_map_eq (applyChanges_shape env.unicode e changes)
  · rw [hfirst, hsecond]
  · obtain ⟨htree, happlied⟩ := Prod.mk.inj hshape
    have hid : identifyPacs008 r.tree = identifyPacs008 r'.tree := by
      rw [identifyPacs008, identifyPacs008, ← tag_plain, htree, tag_plain]
    have hvalid : ∀ id, env.xmlLibrary.validate id r.tree = env.xmlLibrary.validate id r'.tree := by
      intro id
      rw [← hlibrary, htree, hlibrary]
    have hmap : ∀ version, mapPacs008ToCanonical env.unicode r.tree version clock =
        mapPacs008ToCanonical env.unicode r'.tree version clock := by
      intro version
      rw [← mapPacs008_plain, htree, mapPacs008_plain]
    rw [hfirst, hsecond]
    simp only [bind, Except.bind, hid, hvalid, hmap]
    cases identifyPacs008 r'.tree with
    | error err => rfl
    | ok version =>
      dsimp only
      cases mapPacs008ToCanonical env.unicode r'.tree version clock with
      | error err => rfl
      | ok message => simp [pure, Except.pure, Except.map, plainCandidate, htree, happlied]

theorem generateCandidate_plain
    (hlibrary : ∀ id e, env.xmlLibrary.validate id (plain e) = env.xmlLibrary.validate id e)
    (message : PaymentMessage) (clock : Instant) :
    (generateCandidate env message (some e.plain) clock).map plainCandidate =
      (generateCandidate env message (some e) clock).map plainCandidate := by
  unfold generateCandidate
  by_cases hnone : proposedChanges env.provider message = []
  · rw [if_pos hnone, if_pos hnone]
  · rw [if_neg hnone, if_neg hnone]
    cases message.sourceFormat with
    | xmlPacs008 => exact xmlCandidate_plain e hlibrary _ clock
    | _ => rfl

end

end PaymentOps.Repair

namespace PaymentOps.AnalysisPipeline

open Text Xml Element Iso Repair Lifecycle

/-! ## Results -/

section

variable {D : Type} (p : AnalysisPipeline) (hash : Hashing D) (root : Element)

/-- What `analyzeIso` makes of a tree. -/
def analyzeTree (clock : Instant) : Except ServiceError (IsoAnalysisResult D) := do
  let registered ← resolveRoot root
  let artifact ← registered.adapter.map p.generator.unicode clock root registered.version
  resultOf p hash registered root clock artifact

theorem analyzeIso_of_secureParse {payload : List UInt8} {clock : Instant}
    (h : secureParse p.generator.xmlLibrary p.maxPayloadBytes payload = .ok root) :
    analyzeIso p hash payload clock = analyzeTree p hash root clock := by
  simp only [analyzeIso, parseIso, analyzeTree, h, bind, Except.bind, pure, Except.pure]
  cases resolveRoot root with
  | error err => rfl
  | ok registered =>
    dsimp only
    cases registered.adapter.map p.generator.unicode clock root registered.version with
    | error err => rfl
    | ok artifact => rfl

variable (hlibrary : ∀ id e,
  p.generator.xmlLibrary.validate id (plain e) = p.generator.xmlLibrary.validate id e)

include hlibrary

theorem isoPaymentResult_plain (registered : RegisteredMessage) (valid : Bool)
    (message : PaymentMessage) (clock : Instant) :
    isoPaymentResult p hash registered root.plain valid message clock =
      isoPaymentResult p hash registered root valid message clock := by
  have hcandidate := generateCandidate_plain root hlibrary (checked valid message) clock
  unfold isoPaymentResult
  by_cases hsize : p.maxTransactions < message.transactions.length
  · rw [if_pos hsize, if_pos hsize]
  · rw [if_neg hsize, if_neg hsize]
    dsimp only
    obtain ⟨err, hfirst, hsecond⟩ | ⟨c, c', hfirst, hsecond, hsame⟩ :=
      Except.cases_of_map_eq hcandidate
    · rw [hfirst, hsecond]
    · rw [hfirst, hsecond]
      have hstatus : c.status = c'.status := congrArg (·.status) hsame
      have hchanges : c.changes = c'.changes := congrArg (·.changes) hsame
      simp only [bind, Except.bind, paymentWarnings, hstatus, hchanges]

theorem resultOf_plain (registered : RegisteredMessage) (clock : Instant) (artifact : Artifact) :
    resultOf p hash registered root.plain clock artifact =
      resultOf p hash registered root clock artifact := by
  unfold resultOf
  rw [hlibrary]
  cases artifact with
  | payment message => exact isoPaymentResult_plain p hash root hlibrary registered _ message clock
  | status report => rfl
  | account bundle => rfl

theorem analyzeTree_plain (clock : Instant) :
    analyzeTree p hash root.plain clock = analyzeTree p hash root clock := by
  unfold analyzeTree
  rw [resolveRoot_plain]
  cases h : resolveRoot root with
  | error err => rfl
  | ok registered =>
    have hmap := map_plain p.generator.unicode root (mem_registry_of_resolveRoot h) clock
    simp only [bind, Except.bind, hmap, resultOf_plain p hash root hlibrary]

end

/-- Payloads that differ in the white space around their elements are analyzed to the same result,
or refused with the same error. -/
theorem analyzeIso_layout {D : Type} (p : AnalysisPipeline) (hash : Hashing D)
    (payload payload' : List UInt8) (clock : Instant) (root root' : Element)
    (hlibrary : ∀ id e,
      p.generator.xmlLibrary.validate id (plain e) = p.generator.xmlLibrary.validate id e)
    (hparse : secureParse p.generator.xmlLibrary p.maxPayloadBytes payload = .ok root)
    (hparse' : secureParse p.generator.xmlLibrary p.maxPayloadBytes payload' = .ok root')
    (hlayout : root.plain = root'.plain) :
    analyzeIso p hash payload clock = analyzeIso p hash payload' clock := by
  rw [analyzeIso_of_secureParse p hash root hparse, analyzeIso_of_secureParse p hash root' hparse',
    ← analyzeTree_plain p hash root hlibrary, hlayout, analyzeTree_plain p hash root' hlibrary]

/-- The payment as it is printed, with a new line after its root element. -/
def printedTree : Element := acceptedTree.setText (some "\n  ")

/-- The library parses a payload of one byte, and the same payload with a new line in it. -/
def printingPipeline (dates : DateTypes) : AnalysisPipeline where
  generator := {
    unicode := .ascii
    xmlLibrary := {
      fromstring := fun data => .ok (if data.length = 1 then acceptedTree else printedTree)
      validate := validateMessage dates }
    provider := sampleProvider
    rules := [] }

theorem analyzeIso_layout_sample :
    analyzeIso (printingPipeline anyDates) Hashing.structural [60] 0 =
      analyzeIso (printingPipeline anyDates) Hashing.structural [60, 10] 0 :=
  analyzeIso_layout (printingPipeline anyDates) Hashing.structural [60] [60, 10] 0
    acceptedTree printedTree (validateMessage_plain anyDates) (by rfl) (by rfl) (by rfl)

end PaymentOps.AnalysisPipeline
