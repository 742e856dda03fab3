import PaymentOps.Lib.Fallible
import PaymentOps.Repair.Proposals

/-!
# What a validated candidate guarantees

A candidate should be labelled `VALIDATED` only when the rules and, for an ISO message, the schema
accept it.  The generator validates a pacs.008 candidate so; it does not validate at all when there
is nothing to change, and never asks the schema about other ISO messages.

* `Sound` is the guarantee, for one input of the generator;
* `ValidationComplete` is the condition on the input under which it holds, and
  `sound_of_validationComplete` says so;
* `validated_without_amount` is a message that is labelled `VALIDATED` with an error finding.
-/

namespace PaymentOps.Repair

open Text Xml Iso

/-- No finding of the rules blocks the message. -/
def RulesPass (rules : RuleEngine) (m : PaymentMessage) : Prop :=
  ∀ f ∈ rules.evaluate m, f.severity ≠ .error ∧ f.severity ≠ .critical

theorem rulesPass_iff {rules : RuleEngine} {m : PaymentMessage} :
    RulesPass rules m ↔ blockingFindings (rules.evaluate m) = false :=
  blockingFindings_eq_false.symm

section

variable (env : GeneratorEnv) (message : PaymentMessage) (doc : Option Element) (clock : Instant)

/-- The changes are made in the tree of a pacs.008. -/
def reconstructed : Option Element :=
  if message.sourceFormat = .xmlPacs008 then doc else none

/-- The tree with the changes applied. -/
def candidateTree (root : Element) : Except ServiceError Element :=
  (applyChanges env.unicode root (proposedChanges env.provider message)).map (·.tree)

/-- The message that the candidate stands for: the original when there is nothing to change, what
the new tree of a pacs.008 maps to, else the message with the changes applied. -/
def candidateMessage : Except ServiceError PaymentMessage :=
  if proposedChanges env.provider message = [] then .ok message
  else match reconstructed message doc with
    | some root => do
      let tree ← candidateTree env message root
      let version ← identifyPacs008 tree
      mapPacs008ToCanonical env.unicode tree version clock
    | none => .ok (appliedMessage message (proposals env.provider message))

/-- When the source is an ISO message, its schema accepts the candidate tree. -/
def SchemaAccepts : Prop :=
  ∀ root ∈ doc, ∀ registered, resolveRoot root = .ok registered →
    ∃ tree, candidateTree env message root = .ok tree ∧
      env.xmlLibrary.validate registered.version.identifier tree = true

/-- A candidate that is labelled `VALIDATED` passes the rules and the schema. -/
def Sound : Prop :=
  ∀ c, generateCandidate env message doc clock = .ok c → c.status = .validated →
    (∃ m, candidateMessage env message doc clock = .ok m ∧ RulesPass env.rules m) ∧
      SchemaAccepts env message doc

/-- Without changes the original has to pass, and in the tree of a pacs.008 there is no condition.
Else the path of every proposal has to name its target and the schema to accept the tree, or no
path names a transaction, so that nothing is changed, and the original does not pass. -/
def ValidationComplete : Prop :=
  if proposedChanges env.provider message = [] then
    RulesPass env.rules message ∧ SchemaAccepts env message doc
  else (reconstructed message doc).isSome ∨
    (∀ p ∈ proposals env.provider message, p.Addressed env.unicode message) ∧
      SchemaAccepts env message doc ∨
    (∀ p ∈ proposals env.provider message, NoIndex env.unicode p.base) ∧
      ¬ RulesPass env.rules message

end

variable {env : GeneratorEnv} {message : PaymentMessage} {doc : Option Element} {clock : Instant}

theorem generateCandidate_eq (hc : proposedChanges env.provider message ≠ []) :
    generateCandidate env message doc clock =
      match reconstructed message doc with
      | some root => xmlCandidate env root (proposedChanges env.provider message) clock
      | none => modelCandidate env message (proposedChanges env.provider message) := by
  unfold generateCandidate reconstructed
  rw [if_neg hc]
  cases doc with
  | none => simp
  | some root =>
    by_cases hf : message.sourceFormat = .xmlPacs008
    · simp [hf]
    · simp only [if_neg hf]
      split
      · rename_i heq
        exact absurd heq hf
      · rfl

theorem statusOf_eq_validated {b : Bool} : statusOf b = .validated ↔ b = true := by
  cases b <;> simp [statusOf]

/-! ## Changes keep the root -/

theorem tag_updateAt {f : Element → Element} (hf : ∀ e : Element, (f e).tag = e.tag)
    (pos : List ℕ) (root : Element) : (root.updateAt pos f).tag = root.tag := by
  cases pos with
  | nil => exact hf root
  | cons k pos => exact Element.tag_setNodes _ _

theorem applyOne_tag {u : Unicode} {root tree : Element} {change : DiffEntry}
    (h : applyOne u root change = .ok (some tree)) : tree.tag = root.tag := by
  unfold applyOne at h
  obtain ⟨o, hnav, h⟩ := Except.bind_eq_ok.mp h
  cases o with
  | some pos =>
    obtain ⟨-, -, h⟩ := Except.bind_eq_ok.mp h
    obtain rfl := Option.some.inj (Except.pure_eq_ok.mp h)
    exact tag_updateAt (Element.tag_setText _) pos root
  | none =>
    simp only [createMissing] at h
    split_ifs at h with hlen
    · cases h
    · obtain ⟨o, hpar, h⟩ := Except.bind_eq_ok.mp h
      cases o with
      | none => cases Except.pure_eq_ok.mp h
      | some pos =>
        dsimp only at h
        split_ifs at h
        obtain ⟨-, -, h⟩ := Except.bind_eq_ok.mp h
        obtain rfl := Option.some.inj (Except.pure_eq_ok.mp h)
        refine tag_updateAt (fun e => ?_) pos root
        exact (Element.tag_setNodes _ _).trans (Element.tag_setNodes _ _)
    · obtain ⟨o, hpar, h⟩ := Except.bind_eq_ok.mp h
      cases o with
      | none => cases Except.pure_eq_ok.mp h
      | some pos => cases Except.pure_eq_ok.mp h

theorem applyStep_tag {u : Unicode} {r r' : Reconstruction} {change : DiffEntry}
    (h : applyStep u r change = .ok r') : r'.tree.tag = r.tree.tag := by
  unfold applyStep at h
  obtain ⟨o, hone, h⟩ := Except.bind_eq_ok.mp h
  cases o with
  | none =>
    obtain rfl := Except.pure_eq_ok.mp h
    rfl
  | some tree =>
    obtain rfl := Except.pure_eq_ok.mp h
    exact applyOne_tag hone

theorem applySteps_tag {u : Unicode} {changes : List DiffEntry} {r r' : Reconstruction}
    (h : changes.foldlM (applyStep u) r = .ok r') : r'.tree.tag = r.tree.tag := by
  induction changes generalizing r with
  | nil =>
    cases h
    rfl
  | cons change changes ih =>
    rw [List.foldlM_cons] at h
    obtain ⟨r₁, hs, hrest⟩ := Except.bind_eq_ok.mp h
    exact (ih hrest).trans (applyStep_tag hs)

/-- A pacs.008 tree is registered as pacs.008. -/
theorem version_of_resolveRoot {root tree : Element} {version : SupportedVersion}
    {registered : RegisteredMessage} (htag : tree.tag = root.tag)
    (hid : identifyPacs008 tree = .ok version) (hres : resolveRoot root = .ok registered) :
    registered.version = version := by
  unfold identifyPacs008 at hid
  unfold resolveRoot extractNamespace Element.namespace? at hres
  rw [htag] at hid
  cases ht : root.tag with
  | special => simp [ht] at hid
  | name ns l =>
    simp only [ht] at hid hres
    split_ifs at hid with h1 h2 h3
    cases hid
    cases ns with
    | none => cases hres
    | some ns =>
      simp only [Option.getD_some] at h2
      subst h2
      have hpacs : resolveNamespace pacs008Version.namespace_ =
          .ok ⟨"pacs", pacs008Version, .pacs008⟩ := by
        decide +kernel
      simp only [hpacs, Except.ok.injEq] at hres
      rw [← hres]

/-- In the tree of a pacs.008 the label means what it says. -/
theorem sound_of_reconstructed (hc : proposedChanges env.provider message ≠ [])
    {root : Element} (hr : reconstructed message doc = some root) :
    Sound env message doc clock := by
  intro c hgen hstatus
  have hdoc : doc = some root := by
    unfold reconstructed at hr
    split_ifs at hr
    exact hr
  rw [generateCandidate_eq hc, hr] at hgen
  simp only [xmlCandidate, bind, Except.bind, pure, Except.pure] at hgen
  cases happ : applyChanges env.unicode root (proposedChanges env.provider message) with
  | error e => simp [happ] at hgen
  | ok r =>
    cases hid : identifyPacs008 r.tree with
    | error e => simp [happ, hid] at hgen
    | ok version =>
      cases hmap : mapPacs008ToCanonical env.unicode r.tree version clock with
      | error e => simp [happ, hid, hmap] at hgen
      | ok m =>
        simp only [happ, hid, hmap, Except.ok.injEq] at hgen
        subst hgen
        simp only [statusOf_eq_validated, Bool.and_eq_true, Bool.not_eq_true'] at hstatus
        have htree : candidateTree env message root = .ok r.tree := by
          rw [candidateTree, happ]
          rfl
        refine ⟨⟨m, ?_, rulesPass_iff.mpr hstatus.2⟩, ?_⟩
        · rw [candidateMessage, if_neg hc, hr]
          simp only [htree, bind, Except.bind, hid, hmap]
        · intro root' hroot' registered hres
          obtain rfl : root = root' := by
            rw [hdoc] at hroot'
            exact Option.some.inj hroot'
          have hver := version_of_resolveRoot (applySteps_tag happ) hid hres
          exact ⟨r.tree, htree, by rw [hver]; exact hstatus.1⟩

/-- Without a reconstructor the label says only that the rules pass on the message that the
generator looks at. -/
theorem modelCandidate_validated {changes : List DiffEntry} :
    (∃ c, modelCandidate env message changes = .ok c ∧ c.status = .validated) ↔
      ∃ m, applyToMessage env.unicode message changes = .ok m ∧ RulesPass env.rules m := by
  unfold modelCandidate
  cases happ : applyToMessage env.unicode message changes with
  | error e => simp [bind, Except.bind]
  | ok m =>
    simp [bind, Except.bind, pure, Except.pure, statusOf_eq_validated, rulesPass_iff]

/-- Without changes nothing is validated, so that the original has to pass. -/
theorem sound_of_unchanged (hc : proposedChanges env.provider message = []) :
    Sound env message doc clock ↔ RulesPass env.rules message ∧ SchemaAccepts env message doc := by
  have hgen : generateCandidate env message doc clock =
      .ok { changes := [], status := .validated, note := some "No repair changes required" } := by
    unfold generateCandidate
    simp [hc]
  have hmsg : candidateMessage env message doc clock = .ok message := by
    rw [candidateMessage, if_pos hc]
  constructor
  · intro h
    obtain ⟨⟨m, hm, hrules⟩, hschema⟩ := h _ hgen rfl
    rw [hmsg] at hm
    cases hm
    exact ⟨hrules, hschema⟩
  · rintro ⟨hrules, hschema⟩ c - -
    exact ⟨⟨message, hmsg, hrules⟩, hschema⟩

/-- A message without a reconstructor is labelled after the rules, on what its changes make of
it. -/
theorem sound_of_applied (hc : proposedChanges env.provider message ≠ [])
    (hr : reconstructed message doc = none)
    (h : ∀ m, applyToMessage env.unicode message (proposedChanges env.provider message) = .ok m →
      RulesPass env.rules m →
        RulesPass env.rules (appliedMessage message (proposals env.provider message)) ∧
          SchemaAccepts env message doc) : Sound env message doc clock := by
  intro c hcand hstatus
  rw [generateCandidate_eq hc, hr] at hcand
  obtain ⟨m, hm, hrules⟩ := modelCandidate_validated.mp ⟨c, hcand, hstatus⟩
  obtain ⟨hrules', hschema⟩ := h m hm hrules
  exact ⟨⟨_, by rw [candidateMessage, if_neg hc, hr], hrules'⟩, hschema⟩

/-- The label means what it says on the inputs on which the validation is complete, and on no
others when nothing is changed or a pacs.008 tree is. -/
theorem sound_of_validationComplete (env : GeneratorEnv) (message : PaymentMessage)
    (doc : Option Element) (clock : Instant) :
    (ValidationComplete env message doc → Sound env message doc clock) ∧
    (proposedChanges env.provider message = [] ∨ (reconstructed message doc).isSome →
      Sound env message doc clock → ValidationComplete env message doc) := by
  by_cases hc : proposedChanges env.provider message = []
  · rw [ValidationComplete, if_pos hc]
    have hsound : Sound env message doc clock ↔
        RulesPass env.rules message ∧ SchemaAccepts env message doc := sound_of_unchanged hc
    exact ⟨hsound.mpr, fun _ => hsound.mp⟩
  rw [ValidationComplete, if_neg hc]
  refine ⟨fun h => ?_, fun hinput _ => .inl (hinput.resolve_left hc)⟩
  cases hr : reconstructed message doc with
  | some root => exact sound_of_reconstructed hc hr
  | none =>
    refine sound_of_applied hc hr fun m hm hrules => ?_
    rw [hr] at h
    rw [proposedChanges_eq] at hm
    rcases h with h | ⟨haddressed, hschema⟩ | ⟨hskipped, hblocked⟩
    · cases h
    · -- every change is made at its target
      have happlied := applyToMessage_of_addressed (proposals env.provider message)
        fun p hp => ⟨haddressed p hp, hasTarget_of_mem hp, ne_empty_of_mem hp⟩
      obtain rfl := Except.ok.inj (happlied.symm.trans hm)
      exact ⟨hrules, hschema⟩
    · -- no change is made
      obtain rfl := Except.ok.inj ((applyToMessage_of_noIndex hskipped).symm.trans hm)
      exact absurd hrules hblocked

/-- The structural rules, and a provider that resolves nothing. -/
def structuralEnv : GeneratorEnv where
  unicode := .ascii
  xmlLibrary := { fromstring := fun _ => .error .syntaxError, validate := fun _ _ => true }
  provider := fun _ => {}
  rules := structuralRules

/-- A message whose one transaction has no amount is `VALIDATED`, although a rule of severity
`ERROR` fails on it. -/
theorem validated_without_amount :
    ¬ Sound structuralEnv { transactions := [{}], sourceFormat := .json, receivedAt := 0 }
      none 0 := by
  intro h
  obtain ⟨⟨m, hm, hrules⟩, -⟩ := h _ rfl rfl
  obtain rfl := Except.ok.inj hm
  rw [rulesPass_iff] at hrules
  exact absurd hrules (by decide +kernel)

end PaymentOps.Repair
