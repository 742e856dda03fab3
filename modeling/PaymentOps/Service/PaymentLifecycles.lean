import PaymentOps.Service.Conflicts

/-!
# The lifecycles of a payment

A payment joins the lifecycles that its transactions find and opens one for each of the others.
`lifecycles_of_payment` says which lifecycles it leaves behind; none of them carries an original
message id, and its own message id is not among their columns.
-/

namespace PaymentOps.IsoAnalysis

open Text Lifecycle

variable {D : Type} {env : Env D} {org : String} {result : IsoAnalysisResult D} {isoId : ℕ}
  {messageHash : D} {clock : Instant} {s t : Store D} {p : CorrelationProfile}

/-- The lifecycles after the transactions of a payment. -/
def openedBy (org : String) (clock : Instant) :
    List PaymentLifecycleRow → List CorrelationProfile → List PaymentLifecycleRow
  | known, [] => known
  | known, data :: rest =>
    openedBy org clock (lifecyclesAfter org true clock known (profileFromDict data)) rest

/-- Some reference of the transaction is present. -/
def HasReference (p : CorrelationProfile) : Prop :=
  truthy p.transactionId ∨ truthy p.endToEndId ∨ truthy p.instructionId

instance : DecidablePred HasReference := fun _ => inferInstanceAs (Decidable (_ ∨ _ ∨ _))

theorem hasReference_congr {q : CorrelationProfile} (h : references p = references q) :
    HasReference p ↔ HasReference q := by
  have hgiven : ∀ o : Option String, truthy o = (given o).isSome := by
    intro o
    unfold given
    split_ifs with ho
    · rw [ho]
      cases o with
      | none => simp at ho
      | some v => rfl
    · simpa using ho
  simp only [references, Prod.mk.injEq] at h
  simp only [HasReference, hgiven, h.1, h.2.1, h.2.2]

theorem ownReference_newLifecycle : OwnReference p (newLifecycle org p clock) ↔ HasReference p := by
  simp [OwnReference, HasReference, newLifecycle]

theorem OwnReference.hasReference {l : PaymentLifecycleRow} (h : OwnReference p l) :
    HasReference p := by
  rcases h with ⟨h, -⟩ | ⟨h, -⟩ | ⟨h, -⟩
  · exact .inl h
  · exact .inr (.inl h)
  · exact .inr (.inr h)

/-! ## What is opened -/

theorem lifecyclesAfter_extends (opens : Bool) (known : List PaymentLifecycleRow)
    (p : CorrelationProfile) : known <+: lifecyclesAfter org opens clock known p := by
  unfold lifecyclesAfter
  split_ifs
  · exact List.prefix_append _ _
  · exact List.prefix_rfl

theorem openedBy_extends (known : List PaymentLifecycleRow) (profiles : List CorrelationProfile) :
    known <+: openedBy org clock known profiles := by
  induction profiles generalizing known with
  | nil => exact List.prefix_rfl
  | cons data profiles ih => exact (lifecyclesAfter_extends true known _).trans (ih _)

/-- What a payment leaves was there, or is opened by one of its transactions. -/
theorem mem_openedBy {known : List PaymentLifecycleRow} {profiles : List CorrelationProfile}
    {l : PaymentLifecycleRow} (h : l ∈ openedBy org clock known profiles) :
    l ∈ known ∨ ∃ data ∈ profiles, l = newLifecycle org (profileFromDict data) clock := by
  induction profiles generalizing known with
  | nil => exact .inl h
  | cons data profiles ih =>
    rcases ih h with hknown | ⟨d, hd, rfl⟩
    · unfold lifecyclesAfter at hknown
      split_ifs at hknown
      · rcases List.mem_append.mp hknown with hknown | hnew
        · exact .inl hknown
        · exact .inr ⟨data, List.mem_cons_self, List.mem_singleton.mp hnew⟩
      · exact .inl hknown
    · exact .inr ⟨d, List.mem_cons_of_mem _ hd, rfl⟩

/-- Each transaction with a reference can find a lifecycle afterwards. -/
theorem exists_lookup_openedBy {known : List PaymentLifecycleRow}
    {profiles : List CorrelationProfile} {data : CorrelationProfile} (hdata : data ∈ profiles)
    (href : HasReference data) :
    ∃ l ∈ openedBy org clock known profiles, lookup org (profileFromDict data) l := by
  induction profiles generalizing known with
  | nil => cases hdata
  | cons d profiles ih =>
    rcases List.mem_cons.mp hdata with rfl | hdata
    · suffices hex : ∃ l ∈ lifecyclesAfter org true clock known (profileFromDict data),
          lookup org (profileFromDict data) l by
        obtain ⟨l, hl, hlookup⟩ := hex
        exact ⟨l, (openedBy_extends _ profiles).subset hl, hlookup⟩
      unfold lifecyclesAfter
      by_cases hany : known.any (lookup org (profileFromDict data))
      · obtain ⟨l, hl, hlookup⟩ := List.any_eq_true.mp hany
        exact ⟨l, by simpa [hany] using hl, hlookup⟩
      · refine ⟨newLifecycle org (profileFromDict data) clock, by simp [hany], ?_⟩
        exact lookup_iff.mpr ⟨rfl, .inr (ownReference_newLifecycle.mpr href)⟩
    · exact ih hdata

/-! ## The loop over the transactions -/

theorem paymentFold (env : Env D) (org : String) (result : IsoAnalysisResult D) (isoId : ℕ)
    (messageHash : D) (clock : Instant) (xs : List CorrelationProfile) (c : Correlation)
    (t : Store D) :
    ∃ c', ((Session.fold (paymentStep env org result isoId messageHash clock) c xs).run
        t).outcome = .ok c' ∧
      (((Session.fold (paymentStep env org result isoId messageHash clock) c xs).run t).final
        t).lifecycles = openedBy org clock t.lifecycles xs := by
  induction xs generalizing c t with
  | nil => exact ⟨c, rfl, rfl⟩
  | cons data xs ih =>
    rw [Session.fold_cons]
    obtain ⟨c', e, he, ho, -, hcases⟩ :=
      paymentStep_cases env org result isoId messageHash clock c data t
    subst he
    set t' := ((paymentStep env org result isoId messageHash clock c data).run t).final t with ht'
    have hstep : t'.lifecycles = lifecyclesAfter org true clock t.lifecycles
        (profileFromDict data) := by
      unfold lifecyclesAfter
      rcases hcases with ⟨hf, -, hfin⟩ | ⟨id, row, evidence, hf, -, hfin⟩
      · have hnone : t.lifecycles.any (lookup org (profileFromDict data)) = false := by
          rw [List.any_eq_false]
          exact findLifecycle_eq_none.mp hf
        rw [hfin, hnone]
        rfl
      · obtain ⟨hrow, hlookup⟩ := findLifecycle_some hf
        have hsome : t.lifecycles.any (lookup org (profileFromDict data)) = true :=
          List.any_eq_true.mpr ⟨row, List.mem_of_getElem? hrow, hlookup⟩
        rw [hfin, hsome]
        rfl
    obtain ⟨c'', ho', hfinal⟩ := ih c' t'
    refine ⟨c'', ?_, ?_⟩
    · rw [Session.bind_ok ho]
      exact ho'
    · rw [Session.bind_final ho, ← ht', hfinal, hstep]
      rfl

section

variable [DecidableEq D] {pipeline : AnalysisPipeline} {payload : List UInt8}

theorem setStatus_none : setStatus none = id := rfl

/-- The lifecycles that a payment leaves behind. -/
theorem lifecycles_of_payment
    (hresult : pipeline.analyzeIso env.hash payload clock = .ok result)
    (hstatus : isStatusReport result = false) (hreports : result.accountReports = [])
    (hnormalized : result.normalizedStatus = none) (hnew : ¬ Known env org result s) :
    (((analyzeIsoMessage env org pipeline payload clock).run s).final s).lifecycles =
      openedBy org clock s.lifecycles result.correlationProfiles := by
  have hcommits : ((persistAnalysis env org result clock).run s).commits = _ :=
    commits_payment hnew hreports hstatus
  obtain ⟨c, ho, hfinal⟩ := paymentFold env org result s.isoMessages.length
    (env.hash.message (messageKey result)) clock result.correlationProfiles {}
    (recorded env org result s)
  rw [analyzeIsoMessage_ok hresult, Session.final_of_commits_cons hcommits, Session.bind_final ho,
    updateLifecycleStatus, hnormalized]
  cases c.lifecycleId with
  | none => exact hfinal
  | some id =>
    -- one more commit, which changes nothing
    simp only [Store.updateLifecycle, Session.commit_bind, Session.pure_apply, setStatus_none,
      List.modify_id, Session.final_cons, Session.final_nil]
    exact hfinal

theorem lifecycles_of_known (hresult : pipeline.analyzeIso env.hash payload clock = .ok result)
    (hk : Known env org result s) :
    ((analyzeIsoMessage env org pipeline payload clock).run s).final s = s := by
  obtain ⟨r, hr⟩ := persistAnalysis_known hk
  rw [analyzeIsoMessage_ok hresult, hr]
  rfl

end

end PaymentOps.IsoAnalysis
