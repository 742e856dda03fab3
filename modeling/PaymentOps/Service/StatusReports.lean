import PaymentOps.Service.IsoSteps

/-!
# The statuses that a status report sets

A pacs.002 gives every lifecycle that its transactions find the status of its *first*
transaction.  `statusesAgree_iff` says when this is nevertheless, in whatever order the database
returns its rows, the status of a transaction that found the lifecycle by its own references.
-/

namespace PaymentOps.IsoAnalysis

open Text Lifecycle

variable {D : Type} {env : Env D} {org : String} {result : IsoAnalysisResult D} {isoId : ℕ}
  {messageHash : D} {s : Store D}

/-! ## The loop -/

theorem statusStep_total (hn : truthy result.normalizedStatus) (xs : List CorrelationProfile) :
    Session.Total (HasLifecycles s.lifecycles)
      (statusStep env org result isoId messageHash) xs := by
  intro c data _ t ht
  obtain ⟨c', e, he, ho, hcases⟩ := statusStep_cases env hn isoId messageHash c data t
  rw [he]
  refine ⟨c', ho, ?_⟩
  rcases hcases with ⟨-, -, hfin⟩ | ⟨id, row, evidence, -, -, hfin⟩
  · rwa [hfin]
  · rw [hfin]
    exact HasLifecycles.withStatus ht id

/-- A lifecycle that is found once has the status of the message in the end. -/
theorem status_final {norm : String} (hn : result.normalizedStatus = some norm) (hne : norm ≠ "")
    (xs : List CorrelationProfile) (c : Correlation) (t : Store D) (key : ℕ)
    (h : (t.lifecycles[key]?).map (·.currentStatus) = some norm ∨
      ∃ it ∈ Session.iterations (statusStep env org result isoId messageHash) c xs t, ∃ row,
        findLifecycle env org (profileFromDict it.item) it.start = some (key, row)) :
    (((Session.fold (statusStep env org result isoId messageHash) c xs).run t).final
      t).lifecycles[key]?.map (·.currentStatus) = some norm := by
  have htruthy : truthy result.normalizedStatus := by
    rw [hn]
    exact truthy_some.mpr hne
  have hset : ∀ l : PaymentLifecycleRow,
      (setStatus result.normalizedStatus l).currentStatus = norm := by
    intro l
    rw [setStatus, if_pos htruthy, hn]
    rfl
  induction xs generalizing c t with
  | nil =>
    rcases h with h | ⟨it, hit, -⟩
    · exact h
    · simp [Session.iterations] at hit
  | cons data xs ih =>
    rw [Session.fold_cons]
    obtain ⟨c', e, he, ho, hcases⟩ := statusStep_cases env htruthy isoId messageHash c data t
    subst he
    rw [Session.bind_final ho]
    apply ih
    rw [Session.iterations_cons_ok ho] at h
    rcases hcases with ⟨hf, -, hfin⟩ | ⟨id, l, evidence, hf, -, hfin⟩
    · rw [hfin] at h ⊢
      rcases h with h | ⟨it, hit, row, hrow⟩
      · exact .inl h
      · rcases List.mem_cons.mp hit with rfl | hit
        · cases hf.symm.trans hrow
        · exact .inr ⟨it, hit, row, hrow⟩
    · have hget : (withStatus result id
          (withEvent org result isoId messageHash id evidence t)).lifecycles[key]?.map
            (·.currentStatus) =
          if id = key then (t.lifecycles[key]?).map fun _ => norm
          else (t.lifecycles[key]?).map (·.currentStatus) := by
        simp only [withStatus, withEvent, List.getElem?_modify]
        split_ifs with hid
        · cases t.lifecycles[key]? <;> simp [hset]
        · simp
      rw [hfin] at h ⊢
      rcases h with h | ⟨it, hit, row, hrow⟩
      · left
        rw [hget]
        split_ifs
        · obtain ⟨l', hl', -⟩ := Option.map_eq_some_iff.mp h
          rw [hl']
          rfl
        · exact h
      · rcases List.mem_cons.mp hit with rfl | hit
        · left
          obtain ⟨rfl, rfl⟩ : id = key ∧ l = row := by simpa using hf.symm.trans hrow
          rw [hget, if_pos rfl, (findLifecycle_some hf).1]
          rfl
        · exact .inr ⟨it, hit, row, hrow⟩

/-- A lifecycle that is never found stays as it is. -/
theorem lifecycle_final (hn : truthy result.normalizedStatus) (xs : List CorrelationProfile)
    (c : Correlation) (t : Store D) (key : ℕ)
    (h : ∀ it ∈ Session.iterations (statusStep env org result isoId messageHash) c xs t, ∀ row,
      findLifecycle env org (profileFromDict it.item) it.start ≠ some (key, row)) :
    (((Session.fold (statusStep env org result isoId messageHash) c xs).run t).final
      t).lifecycles[key]? = t.lifecycles[key]? := by
  induction xs generalizing c t with
  | nil => rfl
  | cons data xs ih =>
    rw [Session.fold_cons]
    obtain ⟨c', e, he, ho, hcases⟩ := statusStep_cases env hn isoId messageHash c data t
    subst he
    rw [Session.bind_final ho]
    rw [Session.iterations_cons_ok ho] at h
    have hrest := ih _ _ fun it hit => h it (List.mem_cons_of_mem _ hit)
    rw [hrest]
    rcases hcases with ⟨-, -, hfin⟩ | ⟨id, l, evidence, hf, -, hfin⟩
    · rw [hfin]
    · have hid : id ≠ key := by
        rintro rfl
        exact h _ List.mem_cons_self l hf
      rw [hfin]
      simp only [withStatus, withEvent, List.getElem?_modify, if_neg hid]
      exact Option.map_id'

/-! ## References -/

/-- A reference, when it is present. -/
def given (o : Option String) : Option String := if truthy o then o else none

/-- The references of a transaction to its payment. -/
def references (p : CorrelationProfile) : Option String × Option String × Option String :=
  (given p.transactionId, given p.endToEndId, given p.instructionId)

/-- The lifecycle carries one of these references. -/
def OwnReference (p : CorrelationProfile) (l : PaymentLifecycleRow) : Prop :=
  (truthy p.transactionId ∧ l.transactionId = p.transactionId) ∨
    (truthy p.endToEndId ∧ l.endToEndId = p.endToEndId) ∨
    (truthy p.instructionId ∧ l.instructionId = p.instructionId)

theorem given_eq_some {o : Option String} {v : String} (hv : v ≠ "") :
    given o = some v ↔ o = some v := by
  unfold given
  split_ifs with h
  · rfl
  · simp only [false_iff]
    rintro rfl
    exact h (truthy_some.mpr hv)

theorem given_ne_empty {o : Option String} {v : String} (h : given o = some v) : v ≠ "" := by
  unfold given at h
  split_ifs at h with ht
  rw [h] at ht
  exact truthy_some.mp ht

/-- Two references are the same when they have the same values. -/
theorem given_congr {o o' : Option String} (h : ∀ v, v ≠ "" → (o = some v ↔ o' = some v)) :
    given o = given o' := by
  apply Option.ext
  intro v
  by_cases hv : v = ""
  · subst hv
    constructor
    · intro hg
      exact absurd rfl (given_ne_empty hg)
    · intro hg
      exact absurd rfl (given_ne_empty hg)
  · rw [given_eq_some hv, given_eq_some hv]
    exact h v hv

theorem truthy_beq {o l : Option String} :
    (truthy o && l == o) = true ↔ ∃ v, v ≠ "" ∧ given o = some v ∧ l = some v := by
  simp only [Bool.and_eq_true, beq_iff_eq, truthy_iff]
  constructor
  · rintro ⟨⟨v, rfl, hv⟩, rfl⟩
    exact ⟨v, hv, (given_eq_some hv).mpr rfl, rfl⟩
  · rintro ⟨v, hv, hg, rfl⟩
    rw [given_eq_some hv] at hg
    exact ⟨⟨v, hg, hv⟩, hg.symm⟩

theorem lookup_iff {p : CorrelationProfile} {l : PaymentLifecycleRow} :
    lookup org p l ↔ l.organizationId = org ∧
      ((truthy p.originalMessageId && l.originalMessageId == p.originalMessageId) ∨
        OwnReference p l) := by
  simp [lookup, OwnReference, or_assoc]

theorem ownReference_congr {p q : CorrelationProfile} (href : references p = references q)
    (l : PaymentLifecycleRow) : OwnReference p l ↔ OwnReference q l := by
  simp only [references, Prod.mk.injEq] at href
  have hfield : ∀ {a b x : Option String}, given a = given b →
      ((truthy a ∧ x = a) ↔ (truthy b ∧ x = b)) := by
    intro a b x hab
    have h := truthy_beq (o := a) (l := x)
    rw [hab, ← truthy_beq (o := b) (l := x)] at h
    simpa using h
  unfold OwnReference
  rw [hfield href.1, hfield href.2.1, hfield href.2.2]

/-- Transactions of one report with the same references look up the same lifecycles. -/
theorem lookup_congr {p q : CorrelationProfile}
    (horig : p.originalMessageId = q.originalMessageId) (href : references p = references q)
    (l : PaymentLifecycleRow) :
    (lookup org p l ↔ lookup org q l) ∧ (OwnReference p l ↔ OwnReference q l) := by
  have hown := ownReference_congr href l
  refine ⟨?_, hown⟩
  rw [lookup_iff, lookup_iff, horig, hown]

/-- A lookup determines its references. -/
theorem references_of_lookup {p q : CorrelationProfile} (h : lookup org p = lookup org q) :
    references p = references q := by
  have hnone : ∀ o : Option String, (truthy o && (none : Option String) == o) = false := by
    intro o
    cases o <;> simp
  have hsome : ∀ (o : Option String) (v : String), v ≠ "" →
      ((truthy o && some v == o) = true ↔ o = some v) := by
    intro o v hv
    rw [truthy_beq]
    constructor
    · rintro ⟨w, hw, hg, hwv⟩
      cases hwv
      exact (given_eq_some hw).mp hg
    · intro ho
      exact ⟨v, hv, (given_eq_some hv).mpr ho, rfl⟩
  -- a lifecycle with a single reference tells whether the transaction has it
  have htx : given p.transactionId = given q.transactionId := by
    refine given_congr fun v hv => ?_
    have hl := congrFun h { organizationId := org, transactionId := some v, createdAt := 0 }
    simp only [lookup, BEq.rfl, Bool.true_and, hnone, Bool.or_false, Bool.false_or] at hl
    rw [← hsome _ v hv, ← hsome _ v hv, hl]
  have hend : given p.endToEndId = given q.endToEndId := by
    refine given_congr fun v hv => ?_
    have hl := congrFun h { organizationId := org, endToEndId := some v, createdAt := 0 }
    simp only [lookup, BEq.rfl, Bool.true_and, hnone, Bool.or_false, Bool.false_or] at hl
    rw [← hsome _ v hv, ← hsome _ v hv, hl]
  have hins : given p.instructionId = given q.instructionId := by
    refine given_congr fun v hv => ?_
    have hl := congrFun h { organizationId := org, instructionId := some v, createdAt := 0 }
    simp only [lookup, BEq.rfl, Bool.true_and, hnone, Bool.or_false, Bool.false_or] at hl
    rw [← hsome _ v hv, ← hsome _ v hv, hl]
  rw [references, references, htx, hend, hins]

theorem ownReference_of_stripped {p : CorrelationProfile} {l l' : PaymentLifecycleRow}
    (h : stripped l' = stripped l) : OwnReference p l' ↔ OwnReference p l := by
  have hown : ∀ x, OwnReference p (stripped x) ↔ OwnReference p x := fun _ => Iff.rfl
  rw [← hown, h, hown]

/-! ## Agreement -/

/-- The iterations over the transactions of a message. -/
abbrev Steps (D : Type) :=
  List (Session.Iteration (Store D) ServiceError CorrelationProfile Correlation)

/-- An iteration with these references finds the lifecycle, which carries one of them. -/
def FindsBy (env : Env D) (org : String) (steps : Steps D) (p : CorrelationProfile) (key : ℕ) :
    Prop :=
  ∃ it ∈ steps, ∃ row, findLifecycle env org (profileFromDict it.item) it.start = some (key, row) ∧
    references it.item = references p ∧ OwnReference p row

/-- Every lifecycle whose status is set has in the end the status of a transaction of the report
by whose own references it was found. -/
def StatusesAgree (env : Env D) (org : String) (report : LifecycleStatusReport) (steps : Steps D)
    (final : Store D) : Prop :=
  ∀ it ∈ steps, ∀ key row,
    findLifecycle env org (profileFromDict it.item) it.start = some (key, row) →
    ∃ tx ∈ report.transactionStatuses,
      (final.lifecycles[key]?).map (·.currentStatus) = some tx.normalizedStatus.value ∧
        FindsBy env org steps (profileFromStatus report tx) key

/-- Whatever lifecycle a transaction refers to, a transaction with the status of the first one
refers to it by its own references, and either has the same references or refers to no other
lifecycle. -/
def FirstStatusFits (org : String) (report : LifecycleStatusReport) (s : Store D) : Prop :=
  ∀ tx ∈ report.transactionStatuses, ∀ (key : ℕ) (row : PaymentLifecycleRow),
    s.lifecycles[key]? = some row → lookup org (profileFromStatus report tx) row →
    ∃ tx' ∈ report.transactionStatuses,
      report.transactionStatuses.head?.map (·.normalizedStatus) = some tx'.normalizedStatus ∧
        OwnReference (profileFromStatus report tx') row ∧
        (references (profileFromStatus report tx') = references (profileFromStatus report tx) ∨
          ∀ (key' : ℕ) (row' : PaymentLifecycleRow), s.lifecycles[key']? = some row' →
            lookup org (profileFromStatus report tx') row' → key' = key)

section

variable {report : LifecycleStatusReport} {t : Store D}

/-- The iterations over the transactions of a status report. -/
def reportSteps (env : Env D) (org : String) (result : IsoAnalysisResult D) (isoId : ℕ)
    (messageHash : D) (t : Store D) : Steps D :=
  Session.iterations (statusStep env org result isoId messageHash) {} result.correlationProfiles t

/-- The store that a report leaves. -/
def reportFinal (env : Env D) (org : String) (result : IsoAnalysisResult D) (isoId : ℕ)
    (messageHash : D) (t : Store D) : Store D :=
  ((Session.fold (statusStep env org result isoId messageHash) {}
    result.correlationProfiles).run t).final t

/-- Each iteration is about a transaction, and starts with the lifecycles of the beginning. -/
theorem Summarizes.step (h : Summarizes result report)
    {it : Session.Iteration (Store D) ServiceError CorrelationProfile Correlation}
    (hit : it ∈ reportSteps env org result isoId messageHash t) :
    ∃ tx ∈ report.transactionStatuses, it.item = profileFromStatus report tx ∧
      HasLifecycles t.lifecycles it.start := by
  obtain ⟨hmem, hsame⟩ := (statusStep_total h.truthy _).start {} rfl hit
  rw [h.profiles] at hmem
  obtain ⟨tx, htx, hitem⟩ := List.mem_map.mp hmem
  exact ⟨tx, htx, hitem.symm, hsame⟩

theorem Summarizes.exists_step (h : Summarizes result report) {tx : TransactionStatus}
    (htx : tx ∈ report.transactionStatuses) :
    ∃ it ∈ reportSteps env org result isoId messageHash t,
      it.item = profileFromStatus report tx := by
  have hmem : profileFromStatus report tx ∈ result.correlationProfiles := by
    rw [h.profiles]
    exact List.mem_map_of_mem htx
  exact (statusStep_total h.truthy _).exists_iteration {} rfl hmem

/-- A lifecycle that is found has the status of the first transaction in the end. -/
theorem Summarizes.final (h : Summarizes result report)
    {it : Session.Iteration (Store D) ServiceError CorrelationProfile Correlation}
    (hit : it ∈ reportSteps env org result isoId messageHash t) {key : ℕ}
    {row : PaymentLifecycleRow}
    (hrow : findLifecycle env org (profileFromDict it.item) it.start = some (key, row)) :
    ∃ first, report.transactionStatuses.head?.map (·.normalizedStatus) = some first ∧
      ((reportFinal env org result isoId messageHash t).lifecycles[key]?).map (·.currentStatus) =
        some first.value := by
  obtain ⟨tx, htx, -, -⟩ := h.step hit
  obtain ⟨first, txs, hfirst⟩ := List.exists_cons_of_ne_nil (List.ne_nil_of_mem htx)
  refine ⟨first.normalizedStatus, by rw [hfirst]; rfl, ?_⟩
  exact status_final (h.first first txs hfirst)
    (truthy_some.mp first.normalizedStatus.truthy_value) _ _ _ key (.inr ⟨it, hit, row, hrow⟩)

/-- A lifecycle that a transaction refers to is there when an iteration starts. -/
theorem row_at_start {st : Store D} (hsame : HasLifecycles t.lifecycles st) {p : CorrelationProfile}
    {key : ℕ} {row : PaymentLifecycleRow} (hrow : t.lifecycles[key]? = some row)
    (hp : lookup org p row) :
    ∃ row', st.lifecycles[key]? = some row' ∧ stripped row' = stripped row ∧
      lookup org p row' := by
  obtain ⟨row', hrow', hstrip⟩ := hsame.known hrow
  exact ⟨row', hrow', hstrip, by rwa [lookup_of_stripped hstrip]⟩

theorem agree_of_fits (h : Summarizes result report) (hfits : FirstStatusFits org report t) :
    StatusesAgree env org report (reportSteps env org result isoId messageHash t)
      (reportFinal env org result isoId messageHash t) := by
  intro it hit key row hfind
  obtain ⟨tx, htx, hitem, hsame⟩ := h.step hit
  obtain ⟨hrow, hlookup⟩ := findLifecycle_some hfind
  obtain ⟨row₀, hrow₀, hstrip⟩ := hsame.row hrow
  have hlookup₀ : lookup org (profileFromStatus report tx) row₀ := by
    rw [lookup_of_stripped hstrip]
    rwa [hitem] at hlookup
  obtain ⟨tx', htx', hhead, hown, halt⟩ := hfits tx htx key row₀ hrow₀ hlookup₀
  obtain ⟨first, hfirst, hfinal⟩ := h.final hit hfind
  rw [hhead] at hfirst
  cases hfirst
  refine ⟨tx', htx', hfinal, ?_⟩
  rcases halt with href | honly
  · refine ⟨it, hit, row, hfind, ?_, (ownReference_of_stripped hstrip).mp hown⟩
    rw [hitem, href]
  · -- the other transaction cannot find anything else
    obtain ⟨it', hit', hitem'⟩ := h.exists_step htx'
    obtain ⟨-, -, -, hsame'⟩ := h.step hit'
    have hlookup' : lookup org (profileFromStatus report tx') row₀ :=
      lookup_iff.mpr ⟨(lookup_iff.mp hlookup₀).1, .inr hown⟩
    obtain ⟨row₁, hrow₁, -, hlookup₁⟩ := row_at_start hsame' hrow₀ hlookup'
    obtain ⟨key', row', hfind'⟩ : ∃ key' row', findLifecycle env org
        (profileFromStatus report tx') it'.start = some (key', row') :=
      RowOrder.exists_first hrow₁ hlookup₁
    obtain ⟨hrow', hlook'⟩ := findLifecycle_some hfind'
    obtain ⟨row₂, hrow₂, hstrip₂⟩ := hsame'.row hrow'
    obtain rfl : key' = key :=
      honly key' row₂ hrow₂ (by rwa [lookup_of_stripped hstrip₂])
    obtain rfl : row₂ = row₀ := Option.some.inj (hrow₂.symm.trans hrow₀)
    refine ⟨it', hit', row', ?_, ?_, (ownReference_of_stripped hstrip₂).mp hown⟩
    · rw [hitem']
      exact hfind'
    · rw [hitem']

open Classical in
/-- The lifecycle `key` for the query `q`, and another one for other queries where there is
one. -/
noncomputable def adverseKey (t : Store D) (q : PaymentLifecycleRow → Bool) (key : ℕ)
    (q' : PaymentLifecycleRow → Bool) : ℕ :=
  if q' = q then key
  else if h : ∃ key', key' ≠ key ∧ ∃ row, t.lifecycles[key']? = some row ∧ q' row then h.choose
  else key

/-- The order that answers one query with the row at the key, and every other with another row. -/
noncomputable def adverseOrder (t : Store D) (q : PaymentLifecycleRow → Bool) (key : ℕ) :
    RowOrder (Store D) Store.lifecycles :=
  .preferring fun _ q' => adverseKey t q key q'

theorem adverseOrder_self {st : Store D} {q : PaymentLifecycleRow → Bool} {key : ℕ}
    {row : PaymentLifecycleRow} (hrow : st.lifecycles[key]? = some row) (hq : q row) :
    (adverseOrder t q key).first st q = some (key, row) := by
  have hkey : adverseKey t q key q = key := if_pos rfl
  have hfirst : (adverseOrder t q key).first st q = some (adverseKey t q key q, row) :=
    RowOrder.preferring_first (by rwa [hkey]) hq
  rwa [hkey] at hfirst

/-- Another query is only answered with `key` when there is no other answer. -/
theorem adverseOrder_other {st : Store D} {q : PaymentLifecycleRow → Bool} {key : ℕ}
    {row : PaymentLifecycleRow} {p : CorrelationProfile} (hsame : HasLifecycles t.lifecycles st)
    (hne : lookup org p ≠ q)
    (hfirst : (adverseOrder t q key).first st (lookup org p) = some (key, row))
    (key' : ℕ) (row' : PaymentLifecycleRow) (hrow' : t.lifecycles[key']? = some row')
    (hlookup : lookup org p row') : key' = key := by
  by_contra hkey
  have hex : ∃ key', key' ≠ key ∧ ∃ row, t.lifecycles[key']? = some row ∧ lookup org p row :=
    ⟨key', hkey, row', hrow', hlookup⟩
  have hadverse : adverseKey t q key (lookup org p) = hex.choose := by
    rw [adverseKey, if_neg hne, dif_pos hex]
  obtain ⟨hother, r, hr, hlr⟩ := hex.choose_spec
  obtain ⟨r', hr', -, hlr'⟩ := row_at_start hsame hr hlr
  rw [← hadverse] at hr' hother
  have hfirst' : (adverseOrder t q key).first st (lookup org p) = some (_, r') :=
    RowOrder.preferring_first hr' hlr'
  rw [hfirst] at hfirst'
  exact hother (congrArg Prod.fst (Option.some.inj hfirst')).symm

theorem fits_of_agree (env : Env D) (isoId : ℕ) (messageHash : D) (h : Summarizes result report)
    (hagree : ∀ order : RowOrder (Store D) Store.lifecycles,
      StatusesAgree { env with lifecycleOrder := order } org report
        (reportSteps { env with lifecycleOrder := order } org result isoId messageHash t)
        (reportFinal { env with lifecycleOrder := order } org result isoId messageHash t)) :
    FirstStatusFits org report t := by
  intro tx htx key row hrow hlookup
  -- the transaction finds the lifecycle, and all others find another one where they can
  specialize hagree (adverseOrder t (lookup org (profileFromStatus report tx)) key)
  set order := adverseOrder t (lookup org (profileFromStatus report tx)) key with horder
  set env' : Env D := { env with lifecycleOrder := order } with henv
  obtain ⟨it, hit, hitem⟩ : ∃ it ∈ reportSteps env' org result isoId messageHash t,
      it.item = profileFromStatus report tx := h.exists_step htx
  obtain ⟨-, -, -, hsame⟩ := h.step hit
  obtain ⟨row₁, hrow₁, -, hlookup₁⟩ := row_at_start hsame hrow hlookup
  have hfind : findLifecycle env' org (profileFromDict it.item) it.start = some (key, row₁) := by
    rw [hitem]
    exact adverseOrder_self hrow₁ hlookup₁
  obtain ⟨tx', htx', hfinal, it', hit', row', hfind', href, hown⟩ := hagree it hit key row₁ hfind
  obtain ⟨first, hfirst, hfinal'⟩ := h.final hit hfind
  obtain rfl : first = tx'.normalizedStatus :=
    PaymentStatus.value_injective (Option.some.inj (hfinal'.symm.trans hfinal))
  obtain ⟨tx'', -, hitem', hsame'⟩ := h.step hit'
  obtain ⟨row₀, hrow₀, hstrip⟩ := hsame'.row (findLifecycle_some hfind').1
  obtain rfl : row₀ = row := Option.some.inj (hrow₀.symm.trans hrow)
  refine ⟨tx', htx', hfirst, (ownReference_of_stripped hstrip).mpr hown, ?_⟩
  have hfind'' : (adverseOrder t (lookup org (profileFromStatus report tx)) key).first it'.start
      (lookup org it'.item) = some (key, row') := by
    rw [hitem'] at hfind' ⊢
    exact hfind'
  by_cases hq : lookup org it'.item = lookup org (profileFromStatus report tx)
  · left
    rw [← href]
    exact references_of_lookup hq
  · right
    intro key' row'' hrow'' hlookup''
    have horig : it'.item.originalMessageId = (profileFromStatus report tx').originalMessageId := by
      rw [hitem']
      rfl
    exact adverseOrder_other hsame' hq hfind'' key' row'' hrow''
      ((lookup_congr horig href row'').1.mpr hlookup'')

section

variable [DecidableEq D] {clock : Instant}

theorem transactionSteps_status (h : ¬ Known env org result s) (hr : result.accountReports = [])
    (hs : isStatusReport result) :
    transactionSteps env org result clock s =
      reportSteps env org result s.isoMessages.length (env.hash.message (messageKey result))
        (recorded env org result s) := by
  rw [transactionSteps_new h hr, transactionStep, if_pos hs]
  rfl

theorem final_status {pipeline : AnalysisPipeline} {payload : List UInt8}
    (hresult : pipeline.analyzeIso env.hash payload clock = .ok result)
    (h : ¬ Known env org result s) (hr : result.accountReports = [])
    (hs : isStatusReport result) :
    ((analyzeIsoMessage env org pipeline payload clock).run s).final s =
      reportFinal env org result s.isoMessages.length (env.hash.message (messageKey result))
        (recorded env org result s) := by
  rw [analyzeIsoMessage_ok hresult]
  exact Session.final_of_commits_cons (commits_status h hr hs) s

/-- A pacs.002 sets only statuses of transactions that found the lifecycle by their own
references, in whatever order the database returns its rows, exactly when it was ingested before
or the status of its first transaction fits. -/
theorem statusesAgree_iff (env : Env D) (org : String) (pipeline : AnalysisPipeline)
    (payload : List UInt8) (clock : Instant) (s : Store D) {root : Xml.Element}
    {registered : Iso.RegisteredMessage} {report : LifecycleStatusReport}
    {result : IsoAnalysisResult D}
    (hparse : pipeline.parseIso payload clock = .ok (root, registered, .status report))
    (hresult : pipeline.analyzeIso env.hash payload clock = .ok result) :
    (∀ order : RowOrder (Store D) Store.lifecycles,
      StatusesAgree { env with lifecycleOrder := order } org report
        (transactionSteps { env with lifecycleOrder := order } org result clock s)
        (((analyzeIsoMessage { env with lifecycleOrder := order } org pipeline payload
          clock).run s).final s)) ↔
      Known env org result s ∨ FirstStatusFits org report s := by
  have hsum := result_of_status hparse hresult
  by_cases hk : Known env org result s
  · refine iff_of_true (fun order it hit => ?_) (.inl hk)
    have hnone : transactionSteps { env with lifecycleOrder := order } org result clock s = [] :=
      transactionSteps_known hk
    rw [hnone] at hit
    cases hit
  · -- the loop starts with the lifecycles of the store
    have hsteps : ∀ order : RowOrder (Store D) Store.lifecycles,
        transactionSteps { env with lifecycleOrder := order } org result clock s =
          reportSteps { env with lifecycleOrder := order } org result s.isoMessages.length
            (env.hash.message (messageKey result)) (recorded env org result s) := fun order =>
      transactionSteps_status hk hsum.reports hsum.statusReport
    have hfinal : ∀ order : RowOrder (Store D) Store.lifecycles,
        ((analyzeIsoMessage { env with lifecycleOrder := order } org pipeline payload
          clock).run s).final s =
          reportFinal { env with lifecycleOrder := order } org result s.isoMessages.length
            (env.hash.message (messageKey result)) (recorded env org result s) := fun order =>
      final_status hresult hk hsum.reports hsum.statusReport
    have hfits : FirstStatusFits org report (recorded env org result s) ↔
        FirstStatusFits org report s := Iff.rfl
    rw [or_iff_right hk, ← hfits]
    constructor
    · intro h
      refine fits_of_agree env s.isoMessages.length (env.hash.message (messageKey result)) hsum
        fun order => ?_
      have horder := h order
      rwa [hsteps, hfinal] at horder
    · intro h order
      rw [hsteps, hfinal]
      exact agree_of_fits hsum h

end

/-! ## A report with two statuses -/

/-- An element of a status report. -/
def statusElement (name : String) (text : Option String) (nodes : List Xml.Element) :
    Xml.Element :=
  .node (.name (some Iso.pacs002Version.namespace_) name) [] text nodes none

/-- The block of one transaction. -/
def statusBlock (endToEndId status : String) : Xml.Element :=
  statusElement "TxInfAndSts" none [
    statusElement "OrgnlEndToEndId" (some endToEndId) [],
    statusElement "TxSts" (some status) []]

/-- The first transaction is accepted, the second one is rejected. -/
def mixedTree : Xml.Element :=
  statusElement "Document" none [statusElement "FIToFIPmtStsRpt" none [
    statusBlock "E-1" "ACCP", statusBlock "E-2" "RJCT"]]

/-- A pipeline whose XML library reads this tree. -/
def samplePipeline (tree : Xml.Element) : AnalysisPipeline where
  generator := {
    unicode := .ascii
    xmlLibrary := { fromstring := fun _ => .ok tree, validate := fun _ _ => true }
    provider := fun _ => {}
    rules := structuralRules }

/-- A pipeline for a report of two blocks. -/
def mixedPipeline : AnalysisPipeline := samplePipeline mixedTree

/-- The report as it is mapped. -/
def mixedReport : LifecycleStatusReport where
  messageFamily := "pacs"
  messageDefinition := "FIToFIPaymentStatusReportV16"
  messageVersion := "pacs.002.001.16"
  namespace_ := "urn:iso:std:iso:20022:tech:xsd:pacs.002.001.16"
  transactionStatuses := [
    { originalEndToEndId := some "E-1", rawIsoStatus := some "ACCP"
      normalizedStatus := .accepted },
    { originalEndToEndId := some "E-2", rawIsoStatus := some "RJCT"
      normalizedStatus := .rejected }]

/-- The registration of pacs.002. -/
def mixedRegistered : Iso.RegisteredMessage := ⟨"pacs", Iso.pacs002Version, .pacs002⟩

/-- One lifecycle for each of the two payments. -/
def mixedStore : Store Digest where
  lifecycles := [
    { organizationId := "org", endToEndId := some "E-1", createdAt := 0 },
    { organizationId := "org", endToEndId := some "E-2", createdAt := 0 }]

/-- The result of the report. -/
def mixedResult : IsoAnalysisResult Digest :=
  AnalysisPipeline.isoStatusResult Hashing.structural mixedRegistered true mixedReport

theorem mixedPipeline_parse :
    mixedPipeline.parseIso [60] 0 = .ok (mixedTree, mixedRegistered, .status mixedReport) := by
  rfl

theorem mixedPipeline_analyze :
    mixedPipeline.analyzeIso Hashing.structural [60] 0 = .ok mixedResult :=
  AnalysisPipeline.analyzeIso_of_parse mixedPipeline_parse

/-- Rows in the order of insertion. -/
def mixedEnv : Env Digest := .insertion .structural

/-- The steps of the report. -/
def mixedSteps : Steps Digest := transactionSteps mixedEnv "org" mixedResult 0 mixedStore

/-- The store that the report leaves. -/
def mixedFinal : Store Digest :=
  ((analyzeIsoMessage mixedEnv "org" mixedPipeline [60] 0).run mixedStore).final mixedStore

theorem statusesAgree_iff_sample :
    (∀ order : RowOrder (Store Digest) Store.lifecycles,
      StatusesAgree { mixedEnv with lifecycleOrder := order } "org" mixedReport
        (transactionSteps { mixedEnv with lifecycleOrder := order } "org" mixedResult 0 mixedStore)
        (((analyzeIsoMessage { mixedEnv with lifecycleOrder := order } "org" mixedPipeline [60]
          0).run mixedStore).final mixedStore)) ↔
      Known mixedEnv "org" mixedResult mixedStore ∨
        FirstStatusFits "org" mixedReport mixedStore :=
  statusesAgree_iff mixedEnv "org" mixedPipeline [60] 0 mixedStore mixedPipeline_parse
    mixedPipeline_analyze

/-- The lifecycle of the rejected payment becomes `ACCEPTED`. -/
theorem rejected_becomes_accepted :
    ¬ StatusesAgree mixedEnv "org" mixedReport mixedSteps mixedFinal := by
  have hfound : ∃ it ∈ mixedSteps,
      (findLifecycle mixedEnv "org" (profileFromDict it.item) it.start).map (·.1) = some 1 := by
    decide +kernel
  have haccepted : mixedFinal.lifecycles[1]?.map (·.currentStatus) = some "ACCEPTED" := by
    decide +kernel
  -- only the accepted transaction has this status, and it finds the other lifecycle
  have hother : ∀ tx ∈ mixedReport.transactionStatuses, tx.normalizedStatus.value = "ACCEPTED" →
      ∀ it ∈ mixedSteps, references it.item = references (profileFromStatus mixedReport tx) →
        (findLifecycle mixedEnv "org" (profileFromDict it.item) it.start).map (·.1) ≠ some 1 := by
    decide +kernel
  intro h
  obtain ⟨it, hit, hkey⟩ := hfound
  obtain ⟨⟨key, row⟩, hrow, rfl⟩ := Option.map_eq_some_iff.mp hkey
  obtain ⟨tx, htx, hstatus, it', hit', row', hrow', href, -⟩ := h it hit 1 row hrow
  rw [haccepted] at hstatus
  apply hother tx htx (Option.some.inj hstatus).symm it' hit' href
  rw [hrow']
  rfl

end

end PaymentOps.IsoAnalysis
