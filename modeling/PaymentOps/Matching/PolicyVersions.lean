import PaymentOps.Lib.Fallible
import PaymentOps.Matching.Deliveries

/-!
# The policy version of a run

A run records the version of its policy when it is created.  The worker resolves the policy again
when it executes the run, and takes the latest version there is.

* `Numbered`: the versions of a policy are numbered from one, in every store that the service
  reaches;
* `executedAsRecorded_iff`: a run is executed under the version that it recorded exactly when its
  policy was not published in between, or was published for the first time with the content of
  the baseline;
* `executed_under_other_version` is a run with one publication in between.
-/

namespace PaymentOps.Matching

variable {env : MatchingEnv} {org : String} {policyId : ℕ} {s : RequestStore}

/-! ## Versions are numbered -/

/-- The versions of a policy, oldest first. -/
def versionsOf (org : String) (policyId : ℕ) (s : RequestStore) : List MatchingPolicyVersion :=
  s.versions.filter (ofPolicy org policyId)

/-- The versions of each policy are numbered from one. -/
def Numbered (s : RequestStore) : Prop :=
  ∀ org policyId i v, (versionsOf org policyId s)[i]? = some v → v.versionNumber = i + 1

/-- The latest version is the last one. -/
theorem head?_policyVersions (env : MatchingEnv) (h : Numbered s) (org : String) (policyId : ℕ) :
    (policyVersions env org policyId s).head? = (versionsOf org policyId s).getLast? := by
  let r : MatchingPolicyVersion → MatchingPolicyVersion → Prop :=
    fun a b => b.versionNumber ≤ a.versionNumber
  have htotal : Std.Total r := ⟨fun a b => Nat.le_total b.versionNumber a.versionNumber⟩
  have htrans : IsTrans MatchingPolicyVersion r := ⟨fun a b c hab hbc => Nat.le_trans hbc hab⟩
  have hsorted : (policyVersions env org policyId s).Pairwise r := List.pairwise_insertionSort r _
  have hperm : (policyVersions env org policyId s).Perm (versionsOf org policyId s) :=
    (List.perm_insertionSort r _).trans (RowOrder.select_perm _ _ _)
  cases hp : policyVersions env org policyId s with
  | nil =>
    rw [hp] at hperm
    rw [hperm.nil_eq.symm]
    rfl
  | cons v rest =>
    rw [hp] at hperm hsorted
    obtain ⟨i, hi⟩ := List.mem_iff_getElem?.mp (hperm.mem_iff.mp List.mem_cons_self)
    have hlt : i < (versionsOf org policyId s).length := (List.getElem?_eq_some_iff.mp hi).1
    obtain ⟨w, hw⟩ : ∃ w, (versionsOf org policyId s).getLast? = some w :=
      ⟨_, List.getLast?_eq_some_getLast (List.ne_nil_of_length_pos (by omega))⟩
    have hlast := hw
    rw [List.getLast?_eq_getElem?] at hlast
    -- the last version has the highest number
    have hle : w.versionNumber ≤ v.versionNumber := by
      rcases List.mem_cons.mp (hperm.mem_iff.mpr (List.mem_of_getElem? hlast)) with rfl | hmem
      · exact Nat.le_refl _
      · exact List.rel_of_pairwise_cons hsorted hmem
    have hv := h org policyId i v hi
    have hwn := h org policyId _ w hlast
    have heq : i = (versionsOf org policyId s).length - 1 := by omega
    rw [heq, hlast] at hi
    rw [List.head?_cons, hw, hi]

theorem ofPolicy_versionRow (org org' : String) (policyId policyId' version : ℕ)
    (policy : MatchingPolicy) :
    ofPolicy org' policyId' (versionRow org policyId version policy) =
      (policyId == policyId' && org == org') := rfl

/-- A publication fails, or adds a version under the next number. -/
theorem publishPolicy_cases (org : String) (policyId : ℕ) (policy : MatchingPolicy)
    (s : RequestStore) :
    if (s.policies[policyId]?).any (·.organizationId = org) then
      ∃ c o, (publishPolicy org policyId policy).run s = ⟨[c], o⟩ ∧
        c.versions = s.versions ++ [versionRow org policyId (nextVersion org policyId s) policy] ∧
        c.policies.map (·.organizationId) = s.policies.map (·.organizationId)
    else ((publishPolicy org policyId policy).run s).commits = [] := by
  unfold publishPolicy
  rw [Session.read_bind, getPolicyRow]
  cases hrow : s.policies[policyId]? with
  | none => simp
  | some row =>
    by_cases horg : row.organizationId = org
    · simp only [Option.any_some, horg, decide_true, if_true, Option.filter]
      simp only [Session.ofExcept_ok_bind, Session.read_bind, Session.commit_bind,
        Session.pure_apply]
      refine ⟨_, _, rfl, rfl, ?_⟩
      apply List.ext_getElem?
      intro i
      simp only [List.getElem?_map, List.getElem?_set]
      by_cases hi : policyId = i
      · subst hi
        have hlt := (List.getElem?_eq_some_iff.mp hrow).1
        rw [if_pos rfl, if_pos hlt, hrow]
        rfl
      · simp [hi]
    · simp [horg, Option.filter]

/-- A new version is a version of its policy and of no other. -/
theorem versionsOf_append_row (org org' : String) (policyId policyId' version : ℕ)
    (policy : MatchingPolicy) {c : RequestStore}
    (h : c.versions = s.versions ++ [versionRow org policyId version policy]) :
    versionsOf org' policyId' c = versionsOf org' policyId' s ++
      if policyId = policyId' ∧ org = org' then [versionRow org policyId version policy]
      else [] := by
  rw [versionsOf, h, List.filter_append]
  by_cases hkey : policyId = policyId' ∧ org = org'
  · rw [if_pos hkey, List.filter_cons_of_pos (by simpa [ofPolicy_versionRow] using hkey)]
    rfl
  · rw [if_neg hkey, List.filter_cons_of_neg (by simpa [ofPolicy_versionRow] using hkey)]
    rfl

theorem nextVersion_eq (org : String) (policyId : ℕ) (s : RequestStore) :
    nextVersion org policyId s = (versionsOf org policyId s).length + 1 := by
  rw [nextVersion, List.countP_eq_length_filter]
  rfl

/-- A publication adds the next version of its policy and leaves the other policies alone. -/
theorem versionsOf_append (org org' : String) (policyId policyId' : ℕ) (policy : MatchingPolicy)
    {c : RequestStore}
    (h : c.versions = s.versions ++ [versionRow org policyId (nextVersion org policyId s) policy]) :
    versionsOf org' policyId' c = versionsOf org' policyId' s ++
      if policyId = policyId' ∧ org = org' then
        [versionRow org policyId ((versionsOf org policyId s).length + 1) policy] else [] := by
  rw [versionsOf_append_row org org' policyId policyId' _ policy h, nextVersion_eq]

/-- The next version keeps the versions numbered. -/
theorem Numbered.append (h : Numbered s) {org : String} {policyId : ℕ} {policy : MatchingPolicy}
    {c : RequestStore}
    (hc : c.versions =
      s.versions ++ [versionRow org policyId (nextVersion org policyId s) policy]) :
    Numbered c := by
  intro org' policyId' i v hv
  rw [versionsOf_append org org' policyId policyId' policy hc, List.getElem?_append] at hv
  split_ifs at hv with hlt hkey
  · exact h org' policyId' i v hv
  · obtain ⟨rfl, rfl⟩ := hkey
    obtain ⟨hi, rfl⟩ : i - (versionsOf org policyId s).length = 0 ∧
        versionRow org policyId ((versionsOf org policyId s).length + 1) policy = v := by
      simpa [List.getElem?_singleton] using hv
    show (versionsOf org policyId s).length + 1 = i + 1
    omega
  · cases hv

theorem numbered_publish (h : Numbered s) (org : String) (policyId : ℕ) (policy : MatchingPolicy) :
    ∀ c ∈ ((publishPolicy org policyId policy).run s).commits, Numbered c := by
  have hcases := publishPolicy_cases org policyId policy s
  split_ifs at hcases with hexists
  · obtain ⟨c, o, hrun, hversions, -⟩ := hcases
    rw [hrun]
    intro d hd
    obtain rfl := List.mem_singleton.mp hd
    exact h.append hversions
  · rw [hcases]
    simp

theorem Numbered.of_versions {t : RequestStore} (h : Numbered s) (ht : t.versions = s.versions) :
    Numbered t := by
  intro org policyId i v hv
  rw [versionsOf, ht] at hv
  exact h org policyId i v hv

/-! ## What the service does -/

/-- The calls of the matching service and the deliveries of its tasks. -/
inductive Operation where
  | createPolicy (org name : String)
  | publishPolicy (org : String) (policyId : ℕ) (policy : MatchingPolicy)
  | createMatchRecord (org : String) (record : MatchRecord)
  | startReconciliation (org : String) (body : ReconciliationRequest)
  | runReconciliation (runId : ℕ)

/-- What an operation does, without its answer. -/
def Operation.session (env : MatchingEnv) : Operation → MatchingService Unit
  | .createPolicy org name => do let _ ← Matching.createPolicy org name; pure ()
  | .publishPolicy org policyId policy => do
    let _ ← Matching.publishPolicy org policyId policy; pure ()
  | .createMatchRecord org record => do let _ ← Matching.createMatchRecord org record; pure ()
  | .startReconciliation org body => do let _ ← Matching.startReconciliation env org body; pure ()
  | .runReconciliation runId => do let _ ← Matching.runReconciliation env runId; pure ()

/-- The store after a sequence of operations. -/
def afterOperations (env : MatchingEnv) : List Operation → RequestStore → RequestStore
  | [], s => s
  | op :: ops, s => afterOperations env ops (((op.session env).run s).final s)

theorem createMatchRecord_leaves {γ : Type} {g : RequestStore → γ}
    (h : ∀ s rows, g { s with records := rows } = g s) (org : String) (record : MatchRecord) :
    Session.Leaves g (createMatchRecord org record) := by
  refine .transact fun s a s' hs => ?_
  obtain ⟨row, -, hs⟩ := Except.bind_eq_ok.mp hs
  cases Except.pure_eq_ok.mp hs
  exact h s _

theorem startReconciliation_leaves {γ : Type} {g : RequestStore → γ}
    (hrecords : ∀ s rows, g { s with records := rows } = g s)
    (hruns : ∀ s runs datasets,
      g { s with runs := runs, datasets := datasets } = g s)
    (env : MatchingEnv) (org : String) (body : ReconciliationRequest) :
    Session.Leaves g (startReconciliation env org body) := by
  refine .ite ?_ (.bind ?_ fun _ => ?_)
  · intro s c hc
    simp at hc
  · exact .each fun r _ => .bind (createMatchRecord_leaves hrecords org r) fun _ => .pure _
  · refine .transact fun s a s' hs => ?_
    cases hs
    exact hruns s _ _

theorem runReconciliation_leaves {γ : Type} {g : RequestStore → γ}
    (h : ∀ c s, g { s with toMatchingStore := c } = g s) (env : MatchingEnv) (runId : ℕ) :
    Session.Leaves g (runReconciliation env runId) := by
  refine .bind (.read _) fun run => ?_
  cases run with
  | none =>
    intro s c hc
    simp at hc
  | some run => exact .bind (.read _) fun sources => .bind (.read _) fun cfg => .zoom _ h

theorem numbered_operation (env : MatchingEnv) (op : Operation) (h : Numbered s) :
    Numbered (((op.session env).run s).final s) := by
  have hleaves : ∀ m : MatchingService Unit, Session.Leaves RequestStore.versions m →
      Numbered ((m.run s).final s) := fun m hm => h.of_versions (hm.final s)
  cases op with
  | createPolicy org name =>
    refine hleaves _ (.bind (.transact fun s a s' hs => ?_) fun _ => .pure _)
    cases hs
    rfl
  | publishPolicy org policyId policy =>
    rw [Operation.session, Session.final_congr_commits (Session.bind_pure_commits _ _ _)]
    rcases Session.final_mem ((publishPolicy org policyId policy).run s) s with hfin | hfin
    · rwa [hfin]
    · exact numbered_publish h org policyId policy _ hfin
  | createMatchRecord org record =>
    exact hleaves _ (.bind (createMatchRecord_leaves (fun _ _ => rfl) org record) fun _ => .pure _)
  | startReconciliation org body =>
    exact hleaves _ (.bind (startReconciliation_leaves (fun _ _ => rfl) (fun _ _ _ => rfl) env org
      body) fun _ => .pure _)
  | runReconciliation runId =>
    exact hleaves _ (.bind (runReconciliation_leaves (fun _ _ => rfl) env runId) fun _ => .pure _)

/-- Every store that the service reaches numbers its versions. -/
theorem numbered_afterOperations (env : MatchingEnv) (ops : List Operation) (h : Numbered s) :
    Numbered (afterOperations env ops s) := by
  induction ops generalizing s with
  | nil => exact h
  | cons op ops ih => exact ih (numbered_operation env op h)

theorem numbered_empty : Numbered {} := by
  intro org policyId i v hv
  simp [versionsOf] at hv

/-! ## Publications while a run is queued -/

/-- A call of `publish_policy`. -/
structure Publication where
  org : String
  policyId : ℕ
  policy : MatchingPolicy

/-- The store after these publications. -/
def afterPublications : List Publication → RequestStore → RequestStore
  | [], s => s
  | p :: pubs, s =>
    afterPublications pubs (((publishPolicy p.org p.policyId p.policy).run s).final s)

/-- The publications of a policy that succeed: those of the organization that owns it. -/
def publishedFor (org : String) (policyId : ℕ) (pubs : List Publication) (s : RequestStore) :
    List MatchingPolicy :=
  if (s.policies[policyId]?).any (·.organizationId = org) then
    (pubs.filter fun p => p.policyId = policyId ∧ p.org = org).map (·.policy)
  else []

/-- The version rows of successive publications. -/
def numberedRows (org : String) (policyId : ℕ) :
    ℕ → List MatchingPolicy → List MatchingPolicyVersion
  | _, [] => []
  | n, p :: ps => versionRow org policyId (n + 1) p :: numberedRows org policyId (n + 1) ps

theorem getLast?_numberedRows (org : String) (policyId n : ℕ) (p : MatchingPolicy)
    (ps : List MatchingPolicy) :
    ∃ policy, (numberedRows org policyId n (p :: ps)).getLast? =
      some (versionRow org policyId (n + (p :: ps).length) policy) ∧ (ps = [] → policy = p) := by
  induction ps generalizing n p with
  | nil => exact ⟨p, rfl, fun _ => rfl⟩
  | cons q ps ih =>
    obtain ⟨policy, hlast, -⟩ := ih (n + 1) q
    refine ⟨policy, ?_, by simp⟩
    rw [numberedRows, numberedRows, List.getLast?_cons_cons, ← numberedRows, hlast]
    have hlen : n + 1 + (q :: ps).length = n + (p :: q :: ps).length := by
      simp only [List.length_cons]
      omega
    rw [hlen]

theorem versionsOf_afterPublications (org : String) (policyId : ℕ) (pubs : List Publication)
    (s : RequestStore) :
    versionsOf org policyId (afterPublications pubs s) = versionsOf org policyId s ++
      numberedRows org policyId (versionsOf org policyId s).length
        (publishedFor org policyId pubs s) := by
  induction pubs generalizing s with
  | nil => simp [afterPublications, publishedFor, numberedRows]
  | cons p pubs ih =>
    rw [afterPublications, ih]
    have hcases := publishPolicy_cases p.org p.policyId p.policy s
    split_ifs at hcases with hexists
    · obtain ⟨c, o, hrun, hversions, horgs⟩ := hcases
      have howner : (c.policies[policyId]?).any (·.organizationId = org) =
          (s.policies[policyId]?).any (·.organizationId = org) := by
        have hmap := congrArg (·[policyId]?) horgs
        simp only [List.getElem?_map] at hmap
        have hany : ∀ o : Option MatchingPolicyRow, o.any (·.organizationId = org) =
            (o.map (·.organizationId)).any (· = org) := by
          intro o
          cases o <;> rfl
        rw [hany, hany, hmap]
      rw [hrun]
      show versionsOf org policyId c ++ numberedRows org policyId (versionsOf org policyId c).length
        (publishedFor org policyId pubs c) = _
      have hpub : publishedFor org policyId pubs c = publishedFor org policyId pubs s := by
        rw [publishedFor, publishedFor, howner]
      rw [hpub, versionsOf_append p.org org p.policyId policyId p.policy hversions]
      by_cases hkey : p.policyId = policyId ∧ p.org = org
      · obtain ⟨rfl, rfl⟩ := hkey
        have hcons : publishedFor p.org p.policyId (p :: pubs) s =
            p.policy :: publishedFor p.org p.policyId pubs s := by
          rw [publishedFor, publishedFor, if_pos hexists, if_pos hexists]
          simp
        rw [hcons, if_pos ⟨rfl, rfl⟩, List.append_assoc, numberedRows, List.length_append,
          List.length_singleton]
        rfl
      · have hcons :
            publishedFor org policyId (p :: pubs) s = publishedFor org policyId pubs s := by
          rw [publishedFor, publishedFor, List.filter_cons_of_neg (by simpa using hkey)]
        rw [hcons, if_neg hkey, List.append_nil]
    · have hsame : ((publishPolicy p.org p.policyId p.policy).run s).final s = s := by
        rw [Exec.final, hcases]
        rfl
      have hcons : publishedFor org policyId (p :: pubs) s = publishedFor org policyId pubs s := by
        rw [publishedFor, publishedFor]
        split_ifs with howner
        · rw [List.filter_cons_of_neg]
          simp only [decide_eq_true_eq, not_and]
          rintro rfl rfl
          exact hexists howner
        · rfl
      rw [hsame, hcons]

theorem numbered_afterPublications (pubs : List Publication) (h : Numbered s) :
    Numbered (afterPublications pubs s) := by
  induction pubs generalizing s with
  | nil => exact h
  | cons p pubs ih =>
    refine ih ?_
    rcases Session.final_mem ((publishPolicy p.org p.policyId p.policy).run s) s with hfin | hfin
    · rwa [hfin]
    · exact numbered_publish h p.org p.policyId p.policy _ hfin

/-- The latest version, or the baseline. -/
theorem getPublishedPolicy_of_numbered (env : MatchingEnv) (h : Numbered s) (org : String)
    (policyId : ℕ) :
    getPublishedPolicy env org (some policyId) s =
      match (versionsOf org policyId s).getLast? with
      | none => defaultPolicy org
      | some v => versionPolicy org v := by
  unfold getPublishedPolicy
  dsimp only
  rewrite [head?_policyVersions env h]
  rfl

/-! ## The run -/

/-- Every row that a run adds carries the version of the policy of the run. -/
theorem policyVersion_of_pending (cfg : RunConfig) (sources : List MatchRecord) :
    ∀ row ∈ (cfg.runLoop sources).pending, row.policyVersion = toString cfg.policy.version := by
  refine (RunConfig.loop_induction
    (P := fun st => ∀ row ∈ st.pending, row.policyVersion = toString cfg.policy.version)
    (by simp [RunConfig.initialState]) fun v _ hv row hrow => ?_).2
  rw [RunConfig.after] at hrow
  rcases hd : cfg.decided v.index v.source with _ | best
  · obtain ⟨b, -, hb⟩ := RunConfig.iteration_of_undecided hd v.before
    rw [hb] at hrow
    exact hv row hrow
  · have hbest : best.2.policyVersion = toString cfg.policy.version := by
      obtain ⟨-, -, rest, hr, -⟩ := RunConfig.decided_eq_some hd
      have hmem : best ∈ cfg.decisionsFor v.source := by
        rw [← List.mem_insertionSort (r := fun a b => b.2.matchScore ≤ a.2.matchScore)]
        rw [RunConfig.ranked] at hr
        rw [hr]
        exact List.mem_cons_self
      obtain ⟨cand, -, rfl⟩ := List.mem_map.mp hmem
      rfl
    rw [RunConfig.iteration_of_decided hd] at hrow
    split_ifs at hrow
    · exact hv row hrow
    · rcases List.mem_append.mp hrow with hrow | hrow
      · exact hv row hrow
      · obtain rfl := List.mem_singleton.mp hrow
        exact hbest

section

variable (env : MatchingEnv) (org : String) (datasets : RunDatasets) (policyId : Option ℕ)
  (pubs : List Publication) (s : RequestStore)

/-- The store in which the worker finds the run: policies were published since its creation. -/
def queuedRun : RequestStore :=
  afterPublications pubs (((createReconciliationRun env org datasets policyId).run s).final s)

/-- The worker evaluates the run under the policy that its creation resolved, and every row that
it adds carries the version that the run recorded. -/
def ExecutedAsRecorded : Prop :=
  let t := queuedRun env org datasets policyId pubs s
  ∃ run, t.runs[s.runs.length]? = some run ∧
    (runConfig env s.runs.length run t).policy = getPublishedPolicy env org policyId s ∧
    ∀ row ∈ (((runReconciliation env s.runs.length).run t).final t).candidates.drop
      t.candidates.length, row.policyVersion = run.policyVersion

/-- The policy was not published in between, or for the first time and with the content of the
baseline. -/
def VersionStays : Prop :=
  ∀ id ∈ policyId, publishedFor org id pubs s = [] ∨
    versionsOf org id s = [] ∧ ∃ policy, publishedFor org id pubs s = [policy] ∧
      versionPolicy org (versionRow org id 1 policy) = defaultPolicy org

end

theorem afterPublications_runs (pubs : List Publication) (s : RequestStore) :
    (afterPublications pubs s).toMatchingStore = s.toMatchingStore := by
  induction pubs generalizing s with
  | nil => rfl
  | cons p pubs ih =>
    have hleaves : Session.Leaves RequestStore.toMatchingStore
        (publishPolicy p.org p.policyId p.policy) := by
      refine .bind (.read _) fun row => .bind ?_ fun row => .bind (.read _) fun version =>
        .bind (.commit fun _ => rfl) fun _ => .pure _
      intro s c hc
      simp at hc
    rw [afterPublications, ih, hleaves.final]

/-- The policy that the worker resolves, against the one that the creation of the run resolved. -/
theorem resolved_eq_iff (env : MatchingEnv) (h : Numbered s) (org : String) (datasets : RunDatasets)
    (policyId : Option ℕ) (pubs : List Publication) :
    getPublishedPolicy env org policyId (queuedRun env org datasets policyId pubs s) =
        getPublishedPolicy env org policyId s ↔
      VersionStays org policyId pubs s := by
  cases policyId with
  | none => exact iff_of_true rfl (by simp [VersionStays])
  | some id =>
    set created := ((createReconciliationRun env org datasets (some id)).run s).final s
    have hcreated : Numbered created := h.of_versions rfl
    have hversions : versionsOf org id created = versionsOf org id s := rfl
    have hpub : publishedFor org id pubs created = publishedFor org id pubs s := rfl
    have hqueued := versionsOf_afterPublications org id pubs created
    rw [hversions, hpub] at hqueued
    show getPublishedPolicy env org (some id) (afterPublications pubs created) = _ ↔ _
    rw [getPublishedPolicy_of_numbered env (numbered_afterPublications pubs hcreated),
      getPublishedPolicy_of_numbered env h, hqueued]
    have hiff : VersionStays org (some id) pubs s ↔ (publishedFor org id pubs s = [] ∨
        versionsOf org id s = [] ∧ ∃ policy, publishedFor org id pubs s = [policy] ∧
          versionPolicy org (versionRow org id 1 policy) = defaultPolicy org) := by
      simp [VersionStays]
    rw [hiff]
    cases hps : publishedFor org id pubs s with
    | nil =>
      rw [numberedRows, List.append_nil]
      exact iff_of_true rfl (.inl rfl)
    | cons p ps =>
      obtain ⟨policy, hlast, hsingle⟩ :=
        getLast?_numberedRows org id (versionsOf org id s).length p ps
      rw [List.getLast?_append, hlast]
      cases hF : (versionsOf org id s).getLast? with
      | none =>
        have hnil : versionsOf org id s = [] := List.getLast?_eq_none_iff.mp hF
        simp only [hnil, List.length_nil, Nat.zero_add, Option.some_or]
        constructor
        · intro heq
          -- the baseline has version 1
          have hversion : (p :: ps).length = 1 := congrArg MatchingPolicy.version heq
          obtain rfl : ps = [] := by simpa using hversion
          refine .inr ⟨trivial, p, rfl, ?_⟩
          rw [← hsingle rfl]
          exact heq
        · rintro (hempty | ⟨-, q, hq, hdefault⟩)
          · cases hempty
          · obtain ⟨rfl, rfl⟩ : p = q ∧ ps = [] := by simpa using hq
            rw [hsingle rfl]
            exact hdefault
      | some v =>
        have hne : versionsOf org id s ≠ [] := by
          intro hnil
          rw [hnil] at hF
          cases hF
        refine iff_of_false ?_ ?_
        · intro heq
          have hversion : (versionsOf org id s).length + (p :: ps).length = v.versionNumber :=
            congrArg MatchingPolicy.version heq
          have hlength := List.length_pos_of_ne_nil hne
          rw [List.getLast?_eq_getElem?] at hF
          have hv := h org id _ v hF
          rw [List.length_cons] at hversion
          omega
        · rintro (hempty | ⟨hnil, -⟩)
          · cases hempty
          · exact hne hnil

/-- A run is executed under the version that it recorded exactly when its policy was not published
between its creation and its execution, or was published for the first time, once, with the
content of the baseline. -/
theorem executedAsRecorded_iff (env : MatchingEnv) (ops : List Operation) (org : String)
    (datasets : RunDatasets) (policyId : Option ℕ) (pubs : List Publication) :
    ExecutedAsRecorded env org datasets policyId pubs (afterOperations env ops {}) ↔
      VersionStays org policyId pubs (afterOperations env ops {}) := by
  set s := afterOperations env ops {}
  have h : Numbered s := numbered_afterOperations env ops numbered_empty
  let row : MatchRun := {
    organizationId := org
    policyId := policyId
    policyVersion := toString (getPublishedPolicy env org policyId s).version }
  have hruns : (queuedRun env org datasets policyId pubs s).runs[s.runs.length]? = some row := by
    have hsame := congrArg MatchingStore.runs (afterPublications_runs pubs
      (((createReconciliationRun env org datasets policyId).run s).final s))
    show (afterPublications pubs _).toMatchingStore.runs[_]? = _
    rw [hsame]
    show (s.runs ++ [row])[s.runs.length]? = some row
    simp
  rw [← resolved_eq_iff env h org datasets policyId pubs]
  constructor
  · rintro ⟨run, hrun, hpolicy, -⟩
    obtain rfl : run = row := Option.some.inj (hrun.symm.trans hruns)
    exact hpolicy
  · intro hpolicy
    refine ⟨row, hruns, hpolicy, fun r hr => ?_⟩
    rw [(runReconciliation_run hruns).2] at hr
    simp only [delivered, List.drop_left] at hr
    rw [policyVersion_of_pending _ _ r hr]
    exact congrArg (fun p => toString p.version) hpolicy

/-- No pair reaches the threshold for a match. -/
def strictPolicy : MatchingPolicy := { defaultPolicy "org" with thresholds := [("matched", 101)] }

/-- A store with a published policy and two records. -/
def publishedStore : RequestStore :=
  afterOperations .insertion [.createPolicy "org" "p",
    .publishPolicy "org" 0 (defaultPolicy "org"),
    .createMatchRecord "org" (RunConfig.recordOf "s" "A"),
    .createMatchRecord "org" (RunConfig.recordOf "c" "A")] {}

/-- The policy is published while the run waits: the run says version 1 and its row version 2. -/
theorem executed_under_other_version :
    ¬ ExecutedAsRecorded .insertion "org" { sourceIds := ["s"], candidateIds := ["c"] } (some 0)
      [⟨"org", 0, strictPolicy⟩] publishedStore := by
  rintro ⟨run, hrun, -, hrows⟩
  set t := queuedRun .insertion "org" { sourceIds := ["s"], candidateIds := ["c"] } (some 0)
    [⟨"org", 0, strictPolicy⟩] publishedStore with ht
  have hrecorded : (t.runs[publishedStore.runs.length]?).map (·.policyVersion) = some "1" := by
    rw [ht]
    decide +kernel
  have hrow : ∃ row ∈ (((runReconciliation .insertion publishedStore.runs.length).run t).final
      t).candidates.drop t.candidates.length, row.policyVersion = "2" := by
    rw [ht]
    decide +kernel
  obtain ⟨row, hmem, hversion⟩ := hrow
  rw [hrun] at hrecorded
  have hrun' : run.policyVersion = "1" := Option.some.inj hrecorded
  have hsame := hrows row hmem
  rw [hversion, hrun'] at hsame
  exact absurd hsame (by decide)

end PaymentOps.Matching
