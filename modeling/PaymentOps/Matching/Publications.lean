import Mathlib.Data.List.Induction
import PaymentOps.Matching.PolicyVersions

/-!
# Publications at the same time

A publication counts the versions of its policy and later inserts the next one.  Other
publications of the policy may be committed in between, and nothing in the table keeps two
versions from having one number.

* `Schedule` is an interleaving of publications, `afterEvents` what it leaves behind;
* `afterEvents_alone`: a publication that is not interrupted is `publishPolicy`;
* `publishedInOrder_iff`: the versions are numbered one after the other, and the last one
  committed is the one in force, exactly when no publication is committed between the count and
  the insert of another one;
* `published_twice` is a schedule of two publications with one version number.
-/

namespace PaymentOps.Matching

variable {env : MatchingEnv} {org : String} {policyId : ℕ} {policies : ℕ → MatchingPolicy}

/-! ## Schedules -/

/-- What a publication does at the database: it counts, and later it inserts and commits. -/
inductive PublishEvent where
  | count (call : ℕ)
  | insert (call : ℕ)
  deriving DecidableEq

/-- Each publication counts once and inserts at most once, afterwards. -/
structure WellTimed (events : List PublishEvent) : Prop where
  nodup : events.Nodup
  counted : ∀ i, .insert i ∈ events → [.count i, .insert i].Sublist events

/-- An interleaving of publications. -/
structure Schedule where
  events : List PublishEvent
  wellTimed : WellTimed events

/-- No publication is committed between the count and the insert of another one. -/
def Undisturbed (events : List PublishEvent) : Prop :=
  ∀ i j, ¬ [.count i, .insert j, .insert i].Sublist events

/-- The publications that are committed, in the order of their commits. -/
def committed (events : List PublishEvent) : List ℕ :=
  events.filterMap fun
    | .insert i => some i
    | .count _ => none

/-- The store, and the version that each publication has computed so far. -/
structure Publishing where
  store : RequestStore
  computed : ℕ → Option ℕ := fun _ => none

/-- The commit of a publication. -/
def insertVersion (org : String) (policyId version : ℕ) (policy : MatchingPolicy)
    (s : RequestStore) : RequestStore :=
  { s with
    versions := s.versions ++ [versionRow org policyId version policy]
    policies := s.policies.modify policyId fun row => { row with status := "PUBLISHED" } }

/-- One step of the publications `policies` of a policy. -/
def publishEvent (org : String) (policyId : ℕ) (policies : ℕ → MatchingPolicy) (st : Publishing) :
    PublishEvent → Publishing
  | .count i =>
    match getPolicyRow org policyId st.store with
    | .error _ => st
    | .ok _ =>
      { st with
        computed := fun j =>
          if j = i then some (nextVersion org policyId st.store) else st.computed j }
  | .insert i =>
    match st.computed i with
    | none => st
    | some version => { st with store := insertVersion org policyId version (policies i) st.store }

/-- The store after these events. -/
def afterEvents (org : String) (policyId : ℕ) (policies : ℕ → MatchingPolicy)
    (events : List PublishEvent) (s : RequestStore) : Publishing :=
  events.foldl (publishEvent org policyId policies) ⟨s, fun _ => none⟩

/-- A publication that nothing interrupts. -/
theorem afterEvents_alone (org : String) (policyId : ℕ) (policies : ℕ → MatchingPolicy) (i : ℕ)
    (s : RequestStore) :
    (afterEvents org policyId policies [.count i, .insert i] s).store =
      ((publishPolicy org policyId (policies i)).run s).final s := by
  simp only [afterEvents, List.foldl_cons, List.foldl_nil]
  unfold publishPolicy
  rw [Session.read_bind]
  cases hrow : getPolicyRow org policyId s with
  | error e => simp [publishEvent, hrow, Exec.final]
  | ok row =>
    obtain ⟨hget, -⟩ : s.policies[policyId]? = some row ∧ row.organizationId = org := by
      unfold getPolicyRow at hrow
      split at hrow
      · rename_i r hr
        cases hrow
        simpa [Option.filter_eq_some_iff] using hr
      · cases hrow
    simp only [publishEvent, hrow, if_true, Session.ofExcept_ok_bind, Session.read_bind,
      Session.commit_bind, Session.pure_apply, insertVersion, Exec.final]
    have hmodify : s.policies.modify policyId (fun row => { row with status := "PUBLISHED" }) =
        s.policies.set policyId { row with status := "PUBLISHED" } := by
      rw [List.modify_eq_set_getElem?, hget]
      rfl
    simp [hmodify]

/-! ## Overlaps -/

theorem concat_sublist_concat {α : Type} {l l' : List α} {a b : α} :
    (l ++ [a]).Sublist (l' ++ [b]) ↔ (l ++ [a]).Sublist l' ∨ a = b ∧ l.Sublist l' := by
  have hreverse : (l ++ [a]).Sublist l' ↔ (a :: l.reverse).Sublist l'.reverse := by
    rw [← List.reverse_concat, List.reverse_sublist]
  rw [hreverse, ← List.reverse_sublist, List.reverse_concat, List.reverse_concat,
    List.cons_sublist_cons', List.reverse_sublist]

variable {events : List PublishEvent} {e : PublishEvent} {i : ℕ} {s : RequestStore}

theorem pair_sublist_concat {a b : PublishEvent} :
    [a, b].Sublist (events ++ [e]) ↔ [a, b].Sublist events ∨ b = e ∧ a ∈ events := by
  have h : ([a] ++ [b]).Sublist (events ++ [e]) ↔ _ := concat_sublist_concat
  simpa using h

theorem triple_sublist_concat {a b c : PublishEvent} :
    [a, b, c].Sublist (events ++ [e]) ↔
      [a, b, c].Sublist events ∨ c = e ∧ [a, b].Sublist events := by
  have h : ([a, b] ++ [c]).Sublist (events ++ [e]) ↔ _ := concat_sublist_concat
  simpa using h

theorem WellTimed.of_concat (h : WellTimed (events ++ [e])) : WellTimed events := by
  refine ⟨(List.nodup_append.mp h.nodup).1, fun i hi => ?_⟩
  have hne : PublishEvent.insert i ≠ e := by
    rintro rfl
    exact (List.nodup_append.mp h.nodup).2.2 _ hi _ List.mem_cons_self rfl
  rcases pair_sublist_concat.mp (h.counted i (List.mem_append_left _ hi)) with hsub | ⟨heq, -⟩
  · exact hsub
  · exact absurd heq hne

/-- The publication of the last insert has counted. -/
theorem WellTimed.count_mem (h : WellTimed (events ++ [.insert i])) : .count i ∈ events := by
  have hsub := h.counted i (List.mem_append_right _ List.mem_cons_self)
  rcases pair_sublist_concat.mp hsub with hsub | ⟨-, hmem⟩
  · exact hsub.subset List.mem_cons_self
  · exact hmem

theorem undisturbed_concat_count : Undisturbed (events ++ [.count i]) ↔ Undisturbed events := by
  refine forall₂_congr fun j k => not_congr ?_
  rw [triple_sublist_concat]
  simp

theorem undisturbed_concat_insert :
    Undisturbed (events ++ [.insert i]) ↔
      Undisturbed events ∧ ∀ j, ¬ [.count i, .insert j].Sublist events := by
  constructor
  · intro h
    refine ⟨fun j k hjk => h j k (triple_sublist_concat.mpr (.inl hjk)), fun j hj => ?_⟩
    exact h i j (triple_sublist_concat.mpr (.inr ⟨rfl, hj⟩))
  · rintro ⟨hev, hi⟩ j k hjk
    rcases triple_sublist_concat.mp hjk with hjk | ⟨heq, hjk⟩
    · exact hev j k hjk
    · cases heq
      exact hi k hjk

/-! ## What a schedule leaves behind -/

@[simp] theorem afterEvents_nil : afterEvents org policyId policies [] s = ⟨s, fun _ => none⟩ := rfl

theorem afterEvents_concat :
    afterEvents org policyId policies (events ++ [e]) s =
      publishEvent org policyId policies (afterEvents org policyId policies events s) e := by
  simp [afterEvents]

theorem getPolicyRow_insertVersion {row : MatchingPolicyRow} (version : ℕ)
    (policy : MatchingPolicy) (h : getPolicyRow org policyId s = .ok row) :
    ∃ row', getPolicyRow org policyId (insertVersion org policyId version policy s) = .ok row' := by
  unfold getPolicyRow at h ⊢
  cases hget : s.policies[policyId]? with
  | none => simp [hget] at h
  | some r =>
    by_cases horg : r.organizationId = org
    · simp [insertVersion, hget, horg, Option.filter]
    · simp [hget, horg, Option.filter] at h

/-- The policy stays where it is. -/
theorem getPolicyRow_afterEvents (h : ∃ row, getPolicyRow org policyId s = .ok row)
    (policies : ℕ → MatchingPolicy) (events : List PublishEvent) :
    ∃ row, getPolicyRow org policyId (afterEvents org policyId policies events s).store =
      .ok row := by
  induction events using List.reverseRecOn with
  | nil => exact h
  | append_singleton events e ih =>
    rw [afterEvents_concat]
    obtain ⟨row, hrow⟩ := ih
    cases e with
    | count i => simp [publishEvent, hrow]
    | insert i =>
      simp only [publishEvent]
      cases (afterEvents org policyId policies events s).computed i with
      | none => exact ⟨row, hrow⟩
      | some version => exact getPolicyRow_insertVersion version (policies i) hrow

theorem versionsOf_insertVersion (version : ℕ) (policy : MatchingPolicy) (s : RequestStore) :
    versionsOf org policyId (insertVersion org policyId version policy s) =
      versionsOf org policyId s ++ [versionRow org policyId version policy] := by
  rw [versionsOf_append_row (s := s) org org policyId policyId version policy rfl,
    if_pos ⟨rfl, rfl⟩]

section

variable (policies) (hrow : ∃ row, getPolicyRow org policyId s = .ok row)
include hrow

/-- The version that a publication has computed is the next one as long as no publication has
been committed since. -/
theorem computed_of_count (h : WellTimed events) (hi : .count i ∈ events) :
    ∃ v, (afterEvents org policyId policies events s).computed i = some v ∧ 1 ≤ v ∧
      v ≤ nextVersion org policyId (afterEvents org policyId policies events s).store ∧
      (v = nextVersion org policyId (afterEvents org policyId policies events s).store ↔
        ∀ j, ¬ [.count i, .insert j].Sublist events) := by
  induction events using List.reverseRecOn generalizing i with
  | nil => cases hi
  | append_singleton events e ih =>
    rw [afterEvents_concat]
    set st := afterEvents org policyId policies events s
    cases e with
    | count k =>
      obtain ⟨row, hst⟩ : ∃ row, getPolicyRow org policyId st.store = .ok row :=
        getPolicyRow_afterEvents hrow policies events
      simp only [publishEvent, hst, pair_sublist_concat, reduceCtorEq, false_and, or_false]
      by_cases hik : i = k
      · subst hik
        have hnew : .count i ∉ events := fun hmem =>
          (List.nodup_append.mp h.nodup).2.2 _ hmem _ List.mem_cons_self rfl
        refine ⟨_, if_pos rfl, by simp [nextVersion], le_refl _, iff_of_true rfl fun j hj => ?_⟩
        exact hnew (hj.subset List.mem_cons_self)
      · have hmem : .count i ∈ events := by simpa [hik] using hi
        simpa [hik] using ih h.of_concat hmem
    | insert k =>
      obtain ⟨vk, hvk, -⟩ := ih h.of_concat h.count_mem
      have hmem : .count i ∈ events := by simpa using hi
      obtain ⟨v, hv, hpos, hle, -⟩ := ih h.of_concat hmem
      simp only [publishEvent, hvk]
      rw [nextVersion_eq] at hle
      rw [nextVersion_eq, versionsOf_insertVersion, List.length_append, List.length_singleton]
      refine ⟨v, hv, hpos, by omega, iff_of_false (by omega) fun hnone => ?_⟩
      exact hnone k (pair_sublist_concat.mpr (.inr ⟨rfl, hmem⟩))

/-- The insert of a publication adds the version that it has computed. -/
theorem afterEvents_insert (h : WellTimed (events ++ [.insert i])) :
    ∃ v, (afterEvents org policyId policies (events ++ [.insert i]) s).store =
        insertVersion org policyId v (policies i)
          (afterEvents org policyId policies events s).store ∧ 1 ≤ v ∧
      v ≤ nextVersion org policyId (afterEvents org policyId policies events s).store ∧
      (v = nextVersion org policyId (afterEvents org policyId policies events s).store ↔
        ∀ j, ¬ [.count i, .insert j].Sublist events) := by
  obtain ⟨v, hv, hspec⟩ := computed_of_count policies hrow h.of_concat h.count_mem
  refine ⟨v, ?_, hspec⟩
  rw [afterEvents_concat]
  simp only [publishEvent, hv]

theorem afterEvents_count :
    (afterEvents org policyId policies (events ++ [.count i]) s).store =
      (afterEvents org policyId policies events s).store := by
  obtain ⟨row, hst⟩ := getPolicyRow_afterEvents hrow policies events
  rw [afterEvents_concat]
  simp only [publishEvent, hst]

/-- Publications that do not disturb one another number the versions one after the other. -/
theorem numbered_of_undisturbed (hn : Numbered s) (h : WellTimed events)
    (hun : Undisturbed events) :
    Numbered (afterEvents org policyId policies events s).store := by
  induction events using List.reverseRecOn with
  | nil => exact hn
  | append_singleton events e ih =>
    cases e with
    | count i =>
      rw [afterEvents_count policies hrow]
      exact ih h.of_concat (undisturbed_concat_count.mp hun)
    | insert i =>
      obtain ⟨hev, hi⟩ := undisturbed_concat_insert.mp hun
      obtain ⟨v, hstore, -, -, hv⟩ := afterEvents_insert policies hrow h
      rw [hstore]
      rw [hv.mpr hi]
      exact (ih h.of_concat hev).append rfl

/-- A publication that was overtaken repeats a number. -/
theorem undisturbed_of_nodup (hn : Numbered s) (h : WellTimed events)
    (hnodup : ((versionsOf org policyId (afterEvents org policyId policies events s).store).map
      (·.versionNumber)).Nodup) : Undisturbed events := by
  induction events using List.reverseRecOn with
  | nil => simp [Undisturbed]
  | append_singleton events e ih =>
    cases e with
    | count i =>
      rw [afterEvents_count policies hrow] at hnodup
      exact undisturbed_concat_count.mpr (ih h.of_concat hnodup)
    | insert i =>
      obtain ⟨v, hstore, hpos, hle, hv⟩ := afterEvents_insert policies hrow h
      rw [hstore, versionsOf_insertVersion, List.map_append] at hnodup
      have hev := ih h.of_concat (List.nodup_append.mp hnodup).1
      refine undisturbed_concat_insert.mpr ⟨hev, hv.mp ?_⟩
      by_contra hne
      rw [nextVersion_eq] at hle hne
      have hnum := numbered_of_undisturbed policies hrow hn h.of_concat hev
      set vs := versionsOf org policyId (afterEvents org policyId policies events s).store
      have hlt : v - 1 < vs.length := by omega
      -- the number is taken: the versions so far have all numbers up to their count
      have htaken : v ∈ vs.map (·.versionNumber) := by
        refine List.mem_map.mpr ⟨vs[v - 1], List.getElem_mem hlt, ?_⟩
        rw [hnum org policyId (v - 1) _ (List.getElem?_eq_getElem hlt)]
        omega
      exact (List.nodup_append.mp hnodup).2.2 v htaken v List.mem_cons_self rfl

/-- The last version inserted is that of the last publication committed. -/
theorem getLast?_of_committed (h : WellTimed events)
    (hi : (committed events).getLast? = some i) :
    ∃ v, (versionsOf org policyId (afterEvents org policyId policies events s).store).getLast? =
      some (versionRow org policyId v (policies i)) := by
  induction events using List.reverseRecOn with
  | nil => simp [committed] at hi
  | append_singleton events e ih =>
    cases e with
    | count k =>
      rw [afterEvents_count policies hrow]
      exact ih h.of_concat (by simpa [committed] using hi)
    | insert k =>
      obtain ⟨v, hstore, -⟩ := afterEvents_insert policies hrow h
      obtain rfl : k = i := by simpa [committed] using hi
      refine ⟨v, ?_⟩
      rw [hstore, versionsOf_insertVersion, List.getLast?_append]
      rfl

end

/-! ## The versions after a schedule -/

/-- Numbers that follow one another, in any order and none twice. -/
def Consecutive (l : List ℕ) : Prop := ∃ first, l.Perm (List.range' first l.length)

/-- The versions of the policy have distinct and consecutive numbers, and the version in force
has the content of the last publication committed. -/
def PublishedInOrder (env : MatchingEnv) (org : String) (policyId : ℕ)
    (policies : ℕ → MatchingPolicy) (sched : Schedule) (s : RequestStore) : Prop :=
  let t := (afterEvents org policyId policies sched.events s).store
  Consecutive ((versionsOf org policyId t).map (·.versionNumber)) ∧
    ∀ i, (committed sched.events).getLast? = some i →
      ∃ version, getPublishedPolicy env org (some policyId) t =
        versionPolicy org (versionRow org policyId version (policies i))

theorem Numbered.consecutive (h : Numbered s) (org : String) (policyId : ℕ) :
    Consecutive ((versionsOf org policyId s).map (·.versionNumber)) := by
  refine ⟨1, List.Perm.of_eq (List.ext_getElem (by simp) fun i hi _ => ?_)⟩
  have hlt : i < (versionsOf org policyId s).length := by simpa using hi
  rw [List.getElem_map, List.getElem_range', h org policyId i _ (List.getElem?_eq_getElem hlt)]
  omega

/-- The versions are numbered one after the other, and the last publication committed is in
force, exactly when no publication is committed between the count and the insert of another. -/
theorem publishedInOrder_iff (env : MatchingEnv) (ops : List Operation) (org : String)
    (policyId : ℕ) (policies : ℕ → MatchingPolicy) (sched : Schedule)
    (hrow : ∃ row, getPolicyRow org policyId (afterOperations env ops {}) = .ok row) :
    PublishedInOrder env org policyId policies sched (afterOperations env ops {}) ↔
      Undisturbed sched.events := by
  set s := afterOperations env ops {}
  have hn : Numbered s := numbered_afterOperations env ops numbered_empty
  constructor
  · rintro ⟨⟨first, hperm⟩, -⟩
    exact undisturbed_of_nodup policies hrow hn sched.wellTimed
      (hperm.nodup_iff.mpr (List.nodup_range' ..))
  · intro hun
    have hnum := numbered_of_undisturbed policies hrow hn sched.wellTimed hun
    refine ⟨hnum.consecutive org policyId, fun i hi => ?_⟩
    obtain ⟨v, hlast⟩ := getLast?_of_committed policies hrow sched.wellTimed hi
    refine ⟨v, ?_⟩
    rw [getPublishedPolicy_of_numbered env hnum, hlast]

/-- A policy without versions. -/
def draftStore : RequestStore := afterOperations .insertion [.createPolicy "org" "p"] {}

/-- The first publication has the content of the baseline, the others that of `strictPolicy`. -/
def revisions : ℕ → MatchingPolicy
  | 0 => defaultPolicy "org"
  | _ => strictPolicy

/-- Two publications, one after the other. -/
def successive : Schedule where
  events := [.count 0, .insert 0, .count 1, .insert 1]
  wellTimed := ⟨by decide, by simp⟩

/-- Two publications that count before either of them inserts. -/
def overlapping : Schedule where
  events := [.count 0, .count 1, .insert 0, .insert 1]
  wellTimed := ⟨by decide, by simp⟩

theorem publishedInOrder_successive :
    PublishedInOrder .insertion "org" 0 revisions successive draftStore := by
  refine (publishedInOrder_iff .insertion [.createPolicy "org" "p"] "org" 0 revisions successive
    ⟨_, rfl⟩).mpr fun i j h => ?_
  simp only [successive, List.cons_sublist_cons', List.sublist_nil, reduceCtorEq,
    PublishEvent.insert.injEq, PublishEvent.count.injEq, false_and, and_false, or_false,
    false_or] at h
  omega

/-- Both publications get version 1, and the one that was committed first stays in force. -/
theorem published_twice :
    ¬ PublishedInOrder .insertion "org" 0 revisions overlapping draftStore := by
  rintro ⟨⟨first, hperm⟩, -⟩
  have hnumbers : (versionsOf "org" 0 (afterEvents "org" 0 revisions overlapping.events
      draftStore).store).map (·.versionNumber) = [1, 1] := by
    decide +kernel
  rw [hnumbers] at hperm
  have hnodup : [1, 1].Nodup := hperm.nodup_iff.mpr (List.nodup_range' ..)
  exact absurd hnodup (by decide)

end PaymentOps.Matching
