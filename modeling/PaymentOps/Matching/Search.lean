import PaymentOps.Lib.Fallible
import PaymentOps.Matching.Iteration
import PaymentOps.Matching.Requests

/-!
# The search for candidates

`searchCandidates` stores the source, retrieves rows by a predicate of the database with a limit,
and only then narrows and scores them in memory.

* `sqlMatches` is the predicate, in which a comparison with an absent value is not true;
* `searchCandidates_iff`: the search finds every candidate with a score, in whatever order the
  rows come, exactly when the predicate accepts all of them and the limit cuts no row off;
* `search_misses_candidate` is a candidate without a currency.
-/

namespace PaymentOps.Matching

/-- What a search raises. -/
inductive SearchError where
  | request (e : RequestError)
  | multipleResults
  | overflow
  deriving DecidableEq

/-- A session that searches for candidates. -/
abbrev Search (α : Type) := Session RequestStore SearchError α

/-- A ranked candidate from candidate retrieval. -/
structure CandidateMatch where
  candidateId : String
  matchScore : ℚ
  classification : MatchClassification
  topEvidence : List FieldMatchResult
  criticalConflicts : List CriticalConflict
  deriving DecidableEq

/-- `date.max.toordinal()` -/
def maxOrdinal : ℕ := 3652059

/-- `d - timedelta(days)` and `d + timedelta(days)` as ordinals, unless they leave the calendar. -/
def dateRange (d : Date) (days : ℕ) : Except SearchError (ℕ × ℕ) :=
  if days < d.ordinal ∧ d.ordinal + days ≤ maxOrdinal then
    .ok (d.ordinal - days, d.ordinal + days)
  else .error .overflow

/-- The days around each date field, unless they leave the calendar. -/
def dateRanges (crit : NarrowingCriteria) : Except SearchError (List (DateField × ℕ × ℕ)) :=
  crit.dateFields.mapM fun f => (dateRange f.2 crit.dateWindowDays).map (f.1, ·)

/-- The conditions of `candidate_records` on a row. -/
def sqlMatches (org : String) (crit : NarrowingCriteria) (ranges : List (DateField × ℕ × ℕ))
    (excludeId : Option String) (candidateTypes : List RecordType) (row : MatchRecord) : Bool :=
  row.organizationId == org &&
  (candidateTypes.isEmpty || candidateTypes.contains row.recordType) &&
  (!Text.truthy excludeId || some row.recordId != excludeId) &&
  (!Text.truthy crit.currency || row.currency == crit.currency) &&
  crit.amountRange.all (fun (lo, hi) => row.amount.any fun a => lo ≤ a.toRat && a.toRat ≤ hi) &&
  (ranges.isEmpty || ranges.any fun (field, lo, hi) =>
    (field.of row).any fun d => lo ≤ d.ordinal && d.ordinal ≤ hi)

/-- `_top_evidence` -/
def topEvidence (decision : MatchDecision) (limit : ℕ := 6) : List FieldMatchResult :=
  ((decision.fieldResults.filter fun fr =>
      (fr.status = .exact ∧ 85 ≤ fr.similarity) ∨ fr.status = .mismatch).insertionSort
    fun a b => b.similarity < a.similarity ∨ b.similarity = a.similarity ∧ b.weight ≤ a.weight).take
      limit

/-- The entry of a candidate in the result, unless its score is zero. -/
def candidateMatch (unicode : Unicode) (fuzz : Fuzz) (source : MatchRecord)
    (policy : MatchingPolicy) (cand : MatchRecord) : Option CandidateMatch :=
  let decision := evaluatePair unicode fuzz source cand policy engineVersion
  if decision.matchScore ≤ 0 then none
  else some {
    candidateId := cand.recordId
    matchScore := decision.matchScore
    classification := decision.classification
    topEvidence := topEvidence decision
    criticalConflicts := decision.criticalConflicts }

section

variable (env : MatchingEnv)

/-- Retrieve candidate records via narrowing criteria, in the order of the database. -/
def candidateRecords (org : String) (source : MatchRecord) (policy : MatchingPolicy)
    (maxCandidates : ℕ) (excludeId : Option String := none)
    (candidateTypes : List RecordType := []) : Search (List MatchRecord) := do
  let crit := narrowingCriteria env.unicode (rowToDomain source) policy maxCandidates
  let ranges ← Session.ofExcept (dateRanges crit)
  Session.read fun s =>
    ((env.recordOrder.select s (sqlMatches org crit ranges excludeId candidateTypes)).map
      (·.2)).take maxCandidates

/-- The query of `_ensure_record`. -/
def isRecord (org recordId : String) (r : MatchRecord) : Bool :=
  r.recordId == recordId && r.organizationId == org

/-- Store the record of the search, unless it is there. -/
def ensureRecord (org : String) (record : MatchRecord) : Search MatchRecord := do
  match ← Session.read fun s => (env.recordOrder.select s (isRecord org record.recordId)).map (·.2)
  with
  | [] => Session.zoom id (fun t _ => t) .request (createMatchRecord org record)
  | [row] => pure row
  | _ => Session.raise .multipleResults

/-- `search_candidates`: the query with its limit, then the narrowing. -/
def searchCandidates (org : String) (source : MatchRecord) (policy : MatchingPolicy)
    (maxCandidates : ℕ) : Search (List CandidateMatch) := do
  let sourceRow ← ensureRecord env org source
  let rows ← candidateRecords env org sourceRow policy maxCandidates (some source.recordId)
  let narrowed := filterCandidates env.unicode source (rows.map rowToDomain) policy maxCandidates
  let ranked := narrowed.filterMap (candidateMatch env.unicode env.fuzz source policy)
  pure ((ranked.insertionSort fun a b => b.matchScore ≤ a.matchScore).take maxCandidates)

end

/-! ## What the search is for -/

section

variable (unicode : Unicode) (fuzz : Fuzz) (org : String) (source : MatchRecord)
  (policy : MatchingPolicy) (maxCandidates : ℕ)

/-- The other records of the organization that narrowing lets through. -/
def narrowedRecords (s : RequestStore) : List MatchRecord :=
  ((s.records.filter (·.organizationId = org)).map rowToDomain).filter fun cand =>
    cand.recordId ≠ source.recordId &&
      candidateMatches unicode cand (narrowingCriteria unicode source policy maxCandidates)

/-- The entries that the search is to return. -/
def scoredCandidates (s : RequestStore) : List CandidateMatch :=
  (narrowedRecords unicode org source policy maxCandidates s).filterMap
    (candidateMatch unicode fuzz source policy)

/-- The source is not stored, or once and as it is. -/
def StoredUnchanged (s : RequestStore) : Prop :=
  s.records.filter (isRecord org source.recordId) = [] ∨
    ∃ row, domainToRow org source = .ok row ∧
      s.records.filter (isRecord org source.recordId) = [row]

end

/-- The search returns every other record that passes narrowing and has a score. -/
def FindsAll (env : MatchingEnv) (org : String) (source : MatchRecord) (policy : MatchingPolicy)
    (maxCandidates : ℕ) (s : RequestStore) : Prop :=
  ∃ results, ((searchCandidates env org source policy maxCandidates).run s).outcome = .ok results ∧
    results.Perm (scoredCandidates env.unicode env.fuzz org source policy maxCandidates s)

/-- The entry of a row in the result that the search is to return. -/
def entry (unicode : Unicode) (fuzz : Fuzz) (org : String) (source : MatchRecord)
    (policy : MatchingPolicy) (maxCandidates : ℕ) (row : MatchRecord) : Option CandidateMatch :=
  if row.organizationId = org ∧ row.recordId ≠ source.recordId ∧
      candidateMatches unicode (rowToDomain row)
        (narrowingCriteria unicode source policy maxCandidates) then
    candidateMatch unicode fuzz source policy (rowToDomain row)
  else none

/-- The records among which the rows are looked up: the source is one of them. -/
def searchedRecords (org : String) (source row : MatchRecord) (s : RequestStore) :
    List MatchRecord :=
  if s.records.filter (isRecord org source.recordId) = [] then s.records ++ [row] else s.records

variable {env : MatchingEnv} {unicode : Unicode} {fuzz : Fuzz} {org : String}
  {source row : MatchRecord} {policy : MatchingPolicy} {maxCandidates : ℕ} {s : RequestStore}

theorem scoredCandidates_eq : scoredCandidates unicode fuzz org source policy maxCandidates s =
    s.records.filterMap (entry unicode fuzz org source policy maxCandidates) := by
  rw [scoredCandidates, narrowedRecords, List.filter_map, List.filterMap_map, List.filterMap_filter,
    List.filterMap_filter]
  refine List.filterMap_congr fun row _ => ?_
  have hid : (rowToDomain row).recordId = row.recordId := rfl
  by_cases horg : row.organizationId = org <;>
    by_cases hne : row.recordId = source.recordId <;>
    simp [entry, horg, hne, hid]

theorem entry_of_source (h : row.recordId = source.recordId) :
    entry unicode fuzz org source policy maxCandidates row = none := by
  simp [entry, h]

/-! ## The source -/

theorem ensureRecord_ok (h : StoredUnchanged org source s)
    (hrow : domainToRow org source = .ok row) :
    ((ensureRecord env org source).run s).outcome = .ok row ∧
      (((ensureRecord env org source).run s).final s).records =
        searchedRecords org source row s := by
  have hperm := env.recordOrder.select_perm s (isRecord org source.recordId)
  unfold ensureRecord
  rw [Session.read_bind]
  rcases h with hnil | ⟨row', hrow', hone⟩
  · rw [hnil] at hperm
    have hcreate : (createMatchRecord org source).run s =
        ⟨[{ s with records := s.records ++ [row] }], .ok row⟩ :=
      Session.transact_ok (by rw [hrow]; rfl)
    rw [hperm.eq_nil, searchedRecords, if_pos hnil]
    simp only [Session.zoom, id_eq, hcreate]
    exact ⟨rfl, rfl⟩
  · obtain rfl : row = row' := Except.ok.inj (hrow.symm.trans hrow')
    rw [hone] at hperm
    rw [List.perm_singleton.mp hperm, searchedRecords, if_neg (by simp [hone])]
    exact ⟨rfl, rfl⟩

theorem ensureRecord_error (h : StoredUnchanged org source s) {e : RequestError}
    (he : domainToRow org source = .error e) :
    ((ensureRecord env org source).run s).outcome = .error (.request e) := by
  have hperm := env.recordOrder.select_perm s (isRecord org source.recordId)
  rcases h with hnil | ⟨row', hrow', hone⟩
  · rw [hnil] at hperm
    have hcreate : (createMatchRecord org source).run s = ⟨[], .error e⟩ :=
      Session.transact_error (by rw [he]; rfl)
    unfold ensureRecord
    rw [Session.read_bind, hperm.eq_nil]
    simp only [Session.zoom, id_eq, hcreate]
    rfl
  · rw [he] at hrow'
    cases hrow'

/-! ## The rows -/

/-- The result that the search makes of the rows it retrieved. -/
def resultsOf (unicode : Unicode) (fuzz : Fuzz) (source : MatchRecord) (policy : MatchingPolicy)
    (maxCandidates : ℕ) (rows : List MatchRecord) : List CandidateMatch :=
  let narrowed := filterCandidates unicode source (rows.map rowToDomain) policy maxCandidates
  let ranked := narrowed.filterMap (candidateMatch unicode fuzz source policy)
  (ranked.insertionSort fun a b => b.matchScore ≤ a.matchScore).take maxCandidates

/-- Within the limit nothing is dropped after the rows are retrieved. -/
theorem resultsOf_perm {rows : List MatchRecord} (hlength : rows.length ≤ maxCandidates)
    (horg : ∀ row ∈ rows, row.organizationId = org) :
    (resultsOf unicode fuzz source policy maxCandidates rows).Perm
      (rows.filterMap (entry unicode fuzz org source policy maxCandidates)) := by
  let crit := narrowingCriteria unicode source policy maxCandidates
  let keep : MatchRecord → Bool := fun cand =>
    cand.recordId ≠ source.recordId && candidateMatches unicode cand crit
  have hfiltered : ((rows.map rowToDomain).filter keep).length ≤ maxCandidates := by
    refine Nat.le_trans (List.length_filter_le _ _) ?_
    rwa [List.length_map]
  have hnarrowed : filterCandidates unicode source (rows.map rowToDomain) policy maxCandidates =
      (rows.map rowToDomain).filter keep := List.take_of_length_le hfiltered
  have hranked : (((rows.map rowToDomain).filter keep).filterMap
      (candidateMatch unicode fuzz source policy)).length ≤ maxCandidates :=
    Nat.le_trans (List.length_filterMap_le _ _) hfiltered
  unfold resultsOf
  dsimp only
  rw [hnarrowed, List.take_of_length_le (by rwa [List.length_insertionSort])]
  refine (List.perm_insertionSort _ _).trans ?_
  rw [List.filter_map, List.filterMap_map, List.filterMap_filter]
  refine .of_eq (List.filterMap_congr fun row hrow => ?_)
  have hid : (rowToDomain row).recordId = row.recordId := rfl
  by_cases hne : row.recordId = source.recordId <;>
    simp [entry, horg row hrow, hne, hid, keep, crit]

/-- The criteria by which the rows are retrieved: those of the source as it is stored. -/
def storedCriteria (unicode : Unicode) (policy : MatchingPolicy) (maxCandidates : ℕ)
    (row : MatchRecord) : NarrowingCriteria :=
  narrowingCriteria unicode (rowToDomain row) policy maxCandidates

theorem searchCandidates_run (h : StoredUnchanged org source s)
    (hrow : domainToRow org source = .ok row) {ranges : List (DateField × ℕ × ℕ)}
    (hranges : dateRanges (storedCriteria env.unicode policy maxCandidates row) = .ok ranges) :
    ∃ t : RequestStore, t.records = searchedRecords org source row s ∧
      ((searchCandidates env org source policy maxCandidates).run s).outcome =
        .ok (resultsOf env.unicode env.fuzz source policy maxCandidates
          (((env.recordOrder.select t (sqlMatches org
            (storedCriteria env.unicode policy maxCandidates row) ranges (some source.recordId)
              [])).map (·.2)).take maxCandidates)) := by
  obtain ⟨ho, hrecords⟩ : ((ensureRecord env org source).run s).outcome = .ok row ∧ _ :=
    ensureRecord_ok h hrow
  set t := ((ensureRecord env org source).run s).final s
  have hcand : (candidateRecords env org row policy maxCandidates (some source.recordId)).run t =
      ⟨[], .ok (((env.recordOrder.select t (sqlMatches org
        (storedCriteria env.unicode policy maxCandidates row) ranges (some source.recordId)
          [])).map (·.2)).take maxCandidates)⟩ := by
    show (Session.ofExcept (dateRanges (storedCriteria env.unicode policy maxCandidates row)) >>=
      _).run t = _
    rw [hranges]
    rfl
  refine ⟨t, hrecords, ?_⟩
  unfold searchCandidates
  rw [Session.bind_ok ho, Session.bind_ok (by rw [hcand])]
  rfl

theorem searchCandidates_error (h : StoredUnchanged org source s)
    (hrow : domainToRow org source = .ok row) {e : SearchError}
    (hranges : dateRanges (storedCriteria env.unicode policy maxCandidates row) = .error e) :
    ((searchCandidates env org source policy maxCandidates).run s).outcome = .error e := by
  obtain ⟨ho, -⟩ : ((ensureRecord env org source).run s).outcome = .ok row ∧ _ :=
    ensureRecord_ok h hrow
  set t := ((ensureRecord env org source).run s).final s
  have hcand : (candidateRecords env org row policy maxCandidates (some source.recordId)).run t =
      ⟨[], .error e⟩ := by
    show (Session.ofExcept (dateRanges (storedCriteria env.unicode policy maxCandidates row)) >>=
      _).run t = _
    rw [hranges]
    rfl
  unfold searchCandidates
  rw [Session.bind_ok ho, Session.bind_error (by rw [hcand])]

/-! ## What is missed -/

/-- The row has every value by which the database narrows the candidates of the source. -/
structure Retrievable (crit : NarrowingCriteria) (row : MatchRecord) : Prop where
  currency : Text.truthy crit.currency → row.currency = crit.currency
  amount : ∀ range ∈ crit.amountRange, ∃ a ∈ row.amount, range.1 ≤ a.toRat ∧ a.toRat ≤ range.2
  date : crit.dateFields = [] ∨ ∃ f ∈ crit.dateFields, ∃ d ∈ f.1.of row,
    d.daysApart f.2 ≤ crit.dateWindowDays

theorem dateRange_ok {d : Date} {days : ℕ} {range : ℕ × ℕ} (h : dateRange d days = .ok range)
    (d' : Date) : range.1 ≤ d'.ordinal ∧ d'.ordinal ≤ range.2 ↔ d'.daysApart d ≤ days := by
  unfold dateRange at h
  split_ifs at h with hin
  obtain rfl := Except.ok.inj h
  dsimp only
  rw [Date.daysApart]
  omega

/-- A range of ordinals is the window around its date. -/
theorem mem_ranges {fields : List (DateField × Date)} {days : ℕ}
    {ranges : List (DateField × ℕ × ℕ)}
    (h : fields.mapM (fun f => (dateRange f.2 days).map (f.1, ·)) = .ok ranges)
    (row : MatchRecord) :
    (ranges = [] ↔ fields = []) ∧
      ((∃ r ∈ ranges, ∃ d ∈ r.1.of row, r.2.1 ≤ d.ordinal ∧ d.ordinal ≤ r.2.2) ↔
        ∃ f ∈ fields, ∃ d ∈ f.1.of row, d.daysApart f.2 ≤ days) := by
  induction fields generalizing ranges with
  | nil =>
    obtain rfl : [] = ranges := Except.pure_eq_ok.mp h
    simp
  | cons f fields ih =>
    rw [List.mapM_cons] at h
    obtain ⟨r, hr, h⟩ := Except.bind_eq_ok.mp h
    obtain ⟨rest, hrest, h⟩ := Except.bind_eq_ok.mp h
    obtain rfl : r :: rest = ranges := Except.pure_eq_ok.mp h
    obtain ⟨range, hrange, rfl⟩ := Except.map_eq_ok.mp hr
    refine ⟨by simp, ?_⟩
    simp only [List.mem_cons, exists_eq_or_imp, (ih hrest).2, dateRange_ok hrange]

/-- The predicate of the database on the other rows of the organization. -/
theorem sqlMatches_iff {crit : NarrowingCriteria} {ranges : List (DateField × ℕ × ℕ)}
    (hranges : dateRanges crit = .ok ranges) (horg : row.organizationId = org)
    (hne : row.recordId ≠ source.recordId) :
    sqlMatches org crit ranges (some source.recordId) [] row ↔ Retrievable crit row := by
  obtain ⟨hempty, hwithin⟩ := mem_ranges hranges row
  have hcurrency : (!Text.truthy crit.currency || row.currency == crit.currency) = true ↔
      (Text.truthy crit.currency → row.currency = crit.currency) := by
    cases Text.truthy crit.currency <;> simp
  have hamount : crit.amountRange.all (fun (lo, hi) =>
      row.amount.any fun a => lo ≤ a.toRat && a.toRat ≤ hi) = true ↔
        ∀ range ∈ crit.amountRange, ∃ a ∈ row.amount, range.1 ≤ a.toRat ∧ a.toRat ≤ range.2 := by
    cases crit.amountRange <;> cases row.amount <;> simp
  have hdate : (ranges.isEmpty || ranges.any fun (field, lo, hi) =>
      (field.of row).any fun d => lo ≤ d.ordinal && d.ordinal ≤ hi) = true ↔
        (crit.dateFields = [] ∨ ∃ f ∈ crit.dateFields, ∃ d ∈ f.1.of row,
          d.daysApart f.2 ≤ crit.dateWindowDays) := by
    rw [← hempty, ← hwithin, Bool.or_eq_true, List.isEmpty_iff, List.any_eq_true]
    have hany : ∀ (o : Option Date) (lo hi : ℕ),
        o.any (fun d => lo ≤ d.ordinal && d.ordinal ≤ hi) = true ↔
          ∃ d ∈ o, lo ≤ d.ordinal ∧ d.ordinal ≤ hi := by
      intro o lo hi
      cases o <;> simp
    exact or_congr Iff.rfl (exists_congr fun r => and_congr Iff.rfl (hany _ _ _))
  have hexclude : (!Text.truthy (some source.recordId) ||
      some row.recordId != some source.recordId) = true := by
    simp [hne]
  rw [sqlMatches]
  simp only [horg, beq_self_eq_true, List.isEmpty_nil, Bool.true_or, Bool.true_and, hexclude,
    Bool.and_eq_true, hcurrency, hamount, hdate]
  exact ⟨fun ⟨⟨h1, h2⟩, h3⟩ => ⟨h1, h2, h3⟩, fun h => ⟨⟨h.currency, h.amount⟩, h.date⟩⟩

/-- The source can be stored and its dates have a window, every record that belongs into the result
is retrievable, and if there is one, no more rows satisfy the predicate than the limit admits. -/
def Retrieves (unicode : Unicode) (fuzz : Fuzz) (org : String) (source : MatchRecord)
    (policy : MatchingPolicy) (maxCandidates : ℕ) (s : RequestStore) : Prop :=
  ∃ row ranges, domainToRow org source = .ok row ∧
    dateRanges (storedCriteria unicode policy maxCandidates row) = .ok ranges ∧
    (∀ cand ∈ s.records, (entry unicode fuzz org source policy maxCandidates cand).isSome →
      Retrievable (storedCriteria unicode policy maxCandidates row) cand) ∧
    (scoredCandidates unicode fuzz org source policy maxCandidates s = [] ∨
      (searchedRecords org source row s).countP (sqlMatches org
        (storedCriteria unicode policy maxCandidates row) ranges (some source.recordId) []) ≤
          maxCandidates)

theorem domainToRow_recordId {row : MatchRecord} (h : domainToRow org source = .ok row) :
    row.recordId = source.recordId := by
  unfold domainToRow at h
  split at h
  · cases h
    rfl
  · obtain ⟨amount, -, h⟩ := Except.bind_eq_ok.mp h
    cases Except.pure_eq_ok.mp h
    rfl

/-- The stored source adds no entry. -/
theorem filterMap_searchedRecords (hrow : domainToRow org source = .ok row) :
    (searchedRecords org source row s).filterMap
        (entry unicode fuzz org source policy maxCandidates) =
      scoredCandidates unicode fuzz org source policy maxCandidates s := by
  rw [scoredCandidates_eq, searchedRecords]
  split_ifs with hnil
  · rw [List.filterMap_append]
    simp [entry_of_source (domainToRow_recordId hrow)]
  · rfl

theorem organizationId_of_sqlMatches {crit : NarrowingCriteria}
    {ranges : List (DateField × ℕ × ℕ)} {excludeId : Option String}
    (h : sqlMatches org crit ranges excludeId [] row) : row.organizationId = org := by
  simp only [sqlMatches, Bool.and_eq_true, beq_iff_eq] at h
  exact h.1.1.1.1.1

theorem retrieved_iff (hrow : domainToRow org source = .ok row)
    {ranges : List (DateField × ℕ × ℕ)}
    (hranges : dateRanges (storedCriteria unicode policy maxCandidates row) = .ok ranges) :
    (∀ cand ∈ searchedRecords org source row s,
      (entry unicode fuzz org source policy maxCandidates cand).isSome →
        sqlMatches org (storedCriteria unicode policy maxCandidates row) ranges
          (some source.recordId) [] cand) ↔
      ∀ cand ∈ s.records, (entry unicode fuzz org source policy maxCandidates cand).isSome →
        Retrievable (storedCriteria unicode policy maxCandidates row) cand := by
  have hcand : ∀ cand, (entry unicode fuzz org source policy maxCandidates cand).isSome →
      (sqlMatches org (storedCriteria unicode policy maxCandidates row) ranges
        (some source.recordId) [] cand ↔
          Retrievable (storedCriteria unicode policy maxCandidates row) cand) := by
    intro cand hentry
    by_cases horg : cand.organizationId = org ∧ cand.recordId ≠ source.recordId
    · exact sqlMatches_iff hranges horg.1 horg.2
    · rw [entry, if_neg fun hall => horg ⟨hall.1, hall.2.1⟩] at hentry
      cases hentry
  constructor
  · intro hall cand hmem hentry
    refine (hcand cand hentry).mp (hall cand ?_ hentry)
    rw [searchedRecords]
    split_ifs
    · exact List.mem_append_left _ hmem
    · exact hmem
  · intro hall cand hmem hentry
    refine (hcand cand hentry).mpr (hall cand ?_ hentry)
    rw [searchedRecords] at hmem
    split_ifs at hmem
    · rcases List.mem_append.mp hmem with hmem | hmem
      · exact hmem
      · obtain rfl := List.mem_singleton.mp hmem
        rw [entry_of_source (domainToRow_recordId hrow)] at hentry
        cases hentry
    · exact hmem

/-- Over all orders of the rows, the search is a query with a limit. -/
theorem findsAll_iff (h : StoredUnchanged org source s) (hrow : domainToRow org source = .ok row)
    {ranges : List (DateField × ℕ × ℕ)}
    (hranges : dateRanges (storedCriteria unicode policy maxCandidates row) = .ok ranges) :
    (∀ recordOrder versionOrder,
      FindsAll ⟨unicode, fuzz, recordOrder, versionOrder⟩ org source policy maxCandidates s) ↔
      ∀ found : List MatchRecord, found.Perm ((searchedRecords org source row s).filter
          (sqlMatches org (storedCriteria unicode policy maxCandidates row) ranges
            (some source.recordId) [])) →
        ((found.take maxCandidates).filterMap
          (entry unicode fuzz org source policy maxCandidates)).Perm
            ((searchedRecords org source row s).filterMap
              (entry unicode fuzz org source policy maxCandidates)) := by
  set p := sqlMatches org (storedCriteria unicode policy maxCandidates row) ranges
    (some source.recordId) []
  have hresults : ∀ found : List MatchRecord, (∀ r ∈ found, p r) →
      (resultsOf unicode fuzz source policy maxCandidates (found.take maxCandidates)).Perm
        ((found.take maxCandidates).filterMap
          (entry unicode fuzz org source policy maxCandidates)) := fun found hfound =>
    resultsOf_perm (List.length_take_le _ _) fun r hr =>
      organizationId_of_sqlMatches (hfound r (List.mem_of_mem_take hr))
  rw [filterMap_searchedRecords hrow]
  constructor
  · intro hall found hfound
    obtain ⟨recordOrder, horder⟩ : ∃ o : RowOrder RequestStore RequestStore.records, _ :=
      RowOrder.exists_order (searchedRecords org source row s) fun _ => found
    set env : MatchingEnv := ⟨unicode, fuzz, recordOrder, .insertion _ _⟩
    obtain ⟨results, hout, hperm⟩ := hall recordOrder (.insertion _ _)
    obtain ⟨t, ht, hrun⟩ : ∃ t : RequestStore, t.records = searchedRecords org source row s ∧
        ((searchCandidates env org source policy maxCandidates).run s).outcome = _ :=
      searchCandidates_run h hrow hranges
    rw [horder t ht _ hfound] at hrun
    obtain rfl := Except.ok.inj (hout.symm.trans hrun)
    refine (hresults found fun r hr => ?_).symm.trans hperm
    exact (List.mem_filter.mp (hfound.mem_iff.mp hr)).2
  · intro hall recordOrder versionOrder
    set env : MatchingEnv := ⟨unicode, fuzz, recordOrder, versionOrder⟩
    obtain ⟨t, ht, hrun⟩ : ∃ t : RequestStore, t.records = searchedRecords org source row s ∧
        ((searchCandidates env org source policy maxCandidates).run s).outcome = _ :=
      searchCandidates_run h hrow hranges
    have hselect := recordOrder.select_perm t p
    rw [ht] at hselect
    refine ⟨_, hrun, (hresults _ fun r hr => ?_).trans (hall _ hselect)⟩
    exact (List.mem_filter.mp (hselect.mem_iff.mp hr)).2

/-- The search finds every candidate with a score, in whatever order the rows are returned,
exactly when the database retrieves all of them and the limit cuts no row off. -/
theorem searchCandidates_iff (unicode : Unicode) (fuzz : Fuzz) (org : String)
    (source : MatchRecord) (policy : MatchingPolicy) (maxCandidates : ℕ) (s : RequestStore)
    (h : StoredUnchanged org source s) :
    (∀ recordOrder versionOrder,
      FindsAll ⟨unicode, fuzz, recordOrder, versionOrder⟩ org source policy maxCandidates s) ↔
      Retrieves unicode fuzz org source policy maxCandidates s := by
  let env₀ : MatchingEnv := ⟨unicode, fuzz, .insertion _ _, .insertion _ _⟩
  cases hrow : domainToRow org source with
  | error e =>
    refine iff_of_false (fun hall => ?_) ?_
    · obtain ⟨results, hresults, -⟩ := hall env₀.recordOrder env₀.versionOrder
      unfold searchCandidates at hresults
      rw [Session.bind_error (ensureRecord_error h hrow)] at hresults
      cases hresults
    · rintro ⟨row, -, hrow', -⟩
      rw [hrow] at hrow'
      cases hrow'
  | ok row =>
    cases hranges : dateRanges (storedCriteria unicode policy maxCandidates row) with
    | error e =>
      refine iff_of_false (fun hall => ?_) ?_
      · obtain ⟨results, hresults, -⟩ := hall env₀.recordOrder env₀.versionOrder
        rw [searchCandidates_error h hrow hranges] at hresults
        cases hresults
      · rintro ⟨row', ranges, hrow', hranges', -⟩
        obtain rfl := Except.ok.inj (hrow.symm.trans hrow')
        rw [hranges] at hranges'
        cases hranges'
    | ok ranges =>
      rw [findsAll_iff h hrow hranges, RowOrder.limit_finds_all_iff,
        filterMap_searchedRecords hrow]
      rw [retrieved_iff hrow hranges]
      constructor
      · rintro ⟨hall, hlimit⟩
        exact ⟨row, ranges, hrow, hranges, hall, hlimit⟩
      · rintro ⟨row', ranges', hrow', hranges', hall, hlimit⟩
        obtain rfl := Except.ok.inj (hrow.symm.trans hrow')
        obtain rfl := Except.ok.inj (hranges.symm.trans hranges')
        exact ⟨hall, hlimit⟩

/-- A source with a currency, and a candidate that has none. -/
def pricedSource : MatchRecord := { RunConfig.recordOf "s" "A" with currency := some "EUR" }

/-- A store with records without an amount. -/
def unpricedStore : RequestStore where
  records := [RunConfig.recordOf "c" "A"]

theorem searchCandidates_iff_unpriced :
    (∀ recordOrder versionOrder, FindsAll ⟨.ascii, .equality, recordOrder, versionOrder⟩ "org"
      pricedSource (defaultPolicy "org") 20 unpricedStore) ↔
      Retrieves .ascii .equality "org" pricedSource (defaultPolicy "org") 20 unpricedStore :=
  searchCandidates_iff .ascii .equality "org" pricedSource (defaultPolicy "org") 20 unpricedStore
    (.inl (by decide +kernel))

/-- The candidate passes narrowing within the limit, but not the predicate of the database. -/
theorem search_misses_candidate :
    StoredUnchanged "org" pricedSource unpricedStore ∧
      (narrowedRecords .ascii "org" pricedSource (defaultPolicy "org") 20 unpricedStore).length ≤
        20 ∧
      ¬ FindsAll .insertion "org" pricedSource (defaultPolicy "org") 20 unpricedStore := by
  refine ⟨.inl (by decide +kernel), by decide +kernel, ?_⟩
  rintro ⟨results, hout, hperm⟩
  have hnone : ((searchCandidates .insertion "org" pricedSource (defaultPolicy "org") 20).run
      unpricedStore).outcome.toOption.map List.length = some 0 := by
    decide +kernel
  have hone : (scoredCandidates .ascii .equality "org" pricedSource (defaultPolicy "org") 20
      unpricedStore).length = 1 := by
    decide +kernel
  rw [hout] at hnone
  have hzero : results.length = 0 := Option.some.inj hnone
  have hlength := hperm.length_eq
  change results.length = (scoredCandidates .ascii .equality "org" pricedSource
    (defaultPolicy "org") 20 unpricedStore).length at hlength
  omega

end PaymentOps.Matching
