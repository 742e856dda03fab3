import PaymentOps.Profiles.Integration

/-!
# What the snapshots of a profile say

A published profile cannot be updated, and a publication leaves a snapshot of it.  A profile that
is created as published has none, and a published profile may be published again, under the
number that it already has.

* `publishedSound_iff`: in every store of a run the published profiles are valid and have their
  snapshots, exactly when no profile is created as published;
* `increasing_iff`: the snapshots of each profile have increasing numbers, exactly when no profile
  with a snapshot is published;
* `created_published` and `published_again` are runs in which they do not.
-/

namespace PaymentOps.Profiles

open Mapping

variable {db : ProfileColumns} {call : ProfileCall} {calls : List ProfileCall} {s t : ProfileStore}
  {id : ℕ}

/-! ## Snapshots -/

/-- Each snapshot is of a profile, under the version number that the profile has. -/
def SnapshotsMatch (s : ProfileStore) : Prop :=
  ∀ v ∈ s.versions, ∃ row, s.profiles[v.profileId]? = some row ∧
    row.versionNumber = v.versionNumber

/-- No call takes a profile away or changes its version number. -/
theorem versionNumber_kept (h : t ∈ ((perform db call).run s).commits)
    {row : IntegrationProfileRow} (hrow : s.profiles[id]? = some row) :
    ∃ row', t.profiles[id]? = some row' ∧ row'.versionNumber = row.versionNumber := by
  have hlt : id < s.profiles.length := (List.getElem?_eq_some_iff.mp hrow).1
  have hset : ∀ id' row₀ row', s.profiles[id']? = some row₀ →
      row'.versionNumber = row₀.versionNumber →
      ∃ r, (s.profiles.set id' row')[id]? = some r ∧ r.versionNumber = row.versionNumber := by
    intro id' row₀ row' hrow₀ hnumber
    by_cases hid : id' = id
    · subst hid
      obtain rfl : row₀ = row := Option.some.inj (hrow₀.symm.trans hrow)
      exact ⟨row', List.getElem?_set_self hlt, hnumber⟩
    · exact ⟨row, by rw [List.getElem?_set_ne hid, hrow], rfl⟩
  rcases performed_cases h with ⟨org, profile, -, -, rfl⟩ |
    ⟨org, id', profile, row₀, -, hrow₀, -, rfl⟩ | ⟨org, id', row₀, -, hp, rfl⟩
  · exact ⟨row, by rw [List.getElem?_append_left hlt, hrow], rfl⟩
  · exact hset id' row₀ _ hrow₀ rfl
  · exact hset id' row₀ _ (getRow_eq_ok.mp hp.1).1 rfl

/-- A call adds one snapshot of the profile that it publishes, or none. -/
theorem versions_of_performed (h : t ∈ ((perform db call).run s).commits) :
    t.versions = s.versions ∨ ∃ org id row, call = .publish org id ∧
      Publishable db org id row s ∧ t.versions = s.versions ++ [snapshot id row] := by
  rcases performed_cases h with ⟨org, profile, -, -, rfl⟩ | ⟨org, id, profile, row, -, -, -, rfl⟩ |
    ⟨org, id, row, hcall, hp, rfl⟩
  · exact .inl rfl
  · exact .inl rfl
  · exact .inr ⟨org, id, row, hcall, hp, rfl⟩

theorem snapshotsMatch_step (hs : SnapshotsMatch s)
    (h : t ∈ ((perform db call).run s).commits) : SnapshotsMatch t := by
  intro v hv
  have hnumber : ∃ row, s.profiles[v.profileId]? = some row ∧
      row.versionNumber = v.versionNumber := by
    rcases versions_of_performed h with hversions | ⟨org, id, row, -, hp, hversions⟩
    · rw [hversions] at hv
      exact hs v hv
    · rw [hversions] at hv
      rcases List.mem_append.mp hv with hv | hv
      · exact hs v hv
      · obtain rfl := List.mem_singleton.mp hv
        exact ⟨row, (getRow_eq_ok.mp hp.1).1, rfl⟩
  obtain ⟨row, hrow, heq⟩ := hnumber
  obtain ⟨row', hrow', heq'⟩ := versionNumber_kept h hrow
  exact ⟨row', hrow', heq'.trans heq⟩

theorem snapshotsMatch_run (db : ProfileColumns) (calls : List ProfileCall) :
    ∀ c ∈ Session.calls (perform db) calls {}, SnapshotsMatch c.2 :=
  (Session.stores_of_calls (by simp [SnapshotsMatch])
    fun _ _ hs _ ht => snapshotsMatch_step hs ht).1

/-! ## Published profiles -/

/-- The profile is valid, and there is a snapshot of its current version with its content. -/
structure Sound (s : ProfileStore) (id : ℕ) (row : IntegrationProfileRow) : Prop where
  valid : validateProfile (toDomain id row) = []
  snapshot : ∃ v ∈ s.versions, v.profileId = id ∧ v.versionNumber = row.versionNumber ∧
    v.mapping = row.mapping ∧ v.rules = row.rules

/-- Every published profile is sound. -/
def PublishedSound (s : ProfileStore) : Prop :=
  ∀ id row, s.profiles[id]? = some row → row.status = .published → Sound s id row

theorem Sound.of_versions {row : IntegrationProfileRow} (h : Sound s id row)
    (hv : s.versions ⊆ t.versions) : Sound t id row := by
  obtain ⟨v, hmem, hspec⟩ := h.snapshot
  exact ⟨h.valid, v, hv hmem, hspec⟩

theorem publishedSound_step (hs : PublishedSound s)
    (hcall : ∀ org profile, call = .create org profile → db.takesProfile (newRow org profile) →
      profile.status ≠ .published)
    (h : t ∈ ((perform db call).run s).commits) : PublishedSound t := by
  intro i r hr hpublished
  rcases performed_cases h with ⟨org, profile, hcreate, htakes, rfl⟩ |
    ⟨org, id, profile, row, -, hrow, hunpublished, rfl⟩ | ⟨org, id, row, -, hp, rfl⟩
  · rw [List.getElem?_append] at hr
    split_ifs at hr with hlt
    · exact (hs i r hr hpublished).of_versions (List.Subset.refl _)
    · obtain ⟨-, rfl⟩ : i - s.profiles.length = 0 ∧ newRow org profile = r := by
        simpa [List.getElem?_singleton] using hr
      exact absurd hpublished (hcall org profile hcreate htakes)
  · by_cases hid : id = i
    · subst hid
      have hlt := (List.getElem?_eq_some_iff.mp hrow).1
      rw [List.getElem?_set_self hlt] at hr
      obtain rfl := Option.some.inj hr
      exact absurd hpublished hunpublished
    · rw [List.getElem?_set_ne hid] at hr
      exact (hs i r hr hpublished).of_versions (List.Subset.refl _)
  · by_cases hid : id = i
    · subst hid
      obtain ⟨hrow, hvalid, -⟩ := hp
      have hlt := (List.getElem?_eq_some_iff.mp (getRow_eq_ok.mp hrow).1).1
      rw [List.getElem?_set_self hlt] at hr
      obtain rfl := Option.some.inj hr
      exact ⟨hvalid, snapshot id row, List.mem_append_right _ List.mem_cons_self, rfl, rfl, rfl,
        rfl⟩
    · rw [List.getElem?_set_ne hid] at hr
      exact (hs i r hr hpublished).of_versions (List.subset_append_left _ _)

/-- In every store of a run the published profiles are valid and have their snapshots exactly
when no profile is created as published. -/
theorem publishedSound_iff (db : ProfileColumns) (calls : List ProfileCall) :
    (∀ t ∈ Session.stores (perform db) calls {}, PublishedSound t) ↔
      ∀ org profile, .create org profile ∈ calls → db.takesProfile (newRow org profile) →
        profile.status ≠ .published := by
  constructor
  · intro h org profile hmem htakes hstatus
    obtain ⟨s, hs⟩ := Session.exists_call (f := perform db) hmem {}
    have ht : { s with profiles := s.profiles ++ [newRow org profile] } ∈
        ((perform db (.create org profile)).run s).commits := mem_createProfile.mpr ⟨htakes, rfl⟩
    have hsound := h _ (Session.mem_stores.mpr ⟨_, hs, ht⟩) s.profiles.length
      (newRow org profile) (by simp) hstatus
    -- no snapshot is of a profile that is still to be created
    obtain ⟨v, hv, hid, -⟩ := hsound.snapshot
    obtain ⟨row, hrow, -⟩ := snapshotsMatch_run db calls _ hs v hv
    rw [hid] at hrow
    exact Nat.lt_irrefl _ (List.getElem?_eq_some_iff.mp hrow).1
  · intro h
    refine (Session.stores_of_calls (by simp [PublishedSound]) fun c hc hs t ht => ?_).2
    refine publishedSound_step hs (fun org profile hcall => h org profile ?_) ht
    rw [← hcall]
    exact Session.mem_of_calls hc

/-- Columns that take every row. -/
def anyColumns : ProfileColumns := ⟨fun _ => true, fun _ => true⟩

/-- A body with the status of a published profile and a mapping without fields. -/
def publishedBody : IntegrationProfile where
  organizationId := "org"
  name := "p"
  status := .published
  inputFormat := .csv
  mapping := { mappingVersion := "1", sourceFormat := .csv }

/-- The profile is created as published: it was never validated and has no snapshot. -/
theorem created_published :
    ¬ ∀ t ∈ Session.stores (perform anyColumns) [.create "org" publishedBody] {},
      PublishedSound t := by
  intro h
  have hsound := h { profiles := [newRow "org" publishedBody] } (List.mem_singleton.mpr rfl) 0
    (newRow "org" publishedBody) rfl rfl
  obtain ⟨v, hv, -⟩ := hsound.snapshot
  cases hv

/-! ## Version numbers -/

/-- The snapshots of a profile, in the order of their publication. -/
def snapshotsOf (id : ℕ) (s : ProfileStore) : List IntegrationProfileVersion :=
  s.versions.filter (·.profileId = id)

/-- The snapshots of each profile have increasing version numbers. -/
def Increasing (s : ProfileStore) : Prop :=
  ∀ id, ((snapshotsOf id s).map (·.versionNumber)).Pairwise (· < ·)

/-- The call publishes a profile that has a snapshot. -/
def Republishes (db : ProfileColumns) (call : ProfileCall) (s : ProfileStore) : Prop :=
  ∃ org id row, call = .publish org id ∧ Publishable db org id row s ∧ snapshotsOf id s ≠ []

theorem snapshotsOf_append {row : IntegrationProfileRow}
    (h : t.versions = s.versions ++ [snapshot id row]) (id' : ℕ) :
    snapshotsOf id' t = snapshotsOf id' s ++ if id = id' then [snapshot id row] else [] := by
  have hnew : [snapshot id row].filter (·.profileId = id') =
      if id = id' then [snapshot id row] else [] := by
    by_cases hid : id = id'
    · simp [snapshot, hid]
    · simp [snapshot, hid]
  rw [snapshotsOf, h, List.filter_append, hnew]
  rfl

/-- Each profile has one snapshot at most, as long as none is published again. -/
theorem length_snapshotsOf_step (hs : ∀ id, (snapshotsOf id s).length ≤ 1)
    (hcall : ¬ Republishes db call s) (h : t ∈ ((perform db call).run s).commits) :
    ∀ id, (snapshotsOf id t).length ≤ 1 := by
  intro id
  rcases versions_of_performed h with hversions | ⟨org, id', row, hpublish, hp, hversions⟩
  · rw [snapshotsOf, hversions]
    exact hs id
  · rw [snapshotsOf_append hversions]
    by_cases hid : id' = id
    · subst hid
      have hnone : snapshotsOf id' s = [] := by
        by_contra hne
        exact hcall ⟨org, id', row, hpublish, hp, hne⟩
      rw [hnone, if_pos rfl]
      exact le_refl _
    · rw [if_neg hid, List.append_nil]
      exact hs id

/-- A second snapshot has the number of the first. -/
theorem not_increasing_of_republishes (hs : SnapshotsMatch s) (hcall : Republishes db call s) :
    ∃ t ∈ ((perform db call).run s).commits, ¬ Increasing t := by
  obtain ⟨org, id, row, rfl, hp, hne⟩ := hcall
  obtain ⟨v, hv⟩ := List.exists_mem_of_ne_nil _ hne
  obtain ⟨hmem, hid⟩ : v ∈ s.versions ∧ v.profileId = id := by
    simpa [snapshotsOf] using hv
  obtain ⟨row', hrow', hnumber⟩ := hs v hmem
  rw [hid, (getRow_eq_ok.mp hp.1).1] at hrow'
  obtain rfl := Option.some.inj hrow'
  refine ⟨_, mem_publishProfile.mpr ⟨row, hp, rfl⟩, fun hincreasing => ?_⟩
  have hpairwise := hincreasing id
  rw [snapshotsOf_append (s := s) rfl, if_pos rfl, List.map_append, List.pairwise_append]
    at hpairwise
  have hlt := hpairwise.2.2 v.versionNumber (List.mem_map.mpr ⟨v, hv, rfl⟩) row.versionNumber
    List.mem_cons_self
  omega

/-- The snapshots of each profile have increasing version numbers, in every store of a run,
exactly when no profile with a snapshot is published. -/
theorem increasing_iff (db : ProfileColumns) (calls : List ProfileCall) :
    (∀ t ∈ Session.stores (perform db) calls {}, Increasing t) ↔
      ∀ c ∈ Session.calls (perform db) calls {}, ¬ Republishes db c.1 c.2 := by
  constructor
  · intro h c hc hcall
    obtain ⟨t, ht, hnot⟩ := not_increasing_of_republishes (snapshotsMatch_run db calls c hc) hcall
    exact hnot (h t (Session.mem_stores.mpr ⟨c, hc, ht⟩))
  · intro h t ht id
    have hlength := (Session.stores_of_calls (I := fun s => ∀ id, (snapshotsOf id s).length ≤ 1)
      (by simp [snapshotsOf]) fun c hc hs t ht => length_snapshotsOf_step hs (h c hc) ht).2 t ht id
    cases hsnapshots : snapshotsOf id t with
    | nil => exact List.Pairwise.nil
    | cons v rest =>
      rw [hsnapshots, List.length_cons] at hlength
      obtain rfl : rest = [] := List.length_eq_zero_iff.mp (by omega)
      exact List.pairwise_singleton _ _

/-- A draft with one field. -/
def draftBody : IntegrationProfile where
  organizationId := "org"
  name := "p"
  inputFormat := .csv
  mapping := {
    mappingVersion := "1"
    sourceFormat := .csv
    fields := [{ source := "creditor", target := "creditor.name" }] }

/-- A profile is published twice, and both snapshots are of version 1. -/
theorem published_again :
    ¬ ∀ t ∈ Session.stores (perform anyColumns)
        [.create "org" draftBody, .publish "org" 0, .publish "org" 0] {}, Increasing t := by
  intro h
  let row := newRow "org" draftBody
  let published := { row with status := .published }
  have hlast : { profiles := [published], versions := [snapshot 0 row, snapshot 0 published] } ∈
      Session.stores (perform anyColumns)
        [.create "org" draftBody, .publish "org" 0, .publish "org" 0] {} :=
    List.mem_of_getLast? rfl
  have hpairwise : [(1 : ℤ), 1].Pairwise (· < ·) := h _ hlast 0
  exact absurd hpairwise (by decide)

end PaymentOps.Profiles
