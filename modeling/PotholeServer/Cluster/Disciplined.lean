import PotholeServer.Cluster.Consistent
import PotholeServer.Sql.Server

/-!
# What a run may commit

The statements of the clustering job and what they may do while others commit: a transaction
changes the links only of clusters whose rows it has written, and its new clusters have ids that
nobody else has. What such a transaction commits changes no cluster that is repaired in the state
it meets, if the updates among its effects met none.
-/

namespace PotholeServer.Cluster

open Sql Db

variable {R : Type}

/-- What open transactions exclude each other from: an existing row, and the key of a new one. -/
inductive ClusterLock where
  | row (clusterId : String)
  | newKey (clusterId : String)
  deriving DecidableEq, Repr

/-- The locks that an effect needs. -/
def clusterLocks : Write R → List ClusterLock
  | .updateCluster id _ _ => [.row id]
  | .insertCluster row => [.newKey row.clusterId]
  | _ => []

/-- The locks that others need. -/
def Other.locks : Other R → List ClusterLock
  | .repaired id _ => [.row id]
  | .effect .. => []

/-- A server on which runs of the clustering job are going on. -/
abbrev ClusterServer (R : Type) := Server ClusterTick (fun _ ↦ Nat) (Database R) (Write R) Statement

/-- No cluster with this id is repaired. -/
def Unrepaired (s : Database R) (id : String) : Prop :=
  ∀ c ∈ s.assetCluster, c.clusterId = id → c.repairedAt = none

/-- The clusters that are repaired in the first state keep their aggregates and links. -/
def Frozen (s s' : Database R) : Prop :=
  ∀ c ∈ s.assetCluster, c.repairedAt ≠ none →
    (∃ c' ∈ s'.assetCluster, c'.clusterId = c.clusterId ∧ c'.repairedAt ≠ none ∧
      summaryOf c' = summaryOf c) ∧
    ∀ l, l.clusterId = c.clusterId →
      (l ∈ s'.observationClusterLink ↔ l ∈ s.observationClusterLink)

theorem Frozen.refl (s : Database R) : Frozen s s :=
  fun c hc hrepaired ↦ ⟨⟨c, hc, rfl, hrepaired, rfl⟩, fun _ _ ↦ Iff.rfl⟩

theorem Frozen.trans {s s' s'' : Database R} (h : Frozen s s') (h' : Frozen s' s'') :
    Frozen s s'' := by
  intro c hc hrepaired
  obtain ⟨⟨c', hc', hid', hrepaired', hsummary'⟩, hlinks⟩ := h c hc hrepaired
  obtain ⟨⟨c'', hc'', hid'', hrepaired'', hsummary''⟩, hlinks'⟩ := h' c' hc' hrepaired'
  refine ⟨⟨c'', hc'', hid''.trans hid', hrepaired'', hsummary''.trans hsummary'⟩, ?_⟩
  intro l hl
  exact (hlinks' l (hl.trans hid'.symm)).trans (hlinks l hl)

/-! ### Single effects -/

section Effects

/-- The cluster whose links an effect changes. -/
def linkTarget : Write R → Option String
  | .deleteLinks id => some id
  | .insertLink row => some row.clusterId
  | _ => none

variable {s : Database R} {w : Write R} {p : List (Write R)} {c : AssetCluster R}

theorem hasKey_write {id : String} (h : s.assetCluster.HasKey id) :
    (s.write w).assetCluster.HasKey id := by
  cases w with
  | updateCluster id' summary now =>
    exact (Table.hasKey_update (t := s.assetCluster) (p := fun c ↦ c.clusterId = id')
      (f := fun c ↦ c.setSummary summary now) (fun _ ↦ rfl)).mpr h
  | insertCluster row => exact Table.hasKey_insertNew.mpr (.inl h)
  | _ => exact h

theorem hasKey_applyAll {id : String} (h : s.assetCluster.HasKey id) :
    (applyAll p s).assetCluster.HasKey id := by
  induction p generalizing s with
  | nil => exact h
  | cons w p ih => exact ih (hasKey_write h)

/-- A row after an effect: an old one, repaired or not as before, or an inserted one. -/
theorem origin_write (h : c ∈ (s.write w).assetCluster) :
    (∃ u ∈ s.assetCluster, u.clusterId = c.clusterId ∧ u.repairedAt = c.repairedAt) ∨
      w = .insertCluster c := by
  cases w with
  | updateCluster id summary now =>
    obtain ⟨u, hu, rfl⟩ := List.mem_map.mp h
    refine .inl ⟨u, hu, ?_⟩
    split <;> exact ⟨rfl, rfl⟩
  | insertCluster row =>
    rcases Table.mem_insertNew.mp h with hold | ⟨rfl, _⟩
    · exact .inl ⟨c, hold, rfl, rfl⟩
    · exact .inr rfl
  | _ => exact .inl ⟨c, h, rfl, rfl⟩

theorem origin_applyAll (h : c ∈ (applyAll p s).assetCluster) :
    (∃ u ∈ s.assetCluster, u.clusterId = c.clusterId ∧ u.repairedAt = c.repairedAt) ∨
      ∃ row, .insertCluster row ∈ p ∧ row.clusterId = c.clusterId ∧
        row.repairedAt = c.repairedAt := by
  induction p generalizing s with
  | nil => exact .inl ⟨c, h, rfl, rfl⟩
  | cons w p ih =>
    rcases ih h with ⟨u, hu, hid, hat⟩ | ⟨row, hrow, hsame⟩
    · rcases origin_write hu with ⟨u', hu', hid', hat'⟩ | rfl
      · exact .inl ⟨u', hu', hid'.trans hid, hat'.trans hat⟩
      · exact .inr ⟨u, List.mem_cons_self .., hid, hat⟩
    · exact .inr ⟨row, List.mem_cons_of_mem _ hrow, hsame⟩

/-- An effect keeps every row, repaired or not as before. -/
theorem exists_row_write (hc : c ∈ s.assetCluster) :
    ∃ c' ∈ (s.write w).assetCluster, c'.clusterId = c.clusterId ∧ c'.repairedAt = c.repairedAt := by
  cases w with
  | updateCluster id summary now =>
    refine ⟨_, Table.mem_update_of_mem (p := fun r ↦ r.clusterId = id)
      (f := fun r ↦ r.setSummary summary now) (fun _ ↦ rfl) hc, ?_⟩
    split <;> exact ⟨rfl, rfl⟩
  | insertCluster row => exact ⟨c, Table.mem_insertNew_of_mem _ hc, rfl, rfl⟩
  | _ => exact ⟨c, hc, rfl, rfl⟩

theorem exists_row_applyAll (hc : c ∈ s.assetCluster) :
    ∃ c' ∈ (applyAll p s).assetCluster, c'.clusterId = c.clusterId ∧
      c'.repairedAt = c.repairedAt := by
  induction p generalizing s c with
  | nil => exact ⟨c, hc, rfl, rfl⟩
  | cons w p ih =>
    obtain ⟨c', hc', hid', hat'⟩ := exists_row_write hc
    obtain ⟨c'', hc'', hid'', hat''⟩ := ih hc'
    exact ⟨c'', hc'', hid''.trans hid', hat''.trans hat'⟩

/-- What a snapshot shows as not repaired is not repaired. -/
theorem unrepaired_of_view {t : Txn (Write R)} {r : AssetCluster R} {id : String}
    (hr : r ∈ (viewOf s t).assetCluster) (hid : r.clusterId = id) (hnone : r.repairedAt = none) :
    Unrepaired s id := by
  intro c hc hcid
  have hkept : ∃ c' ∈ (viewOf s t).assetCluster, c'.clusterId = c.clusterId ∧
      c'.repairedAt = c.repairedAt := by
    cases t with
    | active p => exact exists_row_applyAll hc
    | auto => exact ⟨c, hc, rfl, rfl⟩
    | aborted => exact ⟨c, hc, rfl, rfl⟩
  obtain ⟨c', hc', hid', hat'⟩ := hkept
  have hsame : c' = r := Table.eq_of_key hc' hr (hid'.trans (hcid.trans hid.symm))
  rw [← hat', hsame]
  exact hnone

/-- An effect leaves a cluster that it does not name, and its links. -/
theorem kept_write (hrow : writtenCluster w ≠ some c.clusterId)
    (hlink : linkTarget w ≠ some c.clusterId) (hc : c ∈ s.assetCluster) :
    c ∈ (s.write w).assetCluster ∧ ∀ l, l.clusterId = c.clusterId →
      (l ∈ (s.write w).observationClusterLink ↔ l ∈ s.observationClusterLink) := by
  cases w with
  | updateCluster id summary now =>
    have hne : c.clusterId ≠ id := fun heq ↦ hrow (congrArg some heq.symm)
    have hmem := Table.mem_update_of_mem (p := fun r ↦ r.clusterId = id)
      (f := fun r ↦ r.setSummary summary now) (fun _ ↦ rfl) hc
    rw [if_neg (by simpa using hne)] at hmem
    exact ⟨hmem, fun _ _ ↦ Iff.rfl⟩
  | insertCluster row => exact ⟨Table.mem_insertNew_of_mem _ hc, fun _ _ ↦ Iff.rfl⟩
  | deleteLinks id =>
    refine ⟨hc, ?_⟩
    intro l hl
    have hne : l.clusterId ≠ id := fun heq ↦ hlink (congrArg some (hl ▸ heq).symm)
    simp [Database.write, hne]
  | insertLink row =>
    refine ⟨hc, ?_⟩
    intro l hl
    have hne : l.clusterId ≠ row.clusterId := fun heq ↦ hlink (congrArg some (hl ▸ heq).symm)
    exact mem_write_insertLink_of_ne hne
  | _ => exact ⟨hc, fun _ _ ↦ Iff.rfl⟩

theorem kept_applyAll (hrow : ∀ w ∈ p, writtenCluster w ≠ some c.clusterId)
    (hlink : ∀ w ∈ p, linkTarget w ≠ some c.clusterId) (hc : c ∈ s.assetCluster) :
    c ∈ (applyAll p s).assetCluster ∧ ∀ l, l.clusterId = c.clusterId →
      (l ∈ (applyAll p s).observationClusterLink ↔ l ∈ s.observationClusterLink) := by
  induction p generalizing s with
  | nil => exact ⟨hc, fun _ _ ↦ Iff.rfl⟩
  | cons w p ih =>
    obtain ⟨hc', hlinks⟩ := kept_write (hrow w (List.mem_cons_self ..))
      (hlink w (List.mem_cons_self ..)) hc
    obtain ⟨hc'', hlinks'⟩ := ih (fun w' hw' ↦ hrow w' (List.mem_cons_of_mem _ hw'))
      (fun w' hw' ↦ hlink w' (List.mem_cons_of_mem _ hw')) hc'
    exact ⟨hc'', fun l hl ↦ (hlinks' l hl).trans (hlinks l hl)⟩

/-- Others change no repaired cluster, apart from the time of the repair. -/
theorem frozen_other (u : Other R) (s : Database R) : Frozen s (Effect.apply u s) := by
  intro c hc hrepaired
  cases u with
  | effect w h =>
    have hnone : writtenCluster w = none ∧ linkTarget w = none := by
      cases w <;> first | exact ⟨rfl, rfl⟩ | cases h
    have hkept := kept_write (c := c) (by rw [hnone.1]; exact fun h ↦ by cases h)
      (by rw [hnone.2]; exact fun h ↦ by cases h) hc
    exact ⟨⟨c, hkept.1, rfl, hrepaired, rfl⟩, hkept.2⟩
  | repaired id time =>
    refine ⟨⟨_, mem_markRepaired.mpr ⟨c, hc, rfl⟩, ?_⟩, fun _ _ ↦ Iff.rfl⟩
    split
    · exact ⟨rfl, (fun h ↦ by cases h), rfl⟩
    · exact ⟨rfl, hrepaired, rfl⟩

/-- A repair that does not have to wait is of another cluster. -/
theorem Unrepaired.other {id : String} (h : Unrepaired s id) {u : Other R}
    (hfree : .row id ∉ u.locks) : Unrepaired (Effect.apply u s) id := by
  intro c hc hid
  cases u with
  | effect w hw =>
    rcases origin_write (w := w) hc with ⟨u, hu, hid', hat⟩ | rfl
    · exact hat.symm.trans (h u hu (hid'.trans hid))
    · cases hw
  | repaired id' time =>
    obtain ⟨u, hu, rfl⟩ := mem_markRepaired.mp hc
    have hne : id ≠ id' := fun heq ↦ hfree (List.mem_singleton.mpr (congrArg _ heq))
    by_cases hu' : u.clusterId = id'
    · rw [if_pos (decide_eq_true hu')] at hid
      exact absurd (hid.symm.trans hu') hne
    · rw [if_neg (by simpa using hu')] at hid ⊢
      exact h u hu hid

end Effects

/-! ### Transactions of the job -/

/-- What a statement of the job may do. A transaction changes the links only of clusters that it
has written, inserts clusters that are not repaired under ids that its snapshot does not have, and
updates clusters that were not repaired at its last request; outside a transaction nothing is
changed. -/
def Disciplined (last view : Database R) : Txn (Write R) → List (Write R) → Prop
  | .active p, ws => (∀ w ∈ ws, ∀ id, linkTarget w = some id → id ∈ writtenClusters p) ∧
      (∀ row, .insertCluster row ∈ ws →
        row.repairedAt = none ∧ ¬view.assetCluster.HasKey row.clusterId) ∧
      ∀ id summary now, .updateCluster id summary now ∈ ws → Unrepaired last id
  | _, ws => ws = []

/-- Others may change anything, and every request may fail. -/
def clusterEnv : Surroundings (Database R) (Write R) where
  rely := fun _ _ ↦ True
  made := Disciplined
  fails := fun _ ↦ True

/-- What an open transaction may commit on a state. -/
structure Sound (s : Database R) (p : List (Write R)) : Prop where
  updated : ∀ id summary now, .updateCluster id summary now ∈ p → Unrepaired s id
  inserted : ∀ row, .insertCluster row ∈ p →
    row.repairedAt = none ∧ ¬s.assetCluster.HasKey row.clusterId
  linked : ∀ w ∈ p, ∀ id, linkTarget w = some id → id ∈ writtenClusters p

section Sound

variable {s : Database R} {p q ws : List (Write R)}

theorem sound_nil (s : Database R) : Sound s [] where
  updated := fun _ _ _ h ↦ absurd h List.not_mem_nil
  inserted := fun _ h ↦ absurd h List.not_mem_nil
  linked := fun _ h ↦ absurd h List.not_mem_nil

/-- A cluster whose row is written is not repaired. -/
theorem Sound.unrepaired (h : Sound s p) {w : Write R} (hw : w ∈ p) {id : String}
    (hid : writtenCluster w = some id) : Unrepaired s id := by
  cases w with
  | updateCluster id' summary now =>
    cases hid
    exact h.updated _ _ _ hw
  | insertCluster row =>
    cases hid
    intro c hc hcid
    exact absurd (hcid ▸ Table.hasKey_of_mem hc) (h.inserted row hw).2
  | _ => cases hid

/-- The commit changes no repaired cluster. -/
theorem Sound.frozen (h : Sound s p) : Frozen s (applyAll p s) := by
  intro c hc hrepaired
  have hrow : ∀ w ∈ p, writtenCluster w ≠ some c.clusterId :=
    fun w hw hid ↦ hrepaired (h.unrepaired hw hid c hc rfl)
  have hlink : ∀ w ∈ p, linkTarget w ≠ some c.clusterId := by
    intro w hw hid
    obtain ⟨w', hw', hid'⟩ := List.mem_filterMap.mp (h.linked w hw _ hid)
    exact hrow w' hw' hid'
  obtain ⟨hkept, hlinks⟩ := kept_applyAll hrow hlink hc
  exact ⟨⟨c, hkept, rfl, hrepaired, rfl⟩, hlinks⟩

/-- One statement more. -/
theorem Sound.push {last : Database R} (h : Sound s p)
    (hmade : Disciplined last (applyAll p s) (.active p) ws)
    (hupdates : ∀ id summary now, .updateCluster id summary now ∈ ws → Unrepaired s id) :
    Sound s (p ++ ws) where
  updated := by
    intro id summary now hw
    rcases List.mem_append.mp hw with hw | hw
    · exact h.updated id summary now hw
    · exact hupdates id summary now hw
  inserted := by
    intro row hrow
    rcases List.mem_append.mp hrow with hrow | hrow
    · exact h.inserted row hrow
    · obtain ⟨hat, hfree⟩ := hmade.2.1 row hrow
      exact ⟨hat, fun hkey ↦ hfree (hasKey_applyAll hkey)⟩
  linked := by
    intro w hw id hid
    rw [writtenClusters_append, List.mem_append]
    rcases List.mem_append.mp hw with hw | hw
    · exact .inl (h.linked w hw id hid)
    · exact .inl (hmade.1 w hw id hid)

/-- What a transaction of the job commits repairs nothing. -/
theorem Unrepaired.applyAll {id : String} (h : Unrepaired s id) (hq : Sound s q) :
    Unrepaired (Sql.applyAll q s) id := by
  intro c hc hid
  rcases origin_applyAll hc with ⟨u, hu, hid', hat⟩ | ⟨row, hrow, _, hat⟩
  · exact hat.symm.trans (h u hu (hid'.trans hid))
  · exact hat.symm.trans (hq.inserted row hrow).1

/-- Another transaction of the job commits, and takes no id that this one has taken. -/
theorem Sound.commit (h : Sound s p) (hq : Sound s q)
    (hfree : ∀ l ∈ q.flatMap clusterLocks, l ∉ p.flatMap clusterLocks) :
    Sound (applyAll q s) p where
  updated := fun id summary now hw ↦ (h.updated id summary now hw).applyAll hq
  inserted := by
    intro row hrow
    obtain ⟨hat, hnew⟩ := h.inserted row hrow
    refine ⟨hat, fun hkey ↦ ?_⟩
    obtain ⟨c, hc, hid⟩ := Table.hasKey_iff.mp hkey
    rcases origin_applyAll hc with ⟨u, hu, hid', _⟩ | ⟨row', hrow', hid', _⟩
    · exact hnew (Table.hasKey_iff.mpr ⟨u, hu, hid'.trans hid⟩)
    · refine hfree (.newKey row.clusterId) ?_ ?_
      · exact List.mem_flatMap.mpr ⟨_, hrow', List.mem_singleton.mpr
          (congrArg ClusterLock.newKey (hid'.trans hid).symm)⟩
      · exact List.mem_flatMap.mpr ⟨_, hrow, List.mem_singleton_self _⟩
  linked := h.linked

/-- Others commit what does not have to wait. -/
theorem Sound.other (h : Sound s p) {u : Other R}
    (hfree : ∀ l ∈ u.locks, l ∉ p.flatMap clusterLocks) : Sound (Effect.apply u s) p where
  updated := by
    intro id summary now hw
    refine (h.updated id summary now hw).other (fun hl ↦ hfree _ hl ?_)
    exact List.mem_flatMap.mpr ⟨_, hw, List.mem_singleton_self _⟩
  inserted := by
    intro row hrow
    obtain ⟨hat, hnew⟩ := h.inserted row hrow
    exact ⟨hat, fun hkey ↦ hnew (((elsewhere_apply u s).hasKey _).mp hkey)⟩
  linked := h.linked

end Sound

/-! ### The statements of a run -/

/-- The transaction has not ended, and has written these clusters if it is open. -/
structure Within (ids : List String) (t : Txn (Write R)) : Prop where
  started : t ≠ .auto
  wrote : ∀ p, t = .active p → ∀ id ∈ ids, id ∈ writtenClusters p

section Within

variable {last view : Database R} {ids : List String} {t t' : Txn (Write R)} {w : Write R}

theorem clusterEnv_made_nil : clusterEnv.made last view t [] := by
  cases t with
  | active p =>
    exact ⟨fun _ h ↦ absurd h List.not_mem_nil, fun _ h ↦ absurd h List.not_mem_nil,
      fun _ _ _ h ↦ absurd h List.not_mem_nil⟩
  | _ => rfl

theorem within_begin : Within (R := R) [] (.active []) where
  started := fun h ↦ by cases h
  wrote := fun _ _ _ h ↦ absurd h List.not_mem_nil

theorem Within.weaken (h : Within ids t) : Within [] t where
  started := h.started
  wrote := fun _ _ _ h ↦ absurd h List.not_mem_nil

theorem Within.push (h : Within ids t) (ws : List (Write R)) : Within ids (t.push ws) := by
  cases t with
  | auto => exact absurd rfl h.started
  | aborted => exact h
  | active p =>
    refine ⟨(fun h ↦ by cases h), ?_⟩
    intro p' heq id hid
    cases heq
    rw [writtenClusters_append]
    exact List.mem_append_left _ (h.wrote p rfl id hid)

/-- The clusters that the effect has written. -/
theorem Within.wrote_push {new : List String} (h : Within ids t)
    (hnew : ∀ id ∈ new, writtenCluster w = some id) : Within new (t.push [w]) := by
  cases t with
  | auto => exact absurd rfl h.started
  | aborted => exact ⟨h.started, fun p heq ↦ by cases heq⟩
  | active p =>
    refine ⟨(fun h ↦ by cases h), ?_⟩
    intro p' heq id hid
    cases heq
    rw [writtenClusters_append]
    exact List.mem_append_right _
      (List.mem_filterMap.mpr ⟨w, List.mem_singleton_self _, hnew id hid⟩)

theorem Within.still (h : Within ids t) (hstill : StillIn t t') : Within ids t' := by
  cases hstill with
  | refl => exact h
  | abort p => exact ⟨(fun h ↦ by cases h), fun p heq ↦ by cases heq⟩

theorem Within.disciplined (h : Within ids t) (ht : t ≠ .aborted)
    (hlink : ∀ id, linkTarget w = some id → id ∈ ids)
    (hinsert : ∀ row, w = .insertCluster row →
      row.repairedAt = none ∧ ¬view.assetCluster.HasKey row.clusterId)
    (hupdate : ∀ id summary now, w = .updateCluster id summary now → Unrepaired last id) :
    Disciplined last view t [w] := by
  cases t with
  | auto => exact absurd rfl h.started
  | aborted => exact absurd rfl ht
  | active p =>
    refine ⟨?_, fun row hrow ↦ hinsert row (List.mem_singleton.mp hrow).symm,
      fun id summary now hw ↦ hupdate id summary now (List.mem_singleton.mp hw).symm⟩
    intro w' hw' id hid
    cases List.mem_singleton.mp hw'
    exact h.wrote p rfl id (hlink id hid)

/-- A statement with one effect, on links of clusters that have been written. -/
theorem under_effect {l : Statement} {stmt : Database R → Except PgError (List (Write R))}
    {s : Database R} (new : List String) (h : Within ids t)
    (hstmt : ∀ s' ws, stmt s' = .ok ws → ∃ w, ws = [w] ∧
      (∀ id, linkTarget w = some id → id ∈ ids) ∧ (∀ id ∈ new, writtenCluster w = some id) ∧
      (∀ row, w = .insertCluster row →
        row.repairedAt = none ∧ ¬s'.assetCluster.HasKey row.clusterId) ∧
      ∀ id summary now, w = .updateCluster id summary now → Unrepaired s id) :
    (Prog.execute l stmt : DbProg R Unit).Under clusterEnv
      (fun r t' _ ↦ Within ids t' ∧ (r = .ok () → Within new t')) t s := by
  refine Prog.under_execute ?_ ?_ ?_
  · intro s' ws _ ht hws
    obtain ⟨w, rfl, hlink, _, hinsert, hupdate⟩ := hstmt _ ws hws
    exact h.disciplined ht hlink hinsert hupdate
  · intro s' ws _ _ hws
    obtain ⟨w, rfl, _, hnew, _⟩ := hstmt _ ws hws
    exact ⟨h.push [w], fun _ ↦ h.wrote_push hnew⟩
  · intro s' e t' _ _ hstill
    exact ⟨h.still hstill, fun he ↦ by cases he⟩

/-- A statement whose one effect is always the same, and writes no cluster. -/
theorem under_constant {l : Statement} {s : Database R} (h : Within ids t)
    (hlink : ∀ id, linkTarget w = some id → id ∈ ids) (hrow : writtenCluster w = none) :
    (Prog.execute l (fun _ ↦ .ok [w]) : DbProg R Unit).Under clusterEnv
      (fun _ t' _ ↦ Within ids t') t s := by
  refine Prog.under_mono (under_effect [] h ?_) (fun _ _ _ h ↦ h.1)
  intro s' ws hws
  cases hws
  refine ⟨w, rfl, hlink, fun _ h ↦ absurd h List.not_mem_nil, ?_, ?_⟩
  · rintro row rfl
    cases hrow
  · rintro id summary now rfl
    cases hrow

end Within

section Job

variable [Field R] [LinearOrder R] (ext : Externals R) (settings : Settings R)
  (tick : ClusterTick) {ids : List String} {t : Txn (Write R)} {s : Database R}

omit [Field R] [LinearOrder R] in
theorem under_insertLinks {clusterId : String} (hid : clusterId ∈ ids) (ms : List (String × R))
    (h : Within ids t) : (insertLinks clusterId ms).Under clusterEnv
      (fun _ t' _ ↦ Within ids t') t s := by
  induction ms generalizing t s with
  | nil => exact Prog.under_pure h
  | cons m ms ih =>
    rw [insertLinks]
    refine Prog.under_bind (Prog.under_mono (under_constant h ?_ rfl) ?_)
    · intro id heq
      cases heq
      exact hid
    · intro r t' s' hkept
      exact ⟨fun _ _ ↦ ih hkept, fun _ _ ↦ hkept⟩

omit [Field R] in
/-- The row of the cluster that a group takes has been written. -/
theorem under_upsertCluster (matched : List String) (k : Nat) (g : ComputedCluster R)
    (h : Within [] t) : (upsertCluster ext settings tick matched k g).Under clusterEnv
      (fun r t' _ ↦ Within [] t' ∧ ∀ id, r = .ok id → Within [id] t') t s := by
  -- the statement that writes the row, whichever it is
  have hwrite : ∀ {l : Statement} {stmt : Database R → Except PgError (List (Write R))}
      {id : String} {s : Database R} {t : Txn (Write R)}, Within [] t →
      (∀ s' ws, stmt s' = .ok ws → ∃ w, ws = [w] ∧ linkTarget w = none ∧
        writtenCluster w = some id ∧ (∀ row, w = .insertCluster row →
          row.repairedAt = none ∧ ¬s'.assetCluster.HasKey row.clusterId) ∧
        ∀ id summary now, w = .updateCluster id summary now → Unrepaired s id) →
      (do Prog.execute l stmt; pure id : DbProg R String).Under clusterEnv
        (fun r t' _ ↦ Within [] t' ∧ ∀ id, r = .ok id → Within [id] t') t s := by
    intro l stmt id s t h hstmt
    refine Prog.under_bind (Prog.under_mono (under_effect [id] h ?_) ?_)
    · intro s' ws hws
      obtain ⟨w, hw, hlink, hrow, hinsert, hupdate⟩ := hstmt s' ws hws
      refine ⟨w, hw, (fun id' hid' ↦ ?_), ?_, hinsert, hupdate⟩
      · rw [hlink] at hid'
        cases hid'
      · intro id' hid'
        rw [List.mem_singleton.mp hid']
        exact hrow
    · rintro r t' s' ⟨hkept, hnew⟩
      refine ⟨?_, fun _ _ ↦ ⟨hkept, fun id' hid' ↦ by cases hid'⟩⟩
      intro u hu
      refine Prog.under_pure ⟨hkept, fun id' hid' ↦ ?_⟩
      cases hid'
      exact hnew hu
  rw [upsertCluster]
  refine Prog.under_bind (Prog.under_fetch ?_ ?_ ?_)
  · exact fun _ _ ↦ clusterEnv_made_nil
  · intro s₁ existing _ _ hfind
    refine ⟨?_, fun e he ↦ by cases he⟩
    intro existing' heq
    cases heq
    cases existing with
    | some id =>
      refine hwrite h ?_
      intro s' ws hws
      cases hws
      refine ⟨_, rfl, rfl, rfl, (fun row hrow ↦ by cases hrow), ?_⟩
      intro id' summary now heq
      cases heq
      obtain ⟨r, hr, hid, hnone, _⟩ := exists_of_findExisting (Except.ok.inj hfind)
      exact unrepaired_of_view hr hid hnone
    | none =>
      refine hwrite h ?_
      intro s' ws hws
      rw [insertCluster] at hws
      split at hws
      · cases hws
      · next hfree =>
        cases hws
        refine ⟨_, rfl, rfl, rfl, ?_, fun _ _ _ heq ↦ by cases heq⟩
        intro row hrow
        cases hrow
        exact ⟨rfl, hfree⟩
  · intro s₁ e t' _ _ hstill
    exact ⟨(fun b hb ↦ by cases hb), fun _ _ ↦ ⟨h.still hstill, fun id hid ↦ by cases hid⟩⟩

omit [Field R] in
theorem under_upsertClusters (matched : List String) (k : Nat) (cs : List (ComputedCluster R))
    (h : Within [] t) : (upsertClusters ext settings tick matched k cs).Under clusterEnv
      (fun _ t' _ ↦ Within [] t') t s := by
  induction cs generalizing matched k t s with
  | nil => exact Prog.under_pure h
  | cons g cs ih =>
    rw [upsertClusters]
    refine Prog.under_bind (Prog.under_mono
      (under_upsertCluster ext settings tick matched k g h) ?_)
    rintro r t₁ s₁ ⟨hkept₁, htaken⟩
    refine ⟨?_, fun _ _ ↦ hkept₁⟩
    intro id hr
    refine Prog.under_bind (Prog.under_mono
      (under_constant (htaken id hr) ?_ rfl) ?_)
    · intro id' heq
      cases heq
      exact List.mem_singleton_self _
    · intro r₂ t₂ s₂ hkept₂
      refine ⟨fun _ _ ↦ ?_, fun _ _ ↦ hkept₂.weaken⟩
      refine Prog.under_bind (Prog.under_mono
        (under_insertLinks (List.mem_singleton_self id) _ hkept₂) ?_)
      intro r₃ t₃ s₃ hkept₃
      exact ⟨fun _ _ ↦ ih _ _ hkept₃.weaken, fun _ _ ↦ hkept₃.weaken⟩

theorem under_clusterTransaction (stats : MemberStats R) (meanLat : R)
    (cs : List (ComputedCluster R)) (h : Within [] t) :
    (clusterTransaction ext settings tick stats meanLat cs).Under clusterEnv
      (fun _ t' _ ↦ Within [] t') t s := by
  rw [clusterTransaction]
  generalize newClusterRun tick.runId _ stats.n tick.now = row
  refine Prog.under_bind (Prog.under_mono (under_effect [] h ?_) ?_)
  · intro s' ws hws
    rw [insertClusterRun] at hws
    split at hws
    · cases hws
    · cases hws
      exact ⟨_, rfl, (fun id hid ↦ by cases hid), fun _ h ↦ absurd h List.not_mem_nil,
        (fun row hrow ↦ by cases hrow), fun _ _ _ heq ↦ by cases heq⟩
  rintro r t₁ s₁ ⟨hkept₁, _⟩
  refine ⟨fun _ _ ↦ ?_, fun _ _ ↦ hkept₁⟩
  refine Prog.under_bind (Prog.under_mono
    (under_upsertClusters ext settings tick [] 0 cs hkept₁) ?_)
  intro r₂ t₂ s₂ hkept₂
  refine ⟨fun _ _ ↦ ?_, fun _ _ ↦ hkept₂⟩
  exact under_constant hkept₂ (fun _ h ↦ by cases h) rfl

/-- Outside its transaction a run changes nothing. -/
theorem under_clusterBody : (clusterBody ext settings tick).Under clusterEnv
    (fun _ _ _ ↦ True) .auto s := by
  rw [clusterBody]
  refine Prog.under_bind (Prog.under_fetch ?_ ?_ ?_)
  · exact fun _ _ ↦ clusterEnv_made_nil
  · intro s₁ stats _ _ _
    refine ⟨?_, fun _ _ ↦ trivial⟩
    intro stats' heq
    cases heq
    split
    · exact Prog.under_pure trivial
    · split
      · exact Prog.under_raise trivial
      · next meanLat _ =>
        refine Prog.under_bind (Prog.under_fetch ?_ ?_ ?_)
        · exact fun _ _ ↦ clusterEnv_made_nil
        · intro s₂ cs _ _ _
          refine ⟨?_, fun _ _ ↦ trivial⟩
          intro cs' heq
          cases heq
          refine Prog.under_bind (Prog.under_transaction ?_ ?_)
          · exact fun _ _ _ _ _ ↦ ⟨(fun b hb ↦ by cases hb), fun _ _ ↦ trivial⟩
          · intro s₃ _
            refine Prog.under_mono
              (under_clusterTransaction ext settings tick stats meanLat cs within_begin) ?_
            intro r t' s₄ _ s₅ _
            refine ⟨fun a _ ↦ ⟨fun _ _ ↦ Prog.under_pure trivial, fun _ _ ↦ trivial⟩, ?_⟩
            exact fun e _ ↦ ⟨(fun b hb ↦ by cases hb), fun _ _ ↦ trivial⟩
        · intro s₂ e t' _ _ _
          exact ⟨(fun b hb ↦ by cases hb), fun _ _ ↦ trivial⟩
  · intro s₁ e t' _ _ _
    exact ⟨(fun b hb ↦ by cases hb), fun _ _ ↦ trivial⟩

/-- Every statement of a run is disciplined, whatever happens between its statements. -/
theorem under_runClusterJob : (runClusterJob ext settings tick).Under clusterEnv
    (fun _ _ _ ↦ True) .auto s := by
  have hlock : ∀ {l : Statement} {Q : Except Exn Unit → Txn (Write R) → Database R → Prop}
      {t : Txn (Write R)} {s : Database R}, (∀ s', Q (.ok ()) t s') →
      (∀ e t' s', StillIn t t' → Q (.error e) t' s') →
      (Prog.execute l (fun _ ↦ .ok []) : DbProg R Unit).Under clusterEnv Q t s := by
    intro l Q t s hok herr
    refine Prog.under_execute ?_ ?_ ?_
    · intro s' ws _ _ hws
      cases hws
      exact clusterEnv_made_nil
    · intro s' ws _ _ hws
      cases hws
      rw [Txn.push_nil]
      exact hok _
    · exact fun s' e t' _ _ hstill ↦ herr e t' s' hstill
  rw [runClusterJob]
  refine Prog.under_bind (hlock ?_ ?_)
  · intro s₁
    refine ⟨fun _ _ ↦ ?_, fun _ _ ↦ trivial⟩
    split
    · refine Prog.under_tryFinally (Prog.under_mono (under_clusterBody ext settings tick) ?_)
      intro r t' s' _
      exact hlock (fun _ ↦ ⟨fun _ ↦ trivial, fun _ _ ↦ trivial⟩)
        (fun _ _ _ _ ↦ ⟨fun _ ↦ trivial, fun _ _ ↦ trivial⟩)
    · exact Prog.under_pure trivial
  · exact fun e t' s' _ ↦ ⟨(fun _ hb ↦ by cases hb), fun _ _ ↦ trivial⟩

end Job

end PotholeServer.Cluster
