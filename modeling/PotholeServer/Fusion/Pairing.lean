import PotholeServer.Fusion.Job

/-!
# What the pairing query returns

The query returns, for each frame of the batch, the nearest observation of its device inside
the window, if there is one. Client ids break every tie, so the nearest observation is unique
and neither the physical row order nor the rest of the batch matters.
-/

namespace PotholeServer.Fusion

open Sql Db

variable {R : Type}

theorem clientId_of_nearness {ext : Externals R} {f : AssetFrame R} {o o' : AssetObservation R}
    (h : nearness ext f o = nearness ext f o') : o.clientId = o'.clientId := by
  have hid := congrArg (fun k ↦ (ofLex (ofLex k).2).2) h
  exact hid

/-! ### Reports -/

/-- The columns of an observation that never change. -/
structure SameReport (o o' : AssetObservation R) : Prop where
  clientId : o'.clientId = o.clientId
  deviceId : o'.deviceId = o.deviceId
  tsUtc : o'.tsUtc = o.tsUtc
  geom : o'.geom = o.geom

/-- The columns of a frame that the pairing query compares. -/
structure SameFrame (f f' : AssetFrame R) : Prop where
  clientId : f'.clientId = f.clientId
  deviceId : f'.deviceId = f.deviceId
  tsUtc : f'.tsUtc = f.tsUtc
  geom : f'.geom = f.geom

section Reports

variable {f f' f'' : AssetFrame R} {o o' o'' : AssetObservation R}

theorem SameReport.refl (o : AssetObservation R) : SameReport o o := ⟨rfl, rfl, rfl, rfl⟩

theorem SameReport.trans (h : SameReport o o') (h' : SameReport o' o'') : SameReport o o'' :=
  ⟨h'.clientId.trans h.clientId, h'.deviceId.trans h.deviceId, h'.tsUtc.trans h.tsUtc,
    h'.geom.trans h.geom⟩

theorem SameReport.symm (h : SameReport o o') : SameReport o' o :=
  ⟨h.clientId.symm, h.deviceId.symm, h.tsUtc.symm, h.geom.symm⟩

theorem SameFrame.refl (f : AssetFrame R) : SameFrame f f := ⟨rfl, rfl, rfl, rfl⟩

theorem SameFrame.symm (h : SameFrame f f') : SameFrame f' f :=
  ⟨h.clientId.symm, h.deviceId.symm, h.tsUtc.symm, h.geom.symm⟩

theorem SameFrame.trans (h : SameFrame f f') (h' : SameFrame f' f'') : SameFrame f f'' :=
  ⟨h'.clientId.trans h.clientId, h'.deviceId.trans h.deviceId, h'.tsUtc.trans h.tsUtc,
    h'.geom.trans h.geom⟩

theorem SameReport.joins [LinearOrder R] {ext : Externals R} {settings : Settings R}
    (hf : SameFrame f f') (h : SameReport o o') :
    joins ext settings f' o' = joins ext settings f o := by
  unfold Fusion.joins
  rw [h.deviceId, h.geom, h.tsUtc, hf.deviceId, hf.geom, hf.tsUtc]

theorem SameReport.nearness {ext : Externals R} (hf : SameFrame f f') (h : SameReport o o') :
    nearness ext f' o' = nearness ext f o := by
  unfold Fusion.nearness
  rw [h.clientId, h.geom, h.tsUtc, hf.geom, hf.tsUtc]

end Reports

/-! ### The nearest observation -/

section Nearest

variable [LinearOrder R] (ext : Externals R) (settings : Settings R)

/-- The least candidate of a frame in the order `(|time difference|, distance, client_id)`. -/
structure IsNearest (f : AssetFrame R) (observations : List (AssetObservation R))
    (o : AssetObservation R) : Prop where
  mem : o ∈ observations
  joins : joins ext settings f o = true
  least : ∀ o' ∈ observations, Fusion.joins ext settings f o' = true →
    nearness ext f o ≤ nearness ext f o'

/-- The first candidate of a frame in the order `(|time difference|, distance, client_id)`. -/
def nearest (observations : List (AssetObservation R)) (f : AssetFrame R) :
    Option (AssetObservation R) :=
  (orderBy (nearness ext f) (candidatesOf ext settings f observations)).head?

variable {ext settings} {f : AssetFrame R}

/-- Two nearest observations of a frame have the same client id. -/
theorem IsNearest.clientId_eq {os : List (AssetObservation R)} {o o' : AssetObservation R}
    (h : IsNearest ext settings f os o) (h' : IsNearest ext settings f os o') :
    o.clientId = o'.clientId :=
  clientId_of_nearness (le_antisymm (h.least o' h'.mem h'.joins) (h'.least o h.mem h.joins))

/-- The nearest observation of a table is unique. -/
theorem IsNearest.unique {t : Table (AssetObservation R)} {o o' : AssetObservation R}
    (h : IsNearest ext settings f t.rows o) (h' : IsNearest ext settings f t.rows o') : o = o' :=
  Table.eq_of_key h.mem h'.mem (h.clientId_eq h')

/-- The first candidate in the order is the nearest observation. -/
theorem isNearest_of_nearest {os : List (AssetObservation R)} {o : AssetObservation R}
    (h : nearest ext settings os f = some o) : IsNearest ext settings f os o := by
  have hmem : ∀ x, x ∈ orderBy (nearness ext f) (candidatesOf ext settings f os) ↔
      x ∈ os ∧ joins ext settings f x = true := by
    intro x
    rw [mem_orderBy, candidatesOf, List.mem_filter]
  have hpair := orderBy_pairwise (nearness ext f) (candidatesOf ext settings f os)
  unfold nearest at h
  cases hsorted : orderBy (nearness ext f) (candidatesOf ext settings f os) with
  | nil =>
    rw [hsorted] at h
    cases h
  | cons x rest =>
    rw [hsorted] at hmem hpair h
    cases h
    have hfirst := (hmem o).mp (List.mem_cons_self ..)
    refine ⟨hfirst.1, hfirst.2, ?_⟩
    intro o' ho' hj'
    rcases List.mem_cons.mp ((hmem o').mpr ⟨ho', hj'⟩) with rfl | hrest
    · exact le_refl _
    · exact List.rel_of_pairwise_cons hpair hrest

/-- A frame with a candidate has a nearest one. -/
theorem exists_nearest {os : List (AssetObservation R)} {o : AssetObservation R} (ho : o ∈ os)
    (hj : joins ext settings f o = true) : ∃ o', nearest ext settings os f = some o' := by
  have hmem : o ∈ orderBy (nearness ext f) (candidatesOf ext settings f os) := by
    rw [mem_orderBy, candidatesOf, List.mem_filter]
    exact ⟨ho, hj⟩
  unfold nearest
  cases hsorted : orderBy (nearness ext f) (candidatesOf ext settings f os) with
  | nil =>
    rw [hsorted] at hmem
    cases hmem
  | cons x rest => exact ⟨x, rfl⟩

/-- In a table the two descriptions of the nearest observation agree. -/
theorem nearest_eq_some {t : Table (AssetObservation R)} {o : AssetObservation R} :
    nearest ext settings t.rows f = some o ↔ IsNearest ext settings f t.rows o := by
  constructor
  · exact isNearest_of_nearest
  · intro h
    obtain ⟨o', ho'⟩ := exists_nearest h.mem h.joins
    rw [ho', (isNearest_of_nearest ho').unique h]

/-- The nearest report is nearest among any of the reports that include it. -/
theorem IsNearest.of_sameReport {f' : AssetFrame R} {os os' : List (AssetObservation R)}
    {o o' : AssetObservation R} (h : IsNearest ext settings f os o) (hf : SameFrame f f')
    (hos : ∀ a' ∈ os', ∃ a ∈ os, SameReport a a') (ho' : o' ∈ os') (hs : SameReport o o') :
    IsNearest ext settings f' os' o' := by
  refine ⟨ho', (SameReport.joins hf hs).trans h.joins, ?_⟩
  intro a' ha' hja'
  obtain ⟨a, ha, hsa⟩ := hos a' ha'
  rw [SameReport.nearness hf hs, SameReport.nearness hf hsa]
  exact h.least a ha ((SameReport.joins hf hsa).symm.trans hja')

/-- Being nearest is a matter of which observations there are. -/
theorem isNearest_congr {os os' : List (AssetObservation R)} (h : ∀ o, o ∈ os ↔ o ∈ os')
    {o : AssetObservation R} : IsNearest ext settings f os o ↔ IsNearest ext settings f os' o := by
  constructor
  · intro hn
    exact ⟨(h o).mp hn.mem, hn.joins, fun o' ho' ↦ hn.least o' ((h o').mpr ho')⟩
  · intro hn
    exact ⟨(h o).mpr hn.mem, hn.joins, fun o' ho' ↦ hn.least o' ((h o').mp ho')⟩

/-- The row numbered 1 is the nearest candidate. -/
theorem mem_filter_rowNumber {os : List (AssetObservation R)} {o : AssetObservation R} :
    o ∈ (candidatesOf ext settings f os).filter
        (fun o ↦ rowNumber (nearness ext f) (candidatesOf ext settings f os) o = 1) ↔
      IsNearest ext settings f os o := by
  rw [List.mem_filter, decide_eq_true_eq, rowNumber_eq_one, candidatesOf, List.mem_filter]
  constructor
  · rintro ⟨⟨ho, hj⟩, hleast⟩
    exact ⟨ho, hj, fun o' ho' hj' ↦ hleast o' (List.mem_filter.mpr ⟨ho', hj'⟩)⟩
  · rintro ⟨ho, hj, hleast⟩
    exact ⟨⟨ho, hj⟩, fun o' ho' ↦ hleast o' (List.mem_filter.mp ho').1 (List.mem_filter.mp ho').2⟩

variable {ids : List String} {db : Database R}

/-- The rows of `_PAIRING_SQL`: each frame of the batch with its nearest observation. -/
theorem mem_pairing {r : Candidate R} :
    r ∈ pairing ext settings ids db ↔ ∃ f ∈ db.assetFrame, f.clientId ∈ ids ∧
      ∃ o, IsNearest ext settings f db.assetObservation.rows o ∧ candidate ext f o = r := by
  unfold pairing
  rw [List.mem_flatMap]
  constructor
  · rintro ⟨f, hf, hr⟩
    rw [List.mem_filter, decide_eq_true_eq] at hf
    obtain ⟨o, ho, rfl⟩ := List.mem_map.mp hr
    exact ⟨f, hf.1, hf.2, o, mem_filter_rowNumber.mp ho, rfl⟩
  · rintro ⟨f, hf, hid, o, ho, rfl⟩
    refine ⟨f, List.mem_filter.mpr ⟨hf, decide_eq_true hid⟩, ?_⟩
    exact List.mem_map.mpr ⟨o, mem_filter_rowNumber.mpr ho, rfl⟩

/-- No frame appears twice among the rows. -/
theorem pairing_frames_nodup :
    ((pairing ext settings ids db).map (fun r ↦ r.frameClientId)).Nodup := by
  unfold pairing
  rw [List.nodup_iff_pairwise_ne, List.pairwise_map, List.pairwise_flatMap]
  constructor
  · -- the rows of one frame are equal, because its nearest observation is unique
    intro f _
    rw [List.pairwise_map]
    have hnodup := (db.assetObservation.rows_nodup.filter (joins ext settings f)).filter
      (fun o ↦ rowNumber (nearness ext f)
        (candidatesOf ext settings f db.assetObservation.rows) o = 1)
    refine List.Pairwise.imp_of_mem ?_ hnodup
    intro o o' ho ho' hne
    have hn := mem_filter_rowNumber.mp ho
    exact absurd (hn.unique (mem_filter_rowNumber.mp ho')) hne
  · -- the rows of two frames carry their client ids
    have hkeys := (List.filter_sublist (p := fun f ↦ f.clientId ∈ ids)).map key |>.nodup
      db.assetFrame.keysNodup
    rw [List.nodup_iff_pairwise_ne, List.pairwise_map] at hkeys
    refine hkeys.imp ?_
    intro f f' hne r hr r' hr'
    obtain ⟨o, _, rfl⟩ := List.mem_map.mp hr
    obtain ⟨o', _, rfl⟩ := List.mem_map.mp hr'
    exact hne

end Nearest

end PotholeServer.Fusion
