import PotholeServer.Ingest.Delivery
import PotholeServer.Pipeline.History
import PotholeServer.Sql.Ledger

/-!
# From the evidence to the map

What devices have sent and which models were stored is evidence, and stays. Scores, pairs and the
links of clusters are derived from it. With any number of uploads, fusion ticks and clustering runs
at a time, whatever the row locks, and with failures and lost connections, every derived value in
the database can be computed again from the evidence that is there.
-/

namespace PotholeServer.Pipeline

open Sql Db Sensor Fusion Cluster Ingest

variable {R : Type}

/-! ### Evidence -/

/-- An observation as it was ingested, without scores. -/
def unscored (o : AssetObservation R) : AssetObservation R :=
  { o with
    sensorClass := none
    sensorPPothole := none
    sensorSeverity := none
    sensorIsOutlier := none
    sensorModelVersion := none
    scoredAt := none }

/-- A frame without its mark. -/
def unmarked (f : AssetFrame R) : AssetFrame R := { f with processedAt := none }

/-- The observations are the same but for the scores. -/
def SameReported (o o' : AssetObservation R) : Prop := unscored o' = unscored o

/-- The frames are the same but for the mark. -/
def SameTaken (f f' : AssetFrame R) : Prop := unmarked f' = unmarked f

/-- The rows hold the same model. -/
def SameModel (r r' : SensorModelRow R) : Prop := r'.model = r.model

theorem SameReported.refl (o : AssetObservation R) : SameReported o o := rfl

theorem SameTaken.refl (f : AssetFrame R) : SameTaken f f := rfl

theorem SameModel.refl (r : SensorModelRow R) : SameModel r r := rfl

theorem sameReported_setScores (scores : Scores R) (now : DateTime) (o : AssetObservation R) :
    SameReported o (o.setScores scores now) := rfl

theorem sameTaken_mark (now : DateTime) (f : AssetFrame R) :
    SameTaken f { f with processedAt := some now } := rfl

/-- An observation or a frame as it was ingested, or a model as it was saved. -/
inductive Fact (R : Type) where
  | observation (o : AssetObservation R)
  | frame (f : AssetFrame R)
  | model (m : SensorModel R)

/-- The database shows the fact. -/
def Shows (db : Database R) : Fact R → Prop
  | .observation o => ∃ o' ∈ db.assetObservation, unscored o' = o
  | .frame f => ∃ f' ∈ db.assetFrame, unmarked f' = f
  | .model m => ∃ r ∈ db.sensorModel, r.model = m

/-- The evidence in a database. -/
def evidence (db : Database R) : Set (Fact R) := {x | Shows db x}

section Evidence

variable {db db' : Database R}

theorem observation_mem {o : AssetObservation R} (h : o ∈ db.assetObservation) :
    .observation (unscored o) ∈ evidence db := ⟨o, h, rfl⟩

theorem frame_mem {f : AssetFrame R} (h : f ∈ db.assetFrame) :
    .frame (unmarked f) ∈ evidence db := ⟨f, h, rfl⟩

theorem model_mem {m : SensorModel R} (h : Fusion.loadActiveModel db = some m) :
    .model m ∈ evidence db := by
  rw [Fusion.loadActiveModel, Option.map_eq_some_iff] at h
  obtain ⟨r, hr, rfl⟩ := h
  exact ⟨r, List.mem_of_find?_eq_some hr, rfl⟩

/-- A database with the rows of another one, as ingested, has its evidence. -/
theorem evidence_subset
    (hobservation : db.assetObservation.Retains SameReported db'.assetObservation)
    (hframe : db.assetFrame.Retains SameTaken db'.assetFrame)
    (hmodel : db.sensorModel.Retains SameModel db'.sensorModel) : evidence db ⊆ evidence db' := by
  intro x hx
  cases x with
  | observation o =>
    obtain ⟨o', ho', rfl⟩ := hx
    exact hobservation o' ho'
  | frame f =>
    obtain ⟨f', hf', rfl⟩ := hx
    exact hframe f' hf'
  | model m =>
    obtain ⟨r, hr, rfl⟩ := hx
    exact hmodel r hr

/-- No effect takes evidence away. -/
theorem evidence_write (w : Write R) (db : Database R) : evidence db ⊆ evidence (db.write w) := by
  cases w with
  | insertObservation row =>
    refine evidence_subset ?_ ?_ ?_
    · exact Table.retains_insertNew SameReported.refl _ _
    · exact .refl SameTaken.refl _
    · exact .refl SameModel.refl _
  | insertFrame row =>
    refine evidence_subset ?_ ?_ ?_
    · exact .refl SameReported.refl _
    · exact Table.retains_insertNew SameTaken.refl _ _
    · exact .refl SameModel.refl _
  | updateScored id scores now =>
    refine evidence_subset ?_ ?_ ?_
    · exact Table.retains_update SameReported.refl (fun o _ ↦ sameReported_setScores scores now o)
        (fun _ ↦ rfl)
    · exact .refl SameTaken.refl _
    · exact .refl SameModel.refl _
  | markProcessed ids now =>
    refine evidence_subset ?_ ?_ ?_
    · exact .refl SameReported.refl _
    · exact Table.retains_update SameTaken.refl (fun f _ ↦ sameTaken_mark now f) (fun _ ↦ rfl)
    · exact .refl SameModel.refl _
  | _ => exact subset_rfl

/-- The effect brings no evidence. -/
def IsDerived : Write R → Prop
  | .insertObservation _ | .insertFrame _ => False
  | _ => True

theorem evidence_of_isDerived {w : Write R} (hw : IsDerived w) (db : Database R) :
    evidence (db.write w) = evidence db := by
  refine Set.Subset.antisymm ?_ (evidence_write w db)
  cases w with
  | insertObservation row => cases hw
  | insertFrame row => cases hw
  | updateScored id scores now =>
    refine evidence_subset ?_ ?_ ?_
    · intro o ho
      obtain ⟨o', ho', hsame⟩ := Table.exists_of_update
        (fun o ↦ (sameReported_setScores scores now o : unscored _ = unscored _)) (fun _ ↦ rfl) ho
      exact ⟨o', ho', hsame⟩
    · exact .refl SameTaken.refl _
    · exact .refl SameModel.refl _
  | markProcessed ids now =>
    refine evidence_subset ?_ ?_ ?_
    · exact .refl SameReported.refl _
    · intro f hf
      obtain ⟨f', hf', hsame⟩ := Table.exists_of_update
        (fun f ↦ (sameTaken_mark now f : unmarked _ = unmarked _)) (fun _ ↦ rfl) hf
      exact ⟨f', hf', hsame⟩
    · exact .refl SameModel.refl _
  | _ => exact subset_rfl

end Evidence

/-! ### Derived values -/

section Derived

variable [Field R] [LinearOrder R] (ext : Externals R) (settings : Settings R)

/-- An observation has no scores, or those that a model in evidence gives to what was reported. -/
def Scored (E : Set (Fact R)) (o : AssetObservation R) : Prop :=
  .observation (unscored o) ∈ E ∧ (o = unscored o ∨ ∃ model res now, .model model ∈ E ∧
    scoreObservation ext model o.magnitude o.accelStd o.gbarInMax o.speedMps = .ok res ∧
    o = (unscored o).setScores (scoresOf model res) now)

/-- A pair is what an engine makes of a frame and of an observation of its device in its window. -/
def Fused (E : Set (Fact R)) (p : FusionPair R) : Prop :=
  ∃ f o model, .frame (unmarked f) ∈ E ∧ Scored ext E o ∧ joins ext settings f o = true ∧
    (∀ m, model = some m → .model m ∈ E) ∧
    p = newPair (getEngine ext settings model) p.fusionRunId p.createdAt (candidate ext f o)

/-- The largest confidence that pairs give to an observation, if it has a pair. -/
def FusedConfidence (E : Set (Fact R)) (id : String) (x : Option R) : Prop :=
  ∀ c, x = some c → ∃ p, Fused ext settings E p ∧ p.eventClientId = id ∧ p.fusedConfidence = c

/-- A link is that of an observation that a model has called a pothole, or that was fused with
enough confidence. -/
def Clustered (E : Set (Fact R)) (l : ObservationClusterLink R) : Prop :=
  l.kind = .observation ∧ ∃ o fused, Scored ext E o ∧ o.clientId = l.memberId ∧
    FusedConfidence ext settings E o.clientId fused ∧
    l.fusedConfidence = max (o.sensorPPothole.getD 0) (fused.getD 0) ∧
    ((o.sensorClass = some .pothole ∧ o.sensorIsOutlier ≠ some true) ∨
      settings.clusterMemberMinConfidence ≤ fused.getD 0)

/-- All derived values can be computed again from the evidence. -/
structure Reproducible (db : Database R) : Prop where
  scored : ∀ o ∈ db.assetObservation, Scored ext (evidence db) o
  fused : ∀ p ∈ db.fusionPair, Fused ext settings (evidence db) p
  clustered : ∀ l ∈ db.observationClusterLink, Clustered ext settings (evidence db) l

/-- The effects that evidence permits. -/
def Permits (E : Set (Fact R)) : Write R → Prop
  | .insertObservation row => row = unscored row
  | .updateScored id scores _ => ∃ model o res, .model model ∈ E ∧ .observation (unscored o) ∈ E ∧
    o.clientId = id ∧
    scoreObservation ext model o.magnitude o.accelStd o.gbarInMax o.speedMps = .ok res ∧
    scores = scoresOf model res
  | .upsertPair row => Fused ext settings E row
  | .insertLink row => Clustered ext settings E row
  | _ => True

variable {ext settings} {E E' : Set (Fact R)} {db db' : Database R}

theorem Scored.mono {o : AssetObservation R} (h : Scored ext E o) (hE : E ⊆ E') :
    Scored ext E' o := by
  obtain ⟨hmem, hscores⟩ := h
  refine ⟨hE hmem, hscores.imp id ?_⟩
  rintro ⟨model, res, now, hmodel, hres, ho⟩
  exact ⟨model, res, now, hE hmodel, hres, ho⟩

theorem Fused.mono {p : FusionPair R} (h : Fused ext settings E p) (hE : E ⊆ E') :
    Fused ext settings E' p := by
  obtain ⟨f, o, model, hf, ho, hjoins, hmodel, hp⟩ := h
  exact ⟨f, o, model, hE hf, ho.mono hE, hjoins, fun m hm ↦ hE (hmodel m hm), hp⟩

theorem FusedConfidence.mono {id : String} {x : Option R}
    (h : FusedConfidence ext settings E id x) (hE : E ⊆ E') :
    FusedConfidence ext settings E' id x := by
  intro c hc
  obtain ⟨p, hp, hid, hconfidence⟩ := h c hc
  exact ⟨p, hp.mono hE, hid, hconfidence⟩

theorem Clustered.mono {l : ObservationClusterLink R} (h : Clustered ext settings E l)
    (hE : E ⊆ E') : Clustered ext settings E' l := by
  obtain ⟨hkind, o, fused, ho, hid, hfused, hconfidence, hmember⟩ := h
  exact ⟨hkind, o, fused, ho.mono hE, hid, hfused.mono hE, hconfidence, hmember⟩

theorem Permits.mono {w : Write R} (hE : E ⊆ E') (h : Permits ext settings E w) :
    Permits ext settings E' w := by
  cases w with
  | updateScored id scores now =>
    obtain ⟨model, o, res, hmodel, ho, hrest⟩ := h
    exact ⟨model, o, res, hE hmodel, hE ho, hrest⟩
  | upsertPair row => exact Fused.mono h hE
  | insertLink row => exact Clustered.mono h hE
  | _ => exact h

theorem reproducible_empty : Reproducible ext settings (Database.empty : Database R) where
  scored := fun o h ↦ absurd h (Table.not_mem_empty o)
  fused := fun p h ↦ absurd h (Table.not_mem_empty p)
  clustered := fun l h ↦ absurd h (Table.not_mem_empty l)

/-- More evidence changes nothing about values that are kept. -/
theorem Reproducible.of_kept (h : Reproducible ext settings db) (hE : evidence db ⊆ evidence db')
    (hobservation : ∀ o ∈ db'.assetObservation, o ∈ db.assetObservation)
    (hpair : ∀ p ∈ db'.fusionPair, p ∈ db.fusionPair)
    (hlink : ∀ l ∈ db'.observationClusterLink, l ∈ db.observationClusterLink) :
    Reproducible ext settings db' where
  scored := fun o ho ↦ (h.scored o (hobservation o ho)).mono hE
  fused := fun p hp ↦ (h.fused p (hpair p hp)).mono hE
  clustered := fun l hl ↦ (h.clustered l (hlink l hl)).mono hE

omit [Field R] [LinearOrder R] in
/-- An observation as ingested belongs to the row of its id. -/
theorem eq_of_observation_mem {o o' : AssetObservation R}
    (h : .observation (unscored o) ∈ evidence db) (ho' : o' ∈ db.assetObservation)
    (hid : o'.clientId = o.clientId) : unscored o' = unscored o := by
  obtain ⟨o'', ho'', heq⟩ := h
  have hid' : (unscored o'').clientId = (unscored o).clientId :=
    congrArg AssetObservation.clientId heq
  rw [← heq, Table.eq_of_key ho' ho'' (hid.trans hid'.symm)]

/-- The raw columns are those that were unscored. -/
theorem scoreObservation_unscored {o o' : AssetObservation R} (h : unscored o' = unscored o)
    (model : SensorModel R) :
    scoreObservation ext model o'.magnitude o'.accelStd o'.gbarInMax o'.speedMps =
      scoreObservation ext model o.magnitude o.accelStd o.gbarInMax o.speedMps := by
  have hmagnitude := congrArg AssetObservation.magnitude h
  have hstd := congrArg AssetObservation.accelStd h
  have hgbar := congrArg AssetObservation.gbarInMax h
  have hspeed := congrArg AssetObservation.speedMps h
  simp only [unscored] at hmagnitude hstd hgbar hspeed
  rw [hmagnitude, hstd, hgbar, hspeed]

theorem Reproducible.write {w : Write R} (h : Reproducible ext settings db)
    (hw : Permits ext settings (evidence db) w) : Reproducible ext settings (db.write w) := by
  have hE := evidence_write w db
  cases w with
  | insertObservation row =>
    refine ⟨?_, fun p hp ↦ (h.fused p hp).mono hE, fun l hl ↦ (h.clustered l hl).mono hE⟩
    intro o ho
    rcases Table.mem_insertNew.mp ho with hold | ⟨rfl, _⟩
    · exact (h.scored o hold).mono hE
    · exact ⟨observation_mem ho, .inl hw⟩
  | updateScored id scores now =>
    refine ⟨?_, fun p hp ↦ (h.fused p hp).mono hE, fun l hl ↦ (h.clustered l hl).mono hE⟩
    obtain ⟨model, o, res, hmodel, ho, rfl, hres, rfl⟩ := hw
    intro o' ho'
    have hrow : o' ∈ db.assetObservation.update (fun r ↦ r.clientId = o.clientId)
        (fun r ↦ r.setScores (scoresOf model res) now) (fun _ ↦ rfl) := ho'
    obtain ⟨u, hu, rfl⟩ := Table.mem_update.mp hrow
    split
    · next hid =>
      have hsame := eq_of_observation_mem ho hu (of_decide_eq_true hid)
      have hmem := hE (observation_mem hu)
      refine ⟨hmem, .inr ⟨model, res, now, hE hmodel, ?_, rfl⟩⟩
      exact (scoreObservation_unscored hsame model).trans hres
    · exact (h.scored u hu).mono hE
  | upsertPair row =>
    refine ⟨fun o ho ↦ (h.scored o ho).mono hE, ?_, fun l hl ↦ (h.clustered l hl).mono hE⟩
    intro p hp
    rcases Table.mem_upsert.mp hp with ⟨hold, _⟩ | ⟨u, hu, hkey, rfl⟩ | ⟨rfl, _⟩
    · exact (h.fused p hold).mono hE
    · obtain ⟨f, o, model, hf, ho, hjoins, hmodel, hrow⟩ := Fused.mono hw hE
      obtain ⟨hevent, hframe⟩ := Prod.mk.inj hkey
      refine ⟨f, o, model, hf, ho, hjoins, hmodel, ?_⟩
      have hfields : row.setExcluded u = { row with createdAt := u.createdAt } := by
        rw [FusionPair.setExcluded, hevent, hframe]
      rw [hfields, hrow]
      rfl
    · exact Fused.mono hw hE
  | insertLink row =>
    refine ⟨fun o ho ↦ (h.scored o ho).mono hE, fun p hp ↦ (h.fused p hp).mono hE, ?_⟩
    intro l hl
    rcases Table.mem_upsert.mp hl with ⟨hold, _⟩ | ⟨u, hu, hkey, rfl⟩ | ⟨rfl, _⟩
    · exact (h.clustered l hold).mono hE
    · obtain ⟨hcluster, hrest⟩ := Prod.mk.inj hkey
      obtain ⟨hmember, hkind⟩ := Prod.mk.inj hrest
      obtain ⟨hkind', o, fused, ho, hid, hfused⟩ := Clustered.mono hw hE
      exact ⟨hkind.trans hkind', o, fused, ho, hid.trans hmember.symm, hfused⟩
    · exact Clustered.mono hw hE
  | deleteLinks id =>
    exact h.of_kept hE (fun _ ho ↦ ho) (fun _ hp ↦ hp) (fun l hl ↦ (Table.mem_filter.mp hl).1)
  | _ => exact h.of_kept hE (fun _ ho ↦ ho) (fun _ hp ↦ hp) (fun _ hl ↦ hl)

variable (ext settings) in
/-- The ledger of the pipeline. -/
def ledger : Ledger (Database R) (Write R) (Fact R) where
  facts := evidence
  permits := Permits ext settings
  Sound := Reproducible ext settings
  permits_mono := Permits.mono
  grows := evidence_write
  kept := Reproducible.write

end Derived

/-! ### The jobs -/

section Jobs

variable [Field R] [LinearOrder R] {ext : Externals R} {settings : Settings R} {E : Set (Fact R)}

theorem records {w : Write R} (hw : IsDerived w) (h : Permits ext settings E w) :
    (ledger ext settings).Records E w := ⟨h, evidence_of_isDerived hw⟩

theorem grounded_derived {l : Statement} {w : Write R} (hw : IsDerived w)
    (h : Permits ext settings E w) : (Prog.execute l (fun _ ↦ .ok [w]) : DbProg R Unit).Grounded
      (ledger ext settings) (fun _ _ ↦ True) E := Prog.grounded_effect (records hw h)

/-! The fusion job. -/

theorem grounded_scoreRows {model : SensorModel R} (hmodel : .model model ∈ E) (now : DateTime)
    {rows : List (AssetObservation R)} (hrows : ∀ r ∈ rows, .observation (unscored r) ∈ E) :
    (scoreRows ext model now rows).Grounded (ledger ext settings) (fun _ _ ↦ True) E := by
  induction rows generalizing E with
  | nil => exact Prog.grounded_pure trivial
  | cons r rest ih =>
    rw [scoreRows]
    refine Prog.grounded_bind (Q := fun _ res ↦ scoreObservation ext model r.magnitude r.accelStd
      r.gbarInMax r.speedMps = .ok res) (Prog.grounded_ofExcept (fun _ hres ↦ hres)) ?_
    intro res E₁ hE₁ hres
    have hr := hE₁ (hrows r (List.mem_cons_self ..))
    refine Prog.grounded_bind (grounded_derived trivial
      ⟨model, r, res, hE₁ hmodel, hr, rfl, hres, rfl⟩) ?_
    intro _ E₂ hE₂ _
    exact ih (hE₂ (hE₁ hmodel))
      (fun r' hr' ↦ hE₂ (hE₁ (hrows r' (List.mem_cons_of_mem _ hr'))))

theorem grounded_scoreIfModel {model : Option (SensorModel R)}
    (hmodel : ∀ m, model = some m → .model m ∈ E) (now : DateTime) :
    (scoreIfModel ext settings model now).Grounded (ledger ext settings) (fun _ _ ↦ True) E := by
  cases model with
  | none => exact Prog.grounded_pure trivial
  | some m =>
    rw [scoreIfModel, scoreUnscored]
    refine Prog.grounded_bind (Q := fun _ _ ↦ True) ?_
      (fun _ _ _ _ ↦ Prog.grounded_pure trivial)
    refine Prog.grounded_bind (Q := fun E rows ↦ ∀ r ∈ rows, .observation (unscored r) ∈ E)
      (Prog.grounded_fetch ?_) ?_
    · intro s E' rows _ hE' hq r hr
      exact hE' (observation_mem (unscored_of_selectUnscored hq hr).1)
    intro rows E₁ hE₁ hrows
    split
    · exact Prog.grounded_pure trivial
    · refine Prog.grounded_bind (Prog.grounded_transaction ?_)
        (fun _ _ _ _ ↦ Prog.grounded_pure trivial)
      intro E₂ hE₂
      exact grounded_scoreRows (hE₂ (hE₁ (hmodel m rfl))) now (fun r hr ↦ hE₂ (hrows r hr))

/-- A candidate is one of a frame and an observation. -/
def FromEvidence (ext : Externals R) (settings : Settings R) (E : Set (Fact R))
    (r : Candidate R) : Prop :=
  ∃ f o, .frame (unmarked f) ∈ E ∧ Scored ext E o ∧ joins ext settings f o = true ∧
    r = candidate ext f o

theorem FromEvidence.mono {E' : Set (Fact R)} {r : Candidate R}
    (h : FromEvidence ext settings E r) (hE : E ⊆ E') : FromEvidence ext settings E' r := by
  obtain ⟨f, o, hf, ho, hr⟩ := h
  exact ⟨f, o, hE hf, ho.mono hE, hr⟩

theorem grounded_upsertPairs {model : Option (SensorModel R)}
    (hmodel : ∀ m, model = some m → .model m ∈ E) (runId : String) (now : DateTime)
    {rows : List (Candidate R)} (hrows : ∀ r ∈ rows, FromEvidence ext settings E r) :
    (upsertPairs (getEngine ext settings model) runId now rows).Grounded (ledger ext settings)
      (fun _ _ ↦ True) E := by
  induction rows generalizing E with
  | nil => exact Prog.grounded_pure trivial
  | cons r rest ih =>
    rw [upsertPairs]
    obtain ⟨f, o, hf, ho, hjoins, rfl⟩ := hrows r (List.mem_cons_self ..)
    refine Prog.grounded_bind (grounded_derived trivial ⟨f, o, model, hf, ho, hjoins, hmodel, rfl⟩)
      ?_
    intro _ E₁ hE₁ _
    exact ih (fun m hm ↦ hE₁ (hmodel m hm))
      (fun r' hr' ↦ (hrows r' (List.mem_cons_of_mem _ hr')).mono hE₁)

theorem grounded_pairAndFuse {model : Option (SensorModel R)}
    (hmodel : ∀ m, model = some m → .model m ∈ E) (runId : String) (now : DateTime) :
    (pairAndFuse ext settings model runId now).Grounded (ledger ext settings) (fun _ _ ↦ True)
      E := by
  rw [pairAndFuse]
  refine Prog.grounded_bind (Q := fun _ _ ↦ True) (Prog.grounded_fetch (fun _ _ _ _ _ _ ↦ trivial))
    ?_
  intro ids E₁ hE₁ _
  split
  · exact Prog.grounded_pure trivial
  refine Prog.grounded_transaction ?_
  intro E₂ hE₂
  rw [pairingTransaction]
  refine Prog.grounded_bind (Prog.grounded_execute
    (w := .insertRun (newRun (getEngine ext settings model) runId now ids.length)) ?_
    (records trivial trivial)) ?_
  · intro s ws hws
    rw [insertRun] at hws
    split at hws
    · cases hws
    · exact (Except.ok.inj hws).symm
  intro _ E₃ hE₃ _
  refine Prog.grounded_bind (Q := fun E rows ↦ ∀ r ∈ rows, FromEvidence ext settings E r)
    (Prog.grounded_fetch ?_) ?_
  · intro s E' rows hs hE' hq r hr
    cases hq
    obtain ⟨f, hf, _, o, ho, rfl⟩ := mem_pairing.mp hr
    exact ⟨f, o, hE' (frame_mem hf), (hs.scored o ho.mem).mono hE', ho.joins, rfl⟩
  intro rows E₄ hE₄ hrows
  have hmodel' : ∀ m, model = some m → .model m ∈ E₄ :=
    fun m hm ↦ hE₄ (hE₃ (hE₂ (hE₁ (hmodel m hm))))
  refine Prog.grounded_bind (grounded_upsertPairs hmodel' runId now hrows) ?_
  intro _ E₅ _ _
  refine Prog.grounded_bind (grounded_derived trivial trivial) ?_
  intro _ E₆ _ _
  exact Prog.grounded_bind (grounded_derived trivial trivial)
    (fun _ _ _ _ ↦ Prog.grounded_pure trivial)

/-- A tick of the fusion job derives what it writes from the evidence. -/
theorem grounded_runFusionJob (t : Tick) :
    (runFusionJob ext settings t).Grounded (ledger ext settings) (fun _ _ ↦ True) E := by
  rw [runFusionJob]
  refine Prog.grounded_bind Prog.grounded_nothing ?_
  intro _ E₁ _ _
  split
  · refine Prog.grounded_tryFinally ?_ (fun _ ↦ Prog.grounded_nothing)
    rw [fuseTick]
    refine Prog.grounded_bind (Q := fun E model ↦ ∀ m, model = some m → .model m ∈ E)
      (Prog.grounded_fetch ?_) ?_
    · intro s E' model _ hE' hq m hm
      cases hq
      exact hE' (model_mem hm)
    intro model E₂ _ hmodel
    refine Prog.grounded_bind (grounded_scoreIfModel hmodel t.scoreNow) ?_
    intro _ E₃ hE₃ _
    exact Prog.grounded_bind (grounded_pairAndFuse (fun m hm ↦ hE₃ (hmodel m hm)) t.runId t.pairNow)
      (fun _ _ _ _ ↦ Prog.grounded_pure trivial)
  · exact Prog.grounded_pure trivial

/-! The clustering job. -/

/-- The largest confidence of the pairs of an observation is that of one of them. -/
theorem fusedConfidence_maxFused {s : Database R} (hs : Reproducible ext settings s)
    (hE : evidence s ⊆ E) (id : String) : FusedConfidence ext settings E id (maxFused s id) := by
  intro c hc
  obtain ⟨p, hp, rfl⟩ := List.mem_map.mp (List.max?_eq_some_iff.mp hc).1
  obtain ⟨hmem, hid⟩ := List.mem_filter.mp hp
  exact ⟨p, (hs.fused p hmem).mono hE, of_decide_eq_true hid, rfl⟩

/-- The members of a computed cluster have links to it. -/
theorem clustered_of_clusters {s : Database R} (hs : Reproducible ext settings s)
    (hE : evidence s ⊆ E) {now : DateTime} {units : R} {c : ComputedCluster R}
    (hc : c ∈ clusters ext settings now units s) {m : String × R}
    (hm : m ∈ c.memberIds.zip c.memberConfidences) (clusterId : String) :
    Clustered ext settings E (newLink clusterId m) := by
  obtain ⟨ms, -, -, hmembers, rfl⟩ := exists_members_of_clusters hc
  change m ∈ ((orderBy Member.clientId ms).map Member.clientId).zip
    ((orderBy Member.clientId ms).map Member.confidence) at hm
  rw [List.zip_map', List.mem_map] at hm
  obtain ⟨x, hx, rfl⟩ := hm
  obtain ⟨o, ho, hmember, rfl⟩ := mem_members.mp (hmembers x (mem_orderBy.mp hx))
  rw [isMember, decide_eq_true_eq] at hmember
  exact ⟨rfl, o, maxFused s o.clientId, (hs.scored o ho).mono hE, rfl,
    fusedConfidence_maxFused hs hE o.clientId, rfl, hmember.2.1⟩

theorem grounded_insertLinks (clusterId : String) {ms : List (String × R)}
    (hms : ∀ m ∈ ms, Clustered ext settings E (newLink clusterId m)) :
    (insertLinks clusterId ms).Grounded (ledger ext settings) (fun _ _ ↦ True) E := by
  induction ms generalizing E with
  | nil => exact Prog.grounded_pure trivial
  | cons m rest ih =>
    rw [insertLinks]
    refine Prog.grounded_bind (grounded_derived trivial (hms m (List.mem_cons_self ..))) ?_
    intro _ E₁ hE₁ _
    exact ih (fun m' hm' ↦ (hms m' (List.mem_cons_of_mem _ hm')).mono hE₁)

variable (tick : ClusterTick)

theorem grounded_upsertCluster (matched : List String) (k : Nat) (c : ComputedCluster R) :
    (upsertCluster ext settings tick matched k c).Grounded (ledger ext settings) (fun _ _ ↦ True)
      E := by
  rw [upsertCluster]
  refine Prog.grounded_bind (Q := fun _ _ ↦ True) (Prog.grounded_fetch (fun _ _ _ _ _ _ ↦ trivial))
    ?_
  intro existing E₁ _ _
  cases existing with
  | some id =>
    exact Prog.grounded_bind (grounded_derived trivial trivial)
      (fun _ _ _ _ ↦ Prog.grounded_pure trivial)
  | none =>
    refine Prog.grounded_bind (Prog.grounded_execute
      (w := .insertCluster (newCluster ("clu_" ++ tick.newIds k) c.summary tick.now)) ?_
      (records trivial trivial)) (fun _ _ _ _ ↦ Prog.grounded_pure trivial)
    intro s ws hws
    rw [insertCluster] at hws
    split at hws
    · cases hws
    · exact (Except.ok.inj hws).symm

/-- All members of a group may be linked to any cluster. -/
def Clusterable (ext : Externals R) (settings : Settings R) (E : Set (Fact R))
    (cs : List (ComputedCluster R)) : Prop :=
  ∀ c ∈ cs, ∀ m ∈ c.memberIds.zip c.memberConfidences, ∀ clusterId,
    Clustered ext settings E (newLink clusterId m)

theorem Clusterable.mono {E' : Set (Fact R)} {cs cs' : List (ComputedCluster R)}
    (h : Clusterable ext settings E cs) (hE : E ⊆ E') (hcs : ∀ c ∈ cs', c ∈ cs) :
    Clusterable ext settings E' cs' :=
  fun c hc m hm clusterId ↦ (h c (hcs c hc) m hm clusterId).mono hE

theorem grounded_upsertClusters (matched : List String) (k : Nat) {cs : List (ComputedCluster R)}
    (hcs : Clusterable ext settings E cs) :
    (upsertClusters ext settings tick matched k cs).Grounded (ledger ext settings)
      (fun _ _ ↦ True) E := by
  induction cs generalizing E matched k with
  | nil => exact Prog.grounded_pure trivial
  | cons c rest ih =>
    rw [upsertClusters]
    refine Prog.grounded_bind (grounded_upsertCluster tick matched k c) ?_
    intro id E₁ hE₁ _
    refine Prog.grounded_bind (grounded_derived trivial trivial) ?_
    intro _ E₂ hE₂ _
    refine Prog.grounded_bind (grounded_insertLinks id ?_) ?_
    · exact fun m hm ↦ (hcs c (List.mem_cons_self ..) m hm id).mono (hE₁.trans hE₂)
    intro _ E₃ hE₃ _
    exact ih _ _ (hcs.mono ((hE₁.trans hE₂).trans hE₃) (fun c hc ↦ List.mem_cons_of_mem _ hc))

theorem grounded_clusterTransaction (stats : MemberStats R) (meanLat : R)
    {cs : List (ComputedCluster R)} (hcs : Clusterable ext settings E cs) :
    (clusterTransaction ext settings tick stats meanLat cs).Grounded (ledger ext settings)
      (fun _ _ ↦ True) E := by
  rw [clusterTransaction]
  refine Prog.grounded_bind (Q := fun _ _ ↦ True) (Prog.grounded_control ?_) ?_
  · intro E' _ s _ _ l stmt ws heq hws w hw
    cases heq
    rw [insertClusterRun] at hws
    split at hws
    · cases hws
    · cases hws
      rw [List.mem_singleton.mp hw]
      exact records trivial trivial
  intro _ E₁ hE₁ _
  refine Prog.grounded_bind (grounded_upsertClusters tick [] 0 (hcs.mono hE₁ (fun _ hc ↦ hc))) ?_
  exact fun _ _ _ _ ↦ grounded_derived trivial trivial

/-- A run of the clustering job derives what it writes from the evidence. -/
theorem grounded_runClusterJob :
    (runClusterJob ext settings tick).Grounded (ledger ext settings) (fun _ _ ↦ True) E := by
  rw [runClusterJob]
  refine Prog.grounded_bind Prog.grounded_nothing ?_
  intro _ E₁ _ _
  split
  · refine Prog.grounded_tryFinally ?_ (fun _ ↦ Prog.grounded_nothing)
    rw [clusterBody]
    refine Prog.grounded_bind (Q := fun _ _ ↦ True)
      (Prog.grounded_fetch (fun _ _ _ _ _ _ ↦ trivial)) ?_
    intro stats E₂ _ _
    split
    · exact Prog.grounded_pure trivial
    split
    · exact Prog.grounded_raise _
    next meanLat _ =>
    refine Prog.grounded_bind (Q := fun E cs ↦ Clusterable ext settings E cs)
      (Prog.grounded_fetch ?_) ?_
    · intro s E' cs hs hE' hq c hc m hm clusterId
      cases hq
      exact clustered_of_clusters hs hE' hc hm clusterId
    intro cs E₃ _ hcs
    refine Prog.grounded_bind (Prog.grounded_transaction ?_)
      (fun _ _ _ _ ↦ Prog.grounded_pure trivial)
    intro E₄ hE₄
    exact grounded_clusterTransaction tick stats meanLat (hcs.mono hE₄ (fun _ hc ↦ hc))
  · exact Prog.grounded_pure trivial

end Jobs

end PotholeServer.Pipeline
