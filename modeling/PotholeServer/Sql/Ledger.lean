import Mathlib.Data.Set.Basic
import PotholeServer.Sql.Server

/-!
# Effects that facts permit

A store shows facts, which no effect takes away. A program is grounded when the facts that it has
read so far permit all of its effects. Then, however the sessions of a server are interleaved and
whatever is rolled back, fails or is lost, every effect that is committed is permitted by facts that
the store shows at that moment.
-/

namespace PotholeServer.Sql

variable {S W L U F α β : Type}

/-- The facts that a store shows, the effects that facts permit, and what holds of a store with
permitted effects only. -/
structure Ledger (S W F : Type) [Effect W S] where
  facts : S → Set F
  permits : Set F → W → Prop
  Sound : S → Prop
  permits_mono : ∀ {E E' : Set F} {w : W}, E ⊆ E' → permits E w → permits E' w
  grows : ∀ (w : W) (s : S), facts s ⊆ facts (Effect.apply w s)
  kept : ∀ {w : W} {s : S}, Sound s → permits (facts s) w → Sound (Effect.apply w s)

namespace Ledger

variable [Effect W S] (B : Ledger S W F)

/-- The effect makes no new facts. -/
def Silent (w : W) : Prop := ∀ s, B.facts (Effect.apply w s) = B.facts s

/-- A silent effect that the facts permit. -/
structure Records (E : Set F) (w : W) : Prop where
  permitted : B.permits E w
  silent : B.Silent w

variable {B} {E E' : Set F} {s : S} {ws : List W}

theorem Records.mono {w : W} (h : B.Records E w) (hE : E ⊆ E') : B.Records E' w :=
  ⟨B.permits_mono hE h.permitted, h.silent⟩

/-- Permitted effects, one after the other. -/
theorem sound_applyAll (hs : B.Sound s) (hws : ∀ w ∈ ws, B.permits (B.facts s) w) :
    B.Sound (applyAll ws s) := by
  induction ws generalizing s with
  | nil => exact hs
  | cons w rest ih =>
    refine ih (B.kept hs (hws w (List.mem_cons_self ..))) ?_
    exact fun w' hw' ↦ B.permits_mono (B.grows w s) (hws w' (List.mem_cons_of_mem _ hw'))

theorem facts_subset_applyAll (ws : List W) (s : S) : B.facts s ⊆ B.facts (applyAll ws s) := by
  induction ws generalizing s with
  | nil => exact subset_rfl
  | cons w rest ih => exact (B.grows w s).trans (ih _)

theorem facts_applyAll (hws : ∀ w ∈ ws, B.Silent w) (s : S) :
    B.facts (applyAll ws s) = B.facts s := by
  induction ws generalizing s with
  | nil => rfl
  | cons w rest ih =>
    exact (ih (fun w' hw' ↦ hws w' (List.mem_cons_of_mem _ hw')) _).trans
      (hws w (List.mem_cons_self ..) s)

end Ledger

/-! ### Grounded programs -/

namespace Prog

variable [Effect W S] (B : Ledger S W F)

/-- Whatever facts there are besides those that the program has read, they permit its effects, and
what it returns is in `Q` for them. -/
def Grounded (Q : Set F → α → Prop) : Prog S W L α → Set F → Prop
  | ret r, E => ∀ a, r = .ok a → Q E a
  | req r k, E => ∀ E', E ⊆ E' →
    (∀ s, B.Sound s → B.facts s ⊆ E' →
      (∀ l stmt ws, r = .sql l stmt → stmt s = .ok ws → ∀ w ∈ ws, B.Records E' w) ∧
      (k (.ok s)).Grounded Q E') ∧
    ∀ e, (k (.error e)).Grounded Q E'

section Rules

variable {B} {Q : Set F → α → Prop} {Q' : Set F → β → Prop} {E E' : Set F}

theorem grounded_mono {x : Prog S W L α} (h : x.Grounded B Q E) (hE : E ⊆ E')
    (hQ : ∀ a, Q E a → Q E' a) : x.Grounded B Q E' := by
  cases x with
  | ret r => exact fun a ha ↦ hQ a (h a ha)
  | req r k => exact fun E'' hE'' ↦ h E'' (hE.trans hE'')

theorem grounded_pure {a : α} (h : Q E a) : (pure a : Prog S W L α).Grounded B Q E := by
  intro b hb
  cases hb
  exact h

theorem grounded_raise (e : Exn) : (raise e : Prog S W L α).Grounded B Q E := fun _ h ↦ by cases h

theorem grounded_ofExcept {r : Except Exn α} (h : ∀ a, r = .ok a → Q E a) :
    (ofExcept r : Prog S W L α).Grounded B Q E := h

/-- Sequencing; there may be more facts when the rest begins. -/
theorem grounded_bind {x : Prog S W L α} {f : α → Prog S W L β} (hx : x.Grounded B Q E)
    (hf : ∀ a E', E ⊆ E' → Q E' a → (f a).Grounded B Q' E') : (x >>= f).Grounded B Q' E := by
  change (x.bind f).Grounded B Q' E
  induction x generalizing E with
  | ret r =>
    cases r with
    | ok a => exact hf a E subset_rfl (hx a rfl)
    | error e => exact grounded_raise e
  | req r k ih =>
    intro E' hE
    have hf' : ∀ a E'', E' ⊆ E'' → Q E'' a → (f a).Grounded B Q' E'' :=
      fun a E'' hE' ↦ hf a E'' (hE.trans hE')
    obtain ⟨hok, herror⟩ := hx E' hE
    refine ⟨?_, fun e ↦ ih _ (herror e) hf'⟩
    intro s hs hfacts
    obtain ⟨heffects, hrest⟩ := hok s hs hfacts
    exact ⟨heffects, ih _ hrest hf'⟩

theorem grounded_attempt {x : Prog S W L α} (hx : x.Grounded B Q E) :
    x.attempt.Grounded B (fun E r ↦ ∀ a, r = .ok a → Q E a) E := by
  induction x generalizing E with
  | ret r =>
    intro r' hr'
    cases hr'
    exact hx
  | req r k ih =>
    intro E' hE
    obtain ⟨hok, herror⟩ := hx E' hE
    refine ⟨?_, fun e ↦ ih _ (herror e)⟩
    intro s hs hfacts
    obtain ⟨heffects, hrest⟩ := hok s hs hfacts
    exact ⟨heffects, ih _ hrest⟩

theorem grounded_control {r : Request S W L}
    (h : ∀ E', E ⊆ E' → ∀ s, B.Sound s → B.facts s ⊆ E' → ∀ l stmt ws, r = .sql l stmt →
      stmt s = .ok ws → ∀ w ∈ ws, B.Records E' w) :
    (control r).Grounded B (fun _ _ ↦ True) E := by
  intro E' hE
  refine ⟨?_, ?_⟩
  · intro s hs hfacts
    exact ⟨h E' hE s hs hfacts, fun _ _ ↦ trivial⟩
  · intro e a ha
    cases ha

/-- A statement with one effect, if it is not refused. -/
theorem grounded_execute {l : L} {stmt : S → Except PgError (List W)} {w : W}
    (hstmt : ∀ s ws, stmt s = .ok ws → ws = [w]) (h : B.Records E w) :
    (execute l stmt).Grounded B (fun _ _ ↦ True) E := by
  refine grounded_control ?_
  intro E' hE s _ _ l' stmt' ws heq hws w' hw'
  cases heq
  rw [hstmt s ws hws, List.mem_singleton] at hw'
  exact hw' ▸ h.mono hE

/-- A statement with one fixed effect. -/
theorem grounded_effect {l : L} {w : W} (h : B.Records E w) :
    (execute l (fun _ ↦ .ok [w]) : Prog S W L Unit).Grounded B (fun _ _ ↦ True) E :=
  grounded_execute (fun _ _ heq ↦ (Except.ok.inj heq).symm) h

/-- A statement without effects. -/
theorem grounded_nothing {l : L} :
    (execute l (fun _ ↦ .ok []) : Prog S W L Unit).Grounded B (fun _ _ ↦ True) E := by
  refine grounded_control ?_
  intro E' _ s _ _ l' stmt' ws heq hws w hw
  cases heq
  cases hws
  cases hw

/-- A query returns what it computes from a sound store, whose facts are known from then on. -/
theorem grounded_fetch {l : L} {q : S → Except PgError α}
    (h : ∀ s E' a, B.Sound s → B.facts s ⊆ E' → q s = .ok a → Q E' a) :
    (fetch l q : Prog S W L α).Grounded B Q E := by
  intro E' _
  refine ⟨?_, fun _ _ h ↦ by cases h⟩
  intro s hs hfacts
  constructor
  · intro l' stmt' ws heq hws w hw
    cases heq
    dsimp only at hws
    cases hq : q s with
    | error e =>
      rw [hq] at hws
      cases hws
    | ok a =>
      rw [hq] at hws
      cases hws
      cases hw
  · dsimp only
    cases hq : q s with
    | error e => exact grounded_raise _
    | ok a => exact grounded_pure (h s E' a hs hfacts hq)

theorem grounded_transaction {x : Prog S W L α} (hx : ∀ E', E ⊆ E' →
    x.Grounded B (fun _ _ ↦ True) E') : (transaction x).Grounded B (fun _ _ ↦ True) E := by
  have hcontrol : ∀ (r : Request S W L) (E : Set F), (∀ l stmt, r ≠ .sql l stmt) →
      (control r).Grounded B (fun _ _ ↦ True) E := by
    intro r E hr
    exact grounded_control (fun _ _ _ _ _ l stmt _ heq ↦ absurd heq (hr l stmt))
  rw [transaction]
  refine grounded_bind (hcontrol _ _ (fun _ _ h ↦ by cases h)) ?_
  intro _ E' hE _
  refine grounded_bind (grounded_attempt (hx E' hE)) ?_
  intro r E'' _ _
  cases r with
  | ok a =>
    exact grounded_bind (hcontrol _ _ (fun _ _ h ↦ by cases h))
      (fun _ _ _ _ ↦ grounded_pure trivial)
  | error e =>
    exact grounded_bind (grounded_attempt (hcontrol _ _ (fun _ _ h ↦ by cases h)))
      (fun _ _ _ _ ↦ grounded_raise e)

theorem grounded_tryFinally {x : Prog S W L α} {y : Prog S W L Unit}
    (hx : x.Grounded B (fun _ _ ↦ True) E)
    (hy : ∀ E', y.Grounded B (fun _ _ ↦ True) E') :
    (tryFinally x y).Grounded B (fun _ _ ↦ True) E :=
  grounded_bind (grounded_attempt hx) (fun _ _ _ _ ↦
    grounded_bind (hy _) (fun _ _ _ _ ↦ grounded_ofExcept (fun _ _ ↦ trivial)))

end Rules

end Prog

/-! ### Sessions -/

namespace Server

variable {J : Type} {A : J → Type} {K : Type} [Effect W S] [Effect U S]

/-- A session that records what it has read, or that makes only what is permitted anyway. -/
inductive Trusted (B : Ledger S W F) (ss : Session J A S W L) (s : S) : Prop where
  | grounded (prog : ss.prog.Grounded B (fun _ _ ↦ True) (B.facts s))
    (pending : ∀ p, ss.txn = .active p → ∀ w ∈ p, B.Records (B.facts s) w)
  | free (h : EmitsIn (fun _ w ↦ B.permits ∅ w) ss)

/-- A program that may run on the server. -/
def Admissible (B : Ledger S W F) (x : Prog S W L α) : Prop :=
  x.Grounded B (fun _ _ ↦ True) ∅ ∨ x.Emits (fun w ↦ B.permits ∅ w)

variable {B : Ledger S W F} {ss : Session J A S W L} {s s' : S} {j : J} {r : Request S W L}
  {k : Except PgError S → Prog S W L (A j)} {t : Txn W}

omit [Effect U S] in
theorem Trusted.mono (h : Trusted B ss s) (hs : B.facts s ⊆ B.facts s') : Trusted B ss s' := by
  cases h with
  | grounded hprog hpending =>
    refine .grounded (Prog.grounded_mono hprog hs (fun _ h ↦ h)) ?_
    exact fun p hp w hw ↦ (hpending p hp w hw).mono hs
  | free h => exact .free h

omit [Effect U S] in
theorem trusted_new {program : (j : J) → Prog S W L (A j)} (h : Admissible B (program j)) (s : S) :
    Trusted B (newSession program j) s := by
  rcases h with h | h
  · refine .grounded (Prog.grounded_mono h (Set.empty_subset _) (fun _ h ↦ h)) ?_
    intro p hp
    cases hp
  · refine .free ⟨h, ?_⟩
    intro p hp
    cases hp

omit [Effect U S] in
/-- What a grounded session sees is sound, and shows the facts of the store. -/
theorem sound_viewOf (hs : B.Sound s)
    (hpending : ∀ p, t = .active p → ∀ w ∈ p, B.Records (B.facts s) w) :
    B.Sound (viewOf s t) ∧ B.facts (viewOf s t) = B.facts s := by
  cases t with
  | active p =>
    have hall := hpending p rfl
    exact ⟨Ledger.sound_applyAll hs (fun w hw ↦ (hall w hw).permitted),
      Ledger.facts_applyAll (fun w hw ↦ (hall w hw).silent) s⟩
  | auto => exact ⟨hs, rfl⟩
  | aborted => exact ⟨hs, rfl⟩

omit [Effect U S] in
/-- A reply shows what the session sees, or the store. -/
theorem eq_of_reply {v : S} (h : (answerOn s t r).1 = .ok v) : v = viewOf s t ∨ v = s := by
  cases r with
  | begin => exact .inr (Except.ok.inj h).symm
  | commit => exact .inr (Except.ok.inj h).symm
  | rollback => exact .inr (Except.ok.inj h).symm
  | sql l stmt =>
    by_cases ht : t = .aborted
    · subst ht
      cases h
    · cases hq : stmt (viewOf s t) with
      | ok ws =>
        rw [(answerOn_sql_ok (l := l) ht hq).1] at h
        exact .inl (Except.ok.inj h).symm
      | error e =>
        obtain ⟨e', hreply, -⟩ := answerOn_sql_error (s := s) (l := l) (.inr hq)
        rw [hreply] at h
        cases h

omit [Effect U S] in
/-- An answer to a grounded session: its effects are recorded, now or when it commits. -/
theorem Trusted.serve_grounded (hs : B.Sound s)
    (hprog : (Prog.req r k).Grounded B (fun _ _ ↦ True) (B.facts s))
    (hpending : ∀ p, t = .active p → ∀ w ∈ p, B.Records (B.facts s) w) :
    B.Sound (answerOn s t r).2.store ∧ B.facts (answerOn s t r).2.store = B.facts s ∧
      Trusted B (⟨j, k (answerOn s t r).1, (answerOn s t r).2.txn⟩ : Session J A S W L) s := by
  obtain ⟨hview, hfacts⟩ := sound_viewOf hs hpending
  obtain ⟨hok, herror⟩ := hprog (B.facts s) subset_rfl
  have hreply : (k (answerOn s t r).1).Grounded B (fun _ _ ↦ True) (B.facts s) := by
    cases hr : (answerOn s t r).1 with
    | error e => exact herror e
    | ok v =>
      have hv : B.Sound v ∧ B.facts v = B.facts s := by
        rcases eq_of_reply hr with rfl | rfl
        · exact ⟨hview, hfacts⟩
        · exact ⟨hs, rfl⟩
      exact (hok v hv.1 hv.2.subset).2
  have hmade : ∀ l stmt ws, r = .sql l stmt → stmt (viewOf s t) = .ok ws →
      ∀ w ∈ ws, B.Records (B.facts s) w := (hok _ hview hfacts.subset).1
  have hanswers := answers s t r
  generalize (answerOn s t r).2.txn = t', (answerOn s t r).2.store = s' at hanswers ⊢
  generalize k (answerOn s t r).1 = rest at hreply ⊢
  cases hanswers with
  | refused hstill =>
    refine ⟨hs, rfl, .grounded hreply ?_⟩
    intro p hp
    cases hstill with
    | refl => exact hpending p hp
    | abort => cases hp
  | @made l stmt ws ht hq =>
    have hws := hmade l stmt ws rfl hq
    cases t with
    | aborted => exact absurd rfl ht
    | auto =>
      refine ⟨Ledger.sound_applyAll hs (fun w hw ↦ (hws w hw).permitted),
        Ledger.facts_applyAll (fun w hw ↦ (hws w hw).silent) s, .grounded hreply ?_⟩
      intro p hp
      cases hp
    | active p =>
      refine ⟨hs, rfl, .grounded hreply ?_⟩
      intro p' hp' w hw
      cases hp'
      rcases List.mem_append.mp hw with hw | hw
      · exact hpending p rfl w hw
      · exact hws w hw
  | begin =>
    refine ⟨hs, rfl, .grounded hreply ?_⟩
    intro p hp w hw
    cases hp
    cases hw
  | commit =>
    have hnone : ∀ p, (Txn.auto : Txn W) = .active p → ∀ w ∈ p, B.Records (B.facts s) w := by
      intro p hp
      cases hp
    cases t with
    | active p =>
      have hall := hpending p rfl
      exact ⟨Ledger.sound_applyAll hs (fun w hw ↦ (hall w hw).permitted),
        Ledger.facts_applyAll (fun w hw ↦ (hall w hw).silent) s, .grounded hreply hnone⟩
    | auto => exact ⟨hs, rfl, .grounded hreply hnone⟩
    | aborted => exact ⟨hs, rfl, .grounded hreply hnone⟩
  | rollback =>
    refine ⟨hs, rfl, .grounded hreply ?_⟩
    intro p hp
    cases hp

omit [Effect U S] in
theorem Trusted.serve (hs : B.Sound s)
    (h : Trusted B (⟨j, .req r k, t⟩ : Session J A S W L) s) :
    B.Sound (answerOn s t r).2.store ∧ B.facts s ⊆ B.facts (answerOn s t r).2.store ∧
      Trusted B (⟨j, k (answerOn s t r).1, (answerOn s t r).2.txn⟩ : Session J A S W L)
        (answerOn s t r).2.store := by
  cases h with
  | grounded hprog hpending =>
    obtain ⟨hsound, hfacts, htrusted⟩ := Trusted.serve_grounded (j := j) hs hprog hpending
    exact ⟨hsound, hfacts.superset, htrusted.mono hfacts.superset⟩
  | free hemits =>
    obtain ⟨hnext, ws, hws, hstore⟩ := hemits.serve (s := s) (answerOn s t r).1
    rw [hstore]
    refine ⟨Ledger.sound_applyAll hs (fun w hw ↦ ?_), Ledger.facts_subset_applyAll ws s,
      .free hnext⟩
    exact B.permits_mono (Set.empty_subset _) (hws w hw)

omit [Effect U S] in
theorem Trusted.fail (h : Trusted B (⟨j, .req r k, t⟩ : Session J A S W L) s) (f : Fault) :
    Trusted B (⟨j, k (failOn s t r f).1, (failOn s t r f).2.txn⟩ : Session J A S W L) s := by
  cases h with
  | grounded hprog hpending =>
    obtain ⟨e, herror⟩ := (fail_eq (⟨s, t, []⟩ : Conn S W L) r f).1
    have hreply : (failOn s t r f).1 = .error e := herror
    refine .grounded ?_ (fun p hp ↦ hpending p (active_failOn hp))
    change (k (failOn s t r f).1).Grounded B (fun _ _ ↦ True) (B.facts s)
    rw [hreply]
    exact (hprog (B.facts s) subset_rfl).2 e
  | free hemits =>
    exact .free ⟨hemits.prog.2 _, fun p hp ↦ hemits.pending p (active_failOn hp)⟩

/-! ### Runs of a server -/

section Order

variable {G : S → S → Prop} (hrefl : ∀ s, G s s)
  (htrans : ∀ {s s' s''}, G s s' → G s' s'' → G s s'')
  (hW : ∀ (w : W) s, G s (Effect.apply w s)) (hU : ∀ (u : U) s, G s (Effect.apply u s))
  {locks : W → List K} {program : (j : J) → Prog S W L (A j)} {asks : U → List K}
  {σ σ' : Server J A S W L} {a : Act J U}
include hrefl htrans hW

omit [Effect U S] in
theorem related_applyAll (ws : List W) (s : S) : G s (applyAll ws s) := by
  induction ws generalizing s with
  | nil => exact hrefl s
  | cons w rest ih => exact htrans (hW w s) (ih _)

include hU

/-- A step changes the store as effects and commits do. -/
theorem Moves.related (h : Moves locks program asks σ a σ') : G σ.store σ'.store := by
  rcases h.store with hsame | ⟨i, j, r, k, t, -, -, hstore⟩ | ⟨u, -, hstore⟩
  · rw [hsame]
    exact hrefl _
  · rw [hstore]
    have hanswers := answers σ.store t r
    generalize (answerOn σ.store t r).2.txn = t', (answerOn σ.store t r).2.store = s' at hanswers ⊢
    cases hanswers with
    | refused => exact hrefl _
    | made ht hq =>
      cases t with
      | auto => exact related_applyAll hrefl htrans hW _ _
      | active p => exact hrefl _
      | aborted => exact absurd rfl ht
    | begin => exact hrefl _
    | commit =>
      cases t with
      | active p => exact related_applyAll hrefl htrans hW _ _
      | auto => exact hrefl _
      | aborted => exact hrefl _
    | rollback => exact hrefl _
  · rw [hstore]
    exact hU u _

/-- So does a run. -/
theorem related_of_reaches [DecidableEq K] {ok : Server J A S W L → Act J U → Prop}
    (h : Reaches (fun τ a ↦ τ.step locks program asks a) ok σ σ') : G σ.store σ'.store := by
  refine h.invariant (fun τ ↦ G σ.store τ.store) (hrefl _) ?_
  intro τ a τ' hτ _ hstep
  exact htrans hτ (Moves.related hrefl htrans hW hU (moves_of_step hstep))

end Order

/-- The store is sound, and every session is trusted. -/
structure Guaranteed (B : Ledger S W F) (σ : Server J A S W L) : Prop where
  sound : B.Sound σ.store
  trusted : ∀ i ss, σ.session i = some ss → Trusted B ss σ.store

/-- What others commit keeps the store sound and its facts. -/
def Harmless (B : Ledger S W F) (u : U) : Prop :=
  ∀ s, B.Sound s → B.Sound (Effect.apply u s) ∧ B.facts s ⊆ B.facts (Effect.apply u s)

variable {locks : W → List K} {program : (j : J) → Prog S W L (A j)} {asks : U → List K}
  {σ σ' : Server J A S W L} {a : Act J U}

omit [Effect W S] [Effect U S] in
theorem guaranteed_idle [Effect W S] (B : Ledger S W F) (hs : B.Sound s) :
    Guaranteed B (idle s : Server J A S W L) where
  sound := hs
  trusted := fun _ _ h ↦ by cases h

/-- Admissible programs keep the store sound, and no fact is lost. -/
theorem Moves.guaranteed (h : Moves locks program asks σ a σ') (hσ : Guaranteed B σ)
    (hprogram : ∀ j, a = .start j → Admissible B (program j))
    (hcommit : ∀ u, a = .commit u → Harmless B u) :
    Guaranteed B σ' ∧ B.facts σ.store ⊆ B.facts σ'.store := by
  have hstore : B.Sound σ'.store ∧ B.facts σ.store ⊆ B.facts σ'.store := by
    rcases h.store with hsame | ⟨i, j, r, k, t, rfl, hs, hstore⟩ | ⟨u, rfl, hstore⟩
    · rw [hsame]
      exact ⟨hσ.sound, subset_rfl⟩
    · obtain ⟨hsound, hfacts, -⟩ := (hσ.trusted i _ hs).serve hσ.sound
      rw [hstore]
      exact ⟨hsound, hfacts⟩
    · rw [hstore]
      exact hcommit u rfl σ.store hσ.sound
  refine ⟨⟨hstore.1, ?_⟩, hstore.2⟩
  refine h.sessions (P := Trusted B) hσ.trusted ?_ ?_ ?_ ?_
  · exact fun j ha ↦ trusted_new (hprogram j ha) σ.store
  · exact fun i j r k t _ hs _ ↦ ((hσ.trusted i _ hs).serve hσ.sound).2.2
  · exact fun i j r k t f _ hs ↦ (hσ.trusted i _ hs).fail f
  · exact fun i ss hss _ ↦ (hσ.trusted i ss hss).mono hstore.2

/-- In every run of admissible programs the store stays sound, and no fact is lost. -/
theorem Guaranteed.reaches [DecidableEq K] (hσ : Guaranteed B σ)
    {ok : Server J A S W L → Act J U → Prop}
    (hok : ∀ τ a, ok τ a → (∀ j, a = .start j → Admissible B (program j)) ∧
      ∀ u, a = .commit u → Harmless B u)
    (h : Reaches (fun τ a ↦ τ.step locks program asks a) ok σ σ') :
    Guaranteed B σ' ∧ B.facts σ.store ⊆ B.facts σ'.store := by
  refine h.invariant (fun τ ↦ Guaranteed B τ ∧ B.facts σ.store ⊆ B.facts τ.store)
    ⟨hσ, subset_rfl⟩ ?_
  intro τ a τ' hτ ha hstep
  obtain ⟨hprogram, hcommit⟩ := hok τ a ha
  obtain ⟨hnext, hfacts⟩ := (moves_of_step hstep).guaranteed hτ.1 hprogram hcommit
  exact ⟨hnext, hτ.2.trans hfacts⟩

end Server

end PotholeServer.Sql
