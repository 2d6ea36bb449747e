import Mathlib.Logic.Basic

/-!
# Runs of a step relation

States reached from an initial one by events, where every step may be required to meet
a condition on the state before it; and the rule that proves an invariant of such runs.
-/

namespace PotholeServer

variable {S E : Type}

/-- States reached from `init` by steps of which each meets `ok`. -/
inductive Reaches (step : S → E → Option S) (ok : S → E → Prop) (init : S) : S → Prop where
  | start : Reaches step ok init init
  | next {s s' : S} (e : E) (h : Reaches step ok init s) (hok : ok s e) (hs : step s e = some s') :
    Reaches step ok init s'

/-- What holds initially and is preserved by every admissible step holds in every run. -/
theorem Reaches.invariant {step : S → E → Option S} {ok : S → E → Prop} {init : S}
    (I : S → Prop) (hinit : I init)
    (hstep : ∀ s e s', I s → ok s e → step s e = some s' → I s') {s : S}
    (h : Reaches step ok init s) : I s := by
  induction h with
  | start => exact hinit
  | next e _ hok hs ih => exact hstep _ e _ ih hok hs

/-- A run goes on by events that every state admits. -/
theorem Reaches.foldl {next : S → E → S} {ok : S → E → Prop} {init s : S}
    (h : Reaches (fun s e ↦ some (next s e)) ok init s) (events : List E)
    (hok : ∀ e ∈ events, ∀ s, ok s e) :
    Reaches (fun s e ↦ some (next s e)) ok init (events.foldl next s) := by
  induction events generalizing s with
  | nil => exact h
  | cons e rest ih =>
    have hnext := h.next e (hok e (List.mem_cons_self ..) s) rfl
    exact ih hnext (fun e' he' ↦ hok e' (List.mem_cons_of_mem _ he'))

/-- The states that a list of events leads to. -/
def runEvents (step : S → E → Option S) (s : S) (events : List E) : Option S :=
  events.foldlM step s

theorem runEvents_cons (step : S → E → Option S) (s : S) (e : E) (rest : List E) :
    runEvents step s (e :: rest) = (step s e).bind (runEvents step · rest) := rfl

theorem runEvents_append (step : S → E → Option S) (s : S) (events rest : List E) :
    runEvents step s (events ++ rest) =
      (runEvents step s events).bind (runEvents step · rest) := by
  rw [runEvents, List.foldlM_append]
  rfl

/-- A run goes on by a list of events that every state admits. -/
theorem Reaches.runEvents {step : S → E → Option S} {ok : S → E → Prop} {init s s' : S}
    (hs : Reaches step ok init s) (events : List E) (hok : ∀ e ∈ events, ∀ s, ok s e)
    (h : runEvents step s events = some s') : Reaches step ok init s' := by
  induction events generalizing s with
  | nil =>
    cases h
    exact hs
  | cons e rest ih =>
    rw [runEvents_cons] at h
    cases hstep : step s e with
    | none =>
      rw [hstep] at h
      cases h
    | some t =>
      rw [hstep] at h
      have hnext := hs.next e (hok e (List.mem_cons_self ..) s) hstep
      exact ih hnext (fun e' he' ↦ hok e' (List.mem_cons_of_mem _ he')) h

/-- The state after the events of a list that can happen. -/
def play (step : S → E → Option S) (s : S) (events : List E) : S :=
  events.foldl (fun s e ↦ (step s e).getD s) s

/-- Every event of the list is admitted in the state that it meets. -/
def Admits (step : S → E → Option S) (ok : S → E → Prop) (s : S) : List E → Prop
  | [] => True
  | e :: rest => ok s e ∧ Admits step ok ((step s e).getD s) rest

instance {step : S → E → Option S} {ok : S → E → Prop} [h : ∀ s e, Decidable (ok s e)]
    (s : S) (events : List E) : Decidable (Admits step ok s events) :=
  match events with
  | [] => isTrue trivial
  | e :: rest =>
    have : Decidable (Admits step ok ((step s e).getD s) rest) := instDecidableAdmits _ rest
    inferInstanceAs (Decidable (ok s e ∧ Admits step ok ((step s e).getD s) rest))

theorem admits_of_forall {step : S → E → Option S} {ok : S → E → Prop} {events : List E}
    (h : ∀ e ∈ events, ∀ s, ok s e) (s : S) : Admits step ok s events := by
  induction events generalizing s with
  | nil => exact trivial
  | cons e rest ih =>
    exact ⟨h e (List.mem_cons_self ..) s, ih (fun e' he' ↦ h e' (List.mem_cons_of_mem _ he')) _⟩

/-- A run goes on by a list of events that are admitted. -/
theorem Reaches.play {step : S → E → Option S} {ok : S → E → Prop} {init s : S}
    (hs : Reaches step ok init s) {events : List E} (hok : Admits step ok s events) :
    Reaches step ok init (PotholeServer.play step s events) := by
  induction events generalizing s with
  | nil => exact hs
  | cons e rest ih =>
    obtain ⟨hfirst, hrest⟩ := hok
    have hnext : Reaches step ok init ((step s e).getD s) := by
      cases hstep : step s e with
      | none => exact hs
      | some t => exact hs.next e hfirst hstep
    exact ih hnext hrest

/-- In a run under one condition every step meets another one, if a good state and the first
condition give the second one and a good state again. -/
theorem Admits.of_invariant {step : S → E → Option S} {ok ok' : S → E → Prop} (I : S → Prop)
    (hstep : ∀ s e s', I s → ok s e → step s e = some s' → I s' ∧ ok' s e) {s : S} (hs : I s)
    {events : List E} (hrun : (PotholeServer.runEvents step s events).isSome = true)
    (h : Admits step ok s events) : Admits step ok' s events := by
  induction events generalizing s with
  | nil => exact trivial
  | cons e rest ih =>
    rw [runEvents_cons] at hrun
    cases hnext : step s e with
    | none =>
      rw [hnext] at hrun
      cases hrun
    | some s' =>
      rw [hnext] at hrun
      obtain ⟨hfirst, hrest⟩ := h
      obtain ⟨hs', hok'⟩ := hstep s e s' hs hfirst hnext
      rw [hnext, Option.getD_some] at hrest
      refine ⟨hok', ?_⟩
      rw [hnext, Option.getD_some]
      exact ih hs' hrun hrest

/-- What a step from a good state keeps exactly under a condition is true all along a run exactly if
every step of it meets the condition. -/
theorem always_iff_admits {step : S → E → Option S} {ok : S → E → Prop} (I : S → Prop)
    (hstep : ∀ s e s', I s → step s e = some s' → (I s' ↔ ok s e)) {s : S} (hs : I s)
    (events : List E) (h : (PotholeServer.runEvents step s events).isSome = true) :
    (∀ k t, PotholeServer.runEvents step s (events.take k) = some t → I t) ↔
      Admits step ok s events := by
  induction events generalizing s with
  | nil =>
    refine iff_of_true ?_ trivial
    intro k t ht
    rw [List.take_nil, PotholeServer.runEvents, List.foldlM_nil] at ht
    exact Option.some_inj.mp ht ▸ hs
  | cons e rest ih =>
    rw [runEvents_cons] at h
    cases hnext : step s e with
    | none =>
      rw [hnext] at h
      cases h
    | some s' =>
      rw [hnext] at h
      have hlater : ∀ k, PotholeServer.runEvents step s ((e :: rest).take (k + 1)) =
          PotholeServer.runEvents step s' (rest.take k) := by
        intro k
        rw [List.take_succ_cons, runEvents_cons, hnext, Option.bind_some]
      rw [Admits, hnext, Option.getD_some, ← hstep s e s' hs hnext]
      constructor
      · intro hall
        have hs' : I s' := hall 1 s' (by rw [hlater]; rfl)
        refine ⟨hs', (ih hs' h).mp ?_⟩
        intro k t ht
        exact hall (k + 1) t (by rw [hlater, ht])
      · rintro ⟨hs', hadmits⟩ k t ht
        cases k with
        | zero =>
          rw [List.take_zero, PotholeServer.runEvents, List.foldlM_nil] at ht
          exact Option.some_inj.mp ht ▸ hs
        | succ k =>
          rw [hlater] at ht
          exact (ih hs' h).mpr hadmits k t ht

/-- A list of events is a run without further conditions. -/
theorem reaches_of_runEvents {step : S → E → Option S} {init s s' : S} (events : List E)
    (hs : Reaches step (fun _ _ ↦ True) init s) (h : runEvents step s events = some s') :
    Reaches step (fun _ _ ↦ True) init s' :=
  hs.runEvents events (fun _ _ _ ↦ trivial) h

end PotholeServer
