import Mathlib.Data.List.Nodup
import Mathlib.Data.List.Perm.Basic

/-!
# Keyed tables

A table is a list of rows with pairwise distinct primary keys; the list order is
the physical row order, which no query may rely on. The operations are the row
effects of `INSERT .. ON CONFLICT DO NOTHING`, `ON CONFLICT DO UPDATE`,
`UPDATE .. WHERE` and `DELETE .. WHERE`. Each keeps the key constraint by construction.
-/

namespace PotholeServer.Sql

/-- Rows with a primary key. -/
class Keyed (ρ : Type) (κ : outParam Type) where
  key : ρ → κ

export Keyed (key)

/-- A table: rows in physical order, no two with one primary key. -/
structure Table (ρ : Type) {κ : Type} [Keyed ρ κ] where
  rows : List ρ
  keysNodup : (rows.map key).Nodup

namespace Table

variable {ρ κ : Type} [Keyed ρ κ]

/-- Membership of a row, whatever its position. -/
instance : Membership ρ (Table ρ) := ⟨fun t r ↦ r ∈ t.rows⟩

theorem mem_def {t : Table ρ} {r : ρ} : r ∈ t ↔ r ∈ t.rows := Iff.rfl

/-- Tables with the same rows in the same order are equal. -/
theorem ext {t u : Table ρ} (h : t.rows = u.rows) : t = u := by
  cases t
  cases u
  cases h
  rfl

/-- The table without rows. -/
def empty : Table ρ := ⟨[], List.nodup_nil⟩

@[simp] theorem rows_empty : (empty : Table ρ).rows = [] := rfl

theorem not_mem_empty (r : ρ) : r ∉ (empty : Table ρ) := List.not_mem_nil

/-- A row is determined by its primary key. -/
theorem eq_of_key {t : Table ρ} {r s : ρ} (hr : r ∈ t) (hs : s ∈ t) (h : key r = key s) :
    r = s :=
  List.inj_on_of_nodup_map t.keysNodup hr hs h

theorem rows_nodup (t : Table ρ) : t.rows.Nodup := t.keysNodup.of_map

/-- Some row has primary key `k`. -/
def HasKey (t : Table ρ) (k : κ) : Prop := k ∈ t.rows.map key

instance [DecidableEq κ] (t : Table ρ) (k : κ) : Decidable (t.HasKey k) :=
  inferInstanceAs (Decidable (k ∈ t.rows.map key))

instance (t : Table ρ) (p : ρ → Prop) [DecidablePred p] : Decidable (∀ r ∈ t, p r) :=
  inferInstanceAs (Decidable (∀ r ∈ t.rows, p r))

theorem hasKey_iff {t : Table ρ} {k : κ} : t.HasKey k ↔ ∃ r ∈ t, key r = k := List.mem_map

theorem hasKey_of_mem {t : Table ρ} {r : ρ} (h : r ∈ t) : t.HasKey (key r) :=
  hasKey_iff.mpr ⟨r, h, rfl⟩

section Find

variable [DecidableEq κ]

/-- The row with primary key `k`. -/
def find (t : Table ρ) (k : κ) : Option ρ := t.rows.find? (fun r ↦ key r = k)

theorem find_eq_none {t : Table ρ} {k : κ} : t.find k = none ↔ ¬t.HasKey k := by
  simp [find, HasKey]

/-- A key has at most one row. -/
theorem find_eq_some {t : Table ρ} {k : κ} {r : ρ} : t.find k = some r ↔ r ∈ t ∧ key r = k := by
  constructor
  · intro h
    exact ⟨List.mem_of_find?_eq_some h, by simpa using List.find?_some h⟩
  · rintro ⟨hr, hk⟩
    cases hfind : t.find k with
    | none => exact absurd (hk ▸ hasKey_of_mem hr) (find_eq_none.mp hfind)
    | some r' =>
      have hr' : r' ∈ t := List.mem_of_find?_eq_some hfind
      have hk' : key r' = k := by simpa using List.find?_some hfind
      rw [eq_of_key hr' hr (hk'.trans hk.symm)]

end Find

/-! ### Inserting -/

section Insert

variable [DecidableEq κ]

/-- `INSERT .. ON CONFLICT DO NOTHING`: a row whose key is taken is skipped. -/
def insertNew (t : Table ρ) (r : ρ) : Table ρ :=
  if h : t.HasKey (key r) then t
  else ⟨t.rows ++ [r], by
    rw [List.map_append, List.map_singleton]
    exact List.nodup_append.mpr ⟨t.keysNodup, List.nodup_singleton _, by
      intro k hk k' hk' he
      rw [List.mem_singleton] at hk'
      subst he
      subst hk'
      exact h hk⟩⟩

theorem insertNew_of_hasKey {t : Table ρ} {r : ρ} (h : t.HasKey (key r)) : t.insertNew r = t := by
  simp [insertNew, h]

theorem rows_insertNew {t : Table ρ} {r : ρ} (h : ¬t.HasKey (key r)) :
    (t.insertNew r).rows = t.rows ++ [r] := by
  simp [insertNew, h]

/-- After the insert the table holds its old rows, and the new one if its key was free. -/
theorem mem_insertNew {t : Table ρ} {r s : ρ} :
    s ∈ t.insertNew r ↔ s ∈ t ∨ (s = r ∧ ¬t.HasKey (key r)) := by
  by_cases h : t.HasKey (key r)
  · simp [insertNew_of_hasKey h, h]
  · rw [mem_def, rows_insertNew h]
    simp [h, mem_def]

theorem mem_insertNew_of_mem {t : Table ρ} {s : ρ} (r : ρ) (h : s ∈ t) : s ∈ t.insertNew r :=
  mem_insertNew.mpr (.inl h)

/-- What holds of every row and of the new one holds after the insert. -/
theorem forall_insertNew {p : ρ → Prop} {t : Table ρ} {r : ρ} (h : ∀ s ∈ t, p s) (hr : p r) :
    ∀ s ∈ t.insertNew r, p s := by
  intro s hs
  rcases mem_insertNew.mp hs with hs | ⟨rfl, _⟩
  · exact h s hs
  · exact hr

/-- The key of an inserted row is present afterwards, new or skipped. -/
theorem hasKey_insertNew {t : Table ρ} {r : ρ} {k : κ} :
    (t.insertNew r).HasKey k ↔ t.HasKey k ∨ k = key r := by
  by_cases h : t.HasKey (key r)
  · rw [insertNew_of_hasKey h]
    constructor
    · exact .inl
    · rintro (hk | rfl)
      · exact hk
      · exact h
  · simp [HasKey, rows_insertNew h]

/-- A lookup after the insert: the old row of that key, else the new one. -/
theorem find_insertNew {t : Table ρ} {r : ρ} {k : κ} :
    (t.insertNew r).find k = (t.find k).or (if key r = k then some r else none) := by
  by_cases h : t.HasKey (key r)
  · rw [insertNew_of_hasKey h]
    split
    · next hk =>
      cases hf : t.find k with
      | none => exact absurd (hk ▸ h) (find_eq_none.mp hf)
      | some _ => rfl
    · exact (Option.or_none).symm
  · rw [find, rows_insertNew h, List.find?_append, List.find?_singleton]
    simp [find]

end Insert

/-! ### Updating -/

/-- `UPDATE .. SET .. WHERE`: rewrite the rows that `p` selects; `f` leaves the key alone. -/
def update (t : Table ρ) (p : ρ → Bool) (f : ρ → ρ) (hf : ∀ r, key (f r) = key r) : Table ρ :=
  ⟨t.rows.map (fun r ↦ if p r then f r else r), by
    rw [List.map_map]
    have he : (key ∘ fun r ↦ if p r then f r else r) = (key : ρ → κ) := by
      funext r
      simp only [Function.comp_apply]
      split
      · exact hf r
      · rfl
    rw [he]
    exact t.keysNodup⟩

section Update

variable {t : Table ρ} {p : ρ → Bool} {f : ρ → ρ} {hf : ∀ r, key (f r) = key r}

theorem rows_update : (t.update p f hf).rows = t.rows.map (fun r ↦ if p r then f r else r) := rfl

/-- Every row after an update comes from the row with its key before it. -/
theorem mem_update {s : ρ} :
    s ∈ t.update p f hf ↔ ∃ r ∈ t, (if p r then f r else r) = s := List.mem_map

theorem mem_update_of_mem (hf : ∀ r, key (f r) = key r) {r : ρ} (h : r ∈ t) :
    (if p r then f r else r) ∈ t.update p f hf := mem_update.mpr ⟨r, h, rfl⟩

/-- What an update leaves alone was there before. -/
theorem exists_of_update {α : Type} {g : ρ → α} (hg : ∀ r, g (f r) = g r)
    (hf : ∀ r, key (f r) = key r) {s : ρ} (h : s ∈ t.update p f hf) : ∃ r ∈ t, g r = g s := by
  obtain ⟨r, hr, rfl⟩ := mem_update.mp h
  refine ⟨r, hr, ?_⟩
  split
  · exact (hg r).symm
  · rfl

theorem forall_update {q : ρ → Prop} (h : ∀ s ∈ t, q s) (hq : ∀ s ∈ t, q (f s))
    (hf : ∀ r, key (f r) = key r) : ∀ s ∈ t.update p f hf, q s := by
  intro s hs
  obtain ⟨u, hu, rfl⟩ := mem_update.mp hs
  split
  · exact hq u hu
  · exact h u hu

theorem hasKey_update (hf : ∀ r, key (f r) = key r) {k : κ} :
    (t.update p f hf).HasKey k ↔ t.HasKey k := by
  simp only [hasKey_iff, mem_update]
  constructor
  · rintro ⟨_, ⟨r, hr, rfl⟩, hk⟩
    refine ⟨r, hr, ?_⟩
    rw [← hk]
    split
    · exact (hf r).symm
    · rfl
  · rintro ⟨r, hr, hk⟩
    refine ⟨_, ⟨r, hr, rfl⟩, ?_⟩
    rw [← hk]
    split
    · exact hf r
    · rfl

end Update

/-- `INSERT .. ON CONFLICT DO UPDATE`: `f` rewrites the row that has the key of `r`. -/
def upsert [DecidableEq κ] (t : Table ρ) (r : ρ) (f : ρ → ρ) (hf : ∀ r, key (f r) = key r) :
    Table ρ :=
  if t.HasKey (key r) then t.update (fun s ↦ key s = key r) f hf else t.insertNew r

section Upsert

variable [DecidableEq κ] {t : Table ρ} {r : ρ} {f : ρ → ρ} {hf : ∀ r, key (f r) = key r}

theorem upsert_of_hasKey (h : t.HasKey (key r)) :
    t.upsert r f hf = t.update (fun s ↦ key s = key r) f hf := by
  simp [upsert, h]

theorem upsert_of_not_hasKey (h : ¬t.HasKey (key r)) : t.upsert r f hf = t.insertNew r := by
  simp [upsert, h]

theorem hasKey_upsert {k : κ} : (t.upsert r f hf).HasKey k ↔ t.HasKey k ∨ k = key r := by
  by_cases h : t.HasKey (key r)
  · rw [upsert_of_hasKey h, hasKey_update]
    constructor
    · exact .inl
    · rintro (hk | rfl)
      · exact hk
      · exact h
  · rw [upsert_of_not_hasKey h, hasKey_insertNew]

/-- After an upsert: the rows of other keys, and the rewritten or new row. -/
theorem mem_upsert {s : ρ} :
    s ∈ t.upsert r f hf ↔ (s ∈ t ∧ key s ≠ key r) ∨ (∃ u ∈ t, key u = key r ∧ s = f u) ∨
      (s = r ∧ ¬t.HasKey (key r)) := by
  by_cases h : t.HasKey (key r)
  · rw [upsert_of_hasKey h, mem_update]
    constructor
    · rintro ⟨u, hu, rfl⟩
      by_cases hk : key u = key r
      · exact .inr (.inl ⟨u, hu, hk, by simp [hk]⟩)
      · have he : (if decide (key u = key r) then f u else u) = u := by simp [hk]
        rw [he]
        exact .inl ⟨hu, hk⟩
    · rintro (⟨hs, hk⟩ | ⟨u, hu, hk, rfl⟩ | ⟨_, hn⟩)
      · exact ⟨s, hs, by simp [hk]⟩
      · exact ⟨u, hu, by simp [hk]⟩
      · exact absurd h hn
  · rw [upsert_of_not_hasKey h, mem_insertNew]
    have hne : ∀ u ∈ t, key u ≠ key r := by
      intro u hu hk
      exact h (hk ▸ hasKey_of_mem hu)
    constructor
    · rintro (hs | ⟨rfl, _⟩)
      · exact .inl ⟨hs, hne s hs⟩
      · exact .inr (.inr ⟨rfl, h⟩)
    · rintro (⟨hs, _⟩ | ⟨u, hu, hk, _⟩ | hs)
      · exact .inl hs
      · exact absurd hk (hne u hu)
      · exact .inr hs

theorem forall_upsert {q : ρ → Prop} (h : ∀ s ∈ t, q s) (hr : q r) (hq : ∀ s ∈ t, q (f s))
    (hf : ∀ r, key (f r) = key r) : ∀ s ∈ t.upsert r f hf, q s := by
  intro s hs
  rcases mem_upsert.mp hs with ⟨hs, _⟩ | ⟨u, hu, _, rfl⟩ | ⟨rfl, _⟩
  · exact h s hs
  · exact hq u hu
  · exact hr

end Upsert

/-! ### Deleting and reordering -/

/-- `DELETE .. WHERE NOT p`: keep the rows that `p` selects. -/
def filter (t : Table ρ) (p : ρ → Bool) : Table ρ :=
  ⟨t.rows.filter p, (List.filter_sublist.map key).nodup t.keysNodup⟩

@[simp] theorem rows_filter (t : Table ρ) (p : ρ → Bool) :
    (t.filter p).rows = t.rows.filter p := rfl

@[simp] theorem mem_filter {t : Table ρ} {p : ρ → Bool} {r : ρ} :
    r ∈ t.filter p ↔ r ∈ t ∧ p r = true := List.mem_filter

/-! ### Rows that stay -/

/-- Every row is still there, changed as the relation allows. -/
def Retains (rel : ρ → ρ → Prop) (t u : Table ρ) : Prop := ∀ r ∈ t, ∃ s ∈ u, rel r s

section Retains

variable {rel : ρ → ρ → Prop} {t u v : Table ρ} {f : ρ → ρ}

theorem Retains.refl (hrefl : ∀ r, rel r r) (t : Table ρ) : t.Retains rel t :=
  fun r hr ↦ ⟨r, hr, hrefl r⟩

theorem Retains.trans (htrans : ∀ {r s q}, rel r s → rel s q → rel r q) (h : t.Retains rel u)
    (h' : u.Retains rel v) : t.Retains rel v := by
  intro r hr
  obtain ⟨s, hs, hrs⟩ := h r hr
  obtain ⟨q, hq, hsq⟩ := h' s hs
  exact ⟨q, hq, htrans hrs hsq⟩

theorem retains_insertNew [DecidableEq κ] (hrefl : ∀ r, rel r r) (t : Table ρ) (r : ρ) :
    t.Retains rel (t.insertNew r) := fun s hs ↦ ⟨s, mem_insertNew_of_mem r hs, hrefl s⟩

theorem retains_update (hrefl : ∀ r, rel r r) {p : ρ → Bool} (h : ∀ r, p r = true → rel r (f r))
    (hf : ∀ r, key (f r) = key r) : t.Retains rel (t.update p f hf) := by
  intro r hr
  refine ⟨_, mem_update_of_mem hf hr, ?_⟩
  split
  · next hp => exact h r hp
  · exact hrefl r

theorem retains_upsert [DecidableEq κ] (hrefl : ∀ r, rel r r) {r : ρ}
    (h : ∀ s, key s = key r → rel s (f s)) (hf : ∀ r, key (f r) = key r) :
    t.Retains rel (t.upsert r f hf) := by
  intro s hs
  by_cases hkey : key s = key r
  · exact ⟨f s, mem_upsert.mpr (.inr (.inl ⟨s, hs, hkey, rfl⟩)), h s hkey⟩
  · exact ⟨s, mem_upsert.mpr (.inl ⟨hs, hkey⟩), hrefl s⟩

end Retains

/-- Two tables with the same rows, in whatever physical order. -/
def SameRows (t u : Table ρ) : Prop := t.rows.Perm u.rows

theorem SameRows.mem_iff {t u : Table ρ} (h : t.SameRows u) {r : ρ} : r ∈ t ↔ r ∈ u :=
  List.Perm.mem_iff h

theorem SameRows.refl (t : Table ρ) : t.SameRows t := List.Perm.refl _

theorem SameRows.hasKey_iff {t u : Table ρ} (h : t.SameRows u) {k : κ} :
    t.HasKey k ↔ u.HasKey k := (List.Perm.map key h).mem_iff

end Table

end PotholeServer.Sql
