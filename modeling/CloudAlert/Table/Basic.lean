import Mathlib.Data.List.Basic
import Mathlib.Data.List.Nodup
import Mathlib.Data.List.Pairwise
import Mathlib.Data.Int.Order.Basic
import Mathlib.Order.Basic
import Mathlib.Data.Nat.Basic

/-!
# Tables with an autoincrement key

`Table ρ key` is a table whose rows have an integer primary key that the table
assigns itself: the rows stand in ascending key order, and `seq` is at least
every key that was ever used. `update` changes the rows that satisfy a
condition and keeps their keys, `insert` appends a row under the next key. Rows
are never removed.

The ascending order makes a row the only one under its key, and it makes two
selections with the same members equal.
-/

/-- A table of rows `ρ` with the integer primary key `key`. -/
structure Table (ρ : Type*) (key : ρ → ℤ) where
  rows : List ρ
  seq : ℤ
  seq_nonneg : 0 ≤ seq
  key_le_seq : ∀ r ∈ rows, key r ≤ seq
  sorted : rows.Pairwise fun r r' => key r < key r'

namespace Table

variable {ρ : Type*} {key : ρ → ℤ}

/-- A table without rows, whose first key is 1. -/
def empty : Table ρ key where
  rows := []
  seq := 0
  seq_nonneg := le_rfl
  key_le_seq := by simp
  sorted := .nil

/-- The rows that satisfy `p`, in key order. -/
def select (t : Table ρ key) (p : ρ → Bool) : List ρ := t.rows.filter p

/-- How many rows an update under `p` changes. -/
def changes (t : Table ρ key) (p : ρ → Bool) : ℕ := (t.rows.filter p).length

/-- Replaces each row `r` that satisfies `p` by `f r`. -/
def update (t : Table ρ key) (p : ρ → Bool) (f : ρ → ρ)
    (hf : ∀ r, key (f r) = key r) : Table ρ key where
  rows := t.rows.map fun r => if p r then f r else r
  seq := t.seq
  seq_nonneg := t.seq_nonneg
  key_le_seq := by
    intro r' h
    obtain ⟨r, hr, rfl⟩ := List.mem_map.mp h
    have hkey : key (if p r then f r else r) = key r := by split <;> simp [hf]
    exact hkey ▸ t.key_le_seq r hr
  sorted := by
    rw [List.pairwise_map]
    refine t.sorted.imp fun {r r'} h => ?_
    have hkey : ∀ r, key (if p r then f r else r) = key r := by
      intro r
      split <;> simp [hf]
    rw [hkey, hkey]
    exact h

/-- Appends the row `mk k` under the next key `k`. -/
def insert (t : Table ρ key) (mk : ℤ → ρ) (hmk : ∀ k, key (mk k) = k) :
    Table ρ key where
  rows := t.rows ++ [mk (t.seq + 1)]
  seq := t.seq + 1
  seq_nonneg := by have := t.seq_nonneg; omega
  key_le_seq := by
    intro r h
    rcases List.mem_append.mp h with h | h
    · have := t.key_le_seq r h
      omega
    · rw [List.mem_singleton.mp h, hmk]
  sorted := by
    rw [List.pairwise_append]
    refine ⟨t.sorted, List.pairwise_singleton _ _, fun r hr r' hr' => ?_⟩
    rw [List.mem_singleton.mp hr', hmk]
    have := t.key_le_seq r hr
    omega

variable (t : Table ρ key)

/-- There is one row under a key. -/
theorem eq_of_key {r r' : ρ} (h : r ∈ t.rows) (h' : r' ∈ t.rows)
    (hk : key r = key r') : r = r' := by
  obtain ⟨i, hi, rfl⟩ := List.mem_iff_getElem.mp h
  obtain ⟨j, hj, rfl⟩ := List.mem_iff_getElem.mp h'
  have hsort := List.pairwise_iff_getElem.mp t.sorted
  rcases lt_trichotomy i j with hij | rfl | hij
  · have := hsort i j hi hj hij
    omega
  · rfl
  · have := hsort j i hj hi hij
    omega

theorem nodup_rows : t.rows.Nodup :=
  t.sorted.imp fun {r r'} h heq => by simp [heq] at h

@[simp] theorem mem_select {p : ρ → Bool} {r : ρ} :
    r ∈ t.select p ↔ r ∈ t.rows ∧ p r := List.mem_filter

theorem changes_pos {p : ρ → Bool} : 0 < t.changes p ↔ ∃ r ∈ t.rows, p r := by
  rw [changes, List.length_pos_iff_exists_mem]
  simp [List.mem_filter]

section Update

variable {p : ρ → Bool} {f : ρ → ρ} {hf : ∀ r, key (f r) = key r}

@[simp] theorem update_rows :
    (t.update p f hf).rows = t.rows.map fun r => if p r then f r else r := rfl

theorem update_eq_self (h : ∀ r ∈ t.rows, ¬ p r) : t.update p f hf = t := by
  have hrows : t.rows.map (fun r => if p r then f r else r) = t.rows := by
    conv_rhs => rw [← List.map_id t.rows]
    apply List.map_congr_left
    intro r hr
    simp [h r hr]
  cases t
  simpa only [update, mk.injEq, and_true] using hrows

theorem map_update {γ : Type*} {col : ρ → γ} (h : ∀ r, col (f r) = col r) :
    (t.update p f hf).rows.map col = t.rows.map col := by
  rw [update_rows, List.map_map]
  apply List.map_congr_left
  intro r _
  simp only [Function.comp_apply]
  split <;> simp [h]

/-- Selecting after an update whose new rows are all outside the selection
drops the updated rows. -/
theorem select_update_of_leaves {q : ρ → Bool} (h : ∀ r, p r → ¬ q (f r)) :
    (t.update p f hf).select q = (t.select q).filter fun r => ¬ p r := by
  unfold select update
  simp only [List.filter_map, List.filter_filter]
  induction t.rows with
  | nil => rfl
  | cons r rs ih =>
      by_cases hp : p r
      · simpa [hp, h r hp] using ih
      · by_cases hq : q r
        · simpa [hp, hq] using ih
        · simpa [hp, hq] using ih

/-- Selecting is not affected by an update that neither reads nor decides the
selected rows. -/
theorem select_update_of_outside {q : ρ → Bool} (h : ∀ r ∈ t.rows, p r → ¬ q r)
    (h' : ∀ r ∈ t.rows, p r → ¬ q (f r)) :
    (t.update p f hf).select q = t.select q := by
  unfold select
  rw [update_rows]
  generalize t.rows = rows at h h'
  induction rows with
  | nil => rfl
  | cons r rs ih =>
      have ih' := ih (fun r hr => h r (List.mem_cons_of_mem _ hr))
        (fun r hr => h' r (List.mem_cons_of_mem _ hr))
      by_cases hp : p r
      · have hq := h r List.mem_cons_self hp
        have hq' := h' r List.mem_cons_self hp
        simpa [hp, hq, hq'] using ih'
      · rw [List.map_cons, if_neg hp, List.filter_cons, List.filter_cons, ih']

end Update

section Insert

variable {mk : ℤ → ρ} {hmk : ∀ k, key (mk k) = k}

@[simp] theorem insert_rows :
    (t.insert mk hmk).rows = t.rows ++ [mk (t.seq + 1)] := rfl

end Insert

/-- Two selections with the same members are the same list. -/
theorem select_eq_of_mem_iff {t t' : Table ρ key} {p p' : ρ → Bool}
    (h : ∀ r, r ∈ t.select p ↔ r ∈ t'.select p') : t.select p = t'.select p' := by
  have hs : (t.select p).Pairwise fun r r' => key r < key r' := t.sorted.filter p
  have hs' : (t'.select p').Pairwise fun r r' => key r < key r' := t'.sorted.filter p'
  refine List.Perm.eq_of_pairwise (fun r r' _ _ h₁ h₂ => ?_) hs hs' ?_
  · omega
  · refine (List.perm_ext_iff_of_nodup ?_ ?_).mpr h
    · exact t.nodup_rows.filter p
    · exact t'.nodup_rows.filter p'

end Table
