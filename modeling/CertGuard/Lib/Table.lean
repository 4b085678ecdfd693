import Mathlib.Algebra.Order.Group.Unbundled.Int
import Mathlib.Data.List.Nodup
import Mathlib.Data.List.Pairwise

/-!
# Tables with generated keys

A database table whose primary key is an `AUTOINCREMENT` integer: rows are kept
in the order of their keys, and a key handed out once is never handed out again.
The key is not part of the row, so no statement on rows can change it.

## Main definitions

* `Table` — rows by key, with the key last handed out
* `Table.get?`, `Table.modify`, `Table.modifyAll`, `Table.erase`, `Table.eraseAll`,
  `Table.insert`, `Table.insertAll`

## Main results

* `Table.mem_rows_iff` — the rows are exactly what lookups find
* `Table.get?_modify`, `Table.get?_insert` — lookups after a statement
-/

/-- A table with generated keys. -/
structure Table (ρ : Type*) where
  rows : List (Int × ρ)
  /-- The key last handed out. -/
  seq : Int
  sorted : rows.Pairwise fun r r' => r.1 < r'.1
  le_seq : ∀ r ∈ rows, r.1 ≤ seq

namespace Table

variable {ρ : Type*}

/-- A table nothing was inserted into yet. -/
def empty : Table ρ := ⟨[], 0, List.Pairwise.nil, by simp⟩

/-- The row with a key. -/
def get? (t : Table ρ) (k : Int) : Option ρ := (t.rows.find? fun r => r.1 = k).map (·.2)

/-- Changes the row with a key, if there is one. -/
def modify (t : Table ρ) (k : Int) (f : ρ → ρ) : Table ρ where
  rows := t.rows.map fun r => (r.1, if r.1 = k then f r.2 else r.2)
  seq := t.seq
  sorted := List.pairwise_map.mpr t.sorted
  le_seq := by
    intro r hr
    obtain ⟨r', hr', rfl⟩ := List.mem_map.mp hr
    exact t.le_seq r' hr'

/-- Changes every row. -/
def modifyAll (t : Table ρ) (f : ρ → ρ) : Table ρ where
  rows := t.rows.map fun r => (r.1, f r.2)
  seq := t.seq
  sorted := List.pairwise_map.mpr t.sorted
  le_seq := by
    intro r hr
    obtain ⟨r', hr', rfl⟩ := List.mem_map.mp hr
    exact t.le_seq r' hr'

/-- Removes the row with a key, if there is one. -/
def erase (t : Table ρ) (k : Int) : Table ρ where
  rows := t.rows.filter fun r => r.1 ≠ k
  seq := t.seq
  sorted := t.sorted.filter _
  le_seq r hr := t.le_seq r (List.mem_of_mem_filter hr)

/-- Removes every row that meets a condition. -/
def eraseAll (t : Table ρ) (p : ρ → Bool) : Table ρ where
  rows := t.rows.filter fun r => !p r.2
  seq := t.seq
  sorted := t.sorted.filter _
  le_seq r hr := t.le_seq r (List.mem_of_mem_filter hr)

/-- The key the next row gets. -/
def nextKey (t : Table ρ) : Int := t.seq + 1

/-- Adds a row under the next key. -/
def insert (t : Table ρ) (row : ρ) : Table ρ where
  rows := t.rows ++ [(t.nextKey, row)]
  seq := t.nextKey
  sorted := by
    refine List.pairwise_append.mpr ⟨t.sorted, List.pairwise_singleton _ _, fun r hr r' hr' => ?_⟩
    obtain rfl := List.mem_singleton.mp hr'
    exact Int.lt_add_one_of_le (t.le_seq r hr)
  le_seq := by
    intro r hr
    rcases List.mem_append.mp hr with hr | hr
    · exact (t.le_seq r hr).trans (Int.le_of_lt (Int.lt_add_one_of_le le_rfl))
    · obtain rfl := List.mem_singleton.mp hr
      exact le_rfl

/-- Adds rows one after another. -/
def insertAll (t : Table ρ) (rows : List ρ) : Table ρ := rows.foldl insert t

variable {t t' : Table ρ} {k k' : Int} {row : ρ} {f : ρ → ρ}

/-! ### Rows and lookups -/

theorem ext_rows (hrows : t.rows = t'.rows) (hseq : t.seq = t'.seq) : t = t' := by
  cases t
  cases t'
  cases hrows
  cases hseq
  rfl

theorem nodup_keys (t : Table ρ) : (t.rows.map Prod.fst).Nodup :=
  List.pairwise_map.mpr (t.sorted.imp ne_of_lt)

/-- Two rows with one key are one row. -/
theorem eq_of_key_eq {r r' : Int × ρ} (h : r ∈ t.rows) (h' : r' ∈ t.rows) (hk : r.1 = r'.1) :
    r = r' :=
  List.inj_on_of_nodup_map t.nodup_keys h h' hk

theorem mem_rows_iff : (k, row) ∈ t.rows ↔ t.get? k = some row := by
  constructor
  · intro h
    cases hfind : t.rows.find? fun r => r.1 = k with
    | none => exact absurd (List.find?_eq_none.mp hfind (k, row) h) (by simp)
    | some r =>
      have hmem := List.mem_of_find?_eq_some hfind
      have hkey : r.1 = k := by simpa using List.find?_some hfind
      rw [get?, hfind, eq_of_key_eq hmem h hkey]
      rfl
  · intro h
    obtain ⟨r, hfind, rfl⟩ := Option.map_eq_some_iff.mp h
    have hkey : r.1 = k := by simpa using List.find?_some hfind
    exact hkey ▸ List.mem_of_find?_eq_some hfind

/-- No row has a key that was not handed out. -/
theorem le_seq_of_get? (h : t.get? k = some row) : k ≤ t.seq :=
  t.le_seq _ (mem_rows_iff.mpr h)

theorem get?_nextKey : t.get? t.nextKey = none := by
  cases h : t.get? t.nextKey with
  | none => rfl
  | some row => exact absurd (le_seq_of_get? h) (by simp only [nextKey]; omega)

/-! ### Lookups after a statement -/

/-- The key of a row is not the next one. -/
theorem ne_nextKey (h : t.get? k = some row) : k ≠ t.nextKey := by
  rintro rfl
  exact absurd (get?_nextKey.symm.trans h) (by simp)

@[simp] theorem get?_empty : (empty : Table ρ).get? k = none := rfl

theorem get?_modify : (t.modify k f).get? k' = if k' = k then (t.get? k').map f else t.get? k' := by
  have hkey : (fun r : Int × ρ => decide (r.1 = k')) ∘
      (fun r : Int × ρ => (r.1, if r.1 = k then f r.2 else r.2)) = fun r => decide (r.1 = k') := rfl
  rw [get?, get?, modify, List.find?_map, hkey]
  cases hfind : t.rows.find? fun r => r.1 = k' with
  | none => simp
  | some r =>
    have hr : r.1 = k' := by simpa using List.find?_some hfind
    subst hr
    split_ifs with h <;> simp [h]

@[simp] theorem get?_modify_self : (t.modify k f).get? k = (t.get? k).map f := by
  rw [get?_modify, if_pos rfl]

@[simp] theorem get?_modifyAll : (t.modifyAll f).get? k = (t.get? k).map f := by
  have hkey : (fun r : Int × ρ => decide (r.1 = k)) ∘ (fun r : Int × ρ => (r.1, f r.2)) =
      fun r => decide (r.1 = k) := rfl
  rw [get?, get?, modifyAll, List.find?_map, hkey]
  cases t.rows.find? fun r => r.1 = k <;> rfl

theorem get?_insert : (t.insert row).get? k = if k = t.nextKey then some row else t.get? k := by
  rw [get?, insert, List.find?_append]
  split_ifs with h
  · subst h
    have hnone : t.rows.find? (fun r => decide (r.1 = t.nextKey)) = none :=
      Option.map_eq_none_iff.mp get?_nextKey
    simp [hnone]
  · have hne : ¬ t.nextKey = k := fun h' => h h'.symm
    simp [get?, hne]

theorem get?_eraseAll {p : ρ → Bool} :
    (t.eraseAll p).get? k = (t.get? k).filter fun r => !p r := by
  ext row
  rw [← mem_rows_iff, Option.filter_eq_some_iff, ← mem_rows_iff, eraseAll, List.mem_filter]

theorem get?_erase : (t.erase k).get? k' = if k' = k then none else t.get? k' := by
  ext row
  rw [← mem_rows_iff, erase, List.mem_filter, mem_rows_iff]
  split_ifs with h <;> simp [h]

/-- Adding a row leaves the rows there as they are. -/
theorem get?_insert_of_some {row' : ρ} (h : t.get? k = some row') :
    (t.insert row).get? k = some row' := by
  rw [get?_insert, if_neg (ne_nextKey h), h]

theorem insert_inj {row' : ρ} (h : t.insert row = t.insert row') : row = row' := by
  have hrows : t.rows ++ [(t.nextKey, row)] = t.rows ++ [(t.nextKey, row')] :=
    congrArg Table.rows h
  exact (Prod.mk.inj (List.singleton_inj.mp (List.append_cancel_left hrows))).2

/-- A table with a row more is another table. -/
theorem ne_insert : t ≠ t.insert row := by
  intro h
  have hlength := congrArg (fun t : Table ρ => t.rows.length) h
  simp [insert] at hlength

/-! ### Some of the rows -/

/-- The rows that meet a condition. -/
def part (t : Table ρ) (p : ρ → Bool) : List (Int × ρ) := t.rows.filter fun r => p r.2

variable {p q : ρ → Bool}

theorem part_insert (h : p row = false) : (t.insert row).part p = t.part p := by
  simp [part, insert, h]

theorem part_erase (h : ∀ row, t.get? k = some row → p row = false) :
    (t.erase k).part p = t.part p := by
  rw [part, part, erase, List.filter_filter]
  refine List.filter_congr fun r hr => ?_
  by_cases hk : r.1 = k
  · subst hk
    simp [h r.2 (mem_rows_iff.mp hr)]
  · simp [hk]

theorem part_eraseAll (h : ∀ r, p r = true → q r = false) : (t.eraseAll q).part p = t.part p := by
  rw [part, part, eraseAll, List.filter_filter]
  refine List.filter_congr fun r _ => ?_
  cases hp : p r.2
  · rfl
  · simp [h r.2 hp]

/-- The rows of one owner stay when those of another go. -/
theorem part_eraseAll_of_ne {κ : Type*} [DecidableEq κ] {a b : κ} (owner : ρ → κ) (h : a ≠ b) :
    ((t.eraseAll fun r => owner r = b).part fun r => owner r = a) =
      t.part fun r => owner r = a :=
  part_eraseAll fun _ hr => decide_eq_false fun hb => h ((of_decide_eq_true hr).symm.trans hb)

theorem eraseAll_insert (h : p row = false) :
    (t.eraseAll p).insert row = (t.insert row).eraseAll p := by
  refine ext_rows ?_ rfl
  simp [insert, eraseAll, nextKey, h]

theorem eraseAll_erase : (t.eraseAll p).erase k = (t.erase k).eraseAll p :=
  ext_rows (List.filter_comm _ _ _) rfl

theorem eraseAll_eraseAll : (t.eraseAll p).eraseAll q = (t.eraseAll q).eraseAll p :=
  ext_rows (List.filter_comm _ _ _) rfl

/-! ### Tables that look the same -/

variable {g : ρ → ρ} {f' : ρ → ρ}

theorem map_eq_map_of_map_eq_map {α β γ : Type*} {G : α → β} {F F' : α → γ} {l l' : List α}
    (h : l.map G = l'.map G) (hF : ∀ x y, G x = G y → F x = F' y) : l.map F = l'.map F' := by
  induction l generalizing l' with
  | nil =>
    rw [List.map_nil, eq_comm, List.map_eq_nil_iff] at h
    rw [h, List.map_nil, List.map_nil]
  | cons x l ih =>
    cases l' with
    | nil => simp at h
    | cons y l' =>
      obtain ⟨hxy, htail⟩ := List.cons.inj h
      rw [List.map_cons, List.map_cons, hF x y hxy, ih htail]

theorem rows_of_modifyAll_eq (h : t.modifyAll g = t'.modifyAll g) :
    t.rows.map (fun r => (r.1, g r.2)) = t'.rows.map (fun r => (r.1, g r.2)) :=
  congrArg Table.rows h

theorem seq_of_modifyAll_eq (h : t.modifyAll g = t'.modifyAll g) : t.seq = t'.seq := by
  have hseq : (t.modifyAll g).seq = (t'.modifyAll g).seq := congrArg Table.seq h
  exact hseq

/-- Changing a row keeps two tables looking the same if the rows it leaves do. -/
theorem modifyAll_modify_congr (h : t.modifyAll g = t'.modifyAll g)
    (hf : ∀ r r', g r = g r' → g (f r) = g (f' r')) :
    (t.modify k f).modifyAll g = (t'.modify k f').modifyAll g := by
  have hseq := seq_of_modifyAll_eq h
  refine ext_rows ?_ hseq
  simp only [modifyAll, modify, List.map_map]
  refine map_eq_map_of_map_eq_map (rows_of_modifyAll_eq h) fun x y hxy => ?_
  obtain ⟨hkey, hrow⟩ := Prod.mk.inj hxy
  simp only [Function.comp_apply, hkey, Prod.mk.injEq, true_and]
  split_ifs
  · exact hf x.2 y.2 hrow
  · exact hrow

/-- A change that does not show keeps a table looking the same. -/
theorem modifyAll_modify_of_eq (hf : ∀ r, g (f r) = g r) :
    (t.modify k f).modifyAll g = t.modifyAll g := by
  refine ext_rows ?_ rfl
  simp only [modifyAll, modify, List.map_map]
  refine List.map_congr_left fun r _ => ?_
  simp only [Function.comp_apply]
  split_ifs
  · rw [hf]
  · rfl

theorem modifyAll_insert_congr {row' : ρ} (h : t.modifyAll g = t'.modifyAll g)
    (hrow : g row = g row') :
    (t.insert row).modifyAll g = (t'.insert row').modifyAll g := by
  have hseq := seq_of_modifyAll_eq h
  refine ext_rows ?_ (congrArg (· + 1) hseq)
  simp only [modifyAll, insert, nextKey, List.map_append, rows_of_modifyAll_eq h, List.map_cons,
    List.map_nil, hrow, hseq]

/-- Whether rows are kept, and how they are found, goes by what they look like. -/
theorem map_filter_rows_congr {p : Int × ρ → Bool} (h : t.modifyAll g = t'.modifyAll g)
    (hp : ∀ r : Int × ρ, p (r.1, g r.2) = p r) :
    (t.rows.filter p).map (fun r => (r.1, g r.2)) =
      (t'.rows.filter p).map (fun r => (r.1, g r.2)) := by
  have hfilter : ∀ l : List (Int × ρ), (l.filter p).map (fun r => (r.1, g r.2)) =
      (l.map fun r => (r.1, g r.2)).filter p := fun l => by
    rw [List.filter_map]
    congr 2
    funext r
    exact (hp r).symm
  rw [hfilter, hfilter, rows_of_modifyAll_eq h]

theorem map_find?_rows_congr {p : Int × ρ → Bool} (h : t.modifyAll g = t'.modifyAll g)
    (hp : ∀ r : Int × ρ, p (r.1, g r.2) = p r) :
    (t.rows.find? p).map (fun r => (r.1, g r.2)) =
      (t'.rows.find? p).map (fun r => (r.1, g r.2)) := by
  have hhead := congrArg List.head? (map_filter_rows_congr h hp)
  rwa [List.head?_map, List.head?_map, List.head?_filter, List.head?_filter] at hhead

end Table
