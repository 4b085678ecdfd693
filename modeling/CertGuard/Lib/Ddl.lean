import Mathlib.Data.List.Basic

/-!
# Statements that change a schema

Tables, indexes and columns are made by name. A statement that finds what it would make already
there fails, unless it says `IF NOT EXISTS`: then it does nothing.

## Main definitions

* `Ddl.Schema`, `Ddl.Stmt` — a schema, and the statements that add to it
* `Ddl.exec`, `Ddl.execAll` — what a statement, and a list of them, does
* `Ddl.Stmt.Made` — what a statement makes is there

## Main results

* `Ddl.exec_of_made` — a statement whose work is done already
* `Ddl.execAll_again` — statements that are run a second time, together with others
-/

namespace Ddl

/-- A column, as it is declared. -/
structure Column where
  name : String
  decl : String
  deriving DecidableEq, Repr

/-- A table, with the constraints that are declared after its columns. -/
structure Table where
  name : String
  columns : List Column
  constraints : List String := []
  deriving DecidableEq, Repr

/-- An index, on columns of a table that may be declared descending. -/
structure Index where
  name : String
  table : String
  columns : List String
  order : String := ""
  deriving DecidableEq, Repr

/-- What was made so far, in order. -/
structure Schema where
  tables : List Table := []
  indexes : List Index := []
  deriving DecidableEq, Repr

/-- A statement; the flag is `IF NOT EXISTS`. -/
inductive Stmt
  | createTable (ifNotExists : Bool) (t : Table)
  | createIndex (ifNotExists : Bool) (i : Index)
  | addColumn (ifNotExists : Bool) (table : String) (c : Column)
  deriving DecidableEq, Repr

namespace Schema

def HasTable (s : Schema) (name : String) : Prop := ∃ t ∈ s.tables, t.name = name

instance (s : Schema) (name : String) : Decidable (s.HasTable name) :=
  inferInstanceAs (Decidable (∃ t ∈ _, _))

def HasColumn (s : Schema) (table column : String) : Prop :=
  ∃ t ∈ s.tables, t.name = table ∧ ∃ c ∈ t.columns, c.name = column

instance (s : Schema) (table column : String) : Decidable (s.HasColumn table column) :=
  inferInstanceAs (Decidable (∃ t ∈ _, _))

def HasIndex (s : Schema) (name : String) : Prop := ∃ i ∈ s.indexes, i.name = name

instance (s : Schema) (name : String) : Decidable (s.HasIndex name) :=
  inferInstanceAs (Decidable (∃ i ∈ _, _))

/-- A column is added at the end of its table. -/
def addColumn (s : Schema) (table : String) (c : Column) : Schema :=
  { s with
    tables := s.tables.map fun t =>
      if t.name = table then { t with columns := t.columns ++ [c] } else t }

end Schema

namespace Stmt

/-- The statement says `IF NOT EXISTS`. -/
def ifNotExists : Stmt → Bool
  | createTable b _ => b
  | createIndex b _ => b
  | addColumn b _ _ => b

/-- What the statement makes is there, by its name. -/
def Made (s : Schema) : Stmt → Prop
  | createTable _ t => s.HasTable t.name
  | createIndex _ i => s.HasIndex i.name
  | addColumn _ table c => s.HasColumn table c.name

instance (s : Schema) : ∀ q : Stmt, Decidable (q.Made s)
  | createTable _ t => inferInstanceAs (Decidable (s.HasTable t.name))
  | createIndex _ i => inferInstanceAs (Decidable (s.HasIndex i.name))
  | addColumn _ table c => inferInstanceAs (Decidable (s.HasColumn table c.name))

/-- What the statement refers to is there. -/
def Possible (s : Schema) : Stmt → Prop
  | createTable _ _ => True
  | createIndex _ i => s.HasTable i.table ∧ ∀ c ∈ i.columns, s.HasColumn i.table c
  | addColumn _ table _ => s.HasTable table

instance (s : Schema) : ∀ q : Stmt, Decidable (q.Possible s)
  | createTable _ _ => inferInstanceAs (Decidable True)
  | createIndex _ i => inferInstanceAs (Decidable (s.HasTable i.table ∧ _))
  | addColumn _ table _ => inferInstanceAs (Decidable (s.HasTable table))

/-- The schema with what the statement makes. -/
def make (s : Schema) : Stmt → Schema
  | createTable _ t => { s with tables := s.tables ++ [t] }
  | createIndex _ i => { s with indexes := s.indexes ++ [i] }
  | addColumn _ table c => s.addColumn table c

end Stmt

/-- What a statement does; `none` where it fails. -/
def exec (s : Schema) (q : Stmt) : Option Schema :=
  if q.Made s then if q.ifNotExists then some s else none
  else if q.Possible s then some (q.make s) else none

/-- Statements one after the other, up to the first that fails. -/
def execAll (s : Schema) : List Stmt → Option Schema
  | [] => some s
  | q :: qs => (exec s q).bind fun s' => execAll s' qs

variable {s s' : Schema} {q q' : Stmt} {qs rest : List Stmt}

/-! ### What is there stays there -/

theorem made_make (h : q.Possible s) : q.Made (q.make s) := by
  cases q with
  | createTable b t => exact ⟨t, List.mem_append_right _ (List.mem_singleton_self t), rfl⟩
  | createIndex b i => exact ⟨i, List.mem_append_right _ (List.mem_singleton_self i), rfl⟩
  | addColumn b table c =>
    obtain ⟨t, ht, hname⟩ := h
    refine ⟨{ t with columns := t.columns ++ [c] }, ?_, hname, c, ?_, rfl⟩
    · exact List.mem_map.mpr ⟨t, ht, if_pos hname⟩
    · exact List.mem_append_right _ (List.mem_singleton_self c)

/-- A table keeps its name and its columns. -/
theorem exists_table_make {t : Table} (ht : t ∈ s.tables) :
    ∃ t' ∈ (q.make s).tables, t'.name = t.name ∧ ∀ c ∈ t.columns, c ∈ t'.columns := by
  cases q with
  | createTable b t' => exact ⟨t, List.mem_append_left _ ht, rfl, fun _ hc => hc⟩
  | createIndex b i => exact ⟨t, ht, rfl, fun _ hc => hc⟩
  | addColumn b table c =>
    refine ⟨_, List.mem_map_of_mem ht, ?_, fun c' hc' => ?_⟩
    · split_ifs <;> rfl
    · split_ifs
      · exact List.mem_append_left _ hc'
      · exact hc'

theorem Stmt.Made.make (h : q.Made s) : q.Made (q'.make s) := by
  cases q with
  | createTable b t =>
    obtain ⟨t', ht', hname⟩ := h
    obtain ⟨t'', ht'', hname', -⟩ := exists_table_make (q := q') ht'
    exact ⟨t'', ht'', hname'.trans hname⟩
  | createIndex b i =>
    obtain ⟨i', hi', hname⟩ := h
    refine ⟨i', ?_, hname⟩
    cases q' with
    | createTable b t => exact hi'
    | createIndex b i => exact List.mem_append_left _ hi'
    | addColumn b table c => exact hi'
  | addColumn b table c =>
    obtain ⟨t', ht', hname, c', hc', hcname⟩ := h
    obtain ⟨t'', ht'', hname', hcolumns⟩ := exists_table_make (q := q') ht'
    exact ⟨t'', ht'', hname'.trans hname, c', hcolumns c' hc', hcname⟩

/-- A statement that went through has nothing left to do. -/
theorem made_of_exec (h : exec s q = some s') : q.Made s' := by
  unfold exec at h
  split_ifs at h with hmade hflag hpossible
  · exact Option.some.inj h ▸ hmade
  · exact Option.some.inj h ▸ made_make hpossible

theorem Stmt.Made.exec (h : q.Made s) (hexec : exec s q' = some s') : q.Made s' := by
  unfold Ddl.exec at hexec
  split_ifs at hexec
  · exact Option.some.inj hexec ▸ h
  · exact Option.some.inj hexec ▸ h.make

theorem Stmt.Made.execAll (h : q.Made s) (hexec : execAll s qs = some s') : q.Made s' := by
  induction qs generalizing s with
  | nil => exact Option.some.inj hexec ▸ h
  | cons q' qs ih =>
    obtain ⟨s'', hfirst, hrest⟩ := Option.bind_eq_some_iff.mp hexec
    exact ih (h.exec hfirst) hrest

theorem made_of_execAll (h : execAll s qs = some s') : ∀ q ∈ qs, q.Made s' := by
  induction qs generalizing s with
  | nil => simp
  | cons q qs ih =>
    obtain ⟨s'', hfirst, hrest⟩ := Option.bind_eq_some_iff.mp h
    rw [List.forall_mem_cons]
    exact ⟨(made_of_exec hfirst).execAll hrest, ih hrest⟩

/-! ### Running statements again -/

/-- A statement whose work is done does nothing, or fails. -/
theorem exec_of_made (h : q.Made s) : exec s q = if q.ifNotExists then some s else none :=
  if_pos h

/-- Statements whose work is done, and then others. -/
theorem execAll_of_made (h : ∀ q ∈ qs, q.Made s) :
    execAll s (qs ++ rest) = if ∀ q ∈ qs, q.ifNotExists = true then execAll s rest else none := by
  induction qs with
  | nil => simp
  | cons q qs ih =>
    obtain ⟨hq, hqs⟩ := List.forall_mem_cons.mp h
    rw [List.cons_append, execAll, exec_of_made hq]
    by_cases hflag : q.ifNotExists = true
    · rw [if_pos hflag, Option.bind_some, ih hqs]
      simp [hflag]
    · rw [if_neg hflag, Option.bind_none, if_neg fun hall => hflag (hall q List.mem_cons_self)]

/-- Statements that went through before are run again, and then others: this comes to the others
alone if all of them say `IF NOT EXISTS`, and fails if not. -/
theorem execAll_again (h : execAll s qs = some s') :
    execAll s' (qs ++ rest) = if ∀ q ∈ qs, q.ifNotExists = true then execAll s' rest else none :=
  execAll_of_made (made_of_execAll h)

end Ddl
