import CertGuard.Lib.Ddl
import CertGuard.Lib.TransitionRun

/-!
# Applying migrations

`migrate` goes through the migration files in order, runs those that are not recorded yet and
records each after its last statement. Nothing holds these statements together: each of them
commits by itself, and a process that stops leaves behind what it has done so far.

## Main definitions

* `migrate` — what opening a store does to its database
* `Command`, `commands` — the statements of a run, each of which commits by itself
* `unfinished` — the statements of a file that ran without being recorded
* `Rerunnable` — all of them say `IF NOT EXISTS`

## Main results

* `migrate_eq_run` — a run that is not interrupted
* `migrate_stopped_iff` — a run after an interrupted one
-/

namespace CertGuard

open Transition

/-- A migration: the name of its file, and the statements in it. -/
structure MigrationFile where
  name : String
  body : List Ddl.Stmt
  deriving DecidableEq, Repr

/-- A database, as far as migrations go: its schema, and the versions recorded in
`schema_migrations` once that table is there. -/
structure Database where
  schema : Ddl.Schema := {}
  versions : Option (List String) := none
  deriving DecidableEq, Repr

namespace Database

/-- The versions that are recorded. -/
def recorded (db : Database) : List String := db.versions.getD []

/-- `CREATE TABLE IF NOT EXISTS schema_migrations`. -/
def createMigrations (db : Database) : Database := { db with versions := some db.recorded }

/-- `INSERT INTO schema_migrations`, whose versions are its primary key. -/
def record (db : Database) (version : String) : Option Database :=
  if version ∈ db.recorded then none
  else some { db with versions := some (db.recorded ++ [version]) }

end Database

/-- The loop body of `migrate`. -/
def applyFile (db : Database) (f : MigrationFile) : Option Database :=
  if f.name ∈ db.recorded then some db
  else
    match Ddl.execAll db.schema f.body with
    | none => none
    | some schema => { db with schema := schema }.record f.name

/-- `migrate`, of the files of a driver in the order of their names. -/
def migrate (files : List MigrationFile) (db : Database) : Option Database :=
  files.foldlM applyFile db.createMigrations

/-! ### A run, statement by statement -/

/-- A statement that commits by itself. -/
inductive Command
  | createMigrations
  | exec (q : Ddl.Stmt)
  | record (version : String)
  deriving DecidableEq, Repr

/-- What a statement does; `none` where it fails. -/
def Command.step (db : Database) : Command → Option Database
  | createMigrations => some db.createMigrations
  | exec q => (Ddl.exec db.schema q).map fun schema => { db with schema := schema }
  | record version => db.record version

/-- The statements for a file that is not recorded yet. -/
def MigrationFile.commands (f : MigrationFile) : List Command :=
  f.body.map .exec ++ [.record f.name]

/-- The statements for files of which some are recorded. -/
def pending (recorded : List String) (files : List MigrationFile) : List Command :=
  (files.filter fun f => f.name ∉ recorded).flatMap MigrationFile.commands

/-- The statements of a run. -/
def commands (files : List MigrationFile) (db : Database) : List Command :=
  .createMigrations :: pending db.recorded files

/-- Keeps the statements that ran since a version was last recorded. -/
def Command.track (qs : List Ddl.Stmt) : Command → List Ddl.Stmt
  | createMigrations => qs
  | exec q => qs ++ [q]
  | record _ => []

/-- The statements that ran since a version was last recorded. -/
def unfinished (cmds : List Command) : List Ddl.Stmt := cmds.foldl Command.track []

/-- Every one of them says `IF NOT EXISTS`. -/
def Rerunnable (cmds : List Command) : Prop := ∀ q ∈ unfinished cmds, q.ifNotExists = true

instance (cmds : List Command) : Decidable (Rerunnable cmds) :=
  inferInstanceAs (Decidable (∀ q ∈ _, _))

variable {db db' final : Database} {files : List MigrationFile} {f : MigrationFile}
  {cmds : List Command} {qs : List Ddl.Stmt} {version : String}

/-! ### Single files -/

theorem run_exec : run Command.step db (qs.map .exec) =
    (Ddl.execAll db.schema qs).map fun schema => { db with schema := schema } := by
  induction qs generalizing db with
  | nil => rfl
  | cons q qs ih =>
    simp only [List.map_cons, run, Command.step, Ddl.execAll]
    cases Ddl.exec db.schema q with
    | none => rfl
    | some schema =>
      rw [Option.map_some, Option.bind_some, ih]
      rfl

/-- The statements of a file that ran twice, and others after them. -/
theorem run_exec_again (hrun : run Command.step db (qs.map .exec) = some db') :
    run Command.step db' (qs.map .exec ++ cmds) =
      if ∀ q ∈ qs, q.ifNotExists = true then run Command.step db' cmds else none := by
  rw [run_exec] at hrun
  obtain ⟨schema, hall, rfl⟩ := Option.map_eq_some_iff.mp hrun
  have hagain : Ddl.execAll schema (qs ++ []) = _ := Ddl.execAll_again hall
  rw [List.append_nil] at hagain
  rw [run_append, run_exec, hagain]
  split_ifs <;> rfl

theorem recorded_run_exec (hrun : run Command.step db (qs.map .exec) = some db') :
    db'.versions = db.versions := by
  rw [run_exec] at hrun
  obtain ⟨schema, -, rfl⟩ := Option.map_eq_some_iff.mp hrun
  rfl

theorem Database.recorded_record (h : db.record version = some db') :
    db'.recorded = db.recorded ++ [version] := by
  unfold Database.record at h
  split_ifs at h
  exact Option.some.inj h ▸ rfl

theorem applyFile_eq_run (hpending : f.name ∉ db.recorded) :
    applyFile db f = run Command.step db f.commands := by
  rw [applyFile, if_neg hpending, MigrationFile.commands, run_append, run_exec]
  cases Ddl.execAll db.schema f.body with
  | none => rfl
  | some schema =>
    simp only [Option.map_some, Option.bind_some, run, Command.step]
    cases Database.record { db with schema := schema } f.name <;> rfl

theorem pending_cons_of_mem {vs : List String} (h : f.name ∈ vs) :
    pending vs (f :: files) = pending vs files := by
  simp [pending, h]

theorem pending_cons_of_not_mem {vs : List String} (h : f.name ∉ vs) :
    pending vs (f :: files) = f.commands ++ pending vs files := by
  simp [pending, h]

/-- A version that is none of the files' makes no difference to what is pending. -/
theorem pending_append {vs : List String} (h : version ∉ files.map MigrationFile.name) :
    pending (vs ++ [version]) files = pending vs files := by
  have hsame : ∀ f ∈ files, decide (f.name ∉ vs ++ [version]) = decide (f.name ∉ vs) := by
    intro f hf
    have hne : f.name ≠ version := fun heq => h (heq ▸ List.mem_map_of_mem hf)
    simp [hne]
  rw [pending, List.filter_congr hsame, pending]

/-- Where a file is run, those after it are as pending as before. -/
theorem pending_of_run (hfresh : f.name ∉ files.map MigrationFile.name)
    (hrun : run Command.step db f.commands = some db') :
    pending db'.recorded files = pending db.recorded files := by
  rw [MigrationFile.commands, run_append] at hrun
  obtain ⟨mid, hbody, hrecord⟩ := Option.bind_eq_some_iff.mp hrun
  simp only [run, Command.step, Option.bind_fun_some] at hrecord
  have hsame : mid.recorded = db.recorded := by
    rw [Database.recorded, recorded_run_exec hbody, Database.recorded]
  rw [Database.recorded_record hrecord, hsame, pending_append hfresh]

/-! ### Whole runs -/

theorem foldlM_applyFile (hnodup : (files.map MigrationFile.name).Nodup) :
    files.foldlM applyFile db = run Command.step db (pending db.recorded files) := by
  induction files generalizing db with
  | nil => rfl
  | cons f files ih =>
    rw [List.map_cons, List.nodup_cons] at hnodup
    rw [List.foldlM_cons]
    by_cases hdone : f.name ∈ db.recorded
    · rw [applyFile, if_pos hdone, pending_cons_of_mem hdone]
      exact ih hnodup.2
    · rw [applyFile_eq_run hdone, pending_cons_of_not_mem hdone, run_append]
      cases hrun : run Command.step db f.commands with
      | none => rfl
      | some db' =>
        change files.foldlM applyFile db' = run Command.step db' _
        rw [ih hnodup.2, pending_of_run hnodup.1 hrun]

/-- A run that is not interrupted: the statements one after the other. Which of them there are
is settled by what is recorded at its beginning. -/
theorem migrate_eq_run (hnodup : (files.map MigrationFile.name).Nodup) :
    migrate files db = run Command.step db (commands files db) := by
  rw [migrate, foldlM_applyFile hnodup]
  rfl

/-! ### Interrupted runs -/

theorem unfinished_map_exec : unfinished (qs.map .exec) = qs := by
  induction qs using List.reverseRecOn with
  | nil => rfl
  | append_singleton qs q ih =>
    rw [unfinished] at ih ⊢
    rw [List.map_append, List.foldl_append, ih]
    rfl

/-- What was recorded is finished. -/
theorem unfinished_append (before : List Command) :
    unfinished (before ++ .record version :: cmds) = unfinished cmds := by
  rw [unfinished, List.foldl_append, List.foldl_cons]
  rfl

/-- The statements for a file and others stop within its body, or after the file was recorded. -/
theorem prefix_commands_cases {rest : List Command} (h : cmds <+: f.commands ++ rest) :
    (∃ qs qs', f.body = qs ++ qs' ∧ cmds = qs.map .exec) ∨
      ∃ cmds', cmds' <+: rest ∧ cmds = f.commands ++ cmds' := by
  rcases List.prefix_or_prefix_of_prefix h (List.prefix_append f.commands rest) with hin | hout
  · -- all of the file with its record, or a part of its body
    rcases List.prefix_concat_iff.mp hin with rfl | hbody
    · exact Or.inr ⟨[], List.nil_prefix, by rw [List.append_nil]; rfl⟩
    · obtain ⟨qs, ⟨qs', hsplit⟩, rfl⟩ := List.prefix_map_iff.mp hbody
      exact Or.inl ⟨qs, qs', hsplit.symm, rfl⟩
  · obtain ⟨cmds', rfl⟩ := hout
    exact Or.inr ⟨cmds', (List.prefix_append_right_inj _).mp h, rfl⟩

/-- A version stays recorded, and the table of versions stays there. -/
theorem step_keeps {cmd : Command} (hstep : cmd.step db = some db') :
    (∀ v ∈ db.recorded, v ∈ db'.recorded) ∧
      (db.createMigrations = db → db'.createMigrations = db') := by
  cases cmd with
  | createMigrations =>
    obtain rfl := Option.some.inj hstep
    exact ⟨fun _ hv => hv, fun _ => rfl⟩
  | exec q =>
    obtain ⟨schema, -, rfl⟩ := Option.map_eq_some_iff.mp hstep
    refine ⟨fun _ hv => hv, fun h => ?_⟩
    -- a schema statement leaves the versions
    have hversions := congrArg Database.versions h
    simp only [Database.createMigrations] at hversions ⊢
    rw [Database.mk.injEq]
    exact ⟨rfl, hversions⟩
  | record version =>
    have hrecorded := Database.recorded_record hstep
    refine ⟨fun v hv => hrecorded ▸ List.mem_append_left _ hv, fun _ => ?_⟩
    change db.record version = some db' at hstep
    unfold Database.record at hstep
    split_ifs at hstep
    exact Option.some.inj hstep ▸ rfl

theorem run_keeps (hrun : run Command.step db cmds = some db') :
    (∀ v ∈ db.recorded, v ∈ db'.recorded) ∧
      (db.createMigrations = db → db'.createMigrations = db') := by
  induction cmds generalizing db with
  | nil =>
    obtain rfl := Option.some.inj hrun
    exact ⟨fun _ hv => hv, fun h => h⟩
  | cons cmd cmds ih =>
    obtain ⟨mid, hfirst, hrest⟩ := Option.bind_eq_some_iff.mp hrun
    obtain ⟨hrecorded, htable⟩ := step_keeps hfirst
    obtain ⟨hrecorded', htable'⟩ := ih hrest
    exact ⟨fun v hv => hrecorded' v (hrecorded v hv), fun h => htable' (htable h)⟩

/-- A file that is interrupted: its statements are run again from the first. -/
theorem stopped_in_file_iff {rest : List Command} {qs' : List Ddl.Stmt} {stopped : Database}
    (hbody : f.body = qs ++ qs') (hfinal : run Command.step db (f.commands ++ rest) = some final)
    (hrun : run Command.step db (qs.map .exec) = some stopped) :
    run Command.step stopped (f.commands ++ rest) = some final ↔
      ∀ q ∈ qs, q.ifNotExists = true := by
  have hsplit : f.commands ++ rest =
      qs.map .exec ++ (qs'.map .exec ++ .record f.name :: rest) := by
    rw [MigrationFile.commands, hbody]
    simp
  rw [hsplit, run_append, hrun, Option.bind_some] at hfinal
  -- the statements that ran are run a second time, and the others follow
  rw [hsplit, run_exec_again hrun]
  split_ifs with hflags
  · exact iff_of_true hfinal hflags
  · exact iff_of_false (by simp) hflags

/-- What is left to do is done by a run after an interrupted one exactly if the statements that
were not recorded can be run again. -/
theorem pending_stopped_iff (hnodup : (files.map MigrationFile.name).Nodup)
    (hfinal : run Command.step db (pending db.recorded files) = some final)
    (hstop : cmds <+: pending db.recorded files) :
    ∃ stopped, run Command.step db cmds = some stopped ∧
      (run Command.step stopped (pending stopped.recorded files) = some final ↔
        Rerunnable cmds) := by
  induction files generalizing db cmds with
  | nil =>
    obtain rfl := List.prefix_nil.mp hstop
    exact ⟨db, rfl, iff_of_true hfinal (by simp [Rerunnable, unfinished])⟩
  | cons f files ih =>
    rw [List.map_cons, List.nodup_cons] at hnodup
    by_cases hdone : f.name ∈ db.recorded
    · -- the file is recorded, and stays so
      rw [pending_cons_of_mem hdone] at hfinal hstop
      obtain ⟨stopped, hrun, hiff⟩ := ih hnodup.2 hfinal hstop
      refine ⟨stopped, hrun, ?_⟩
      rw [pending_cons_of_mem ((run_keeps hrun).1 _ hdone)]
      exact hiff
    · rw [pending_cons_of_not_mem hdone] at hfinal hstop
      rcases prefix_commands_cases hstop with ⟨qs, qs', hbody, rfl⟩ | ⟨cmds', hrest, rfl⟩
      · -- the process stops within this file
        have hthrough : (run Command.step db (qs.map .exec)).isSome := by
          obtain ⟨rest, hrest⟩ := hstop
          rw [← hrest, run_append] at hfinal
          obtain ⟨mid, hmid, -⟩ := Option.bind_eq_some_iff.mp hfinal
          rw [hmid, Option.isSome_some]
        obtain ⟨stopped, hrun⟩ := Option.isSome_iff_exists.mp hthrough
        have hsame : stopped.recorded = db.recorded := by
          rw [Database.recorded, recorded_run_exec hrun, Database.recorded]
        refine ⟨stopped, hrun, ?_⟩
        rw [hsame, pending_cons_of_not_mem hdone, Rerunnable, unfinished_map_exec]
        exact stopped_in_file_iff hbody hfinal hrun
      · -- it stops after this file is recorded
        rw [run_append] at hfinal
        obtain ⟨mid, hmid, hfinal⟩ := Option.bind_eq_some_iff.mp hfinal
        have hrecorded : f.name ∈ mid.recorded := by
          rw [MigrationFile.commands, run_append] at hmid
          obtain ⟨before, -, hrecord⟩ := Option.bind_eq_some_iff.mp hmid
          simp only [run, Command.step, Option.bind_fun_some] at hrecord
          rw [Database.recorded_record hrecord]
          exact List.mem_append_right _ (List.mem_singleton_self _)
        rw [← pending_of_run hnodup.1 hmid] at hfinal hrest
        obtain ⟨stopped, hrun, hiff⟩ := ih hnodup.2 hfinal hrest
        refine ⟨stopped, by rw [run_append, hmid, Option.bind_some, hrun], ?_⟩
        rw [pending_cons_of_mem ((run_keeps hrun).1 _ hrecorded), hiff, Rerunnable, Rerunnable,
          MigrationFile.commands, List.append_assoc, List.singleton_append, unfinished_append]

/-- A process that stops at any point of a run that would have gone through leaves a database
for which another run comes to the same, exactly if every statement of the unrecorded file that
ran says `IF NOT EXISTS`. -/
theorem migrate_stopped_iff (hnodup : (files.map MigrationFile.name).Nodup)
    (hfinal : migrate files db = some final) (hstop : cmds <+: commands files db) :
    ∃ stopped, run Command.step db cmds = some stopped ∧
      (migrate files stopped = some final ↔ Rerunnable cmds) := by
  rcases List.prefix_cons_iff.mp hstop with rfl | ⟨cmds', rfl, hrest⟩
  · exact ⟨db, rfl, iff_of_true hfinal (by simp [Rerunnable, unfinished])⟩
  · rw [migrate_eq_run hnodup] at hfinal
    have hpending : run Command.step db.createMigrations
        (pending db.createMigrations.recorded files) = some final := hfinal
    obtain ⟨stopped, hrun, hiff⟩ := pending_stopped_iff hnodup hpending hrest
    refine ⟨stopped, hrun, ?_⟩
    have htable : stopped.createMigrations = stopped := (run_keeps hrun).2 rfl
    rw [migrate, foldlM_applyFile hnodup, htable, hiff]
    rfl

end CertGuard
