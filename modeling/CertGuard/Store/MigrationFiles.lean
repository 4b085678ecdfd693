import CertGuard.Store.Migrations

/-!
# The migration files

The files of both drivers, and what becomes of a database when the process stops while they are
applied. Files that only create tables and indexes say `IF NOT EXISTS`. Those that alter tables
say so for Postgres, except two of them, and never for SQLite, which has no such clause for
columns.

## Main definitions

* `Sqlite`, `Postgres` — the files
* `Driver`, `openStore` — opening the store of a driver
* `AtMigratedPrefix` — a database that was last opened when there were fewer files

## Main results

* `openStore_eq_new` — such a database is brought up to date
* `migrations_survive_iff` — also after a process stopped on the way there, exactly if what ran
  of an unrecorded file says `IF NOT EXISTS`
* `stopped_after_meta` — and a database that cannot be opened any more
-/

namespace CertGuard

open Transition

/-! ### SQLite -/

namespace Sqlite

def init : MigrationFile where
  name := "0001_init.sql"
  body :=
    [.createTable true
      { name := "certs"
        columns :=
          [⟨"id", "INTEGER PRIMARY KEY AUTOINCREMENT"⟩, ⟨"name", "TEXT NOT NULL"⟩,
           ⟨"kind", "TEXT NOT NULL DEFAULT 'manual'"⟩, ⟨"host", "TEXT NOT NULL DEFAULT ''"⟩,
           ⟨"port", "INTEGER NOT NULL DEFAULT 0"⟩, ⟨"server_name", "TEXT NOT NULL DEFAULT ''"⟩,
           ⟨"subject", "TEXT NOT NULL DEFAULT ''"⟩, ⟨"issuer", "TEXT NOT NULL DEFAULT ''"⟩,
           ⟨"serial", "TEXT NOT NULL DEFAULT ''"⟩, ⟨"sha256", "TEXT NOT NULL DEFAULT ''"⟩,
           ⟨"not_before", "TEXT NOT NULL DEFAULT ''"⟩, ⟨"expires_at", "TEXT NOT NULL"⟩,
           ⟨"dns_names", "TEXT NOT NULL DEFAULT ''"⟩, ⟨"key_type", "TEXT NOT NULL DEFAULT ''"⟩,
           ⟨"sig_alg", "TEXT NOT NULL DEFAULT ''"⟩, ⟨"auto_rescan", "INTEGER NOT NULL DEFAULT 1"⟩,
           ⟨"last_scanned_at", "TEXT"⟩, ⟨"last_error", "TEXT NOT NULL DEFAULT ''"⟩,
           ⟨"notes", "TEXT NOT NULL DEFAULT ''"⟩, ⟨"active", "INTEGER NOT NULL DEFAULT 1"⟩,
           ⟨"created_at", "TEXT NOT NULL"⟩,
           ⟨"last_notified_threshold", "INTEGER NOT NULL DEFAULT 0"⟩,
           ⟨"last_notified_on", "TEXT"⟩] },
     .createIndex true
      { name := "idx_certs_active_expiry", table := "certs", columns := ["active", "expires_at"] },
     .createIndex true { name := "idx_certs_sha256", table := "certs", columns := ["sha256"] }]

def auth : MigrationFile where
  name := "0002_auth.sql"
  body :=
    [.createTable true
      { name := "users"
        columns :=
          [⟨"id", "INTEGER PRIMARY KEY AUTOINCREMENT"⟩, ⟨"email", "TEXT NOT NULL UNIQUE"⟩,
           ⟨"password_hash", "TEXT NOT NULL"⟩, ⟨"role", "TEXT NOT NULL DEFAULT 'viewer'"⟩,
           ⟨"created_at", "TEXT NOT NULL"⟩] },
     .createTable true
      { name := "api_tokens"
        columns :=
          [⟨"id", "INTEGER PRIMARY KEY AUTOINCREMENT"⟩,
           ⟨"user_id", "INTEGER NOT NULL REFERENCES users(id) ON DELETE CASCADE"⟩,
           ⟨"name", "TEXT NOT NULL DEFAULT ''"⟩, ⟨"token_hash", "TEXT NOT NULL UNIQUE"⟩,
           ⟨"created_at", "TEXT NOT NULL"⟩, ⟨"last_used_at", "TEXT"⟩] },
     .createTable true
      { name := "sessions"
        columns :=
          [⟨"id", "INTEGER PRIMARY KEY AUTOINCREMENT"⟩,
           ⟨"user_id", "INTEGER NOT NULL REFERENCES users(id) ON DELETE CASCADE"⟩,
           ⟨"session_hash", "TEXT NOT NULL UNIQUE"⟩, ⟨"created_at", "TEXT NOT NULL"⟩,
           ⟨"expires_at", "TEXT NOT NULL"⟩] },
     .createIndex true
      { name := "idx_tokens_hash", table := "api_tokens", columns := ["token_hash"] },
     .createIndex true
      { name := "idx_sessions_hash", table := "sessions", columns := ["session_hash"] }]

def notifications : MigrationFile where
  name := "0003_notifications.sql"
  body :=
    [.createTable true
      { name := "notification_channels"
        columns :=
          [⟨"id", "INTEGER PRIMARY KEY AUTOINCREMENT"⟩,
           ⟨"user_id", "INTEGER NOT NULL REFERENCES users(id) ON DELETE CASCADE"⟩,
           ⟨"type", "TEXT NOT NULL"⟩, ⟨"target", "TEXT NOT NULL"⟩,
           ⟨"thresholds", "TEXT NOT NULL DEFAULT ''"⟩, ⟨"enabled", "INTEGER NOT NULL DEFAULT 1"⟩,
           ⟨"created_at", "TEXT NOT NULL"⟩] },
     .createIndex true
      { name := "idx_channels_user", table := "notification_channels", columns := ["user_id"] },
     .createIndex true
      { name := "idx_channels_enabled", table := "notification_channels", columns := ["enabled"] }]

def category : MigrationFile where
  name := "0004_category.sql"
  body := [.addColumn false "certs" ⟨"category", "TEXT NOT NULL DEFAULT ''"⟩]

def secrets : MigrationFile where
  name := "0005_secrets.sql"
  body :=
    [.addColumn false "certs" ⟨"secret_enc", "TEXT NOT NULL DEFAULT ''"⟩,
     .addColumn false "certs" ⟨"secret_hint", "TEXT NOT NULL DEFAULT ''"⟩]

def security : MigrationFile where
  name := "0006_security.sql"
  body :=
    [.createTable false
      { name := "meta"
        columns := [⟨"mkey", "TEXT PRIMARY KEY"⟩, ⟨"mval", "TEXT NOT NULL DEFAULT ''"⟩] },
     .addColumn false "users" ⟨"totp_secret", "TEXT NOT NULL DEFAULT ''"⟩,
     .addColumn false "users" ⟨"totp_enabled", "INTEGER NOT NULL DEFAULT 0"⟩]

def coverage : MigrationFile where
  name := "0007_coverage.sql"
  body :=
    [.addColumn false "certs" ⟨"coverage_json", "TEXT NOT NULL DEFAULT ''"⟩,
     .addColumn false "certs" ⟨"coverage_at", "TEXT NOT NULL DEFAULT ''"⟩]

def events : MigrationFile where
  name := "0008_events.sql"
  body :=
    [.createTable true
      { name := "events"
        columns :=
          [⟨"id", "INTEGER PRIMARY KEY AUTOINCREMENT"⟩, ⟨"at", "TEXT NOT NULL"⟩,
           ⟨"kind", "TEXT NOT NULL"⟩, ⟨"cert_id", "INTEGER"⟩,
           ⟨"cert_name", "TEXT NOT NULL DEFAULT ''"⟩, ⟨"actor", "TEXT NOT NULL DEFAULT ''"⟩,
           ⟨"detail", "TEXT NOT NULL DEFAULT ''"⟩] },
     .createIndex true
      { name := "idx_events_at", table := "events", columns := ["at"], order := "DESC" },
     .createIndex true { name := "idx_events_cert", table := "events", columns := ["cert_id"] }]

def chain : MigrationFile where
  name := "0009_chain.sql"
  body :=
    [.addColumn false "certs" ⟨"chain_json", "TEXT NOT NULL DEFAULT ''"⟩,
     .addColumn false "certs" ⟨"last_chain_notified_threshold", "INTEGER NOT NULL DEFAULT 0"⟩]

def webauthn : MigrationFile where
  name := "0010_webauthn.sql"
  body :=
    [.createTable true
      { name := "webauthn_credentials"
        columns :=
          [⟨"id", "INTEGER PRIMARY KEY AUTOINCREMENT"⟩, ⟨"user_id", "INTEGER NOT NULL"⟩,
           ⟨"credential_id", "TEXT NOT NULL UNIQUE"⟩, ⟨"public_key", "TEXT NOT NULL"⟩,
           ⟨"aaguid", "TEXT NOT NULL DEFAULT ''"⟩, ⟨"sign_count", "INTEGER NOT NULL DEFAULT 0"⟩,
           ⟨"transports", "TEXT NOT NULL DEFAULT ''"⟩, ⟨"name", "TEXT NOT NULL DEFAULT ''"⟩,
           ⟨"backup_eligible", "INTEGER NOT NULL DEFAULT 0"⟩,
           ⟨"backup_state", "INTEGER NOT NULL DEFAULT 0"⟩, ⟨"created_at", "TEXT NOT NULL"⟩,
           ⟨"last_used_at", "TEXT NOT NULL DEFAULT ''"⟩]
        constraints :=
          ["FOREIGN KEY (user_id) REFERENCES users(id) ON DELETE CASCADE"] },
     .createIndex true
      { name := "idx_webauthn_user", table := "webauthn_credentials", columns := ["user_id"] },
     .createTable true
      { name := "vault_key_wrappers"
        columns :=
          [⟨"credential_id", "TEXT PRIMARY KEY"⟩, ⟨"wrapped", "TEXT NOT NULL"⟩,
           ⟨"prf_salt", "TEXT NOT NULL"⟩, ⟨"created_at", "TEXT NOT NULL"⟩]
        constraints :=
          ["FOREIGN KEY (credential_id) REFERENCES webauthn_credentials(credential_id) " ++
            "ON DELETE CASCADE"] }]

def prf : MigrationFile where
  name := "0011_prf.sql"
  body := [.addColumn false "webauthn_credentials" ⟨"prf_supported", "INTEGER NOT NULL DEFAULT -1"⟩]

def totpReplay : MigrationFile where
  name := "0012_totp_replay.sql"
  body := [.addColumn false "users" ⟨"totp_last_step", "INTEGER NOT NULL DEFAULT 0"⟩]

end Sqlite

/-! ### Postgres -/

namespace Postgres

def init : MigrationFile where
  name := "0001_init.sql"
  body :=
    [.createTable true
      { name := "certs"
        columns :=
          [⟨"id", "BIGINT GENERATED ALWAYS AS IDENTITY PRIMARY KEY"⟩, ⟨"name", "TEXT NOT NULL"⟩,
           ⟨"kind", "TEXT NOT NULL DEFAULT 'manual'"⟩, ⟨"host", "TEXT NOT NULL DEFAULT ''"⟩,
           ⟨"port", "INTEGER NOT NULL DEFAULT 0"⟩, ⟨"server_name", "TEXT NOT NULL DEFAULT ''"⟩,
           ⟨"subject", "TEXT NOT NULL DEFAULT ''"⟩, ⟨"issuer", "TEXT NOT NULL DEFAULT ''"⟩,
           ⟨"serial", "TEXT NOT NULL DEFAULT ''"⟩, ⟨"sha256", "TEXT NOT NULL DEFAULT ''"⟩,
           ⟨"not_before", "TEXT NOT NULL DEFAULT ''"⟩, ⟨"expires_at", "TEXT NOT NULL"⟩,
           ⟨"dns_names", "TEXT NOT NULL DEFAULT ''"⟩, ⟨"key_type", "TEXT NOT NULL DEFAULT ''"⟩,
           ⟨"sig_alg", "TEXT NOT NULL DEFAULT ''"⟩, ⟨"auto_rescan", "INTEGER NOT NULL DEFAULT 1"⟩,
           ⟨"last_scanned_at", "TEXT"⟩, ⟨"last_error", "TEXT NOT NULL DEFAULT ''"⟩,
           ⟨"notes", "TEXT NOT NULL DEFAULT ''"⟩, ⟨"active", "INTEGER NOT NULL DEFAULT 1"⟩,
           ⟨"created_at", "TEXT NOT NULL"⟩,
           ⟨"last_notified_threshold", "INTEGER NOT NULL DEFAULT 0"⟩,
           ⟨"last_notified_on", "TEXT"⟩] },
     .createIndex true
      { name := "idx_certs_active_expiry", table := "certs", columns := ["active", "expires_at"] },
     .createIndex true { name := "idx_certs_sha256", table := "certs", columns := ["sha256"] }]

def auth : MigrationFile where
  name := "0002_auth.sql"
  body :=
    [.createTable true
      { name := "users"
        columns :=
          [⟨"id", "BIGINT GENERATED ALWAYS AS IDENTITY PRIMARY KEY"⟩,
           ⟨"email", "TEXT NOT NULL UNIQUE"⟩, ⟨"password_hash", "TEXT NOT NULL"⟩,
           ⟨"role", "TEXT NOT NULL DEFAULT 'viewer'"⟩, ⟨"created_at", "TEXT NOT NULL"⟩] },
     .createTable true
      { name := "api_tokens"
        columns :=
          [⟨"id", "BIGINT GENERATED ALWAYS AS IDENTITY PRIMARY KEY"⟩,
           ⟨"user_id", "BIGINT NOT NULL REFERENCES users(id) ON DELETE CASCADE"⟩,
           ⟨"name", "TEXT NOT NULL DEFAULT ''"⟩, ⟨"token_hash", "TEXT NOT NULL UNIQUE"⟩,
           ⟨"created_at", "TEXT NOT NULL"⟩, ⟨"last_used_at", "TEXT"⟩] },
     .createTable true
      { name := "sessions"
        columns :=
          [⟨"id", "BIGINT GENERATED ALWAYS AS IDENTITY PRIMARY KEY"⟩,
           ⟨"user_id", "BIGINT NOT NULL REFERENCES users(id) ON DELETE CASCADE"⟩,
           ⟨"session_hash", "TEXT NOT NULL UNIQUE"⟩, ⟨"created_at", "TEXT NOT NULL"⟩,
           ⟨"expires_at", "TEXT NOT NULL"⟩] },
     .createIndex true
      { name := "idx_tokens_hash", table := "api_tokens", columns := ["token_hash"] },
     .createIndex true
      { name := "idx_sessions_hash", table := "sessions", columns := ["session_hash"] }]

def notifications : MigrationFile where
  name := "0003_notifications.sql"
  body :=
    [.createTable true
      { name := "notification_channels"
        columns :=
          [⟨"id", "BIGINT GENERATED ALWAYS AS IDENTITY PRIMARY KEY"⟩,
           ⟨"user_id", "BIGINT NOT NULL REFERENCES users(id) ON DELETE CASCADE"⟩,
           ⟨"type", "TEXT NOT NULL"⟩, ⟨"target", "TEXT NOT NULL"⟩,
           ⟨"thresholds", "TEXT NOT NULL DEFAULT ''"⟩, ⟨"enabled", "INTEGER NOT NULL DEFAULT 1"⟩,
           ⟨"created_at", "TEXT NOT NULL"⟩] },
     .createIndex true
      { name := "idx_channels_user", table := "notification_channels", columns := ["user_id"] },
     .createIndex true
      { name := "idx_channels_enabled", table := "notification_channels", columns := ["enabled"] }]

def category : MigrationFile where
  name := "0004_category.sql"
  body := [.addColumn true "certs" ⟨"category", "TEXT NOT NULL DEFAULT ''"⟩]

/-- The file is that of SQLite, and so is the next. -/
def secrets : MigrationFile := Sqlite.secrets

def security : MigrationFile := Sqlite.security

def coverage : MigrationFile where
  name := "0007_coverage.sql"
  body :=
    [.addColumn true "certs" ⟨"coverage_json", "TEXT NOT NULL DEFAULT ''"⟩,
     .addColumn true "certs" ⟨"coverage_at", "TEXT NOT NULL DEFAULT ''"⟩]

def events : MigrationFile where
  name := "0008_events.sql"
  body :=
    [.createTable true
      { name := "events"
        columns :=
          [⟨"id", "BIGINT GENERATED ALWAYS AS IDENTITY PRIMARY KEY"⟩, ⟨"at", "TEXT NOT NULL"⟩,
           ⟨"kind", "TEXT NOT NULL"⟩, ⟨"cert_id", "BIGINT"⟩,
           ⟨"cert_name", "TEXT NOT NULL DEFAULT ''"⟩, ⟨"actor", "TEXT NOT NULL DEFAULT ''"⟩,
           ⟨"detail", "TEXT NOT NULL DEFAULT ''"⟩] },
     .createIndex true
      { name := "idx_events_at", table := "events", columns := ["at"], order := "DESC" },
     .createIndex true { name := "idx_events_cert", table := "events", columns := ["cert_id"] }]

def chain : MigrationFile where
  name := "0009_chain.sql"
  body :=
    [.addColumn true "certs" ⟨"chain_json", "TEXT NOT NULL DEFAULT ''"⟩,
     .addColumn true "certs" ⟨"last_chain_notified_threshold", "INTEGER NOT NULL DEFAULT 0"⟩]

def webauthn : MigrationFile where
  name := "0010_webauthn.sql"
  body :=
    [.createTable true
      { name := "webauthn_credentials"
        columns :=
          [⟨"id", "BIGSERIAL PRIMARY KEY"⟩,
           ⟨"user_id", "BIGINT NOT NULL REFERENCES users(id) ON DELETE CASCADE"⟩,
           ⟨"credential_id", "TEXT NOT NULL UNIQUE"⟩, ⟨"public_key", "TEXT NOT NULL"⟩,
           ⟨"aaguid", "TEXT NOT NULL DEFAULT ''"⟩, ⟨"sign_count", "BIGINT NOT NULL DEFAULT 0"⟩,
           ⟨"transports", "TEXT NOT NULL DEFAULT ''"⟩, ⟨"name", "TEXT NOT NULL DEFAULT ''"⟩,
           ⟨"backup_eligible", "INTEGER NOT NULL DEFAULT 0"⟩,
           ⟨"backup_state", "INTEGER NOT NULL DEFAULT 0"⟩, ⟨"created_at", "TEXT NOT NULL"⟩,
           ⟨"last_used_at", "TEXT NOT NULL DEFAULT ''"⟩] },
     .createIndex true
      { name := "idx_webauthn_user", table := "webauthn_credentials", columns := ["user_id"] },
     .createTable true
      { name := "vault_key_wrappers"
        columns :=
          [⟨"credential_id",
             "TEXT PRIMARY KEY REFERENCES webauthn_credentials(credential_id) ON DELETE CASCADE"⟩,
           ⟨"wrapped", "TEXT NOT NULL"⟩, ⟨"prf_salt", "TEXT NOT NULL"⟩,
           ⟨"created_at", "TEXT NOT NULL"⟩] }]

def prf : MigrationFile where
  name := "0011_prf.sql"
  body := [.addColumn true "webauthn_credentials" ⟨"prf_supported", "INTEGER NOT NULL DEFAULT -1"⟩]

def totpReplay : MigrationFile where
  name := "0012_totp_replay.sql"
  body := [.addColumn true "users" ⟨"totp_last_step", "BIGINT NOT NULL DEFAULT 0"⟩]

end Postgres

/-! ### Opening a store -/

/-- The database driver. -/
inductive Driver
  | sqlite
  | postgres
  deriving DecidableEq, Repr

/-- `migrationFS`, in the order of the names. -/
def Driver.migrationFiles : Driver → List MigrationFile
  | sqlite =>
    [Sqlite.init, Sqlite.auth, Sqlite.notifications, Sqlite.category, Sqlite.secrets,
     Sqlite.security, Sqlite.coverage, Sqlite.events, Sqlite.chain, Sqlite.webauthn, Sqlite.prf,
     Sqlite.totpReplay]
  | postgres =>
    [Postgres.init, Postgres.auth, Postgres.notifications, Postgres.category, Postgres.secrets,
     Postgres.security, Postgres.coverage, Postgres.events, Postgres.chain, Postgres.webauthn,
     Postgres.prf, Postgres.totpReplay]

/-- `Open`, as far as the schema goes. -/
def openStore (d : Driver) (db : Database) : Option Database := migrate d.migrationFiles db

/-- A new database, or one that was opened when there were only the first few files. -/
def AtMigratedPrefix (d : Driver) (db : Database) : Prop :=
  db = {} ∨ ∃ k, migrate (d.migrationFiles.take k) {} = some db

variable {d : Driver} {db db' : Database} {files : List MigrationFile} {f : MigrationFile}
  {cmds : List Command}

theorem migrationFiles_nodup (d : Driver) : (d.migrationFiles.map MigrationFile.name).Nodup := by
  cases d <;> decide

/-- A new database goes through all files. -/
theorem openStore_new (d : Driver) : (openStore d {}).isSome = true := by
  cases d <;> decide +kernel

/-! ### Databases of earlier versions -/

theorem recorded_applyFile (h : applyFile db f = some db') :
    f.name ∈ db'.recorded ∧ ∀ v ∈ db.recorded, v ∈ db'.recorded := by
  unfold applyFile at h
  split_ifs at h with hdone
  · obtain rfl := Option.some.inj h
    exact ⟨hdone, fun _ hv => hv⟩
  · split at h
    · exact absurd h (by simp)
    · rw [Database.recorded_record h]
      exact ⟨List.mem_append_right _ (List.mem_singleton_self _),
        fun _ hv => List.mem_append_left _ hv⟩

/-- Files that were gone through are recorded. -/
theorem recorded_foldlM (h : files.foldlM applyFile db = some db') :
    (∀ f ∈ files, f.name ∈ db'.recorded) ∧ ∀ v ∈ db.recorded, v ∈ db'.recorded := by
  induction files generalizing db with
  | nil =>
    obtain rfl := Option.some.inj h
    exact ⟨by simp, fun _ hv => hv⟩
  | cons f files ih =>
    obtain ⟨mid, hfirst, hrest⟩ := Option.bind_eq_some_iff.mp h
    obtain ⟨hname, hkept⟩ := recorded_applyFile hfirst
    obtain ⟨hnames, hkept'⟩ := ih hrest
    exact ⟨List.forall_mem_cons.mpr ⟨hkept' _ hname, hnames⟩, fun v hv => hkept' v (hkept v hv)⟩

/-- Files that are recorded are passed over. -/
theorem foldlM_of_recorded (h : ∀ f ∈ files, f.name ∈ db.recorded) :
    files.foldlM applyFile db = some db := by
  induction files with
  | nil => rfl
  | cons f files ih =>
    obtain ⟨hname, hnames⟩ := List.forall_mem_cons.mp h
    rw [List.foldlM_cons, applyFile, if_pos hname]
    exact ih hnames

/-- A database that some files were applied to comes to the same as a new one when more are. -/
theorem migrate_of_migrated (hnodup : (files.map MigrationFile.name).Nodup)
    (h : migrate files {} = some db) (more : List MigrationFile) :
    migrate (files ++ more) db = migrate (files ++ more) {} := by
  have htable : db.createMigrations = db := by
    have hrun : run Command.step (Database.createMigrations {})
        (pending (Database.createMigrations {}).recorded files) = some db :=
      (migrate_eq_run hnodup).symm.trans h
    exact (run_keeps hrun).2 rfl
  rw [migrate, htable, List.foldlM_append, foldlM_of_recorded (recorded_foldlM h).1, migrate,
    List.foldlM_append]
  unfold migrate at h
  rw [h]

/-- A database of an earlier version is brought up to date. -/
theorem openStore_eq_new (hdb : AtMigratedPrefix d db) : openStore d db = openStore d {} := by
  rcases hdb with rfl | ⟨k, hk⟩
  · rfl
  · have hnodup : ((d.migrationFiles.take k).map MigrationFile.name).Nodup :=
      (migrationFiles_nodup d).sublist ((List.take_sublist k _).map _)
    have happly := migrate_of_migrated hnodup hk (d.migrationFiles.drop k)
    rw [List.take_append_drop] at happly
    exact happly

/-! ### Databases that a stopped process left -/

/-- For either driver, every database of an earlier version and every point at which the process
may stop while it opens the store: opening it again succeeds, and comes to the same as if the
process had not stopped, exactly if the statements of an unrecorded file that ran all say
`IF NOT EXISTS`. -/
theorem migrations_survive_iff (d : Driver) (hdb : AtMigratedPrefix d db)
    (hstop : cmds <+: commands d.migrationFiles db) :
    ∃ stopped final, run Command.step db cmds = some stopped ∧ openStore d db = some final ∧
      (openStore d stopped = some final ↔ Rerunnable cmds) := by
  have hopens : (openStore d db).isSome = true := by
    rw [openStore_eq_new hdb]
    exact openStore_new d
  obtain ⟨final, hfinal⟩ := Option.isSome_iff_exists.mp hopens
  obtain ⟨stopped, hrun, hiff⟩ := migrate_stopped_iff (migrationFiles_nodup d) hfinal hstop
  exact ⟨stopped, final, hrun, hfinal, hiff⟩

/-- A new database, whose process stops between the statements of the first file. -/
theorem migrations_survive_new :
    ∃ stopped final,
      run Command.step {} ((commands Driver.sqlite.migrationFiles {}).take 2) = some stopped ∧
        openStore .sqlite {} = some final ∧ openStore .sqlite stopped = some final := by
  obtain ⟨stopped, final, hrun, hfinal, hiff⟩ := migrations_survive_iff .sqlite (Or.inl rfl)
    (List.take_prefix 2 (commands Driver.sqlite.migrationFiles {}))
  exact ⟨stopped, final, hrun, hfinal, hiff.mpr (by decide)⟩

/-- The files with a statement that cannot be run again. -/
def Driver.fragile (d : Driver) : List String :=
  (d.migrationFiles.filter fun f => ¬ ∀ q ∈ f.body, q.ifNotExists = true).map MigrationFile.name

example : Driver.postgres.fragile = ["0005_secrets.sql", "0006_security.sql"] := by decide

/-- A database from before there was a table `meta`. -/
def beforeMeta : Database := (migrate (Driver.sqlite.migrationFiles.take 5) {}).getD {}

/-- What a process leaves that stops when it has created `meta`. -/
def afterMeta : Database :=
  (run Command.step beforeMeta ((commands Driver.sqlite.migrationFiles beforeMeta).take 2)).getD {}

/-- It cannot be opened again. -/
theorem stopped_after_meta : AtMigratedPrefix .sqlite beforeMeta ∧
    run Command.step beforeMeta ((commands Driver.sqlite.migrationFiles beforeMeta).take 2) =
      some afterMeta ∧
    openStore .sqlite afterMeta = none := by
  refine ⟨Or.inr ⟨5, ?_⟩, ?_, ?_⟩ <;> decide +kernel

end CertGuard
