import Steward.Migration.Directory

/-!
# The schema of the database

The migrations that the controller brings along.

These are the `migrations` in `MIGRATIONS_DIR`.
-/

namespace Steward.Database

/-- Resources and the secrets they refer to. -/
def initialScript : String :=
"-- Configuration resources and the secrets they reference

CREATE TABLE IF NOT EXISTS resources (
    id SERIAL PRIMARY KEY,
    kind VARCHAR(63) NOT NULL,
    namespace VARCHAR(253) NOT NULL DEFAULT 'default',
    name VARCHAR(253) NOT NULL,
    generation INTEGER NOT NULL DEFAULT 1,
    resource_version BIGINT NOT NULL DEFAULT 1,
    spec JSONB NOT NULL DEFAULT '\x7b\x7d'::jsonb,
    spec_hash VARCHAR(64) NOT NULL,
    status JSONB NOT NULL DEFAULT '\x7b\x7d'::jsonb,
    finalizers JSONB NOT NULL DEFAULT '[]'::jsonb,
    deletion_timestamp TIMESTAMPTZ,
    next_reconcile_time TIMESTAMPTZ,
    created_at TIMESTAMPTZ NOT NULL DEFAULT NOW(),
    updated_at TIMESTAMPTZ NOT NULL DEFAULT NOW(),
    UNIQUE (kind, namespace, name)
);

CREATE INDEX IF NOT EXISTS idx_resources_next_reconcile
    ON resources (next_reconcile_time)
    WHERE next_reconcile_time IS NOT NULL;

CREATE INDEX IF NOT EXISTS idx_resources_kind_namespace
    ON resources (kind, namespace);

CREATE TABLE IF NOT EXISTS secrets (
    namespace VARCHAR(253) NOT NULL,
    name VARCHAR(253) NOT NULL,
    data JSONB NOT NULL DEFAULT '\x7b\x7d'::jsonb,
    created_at TIMESTAMPTZ NOT NULL DEFAULT NOW(),
    updated_at TIMESTAMPTZ NOT NULL DEFAULT NOW(),
    PRIMARY KEY (namespace, name)
);
"

/-- Where the migrations that the controller brings along are. -/
def schemaPath : String := "migrations"

/-- The entries of that directory. -/
def schemaEntries : List Migration.Entry := [⟨"001_initial.sql", some initialScript⟩]

end Steward.Database
