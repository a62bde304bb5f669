import ShadowCatalog.Catalog.Call
import ShadowCatalog.Postgres.Server

/-!
# Statements on the catalogs

The live catalog of a server is its system catalog, of which one schema is
looked at. The shadow catalog is kept in two tables of its own, which are never
reported as live. Here is each statement on them, with the values bound to it.
-/

namespace ShadowCatalog.Postgres

/-- The tables that hold the shadow catalog. -/
def shadowTables : List String := ["tabula_tables", "tabula_columns"]

namespace Request

/-! ## The live catalog -/

/-- The tables of a schema, apart from those of the shadow catalog. -/
def liveTables (schema : String) : Request where
  text := "SELECT cls.oid AS physical_id, cls.relname AS table_name " ++
    "FROM pg_catalog.pg_class cls " ++
    "JOIN pg_catalog.pg_namespace ns " ++
    "  ON ns.oid = cls.relnamespace " ++
    "WHERE ns.nspname = $1 " ++
    "  AND cls.relkind IN ('r', 'p') " ++
    "  AND NOT (cls.relname = ANY($2)) " ++
    "ORDER BY cls.relname"
  values := [.text schema, .texts shadowTables]

/-- The columns of a table, apart from dropped ones and those of the system. -/
def liveColumns (schema table : String) : Request where
  text := "SELECT " ++
    "  attr.attnum AS position, " ++
    "  attr.attname AS column_name, " ++
    "  pg_catalog.format_type(attr.atttypid, attr.atttypmod) AS data_type, " ++
    "  NOT attr.attnotnull AS is_nullable, " ++
    "  CASE WHEN attr.attgenerated = '' " ++
    "    THEN pg_catalog.pg_get_expr(def.adbin, def.adrelid) END AS default_expr, " ++
    "  attr.attidentity <> '' AS is_identity, " ++
    "  CASE WHEN attr.attgenerated <> '' " ++
    "    THEN pg_catalog.pg_get_expr(def.adbin, def.adrelid) END AS generated_expr " ++
    "FROM pg_catalog.pg_attribute attr " ++
    "JOIN pg_catalog.pg_class cls " ++
    "  ON cls.oid = attr.attrelid " ++
    "JOIN pg_catalog.pg_namespace ns " ++
    "  ON ns.oid = cls.relnamespace " ++
    "LEFT JOIN pg_catalog.pg_attrdef def " ++
    "  ON def.adrelid = attr.attrelid " ++
    " AND def.adnum = attr.attnum " ++
    "WHERE ns.nspname = $1 " ++
    "  AND cls.relname = $2 " ++
    "  AND attr.attnum > 0 " ++
    "  AND NOT attr.attisdropped " ++
    "ORDER BY attr.attnum"
  values := [.text schema, .text table]

/-- The foreign keys of a table that have one column. -/
def foreignKeys (schema table : String) : Request where
  text := "SELECT " ++
    "  source.relname AS referencing_table, " ++
    "  source_attr.attname AS referencing_column, " ++
    "  target.relname AS referenced_table, " ++
    "  target_attr.attname AS referenced_column " ++
    "FROM pg_catalog.pg_constraint con " ++
    "JOIN pg_catalog.pg_class source " ++
    "  ON source.oid = con.conrelid " ++
    "JOIN pg_catalog.pg_namespace source_ns " ++
    "  ON source_ns.oid = source.relnamespace " ++
    "JOIN pg_catalog.pg_class target " ++
    "  ON target.oid = con.confrelid " ++
    "JOIN pg_catalog.pg_namespace target_ns " ++
    "  ON target_ns.oid = target.relnamespace " ++
    "JOIN unnest(con.conkey) WITH ORDINALITY AS source_key(attnum, ord) " ++
    "  ON TRUE " ++
    "JOIN unnest(con.confkey) WITH ORDINALITY AS target_key(attnum, ord) " ++
    "  ON source_key.ord = target_key.ord " ++
    "JOIN pg_catalog.pg_attribute source_attr " ++
    "  ON source_attr.attrelid = source.oid " ++
    " AND source_attr.attnum = source_key.attnum " ++
    "JOIN pg_catalog.pg_attribute target_attr " ++
    "  ON target_attr.attrelid = target.oid " ++
    " AND target_attr.attnum = target_key.attnum " ++
    "WHERE con.contype = 'f' " ++
    "  AND array_length(con.conkey, 1) = 1 " ++
    "  AND source_ns.nspname = $1 " ++
    "  AND target_ns.nspname = $1 " ++
    "  AND source.relname = $2 " ++
    "ORDER BY source_attr.attnum, con.conname"
  values := [.text schema, .text table]

/-! ## The shadow catalog -/

/-- The columns of a tracked table's row. -/
def tableFields : String :=
  "table_id, name, physical_id, column_ids, display_order, label_column"

/-- The columns of a tracked column's row. -/
def columnFields : String := "column_id, table_id, position, name, data_type"

/-- The tracked tables. -/
def trackedTables : Request where
  text := "SELECT " ++ tableFields ++ " FROM tabula_tables ORDER BY table_id"
  values := []

/-- The first tracked table of a name. -/
def trackedTable (name : String) : Request where
  text := "SELECT " ++ tableFields ++
    " FROM tabula_tables WHERE name = $1 ORDER BY table_id LIMIT 1"
  values := [.text name]

/-- The columns of a tracked table. -/
def trackedColumns (table : TableId) : Request where
  text := "SELECT " ++ columnFields ++
    " FROM tabula_columns WHERE table_id = $1 ORDER BY position, column_id"
  values := [.integer table]

/-- A change of the shadow catalog. -/
def write : Write → Request
  | .insertTable name physicalId =>
    ⟨"INSERT INTO tabula_tables (name, physical_id) VALUES ($1, $2) RETURNING table_id",
      [.text name, .integer physicalId]⟩
  | .renameTable table name =>
    ⟨"UPDATE tabula_tables SET name = $2 WHERE table_id = $1", [.integer table, .text name]⟩
  | .updatePhysicalId table physicalId =>
    ⟨"UPDATE tabula_tables SET physical_id = $2 WHERE table_id = $1",
      [.integer table, .integer physicalId]⟩
  | .deleteTable table =>
    ⟨"DELETE FROM tabula_tables WHERE table_id = $1", [.integer table]⟩
  | .saveLayout table columnIds displayOrder =>
    ⟨"UPDATE tabula_tables SET column_ids = $2, display_order = $3 WHERE table_id = $1",
      [.integer table, .integers columnIds.toList, .integers displayOrder]⟩
  | .setLabelColumn table label =>
    ⟨"UPDATE tabula_tables SET label_column = $2 WHERE table_id = $1",
      [.integer table, .optionalText label]⟩
  | .insertColumn table column =>
    ⟨"INSERT INTO tabula_columns (table_id, position, name, data_type) " ++
        "VALUES ($1, $2, $3, $4) RETURNING column_id",
      [.integer table, .integer column.position, .text column.name, .text column.dataType]⟩
  | .updateColumn column =>
    ⟨"UPDATE tabula_columns SET position = $2, name = $3, data_type = $4 " ++
        "WHERE column_id = $1",
      [.integer column.columnId, .integer column.position, .text column.name,
        .text column.dataType]⟩
  | .deleteColumn column =>
    ⟨"DELETE FROM tabula_columns WHERE column_id = $1", [.integer column]⟩

end Request

/-- The statements that make the tables of the shadow catalog where they are not
    there yet. -/
def createShadowTables : String :=
  "\nCREATE TABLE IF NOT EXISTS tabula_tables (\n" ++
  "    table_id      BIGSERIAL PRIMARY KEY,\n" ++
  "    name          TEXT NOT NULL,\n" ++
  "    physical_id   OID NOT NULL,\n" ++
  "    column_ids    JSONB NOT NULL DEFAULT '[]'::jsonb,\n" ++
  "    display_order JSONB NOT NULL DEFAULT '[]'::jsonb,\n" ++
  "    label_column  TEXT\n" ++
  ");\n" ++
  "\n" ++
  "CREATE TABLE IF NOT EXISTS tabula_columns (\n" ++
  "    column_id BIGSERIAL PRIMARY KEY,\n" ++
  "    table_id  BIGINT NOT NULL REFERENCES tabula_tables (table_id) ON DELETE CASCADE,\n" ++
  "    position  SMALLINT NOT NULL,\n" ++
  "    name      TEXT NOT NULL,\n" ++
  "    data_type TEXT NOT NULL,\n" ++
  "    UNIQUE (table_id, position)\n" ++
  ");\n" ++
  "\n" ++
  "CREATE INDEX IF NOT EXISTS tabula_tables_name_idx ON tabula_tables (name);\n"

end ShadowCatalog.Postgres
