import GroupReplay.Store.Records
import GroupReplay.Store.Tables

/-!
A store of either kind, in memory or in tables, for a program that chooses while it runs.
-/

namespace GroupReplay.Store

/-- Records in memory or the tables of a database. -/
inductive AnyStore where
  | inMemory (records : Records)
  | inTables (tables : Tables)
  deriving DecidableEq, Repr, Inhabited

namespace AnyStore

/-- Performs an operation. -/
def perform {α : Type} (op : Op α) : AnyStore → Except Error α × AnyStore
  | .inMemory records =>
    let result := records.perform op
    (result.1, .inMemory result.2)
  | .inTables tables =>
    let result := tables.perform op
    (result.1, .inTables result.2)

instance : LocalStore AnyStore where
  perform := perform
  recorded
    | .inMemory records => records.recorded
    | .inTables _ => false

end AnyStore

end GroupReplay.Store
