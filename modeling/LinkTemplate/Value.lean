import LinkTemplate.Table
/-! # What a variable can be bound to -/

namespace LinkTemplate

inductive Value
  | undefined
  | text (text : Text)
  | list (items : List Text)
  | table (entries : Table Text)
  deriving DecidableEq

/-- An empty text counts as defined, an empty list or table does not. -/
def Value.isDefined : Value → Bool
  | undefined => false
  | text _ => true
  | list items => !items.isEmpty
  | table entries => !entries.isEmpty

theorem Value.isDefined_list_iff {items : List Text} :
    (Value.list items).isDefined ↔ items ≠ [] := by
  simp [isDefined]

theorem Value.isDefined_table_iff {entries : Table Text} :
    (Value.table entries).isDefined ↔ entries.entries ≠ [] := by
  simp [isDefined, Table.isEmpty]

end LinkTemplate
