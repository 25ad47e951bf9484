import GraphQuery.Record.Entry

/-! One row: an entry per column, and a mark on rows that stand for an optional match that
found nothing. -/

namespace GraphQuery

structure Record where
  entries : List Entry
  nullMarker : Bool

namespace Record

def empty : Record := ⟨[], false⟩

def new (width : Nat) : Record := ⟨List.replicate width .unknown, false⟩

def ofEntries (entries : List Entry) : Record := ⟨entries, false⟩

/-- The row of an optional match that found nothing. -/
def missed (width : Nat) : Record := ⟨List.replicate width .null, true⟩

def get? (r : Record) (column : Nat) : Option Entry := r.entries[column]?

def width (r : Record) : Nat := r.entries.length

/-- Sets a column, after widening the row with unbound slots where it is too short. -/
def set (r : Record) (column : Nat) (entry : Entry) : Record :=
  let missing := column + 1 - r.entries.length
  { r with entries := (r.entries ++ List.replicate missing Entry.unknown).set column entry }

def mark (r : Record) (nullMarker : Bool) : Record := { r with nullMarker }

def clear (r : Record) : Record := new r.width

def equal (r s : Record) : Bool :=
  equalEntries r.entries s.entries && r.nullMarker == s.nullMarker

end Record

end GraphQuery
