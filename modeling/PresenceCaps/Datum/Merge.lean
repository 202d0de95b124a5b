import PresenceCaps.Datum.Basic

/-! Laying one datum over another: tables are joined key by key, all else is replaced. -/
namespace PresenceCaps.Datum

mutual

def merge : Datum → Datum → Datum
  | table base, table upper => table (mergeEntries base upper)
  | _, upper => upper

def mergeEntries (base : List (String × Datum)) : List (String × Datum) → List (String × Datum)
  | [] => base
  | (k, upper) :: rest =>
    mergeEntries (Assoc.set base k (match Assoc.get? base k with
      | some old => merge old upper
      | none => upper)) rest

end

end PresenceCaps.Datum
