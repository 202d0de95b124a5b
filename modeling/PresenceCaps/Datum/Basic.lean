import PresenceCaps.Assoc

/-! Data, the common shape of JSON values and settings documents. -/
namespace PresenceCaps

/-- A number that is not written as an integer keeps its digits: nothing here computes with it. -/
inductive Datum where
  | null
  | bool (b : Bool)
  | int (n : Int)
  | real (literal : String)
  | text (s : String)
  | list (items : List Datum)
  | table (entries : List (String × Datum))
deriving Inhabited

namespace Datum

def child? : Datum → String → Option Datum
  | table es, k => Assoc.get? es k
  | _, _ => none

/-- The value at a path of keys; only tables have keys. -/
def get? (t : Datum) : List String → Option Datum
  | [] => some t
  | k :: ks => (t.child? k).bind (get? · ks)

def isTable : Datum → Bool
  | table _ => true
  | _ => false

@[simp] theorem get?_nil (t : Datum) : t.get? [] = some t := rfl

theorem get?_cons (t : Datum) (k : String) (ks : List String) :
    t.get? (k :: ks) = (t.child? k).bind (get? · ks) := rfl

end Datum
end PresenceCaps
