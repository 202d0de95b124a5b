/-! Cutting a text at byte positions, which may lie inside a character. -/
namespace PresenceCaps

def byteLength : List Char → Nat
  | [] => 0
  | c :: cs => c.utf8Size + byteLength cs

/-- The characters before a byte position and those after it. -/
def splitAtByte? : Nat → List Char → Option (List Char × List Char)
  | 0, cs => some ([], cs)
  | _ + 1, [] => none
  | n + 1, c :: cs =>
    if c.utf8Size ≤ n + 1 then (splitAtByte? (n + 1 - c.utf8Size) cs).map fun p => (c :: p.1, p.2) else none

/-- The characters between two byte positions. -/
def slice? (first last : Nat) (cs : List Char) : Option (List Char) := do
  let (_, rest) ← splitAtByte? first cs
  let (inside, _) ← splitAtByte? (last - first) rest
  return inside

end PresenceCaps
