/-! White space as Unicode's property White_Space has it: trimming and words. -/
namespace PresenceCaps

def isBlank (c : Char) : Bool :=
  let n := c.toNat
  (0x09 ≤ n && n ≤ 0x0d) || n == 0x20 || n == 0x85 || n == 0xa0 || n == 0x1680 ||
    (0x2000 ≤ n && n ≤ 0x200a) || n == 0x2028 || n == 0x2029 || n == 0x202f || n == 0x205f || n == 0x3000

def trimLeft (cs : List Char) : List Char := cs.dropWhile isBlank

def trim (cs : List Char) : List Char := (trimLeft (trimLeft cs).reverse).reverse

def words (cs : List Char) : List (List Char) := (cs.splitBy fun a b => isBlank a == isBlank b).filter fun w =>
  !w.all isBlank

end PresenceCaps
