/-! Lists of texts in the order of a dictionary: the first text that differs decides. -/
namespace PresenceCaps

def textsLe : List String → List String → Bool
  | [], _ => true
  | _ :: _, [] => false
  | x :: xs, y :: ys => decide (x < y) || (x == y && textsLe xs ys)

theorem textsLe_cons_cons {x y : String} {xs ys : List String} :
    textsLe (x :: xs) (y :: ys) = true ↔ x < y ∨ x = y ∧ textsLe xs ys = true := by
  simp [textsLe]

end PresenceCaps
