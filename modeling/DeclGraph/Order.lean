/-!
# Lexicographic order

Members and extents are sorted by pairs of numbers. `pairLe` is total and transitive, so sorting
by it has one result as long as no pair occurs twice.
-/

namespace DeclGraph

/-- Whether the first number is smaller, or equal and the second is not larger. -/
def pairLe (a b : Nat × Nat) : Bool := a.1 < b.1 || (a.1 == b.1 && a.2 ≤ b.2)

theorem pairLe_iff {a b : Nat × Nat} :
    pairLe a b = true ↔ a.1 < b.1 ∨ (a.1 = b.1 ∧ a.2 ≤ b.2) := by
  simp [pairLe]

theorem pairLe_total (a b : Nat × Nat) : (pairLe a b || pairLe b a) = true := by
  rw [Bool.or_eq_true, pairLe_iff, pairLe_iff]
  omega

theorem pairLe_trans (a b c : Nat × Nat) (h1 : pairLe a b = true) (h2 : pairLe b c = true) :
    pairLe a c = true := by
  rw [pairLe_iff] at *
  omega

theorem pairLe_antisymm {a b : Nat × Nat} (h1 : pairLe a b = true) (h2 : pairLe b a = true) :
    a = b := by
  rw [pairLe_iff] at *
  apply Prod.ext <;> omega

end DeclGraph
