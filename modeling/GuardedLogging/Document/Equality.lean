import GuardedLogging.Document

/-!
# Equality of documents

Two documents are equal if they are the same tree: the order of the entries of a mapping counts. The decision compares both trees at once.
-/

namespace GuardedLogging

namespace Document

mutual

/-- Whether two documents are equal, decided along both trees. -/
def decEq : (left right : Document) → Decidable (left = right)
  | scalar a, scalar b => decidable_of_iff (a = b) (by simp)
  | list as, list bs =>
    have := decEqItems as bs
    decidable_of_iff (as = bs) (by simp)
  | mapping as, mapping bs =>
    have := decEqEntries as bs
    decidable_of_iff (as = bs) (by simp)
  | foreign a, foreign b => decidable_of_iff (a = b) (by simp)
  | scalar _, list _ | scalar _, mapping _ | scalar _, foreign _ | list _, scalar _ | list _, mapping _
  | list _, foreign _ | mapping _, scalar _ | mapping _, list _ | mapping _, foreign _ | foreign _, scalar _
  | foreign _, list _ | foreign _, mapping _ => .isFalse (by simp)

def decEqItems : (left right : List Document) → Decidable (left = right)
  | [], [] => .isTrue rfl
  | a :: as, b :: bs =>
    have := decEq a b
    have := decEqItems as bs
    decidable_of_iff (a = b ∧ as = bs) (by simp)
  | [], _ :: _ | _ :: _, [] => .isFalse (by simp)

def decEqEntries : (left right : List (Key × Document)) → Decidable (left = right)
  | [], [] => .isTrue rfl
  | (key, a) :: as, (name, b) :: bs =>
    have := decEq a b
    have := decEqEntries as bs
    decidable_of_iff ((key = name ∧ a = b) ∧ as = bs) (by simp)
  | [], _ :: _ | _ :: _, [] => .isFalse (by simp)

end

instance : DecidableEq Document := decEq

end Document

end GuardedLogging
