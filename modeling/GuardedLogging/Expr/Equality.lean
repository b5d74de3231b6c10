import GuardedLogging.Expr

/-!
# Equality of expressions

Two expressions are equal if they are the same tree. The decision compares both trees at once; trees with different roots differ.
-/

namespace GuardedLogging

namespace Expr

mutual

/-- Whether two expressions are equal, decided along both trees. -/
def decEq : (left right : Expr) → Decidable (left = right)
  | absent, absent => isTrue rfl
  | const a, const b => decidable_of_iff (a = b) (by simp)
  | var a, var b => decidable_of_iff (a = b) (by simp)
  | classRef a, classRef b => decidable_of_iff (a = b) (by simp)
  | args a, args b =>
    have := decEqAll a b
    decidable_of_iff (a = b) (by simp)
  | call a m as, call b n bs =>
    have := decEq a b
    have := decEqAll as bs
    decidable_of_iff (a = b ∧ m = n ∧ as = bs) (by simp)
  | property a m, property b n =>
    have := decEq a b
    decidable_of_iff (a = b ∧ m = n) (by simp)
  | condition a, condition b =>
    have := decEq a b
    decidable_of_iff (a = b) (by simp)
  | not a, not b =>
    have := decEq a b
    decidable_of_iff (a = b) (by simp)
  | ternary a b c, ternary d e f =>
    have := decEq a d
    have := decEq b e
    have := decEq c f
    decidable_of_iff (a = d ∧ b = e ∧ c = f) (by simp)
  | absent, const _ | absent, var _ | absent, classRef _ | absent, args _ | absent, call ..
  | absent, property .. | absent, condition _ | absent, not _ | absent, ternary .. => isFalse (by simp)
  | const _, absent | const _, var _ | const _, classRef _ | const _, args _ | const _, call ..
  | const _, property .. | const _, condition _ | const _, not _ | const _, ternary .. =>
    isFalse (by simp)
  | var _, absent | var _, const _ | var _, classRef _ | var _, args _ | var _, call ..
  | var _, property .. | var _, condition _ | var _, not _ | var _, ternary .. => isFalse (by simp)
  | classRef _, absent | classRef _, const _ | classRef _, var _ | classRef _, args _
  | classRef _, call .. | classRef _, property .. | classRef _, condition _ | classRef _, not _
  | classRef _, ternary .. => isFalse (by simp)
  | args _, absent | args _, const _ | args _, var _ | args _, classRef _ | args _, call ..
  | args _, property .. | args _, condition _ | args _, not _ | args _, ternary .. =>
    isFalse (by simp)
  | call .., absent | call .., const _ | call .., var _ | call .., classRef _ | call .., args _
  | call .., property .. | call .., condition _ | call .., not _ | call .., ternary .. =>
    isFalse (by simp)
  | property .., absent | property .., const _ | property .., var _ | property .., classRef _
  | property .., args _ | property .., call .. | property .., condition _ | property .., not _
  | property .., ternary .. => isFalse (by simp)
  | condition _, absent | condition _, const _ | condition _, var _ | condition _, classRef _
  | condition _, args _ | condition _, call .. | condition _, property .. | condition _, not _
  | condition _, ternary .. => isFalse (by simp)
  | not _, absent | not _, const _ | not _, var _ | not _, classRef _ | not _, args _
  | not _, call .. | not _, property .. | not _, condition _ | not _, ternary .. =>
    isFalse (by simp)
  | ternary .., absent | ternary .., const _ | ternary .., var _ | ternary .., classRef _
  | ternary .., args _ | ternary .., call .. | ternary .., property .. | ternary .., condition _
  | ternary .., not _ => isFalse (by simp)

def decEqAll : (left right : List Expr) → Decidable (left = right)
  | [], [] => isTrue rfl
  | a :: as, b :: bs =>
    have := decEq a b
    have := decEqAll as bs
    decidable_of_iff (a = b ∧ as = bs) (by simp)
  | [], _ :: _ | _ :: _, [] => isFalse (by simp)

end

instance : DecidableEq Expr := decEq

end Expr

end GuardedLogging
